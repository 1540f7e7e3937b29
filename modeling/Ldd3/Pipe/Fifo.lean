import Mathlib.Tactic
import Ldd3.Lib.BoundedFifo
import Ldd3.Lib.StepMachine
import Ldd3.Pipe.Steps

/-!
The circular buffer of one pipe is a bounded queue of `buffersize - 1` bytes for as
long as it stays allocated, under any interleaving of the processes.
-/

namespace Ldd3.Pipe

structure Sound (dev : ScullPipe) (buffer : List Byte) : Prop where
  start : dev.start = some buffer
  length : dev.buffersize = buffer.length
  inside : Ring.Inside buffer.length dev.rp dev.wp
  fits : buffer.length < 2147483648

def ScullPipe.contents (dev : ScullPipe) (buffer : List Byte) : List Byte :=
  Ring.contents buffer dev.rp dev.wp

theorem minSize_of_nonneg (count : Nat) {limit : Int} (lower : 0 ≤ limit)
    (upper : limit < 2147483648) : minSize count limit = min count limit.toNat := by
  rw [minSize, CInt.uint64_of_range lower (by omega)]

theorem getSpacefree_stored {dev : ScullPipe} {buffer : List Byte} (sound : Sound dev buffer) :
    (Ring.stored buffer.length dev.rp dev.wp : Int) + getSpacefree dev = buffer.length - 1 := by
  obtain ⟨reader, writer⟩ := sound.inside
  simp only [getSpacefree, Ring.stored, sound.length]
  by_cases empty : dev.rp = dev.wp
  · rw [if_pos empty, if_pos empty.le]
    omega
  · rw [if_neg empty]
    by_cases ahead : dev.rp ≤ dev.wp
    · have small : ((dev.rp : Int) - dev.wp + buffer.length).tmod buffer.length =
          (dev.rp : Int) - dev.wp + buffer.length := by
        rw [Int.tmod_eq_emod_of_nonneg (by omega)]
        exact Int.emod_eq_of_lt (by omega) (by omega)
      rw [small, if_pos ahead]
      omega
    · have wrapped : ((dev.rp : Int) - dev.wp + buffer.length).tmod buffer.length =
          (dev.rp : Int) - dev.wp := by
        rw [Int.tmod_eq_emod_of_nonneg (by omega), Int.add_emod_right]
        exact Int.emod_eq_of_lt (by omega) (by omega)
      rw [wrapped, if_neg ahead]
      omega

theorem readCount_readable {dev : ScullPipe} {buffer : List Byte} (sound : Sound dev buffer)
    (nonempty : dev.rp ≠ dev.wp) (count : Nat) :
    readCount dev count ≤ Ring.readable buffer.length dev.rp dev.wp := by
  obtain ⟨reader, writer⟩ := sound.inside
  have fits := sound.fits
  simp only [readCount, Ring.readable, sound.length]
  split
  · rw [minSize_of_nonneg count (by omega) (by omega), if_pos (by omega)]
    omega
  · rw [minSize_of_nonneg count (by omega) (by omega), if_neg (by omega)]
    omega

theorem writeCount_writable {dev : ScullPipe} {buffer : List Byte} (sound : Sound dev buffer)
    (count : Nat) :
    writeCount dev count ≤ count ∧
      writeCount dev count ≤ Ring.writable buffer.length dev.rp dev.wp := by
  have balance := getSpacefree_stored sound
  have bound := Ring.stored_lt sound.inside
  obtain ⟨reader, writer⟩ := sound.inside
  have fits := sound.fits
  have room : 0 < CInt.uint64 ((buffer.length : Int) - dev.wp) := by
    rw [CInt.uint64_of_range (by omega) (by omega)]
    omega
  simp only [writeCount, sound.length, Ring.writable]
  simp only [Ring.stored] at balance bound
  rw [minSize_of_nonneg count (by omega) (by omega)]
  split at balance
  · rename_i ahead
    rw [if_pos ahead, if_pos ahead, if_pos room, CInt.uint64_of_range (by omega) (by omega)]
    omega
  · rename_i behind
    rw [if_neg behind, if_neg behind, minSize_of_nonneg _ (by omega) (by omega)]
    omega

theorem readable_fits {size rp wp : Nat} (inside : Ring.Inside size rp wp) :
    rp + Ring.readable size rp wp ≤ size := by
  obtain ⟨reader, writer⟩ := inside
  simp only [Ring.readable]
  split <;> omega

theorem writable_fits {size rp wp : Nat} (inside : Ring.Inside size rp wp) :
    wp + Ring.writable size rp wp ≤ size := by
  obtain ⟨reader, writer⟩ := inside
  simp only [Ring.writable]
  split <;> omega

theorem scullPReadLocked_data {env : Env} {dev after : ScullPipe} {buffer bytes : List Byte}
    {count : Nat} (sound : Sound dev buffer)
    (locked : scullPReadLocked env dev count = .ok (after, .data bytes)) :
    Sound after buffer ∧ bytes ++ after.contents buffer = dev.contents buffer := by
  simp only [scullPReadLocked, sound.start] at locked
  split at locked
  · split at locked <;> simp at locked
  · rename_i nonempty
    have available := readCount_readable sound nonempty count
    have reach := readable_fits sound.inside
    split at locked
    · split at locked
      · simp at locked
      · simp only [Except.ok.injEq, Prod.mk.injEq, ReadOutcome.data.injEq] at locked
        obtain ⟨device, taken⟩ := locked
        subst device taken
        constructor
        · refine ⟨rfl, sound.length, ⟨?_, sound.inside.writer⟩, sound.fits⟩
          rw [sound.length]
          apply Ring.wrap_lt
          · omega
          · exact Nat.zero_lt_of_lt sound.inside.reader
        · simp only [ScullPipe.contents]
          rw [Ring.contents_take sound.inside available, sound.length]
    · contradiction

theorem sound_overwrite {dev : ScullPipe} {buffer cells : List Byte} (sound : Sound dev buffer)
    (free : cells.length ≤ Ring.writable buffer.length dev.rp dev.wp) :
    Sound { dev with start := some (Block.overwrite buffer dev.wp cells) }
      (Block.overwrite buffer dev.wp cells) := by
  have reach := writable_fits sound.inside
  have length := Block.length_overwrite (show dev.wp + cells.length ≤ buffer.length by omega)
  refine ⟨rfl, ?_, ?_, ?_⟩
  · rw [length]
    exact sound.length
  · rw [length]
    exact sound.inside
  · rw [length]
    exact sound.fits

theorem scullPWriteLocked_fault {env : Env} {dev after : ScullPipe} {buffer data : List Byte}
    (sound : Sound dev buffer)
    (locked : scullPWriteLocked env dev data = .ok (after, .fault)) :
    ∃ stored, Sound after stored ∧ after.contents stored = dev.contents buffer := by
  obtain ⟨withinData, withinRoom⟩ := writeCount_writable sound data.length
  simp only [scullPWriteLocked, sound.start] at locked
  split at locked
  · simp at locked
  · split at locked
    · split at locked
      · simp only [Except.ok.injEq, Prod.mk.injEq, and_true] at locked
        subst locked
        have free : (env.copied (data.take (writeCount dev data.length))).length ≤
            Ring.writable buffer.length dev.rp dev.wp := by
          rw [Env.copied_length, List.length_take]
          omega
        exact ⟨_, sound_overwrite sound free, Ring.contents_overwrite sound.inside free⟩
      · simp at locked
    · contradiction

theorem scullPWriteLocked_accepted {env : Env} {dev after : ScullPipe}
    {buffer data bytes : List Byte} (sound : Sound dev buffer)
    (locked : scullPWriteLocked env dev data = .ok (after, .accepted bytes)) :
    (∃ stored, Sound after stored ∧ after.contents stored = dev.contents buffer ++ bytes) ∧
      (bytes ≠ [] → after.rp ≠ after.wp) := by
  obtain ⟨withinData, withinRoom⟩ := writeCount_writable sound data.length
  have reach := writable_fits sound.inside
  simp only [scullPWriteLocked, sound.start] at locked
  split at locked
  · simp at locked
  · split at locked
    · split at locked
      · simp at locked
      · rename_i complete
        have length : (data.take (writeCount dev data.length)).length =
            writeCount dev data.length := by
          rw [List.length_take]
          omega
        have copied : env.copied (data.take (writeCount dev data.length)) =
            data.take (writeCount dev data.length) := by
          apply Env.copied_of_no_fault
          rw [length]
          simpa using complete
        simp only [Except.ok.injEq, Prod.mk.injEq, WriteOutcome.accepted.injEq] at locked
        obtain ⟨device, accepted⟩ := locked
        rw [copied, accepted] at device
        rw [accepted] at length
        subst device
        rw [← length] at withinRoom ⊢
        have overwritten := sound_overwrite sound withinRoom
        have size := Block.length_overwrite (show dev.wp + bytes.length ≤ buffer.length by omega)
        refine ⟨⟨Block.overwrite buffer dev.wp bytes, ?_, ?_⟩, ?_⟩
        · refine ⟨rfl, overwritten.length, ⟨overwritten.inside.reader, ?_⟩, overwritten.fits⟩
          simp only [size, sound.length]
          apply Ring.wrap_lt
          · omega
          · exact Nat.zero_lt_of_lt sound.inside.reader
        · simp only [ScullPipe.contents, sound.length]
          exact Ring.contents_put sound.inside withinRoom
        · intro some
          simp only [sound.length]
          exact Ring.wrap_ne_of_put sound.inside (List.length_pos_of_ne_nil some) withinRoom
    · contradiction

/-! From here on the whole machine. -/

inductive QueueMove {capacity : Nat} (queue : BoundedFifo Byte capacity) :
    BoundedFifo Byte capacity → Prop
  | same : QueueMove queue queue
  | pop (count : Nat) : QueueMove queue (queue.pop count)
  | push (cells : List Byte) (fits : cells.length ≤ queue.room) :
      QueueMove queue (queue.push cells fits)

section Machine

variable {Pid File : Type}

structure Represents (size : Nat) (sys : PipeSys Pid File) (buffer : List Byte)
    (queue : BoundedFifo Byte (size - 1)) : Prop where
  sound : Sound sys.dev buffer
  size : sys.dev.buffersize = size
  accepted : queue.accepted = sys.accepted
  returned : queue.returned = sys.returned
  contents : queue.contents = sys.dev.contents buffer

structure SameRing (sys next : PipeSys Pid File) : Prop where
  start : next.dev.start = sys.dev.start
  buffersize : next.dev.buffersize = sys.dev.buffersize
  rp : next.dev.rp = sys.dev.rp
  wp : next.dev.wp = sys.dev.wp
  accepted : next.accepted = sys.accepted
  returned : next.returned = sys.returned

theorem Represents.same {size : Nat} {sys next : PipeSys Pid File} {buffer : List Byte}
    {queue : BoundedFifo Byte (size - 1)} (represents : Represents size sys buffer queue)
    (ring : SameRing sys next) : Represents size next buffer queue := by
  obtain ⟨sound, length, accepted, returned, contents⟩ := represents
  refine ⟨⟨?_, ?_, ?_, sound.fits⟩, ?_, ?_, ?_, ?_⟩
  · rw [ring.start, sound.start]
  · rw [ring.buffersize, sound.length]
  · rw [ring.rp, ring.wp]
    exact sound.inside
  · rw [ring.buffersize, length]
  · rw [ring.accepted, accepted]
  · rw [ring.returned, returned]
  · rw [contents, ScullPipe.contents, ScullPipe.contents, ring.rp, ring.wp]

theorem Represents.unique {size : Nat} {sys : PipeSys Pid File} {buffer stored : List Byte}
    {queue : BoundedFifo Byte (size - 1)} (represents : Represents size sys buffer queue)
    (allocated : sys.dev.start = some stored) : stored = buffer := by
  have start := represents.sound.start
  rw [allocated] at start
  exact Option.some.inj start

theorem scullPRelease_start {mode : FileMode} {dev : ScullPipe} {buffer : List Byte}
    (kept : (scullPRelease mode dev).1.start = some buffer) :
    (scullPRelease mode dev).1.start = dev.start := by
  simp only [scullPRelease] at kept ⊢
  split at kept
  · contradiction
  · rename_i used
    rw [if_neg used]
    rfl

theorem Represents.popped {size : Nat} {sys : PipeSys Pid File} {env : Env} {buffer : List Byte}
    {queue : BoundedFifo Byte (size - 1)} {count : Nat} {dev : ScullPipe} {bytes : List Byte}
    (represents : Represents size sys buffer queue)
    (locked : scullPReadLocked env sys.dev count = .ok (dev, .data bytes)) :
    Represents size { sys with dev := dev, returned := sys.returned ++ bytes } buffer
      (queue.pop bytes.length) := by
  obtain ⟨sound, front⟩ := scullPReadLocked_data represents.sound locked
  have contents : queue.contents = bytes ++ dev.contents buffer := by
    rw [represents.contents, front]
  obtain ⟨returned, rest⟩ := queue.pop_front contents
  refine ⟨sound, ?_, represents.accepted, ?_, rest⟩
  · simp only [sound.length, ← represents.sound.length, represents.size]
  · rw [returned, represents.returned]

theorem Represents.room {size : Nat} {sys : PipeSys Pid File} {buffer : List Byte}
    {queue : BoundedFifo Byte (size - 1)} (represents : Represents size sys buffer queue) :
    (queue.room : Int) = getSpacefree sys.dev := by
  have balance := getSpacefree_stored represents.sound
  have bound := Ring.stored_lt represents.sound.inside
  have same : buffer.length = size := by rw [← represents.sound.length, represents.size]
  rw [BoundedFifo.room, represents.contents, ScullPipe.contents,
    Ring.length_contents represents.sound.inside]
  omega

theorem Represents.pushed {size : Nat} {sys : PipeSys Pid File} {env : Env} {buffer : List Byte}
    {queue : BoundedFifo Byte (size - 1)} {data : List Byte} {dev : ScullPipe} {bytes : List Byte}
    (represents : Represents size sys buffer queue)
    (locked : scullPWriteLocked env sys.dev data = .ok (dev, .accepted bytes)) :
    ∃ stored, ∃ fits : bytes.length ≤ queue.room,
      Represents size { sys with dev := dev, accepted := sys.accepted ++ bytes } stored
        (queue.push bytes fits) := by
  obtain ⟨⟨stored, sound, contents⟩, _⟩ := scullPWriteLocked_accepted represents.sound locked
  have size : dev.buffersize = size := by
    rw [congrArg ScullPipe.buffersize (scullPWriteLocked_frame locked), represents.size]
  have filled := Ring.length_contents sound.inside
  have bound := Ring.stored_lt sound.inside
  rw [← sound.length, size] at bound
  have total : (queue.contents ++ bytes).length = Ring.stored stored.length dev.rp dev.wp := by
    rw [← filled, represents.contents, ← contents, ScullPipe.contents]
  rw [← sound.length, size, List.length_append] at total
  have fits : bytes.length ≤ queue.room := by
    rw [BoundedFifo.room]
    omega
  refine ⟨stored, fits, sound, size, ?_, represents.returned, ?_⟩
  · simp only [BoundedFifo.push, represents.accepted]
  · simp only [BoundedFifo.push, represents.contents, contents]

theorem Represents.faulted {size : Nat} {sys : PipeSys Pid File} {env : Env} {buffer : List Byte}
    {queue : BoundedFifo Byte (size - 1)} {data : List Byte} {dev : ScullPipe}
    (represents : Represents size sys buffer queue)
    (locked : scullPWriteLocked env sys.dev data = .ok (dev, .fault)) :
    ∃ stored, Represents size { sys with dev := dev } stored queue := by
  obtain ⟨stored, sound, contents⟩ := scullPWriteLocked_fault represents.sound locked
  refine ⟨stored, sound, ?_, represents.accepted, represents.returned, ?_⟩
  · exact (congrArg ScullPipe.buffersize (scullPWriteLocked_frame locked)).trans represents.size
  · simp only [represents.contents, contents]

variable [DecidableEq Pid] [DecidableEq File]

omit [DecidableEq File] in
theorem Represents.setCall {size : Nat} {sys : PipeSys Pid File} {buffer : List Byte}
    {queue : BoundedFifo Byte (size - 1)} (represents : Represents size sys buffer queue)
    (pid : Pid) (call : PipeCall File) : Represents size (sys.setCall pid call) buffer queue :=
  represents.same ⟨rfl, rfl, rfl, rfl, rfl, rfl⟩

theorem transition_simulates {size : Nat} {sys next : PipeSys Pid File}
    {action : PipeAction Pid File} {buffer stored : List Byte}
    {queue : BoundedFifo Byte (size - 1)} (taken : Transition size sys action next)
    (represents : Represents size sys buffer queue) (allocated : next.dev.start = some stored) :
    ∃ after, QueueMove queue after ∧ Represents size next stored after := by
  have unmoved : SameRing sys next →
      ∃ after, QueueMove queue after ∧ Represents size next stored after := by
    intro ring
    have kept := represents.same ring
    cases kept.unique allocated
    exact ⟨queue, .same, kept⟩
  cases taken with
  | openFailed => exact unmoved ⟨rfl, rfl, rfl, rfl, rfl, rfl⟩
  | openedShared closed already => exact unmoved ⟨rfl, rfl, rfl, rfl, rfl, rfl⟩
  | openedFirst closed missing _ =>
      rw [represents.sound.start] at missing
      contradiction
  | released opened unused quiet =>
      exact unmoved ⟨scullPRelease_start allocated, rfl, rfl, rfl, rfl, rfl⟩
  | releasedLast opened unused wakes =>
      exact unmoved ⟨scullPRelease_start allocated, rfl, rfl, rfl, rfl, rfl⟩
  | moved move => exact unmoved ⟨rfl, rfl, rfl, rfl, rfl, rfl⟩
  | readData here locked =>
      rename_i pid env file count dev bytes
      have popped := (represents.popped locked).setCall pid (.reading file count .wakeOutq)
      cases popped.unique allocated
      exact ⟨_, .pop _, popped⟩
  | writeFaulted here locked =>
      rename_i pid env file data dev
      obtain ⟨written, faulted⟩ := represents.faulted locked
      have kept := faulted.setCall pid .idle
      cases kept.unique allocated
      exact ⟨queue, .same, kept⟩
  | wroteData here locked =>
      rename_i pid env file data dev bytes
      obtain ⟨written, fits, pushed⟩ := represents.pushed locked
      have kept := pushed.setCall pid (.writing file data .wakeInq)
      cases kept.unique allocated
      exact ⟨_, .push _ fits, kept⟩
  | wokeWriters here => exact unmoved ⟨rfl, rfl, rfl, rfl, rfl, rfl⟩
  | wokeReaders here => exact unmoved ⟨rfl, rfl, rfl, rfl, rfl, rfl⟩

theorem opened_represents {size : Nat} (two : 2 ≤ size) (fits : size < 2147483648)
    {sys next : PipeSys Pid File} {action : PipeAction Pid File} {stored : List Byte}
    (taken : Transition size sys action next) (missing : sys.dev.start = none)
    (allocated : next.dev.start = some stored) :
    Represents size next stored .empty := by
  have unmoved : next.dev.start = sys.dev.start → Represents size next stored .empty := by
    intro same
    rw [same, missing] at allocated
    contradiction
  cases taken with
  | openFailed => exact unmoved rfl
  | openedShared closed already => exact unmoved rfl
  | openedFirst closed _ length =>
      rename_i file mode env buffer
      cases Option.some.inj allocated
      refine ⟨⟨rfl, length.symm, ⟨?_, ?_⟩, ?_⟩, rfl, rfl, rfl, ?_⟩
      · simp only [addOpener]
        omega
      · simp only [addOpener]
        omega
      · omega
      · exact (Ring.contents_empty _ 0).symm
  | released opened unused quiet => exact unmoved (scullPRelease_start allocated)
  | releasedLast opened unused wakes => exact unmoved (scullPRelease_start allocated)
  | moved move => exact unmoved rfl
  | readData here locked =>
      have same := congrArg ScullPipe.start (scullPReadLocked_frame locked)
      exact unmoved same
  | writeFaulted here locked =>
      exact absurd missing (scullPWriteLocked_start locked (by simp)).1
  | wroteData here locked =>
      exact absurd missing (scullPWriteLocked_start locked (by simp)).1
  | wokeWriters here => exact unmoved rfl
  | wokeReaders here => exact unmoved rfl

def FifoInvariant (size : Nat) (sys : PipeSys Pid File) : Prop :=
  ∀ buffer, sys.dev.start = some buffer →
    ∃ queue : BoundedFifo Byte (size - 1), Represents size sys buffer queue

theorem fifoInvariant_step {size : Nat} (two : 2 ≤ size) (fits : size < 2147483648)
    {sys next : PipeSys Pid File} {action : PipeAction Pid File}
    (invariant : FifoInvariant size sys) (taken : Transition size sys action next) :
    FifoInvariant size next := by
  intro stored allocated
  cases before : sys.dev.start with
  | none => exact ⟨.empty, opened_represents two fits taken before allocated⟩
  | some buffer =>
      obtain ⟨queue, represents⟩ := invariant buffer before
      obtain ⟨after, _, kept⟩ := transition_simulates taken represents allocated
      exact ⟨after, kept⟩

variable [Fintype Pid]

theorem fifoInvariant_reachable {size : Nat} (two : 2 ≤ size) (fits : size < 2147483648)
    {sys : PipeSys Pid File}
    (reached : StepMachine.Reachable (pipeStep size) (.loaded Pid File) sys) :
    FifoInvariant size sys := by
  apply StepMachine.reachable_invariant _ _ reached
  · intro sys action next invariant taken
    exact fifoInvariant_step two fits invariant (pipeStep_transition taken)
  · intro buffer allocated
    simp [PipeSys.loaded, ScullPipe.zeroed] at allocated

/-- Under any interleaving the allocated buffer holds a bounded queue: the bytes that reads
returned and those still stored are the bytes that writes accepted, the free space is what
is left of `size - 1`, and no write makes a full buffer look empty. -/
theorem scullPipe_refines_fifo {size : Nat} (two : 2 ≤ size) (fits : size < 2147483648)
    {sys : PipeSys Pid File}
    (reached : StepMachine.Reachable (pipeStep size) (.loaded Pid File) sys)
    {buffer : List Byte} (allocated : sys.dev.start = some buffer) :
    sys.dev.rp < size ∧ sys.dev.wp < size ∧ buffer.length = size ∧
      sys.returned ++ sys.dev.contents buffer = sys.accepted ∧
      ((sys.dev.contents buffer).length : Int) + getSpacefree sys.dev = size - 1 ∧
      (∀ env data after bytes,
        scullPWriteLocked env sys.dev data = .ok (after, .accepted bytes) → bytes ≠ [] →
          after.rp ≠ after.wp) ∧
      ∃ queue : BoundedFifo Byte (size - 1), Represents size sys buffer queue ∧
        ∀ action next stored, pipeStep size sys action = some next →
          next.dev.start = some stored →
            ∃ after, QueueMove queue after ∧ Represents size next stored after := by
  obtain ⟨queue, represents⟩ := fifoInvariant_reachable two fits reached buffer allocated
  have length : buffer.length = size := by rw [← represents.sound.length, represents.size]
  have inside := represents.sound.inside
  rw [length] at inside
  refine ⟨inside.reader, inside.writer, length, ?_, ?_, ?_, queue, represents, ?_⟩
  · rw [← represents.returned, ← represents.contents, ← represents.accepted, queue.conserved]
  · have filled := Ring.length_contents represents.sound.inside
    have balance := getSpacefree_stored represents.sound
    rw [ScullPipe.contents, filled, balance, length]
  · intro env data after bytes locked some
    exact (scullPWriteLocked_accepted represents.sound locked).2 some
  · intro action next stored taken still
    exact transition_simulates (pipeStep_transition taken) represents still

end Machine

def wrappingRun : List (PipeAction Unit Unit) :=
  [.openFile () ⟨true, true, false⟩ (.good fun _ => 0), .startWrite () () [1, 2, 3],
    .proceed () (.good fun _ => 0), .proceed () (.good fun _ => 0), .startRead () () 2,
    .proceed () (.good fun _ => 0), .proceed () (.good fun _ => 0), .startWrite () () [4, 5],
    .proceed () (.good fun _ => 0)]

theorem wrappingRun_reaches : (StepMachine.run (pipeStep 4) (.loaded Unit Unit) wrappingRun).map
    (·.dev) = some ⟨some [1, 2, 3, 4], 4, 2, 0, 1, 1⟩ := by
  decide +kernel

theorem scullPipe_refines_fifo_wrapped :
    ∃ sys : PipeSys Unit Unit, StepMachine.Reachable (pipeStep 4) (.loaded Unit Unit) sys ∧
      sys.dev.start = some [1, 2, 3, 4] ∧ sys.returned ++ [3, 4] = sys.accepted := by
  have reaches := wrappingRun_reaches
  rw [Option.map_eq_some_iff] at reaches
  obtain ⟨sys, ran, device⟩ := reaches
  have allocated : sys.dev.start = some [1, 2, 3, 4] := by rw [device]
  have reached : StepMachine.Reachable (pipeStep 4) (.loaded Unit Unit) sys := ⟨wrappingRun, ran⟩
  have refines := scullPipe_refines_fifo (by decide) (by decide) reached allocated
  have contents : sys.dev.contents [1, 2, 3, 4] = [3, 4] := by
    rw [device]
    decide
  refine ⟨sys, reached, allocated, ?_⟩
  rw [← contents]
  exact refines.2.2.2.1

end Ldd3.Pipe
