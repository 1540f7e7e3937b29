import Mathlib.Tactic
import Ldd3.Scull.Seek
import Ldd3.Scull.Visible

/-!
Reading a scull device from its start until a read returns 0. A read also returns 0 where the
quantum at its position was never written, so that the first such position ends the file for
this reader.
-/

namespace Ldd3.Scull

open CInt (int64 uint64)

/-- The system call layer cuts a count to what an `ssize_t` holds. -/
structure ReadCall where
  env : Env
  count : Nat
  positive : 0 < count
  fits : count < 9223372036854775808

def ReadCall.Undisturbed (call : ReadCall) : Prop :=
  call.env.interrupted = false ∧ call.env.fault = none

structure ReadEnd where
  dev : ScullDev
  fPos : Int
  bytes : List Byte

/-- Reads one after another until one returns 0. A read that fails delivers nothing and is
followed by the next one at the same position. -/
def readToEnd : Nat → (Nat → ReadCall) → ScullDev → Int → Option ReadEnd
  | 0, _, _, _ => none
  | fuel + 1, reads, dev, fPos =>
      match perform dev (.read (reads 0).env (reads 0).count fPos) with
      | .error _ => none
      | .ok reply =>
          if reply.ret = 0 then some ⟨reply.dev, reply.fPos, []⟩
          else
            (readToEnd fuel (fun index => reads (index + 1)) reply.dev reply.fPos).map fun rest =>
              { rest with bytes := (if 0 < reply.ret then reply.out else []) ++ rest.bytes }

def Present (dev : ScullDev) (position : Nat) : Prop :=
  ∃ pos block, calculatePositions dev.quantum dev.qset position = .ok pos ∧
    blockAt dev.data (findRounds pos.item) pos.sPos.toNat = some block

/-! One read. -/

structure ScullDev.Readable (dev : ScullDev) : Prop where
  sound : dev.Sound
  ints : dev.geometry.Ints
  small : dev.size < 9223372036854775808

inductive ReadOutcome (dev : ScullDev) (position : Nat) : Seen → Prop
  | failed (ret : Int) (out : List Byte) : ret < 0 → ReadOutcome dev position ⟨position, ret, out⟩
  | stopped : dev.size ≤ position ∨ ¬Present dev position →
      ReadOutcome dev position ⟨position, 0, []⟩
  | advanced (pos : Position) (block out : List Byte) : 0 < out.length →
      position + out.length ≤ dev.size →
      calculatePositions dev.quantum dev.qset position = .ok pos →
      blockAt dev.data (findRounds pos.item) pos.sPos.toNat = some block →
      pos.qPos.toNat + out.length ≤ dev.quantum.toNat →
      ReadOutcome dev position ⟨(position + out.length : Nat), out.length, out⟩

theorem clipToSize_eq {size position count : Nat} (small : size < 9223372036854775808)
    (fits : count < 9223372036854775808) (before : position < size) :
    clipToSize size position count = min count (size - position) := by
  have sum : uint64 ((position : Int) + count) = position + count := by
    simp only [uint64]
    omega
  have rest : uint64 ((size : Int) - position) = size - position := by
    simp only [uint64]
    omega
  rw [clipToSize, sum, rest]
  split <;> omega

theorem seeing_block {env : Env} {geometry : Geometry} {size count amount : Nat} {fPos : Int}
    {find : Nat → Int → Except Oops (Option (List Byte))} {pos : Position} {block : List Byte}
    (going : env.interrupted = false) (inside : ¬size ≤ uint64 fPos)
    (computed : calculatePositions geometry.quantum geometry.qset fPos = .ok pos)
    (found : find (findRounds pos.item) pos.sPos = .ok (some block))
    (limited : limitToQuantum geometry.quantum pos.qPos (clipToSize size fPos count) = amount)
    (inBlock : InBlock block pos.qPos amount) :
    seeing env geometry size count fPos find =
      if env.faults amount then
        .ok ⟨fPos, -EFAULT, (Block.slice block pos.qPos.toNat amount).take (env.fault.getD 0)⟩
      else .ok ⟨int64 (fPos + amount), amount, Block.slice block pos.qPos.toNat amount⟩ := by
  subst limited
  simp only [seeing, going, Bool.false_eq_true, inside, computed, ok_bind, found, inBlock,
    ↓reduceIte]

section Outcome

variable {dev : ScullDev} {position : Nat}

theorem readable_positions (readable : dev.Readable) (some : 0 < dev.size) (position : Nat) :
    ∃ pos, calculatePositions dev.quantum dev.qset position = .ok pos ∧
      0 ≤ pos.sPos ∧ pos.sPos < dev.qset ∧ 0 ≤ pos.qPos ∧ pos.qPos < dev.quantum := by
  obtain ⟨quantum, qset, product⟩ := readable.sound.written some
  rcases calculatePositions_bounds quantum qset (Int.natCast_nonneg position) with
    failed | located
  · rcases calculatePositions_cases dev.quantum dev.qset position with ⟨zero, _⟩ | ⟨_, _, answered⟩
    · omega
    · rw [failed] at answered
      contradiction
  · exact located

theorem read_present (readable : dev.Readable) (before : position < dev.size) {call : ReadCall}
    (going : call.env.interrupted = false) {pos : Position} {block : List Byte}
    (computed : calculatePositions dev.quantum dev.qset position = .ok pos)
    (qLower : 0 ≤ pos.qPos) (qUpper : pos.qPos < dev.quantum)
    (found : blockAt dev.data (findRounds pos.item) pos.sPos.toNat = some block) :
    ∃ seen, seeing call.env dev.geometry dev.size call.count position
        (fun index sPos => .ok (blockAt dev.data index sPos.toNat)) = .ok seen ∧
      ReadOutcome dev position seen ∧ (call.Undisturbed → 0 ≤ seen.ret) := by
  have small := readable.small
  have exact : uint64 (position : Int) = position := CInt.uint64_natCast (by omega)
  have inside : ¬dev.size ≤ uint64 position := by omega
  have length := (readable.sound.blocks _ _ block found).2
  have quantumFits : CInt.FitsInt dev.quantum := readable.ints.quantum
  have limited := limitToQuantum_le (min call.count (dev.size - position)) qLower qUpper quantumFits
  rw [← clipToSize_eq small call.fits before] at limited
  have clipped := clipToSize_eq small call.fits before
  have positive := call.positive
  obtain ⟨amount, amountEq⟩ : ∃ amount, limitToQuantum dev.quantum pos.qPos
      (clipToSize dev.size position call.count) = amount := ⟨_, rfl⟩
  rw [amountEq, clipped] at limited
  have inBlock : InBlock block pos.qPos amount := by
    simp only [InBlock, length]
    omega
  have outLength := Block.length_slice inBlock.2
  have advanced : ReadOutcome dev position
      ⟨(position + amount : Nat), amount, Block.slice block pos.qPos.toNat amount⟩ := by
    have moved := @ReadOutcome.advanced dev position pos block
      (Block.slice block pos.qPos.toNat amount) (by omega) (by omega) computed found (by omega)
    rwa [outLength] at moved
  have landed : int64 (position + amount) = (position + amount : Nat) := by
    simp only [int64]
    omega
  have copied := @seeing_block call.env dev.geometry dev.size call.count amount position
    (fun index sPos => .ok (blockAt dev.data index sPos.toNat)) pos block going inside computed
    (by simp only [found]) amountEq inBlock
  rw [copied, landed]
  by_cases faults : call.env.faults amount = true
  · refine ⟨_, if_pos faults, .failed _ _ (by decide), ?_⟩
    intro undisturbed
    rw [Env.faults_of_none undisturbed.2] at faults
    exact absurd faults Bool.false_ne_true
  · exact ⟨_, if_neg faults, advanced, fun _ => Int.natCast_nonneg _⟩

theorem read_outcome (readable : dev.Readable) (before : position ≤ dev.size) (call : ReadCall) :
    ∃ seen, readSeen dev call.env call.count position = .ok seen ∧
      ReadOutcome dev position seen ∧ (call.Undisturbed → 0 ≤ seen.ret) := by
  have small := readable.small
  have exact : uint64 (position : Int) = position := CInt.uint64_natCast (by omega)
  rw [readSeen_of_sound readable.sound call.env call.count (Int.natCast_nonneg position)]
  cases going : call.env.interrupted with
  | true =>
      refine ⟨⟨position, -ERESTARTSYS, []⟩, ?_, .failed _ _ (by decide), ?_⟩
      · simp only [seeing, going, ↓reduceIte]
      intro undisturbed
      rw [undisturbed.1] at going
      contradiction
  | false =>
      by_cases ended : dev.size ≤ position
      · refine ⟨⟨position, 0, []⟩, ?_, .stopped (.inl ended), fun _ => le_rfl⟩
        simp only [seeing, going, Bool.false_eq_true, exact, ended, ↓reduceIte]
      obtain ⟨pos, computed, _, _, qLower, qUpper⟩ :=
        readable_positions readable (by omega) position
      cases found : blockAt dev.data (findRounds pos.item) pos.sPos.toNat with
      | none =>
          have answered : calculatePositions dev.geometry.quantum dev.geometry.qset position =
              .ok pos := computed
          refine ⟨⟨position, 0, []⟩, ?_, .stopped (.inr ?_), fun _ => le_rfl⟩
          · simp only [seeing, going, Bool.false_eq_true, exact, ended, answered, ok_bind, found,
              ↓reduceIte]
          · rintro ⟨other, block, located, present⟩
            rw [computed, Except.ok.injEq] at located
            rw [← located, found] at present
            contradiction
      | some block =>
          exact read_present readable (by omega) going computed qLower qUpper found

theorem present_add (fits : dev.geometry.Fits) {pos : Position} {block : List Byte}
    (computed : calculatePositions dev.quantum dev.qset position = .ok pos)
    (found : blockAt dev.data (findRounds pos.item) pos.sPos.toNat = some block) {index : Nat}
    (inside : pos.qPos.toNat + index < dev.quantum.toNat) : Present dev (position + index) := by
  obtain ⟨quantumPositive, qsetPositive, product⟩ := fits
  simp only [ScullDev.geometry] at quantumPositive qsetPositive product
  obtain ⟨quantum, quantumEq⟩ := Int.eq_ofNat_of_zero_le quantumPositive.le
  obtain ⟨qset, qsetEq⟩ := Int.eq_ofNat_of_zero_le qsetPositive.le
  rw [Present, quantumEq, qsetEq]
  rw [quantumEq, qsetEq] at computed product
  rw [quantumEq] at quantumPositive inside
  rw [qsetEq] at qsetPositive
  have located := calculatePositions_wrapped (by omega : 0 < quantum) (by omega : 0 < qset)
    (by exact_mod_cast product)
  rw [located position, Except.ok.injEq] at computed
  rw [← computed] at found inside
  simp only [Int.toNat_natCast] at found inside
  obtain ⟨same, _⟩ := add_in_quantum inside
  refine ⟨_, block, located (position + index), ?_⟩
  simp only [Int.toNat_natCast, ← Nat.div_div_eq_div_mul, Nat.mod_mul_right_div_self, same]
    at found ⊢
  exact found

end Outcome

theorem ScullDev.Readable.grown {dev : ScullDev} (readable : dev.Readable) (extra : Nat) :
    ScullDev.Readable { dev with data := grow dev.data extra } :=
  ⟨readable.sound.grown extra, readable.ints, readable.small⟩

@[simp] theorem present_grow (dev : ScullDev) (extra position : Nat) :
    Present { dev with data := grow dev.data extra } position ↔ Present dev position := by
  simp only [Present, blockAt_grow]

theorem perform_of_seen {dev : ScullDev} {env : Env} {count : Nat} {fPos : Int} {seen : Seen}
    (saw : readSeen dev env count fPos = .ok seen) :
    ∃ extra, perform dev (.read env count fPos) =
      .ok ⟨{ dev with data := grow dev.data extra }, seen.fPos, seen.ret, seen.out⟩ := by
  simp only [readSeen] at saw
  cases replied : perform dev (.read env count fPos) with
  | error oops =>
      rw [replied] at saw
      contradiction
  | ok reply =>
      obtain ⟨extra, device⟩ := scullRead_device replied
      rw [replied] at saw
      have shown : reply.seen = seen := Except.ok.inj saw
      refine ⟨extra, ?_⟩
      rw [← device, ← shown]
      rfl

/-! Reading to the end. -/

structure StopsAt (dev : ScullDev) (position : Nat) (ended : ReadEnd) (stop : Nat) : Prop where
  fPos : ended.fPos = stop
  delivered : position + ended.bytes.length = stop
  within : stop ≤ dev.size
  reason : stop = dev.size ∨ ¬Present dev stop
  before : dev.geometry.Fits → ∀ between, position ≤ between → between < stop →
    Present dev between

theorem StopsAt.of_grow {dev : ScullDev} {extra position stop : Nat} {ended : ReadEnd}
    (stops : StopsAt { dev with data := grow dev.data extra } position ended stop) :
    StopsAt dev position ended stop := by
  obtain ⟨fPos, delivered, within, reason, before⟩ := stops
  simp only [present_grow] at reason before
  exact ⟨fPos, delivered, within, reason, before⟩

theorem readToEnd_stopsAt {fuel position : Nat} {reads : Nat → ReadCall} {dev : ScullDev}
    {ended : ReadEnd} (readable : dev.Readable) (inside : position ≤ dev.size)
    (ran : readToEnd fuel reads dev position = some ended) :
    ∃ stop, StopsAt dev position ended stop := by
  induction fuel generalizing reads dev position ended with
  | zero => simp [readToEnd] at ran
  | succ fuel ih =>
      obtain ⟨seen, saw, outcome, _⟩ := read_outcome readable inside (reads 0)
      obtain ⟨extra, replied⟩ := perform_of_seen saw
      have readable' := readable.grown extra
      simp only [readToEnd, replied] at ran
      cases outcome with
      | failed ret out failed =>
          simp only [failed.ne, ↓reduceIte, failed.not_gt, List.nil_append,
            Option.map_id'] at ran
          obtain ⟨stop, stops⟩ := ih readable' inside ran
          exact ⟨stop, stops.of_grow⟩
      | stopped reason =>
          simp only [↓reduceIte, Option.some.injEq] at ran
          subst ran
          refine ⟨position, rfl, rfl, inside, ?_, ?_⟩
          · exact reason.imp (fun ended => by omega) id
          · intro _ between lower upper
            omega
      | advanced pos block out some within computed found short =>
          have nonzero : ((out.length : Nat) : Int) ≠ 0 := by omega
          have positive : (0 : Int) < (out.length : Nat) := by omega
          simp only [nonzero, positive, ↓reduceIte, Option.map_eq_some_iff] at ran
          obtain ⟨rest, ranRest, built⟩ := ran
          obtain ⟨stop, stops⟩ := ih readable' within ranRest
          have stops := stops.of_grow
          subst built
          have delivered := stops.delivered
          refine ⟨stop, stops.fPos, ?_, stops.within, stops.reason, ?_⟩
          · rw [List.length_append]
            omega
          · intro fits between lower upper
            by_cases here : between < position + out.length
            · have there := @present_add dev position fits pos block computed found
                (between - position) (by omega)
              rwa [Nat.add_sub_cancel' lower] at there
            · exact stops.before fits between (by omega) upper

theorem readToEnd_ends {fuel position : Nat} {reads : Nat → ReadCall} {dev : ScullDev}
    (readable : dev.Readable) (inside : position ≤ dev.size)
    (undisturbed : ∀ index, (reads index).Undisturbed) (enough : dev.size < position + fuel) :
    ∃ ended, readToEnd fuel reads dev position = some ended := by
  induction fuel generalizing reads dev position with
  | zero => omega
  | succ fuel ih =>
      obtain ⟨seen, saw, outcome, succeeds⟩ := read_outcome readable inside (reads 0)
      obtain ⟨extra, replied⟩ := perform_of_seen saw
      have nonneg := succeeds (undisturbed 0)
      have later (index : Nat) : (reads (index + 1)).Undisturbed := undisturbed (index + 1)
      simp only [readToEnd, replied]
      cases outcome with
      | failed ret out failed => exact absurd nonneg failed.not_ge
      | stopped _ => exact ⟨_, if_pos rfl⟩
      | advanced pos block out some within _ _ _ =>
          obtain ⟨rest, ran⟩ := ih (readable.grown extra) within later (by simp only; omega)
          have nonzero : ((out.length : Nat) : Int) ≠ 0 := by omega
          simp only [nonzero, ↓reduceIte, ran, Option.map_some]
          exact ⟨_, rfl⟩

/-! Reachable devices. -/

/-- The system call layer passes no position below zero and no range beyond the largest
`loff_t`. -/
def ModuleAction.FromVfs : ModuleAction → Prop
  | .call (.read _ count fPos) => 0 ≤ fPos ∧ fPos + count < 9223372036854775808
  | .call (.write _ data fPos) => 0 ≤ fPos ∧ fPos + data.length < 9223372036854775808
  | _ => True

theorem moduleStep_size {sys next : ModuleSys} {action : ModuleAction}
    (small : sys.dev.size < 9223372036854775808) (vfs : action.FromVfs)
    (taken : moduleStep sys action = some next) : next.dev.size < 9223372036854775808 := by
  rcases moduleStep_cases taken with ⟨same, _⟩ | ⟨fresh, _⟩ | ⟨call, rfl, stepped, _⟩
  · rwa [same]
  · rw [fresh]
    simp only [ScullDev.fresh]
    omega
  · obtain ⟨reply, replied, same⟩ := callStep_replied stepped
    rw [same]
    cases call with
    | read env count fPos =>
        exact (scullRead_advances vfs.1 vfs.2 replied).size_lt vfs.1 vfs.2 small
    | write env data fPos =>
        exact (scullWriteWith_advances vfs.1 vfs.2 replied).size_lt vfs.1 vfs.2 small

theorem reachable_readable {load : Geometry} (ints : load.Ints) {actions : List ModuleAction}
    {sys : ModuleSys} (ran : StepMachine.run moduleStep (.loaded load) actions = some sys)
    (vfs : StepMachine.Meets moduleStep (fun _ action => action.FromVfs) (.loaded load) actions) :
    sys.dev.Readable := by
  have sound := reachable_sound ints ⟨actions, ran⟩
  have start : (ModuleSys.loaded load).dev.size < 9223372036854775808 := by
    simp only [ModuleSys.loaded, ScullDev.fresh]
    omega
  have small : sys.dev.size < 9223372036854775808 :=
    @StepMachine.run_invariant ModuleSys ModuleAction moduleStep
      (fun sys => sys.dev.size < 9223372036854775808) (fun _ action => action.FromVfs)
      (fun _ _ _ small vfs taken => moduleStep_size small vfs taken) _ _ _ start vfs ran
  exact ⟨sound.dev, sound.ints, small⟩

/-- Reading on from position 0 until a read returns 0 comes to an end, at the size of the device
or at the first position whose quantum was never allocated, and delivers the bytes before it. -/
theorem readToEnd_stops {load : Geometry} (ints : load.Ints) {actions : List ModuleAction}
    {sys : ModuleSys} (ran : StepMachine.run moduleStep (.loaded load) actions = some sys)
    (vfs : StepMachine.Meets moduleStep (fun _ action => action.FromVfs) (.loaded load) actions)
    (reads : Nat → ReadCall) :
    ((∀ index, (reads index).Undisturbed) →
      ∃ ended, readToEnd (sys.dev.size + 1) reads sys.dev 0 = some ended) ∧
    ∀ fuel ended, readToEnd fuel reads sys.dev 0 = some ended →
      ∃ stop : Nat, ended.fPos = stop ∧ ended.bytes.length = stop ∧ stop ≤ sys.dev.size ∧
        (stop = sys.dev.size ∨ ¬Present sys.dev stop) ∧
        (sys.dev.geometry.Fits →
          IsLeast {position | sys.dev.size ≤ position ∨ ¬Present sys.dev position} stop) := by
  have readable := reachable_readable ints ran vfs
  constructor
  · intro undisturbed
    exact readToEnd_ends readable (Nat.zero_le _) undisturbed (by omega)
  · intro fuel ended finished
    obtain ⟨stop, stops⟩ := readToEnd_stopsAt readable (Nat.zero_le _) finished
    have delivered := stops.delivered
    refine ⟨stop, stops.fPos, by omega, stops.within, stops.reason, ?_⟩
    intro fits
    refine ⟨stops.reason.imp (fun last => last.ge) id, ?_⟩
    intro position ends
    by_contra before
    have within := stops.within
    rcases ends with beyond | missing
    · omega
    · exact missing (stops.before fits position (Nat.zero_le _) (by omega))

def skipping : List ModuleAction := [.call (.write (.good fun _ => 0) [7] 2)]

def skipped : ModuleSys :=
  ⟨{ data := [⟨some [none, some [7, 0]]⟩], quantum := 2, qset := 2, size := 3 }, ⟨2, 2⟩⟩

theorem skipping_skipped :
    StepMachine.run moduleStep (.loaded ⟨2, 2⟩) skipping = some skipped := by
  decide +kernel

theorem skipping_fromVfs :
    StepMachine.Meets moduleStep (fun _ action => action.FromVfs) (.loaded ⟨2, 2⟩) skipping := by
  intro next _
  exact ⟨⟨by decide, by decide⟩, trivial⟩

def byteReads (_ : Nat) : ReadCall := ⟨.good fun _ => 0, 1, by decide, by decide⟩

theorem readToEnd_stops_skipped :
    ∃ ended, readToEnd 4 byteReads skipped.dev 0 = some ended :=
  (readToEnd_stops (by decide) skipping_skipped skipping_fromVfs byteReads).1
    fun _ => ⟨rfl, rfl⟩

theorem readToEnd_short :
    ¬∀ (load : Geometry) (actions : List ModuleAction) (sys : ModuleSys), load.Ints →
      StepMachine.run moduleStep (.loaded load) actions = some sys →
      StepMachine.Meets moduleStep (fun _ action => action.FromVfs) (.loaded load) actions →
      ∀ reads : Nat → ReadCall, (∀ index, (reads index).Undisturbed) →
        ∀ fuel ended, readToEnd fuel reads sys.dev 0 = some ended →
          ended.bytes.length = sys.dev.size := by
  intro claimed
  have none : readToEnd 1 byteReads skipped.dev 0 = some ⟨skipped.dev, 0, []⟩ := by
    have replied : perform skipped.dev (.read (.good fun _ => 0) 1 0) =
        .ok ⟨skipped.dev, 0, 0, []⟩ := by decide +kernel
    simp only [readToEnd, byteReads, replied, ↓reduceIte]
  have whole := claimed ⟨2, 2⟩ skipping skipped (by decide) skipping_skipped skipping_fromVfs
    byteReads (fun _ => ⟨rfl, rfl⟩) 1 _ none
  exact absurd whole (by decide)

end Ldd3.Scull
