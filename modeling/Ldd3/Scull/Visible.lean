import Mathlib.Tactic
import Ldd3.Scull.Effect

/-!
What later readers see of a call that fails. A read shows the caller nothing of the list but
the quantum its position selects, and a failed call changes a quantum only when the copy from
the user faults half way into it.
-/

namespace Ldd3.Scull

open CInt (int64 uint64)

structure Seen where
  fPos : Int
  ret : Int
  out : List Byte
  deriving DecidableEq, Repr

def Reply.seen (reply : Reply) : Seen := ⟨reply.fPos, reply.ret, reply.out⟩

def readSeen (dev : ScullDev) (env : Env) (count : Nat) (fPos : Int) : Except Oops Seen :=
  (perform dev (.read env count fPos)).map Reply.seen

/-- `qptr->data[s_pos]` of the set at `index`, where a set or an array that is missing has no
quanta. -/
def findQuantum (nodes : List ScullQset) (index : Nat) (sPos : Int) :
    Except Oops (Option (List Byte)) :=
  match (nodes.getD index .empty).data with
  | none => .ok none
  | some array => entryAt array sPos

def seeing (env : Env) (geometry : Geometry) (size count : Nat) (fPos : Int)
    (find : Nat → Int → Except Oops (Option (List Byte))) : Except Oops Seen :=
  if env.interrupted then .ok ⟨fPos, -ERESTARTSYS, []⟩
  else if size ≤ uint64 fPos then .ok ⟨fPos, 0, []⟩
  else do
    let pos ← calculatePositions geometry.quantum geometry.qset fPos
    match ← find (findRounds pos.item) pos.sPos with
    | none => .ok ⟨fPos, 0, []⟩
    | some block =>
        let count := limitToQuantum geometry.quantum pos.qPos (clipToSize size fPos count)
        if InBlock block pos.qPos count then
          let bytes := Block.slice block pos.qPos.toNat count
          if env.faults count then .ok ⟨fPos, -EFAULT, bytes.take (env.fault.getD 0)⟩
          else .ok ⟨int64 (fPos + count), count, bytes⟩
        else .error .outOfBounds

theorem followNext_missing {alloc : Nat → Bool} {count used : Nat} {after : List ScullQset}
    (missing : (followNext alloc count after used).index = none) : after.length < count := by
  induction count generalizing after used with
  | zero => simp [followNext] at missing
  | succ count ih =>
      cases after with
      | nil => simp
      | cons node after =>
          simp only [followNext, Option.map_eq_none_iff] at missing
          have shorter := ih missing
          simp only [List.length_cons]
          omega

theorem scullFindItem_missing {alloc : Nat → Bool} {nodes : List ScullQset} {item : Int}
    (missing : (scullFindItem alloc nodes item).index = none) :
    nodes.length ≤ findRounds item := by
  cases nodes with
  | nil => simp
  | cons curr after => exact followNext_missing missing

theorem findQuantum_outside {nodes : List ScullQset} {index : Nat} (outside : nodes.length ≤ index)
    (sPos : Int) : findQuantum nodes index sPos = .ok none := by
  simp only [findQuantum, List.getD_eq_default _ _ outside, ScullQset.empty]

theorem readSeen_eq (dev : ScullDev) (env : Env) (count : Nat) (fPos : Int) :
    readSeen dev env count fPos =
      seeing env dev.geometry dev.size count fPos (findQuantum dev.data) := by
  simp only [readSeen, perform, scullRead, seeing, ScullDev.geometry]
  by_cases interrupted : env.interrupted = true
  · rw [if_pos interrupted, if_pos interrupted]
    rfl
  by_cases ended : dev.size ≤ uint64 fPos
  · rw [if_neg interrupted, if_neg interrupted, if_pos ended, if_pos ended]
    rfl
  rw [if_neg interrupted, if_neg interrupted, if_neg ended, if_neg ended]
  cases computed : calculatePositions dev.quantum dev.qset fPos with
  | error oops => rfl
  | ok pos =>
      obtain ⟨extra, nodes, indices⟩ := scullFindItem_spec env.alloc dev.data pos.item
      simp only [ok_bind, nodes]
      cases found : (scullFindItem env.alloc dev.data pos.item).index with
      | none =>
          rw [findQuantum_outside (scullFindItem_missing found)]
          rfl
      | some index =>
          obtain ⟨rfl, bound⟩ := indices index found
          rw [Option.bind_some, getD_grow, findQuantum]
          cases (dev.data.getD (findRounds pos.item) .empty).data with
          | none => rfl
          | some array =>
              simp only
              cases entryAt array pos.sPos with
              | error oops => rfl
              | ok entry =>
                  simp only [ok_bind]
                  cases entry with
                  | none => rfl
                  | some block =>
                      simp only [apply_ite (Except.map Reply.seen)]
                      rfl

/-! What a read of a reachable device depends on. -/

section Seeing

variable {env : Env} {geometry : Geometry} {size count : Nat} {fPos : Int}

theorem seeing_congr {find other : Nat → Int → Except Oops (Option (List Byte))}
    (same : 0 < size → ∀ pos,
      calculatePositions geometry.quantum geometry.qset fPos = .ok pos →
        find (findRounds pos.item) pos.sPos = other (findRounds pos.item) pos.sPos) :
    seeing env geometry size count fPos find = seeing env geometry size count fPos other := by
  simp only [seeing]
  split
  · rfl
  split
  · rfl
  rename_i some
  cases computed : calculatePositions geometry.quantum geometry.qset fPos with
  | error oops => rfl
  | ok pos =>
      simp only [ok_bind]
      rw [same (by omega) pos computed]

theorem seeing_failed {find : Nat → Int → Except Oops (Option (List Byte))} {seen : Seen}
    (saw : seeing env geometry size count fPos find = .ok seen) (failed : seen.ret < 0) :
    seen.fPos = fPos := by
  simp only [seeing] at saw
  split at saw
  · simp only [Except.ok.injEq] at saw
    rw [← saw]
  split at saw
  · simp only [Except.ok.injEq] at saw
    rw [← saw]
  obtain ⟨pos, _, saw⟩ := bind_eq_ok_iff.mp saw
  obtain ⟨held, _, saw⟩ := bind_eq_ok_iff.mp saw
  split at saw
  · simp only [Except.ok.injEq] at saw
    rw [← saw]
  split at saw
  · split at saw
    · simp only [Except.ok.injEq] at saw
      rw [← saw]
    · simp only [Except.ok.injEq] at saw
      rw [← saw] at failed
      simp only at failed
      omega
  · contradiction

end Seeing

theorem findQuantum_inside {dev : ScullDev} (sized : ArraysSized dev.qset.toNat dev.data)
    {sPos : Int} (lower : 0 ≤ sPos) (upper : sPos < dev.qset) (index : Nat) :
    findQuantum dev.data index sPos = .ok (blockAt dev.data index sPos.toNat) := by
  simp only [findQuantum, blockAt]
  by_cases inside : index < dev.data.length
  · rw [List.getD_eq_getElem _ _ inside]
    cases found : dev.data[index].data with
    | none => rfl
    | some array =>
        have length := sized _ (List.getElem_mem inside) array found
        simp only [Option.bind_some]
        exact entryAt_ok array lower (by omega)
  · rw [List.getD_eq_default _ _ (by omega)]
    rfl

theorem readSeen_of_sound {dev : ScullDev} (sound : dev.Sound) (env : Env) (count : Nat)
    {fPos : Int} (nonneg : 0 ≤ fPos) :
    readSeen dev env count fPos = seeing env dev.geometry dev.size count fPos
      fun index sPos => .ok (blockAt dev.data index sPos.toNat) := by
  rw [readSeen_eq]
  apply seeing_congr
  intro some pos computed
  obtain ⟨quantum, qset, _⟩ := sound.written some
  rcases calculatePositions_bounds quantum qset nonneg with
    failed | ⟨other, answered, lower, upper, _⟩
  · have both := computed.symm.trans failed
    contradiction
  · have same : pos = other := Except.ok.inj (computed.symm.trans answered)
    subst same
    exact findQuantum_inside sound.sized lower upper _

/-! Failed calls. -/

def Call.fPos : Call → Int
  | .read _ _ fPos => fPos
  | .write _ _ fPos => fPos

def Call.IsWrite : Call → Prop
  | .read _ _ _ => False
  | .write _ _ _ => True

/-- The quantum that a write leaves at a position when the copy into it faults. -/
def tornQuantum (env : Env) (dev : ScullDev) (data : List Byte) (pos : Position) : List Byte :=
  Block.overwrite ((blockAt dev.data (findRounds pos.item) pos.sPos.toNat).getD
      (List.replicate dev.quantum.toNat 0)) pos.qPos.toNat
    (env.copied (data.take (limitToQuantum dev.quantum pos.qPos data.length)))

def SameQuantum (dev : ScullDev) (pos : Position) (fPos : Int) : Prop :=
  ∃ other, calculatePositions dev.quantum dev.qset fPos = .ok other ∧
    findRounds other.item = findRounds pos.item ∧ other.sPos.toNat = pos.sPos.toNat

section Failed

variable {env : Env} {dev : ScullDev} {data : List Byte} {fPos : Int} {reply : Reply}

theorem readSeen_of_blocks {after : ScullDev} (sound : dev.Sound) (afterSound : after.Sound)
    (geometry : after.geometry = dev.geometry) (size : after.size = dev.size)
    (blocks : blockAt after.data = blockAt dev.data) (env : Env) (count : Nat) {later : Int}
    (nonneg : 0 ≤ later) : readSeen after env count later = readSeen dev env count later := by
  rw [readSeen_of_sound afterSound env count nonneg, readSeen_of_sound sound env count nonneg,
    geometry, size, blocks]

theorem read_failed_blocks {count : Nat} (replied : perform dev (.read env count fPos) = .ok reply)
    (failed : reply.ret < 0) :
    reply.dev.size = dev.size ∧ reply.fPos = fPos ∧ blockAt reply.dev.data = blockAt dev.data := by
  obtain ⟨extra, device⟩ := scullRead_device replied
  have saw : readSeen dev env count fPos = .ok reply.seen := by
    rw [readSeen, replied]
    rfl
  rw [readSeen_eq] at saw
  refine ⟨by rw [device], seeing_failed saw failed, ?_⟩
  rw [device]
  funext index sPos
  exact blockAt_grow dev.data extra index sPos

theorem WriteEffect.failed_size (effect : WriteEffect env dev data fPos reply)
    (failed : reply.ret < 0) : reply.dev.size = dev.size ∧ reply.fPos = fPos := by
  cases effect with
  | kept nodes ret _ _ _ => exact ⟨rfl, rfl⟩
  | faulted nodes pos _ => exact ⟨rfl, rfl⟩
  | stored nodes pos _ =>
      simp only at failed
      omega

theorem WriteEffect.failed_blocks (effect : WriteEffect env dev data fPos reply)
    (failed : reply.ret < 0) (complete : reply.ret ≠ -EFAULT) :
    blockAt reply.dev.data = blockAt dev.data := by
  cases effect with
  | kept nodes ret _ _ blocks => exact blocks
  | faulted nodes pos _ => contradiction
  | stored nodes pos _ =>
      simp only at failed
      omega

theorem WriteEffect.faulted_copies (effect : WriteEffect env dev data fPos reply)
    (fault : reply.ret = -EFAULT) : ∃ pos, CopiesAt env dev data fPos pos reply.dev.data := by
  cases effect with
  | kept nodes ret _ complete _ => contradiction
  | faulted nodes pos copies => exact ⟨pos, copies⟩
  | stored nodes pos _ =>
      simp only [EFAULT] at fault
      omega

theorem CopiesAt.seen {pos : Position} {after : ScullDev}
    (copies : CopiesAt env dev data fPos pos after.data) (sound : dev.Sound)
    (afterSound : after.Sound) (geometry : after.geometry = dev.geometry)
    (size : after.size = dev.size) (readEnv : Env) (count : Nat) {later : Int}
    (nonneg : 0 ≤ later) :
    (¬SameQuantum dev pos later →
      readSeen after readEnv count later = readSeen dev readEnv count later) ∧
    (SameQuantum dev pos later →
      readSeen after readEnv count later =
        seeing readEnv dev.geometry dev.size count later
          fun _ _ => .ok (some (tornQuantum env dev data pos))) := by
  rw [readSeen_of_sound afterSound readEnv count nonneg,
    readSeen_of_sound sound readEnv count nonneg, geometry, size, copies.blocks]
  constructor
  · intro apart
    apply seeing_congr
    intro _ other computed
    rw [copiedTo, if_neg]
    rintro ⟨node, entry⟩
    exact apart ⟨other, computed, node, entry⟩
  · rintro ⟨same, located, node, entry⟩
    apply seeing_congr
    intro _ other computed
    have unique : other = same := Except.ok.inj (computed.symm.trans located)
    subst unique
    rw [copiedTo, if_pos ⟨node, entry⟩, node, entry]
    rfl

end Failed

/-- A call that fails leaves the size, the position and what every later read returns, unless it
is a write whose copy from the user faults. That one leaves the size, the position and the other
quanta, and later reads find the bytes that were copied, and zeroes up to where the copy was to
end. -/
theorem failed_invisible {load : Geometry} (ints : load.Ints) {sys : ModuleSys}
    (reached : StepMachine.Reachable moduleStep (.loaded load) sys) {call : Call} {reply : Reply}
    (replied : perform sys.dev call = .ok reply) (failed : reply.ret < 0) :
    (reply.dev.size = sys.dev.size ∧ reply.fPos = call.fPos) ∧
    (¬(call.IsWrite ∧ reply.ret = -EFAULT) → ∀ env count later, 0 ≤ later →
      readSeen reply.dev env count later = readSeen sys.dev env count later) ∧
    ∀ copy data fPos, call = .write copy data fPos → reply.ret = -EFAULT →
      ∃ pos, calculatePositions sys.dev.quantum sys.dev.qset fPos = .ok pos ∧
        ∀ env count later, 0 ≤ later →
          (¬SameQuantum sys.dev pos later →
            readSeen reply.dev env count later = readSeen sys.dev env count later) ∧
          (SameQuantum sys.dev pos later →
            readSeen reply.dev env count later =
              seeing env sys.dev.geometry sys.dev.size count later
                fun _ _ => .ok (some (tornQuantum copy sys.dev data pos))) := by
  have sound := reachable_sound ints reached
  have taken : callStep sys.dev call = some reply.dev := by
    simp only [callStep, replied]
  obtain ⟨afterSound, geometry⟩ := callStep_sound sound.ints.quantum sound.dev taken
  cases call with
  | read env count fPos =>
      obtain ⟨size, still, blocks⟩ := read_failed_blocks replied failed
      refine ⟨⟨size, still⟩, ?_, ?_⟩
      · intro _ later count position nonneg
        exact readSeen_of_blocks sound.dev afterSound geometry size blocks later count nonneg
      · intro copy data position isWrite
        contradiction
  | write env data fPos =>
      have effect := scullWrite_effect sound.ints.quantum sound.dev.sized replied
      obtain ⟨size, still⟩ := effect.failed_size failed
      refine ⟨⟨size, still⟩, ?_, ?_⟩
      · intro complete later count position nonneg
        have noFault : reply.ret ≠ -EFAULT := fun fault => complete ⟨trivial, fault⟩
        have blocks := effect.failed_blocks failed noFault
        exact readSeen_of_blocks sound.dev afterSound geometry size blocks later count nonneg
      · intro copy bytes position isWrite fault
        cases isWrite
        obtain ⟨pos, copies⟩ := effect.faulted_copies fault
        refine ⟨pos, copies.computed, ?_⟩
        intro later count position nonneg
        exact copies.seen sound.dev afterSound geometry size later count nonneg

def twoBytes : ModuleSys :=
  ⟨{ data := [⟨some [some [7, 0]]⟩, ⟨some [some [8, 0]]⟩], quantum := 2, qset := 1, size := 5 },
    ⟨2, 1⟩⟩

theorem twoBytes_reachable : StepMachine.Reachable moduleStep (.loaded ⟨2, 1⟩) twoBytes :=
  ⟨[.call (.write (.good fun _ => 0) [7] 0), .call (.write (.good fun _ => 0) [8] 4)],
    by decide +kernel⟩

def faulting : Env :=
  { interrupted := false, alloc := fun _ => true, junk := fun _ => 0, fault := some 0 }

def tornReply : Reply :=
  ⟨{ twoBytes.dev with data := [⟨some [some [0, 0]]⟩, ⟨some [some [8, 0]]⟩] }, 0, -EFAULT, []⟩

theorem tornReply_replied : perform twoBytes.dev (.write faulting [9] 0) = .ok tornReply := by
  decide +kernel

theorem failed_invisible_torn :
    tornReply.dev.size = twoBytes.dev.size ∧ tornReply.fPos = 0 ∧
      ∃ pos, calculatePositions 2 1 0 = .ok pos ∧ ¬SameQuantum twoBytes.dev pos 4 ∧
        readSeen tornReply.dev (.good fun _ => 0) 1 4 =
          readSeen twoBytes.dev (.good fun _ => 0) 1 4 := by
  have result := failed_invisible (by decide) twoBytes_reachable tornReply_replied (by decide)
  obtain ⟨pos, computed, shown⟩ := result.2.2 faulting [9] 0 rfl rfl
  have first : pos = ⟨0, 0, 0⟩ := by
    have here : calculatePositions 2 1 0 = .ok ⟨0, 0, 0⟩ := by decide
    exact Except.ok.inj (computed.symm.trans here)
  have apart : ¬SameQuantum twoBytes.dev pos 4 := by
    rintro ⟨other, found, item, _⟩
    have there : calculatePositions 2 1 4 = .ok ⟨2, 0, 0⟩ := by decide
    obtain rfl := Except.ok.inj (found.symm.trans there)
    rw [first] at item
    exact absurd item (by decide)
  exact ⟨result.1.1, result.1.2, pos, computed, apart,
    (shown (.good fun _ => 0) 1 4 (by decide)).1 apart⟩

/-- The byte at position 0 was 7, and is 0 after the write failed. -/
theorem failed_visible :
    ¬∀ load : Geometry, load.Ints → ∀ sys,
      StepMachine.Reachable moduleStep (.loaded load) sys → ∀ call reply,
        perform sys.dev call = .ok reply → reply.ret < 0 →
          (reply.dev.size = sys.dev.size ∧ reply.fPos = call.fPos) ∧
            ∀ env count later, 0 ≤ later →
              readSeen reply.dev env count later = readSeen sys.dev env count later := by
  intro claimed
  have unchanged := (claimed ⟨2, 1⟩ (by decide) twoBytes twoBytes_reachable
    (.write faulting [9] 0) tornReply tornReply_replied (by decide)).2
  have before : readSeen twoBytes.dev (.good fun _ => 0) 1 0 = .ok ⟨1, 1, [7]⟩ := by
    decide +kernel
  have after : readSeen tornReply.dev (.good fun _ => 0) 1 0 = .ok ⟨1, 1, [0]⟩ := by
    decide +kernel
  have same := unchanged (.good fun _ => 0) 1 0 le_rfl
  rw [before, after] at same
  exact absurd same (by decide)

end Ldd3.Scull
