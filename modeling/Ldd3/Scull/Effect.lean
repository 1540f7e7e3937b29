import Mathlib.Tactic
import Ldd3.Scull.FlatFile
import Ldd3.Scull.Geometry
import Ldd3.Scull.Divisors

/-!
What one write does to the quanta of a scull device, whatever the geometry and the failures,
and what holds of a device after any run of the module.
-/

namespace Ldd3.Scull

open CInt (int32 int64 uint64)

def copiedTo (blockSize : Nat) (nodes : List ScullQset) (pos : Position) (bytes : List Byte)
    (index sPos : Nat) : Option (List Byte) :=
  if index = findRounds pos.item ∧ sPos = pos.sPos.toNat then
    some (Block.overwrite ((blockAt nodes index sPos).getD (List.replicate blockSize 0))
      pos.qPos.toNat bytes)
  else blockAt nodes index sPos

section Write

variable {env : Env} {dev : ScullDev} {data : List Byte} {fPos : Int} {pos : Position}
  {nodes : List ScullQset} {reply : Reply}

structure CopiesAt (env : Env) (dev : ScullDev) (data : List Byte) (fPos : Int) (pos : Position)
    (nodes : List ScullQset) : Prop where
  computed : calculatePositions dev.quantum dev.qset fPos = .ok pos
  entry : pos.sPos.toNat < dev.qset.toNat
  quantum : 0 ≤ dev.quantum ∨ blockAt dev.data (findRounds pos.item) pos.sPos.toNat ≠ none
  inBlock : InBlock ((blockAt dev.data (findRounds pos.item) pos.sPos.toNat).getD
    (List.replicate dev.quantum.toNat 0)) pos.qPos
      (limitToQuantum dev.quantum pos.qPos data.length)
  blocks : blockAt nodes = copiedTo dev.quantum.toNat dev.data pos
    (env.copied (data.take (limitToQuantum dev.quantum pos.qPos data.length)))

inductive WriteEffect (env : Env) (dev : ScullDev) (data : List Byte) (fPos : Int) : Reply → Prop
  | kept (nodes : List ScullQset) (ret : Int) : ret < 0 → ret ≠ -EFAULT →
      blockAt nodes = blockAt dev.data →
      WriteEffect env dev data fPos ⟨{ dev with data := nodes }, fPos, ret, []⟩
  | faulted (nodes : List ScullQset) (pos : Position) : CopiesAt env dev data fPos pos nodes →
      WriteEffect env dev data fPos ⟨{ dev with data := nodes }, fPos, -EFAULT, []⟩
  | stored (nodes : List ScullQset) (pos : Position) : CopiesAt env dev data fPos pos nodes →
      WriteEffect env dev data fPos
        ⟨{ dev with
            data := nodes
            size := max dev.size
              (uint64 (int64 (fPos + limitToQuantum dev.quantum pos.qPos data.length))) },
          int64 (fPos + limitToQuantum dev.quantum pos.qPos data.length),
          limitToQuantum dev.quantum pos.qPos data.length, []⟩

theorem blockAt_set {index : Nat} (bound : index < nodes.length) (array : PointerArray)
    (other sPos : Nat) :
    blockAt (nodes.set index ⟨some array⟩) other sPos =
      if other = index then array.getD sPos none else blockAt nodes other sPos := by
  simp only [blockAt, List.getD_eq_getElem?_getD]
  by_cases same : other = index
  · subst same
    rw [List.getElem?_set_self bound, if_pos rfl]
    rfl
  · rw [List.getElem?_set_ne (Ne.symm same), if_neg same]

theorem getD_set {array : PointerArray} {entry : Nat} (bound : entry < array.length)
    (block : Option (List Byte)) (other : Nat) :
    (array.set entry block).getD other none =
      if other = entry then block else array.getD other none := by
  simp only [List.getD_eq_getElem?_getD]
  by_cases same : other = entry
  · subst same
    rw [List.getElem?_set_self bound, if_pos rfl]
    rfl
  · rw [List.getElem?_set_ne (Ne.symm same), if_neg same]

structure HeldAt (dev : ScullDev) (pos : Position) (nodes : List ScullQset)
    (array : PointerArray) : Prop where
  bound : findRounds pos.item < nodes.length
  length : array.length = dev.qset.toNat
  entries : ∀ sPos, array.getD sPos none = blockAt dev.data (findRounds pos.item) sPos
  blocks : blockAt nodes = blockAt dev.data

theorem HeldAt.copied {array : PointerArray} (held : HeldAt dev pos nodes array)
    (entry : pos.sPos.toNat < array.length) (bytes : List Byte) :
    blockAt (nodes.set (findRounds pos.item) ⟨some (array.set pos.sPos.toNat
        (some (Block.overwrite ((blockAt dev.data (findRounds pos.item) pos.sPos.toNat).getD
          (List.replicate dev.quantum.toNat 0)) pos.qPos.toNat bytes)))⟩) =
      copiedTo dev.quantum.toNat dev.data pos bytes := by
  funext index sPos
  rw [blockAt_set held.bound, getD_set entry, copiedTo, held.entries, held.blocks]
  by_cases node : index = findRounds pos.item
  · subst node
    by_cases same : sPos = pos.sPos.toNat
    · subst same
      simp only [and_self, ↓reduceIte]
    · simp only [same, and_false, ↓reduceIte]
  · simp only [node, false_and, ↓reduceIte]

theorem copyIntoQuantum_effect {array : PointerArray} {block : List Byte}
    (computed : calculatePositions dev.quantum dev.qset fPos = .ok pos)
    (held : HeldAt dev pos nodes array) (entry : pos.sPos.toNat < array.length)
    (quantum : 0 ≤ dev.quantum ∨ blockAt dev.data (findRounds pos.item) pos.sPos.toNat ≠ none)
    (there : block = (blockAt dev.data (findRounds pos.item) pos.sPos.toNat).getD
      (List.replicate dev.quantum.toNat 0))
    (replied : copyIntoQuantum env dev.quantum { dev with data := nodes } data fPos pos.qPos
      (findRounds pos.item) array pos.sPos.toNat block = .ok reply) :
    WriteEffect env dev data fPos reply := by
  subst there
  simp only [copyIntoQuantum] at replied
  split at replied
  · rename_i inBlock
    have copies : CopiesAt env dev data fPos pos _ :=
      ⟨computed, held.length ▸ entry, quantum, inBlock, held.copied entry _⟩
    split at replied
    · simp only [Except.ok.injEq] at replied
      exact replied ▸ .faulted _ pos copies
    · simp only [Except.ok.injEq] at replied
      exact replied ▸ .stored _ pos copies
  · contradiction

theorem kmallocQuantum_zeroes {quantum : Int} {used : Nat} {block : List Byte}
    (fits : CInt.FitsInt quantum)
    (allocated : kmallocQuantum quantum quantum env used = .ok (some block)) :
    0 ≤ quantum ∧ block = List.replicate quantum.toNat 0 := by
  by_cases nonneg : 0 ≤ quantum
  · rw [kmallocQuantum_zeroed nonneg fits env used] at allocated
    split at allocated
    · simp only [Except.ok.injEq, Option.some.injEq] at allocated
      exact ⟨nonneg, allocated.symm⟩
    · simp at allocated
  · simp [kmallocQuantum, nonneg] at allocated

theorem withArray_effect {array : PointerArray} {used : Nat} (fits : CInt.FitsInt dev.quantum)
    (computed : calculatePositions dev.quantum dev.qset fPos = .ok pos)
    (held : HeldAt dev pos nodes array)
    (replied : scullWriteWith.withArray (kmallocQuantum dev.quantum dev.quantum) env dev.quantum
      data fPos { dev with data := nodes } (findRounds pos.item) array used pos = .ok reply) :
    WriteEffect env dev data fPos reply := by
  rcases withArray_cases replied with rfl | ⟨entry, block, entered, origin, copied⟩
  · exact .kept nodes _ (by decide) (by decide) held.blocks
  obtain ⟨inside, found⟩ := entryAt_inside entered
  rw [held.entries] at found
  rcases origin with rfl | ⟨rfl, allocated⟩
  · refine copyIntoQuantum_effect computed held inside (.inr ?_) ?_ copied
    · simp [← found]
    · rw [← found, Option.getD_some]
  · obtain ⟨nonneg, zeroes⟩ := kmallocQuantum_zeroes fits allocated
    refine copyIntoQuantum_effect computed held inside (.inl nonneg) ?_ copied
    rw [← found, Option.getD_none, zeroes]

theorem scullWrite_effect (fits : CInt.FitsInt dev.quantum)
    (sized : ArraysSized dev.qset.toNat dev.data)
    (replied : perform dev (.write env data fPos) = .ok reply) :
    WriteEffect env dev data fPos reply := by
  have grown (extra : Nat) : blockAt (grow dev.data extra) = blockAt dev.data := by
    funext index sPos
    exact blockAt_grow dev.data extra index sPos
  simp only [perform, scullWrite] at replied
  rcases scullWriteWith_cases replied with ⟨extra, ret, failed, rfl⟩ |
    ⟨pos, extra, _, array, _, computed, bound, ⟨present, rfl⟩ | ⟨missing, rfl, rfl⟩, stored⟩
  · have negative : ret < 0 ∧ ret ≠ -EFAULT := by rcases failed with rfl | rfl <;> decide
    exact .kept _ _ negative.1 negative.2 (grown extra)
  · refine withArray_effect fits computed ⟨bound, ?_, ?_, grown extra⟩ stored
    · rw [List.getD_eq_getElem _ _ bound] at present
      exact arraysSized_grow sized extra _ (List.getElem_mem bound) array present
    · intro sPos
      rw [← grown extra, blockAt, present, Option.bind_some]
  · have empty (sPos : Nat) :
        (List.replicate dev.qset.toNat (none : Option (List Byte))).getD sPos none =
          blockAt dev.data (findRounds pos.item) sPos := by
      rw [← grown extra, blockAt, missing, Option.bind_none, List.getD_eq_getElem?_getD,
        List.getElem?_getD_replicate_default_eq]
    refine withArray_effect fits computed ⟨?_, List.length_replicate, empty, ?_⟩ stored
    · rw [List.length_set]
      exact bound
    · funext index sPos
      rw [blockAt_set bound, empty, grown]
      split
      · rename_i same
        rw [same]
      · rfl

end Write

/-! Reachable devices. -/

structure ScullDev.Sound (dev : ScullDev) : Prop where
  sized : ArraysSized dev.qset.toNat dev.data
  blocks : ∀ index sPos block, blockAt dev.data index sPos = some block →
    0 < dev.quantum ∧ block.length = dev.quantum.toNat
  written : 0 < dev.size → 0 < dev.quantum ∧ 0 < dev.qset ∧ int32 (dev.quantum * dev.qset) ≠ 0

structure Geometry.Ints (geometry : Geometry) : Prop where
  quantum : CInt.FitsInt geometry.quantum
  qset : CInt.FitsInt geometry.qset

instance (geometry : Geometry) : Decidable geometry.Ints :=
  decidable_of_iff (CInt.FitsInt geometry.quantum ∧ CInt.FitsInt geometry.qset)
    ⟨fun parts => ⟨parts.1, parts.2⟩, fun ints => ⟨ints.quantum, ints.qset⟩⟩

structure ModuleSys.Sound (sys : ModuleSys) : Prop where
  dev : sys.dev.Sound
  ints : sys.dev.geometry.Ints
  globals : sys.globals.Ints

theorem ScullDev.fresh_sound (geometry : Geometry) : (ScullDev.fresh geometry).Sound := by
  refine ⟨?_, ?_, ?_⟩
  · intro node member
    simp [ScullDev.fresh] at member
  · intro index sPos block found
    simp [ScullDev.fresh, blockAt, ScullQset.empty] at found
  · intro some
    simp [ScullDev.fresh] at some

section Sound

variable {env : Env} {dev : ScullDev} {data : List Byte} {fPos : Int} {pos : Position}
  {nodes : List ScullQset} {reply : Reply}

theorem ScullDev.Sound.grown (sound : dev.Sound) (extra : Nat) :
    ScullDev.Sound { dev with data := grow dev.data extra } := by
  refine ⟨arraysSized_grow sound.sized extra, ?_, sound.written⟩
  intro index sPos block found
  rw [blockAt_grow] at found
  exact sound.blocks index sPos block found

theorem CopiesAt.positive (copies : CopiesAt env dev data fPos pos nodes) (sound : dev.Sound) :
    0 < dev.quantum ∧ 0 < dev.qset ∧ int32 (dev.quantum * dev.qset) ≠ 0 := by
  have nonzero : int32 (dev.quantum * dev.qset) ≠ 0 ∧ dev.quantum ≠ 0 := by
    rcases calculatePositions_cases dev.quantum dev.qset fPos with ⟨_, failed⟩ | ⟨nonzero, _⟩
    · rw [copies.computed] at failed
      contradiction
    · simpa only [not_or] using nonzero
  have entry := copies.entry
  refine ⟨?_, by omega, nonzero.1⟩
  rcases copies.quantum with nonneg | present
  · omega
  · obtain ⟨block, found⟩ := Option.ne_none_iff_exists'.mp present
    exact (sound.blocks _ _ block found).1

theorem CopiesAt.lengths (copies : CopiesAt env dev data fPos pos nodes) (sound : dev.Sound)
    {index sPos : Nat} {block : List Byte} (found : blockAt nodes index sPos = some block) :
    block.length = dev.quantum.toNat := by
  rw [copies.blocks, copiedTo] at found
  split at found
  · rename_i here
    have inBlock := copies.inBlock.2
    rw [← here.1, ← here.2] at inBlock
    have old : ((blockAt dev.data index sPos).getD
        (List.replicate dev.quantum.toNat 0)).length = dev.quantum.toNat := by
      cases before : blockAt dev.data index sPos with
      | none => rw [Option.getD_none, List.length_replicate]
      | some block => exact (sound.blocks index sPos block before).2
    rw [← Option.some.inj found, Block.length_overwrite, old]
    rw [Env.copied_length, List.length_take]
    omega
  · exact (sound.blocks index sPos block found).2

theorem CopiesAt.sound (copies : CopiesAt env dev data fPos pos nodes) (sound : dev.Sound)
    (sized : ArraysSized dev.qset.toNat nodes) (size : Nat) :
    ScullDev.Sound { dev with data := nodes, size := size } :=
  have positive := copies.positive sound
  ⟨sized, fun _ _ _ found => ⟨positive.1, copies.lengths sound found⟩, fun _ => positive⟩

theorem WriteEffect.sound (effect : WriteEffect env dev data fPos reply) (sound : dev.Sound)
    (sized : ArraysSized dev.qset.toNat reply.dev.data) : reply.dev.Sound := by
  cases effect with
  | kept nodes ret _ _ blocks => exact ⟨sized, by rw [blocks]; exact sound.blocks, sound.written⟩
  | faulted nodes pos copies => exact copies.sound sound sized dev.size
  | stored nodes pos copies => exact copies.sound sound sized _

theorem WriteEffect.geometry (effect : WriteEffect env dev data fPos reply) :
    reply.dev.geometry = dev.geometry := by
  cases effect <;> rfl

theorem callStep_sound {call : Call} {next : ScullDev} (fits : CInt.FitsInt dev.quantum)
    (sound : dev.Sound) (taken : callStep dev call = some next) :
    next.Sound ∧ next.geometry = dev.geometry := by
  have sized := callStep_arrays sound.sized taken
  obtain ⟨reply, replied, rfl⟩ := callStep_replied taken
  cases call with
  | read env count fPos =>
      obtain ⟨extra, device⟩ := scullRead_device replied
      rw [device]
      exact ⟨sound.grown extra, rfl⟩
  | write env data fPos =>
      have effect := scullWrite_effect fits sound.sized replied
      have geometry := effect.geometry
      have qset : reply.dev.qset = dev.qset := congrArg Geometry.qset geometry
      exact ⟨effect.sound sound (qset ▸ sized), geometry⟩

end Sound

theorem Geometry.Ints.set {globals : Geometry} (ints : globals.Ints) (register : Register)
    {value : Int} (fits : CInt.FitsInt value) : (globals.set register value).Ints := by
  cases register with
  | quantum => exact ⟨fits, ints.qset⟩
  | qset => exact ⟨ints.quantum, fits⟩

theorem getUser_fits (env : IoctlEnv) : CInt.FitsInt (getUser env).2 := by
  cases found : env.userInt with
  | none =>
      simp only [getUser, found]
      decide
  | some value =>
      simp only [getUser, found]
      exact CInt.int32_fits value

theorem ioctlCase_ints {globals : Geometry} (ints : globals.Ints) (env : IoctlEnv) (arg : Nat)
    (command : IocCommand) : (ioctlCase env globals arg command).globals.Ints := by
  have told := CInt.int32_fits arg
  have given := getUser_fits env
  cases command with
  | reset =>
      have defaults : Geometry.Ints ⟨SCULL_QUANTUM, SCULL_QSET⟩ := by decide
      exact defaults
  | get register => exact ints
  | query register => exact ints
  | set register =>
      simp only [ioctlCase, iocSet]
      split
      · exact ints.set register given
      · exact ints
  | tell register =>
      simp only [ioctlCase, iocTell]
      split
      · exact ints.set register told
      · exact ints
  | exchange register =>
      simp only [ioctlCase, iocExchange]
      split
      · split
        · exact ints.set register given
        · exact ints.set register given
      · exact ints
  | shift register =>
      have shifted : (iocShift env globals .quantum arg).globals.Ints := by
        simp only [iocShift]
        split
        · exact ints.set .quantum told
        · exact ints
      cases register with
      | quantum => exact shifted
      | qset => exact shifted

theorem IoctlCall.reply_ints {globals : Geometry} (ints : globals.Ints) (call : IoctlCall) :
    (call.reply globals).globals.Ints := by
  simp only [IoctlCall.reply, scullIoctl]
  split
  · exact ints
  split
  · exact ints
  split
  · exact ioctlCase_ints ints _ _ _
  · exact ints

theorem moduleStep_sound {sys next : ModuleSys} {action : ModuleAction} (sound : sys.Sound)
    (taken : moduleStep sys action = some next) : next.Sound := by
  cases action with
  | ioctl call =>
      simp only [moduleStep, Option.some.injEq] at taken
      subst taken
      exact ⟨sound.dev, sound.ints, call.reply_ints sound.globals⟩
  | openWriteOnly interrupted fuel =>
      cases interrupted with
      | true =>
          simp only [moduleStep, Option.some.injEq] at taken
          exact taken ▸ sound
      | false =>
          rw [moduleStep_openWriteOnly taken]
          exact ⟨ScullDev.fresh_sound sys.globals, sound.globals, sound.globals⟩
  | call call =>
      obtain ⟨dev, stepped, built⟩ := Option.map_eq_some_iff.mp taken
      subst built
      obtain ⟨devSound, geometry⟩ := callStep_sound sound.ints.quantum sound.dev stepped
      exact ⟨devSound, geometry ▸ sound.ints, sound.globals⟩

theorem reachable_sound {load : Geometry} (ints : load.Ints) {sys : ModuleSys}
    (reached : StepMachine.Reachable moduleStep (.loaded load) sys) : sys.Sound := by
  have start : (ModuleSys.loaded load).Sound := ⟨ScullDev.fresh_sound load, ints, ints⟩
  exact StepMachine.reachable_invariant (fun _ _ _ sound taken => moduleStep_sound sound taken)
    start reached

end Ldd3.Scull
