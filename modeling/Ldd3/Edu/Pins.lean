import Mathlib.Tactic
import Ldd3.Lib.Resources
import Ldd3.Edu.Scatter

/-!
What `do_sg_dma` and `edu_ioctl` hold on to: the page array, the page pins, the scatterlist, its
DMA mapping and the runtime PM usage count, on every path through the two functions.
-/

open scoped BigOperators

namespace Ldd3.Edu

open Resources (Use acquireAll releaseAll Leaves)

def ENOTTY : Int := 25

inductive SgItem
  | usage
  | pages
  | sg
  | pin (page : Nat)
  | mapped (entry : SgEntry)
  deriving DecidableEq, Repr

/-- What `dma_unmap_sg` leaves mapped of a list when it is told of `nents` entries. -/
structure MappingEnv extends StreamEnv where
  unmapSg : List SgEntry → (nents : Nat) → SgEntry → Bool

/-- Told of the entries that `dma_map_sg` was given, it leaves none mapped; about another number
the DMA API says nothing. -/
def MappingEnv.UnmapsAll (env : MappingEnv) : Prop :=
  ∀ sg, ∀ entry ∈ sg, env.unmapSg sg sg.length entry = false

def EduStreamDesc.pins (desc : EduStreamDesc) (pinned : Nat) : List SgItem :=
  (List.range' (desc.firstPage.toNat / PAGE_SIZE) pinned).map .pin

/-! The labels at the end of `do_sg_dma`. -/

def errFreePages : List (Use SgItem) := [.release .pages]

def errUnpin (desc : EduStreamDesc) (pinned : Nat) : List (Use SgItem) :=
  releaseAll (desc.pins pinned) ++ errFreePages

def errFreeSg (desc : EduStreamDesc) (pinned : Nat) : List (Use SgItem) :=
  .release .sg :: errUnpin desc pinned

/-- From `have_pages` on. The unmapping is told of the segments, not of the entries. -/
def havePages (env : MappingEnv) (dma : List (Nat × Nat) → Int) (desc : EduStreamDesc)
    (pinned : Nat) : Int × List (Use SgItem) :=
  if !env.sgAlloc then (-ENOMEM, errUnpin desc pinned)
  else
    let sg := desc.scatterlist pinned
    if sg.2 ≠ 0 then (-EFAULT, .acquire .sg :: errFreeSg desc pinned)
    else
      let mnts := env.mapSg sg.1
      if mnts.isEmpty then (-ENOMEM, .acquire .sg :: errFreeSg desc pinned)
      else
        (dma mnts,
          .acquire .sg :: acquireAll (sg.1.map .mapped) ++
            releaseAll ((sg.1.filter fun entry => !env.unmapSg sg.1 mnts.length entry).map .mapped) ++
            errFreeSg desc pinned)

/-- The result of `do_sg_dma`, and what it acquires and releases. `dma` is what the loop over
the segments returns. -/
def doSgDmaUses (env : MappingEnv) (dma : List (Nat × Nat) → Int) (desc : EduStreamDesc) :
    Int × List (Use SgItem) :=
  if !env.pagesAlloc then (-ENOMEM, [])
  else
    let fast := .acquire .pages :: acquireAll (desc.pins env.pinFast.toNat)
    if env.pinFast = desc.nrPages.toNat then
      let done := havePages env dma desc env.pinFast.toNat
      (done.1, fast ++ done.2)
    else
      let slow := fast ++ releaseAll (desc.pins env.pinFast.toNat) ++
        acquireAll (desc.pins env.pinSlow.toNat)
      if env.pinSlow < 0 then (env.pinSlow, slow ++ errFreePages)
      else if env.pinSlow < desc.nrPages.toNat then
        (-EFAULT, slow ++ errUnpin desc env.pinSlow.toNat)
      else
        let done := havePages env dma desc env.pinSlow.toNat
        (done.1, slow ++ done.2)

inductive IoctlCmd
  | streamDma
  | dmaTx
  | dmaRx
  | other
  deriving DecidableEq, Repr

/-- A call of `edu_ioctl` and the answers that it gets: from the PM core, from the two
`copy_from_user`, and from `edu_dma_transfers`. -/
structure IoctlCall where
  cmd : IoctlCmd
  resume : Int
  desc : Option EduStreamDesc
  len : Option Int
  env : MappingEnv
  dma : List (Nat × Nat) → Int
  transfer : Int → Int

def eduIoctlBody (call : IoctlCall) : Int × List (Use SgItem) :=
  match call.cmd with
  | .streamDma =>
      match call.desc with
      | none => (-EFAULT, [])
      | some desc => doSgDmaUses call.env call.dma desc
  | .dmaTx | .dmaRx =>
      match call.len with
      | none => (-EFAULT, [])
      | some len => (call.transfer len, [])
  | .other => (-ENOTTY, [])

def eduIoctl (call : IoctlCall) : Int × List (Use SgItem) :=
  if call.resume < 0 then (call.resume, [])
  else
    let done := eduIoctlBody call
    (done.1, .acquire .usage :: done.2 ++ [.release .usage])

/-! The entries that a call maps, and those of them that stay mapped. -/

def mappedAfter (env : MappingEnv) (desc : EduStreamDesc) (pinned : Nat) :
    Option (List SgEntry) :=
  let sg := desc.scatterlist pinned
  if env.sgAlloc ∧ sg.2 = 0 ∧ env.mapSg sg.1 ≠ [] then some sg.1 else none

def doSgDmaMapped (env : MappingEnv) (desc : EduStreamDesc) : Option (List SgEntry) :=
  if !env.pagesAlloc then none
  else if env.pinFast = desc.nrPages.toNat then mappedAfter env desc env.pinFast.toNat
  else if env.pinSlow < desc.nrPages.toNat then none
  else mappedAfter env desc env.pinSlow.toNat

def IoctlCall.mapped (call : IoctlCall) : Option (List SgEntry) :=
  if call.resume < 0 then none
  else
    match call.cmd with
    | .streamDma => call.desc.bind (doSgDmaMapped call.env)
    | .dmaTx | .dmaRx | .other => none

def leftMapped (env : MappingEnv) (mapped : Option (List SgEntry)) : List SgItem :=
  match mapped with
  | none => []
  | some sg => (sg.filter (env.unmapSg sg (env.mapSg sg).length)).map .mapped

def IoctlCall.leaks (call : IoctlCall) : Multiset SgItem :=
  Multiset.ofList (leftMapped call.env call.mapped)

def IoctlCall.Unmerged (call : IoctlCall) : Prop :=
  ∀ sg, call.mapped = some sg → (call.env.mapSg sg).length = sg.length

variable {env : MappingEnv} {dma : List (Nat × Nat) → Int} {desc : EduStreamDesc} {pinned : Nat}

theorem havePages_ret (interruptsEnabled : Bool) (dir : Int) (memory : Memory) :
    (havePages env (fun mnts => (dmaSegments interruptsEnabled dir memory mnts).1) desc
        pinned).1 =
      (if !env.sgAlloc then (-ENOMEM, memory)
        else
          let sg := desc.scatterlist pinned
          if sg.2 ≠ 0 then (-EFAULT, memory)
          else if (env.mapSg sg.1).isEmpty then (-ENOMEM, memory)
          else dmaSegments interruptsEnabled dir memory (env.mapSg sg.1)).1 := by
  rw [havePages]
  split
  · rfl
  · dsimp only
    split
    · rfl
    · split <;> rfl

theorem doSgDmaUses_ret (inSpace : desc.InSpace) (interruptsEnabled : Bool) (dir : Int)
    (memory : Memory) :
    (doSgDmaUses env (fun mnts => (dmaSegments interruptsEnabled dir memory mnts).1) desc).1 =
      (doSgDma env.toStreamEnv interruptsEnabled memory (desc.stream dir)).1 := by
  have direct : (desc.stream dir).dir = dir := rfl
  simp only [doSgDmaUses, doSgDma, inSpace.stream_nrPages, EduStreamDesc.stream_scatterlist, direct]
  by_cases alloc : env.pagesAlloc = true
  swap
  · simp only [alloc, Bool.not_false, if_true]
  simp only [alloc, Bool.not_true, Bool.false_eq_true, if_false]
  by_cases fast : env.pinFast = desc.nrPages.toNat
  · have nonneg : ¬env.pinFast < 0 := by omega
    have enough : ¬env.pinFast < desc.nrPages.toNat := by omega
    rw [if_pos fast, if_pos fast, if_neg nonneg, if_neg enough, havePages_ret]
  · rw [if_neg fast, if_neg fast]
    split
    · rfl
    · split
      · rfl
      · rw [havePages_ret]

/-! What each path leaves behind. -/

theorem errUnpin_leaves (desc : EduStreamDesc) (pinned : Nat) {uses : List (Use SgItem)}
    {left : Multiset SgItem} (leaves : Leaves uses left) :
    Leaves (.acquire .pages :: acquireAll (desc.pins pinned) ++ uses ++ errUnpin desc pinned)
      left := by
  have pinned := leaves.bracket (List.Perm.refl (desc.pins pinned))
  have paged := pinned.bracket (List.Perm.refl [SgItem.pages])
  simpa only [acquireAll, releaseAll, errUnpin, errFreePages, List.map_cons, List.map_nil,
    List.cons_append, List.nil_append, List.append_assoc] using paged

theorem mapping_leaves (entries : List SgEntry) (stays : SgEntry → Bool) :
    Leaves (acquireAll (entries.map SgItem.mapped) ++
        releaseAll ((entries.filter fun entry => !stays entry).map SgItem.mapped))
      (Multiset.ofList ((entries.filter stays).map SgItem.mapped)) := by
  have parted : Multiset.ofList (entries.map SgItem.mapped) =
      Multiset.ofList ((entries.filter fun entry => !stays entry).map SgItem.mapped) +
        Multiset.ofList ((entries.filter stays).map SgItem.mapped) := by
    rw [Multiset.coe_add, ← List.map_append, Multiset.coe_eq_coe]
    exact ((List.perm_append_comm.trans (List.filter_append_perm stays entries)).symm).map _
  have acquired := Resources.leaves_acquireAll (entries.map SgItem.mapped)
  rw [parted] at acquired
  exact acquired.release

theorem havePages_leaves (env : MappingEnv) (dma : List (Nat × Nat) → Int) (desc : EduStreamDesc)
    (pinned : Nat) :
    Leaves (.acquire .pages :: acquireAll (desc.pins pinned) ++ (havePages env dma desc pinned).2)
      (Multiset.ofList (leftMapped env (mappedAfter env desc pinned))) := by
  have nothing := errUnpin_leaves desc pinned Resources.leaves_nil
  have sgOnly : Leaves [.acquire .sg, .release .sg] (0 : Multiset SgItem) := rfl
  have table := errUnpin_leaves desc pinned sgOnly
  simp only [List.append_assoc, List.cons_append, List.nil_append, errFreeSg, havePages,
    mappedAfter] at nothing table ⊢
  by_cases alloc : env.sgAlloc = true
  swap
  · simpa [alloc, leftMapped] using nothing
  by_cases whole : (desc.scatterlist pinned).2 = 0
  swap
  · simpa [alloc, whole, leftMapped] using table
  by_cases some : env.mapSg (desc.scatterlist pinned).1 = []
  · simpa [alloc, whole, some, leftMapped] using table
  have body := mapping_leaves (desc.scatterlist pinned).1
    (env.unmapSg (desc.scatterlist pinned).1 (env.mapSg (desc.scatterlist pinned).1).length)
  have mapped := errUnpin_leaves desc pinned (body.bracket (List.Perm.refl [SgItem.sg]))
  simpa [alloc, whole, some, leftMapped, acquireAll, releaseAll] using mapped

theorem retried_leaves (desc : EduStreamDesc) (pinned : Nat) {again uses : List (Use SgItem)}
    {left : Multiset SgItem} (leaves : Leaves (.acquire .pages :: again ++ uses) left) :
    Leaves (.acquire .pages :: acquireAll (desc.pins pinned) ++ releaseAll (desc.pins pinned) ++
      again ++ uses) left := by
  have nothing := Resources.leaves_nil.bracket (List.Perm.refl (desc.pins pinned))
  have split : Leaves ([.acquire .pages] ++ (again ++ uses)) left := leaves
  have inserted := split.insert nothing
  rw [List.append_nil] at inserted
  simpa only [List.append_assoc, List.cons_append, List.nil_append] using inserted

theorem doSgDma_leaves (env : MappingEnv) (dma : List (Nat × Nat) → Int) (desc : EduStreamDesc) :
    Leaves (doSgDmaUses env dma desc).2
      (Multiset.ofList (leftMapped env (doSgDmaMapped env desc))) := by
  rw [doSgDmaUses, doSgDmaMapped]
  by_cases alloc : env.pagesAlloc = true
  swap
  · simp only [alloc, Bool.not_false, if_true]
    exact Resources.leaves_nil
  simp only [alloc, Bool.not_true, Bool.false_eq_true, if_false]
  by_cases fast : env.pinFast = desc.nrPages.toNat
  · rw [if_pos fast, if_pos fast]
    exact havePages_leaves env dma desc env.pinFast.toNat
  · rw [if_neg fast, if_neg fast]
    by_cases failed : env.pinSlow < 0
    · have few : env.pinSlow < desc.nrPages.toNat := by omega
      have none : env.pinSlow.toNat = 0 := by omega
      have pagesOnly : Leaves [.acquire .pages, .release .pages] (0 : Multiset SgItem) := rfl
      rw [if_pos failed, if_pos few, none]
      exact retried_leaves desc env.pinFast.toNat pagesOnly
    rw [if_neg failed]
    by_cases few : env.pinSlow < desc.nrPages.toNat
    · rw [if_pos few, if_pos few]
      have unpinned := errUnpin_leaves desc env.pinSlow.toNat Resources.leaves_nil
      rw [List.append_nil] at unpinned
      exact retried_leaves desc env.pinFast.toNat unpinned
    · rw [if_neg few, if_neg few]
      exact retried_leaves desc env.pinFast.toNat (havePages_leaves env dma desc env.pinSlow.toNat)

theorem eduIoctl_leaves (call : IoctlCall) : Leaves (eduIoctl call).2 call.leaks := by
  rw [eduIoctl, IoctlCall.leaks, IoctlCall.mapped]
  by_cases failed : call.resume < 0
  · rw [if_pos failed, if_pos failed]
    exact Resources.leaves_nil
  rw [if_neg failed, if_neg failed]
  have body : Leaves (eduIoctlBody call).2 (Multiset.ofList (leftMapped call.env
      (match call.cmd with
        | .streamDma => call.desc.bind (doSgDmaMapped call.env)
        | .dmaTx | .dmaRx | .other => none))) := by
    rw [eduIoctlBody]
    cases call.cmd with
    | streamDma =>
        cases call.desc with
        | none => exact Resources.leaves_nil
        | some desc => exact doSgDma_leaves call.env call.dma desc
    | dmaTx | dmaRx =>
        cases call.len with
        | none => exact Resources.leaves_nil
        | some len => exact Resources.leaves_nil
    | other => exact Resources.leaves_nil
  exact body.bracket (List.Perm.refl [SgItem.usage])

theorem IoctlCall.leaks_unmerged {call : IoctlCall} (unmaps : call.env.UnmapsAll)
    (unmerged : call.Unmerged) : call.leaks = 0 := by
  rw [IoctlCall.leaks, Multiset.coe_eq_zero]
  cases mapped : call.mapped with
  | none => rfl
  | some sg =>
      rw [leftMapped, unmerged sg mapped, List.map_eq_nil_iff, List.filter_eq_nil_iff]
      intro entry listed
      rw [unmaps sg entry listed]
      exact Bool.false_ne_true

structure IoctlsRelease {Pid : Type} [DecidableEq Pid] [Fintype Pid] (calls : Pid → List IoctlCall)
    (threads : Resources.Threads Pid SgItem) : Prop where
  possible : ∀ pid, threads.ahead pid ≠ [] → ∃ next, Resources.interleave threads pid = some next
  left : (∀ pid, threads.ahead pid = []) →
    threads.held = ∑ pid, ((calls pid).map IoctlCall.leaks).sum
  mapped : (∀ pid, threads.ahead pid = []) → ∀ item ∈ threads.held, ∃ entry, item = .mapped entry
  clean : (∀ pid, threads.ahead pid = []) → (∀ pid, ∀ call ∈ calls pid, call.Unmerged) →
    threads.held = 0

theorem leaks_mapped {call : IoctlCall} {item : SgItem} (member : item ∈ call.leaks) :
    ∃ entry, item = .mapped entry := by
  rw [IoctlCall.leaks, Multiset.mem_coe] at member
  cases mapped : call.mapped with
  | none =>
      rw [mapped] at member
      contradiction
  | some sg =>
      rw [mapped, leftMapped, List.mem_map] at member
      obtain ⟨entry, _, rfl⟩ := member
      exact ⟨entry, rfl⟩

theorem mem_leaks {Pid : Type} [Fintype Pid] (calls : Pid → List IoctlCall) (item : SgItem) :
    item ∈ ∑ pid, ((calls pid).map IoctlCall.leaks).sum ↔
      ∃ pid, ∃ call ∈ calls pid, item ∈ call.leaks := by
  rw [Multiset.mem_sum]
  simp only [Finset.mem_univ, true_and]
  refine exists_congr fun pid => ?_
  induction calls pid with
  | nil => simp
  | cons call rest ih => simp [ih]

/-- Calls of `edu_ioctl` at the same time give back the usage count, every page pin and both
arrays, and the DMA mappings too when none of them has fewer segments than entries. -/
theorem ioctls_release {Pid : Type} [DecidableEq Pid] [Fintype Pid]
    (calls : Pid → List IoctlCall) (unmaps : ∀ pid, ∀ call ∈ calls pid, call.env.UnmapsAll)
    (schedule : List Pid) :
    StepMachine.Always Resources.interleave (IoctlsRelease calls)
      ⟨fun pid => (calls pid).flatMap fun call => (eduIoctl call).2, 0⟩ schedule := by
  have each : ∀ pid, Leaves ((calls pid).flatMap fun call => (eduIoctl call).2)
      ((calls pid).map IoctlCall.leaks).sum :=
    fun pid => Resources.leaves_flatMap (calls pid) eduIoctl_leaves
  refine (Resources.interleaved each schedule).mono ?_
  intro threads settled
  refine ⟨settled.possible, settled.left, ?_, ?_⟩
  · intro done item member
    rw [settled.left done] at member
    obtain ⟨_, call, _, leaked⟩ := (mem_leaks calls item).mp member
    exact leaks_mapped leaked
  · intro done unmerged
    rw [settled.left done, Multiset.eq_zero_iff_forall_notMem]
    intro item member
    obtain ⟨pid, call, listed, leaked⟩ := (mem_leaks calls item).mp member
    rw [IoctlCall.leaks_unmerged (unmaps pid call listed) (unmerged pid call listed)] at leaked
    exact Multiset.notMem_zero item leaked

/-- A bus that maps a list as one segment when its pages follow each other, and unmaps the entries
from the first one on, as many as it is told. -/
def mergingBus : MappingEnv where
  pagesAlloc := true
  pinFast := 1
  pinSlow := 2
  sgAlloc := true
  mapSg := fun sg =>
    match sg with
    | [] => []
    | first :: rest =>
        [(first.page * PAGE_SIZE + first.offset, first.len + (rest.map SgEntry.len).sum)]
  unmapSg := fun sg nents entry => (sg.drop nents).contains entry

def streamAcross : IoctlCall where
  cmd := .streamDma
  resume := 0
  desc := some ⟨8191, 2⟩
  len := none
  env := mergingBus
  dma := fun _ => 0
  transfer := fun _ => 0

theorem ioctls_release_merged :
    (∀ pid : Bool, ∀ call ∈ (fun _ => [streamAcross]) pid, call.env.UnmapsAll) ∧
      StepMachine.Always Resources.interleave (IoctlsRelease fun _ : Bool => [streamAcross])
        ⟨fun _ => [streamAcross].flatMap fun call => (eduIoctl call).2, 0⟩
        [true, false, true, true, false, false] ∧
      streamAcross.leaks = {SgItem.mapped ⟨2, 1, 0⟩} := by
  have unmaps : ∀ pid : Bool, ∀ call ∈ (fun _ => [streamAcross]) pid, call.env.UnmapsAll := by
    intro _ call listed sg entry _
    rw [List.mem_singleton.mp listed]
    simp [streamAcross, mergingBus]
  exact ⟨unmaps, ioctls_release (fun _ : Bool => [streamAcross]) unmaps _, by decide +kernel⟩

end Ldd3.Edu
