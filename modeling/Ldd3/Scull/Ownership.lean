import Mathlib.Tactic
import Ldd3.Lib.Allocation
import Ldd3.Lib.StepMachine
import Ldd3.Scull.Heap
import Ldd3.Scull.Reset

/-!
Who owns the memory blocks of a scull device. Reads and writes hang every block they obtain into
the list at `dev->data`; a reset frees the quanta and the nodes and leaves the pointer arrays.
-/

namespace Ldd3.Scull

def HeapQset.blocks (node : HeapQset) : List BlockId :=
  node.id :: match node.data with
    | none => []
    | some array => array.id :: array.quanta

def nodeBlocks (nodes : List HeapQset) : List BlockId := nodes.flatMap HeapQset.blocks

def HeapDev.blocks (dev : HeapDev) : List BlockId := nodeBlocks dev.data

/-- The module with one device, and the blocks that were obtained for it and are not freed. -/
structure HeapSys where
  dev : HeapDev
  globals : Geometry
  live : List BlockId
  freed : List BlockId
  attempts : Nat
  loaded : Bool
  deriving DecidableEq, Repr

def HeapSys.start (load : Geometry) : HeapSys :=
  { dev := .fresh load, globals := load, live := [], freed := [], attempts := 0, loaded := true }

inductive HeapAction
  | read (env : Env) (count : Nat) (fPos : Int)
  | write (env : Env) (data : List Byte) (fPos : Int)
  | openWriteOnly (interrupted : Bool) (fuel : Nat)
  | cleanup (fuel : Nat)
  | ioctl (globals : Geometry)

def HeapSys.called (sys : HeapSys) : Except Oops HeapReply → Option HeapSys
  | .ok reply =>
      some { sys with
        dev := reply.dev, live := reply.obtained ++ sys.live
        attempts := sys.attempts + reply.used }
  | .error _ => none

def HeapSys.reset (sys : HeapSys) (fuel : Nat) : Option HeapSys :=
  match heapDevReset fuel sys.globals sys.dev with
  | .returned dev freed =>
      some { sys with
        dev := dev, live := sys.live.filter (· ∉ freed), freed := sys.freed ++ freed }
  | _ => none

def heapStep (sys : HeapSys) (action : HeapAction) : Option HeapSys :=
  if sys.loaded then
    match action with
    | .read env count fPos =>
        sys.called
          (heapRead env sys.attempts sys.dev.quantum sys.dev.qset sys.dev count fPos)
    | .write env data fPos =>
        sys.called
          (heapWrite env sys.attempts sys.dev.quantum sys.dev.qset sys.dev data fPos)
    | .openWriteOnly true _ => some sys
    | .openWriteOnly false fuel => sys.reset fuel
    | .cleanup fuel => (sys.reset fuel).map fun reset => { reset with loaded := false }
    | .ioctl globals => some { sys with globals := globals }
  else none

structure BlocksOwned (sys : HeapSys) : Prop where
  live : ∀ id, id ∈ sys.live ↔ id ∈ sys.dev.blocks
  freedOnce : sys.freed.Nodup

def ResetsNothing (sys : HeapSys) : HeapAction → Prop
  | .openWriteOnly false _ | .cleanup _ => sys.dev.data = []
  | _ => True

/-! What the calls obtain. -/

theorem heapFollowNext_obtains (alloc : Nat → Bool) (base : BlockId) (count : Nat)
    (after : List HeapQset) (used : Nat) :
    let found := heapFollowNext alloc base count after used
    Obtains (base + used) (base + found.used) (nodeBlocks after) (nodeBlocks found.nodes)
      found.obtained := by
  induction count generalizing after used with
  | zero => exact .nothing (le_refl _) _
  | succ count ih =>
      cases after with
      | nil =>
          simp only [heapFollowNext]
          split
          · have node : Obtains (base + used) (base + (used + 1)) [] [base + used] [base + used] :=
              .one (base + used) .rfl
            have rest := (ih [] (used + 1)).cons (base + used)
            exact (node.trans rest).of_perm (List.perm_append_singleton _ _).symm
          · exact .nothing (Nat.add_le_add_left (Nat.le_succ used) base) _
      | cons node after =>
          simp only [heapFollowNext, nodeBlocks, List.flatMap_cons]
          exact (ih after used).append_left node.blocks

theorem heapFindItem_obtains (alloc : Nat → Bool) (base : BlockId) (nodes : List HeapQset)
    (item : Int) :
    let found := heapFindItem alloc base nodes item
    Obtains base (base + found.used) (nodeBlocks nodes) (nodeBlocks found.nodes)
      found.obtained := by
  cases nodes with
  | nil =>
      simp only [heapFindItem]
      split
      · have node : Obtains base (base + 1) [] [base] [base] := .one base .rfl
        have rest := (heapFollowNext_obtains alloc base (findRounds item) [] 1).cons base
        exact (node.trans rest).of_perm (List.perm_append_singleton _ _).symm
      · exact .nothing (Nat.le_add_right base 1) _
  | cons curr after =>
      simp only [heapFindItem, nodeBlocks, List.flatMap_cons]
      exact (heapFollowNext_obtains alloc base (findRounds item) after 0).append_left curr.blocks

theorem nodeBlocks_set {first last : Nat} {nodes : List HeapQset} {index : Nat} {id : BlockId}
    {old new : Option HeapArray} {obtained : List BlockId} (found : nodes[index]? = some ⟨id, old⟩)
    (step : Obtains first last (HeapQset.blocks ⟨id, old⟩) (HeapQset.blocks ⟨id, new⟩) obtained) :
    Obtains first last (nodeBlocks nodes) (nodeBlocks (nodes.set index ⟨id, new⟩)) obtained :=
  Obtains.flatMap_set found step

theorem quanta_set {entries : List (Option HeapQuantum)} {sPos : Nat}
    {old : Option HeapQuantum} (found : entries[sPos]? = some old) (new : HeapQuantum)
    {first last : Nat} {obtained : List BlockId}
    (step : Obtains first last (old.map HeapQuantum.id).toList [new.id] obtained) :
    Obtains first last (HeapArray.quanta ⟨0, entries⟩)
      (HeapArray.quanta ⟨0, entries.set sPos (some new)⟩) obtained := by
  have listed (entries : List (Option HeapQuantum)) : HeapArray.quanta ⟨0, entries⟩ =
      entries.flatMap fun entry => (entry.map HeapQuantum.id).toList :=
    List.filterMap_eq_flatMap_toList _ _
  rw [listed, listed]
  exact Obtains.flatMap_set found step

theorem entry_obtains {nodes : List HeapQset} {index sPos : Nat} {id : BlockId}
    {array : HeapArray} {old : Option HeapQuantum} {first last : Nat} {obtained : List BlockId}
    (found : nodes[index]? = some ⟨id, some array⟩) (entered : array.entries[sPos]? = some old)
    (new : HeapQuantum) (step : Obtains first last (old.map HeapQuantum.id).toList [new.id] obtained) :
    Obtains first last (nodeBlocks nodes) (nodeBlocks (nodes.set index
      ⟨id, some { array with entries := array.entries.set sPos (some new) }⟩)) obtained :=
  nodeBlocks_set found (((quanta_set entered new step).cons array.id).cons id)

theorem emptyArray_obtains (node array : BlockId) (size : Nat) :
    Obtains array (array + 1) (HeapQset.blocks ⟨node, none⟩)
      (HeapQset.blocks ⟨node, some ⟨array, List.replicate size none⟩⟩) [array] := by
  have noQuanta : HeapArray.quanta ⟨array, List.replicate size none⟩ = [] := by
    simp only [HeapArray.quanta, List.filterMap_replicate, Option.map_none]
  simp only [HeapQset.blocks, noQuanta]
  exact (Obtains.one array .rfl).cons node

theorem heapEntryAt_found {array : HeapArray} {sPos : Int} {entry : Option HeapQuantum}
    (entered : heapEntryAt array sPos = .ok entry) : array.entries[sPos.toNat]? = some entry := by
  simp only [heapEntryAt] at entered
  split at entered
  · rename_i inside
    simp only [Except.ok.injEq] at entered
    rw [List.getD_eq_getElem _ _ inside.2] at entered
    rw [List.getElem?_eq_getElem inside.2, entered]
  · contradiction

theorem heapKmallocQuantum_id {env : Env} {base : BlockId} {quantum devQuantum : Int} {used : Nat}
    {block : HeapQuantum}
    (allocated : heapKmallocQuantum env base quantum devQuantum used = .ok (some block)) :
    block.id = base + used := by
  simp only [heapKmallocQuantum] at allocated
  cases kmalloced : kmallocQuantum quantum devQuantum env used with
  | error oops => simp [kmalloced, Except.map] at allocated
  | ok bytes =>
      simp only [kmalloced, Except.map, Except.ok.injEq, Option.map_eq_some_iff] at allocated
      obtain ⟨_, _, built⟩ := allocated
      rw [← built]

/-- The list in the course of a call that found it as `before`: the allocations made so far,
the list as it is now and the blocks obtained for it. -/
inductive Linked (base : BlockId) (before : List HeapQset) :
    Nat → List HeapQset → List BlockId → Prop
  | untouched : Linked base before 0 before []
  | walked (alloc : Nat → Bool) (item : Int) :
      Linked base before (heapFindItem alloc base before item).used
        (heapFindItem alloc base before item).nodes (heapFindItem alloc base before item).obtained
  | failed {used : Nat} {nodes : List HeapQset} {obtained : List BlockId}
      (linked : Linked base before used nodes obtained) :
      Linked base before (used + 1) nodes obtained
  | array {used index : Nat} {nodes : List HeapQset} {obtained : List BlockId} {id : BlockId}
      (linked : Linked base before used nodes obtained) (found : nodes[index]? = some ⟨id, none⟩)
      (size : Nat) :
      Linked base before (used + 1)
        (nodes.set index ⟨id, some ⟨base + used, List.replicate size none⟩⟩)
        ((base + used) :: obtained)
  | quantum {used index sPos : Nat} {nodes : List HeapQset} {obtained : List BlockId}
      {id : BlockId} {array : HeapArray} (linked : Linked base before used nodes obtained)
      (found : nodes[index]? = some ⟨id, some array⟩) (entered : array.entries[sPos]? = some none)
      (bytes : List Byte) :
      Linked base before (used + 1)
        (nodes.set index ⟨id, some { array with
          entries := array.entries.set sPos (some ⟨base + used, bytes⟩) }⟩)
        ((base + used) :: obtained)
  | stored {used index sPos : Nat} {nodes : List HeapQset} {obtained : List BlockId}
      {id : BlockId} {array : HeapArray} {block : HeapQuantum}
      (linked : Linked base before used nodes obtained)
      (found : nodes[index]? = some ⟨id, some array⟩)
      (entered : array.entries[sPos]? = some (some block)) (bytes : List Byte) :
      Linked base before used
        (nodes.set index ⟨id, some { array with
          entries := array.entries.set sPos (some ⟨block.id, bytes⟩) }⟩) obtained

section Calls

variable {env : Env} {base : BlockId} {quantum qset devQuantum fPos : Int} {dev : HeapDev}
  {before : List HeapQset} {data : List Byte} {reply : HeapReply}

theorem heapCopyIntoQuantum_linked {qPos : Int} {index sPos used : Nat} {node : BlockId}
    {array : HeapArray} {block : HeapQuantum} {obtained : List BlockId}
    (linked : ∀ bytes, Linked base before used (dev.data.set index ⟨node, some { array with
      entries := array.entries.set sPos (some ⟨block.id, bytes⟩) }⟩) obtained)
    (replied : heapCopyIntoQuantum env quantum dev data fPos qPos index node array sPos block used
      obtained = .ok reply) :
    Linked base before reply.used reply.dev.data reply.obtained := by
  simp only [heapCopyIntoQuantum] at replied
  split at replied
  · split at replied
    all_goals
      simp only [Except.ok.injEq] at replied
      subst replied
      exact linked _
  · contradiction

theorem heapWithArray_linked {index used : Nat} {node : BlockId} {array : HeapArray}
    {pos : Position} {obtained : List BlockId}
    (found : dev.data[index]? = some ⟨node, some array⟩)
    (linked : Linked base before used dev.data obtained)
    (replied : heapWithArray env base quantum devQuantum dev data fPos index node array pos used
      obtained = .ok reply) :
    Linked base before reply.used reply.dev.data reply.obtained := by
  simp only [heapWithArray] at replied
  obtain ⟨entry, entered, replied⟩ := bind_eq_ok_iff.mp replied
  have entryFound := heapEntryAt_found entered
  cases entry with
  | some block =>
      exact heapCopyIntoQuantum_linked (fun bytes => linked.stored found entryFound bytes) replied
  | none =>
      obtain ⟨allocation, allocated, replied⟩ := bind_eq_ok_iff.mp replied
      cases allocation with
      | none =>
          simp only [Except.ok.injEq] at replied
          subst replied
          exact linked.failed
      | some block =>
          refine heapCopyIntoQuantum_linked ?_ replied
          intro bytes
          rw [heapKmallocQuantum_id allocated]
          exact linked.quantum found entryFound bytes

theorem heapRead_linked {count : Nat}
    (replied : heapRead env base quantum qset dev count fPos = .ok reply) :
    Linked base dev.data reply.used reply.dev.data reply.obtained := by
  simp only [heapRead] at replied
  split at replied
  · simp only [Except.ok.injEq] at replied
    subst replied
    exact .untouched
  split at replied
  · simp only [Except.ok.injEq] at replied
    subst replied
    exact .untouched
  obtain ⟨pos, computed, replied⟩ := bind_eq_ok_iff.mp replied
  have walked : Linked base dev.data _ _ _ := .walked env.alloc pos.item
  split at replied
  · simp only [Except.ok.injEq] at replied
    subst replied
    exact walked
  obtain ⟨entry, entered, replied⟩ := bind_eq_ok_iff.mp replied
  cases entry with
  | none =>
      simp only [Except.ok.injEq] at replied
      subst replied
      exact walked
  | some block =>
      simp only at replied
      split at replied
      · split at replied
        all_goals
          simp only [Except.ok.injEq] at replied
          subst replied
          exact walked
      · contradiction

theorem heapFindItem_found {alloc : Nat → Bool} {nodes : List HeapQset} {item : Int} {index : Nat}
    (found : (heapFindItem alloc base nodes item).index = some index) :
    (heapFindItem alloc base nodes item).nodes[index]? =
      some ((heapFindItem alloc base nodes item).nodes.getD index (.empty 0)) := by
  have same := heapFindItem_forget alloc base nodes item
  obtain ⟨extra, grown, indices⟩ := scullFindItem_spec alloc (nodes.map HeapQset.forget) item
  rw [← same] at grown indices
  have length := congrArg List.length grown
  have bound := (indices index found).2
  simp only [HeapFound.forget, length_grow, List.length_map] at length bound
  have inside : index < (heapFindItem alloc base nodes item).nodes.length := by omega
  rw [List.getD_eq_getElem _ _ inside, List.getElem?_eq_getElem inside]

theorem heapWrite_linked
    (replied : heapWrite env base quantum qset dev data fPos = .ok reply) :
    Linked base dev.data reply.used reply.dev.data reply.obtained := by
  simp only [heapWrite] at replied
  split at replied
  · simp only [Except.ok.injEq] at replied
    subst replied
    exact .untouched
  obtain ⟨pos, computed, replied⟩ := bind_eq_ok_iff.mp replied
  have walked : Linked base dev.data _ _ _ := .walked env.alloc pos.item
  split at replied
  · simp only [Except.ok.injEq] at replied
    subst replied
    exact walked
  rename_i index found
  have node := heapFindItem_found found
  split at replied
  · rename_i array present
    refine heapWithArray_linked ?_ walked replied
    rw [node, ← present]
  · rename_i missing
    have held : (heapFindItem env.alloc base dev.data pos.item).nodes[index]? = some
        ⟨((heapFindItem env.alloc base dev.data pos.item).nodes.getD index (.empty 0)).id,
          none⟩ := by
      rw [node, ← missing]
    split at replied
    · have inside := (List.getElem?_eq_some_iff.mp held).1
      exact heapWithArray_linked (List.getElem?_set_self inside) (walked.array held qset.toNat)
        replied
    · simp only [Except.ok.injEq] at replied
      subst replied
      exact walked.failed

end Calls

theorem Linked.obtains {base : BlockId} {before nodes : List HeapQset} {used : Nat}
    {obtained : List BlockId} (linked : Linked base before used nodes obtained) :
    Obtains base (base + used) (nodeBlocks before) (nodeBlocks nodes) obtained := by
  induction linked with
  | untouched => exact .nothing (le_refl _) _
  | walked alloc item => exact heapFindItem_obtains alloc base before item
  | failed _ ih => exact ih.trans (.nothing (Nat.le_succ _) _)
  | array _ found size ih =>
      exact ih.trans (nodeBlocks_set found (emptyArray_obtains _ _ size))
  | quantum _ found entered bytes ih =>
      exact ih.trans (entry_obtains found entered ⟨_, bytes⟩ (.one _ .rfl))
  | stored _ found entered bytes ih =>
      exact ih.trans (entry_obtains found entered ⟨_, bytes⟩ (.nothing (le_refl _) _))

/-! What a reset frees. -/

def HeapQset.arrays (node : HeapQset) : List BlockId := (node.data.map HeapArray.id).toList

def HeapQset.released (node : HeapQset) : List BlockId :=
  node.id :: (node.data.map HeapArray.quanta).getD []

theorem nodeBlocks_perm (nodes : List HeapQset) :
    (nodeBlocks nodes).Perm (nodes.flatMap HeapQset.arrays ++ nodes.flatMap HeapQset.released) := by
  have perNode (node : HeapQset) : node.blocks.Perm (node.arrays ++ node.released) := by
    obtain ⟨id, data⟩ := node
    cases data with
    | none => exact .rfl
    | some array => exact List.Perm.swap array.id id array.quanta
  have listed := List.Perm.flatMap_left nodes fun node _ => perNode node
  exact listed.trans (List.flatMap_append_perm nodes HeapQset.arrays HeapQset.released).symm

theorem heapResetLoop_freed {globals : Geometry} {dev after : HeapDev} (fuel : Nat)
    (next : Option Nat) (curr : Nat) (before freed : List BlockId)
    (returned : heapResetLoop globals dev fuel next curr before = .returned after freed) :
    after = .fresh globals ∧
      ∀ id ∈ freed, id ∈ before ∨ id ∈ dev.data.flatMap HeapQset.released := by
  induction fuel generalizing next curr before with
  | zero => simp [heapResetLoop] at returned
  | succ fuel ih =>
      simp only [heapResetLoop] at returned
      split at returned
      · simp only [HeapReset.returned.injEq] at returned
        obtain ⟨emptied, same⟩ := returned
        exact ⟨emptied.symm, fun id member => .inl (same ▸ member)⟩
      rename_i node found
      split at returned
      · rename_i array present
        split at returned
        · obtain ⟨emptied, members⟩ := ih _ _ _ returned
          refine ⟨emptied, ?_⟩
          intro id member
          rcases members id member with early | late
          · rcases List.mem_append.mp early with early | here
            · exact .inl early
            · right
              refine List.mem_flatMap.mpr ⟨node, List.mem_of_getElem? found, ?_⟩
              simp only [HeapQset.released, present, Option.map_some, Option.getD_some]
              rcases List.mem_append.mp here with quantum | node
              · refine List.mem_cons_of_mem _ ?_
                obtain ⟨entry, entered, named⟩ := List.mem_filterMap.mp quantum
                exact List.mem_filterMap.mpr ⟨entry, List.mem_of_mem_take entered, named⟩
              · rw [List.mem_singleton.mp node]
                exact List.mem_cons_self
          · exact .inr late
        · contradiction
      · split at returned
        · exact ih _ _ _ returned
        · contradiction

theorem heapDevReset_freed {globals : Geometry} {dev after : HeapDev} {fuel : Nat}
    {freed : List BlockId} (returned : heapDevReset fuel globals dev = .returned after freed) :
    after = .fresh globals ∧ ∀ id ∈ freed, id ∈ dev.data.flatMap HeapQset.released := by
  obtain ⟨emptied, members⟩ := heapResetLoop_freed fuel none 0 [] freed returned
  exact ⟨emptied, fun id member => (members id member).resolve_left List.not_mem_nil⟩

theorem heapDevReset_empty {globals : Geometry} {dev after : HeapDev} {fuel : Nat}
    {freed : List BlockId} (returned : heapDevReset fuel globals dev = .returned after freed)
    (empty : dev.data = []) : freed = [] := by
  obtain ⟨_, members⟩ := heapDevReset_freed returned
  rw [empty] at members
  exact List.eq_nil_iff_forall_not_mem.mpr fun id member => List.not_mem_nil (members id member)

theorem heapDevReset_leaks {globals : Geometry} {dev after : HeapDev} {fuel : Nat}
    {freed : List BlockId} (returned : heapDevReset fuel globals dev = .returned after freed)
    (nodup : dev.blocks.Nodup) (some : dev.data ≠ []) : ∃ id ∈ dev.blocks, id ∉ freed := by
  have outcome := heapDevReset_forget fuel globals dev
  rw [returned] at outcome
  have filled : AllFilled dev.forget.data := by
    cases walked : scullDevReset fuel globals dev.forget with
    | returned device visited => exact allFilled_of_returned walked
    | oops failure => simp [walked, HeapReset.result, ResetOutcome.result] at outcome
    | running => simp [walked, HeapReset.result, ResetOutcome.result] at outcome
  obtain ⟨node, rest, listed⟩ := List.exists_cons_of_ne_nil some
  have member : node ∈ dev.data := by
    rw [listed]
    exact List.mem_cons_self
  obtain ⟨array, present⟩ : ∃ array, node.data = Option.some array := by
    have array := filled node.forget (List.mem_map_of_mem member)
    cases present : node.data with
    | none => simp [HeapQset.forget, present] at array
    | some array => exact ⟨array, rfl⟩
  have owned : array.id ∈ dev.data.flatMap HeapQset.arrays := by
    refine List.mem_flatMap.mpr ⟨node, member, ?_⟩
    simp only [HeapQset.arrays, present, Option.map_some, Option.toList_some, List.mem_singleton]
  have parts := nodeBlocks_perm dev.data
  refine ⟨array.id, parts.mem_iff.mpr (List.mem_append_left _ owned), ?_⟩
  intro released
  have disjoint := (List.nodup_append'.mp (parts.nodup_iff.mp nodup)).2.2
  exact disjoint owned ((heapDevReset_freed returned).2 array.id released)

/-! The blocks over a run. -/

structure BlocksNamed (sys : HeapSys) : Prop where
  nodup : sys.dev.blocks.Nodup
  below : ∀ id ∈ sys.dev.blocks, id < sys.attempts

inductive HeapMove (sys : HeapSys) (action : HeapAction) (next : HeapSys) : Prop
  | obtained (meets : ResetsNothing sys action) (obtained : List BlockId)
      (blocks : Obtains sys.attempts next.attempts sys.dev.blocks next.dev.blocks obtained)
      (live : next.live = obtained ++ sys.live) (freed : next.freed = sys.freed)
  | reset (exactly : ResetsNothing sys action ↔ sys.dev.data = []) (fuel : Nat)
      (freed : List BlockId)
      (returned : heapDevReset fuel sys.globals sys.dev = .returned next.dev freed)
      (live : next.live = sys.live.filter (· ∉ freed)) (allFreed : next.freed = sys.freed ++ freed)

theorem called_moves {sys next : HeapSys} {action : HeapAction} {replied : Except Oops HeapReply}
    (meets : ResetsNothing sys action)
    (obtains : ∀ reply, replied = .ok reply →
      Obtains sys.attempts (sys.attempts + reply.used) sys.dev.blocks reply.dev.blocks reply.obtained)
    (taken : sys.called replied = some next) : HeapMove sys action next := by
  cases replied with
  | error oops => simp [HeapSys.called] at taken
  | ok reply =>
      simp only [HeapSys.called, Option.some.injEq] at taken
      subst taken
      exact .obtained meets reply.obtained (obtains reply rfl) rfl rfl

theorem reset_moves {sys reset next : HeapSys} {action : HeapAction} {fuel : Nat}
    (exactly : ResetsNothing sys action ↔ sys.dev.data = []) (taken : sys.reset fuel = some reset)
    (built : ∃ loaded, next = { reset with loaded := loaded }) : HeapMove sys action next := by
  obtain ⟨loaded, built⟩ := built
  subst built
  simp only [HeapSys.reset] at taken
  split at taken
  · rename_i dev freed returned
    simp only [Option.some.injEq] at taken
    subst taken
    exact .reset exactly fuel freed returned rfl rfl
  · contradiction

theorem heapStep_moves {sys next : HeapSys} {action : HeapAction}
    (taken : heapStep sys action = some next) : HeapMove sys action next := by
  have unchanged {other : HeapSys} (meets : ResetsNothing sys action)
      (dev : other.dev = sys.dev) (live : other.live = sys.live) (freed : other.freed = sys.freed)
      (attempts : other.attempts = sys.attempts) : HeapMove sys action other := by
    refine .obtained meets [] ?_ live freed
    rw [dev, attempts]
    exact .nothing (le_refl _) _
  simp only [heapStep] at taken
  split at taken
  · cases action with
    | read env count fPos =>
        exact called_moves trivial (fun _ replied => (heapRead_linked replied).obtains) taken
    | write env data fPos =>
        exact called_moves trivial (fun _ replied => (heapWrite_linked replied).obtains) taken
    | openWriteOnly interrupted fuel =>
        cases interrupted with
        | true =>
            simp only [Option.some.injEq] at taken
            subst taken
            exact unchanged trivial rfl rfl rfl rfl
        | false => exact reset_moves Iff.rfl taken ⟨next.loaded, rfl⟩
    | cleanup fuel =>
        obtain ⟨reset, taken, built⟩ := Option.map_eq_some_iff.mp taken
        exact reset_moves Iff.rfl taken ⟨false, built.symm⟩
    | ioctl globals =>
        simp only [Option.some.injEq] at taken
        subst taken
        exact unchanged trivial rfl rfl rfl rfl
  · contradiction

theorem blocksNamed_step {sys next : HeapSys} {action : HeapAction} (named : BlocksNamed sys)
    (taken : heapStep sys action = some next) : BlocksNamed next := by
  cases heapStep_moves taken with
  | obtained _ obtained blocks _ _ =>
      exact ⟨blocks.kept_nodup named.nodup named.below, blocks.kept_below named.below⟩
  | reset _ fuel freed returned _ _ =>
      have empty : next.dev.blocks = [] := by
        rw [(heapDevReset_freed returned).1]
        rfl
      refine ⟨by rw [empty]; exact List.nodup_nil, ?_⟩
      intro id member
      rw [empty] at member
      contradiction

theorem blocksOwned_next_iff {sys next : HeapSys} {action : HeapAction} (named : BlocksNamed sys)
    (owned : BlocksOwned sys) (taken : heapStep sys action = some next) :
    BlocksOwned next ↔ ResetsNothing sys action := by
  cases heapStep_moves taken with
  | obtained meets obtained blocks live freed =>
      refine iff_of_true ⟨?_, ?_⟩ meets
      · intro id
        rw [live, blocks.mem_iff, List.mem_append, List.mem_append, owned.live]
      · rw [freed]
        exact owned.freedOnce
  | reset exactly fuel freed returned live allFreed =>
      have emptied : next.dev.blocks = [] := by
        rw [(heapDevReset_freed returned).1]
        rfl
      rw [exactly]
      constructor
      · intro ownedNext
        by_contra some
        obtain ⟨id, member, kept⟩ := heapDevReset_leaks returned named.nodup some
        have stillLive : id ∈ next.live := by
          rw [live]
          exact List.mem_filter.mpr ⟨(owned.live id).mpr member, decide_eq_true kept⟩
        have reached := (ownedNext.live id).mp stillLive
        rw [emptied] at reached
        contradiction
      · intro empty
        have noBlocks : sys.dev.blocks = [] := by rw [HeapDev.blocks, empty]; rfl
        have nothing := heapDevReset_empty returned empty
        subst nothing
        constructor
        · intro id
          have noLive := owned.live id
          rw [noBlocks] at noLive
          rw [live, emptied, List.mem_filter, noLive]
          simp only [List.not_mem_nil, false_and]
        · rw [allFreed, List.append_nil]
          exact owned.freedOnce

/-- Over any run whose resets return, the live blocks are those that can be reached from
`dev->data` exactly when every reset finds `dev->data` to be `NULL`. -/
theorem scull_blocksOwned_iff (load : Geometry) (actions : List HeapAction) :
    StepMachine.Always heapStep BlocksOwned (.start load) actions ↔
      StepMachine.Meets heapStep ResetsNothing (.start load) actions := by
  have named : BlocksNamed (.start load) := ⟨List.nodup_nil, fun _ member => nomatch member⟩
  have owned : BlocksOwned (.start load) := ⟨fun _ => Iff.rfl, List.nodup_nil⟩
  exact StepMachine.always_iff_meets
    (fun _ _ _ named _ taken => blocksNamed_step named taken)
    (fun _ _ _ named owned taken => blocksOwned_next_iff named owned taken) actions named owned

def writtenThenReset : List HeapAction :=
  [.write (.good fun _ => 0) [7] 0, .openWriteOnly false 2]

theorem writtenThenReset_leaks :
    ¬ StepMachine.Always heapStep BlocksOwned (.start ⟨2, 1⟩) writtenThenReset := by
  intro always
  have ran : StepMachine.run heapStep (.start ⟨2, 1⟩) writtenThenReset =
      some
        { dev := .fresh ⟨2, 1⟩, globals := ⟨2, 1⟩, live := [1], freed := [2, 0], attempts := 3
          loaded := true } := by decide +kernel
  have reached := ((always.last ran).live 1).mp (by decide)
  exact absurd reached (by decide)

end Ldd3.Scull
