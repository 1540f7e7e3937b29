import Mathlib.Tactic
import Ldd3.Lib.StepMachine

/-!
Resources that code acquires and releases, as the sequence of these uses: releasing what is not
held is not possible. What a sequence leaves behind from nothing it leaves behind in any
surroundings, so sequences can be nested, joined and interleaved.
-/

open scoped BigOperators

namespace Resources

inductive Use (Item : Type)
  | acquire (item : Item)
  | release (item : Item)
  deriving DecidableEq, Repr

variable {Item : Type} [DecidableEq Item]

def step (held : Multiset Item) : Use Item → Option (Multiset Item)
  | .acquire item => some (item ::ₘ held)
  | .release item => if item ∈ held then some (held.erase item) else none

def acquireAll (items : List Item) : List (Use Item) := items.map .acquire

def releaseAll (items : List Item) : List (Use Item) := items.map .release

/-- The sequence never releases what it has not acquired, and holds these items at its end. -/
def Leaves (uses : List (Use Item)) (left : Multiset Item) : Prop :=
  StepMachine.run step 0 uses = some left

variable {held middle left others : Multiset Item} {uses first rest : List (Use Item)} {item : Item}

theorem step_frame {use : Use Item} (taken : step held use = some left)
    (others : Multiset Item) : step (held + others) use = some (left + others) := by
  cases use with
  | acquire item =>
      rw [step, Option.some.injEq] at taken
      rw [step, ← taken, Multiset.cons_add]
  | release item =>
      rw [step, Option.ite_none_right_eq_some, Option.some.injEq] at taken
      obtain ⟨member, rfl⟩ := taken
      rw [step, if_pos (Multiset.mem_add.mpr (Or.inl member)),
        Multiset.erase_add_left_pos _ member]

theorem run_frame (ran : StepMachine.run step held uses = some left) (others : Multiset Item) :
    StepMachine.run step (held + others) uses = some (left + others) := by
  induction uses generalizing held with
  | nil =>
      simp only [StepMachine.run_nil, Option.some.injEq] at ran ⊢
      rw [ran]
  | cons use rest ih =>
      obtain ⟨next, taken, ranRest⟩ := StepMachine.run_cons_inv ran
      exact StepMachine.run_cons_some (step_frame taken others) (ih ranRest)

theorem Leaves.within (leaves : Leaves uses left) (held : Multiset Item) :
    StepMachine.run step held uses = some (left + held) := by
  have framed := run_frame leaves held
  rwa [zero_add] at framed

theorem leaves_nil : Leaves ([] : List (Use Item)) 0 := rfl

theorem Leaves.append (leaves : Leaves first left) (later : Leaves rest others) :
    Leaves (first ++ rest) (left + others) := by
  have framed := later.within left
  rw [add_comm] at framed
  exact StepMachine.run_append_iff.mpr ⟨left, leaves, framed⟩

theorem Leaves.insert (leaves : Leaves (first ++ rest) left) (nothing : Leaves uses 0) :
    Leaves (first ++ uses ++ rest) left := by
  obtain ⟨middle, ranFirst, ranRest⟩ := StepMachine.run_append_iff.mp leaves
  have idle := nothing.within middle
  rw [zero_add] at idle
  exact StepMachine.run_append_iff.mpr
    ⟨middle, StepMachine.run_append_iff.mpr ⟨middle, ranFirst, idle⟩, ranRest⟩

theorem leaves_acquireAll (items : List Item) :
    Leaves (acquireAll items) (Multiset.ofList items) := by
  induction items with
  | nil => rfl
  | cons item rest ih =>
      have first : Leaves [Use.acquire item] {item} := rfl
      have both := first.append ih
      rwa [Multiset.singleton_add, Multiset.cons_coe] at both

theorem run_releaseAll (items : List Item) (held : Multiset Item) :
    StepMachine.run step (Multiset.ofList items + held) (releaseAll items) = some held := by
  induction items with
  | nil => rw [Multiset.coe_nil, zero_add, releaseAll, List.map_nil, StepMachine.run_nil]
  | cons item rest ih =>
      have split : Multiset.ofList (item :: rest) + held =
          item ::ₘ (Multiset.ofList rest + held) := by
        rw [← Multiset.cons_coe, Multiset.cons_add]
      have released : step (Multiset.ofList (item :: rest) + held) (.release item) =
          some (Multiset.ofList rest + held) := by
        rw [split, step, if_pos (Multiset.mem_cons_self item _), Multiset.erase_cons_head]
      exact StepMachine.run_cons_some released ih

theorem Leaves.release {items : List Item} (leaves : Leaves uses (Multiset.ofList items + left)) :
    Leaves (uses ++ releaseAll items) left :=
  StepMachine.run_append_iff.mpr ⟨_, leaves, run_releaseAll items left⟩

theorem Leaves.bracket {items returned : List Item} (leaves : Leaves uses left)
    (same : returned.Perm items) :
    Leaves (acquireAll items ++ uses ++ releaseAll returned) left := by
  have inside := StepMachine.run_append_iff.mpr
    ⟨_, leaves_acquireAll items, leaves.within (Multiset.ofList items)⟩
  refine StepMachine.run_append_iff.mpr ⟨_, inside, ?_⟩
  rw [add_comm, ← Multiset.coe_eq_coe.mpr same]
  exact run_releaseAll returned left

theorem leaves_flatMap {Call : Type} {trace : Call → List (Use Item)} {leak : Call → Multiset Item}
    (calls : List Call) (each : ∀ call, Leaves (trace call) (leak call)) :
    Leaves (calls.flatMap trace) (calls.map leak).sum := by
  induction calls with
  | nil => rfl
  | cons call rest ih =>
      rw [List.flatMap_cons, List.map_cons, List.sum_cons]
      exact (each call).append ih

/-! The same items under other names. -/

section Renaming

variable {Other : Type} [DecidableEq Other] {name : Item → Other}

omit [DecidableEq Item] [DecidableEq Other] in
def Use.map (name : Item → Other) : Use Item → Use Other
  | acquire item => acquire (name item)
  | release item => release (name item)

theorem step_map (injective : Function.Injective name) (held : Multiset Item) (use : Use Item) :
    step (held.map name) (use.map name) = (step held use).map (Multiset.map name) := by
  cases use with
  | acquire item => rw [Use.map, step, step, Option.map_some, Multiset.map_cons]
  | release item =>
      have renamed := Multiset.mem_map_of_injective injective (a := item) (s := held)
      by_cases member : item ∈ held
      · rw [Use.map, step, step, if_pos member, if_pos (renamed.mpr member), Option.map_some,
          Multiset.map_erase name injective]
      · rw [Use.map, step, step, if_neg member, if_neg fun there => member (renamed.mp there)]
        rfl

theorem run_map (injective : Function.Injective name) (held : Multiset Item)
    (uses : List (Use Item)) :
    StepMachine.run step (held.map name) (uses.map (Use.map name)) =
      (StepMachine.run step held uses).map (Multiset.map name) := by
  induction uses generalizing held with
  | nil => rfl
  | cons use rest ih =>
      rw [List.map_cons, StepMachine.run, StepMachine.run, step_map injective]
      cases step held use with
      | none => rfl
      | some next => exact ih next

theorem Leaves.map (leaves : Leaves uses left) (injective : Function.Injective name) :
    Leaves (uses.map (Use.map name)) (left.map name) := by
  have renamed := run_map injective 0 uses
  rw [leaves, Option.map_some, Multiset.map_zero] at renamed
  exact renamed

end Renaming

/-! Loops that acquire something for one index after the other. -/

section Climbing

variable {Fail : Type}

def climb (items : Nat → List Item) (fails : Nat → Option (List (Use Item) × Fail)) :
    Nat → Nat → List (Use Item) × Option (Nat × Fail)
  | 0, _ => ([], none)
  | remaining + 1, index =>
      match fails index with
      | some (uses, fail) => (uses, some (index, fail))
      | none =>
          let rest := climb items fails remaining (index + 1)
          (acquireAll (items index) ++ rest.1, rest.2)

variable (items : Nat → List Item) {fails : Nat → Option (List (Use Item) × Fail)}
  {count index last : Nat}

omit [DecidableEq Item] in
theorem find_fails {lacks : Nat → Bool} (same : ∀ index, (fails index).isSome = lacks index)
    (count : Nat) : (List.range' 0 count).find? (fun position => (fails position).isSome) =
      (List.range count).find? lacks := by
  rw [funext same, List.range_eq_range']

omit [DecidableEq Item] in
theorem climb_done (done : (List.range' index count).find? (fun position => (fails position).isSome) = none) :
    climb items fails count index =
      ((List.range' index count).flatMap fun position => acquireAll (items position), none) := by
  induction count generalizing index with
  | zero => rfl
  | succ count ih =>
      rw [List.range'_succ, List.find?_cons] at done
      cases here : fails index with
      | some failure =>
          rw [here] at done
          contradiction
      | none =>
          rw [here] at done
          rw [climb, here, List.range'_succ, List.flatMap_cons]
          simp only [ih done]

omit [DecidableEq Item] in
theorem climb_failed
    (found : (List.range' index count).find? (fun position => (fails position).isSome) = some last) :
    ∃ uses fail, fails last = some (uses, fail) ∧ climb items fails count index =
      (((List.range' index (last - index)).flatMap fun position => acquireAll (items position)) ++
        uses, some (last, fail)) := by
  induction count generalizing index with
  | zero => contradiction
  | succ count ih =>
      rw [List.range'_succ, List.find?_cons] at found
      cases here : fails index with
      | some failure =>
          rw [here, Option.isSome_some, Option.some.injEq] at found
          obtain rfl := found
          refine ⟨failure.1, failure.2, here, ?_⟩
          rw [climb, here, Nat.sub_self, List.range'_zero, List.flatMap_nil, List.nil_append]
      | none =>
          rw [here] at found
          obtain ⟨uses, fail, failed, split⟩ := ih found
          have later : index + 1 ≤ last :=
            (List.mem_range'_1.mp (List.mem_of_find?_eq_some found)).1
          have longer : last - index = (last - (index + 1)) + 1 := by omega
          refine ⟨uses, fail, failed, ?_⟩
          rw [climb, here, longer, List.range'_succ, List.flatMap_cons, List.append_assoc]
          simp only [split]

omit [DecidableEq Item] in
theorem acquireAll_flatMap (order : List Nat) (items : Nat → List Item) :
    order.flatMap (fun index => acquireAll (items index)) = acquireAll (order.flatMap items) := by
  rw [acquireAll, List.map_flatMap]
  rfl

omit [DecidableEq Item] in
theorem releaseAll_flatMap (order : List Nat) (items : Nat → List Item) :
    order.flatMap (fun index => releaseAll (items index)) = releaseAll (order.flatMap items) := by
  rw [releaseAll, List.map_flatMap]
  rfl

theorem Leaves.unwound {order back : List Nat} {items returned : Nat → List Item}
    (leaves : Leaves uses left) (reordered : back.Perm order)
    (same : ∀ index, (returned index).Perm (items index)) :
    Leaves ((order.flatMap fun index => acquireAll (items index)) ++ uses ++
      back.flatMap fun index => releaseAll (returned index)) left := by
  rw [acquireAll_flatMap, releaseAll_flatMap]
  exact leaves.bracket (reordered.flatMap fun index _ => same index)

end Climbing

/-! Several processes, each with the uses that it has before it. -/

section Interleaving

variable {Pid : Type} [DecidableEq Pid]

structure Threads (Pid Item : Type) where
  ahead : Pid → List (Use Item)
  held : Multiset Item

def interleave (threads : Threads Pid Item) (pid : Pid) : Option (Threads Pid Item) :=
  match threads.ahead pid with
  | [] => none
  | use :: rest =>
      (step threads.held use).map fun held =>
        { ahead := Function.update threads.ahead pid rest, held := held }

variable [Fintype Pid] {threads next : Threads Pid Item} {leaks : Pid → Multiset Item}

/-- What is held is what each process holds of its own, and with that each comes to its end. -/
def Apart (leaks : Pid → Multiset Item) (threads : Threads Pid Item) : Prop :=
  ∃ own : Pid → Multiset Item, threads.held = ∑ pid, own pid ∧
    ∀ pid, StepMachine.run step (own pid) (threads.ahead pid) = some (leaks pid)

omit [DecidableEq Item] in
theorem sum_own (own : Pid → Multiset Item) (pid : Pid) (changed : Multiset Item) :
    ∃ others, ∑ other, own other = own pid + others ∧
      ∑ other, Function.update own pid changed other = changed + others := by
  refine ⟨∑ other ∈ Finset.univ.erase pid, own other, ?_, ?_⟩
  · rw [Finset.add_sum_erase _ _ (Finset.mem_univ pid)]
  · rw [← Finset.add_sum_erase _ _ (Finset.mem_univ pid), Function.update_self]
    congr 1
    apply Finset.sum_congr rfl
    intro other member
    rw [Function.update_of_ne (Finset.ne_of_mem_erase member)]

theorem Apart.step (apart : Apart leaks threads) {pid : Pid} (busy : threads.ahead pid ≠ []) :
    ∃ next, interleave threads pid = some next ∧ Apart leaks next := by
  obtain ⟨own, total, ran⟩ := apart
  obtain ⟨use, rest, split⟩ := List.exists_cons_of_ne_nil busy
  have ranHere := ran pid
  rw [split] at ranHere
  obtain ⟨changed, taken, ranRest⟩ := StepMachine.run_cons_inv ranHere
  obtain ⟨others, before, after⟩ := sum_own own pid changed
  have taken := step_frame taken others
  rw [← before, ← total] at taken
  refine ⟨⟨Function.update threads.ahead pid rest, changed + others⟩, ?_,
    Function.update own pid changed, after.symm, ?_⟩
  · simp only [interleave, split, taken, Option.map_some]
  · intro other
    by_cases same : other = pid
    · rw [same]
      simpa only [Function.update_self] using ranRest
    · simp only [Function.update_of_ne same]
      exact ran other

/-- Nothing is released that is not held, and at the end the leaks are held and nothing else. -/
structure Settled (leaks : Pid → Multiset Item) (threads : Threads Pid Item) : Prop where
  possible : ∀ pid, threads.ahead pid ≠ [] → ∃ next, interleave threads pid = some next
  left : (∀ pid, threads.ahead pid = []) → threads.held = ∑ pid, leaks pid

theorem Apart.settled (apart : Apart leaks threads) : Settled leaks threads where
  possible := by
    intro pid busy
    obtain ⟨next, taken, _⟩ := apart.step busy
    exact ⟨next, taken⟩
  left := by
    intro done
    obtain ⟨own, total, ran⟩ := apart
    rw [total]
    apply Finset.sum_congr rfl
    intro pid _
    have last := ran pid
    rwa [done pid, StepMachine.run_nil, Option.some.injEq] at last

theorem interleaved {ahead : Pid → List (Use Item)} (each : ∀ pid, Leaves (ahead pid) (leaks pid))
    (schedule : List Pid) :
    StepMachine.Always interleave (Settled leaks) ⟨ahead, 0⟩ schedule := by
  have initial : Apart leaks ⟨ahead, 0⟩ :=
    ⟨fun _ => 0, Finset.sum_const_zero.symm, each⟩
  refine StepMachine.always_of_meets ?_ (fun _ apart => apart.settled) initial
    (StepMachine.meets_true _ _)
  intro state pid next apart _ taken
  have busy : state.ahead pid ≠ [] := by
    intro done
    rw [interleave, done] at taken
    contradiction
  obtain ⟨other, found, kept⟩ := apart.step busy
  rw [taken, Option.some.injEq] at found
  exact found ▸ kept

omit [Fintype Pid] in
theorem interleave_cons {pid : Pid} {use : Use Item} {rest : List (Use Item)} {held : Multiset Item}
    (first : threads.ahead pid = use :: rest) (taken : step threads.held use = some held) :
    interleave threads pid =
      some { ahead := Function.update threads.ahead pid rest, held := held } := by
  rw [interleave, first]
  simp only [taken, Option.map_some]

theorem settled_alone (pid : Pid)
    (settled : ∀ schedule, StepMachine.Always interleave (Settled leaks) threads schedule) :
    ∃ left, StepMachine.run step threads.held (threads.ahead pid) = some left := by
  generalize remaining : threads.ahead pid = uses
  induction uses generalizing threads with
  | nil => exact ⟨threads.held, rfl⟩
  | cons use rest ih =>
      have here : Settled leaks threads := settled []
      have busy : threads.ahead pid ≠ [] := by
        rw [remaining]
        exact List.cons_ne_nil use rest
      obtain ⟨next, taken⟩ := here.possible pid busy
      have later := fun schedule => (settled (pid :: schedule)).2 next taken
      cases stepped : step threads.held use with
      | none =>
          rw [interleave, remaining] at taken
          simp only [stepped, Option.map_none] at taken
          contradiction
      | some held =>
          rw [interleave_cons remaining stepped, Option.some.injEq] at taken
          obtain rfl := taken
          obtain ⟨left, ran⟩ := ih later (Function.update_self pid rest threads.ahead)
          exact ⟨left, StepMachine.run_cons_some stepped ran⟩

end Interleaving

end Resources
