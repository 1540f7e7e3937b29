import Mathlib.Tactic
import Ldd3.Lib.StepMachine

/-!
Methods of a shared object that run under one lock, in small steps. Every interleaving of them
is one of whole calls, each of which happens at once between its call and its return, with the
same results in the same order. A method may also end without giving back the lock.
-/

namespace Linearize

variable {Pid Shared Call Local Result : Type}

/-- `refused` is the result of a call that does not wait for the lock. What a call has seen of
the object before it asked for the lock is part of the call. -/
structure Method (Shared Call Local Result : Type) where
  start : Call → Local
  step : Shared → Local → Shared × (Local ⊕ Result)
  unlocks : Result → Bool
  refused : Call → Option Result

/-- From here the call ends with this object and result. -/
inductive Ends (method : Method Shared Call Local Result) :
    Shared → Local → Shared → Result → Prop
  | last {shared after here result} :
      method.step shared here = (after, .inr result) → Ends method shared here after result
  | more {shared middle after here there result} :
      method.step shared here = (middle, .inl there) →
      Ends method middle there after result → Ends method shared here after result

inductive Reaches (method : Method Shared Call Local Result) (shared : Shared) (here : Local) :
    Shared → Local → Prop
  | start : Reaches method shared here shared here
  | next {middle after there later} :
      Reaches method shared here middle there →
      method.step middle there = (after, .inl later) → Reaches method shared here after later

inductive Point (Call Local : Type)
  | idle
  | waiting (call : Call)
  | inside (call : Call) (state : Local)

inductive Event (Pid Call Result : Type)
  | called (pid : Pid) (call : Call)
  | returned (pid : Pid) (result : Result)

/-- `history` is the latest event first. -/
structure System (Pid Shared Call Local Result : Type) where
  shared : Shared
  holder : Option Pid
  points : Pid → Point Call Local
  history : List (Event Pid Call Result)

def System.start (shared : Shared) : System Pid Shared Call Local Result :=
  { shared := shared, holder := none, points := fun _ => .idle, history := [] }

inductive Action (Pid Call : Type)
  | begin (pid : Pid) (call : Call)
  | refuse (pid : Pid)
  | lock (pid : Pid)
  | go (pid : Pid)

inductive Atom (Pid Call : Type)
  | begin (pid : Pid) (call : Call)
  | refuse (pid : Pid)
  | perform (pid : Pid)

section Machines

variable [DecidableEq Pid]

def System.setPoint (sys : System Pid Shared Call Local Result) (pid : Pid)
    (point : Point Call Local) : System Pid Shared Call Local Result :=
  { sys with points := Function.update sys.points pid point }

def System.begins (sys : System Pid Shared Call Local Result) (pid : Pid) (call : Call) :
    Option (System Pid Shared Call Local Result) :=
  match sys.points pid with
  | .idle =>
      some ({ sys with history := .called pid call :: sys.history }.setPoint pid (.waiting call))
  | .waiting _ | .inside _ _ => none

def System.returns (sys : System Pid Shared Call Local Result) (pid : Pid) (result : Result) :
    System Pid Shared Call Local Result :=
  { sys with history := .returned pid result :: sys.history }.setPoint pid .idle

def System.refuses (method : Method Shared Call Local Result)
    (sys : System Pid Shared Call Local Result) (pid : Pid) :
    Option (System Pid Shared Call Local Result) :=
  match sys.points pid with
  | .waiting call => (method.refused call).map (sys.returns pid)
  | .idle | .inside _ _ => none

def Method.left (method : Method Shared Call Local Result) (pid : Pid) (result : Result) :
    Option Pid :=
  if method.unlocks result then none else some pid

def fineStep (method : Method Shared Call Local Result)
    (sys : System Pid Shared Call Local Result) :
    Action Pid Call → Option (System Pid Shared Call Local Result)
  | .begin pid call => sys.begins pid call
  | .refuse pid => sys.refuses method pid
  | .lock pid =>
      match sys.points pid with
      | .waiting call =>
          if method.refused call = none ∧ sys.holder = none then
            some ({ sys with holder := some pid }.setPoint pid (.inside call (method.start call)))
          else none
      | .idle | .inside _ _ => none
  | .go pid =>
      match sys.points pid with
      | .inside call here =>
          match method.step sys.shared here with
          | (after, .inl there) =>
              some ({ sys with shared := after }.setPoint pid (.inside call there))
          | (after, .inr result) =>
              some ({ sys with shared := after, holder := method.left pid result }.returns pid
                result)
      | .idle | .waiting _ => none

def atomStep (method : Method Shared Call Local Result)
    (whole : Shared → Call → Option (Shared × Result))
    (sys : System Pid Shared Call Local Result) :
    Atom Pid Call → Option (System Pid Shared Call Local Result)
  | .begin pid call => sys.begins pid call
  | .refuse pid => sys.refuses method pid
  | .perform pid =>
      match sys.points pid with
      | .waiting call =>
          if method.refused call = none ∧ sys.holder = none then
            (whole sys.shared call).map fun done =>
              { sys with shared := done.1, holder := method.left pid done.2 }.returns pid done.2
          else none
      | .idle | .inside _ _ => none

end Machines

/-! A run of small steps against a run of whole calls. -/

def Point.outer : Point Call Local → Point Call Local
  | .idle => .idle
  | .waiting call => .waiting call
  | .inside call _ => .waiting call

def Point.isInside : Point Call Local → Bool
  | .idle | .waiting _ => false
  | .inside _ _ => true

/-- A whole call does what its small steps do, as far as anybody sees the object again. -/
def Agrees (method : Method Shared Call Local Result)
    (whole : Shared → Call → Option (Shared × Result)) : Prop :=
  ∀ shared call after result, method.refused call = none →
    Ends method shared (method.start call) after result →
    ∃ done, whole shared call = some (done, result) ∧ (method.unlocks result = true → done = after)

theorem Reaches.ends {method : Method Shared Call Local Result} {shared middle after : Shared}
    {here there : Local} {result : Result} (reached : Reaches method shared here middle there)
    (rest : Ends method middle there after result) : Ends method shared here after result := by
  induction reached with
  | start => exact rest
  | next _ taken ih => exact ih (.more taken rest)

theorem Ends.unique {method : Method Shared Call Local Result} {shared after other : Shared}
    {here : Local} {result answer : Result} (ends : Ends method shared here after result)
    (also : Ends method shared here other answer) : after = other ∧ result = answer := by
  induction ends with
  | last taken =>
      cases also with
      | last again =>
          rw [taken, Prod.mk.injEq, Sum.inr.injEq] at again
          exact again
      | more again =>
          rw [taken] at again
          simp at again
  | more taken _ ih =>
      cases also with
      | last again =>
          rw [taken] at again
          simp at again
      | more again rest =>
          rw [taken, Prod.mk.injEq, Sum.inl.injEq] at again
          obtain ⟨rfl, rfl⟩ := again
          exact ih rest

/-- Who is in the critical section: nobody, a call that has got there from the object as the
whole calls see it, or one that will never give back the lock. -/
inductive Phase (method : Method Shared Call Local Result)
    (fine coarse : System Pid Shared Call Local Result) : Prop
  | free :
      fine.holder = none → coarse.holder = none → coarse.shared = fine.shared →
      (∀ pid, (fine.points pid).isInside = false) → Phase method fine coarse
  | busy (pid : Pid) (call : Call) (here : Local) :
      fine.holder = some pid → coarse.holder = none → method.refused call = none → fine.points pid = .inside call here →
      Reaches method coarse.shared (method.start call) fine.shared here →
      (∀ other, other ≠ pid → (fine.points other).isInside = false) → Phase method fine coarse
  | stuck (pid : Pid) :
      fine.holder = some pid → coarse.holder = some pid →
      (∀ pid, (fine.points pid).isInside = false) → Phase method fine coarse

structure Related (method : Method Shared Call Local Result)
    (fine coarse : System Pid Shared Call Local Result) : Prop where
  points : ∀ pid, coarse.points pid = (fine.points pid).outer
  history : coarse.history = fine.history
  phase : Phase method fine coarse

section Simulation

variable [DecidableEq Pid] {method : Method Shared Call Local Result}
  {whole : Shared → Call → Option (Shared × Result)}
  {fine coarse next : System Pid Shared Call Local Result} {pid : Pid} {call : Call}

theorem outer_update (points : ∀ pid, coarse.points pid = (fine.points pid).outer)
    (point : Point Call Local) (pid other : Pid) :
    Function.update coarse.points pid point.outer other =
      (Function.update fine.points pid point other).outer := by
  by_cases same : other = pid
  · rw [same, Function.update_self, Function.update_self]
  · rw [Function.update_of_ne same, Function.update_of_ne same, points]

theorem outside_update (outside : ∀ other, (fine.points other).isInside = false)
    {point : Point Call Local} (left : point.isInside = false) (pid other : Pid) :
    (Function.update fine.points pid point other).isInside = false := by
  by_cases same : other = pid
  · rw [same, Function.update_self]
    exact left
  · rw [Function.update_of_ne same]
    exact outside other

theorem Related.outside (related : Related method fine coarse)
    {point : Point Call Local} {history : List (Event Pid Call Result)}
    (before : (fine.points pid).isInside = false) (after : point.isInside = false)
    (same : point.outer = point) :
    Related method ({ fine with history := history }.setPoint pid point)
      ({ coarse with history := history }.setPoint pid point) := by
  refine ⟨?_, rfl, ?_⟩
  · intro other
    have moved := outer_update related.points point pid other
    rwa [same] at moved
  · cases related.phase with
    | free unheld free agree outside =>
        exact .free unheld free agree (outside_update outside after pid)
    | stuck owner held kept outside =>
        exact .stuck owner held kept (outside_update outside after pid)
    | busy owner call here held free waits inside reached others =>
        have apart : owner ≠ pid := by
          rintro rfl
          rw [inside] at before
          contradiction
        refine .busy owner call here held free waits ?_ reached ?_
        · simp only [System.setPoint]
          rw [Function.update_of_ne apart]
          exact inside
        · intro other different
          simp only [System.setPoint]
          by_cases moved : other = pid
          · rw [moved, Function.update_self]
            exact after
          · rw [Function.update_of_ne moved]
            exact others other different

theorem Related.begins (related : Related method fine coarse)
    (taken : fine.begins pid call = some next) :
    ∃ moved, coarse.begins pid call = some moved ∧ Related method next moved := by
  have mirrored := related.points pid
  rw [System.begins] at taken
  split at taken
  · rename_i idle
    rw [Option.some.injEq] at taken
    subst taken
    rw [idle, Point.outer] at mirrored
    refine ⟨_, by rw [System.begins, mirrored], ?_⟩
    rw [related.history]
    exact related.outside (idle ▸ rfl) rfl rfl
  · contradiction
  · contradiction

theorem Related.refuses (related : Related method fine coarse)
    (taken : fine.refuses method pid = some next) :
    ∃ moved, coarse.refuses method pid = some moved ∧ Related method next moved := by
  have mirrored := related.points pid
  rw [System.refuses] at taken
  split at taken
  · rename_i call waiting
    rw [Option.map_eq_some_iff] at taken
    obtain ⟨result, refused, rfl⟩ := taken
    rw [waiting, Point.outer] at mirrored
    refine ⟨coarse.returns pid result, by rw [System.refuses, mirrored]; simp [refused], ?_⟩
    rw [System.returns, System.returns, related.history]
    exact related.outside (waiting ▸ rfl) rfl rfl
  · contradiction
  · contradiction

theorem Related.locks (related : Related method fine coarse)
    (waiting : fine.points pid = .waiting call) (waits : method.refused call = none)
    (free : fine.holder = none) :
    Related method
      ({ fine with holder := some pid }.setPoint pid (.inside call (method.start call)))
      coarse := by
  refine ⟨?_, related.history, ?_⟩
  · intro other
    have mirrored := related.points pid
    rw [waiting] at mirrored
    have moved := outer_update related.points (.inside call (method.start call)) pid other
    refine Eq.trans ?_ moved
    by_cases same : other = pid
    · rw [same, Function.update_self, mirrored]
      rfl
    · rw [Function.update_of_ne same]
  · cases related.phase with
    | free _ unheld agree outside =>
        refine .busy pid call (method.start call) rfl unheld waits ?_ ?_ ?_
        · simp only [System.setPoint, Function.update_self]
        · rw [agree]
          exact .start
        · intro other different
          simp only [System.setPoint]
          rw [Function.update_of_ne different]
          exact outside other
    | busy owner _ _ held | stuck owner held =>
        rw [free] at held
        contradiction

theorem Related.goes (related : Related method fine coarse) {here there : Local} {after : Shared}
    (inside : fine.points pid = .inside call here)
    (taken : method.step fine.shared here = (after, .inl there)) :
    Related method
      ({ fine with shared := after }.setPoint pid (.inside call there)) coarse := by
  cases related.phase with
  | free _ _ _ outside | stuck _ _ _ outside =>
      have left := outside pid
      rw [inside] at left
      contradiction
  | busy owner first state held free waits found reached others =>
      have same : pid = owner := by
        by_contra different
        have left := others pid different
        rw [inside] at left
        contradiction
      subst same
      rw [inside, Point.inside.injEq] at found
      obtain ⟨rfl, rfl⟩ := found
      have further := reached.next taken
      refine ⟨?_, related.history, .busy pid call there held free waits ?_ further ?_⟩
      · intro other
        rw [System.setPoint, ← outer_update related.points _ pid other, Point.outer]
        by_cases here : other = pid
        · rw [here, Function.update_self, related.points, inside, Point.outer]
        · rw [Function.update_of_ne here]
      · simp only [System.setPoint, Function.update_self]
      · intro other different
        simp only [System.setPoint]
        rw [Function.update_of_ne different]
        exact others other different

theorem Related.finishes (agrees : Agrees method whole)
    (related : Related method fine coarse) {here : Local} {after : Shared}
    {result : Result} (inside : fine.points pid = .inside call here)
    (taken : method.step fine.shared here = (after, .inr result)) :
    ∃ moved, atomStep method whole coarse (.perform pid) = some moved ∧
      Related method
        ({ fine with shared := after, holder := method.left pid result }.returns pid result)
        moved := by
  cases related.phase with
  | free _ _ _ outside | stuck _ _ _ outside =>
      have left := outside pid
      rw [inside] at left
      contradiction
  | busy owner first state held free waits found reached others =>
      have same : pid = owner := by
        by_contra different
        have left := others pid different
        rw [inside] at left
        contradiction
      subst same
      rw [inside, Point.inside.injEq] at found
      obtain ⟨rfl, rfl⟩ := found
      obtain ⟨done, ended, unlocked⟩ :=
        agrees coarse.shared call after result waits (reached.ends (.last taken))
      have mirrored := related.points pid
      rw [inside, Point.outer] at mirrored
      have performed : atomStep method whole coarse (.perform pid) =
          some ({ coarse with shared := done, holder := method.left pid result }.returns pid
            result) := by
        simp only [atomStep, mirrored, waits, free, and_self, if_true, ended, Option.map_some]
      refine ⟨_, performed, ?_⟩
      have left : ∀ other, (Function.update fine.points pid .idle other).isInside = false := by
        intro other
        by_cases here : other = pid
        · rw [here, Function.update_self]
          rfl
        · rw [Function.update_of_ne here]
          exact others other here
      refine ⟨outer_update related.points .idle pid, ?_, ?_⟩
      · simp only [System.returns, System.setPoint, related.history]
      · cases unlocks : method.unlocks result with
        | true =>
            have unheld : method.left pid result = none := by rw [Method.left, unlocks]; rfl
            exact .free unheld unheld (unlocked unlocks) left
        | false =>
            have kept : method.left pid result = some pid := by rw [Method.left, unlocks]; rfl
            exact .stuck pid kept kept left

theorem Related.step (agrees : Agrees method whole)
    (related : Related method fine coarse) {action : Action Pid Call}
    (taken : fineStep method fine action = some next) :
    Related method next coarse ∨
      ∃ atom moved, atomStep method whole coarse atom = some moved ∧
        Related method next moved := by
  cases action with
  | begin pid call =>
      obtain ⟨moved, began, kept⟩ := related.begins taken
      exact .inr ⟨.begin pid call, moved, began, kept⟩
  | refuse pid =>
      obtain ⟨moved, refused, kept⟩ := related.refuses taken
      exact .inr ⟨.refuse pid, moved, refused, kept⟩
  | lock pid =>
      rw [fineStep] at taken
      split at taken
      · rename_i call waiting
        rw [Option.ite_none_right_eq_some, Option.some.injEq] at taken
        obtain ⟨⟨waits, free⟩, rfl⟩ := taken
        exact .inl (related.locks waiting waits free)
      · contradiction
      · contradiction
  | go pid =>
      rw [fineStep] at taken
      split at taken
      · rename_i call here inside
        split at taken
        · rename_i after there stepped
          rw [Option.some.injEq] at taken
          exact taken ▸ .inl (related.goes inside stepped)
        · rename_i after result stepped
          rw [Option.some.injEq] at taken
          obtain ⟨moved, performed, kept⟩ := related.finishes agrees inside stepped
          exact taken ▸ .inr ⟨.perform pid, moved, performed, kept⟩
      · contradiction
      · contradiction

/-- Some run of whole calls has the same history, and has left the object as it is now unless
somebody is in the critical section. -/
def Linearized (method : Method Shared Call Local Result)
    (whole : Shared → Call → Option (Shared × Result)) (first : Shared)
    (fine : System Pid Shared Call Local Result) : Prop :=
  ∃ atoms coarse, StepMachine.run (atomStep method whole) (.start first) atoms = some coarse ∧
    coarse.history = fine.history ∧ (fine.holder = none → coarse.shared = fine.shared)

theorem linearized (agrees : Agrees method whole) (first : Shared)
    (actions : List (Action Pid Call)) :
    StepMachine.Always (fineStep method) (Linearized method whole first) (.start first)
      actions := by
  let kept (fine : System Pid Shared Call Local Result) : Prop := ∃ atoms coarse,
    StepMachine.run (atomStep method whole) (.start first) atoms = some coarse ∧
      Related method fine coarse
  have initial : kept (.start first) :=
    ⟨[], .start first, rfl, fun _ => rfl, rfl, .free rfl rfl rfl fun _ => rfl⟩
  have preserved : ∀ fine action next, kept fine → True →
      fineStep method fine action = some next → kept next := by
    rintro fine action next ⟨atoms, coarse, ran, related⟩ _ taken
    rcases related.step agrees taken with same | ⟨atom, moved, performed, after⟩
    · exact ⟨atoms, coarse, ran, same⟩
    · exact ⟨atoms ++ [atom], moved, StepMachine.run_snoc ran performed, after⟩
  have enough : ∀ fine, kept fine → Linearized method whole first fine := by
    rintro fine ⟨atoms, coarse, ran, related⟩
    refine ⟨atoms, coarse, ran, related.history, fun free => ?_⟩
    cases related.phase with
    | free _ _ agree => exact agree
    | busy _ _ _ held | stuck _ held =>
        rw [free] at held
        contradiction
  exact StepMachine.always_of_meets preserved enough initial (StepMachine.meets_true _ _)

end Simulation

end Linearize
