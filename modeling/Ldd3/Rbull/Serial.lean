import Mathlib.Tactic
import Ldd3.Rbull.Segments

/-!
When concurrent requests leave the store and the pages as if they had been executed one
whole request at a time.
-/

namespace Ldd3.Rbull

namespace Round

variable {sizeBytes : Nat} {pages : Pages} {memory : Memory} {round other : Round}

theorem memory_shaped (shaped : memory.Shaped sizeBytes pages)
    (fits : round.fits sizeBytes pages = true) : (round.memory memory).Shaped sizeBytes pages := by
  cases made : round.copy with
  | none => simpa only [Round.memory, made, Option.elim_none] using shaped
  | some copy =>
      simp only [Round.fits, made, Option.all_some] at fits
      simpa only [Round.memory, made, Option.elim_some] using Copy.apply_shaped shaped fits

theorem memory_comm (shaped : memory.Shaped sizeBytes pages)
    (fits : round.fits sizeBytes pages = true) (otherFits : other.fits sizeBytes pages = true)
    (clear : ∀ copy ∈ round.copy, ∀ made ∈ other.copy, copy.conflicts made = false) :
    round.memory (other.memory memory) = other.memory (round.memory memory) := by
  cases mine : round.copy with
  | none => simp only [Round.memory, mine, Option.elim_none]
  | some copy =>
      cases theirs : other.copy with
      | none => simp only [Round.memory, theirs, Option.elim_none]
      | some made =>
          simp only [Round.fits, mine, Option.all_some] at fits
          simp only [Round.fits, theirs, Option.all_some] at otherFits
          simp only [Round.memory, mine, theirs, Option.elim_some]
          exact Copy.apply_comm shaped fits otherFits (clear copy mine made theirs)

theorem fits_congr {changed : Pages}
    (same : ∀ page, (changed page).length = (pages page).length) :
    round.fits sizeBytes changed = round.fits sizeBytes pages := by
  simp only [Round.fits, Copy.fits_congr same]

end Round

theorem Run.Between.round {run : Run} {ctx : Ctx} (between : run.Between ctx) (sizeBytes : Nat) :
    (run.round sizeBytes ctx).run.point = .returning ∨
      (run.round sizeBytes ctx).run.Between (run.round sizeBytes ctx).ctx := by
  obtain ⟨head, ok, unlocked, side, data, live, fresh⟩ := between
  unfold Run.round
  cases run.rest with
  | nil => exact .inl rfl
  | cons seg more =>
      by_cases outside : outOfRange sizeBytes run.devOff seg = true
      · simp only [outside, ↓reduceIte]
        exact .inl rfl
      · simp only [outside, Bool.false_eq_true, ↓reduceIte]
        exact .inr ⟨head, ok, unlocked, side, data, live, fresh⟩

theorem Run.round_rest (run : Run) (sizeBytes : Nat) (ctx : Ctx) :
    (run.round sizeBytes ctx).run.point = .returning ∨
      (run.round sizeBytes ctx).run.rest.length < run.rest.length := by
  unfold Run.round
  cases run.rest with
  | nil => exact .inl rfl
  | cons seg more =>
      by_cases outside : outOfRange sizeBytes run.devOff seg = true
      · simp only [outside, ↓reduceIte]
        exact .inl rfl
      · simp only [outside, Bool.false_eq_true, ↓reduceIte]
        exact .inr (Nat.lt_succ_self _)

section Machine

variable {Id : Type} [DecidableEq Id]

structure Workers.Valid (workers : Workers Id) : Prop where
  idle : workers.dev.Idle
  standing : ∀ id, workers.returned id ∨ (workers.runs id).Between (workers.ctxs id)

def Workers.memory (workers : Workers Id) : Memory := ⟨workers.dev.data, workers.pages⟩

def Workers.round (workers : Workers Id) (id : Id) : Round :=
  (workers.runs id).round workers.dev.sizeBytes (workers.ctxs id)

def Workers.after (workers : Workers Id) (id : Id) (round : Round) : Workers Id :=
  let memory := round.memory workers.memory
  { dev := { workers.dev with
      data := memory.data
      inflightWrites := workers.dev.inflightWrites + round.counted }
    pages := memory.pages
    ctxs := Function.update workers.ctxs id round.ctx
    runs := Function.update workers.runs id round.run
    copied := Function.update workers.copied id (workers.copied id ++ round.copy.toList) }

variable {workers next : Workers Id} {id other : Id}

omit [DecidableEq Id] in
theorem Workers.nextCopy_view : (workers.view id).nextCopy = (workers.round id).copy := by
  simp only [WorkView.nextCopy, Workers.view, Workers.round, Run.round]
  cases (workers.runs id).rest with
  | nil => rfl
  | cons seg more =>
      by_cases outside :
          outOfRange workers.dev.sizeBytes (workers.runs id).devOff seg = true
      · simp only [outside, ↓reduceIte]
      · simp only [outside, Bool.false_eq_true, ↓reduceIte]

theorem segmentStep_eq (valid : workers.Valid)
    (between : (workers.runs id).Between (workers.ctxs id)) :
    segmentStep workers id =
      if (workers.round id).fits workers.dev.sizeBytes workers.pages then
        some (workers.after id (workers.round id))
      else none := by
  have ran : workRound (workers.view id) =
      if (workers.round id).fits workers.dev.sizeBytes workers.pages then
        some ((workers.round id).view workers.dev workers.pages)
      else none := workRound_eq between valid.idle.readers valid.idle.writer
  rw [segmentStep, Workers.nextCopy_view, ran]
  by_cases fits : (workers.round id).fits workers.dev.sizeBytes workers.pages = true
  · rw [if_pos fits, if_pos fits]
    rfl
  · rw [if_neg fits, if_neg fits]
    rfl

theorem segmentStep_cases (valid : workers.Valid) (taken : segmentStep workers id = some next) :
    (workers.runs id).Between (workers.ctxs id) ∧
      (workers.round id).fits workers.dev.sizeBytes workers.pages = true ∧
      next = workers.after id (workers.round id) := by
  rcases valid.standing id with returned | between
  · have stopped : (workers.runs id).point ≠ .loopHead := by
      rw [returned]
      decide
    have idle : workRound (workers.view id) = none := if_neg stopped
    rw [segmentStep, idle] at taken
    contradiction
  · rw [segmentStep_eq valid between] at taken
    by_cases fits : (workers.round id).fits workers.dev.sizeBytes workers.pages = true
    · rw [if_pos fits] at taken
      exact ⟨between, fits, (Option.some.inj taken).symm⟩
    · rw [if_neg fits] at taken
      contradiction

omit [DecidableEq Id] in
theorem Workers.Valid.shaped (valid : workers.Valid) :
    workers.memory.Shaped workers.dev.sizeBytes workers.pages :=
  ⟨valid.idle.sized, fun _ => rfl⟩

theorem Workers.Valid.step (valid : workers.Valid) (taken : segmentStep workers id = some next) :
    next.Valid := by
  obtain ⟨between, fits, rfl⟩ := segmentStep_cases valid taken
  have shaped := Round.memory_shaped valid.shaped fits
  refine ⟨⟨shaped.1, valid.idle.readers, valid.idle.writer⟩, ?_⟩
  intro worker
  by_cases mine : worker = id
  · subst mine
    simp only [Workers.returned, Workers.after, Function.update_self]
    exact between.round workers.dev.sizeBytes
  · simp only [Workers.returned, Workers.after, Function.update_of_ne mine]
    exact valid.standing worker

theorem Workers.round_after (different : other ≠ id) (round : Round) :
    (workers.after id round).round other = workers.round other := by
  simp only [Workers.round, Workers.after, Function.update_of_ne different]

theorem Workers.nextCopy_after (different : other ≠ id) (round : Round) :
    ((workers.after id round).view other).nextCopy = (workers.view other).nextCopy := by
  rw [Workers.nextCopy_view, Workers.nextCopy_view, Workers.round_after different]

theorem Workers.after_comm (different : id ≠ other) {round otherRound : Round}
    (same : otherRound.memory (round.memory workers.memory) =
      round.memory (otherRound.memory workers.memory)) :
    (workers.after id round).after other otherRound =
      (workers.after other otherRound).after id round := by
  have counted : workers.dev.inflightWrites + round.counted + otherRound.counted =
      workers.dev.inflightWrites + otherRound.counted + round.counted := by omega
  have firstMemory : (workers.after id round).memory = round.memory workers.memory := rfl
  have secondMemory :
      (workers.after other otherRound).memory = otherRound.memory workers.memory := rfl
  rw [Workers.after, Workers.after.eq_1 (workers.after other otherRound), firstMemory,
    secondMemory, same]
  simp only [Workers.after, Function.update_of_ne different, Function.update_of_ne different.symm,
    Function.update_comm different, counted]

theorem Workers.fits_after (valid : workers.Valid) {round : Round}
    (fits : round.fits workers.dev.sizeBytes workers.pages = true) (later : Round) :
    later.fits (workers.after id round).dev.sizeBytes (workers.after id round).pages =
      later.fits workers.dev.sizeBytes workers.pages :=
  Round.fits_congr (Round.memory_shaped valid.shaped fits).2

theorem segmentStep_swap {first second : Id} {middle : Workers Id} (valid : workers.Valid)
    (different : first ≠ second) (taken : segmentStep workers first = some middle)
    (followed : segmentStep middle second = some next) (clear : middle.Clear second first) :
    ∃ swapped, segmentStep workers second = some swapped ∧
      segmentStep swapped first = some next := by
  have middleValid := valid.step taken
  obtain ⟨between, fits, rfl⟩ := segmentStep_cases valid taken
  obtain ⟨otherBetween, otherFits, rfl⟩ := segmentStep_cases middleValid followed
  rw [Workers.round_after different.symm] at otherFits ⊢
  -- the second worker found the same run before the first one moved
  have earlyFits : (workers.round second).fits workers.dev.sizeBytes workers.pages = true := by
    rwa [Workers.fits_after valid fits] at otherFits
  have earlyBetween : (workers.runs second).Between (workers.ctxs second) := by
    simpa only [Workers.after, Function.update_of_ne different.symm] using otherBetween
  have early : segmentStep workers second =
      some (workers.after second (workers.round second)) := by
    rw [segmentStep_eq valid earlyBetween, if_pos earlyFits]
  refine ⟨workers.after second (workers.round second), early, ?_⟩
  -- and the first one finds its own after the second has moved
  have swappedValid := valid.step early
  have lateBetween : ((workers.after second (workers.round second)).runs first).Between
      ((workers.after second (workers.round second)).ctxs first) := by
    simpa only [Workers.after, Function.update_of_ne different] using between
  have apart : ∀ copy ∈ (workers.round second).copy, ∀ made ∈ (workers.round first).copy,
      copy.conflicts made = false := by
    intro copy mine made theirs
    apply clear copy
    · rw [Workers.nextCopy_after different.symm, Workers.nextCopy_view]
      exact mine
    · simp only [Workers.after, Function.update_self, List.mem_append, Option.mem_toList]
      exact .inr theirs
  rw [segmentStep_eq swappedValid lateBetween, Workers.round_after different,
    Workers.fits_after valid earlyFits, if_pos fits,
    Workers.after_comm different (Round.memory_comm valid.shaped earlyFits fits apart)]

theorem segmentStep_commutes :
    Schedule.Commutes segmentStep (@Workers.Valid Id) Workers.Clear where
  preserved _ _ _ valid taken := valid.step taken
  swap _ _ _ _ _ valid different taken followed clear :=
    segmentStep_swap valid different taken followed clear
  back workers moved task other next valid different taken clear := by
    obtain ⟨_, _, rfl⟩ := segmentStep_cases valid taken
    intro copy mine made theirs
    apply clear copy
    · rw [Workers.nextCopy_after different.symm]
      exact mine
    · by_cases same : other = moved
      · subst same
        simp only [Workers.after, Function.update_self, List.mem_append]
        exact .inl theirs
      · simpa only [Workers.after, Function.update_of_ne same] using theirs
  frame workers moved task other next valid different apart taken clear := by
    obtain ⟨_, _, rfl⟩ := segmentStep_cases valid taken
    intro copy mine made theirs
    apply clear copy
    · rwa [Workers.nextCopy_after different.symm] at mine
    · simpa only [Workers.after, Function.update_of_ne apart.symm] using theirs

def Workers.budget (workers : Workers Id) (id : Id) : Nat :=
  if workers.returned id then 0 else (workers.runs id).rest.length + 1

theorem segmentStep_budget (valid : workers.Valid) (taken : segmentStep workers id = some next) :
    next.budget id < workers.budget id := by
  obtain ⟨between, fits, rfl⟩ := segmentStep_cases valid taken
  have standing : ¬ workers.returned id := by
    rw [Workers.returned, between.head]
    decide
  rw [Workers.budget, Workers.budget, if_neg standing]
  by_cases returned : (workers.after id (workers.round id)).returned id
  · rw [if_pos returned]
    omega
  · rw [if_neg returned]
    have shorter := (workers.runs id).round_rest workers.dev.sizeBytes (workers.ctxs id)
    simp only [Workers.returned, Workers.after, Function.update_self] at returned
    have goesOn := shorter.resolve_left returned
    simp only [Workers.after, Function.update_self]
    exact Nat.succ_lt_succ goesOn

theorem run_budget (valid : workers.Valid) {count : Nat}
    (ran : StepMachine.run segmentStep workers (List.replicate count id) = some next) :
    count ≤ workers.budget id := by
  induction count generalizing workers with
  | zero => exact Nat.zero_le _
  | succ count ih =>
      rw [List.replicate_succ] at ran
      obtain ⟨middle, taken, ranRest⟩ := StepMachine.run_cons_inv ran
      have smaller := segmentStep_budget valid taken
      have rest := ih (valid.step taken) ranRest
      omega

theorem serveRounds_of_run (valid : workers.Valid) {count rounds : Nat}
    (ran : StepMachine.run segmentStep workers (List.replicate count id) = some next)
    (returned : next.returned id) (enough : count ≤ rounds) :
    serveRounds rounds workers id = some next := by
  induction count generalizing workers rounds with
  | zero =>
      simp only [List.replicate_zero, StepMachine.run_nil, Option.some.injEq] at ran
      subst ran
      cases rounds with
      | zero => rfl
      | succ rounds => rw [serveRounds, if_pos returned]
  | succ count ih =>
      rw [List.replicate_succ] at ran
      obtain ⟨middle, taken, ranRest⟩ := StepMachine.run_cons_inv ran
      obtain ⟨rounds, rfl⟩ : ∃ fewer, rounds = fewer + 1 := ⟨rounds - 1, by omega⟩
      have standing : ¬ workers.returned id := by
        rw [Workers.returned, (segmentStep_cases valid taken).1.head]
        decide
      rw [serveRounds, if_neg standing, taken, Option.bind_some]
      exact ih (valid.step taken) ranRest (Nat.le_of_succ_le_succ enough)

theorem serveRequest_of_block (valid : workers.Valid) {count : Nat}
    (ran : StepMachine.run segmentStep workers (List.replicate count id) = some next)
    (returned : next.returned id) : serveRequest workers id = some next := by
  refine serveRounds_of_run valid ran returned ?_
  have bounded := run_budget valid ran
  simp only [Workers.budget] at bounded
  split at bounded <;> omega

theorem segmentStep_returned (taken : segmentStep workers id = some next) (different : other ≠ id) :
    next.returned other ↔ workers.returned other := by
  obtain ⟨view, _, rfl⟩ := Option.map_eq_some_iff.mp taken
  simp only [Workers.returned, Function.update_of_ne different]

theorem blocks_returned {count : Id → Nat} {order : List Id}
    (ran : StepMachine.run (Schedule.block segmentStep count) workers order = some next)
    (idle : other ∉ order) : next.returned other ↔ workers.returned other := by
  refine StepMachine.run_kept (fun workers => workers.returned other) ?_ ran
  intro id listed state later ranBlock
  have different : id ≠ other := fun same => idle (same ▸ listed)
  refine StepMachine.run_kept (fun workers => workers.returned other) ?_ ranBlock
  intro worker among before after taken
  rw [List.eq_of_mem_replicate among] at taken
  exact segmentStep_returned taken different.symm

theorem served_of_blocks (valid : workers.Valid) {count : Id → Nat} {order : List Id}
    (nodup : order.Nodup) (returned : ∀ id ∈ order, next.returned id)
    (ran : StepMachine.run (Schedule.block segmentStep count) workers order = some next) :
    StepMachine.run serveRequest workers order = some next := by
  induction order generalizing workers with
  | nil => exact ran
  | cons id rest ih =>
      obtain ⟨fresh, nodupRest⟩ := List.nodup_cons.mp nodup
      obtain ⟨middle, ranBlock, ranRest⟩ := StepMachine.run_cons_inv ran
      have served := serveRequest_of_block valid ranBlock
        ((blocks_returned ranRest fresh).mp (returned id List.mem_cons_self))
      exact StepMachine.run_cons_some served
        (ih (segmentStep_commutes.run_invariant valid ranBlock) nodupRest
          (fun worker listed => returned worker (List.mem_cons_of_mem id listed)) ranRest)

omit [DecidableEq Id] in
theorem Workers.start_valid {dev : RbullDev} (idle : dev.Idle) (pages : Pages)
    {requests : Id → Request} (data : ∀ id, copiesData (requests id).op = true) :
    (Workers.start dev pages requests).Valid := by
  refine ⟨idle, fun id => .inr ⟨?_, rfl, rfl, rfl, data id, rfl, rfl⟩⟩
  have notFlush : (requests id).op ≠ .flush := by
    intro isFlush
    have copies := data id
    rw [isFlush] at copies
    contradiction
  simp only [Workers.start, Run.start, if_neg notFlush]

/-- The lock is dropped between two segments, so nothing keeps the requests in an order of
their own. They end as if served one at a time in an order that their conflicts agree with. -/
theorem rbullRqWork_serial_of_agrees {dev : RbullDev} (idle : dev.Idle) (pages : Pages)
    {requests : Id → Request} (data : ∀ id, copiesData (requests id).op = true)
    {actions : List Id} {final : Workers Id}
    (ran : StepMachine.run segmentStep (Workers.start dev pages requests) actions = some final)
    (returned : ∀ id, final.returned id) {order : List Id} (nodup : order.Nodup)
    (complete : ∀ id, id ∈ order)
    (agrees : StepMachine.Meets segmentStep (Schedule.Agrees Workers.Clear order)
      (Workers.start dev pages requests) actions) :
    Serial (Workers.start dev pages requests) final := by
  have valid := Workers.start_valid idle pages data
  have blocks := segmentStep_commutes.serial nodup (fun id _ => complete id) valid ran agrees
  have served := served_of_blocks valid nodup (fun id _ => returned id) blocks
  exact ⟨order, nodup, complete, final, served, rfl, rfl⟩

end Machine

/-- Two WRITEs of the first two sectors, each one from two pages of its own. -/
def twoWrites (id : Bool) : Request :=
  { pos := 0
    op := .write
    segments := if id then [⟨2, 0, 512⟩, ⟨3, 0, 512⟩] else [⟨0, 0, 512⟩, ⟨1, 0, 512⟩]
    flushEmpty := fun isFlush => by contradiction }

def fourPages (page : Nat) : List Byte :=
  if page < 2 then List.replicate 4096 1 else List.replicate 4096 2

theorem rbullRqWork_serial_overlapping :
    ∃ final, StepMachine.run segmentStep
        (Workers.start (RbullDev.loaded 1) fourPages twoWrites)
        [false, true, false, true, true, false] = some final ∧
      Serial (Workers.start (RbullDev.loaded 1) fourPages twoWrites) final := by
  have ended : (StepMachine.run segmentStep
      (Workers.start (RbullDev.loaded 1) fourPages twoWrites)
      [false, true, false, true, true, false]).map
        (fun final => decide (∀ id, final.returned id)) = some true := by
    decide +kernel
  obtain ⟨final, ran, returned⟩ := Option.map_eq_some_iff.mp ended
  refine ⟨final, ran, ?_⟩
  have nodup : [false, true].Nodup := by decide
  exact rbullRqWork_serial_of_agrees (RbullDev.loaded_idle 1) fourPages (fun _ => rfl) ran
    (of_decide_eq_true returned) nodup (by decide) (by decide +kernel)

def corners (workers : Workers Bool) : Option Byte × Option Byte :=
  (workers.dev.data[0]?, workers.dev.data[512]?)

theorem rbullRqWork_torn :
    ∃ final, StepMachine.run segmentStep
        (Workers.start (RbullDev.loaded 1) fourPages twoWrites)
        [false, true, true, false, true, false] = some final ∧
      (∀ id, final.returned id) ∧
      ¬ Serial (Workers.start (RbullDev.loaded 1) fourPages twoWrites) final := by
  have torn : (StepMachine.run segmentStep
      (Workers.start (RbullDev.loaded 1) fourPages twoWrites)
      [false, true, true, false, true, false]).map
        (fun final => (decide (∀ id, final.returned id), corners final)) =
      some (true, some 2, some 1) := by
    decide +kernel
  obtain ⟨final, ran, observed⟩ := Option.map_eq_some_iff.mp torn
  obtain ⟨returned, mixed⟩ := Prod.mk.inj observed
  refine ⟨final, ran, of_decide_eq_true returned, ?_⟩
  rintro ⟨order, nodup, complete, served, ranServed, sameData, _⟩
  have whole : corners served = (some 2, some 1) := by
    rw [← mixed, corners, corners, sameData]
  have listed : order ∈ [false, true].permutations' := by
    rw [List.mem_permutations', List.perm_ext_iff_of_nodup nodup (by decide)]
    intro id
    exact iff_of_true (complete id) (by cases id <;> decide)
  have either : order = [false, true] ∨ order = [true, false] := by
    simpa only [List.permutations', List.permutations'Aux, List.flatMap_cons, List.flatMap_nil,
      List.map_nil, List.map_cons, List.append_nil, List.mem_cons, List.not_mem_nil,
      or_false] using listed
  have observedServed : (StepMachine.run serveRequest
      (Workers.start (RbullDev.loaded 1) fourPages twoWrites) order).map corners =
      some (some 2, some 1) := by
    rw [ranServed, Option.map_some, whole]
  rcases either with rfl | rfl
  · revert observedServed
    decide +kernel
  · revert observedServed
    decide +kernel

end Ldd3.Rbull
