import Mathlib.Tactic
import Ldd3.Loading.Core

/-!
The init functions that set up several ports or hardware queues in a loop, and go back over those
that are there when one fails.
-/

namespace Ldd3.Loading

open Resources (Use acquireAll releaseAll acquireAll_flatMap climb climb_done climb_failed
  find_fails  leaves_nil leaves_acquireAll Leaves)

/-! `ch18_tty/echo_tty.c` -/

def MAX_PORTS : Nat := 2

inductive EchoItem
  | driver
  | registered
  | links
  | port (index : Nat)
  | fifo (index : Nat)
  | device (index : Nat)
  deriving DecidableEq, Repr

structure EchoEnv where
  alloc : Status
  register : Status
  links : Bool
  fifo : Nat → Status
  device : Nat → Status

def linkItems (index : Nat) : List EchoItem := [.port index, .fifo index, .device index]

/-- `tty_port_destroy` is not called for the port itself that fails. -/
def linkFails (env : EchoEnv) (index : Nat) : Option (List (Use EchoItem) × Int) :=
  if (env.fifo index).ret ≠ 0 then some ([.acquire (.port index)], (env.fifo index).ret)
  else if (env.device index).ret ≠ 0 then
    some ([.acquire (.port index), .acquire (.fifo index), .release (.fifo index)],
      (env.device index).ret)
  else none

def linkBack (index : Nat) : List EchoItem := [.device index, .fifo index, .port index]

def upToLinks : List (Use EchoItem) := acquireAll [.driver, .registered, .links]

def errUnregDriver : List (Use EchoItem) := releaseAll [EchoItem.registered, .driver]

def ttyInit (env : EchoEnv) : Option Int × List (Use EchoItem) :=
  if env.alloc.ret ≠ 0 then (some env.alloc.ret, [])
  else if env.register.ret ≠ 0 then
    (some env.register.ret, [.acquire .driver, .release .driver])
  else if !env.links then
    (some (-ENOMEM), acquireAll [EchoItem.driver, .registered] ++ errUnregDriver)
  else
    match climb linkItems (linkFails env) MAX_PORTS 0 with
    | (uses, none) => (some 0, upToLinks ++ uses)
    | (uses, some (index, retval)) =>
        (some retval, upToLinks ++ uses ++
          ((List.range index).reverse.flatMap fun i => releaseAll (linkBack i)) ++
          releaseAll [EchoItem.links] ++ errUnregDriver)

def ttyExit (_ : EchoEnv) : List (Use EchoItem) :=
  ((List.range MAX_PORTS).flatMap fun i => releaseAll (linkBack i)) ++
    releaseAll [EchoItem.registered, .driver, .links]

def echoTty : Loadable EchoEnv EchoItem where
  init := ttyInit
  exit := ttyExit

def EchoEnv.linkLacks (env : EchoEnv) (index : Nat) : Bool :=
  env.fifo index ≠ .ok ∨ env.device index ≠ .ok

def EchoEnv.broken (env : EchoEnv) : Option Nat :=
  if env.alloc = .ok ∧ env.register = .ok ∧ env.links = true then
    (List.range MAX_PORTS).find? env.linkLacks
  else none

def EchoEnv.leak (env : EchoEnv) : Multiset EchoItem :=
  match env.broken with
  | some index => {.port index}
  | none => 0

theorem linkFails_isSome (env : EchoEnv) (index : Nat) :
    (linkFails env index).isSome = env.linkLacks index := by
  cases fifo : env.fifo index with
  | failed errno => simp only [linkFails, EchoEnv.linkLacks, fifo, Status.ret]; rfl
  | ok =>
      cases device : env.device index <;>
        simp only [linkFails, EchoEnv.linkLacks, fifo, device, Status.ret] <;> rfl

theorem linkFails_leaves {env : EchoEnv} {index : Nat} {uses : List (Use EchoItem)} {ret : Int}
    (failed : linkFails env index = some (uses, ret)) :
    ret < 0 ∧ Leaves uses {EchoItem.port index} := by
  rw [linkFails] at failed
  by_cases full : (env.fifo index).ret ≠ 0
  · rw [if_pos full, Option.some.injEq, Prod.mk.injEq] at failed
    obtain ⟨rfl, rfl⟩ := failed
    exact ⟨Status.neg full, rfl⟩
  rw [if_neg full] at failed
  by_cases refused : (env.device index).ret ≠ 0
  · rw [if_pos refused, Option.some.injEq, Prod.mk.injEq] at failed
    obtain ⟨rfl, rfl⟩ := failed
    have single : Leaves [Use.acquire (EchoItem.port index)] {EchoItem.port index} := rfl
    have none : Leaves ([] : List (Use EchoItem)) 0 := leaves_nil
    have both := single.append (none.bracket (List.Perm.refl [EchoItem.fifo index]))
    exact ⟨Status.neg refused, both⟩
  · rw [if_neg refused] at failed
    contradiction

theorem linkBack_perm (index : Nat) : (linkBack index).Perm (linkItems index) :=
  List.reverse_perm (linkItems index)

theorem exit_order : [EchoItem.registered, .driver, .links].Perm [.driver, .registered, .links] :=
  List.Perm.swap _ _ _

theorem back_order : [EchoItem.links, .registered, .driver].Perm [.driver, .registered, .links] :=
  List.reverse_perm [EchoItem.driver, .registered, .links]

theorem echoTty_accounts : echoTty.Accounts (fun _ => True) EchoEnv.leak where
  leaves := by
    rintro ⟨alloc, register, links, fifo, device⟩ _
    obtain _ | _ := alloc
    · rfl
    obtain _ | _ := register
    · rfl
    obtain _ | _ := links
    · rfl
    set env : EchoEnv := ⟨.ok, .ok, true, fifo, device⟩ with environment
    have search := find_fails (linkFails_isSome env) MAX_PORTS
    change _ = env.broken at search
    cases broken : env.broken with
    | none =>
        have climbed := climb_done linkItems (search.trans broken)
        have loaded : echoTty.init env = (some 0, upToLinks ++
            (List.range' 0 MAX_PORTS).flatMap fun index => acquireAll (linkItems index)) := by
          simp only [echoTty, ttyInit, climbed]
          rfl
        refine attempt_loaded loaded le_rfl ?_
        have ports := Leaves.unwound (leaves_nil : Leaves ([] : List (Use EchoItem)) 0)
          (List.Perm.refl (List.range MAX_PORTS)) linkBack_perm
        have whole := ports.bracket exit_order
        rw [EchoEnv.leak, broken]
        simpa only [upToLinks, echoTty, ttyExit, List.append_nil, List.append_assoc,
          List.range_eq_range'] using whole
    | some last =>
        obtain ⟨uses, fail, failed, climbed⟩ :=
          climb_failed linkItems (search.trans broken)
        obtain ⟨error, own⟩ := linkFails_leaves failed
        have unwinds : echoTty.init env = (some fail, upToLinks ++
            (((List.range' 0 last).flatMap fun index => acquireAll (linkItems index)) ++ uses) ++
            ((List.range last).reverse.flatMap fun index => releaseAll (linkBack index)) ++
            releaseAll [EchoItem.links] ++ errUnregDriver) := by
          simp only [echoTty, ttyInit, climbed]
          rfl
        refine attempt_failed unwinds error ?_
        have ports := own.unwound (List.reverse_perm (List.range last)) linkBack_perm
        have whole := ports.bracket back_order
        rw [EchoEnv.leak, broken]
        simpa only [upToLinks, errUnregDriver, releaseAll, List.map_cons, List.map_nil,
          List.append_assoc, List.cons_append, List.nil_append, List.range_eq_range'] using whole
  stuck := fun _ unsound => absurd trivial unsound

/-! `ch16_block/rbull.c` -/

inductive RbullItem
  | hctxs
  | data
  | tagSet
  | disk
  | added
  | rh (index : Nat)
  | wq (index : Nat)
  deriving DecidableEq, Repr

/-- `ret` is what the variable of this name holds before anything is assigned to it. The disk is
allocated in two parts, one on each side of the calls of `init_hctx`. -/
structure RbullEnv where
  ret : Int
  sectorSize : UInt32
  hctxs : Bool
  data : Bool
  tagSet : Status
  queue : Status
  hwQueues : Nat
  rh : Nat → Bool
  wq : Nat → Bool
  disk : Status
  addDisk : Status

def SECTOR_SIZE : UInt32 := 512

def isPowerOf2 (n : UInt32) : Bool := n ≠ 0 && (n &&& (n - 1)) = 0

def setupQueueLimit (sectorSize : UInt32) : Int :=
  if sectorSize < SECTOR_SIZE ∨ !isPowerOf2 sectorSize then -EINVAL else 0

def hctxItems (index : Nat) : List RbullItem := [.rh index, .wq index]

/-- `rbullInitHctx`, which does not look at what `kzalloc` returns: none is an oops. -/
def rbullInitHctx (env : RbullEnv) (index : Nat) : Option (List (Use RbullItem) × Option Int) :=
  if !env.rh index then some ([], none)
  else if !env.wq index then some ([.acquire (.rh index)], some (-ENOMEM))
  else none

def rbullExitHctx (index : Nat) : List RbullItem := [.wq index, .rh index]

def exitHctxs (count : Nat) : List (Use RbullItem) :=
  (List.range count).flatMap fun index => releaseAll (rbullExitHctx index)

def upToTagSet : List (Use RbullItem) := acquireAll [.hctxs, .data, .tagSet]

def freeTagSet : List (Use RbullItem) := releaseAll [RbullItem.tagSet, .data, .hctxs]

def rbullDisk (env : RbullEnv) : Option Int × List (Use RbullItem) :=
  match climb hctxItems (rbullInitHctx env) env.hwQueues 0 with
  | (uses, some (_, none)) => (none, upToTagSet ++ uses)
  | (uses, some (index, some ret)) =>
      (some ret, upToTagSet ++ (uses ++ exitHctxs index) ++ freeTagSet)
  | (uses, none) =>
      if env.disk.ret ≠ 0 then
        (some env.disk.ret, upToTagSet ++ (uses ++ exitHctxs env.hwQueues) ++ freeTagSet)
      else if env.addDisk.ret < 0 then
        (some env.addDisk.ret, upToTagSet ++ (uses ++ [.acquire .disk] ++ exitHctxs env.hwQueues ++
          [.release .disk]) ++ freeTagSet)
      else (some 0, upToTagSet ++ uses ++ acquireAll [RbullItem.disk, .added])

def rbullInit (env : RbullEnv) : Option Int × List (Use RbullItem) :=
  if !env.hctxs then (some (-ENOMEM), [])
  else if !env.data then (some env.ret, [.acquire .hctxs, .release .hctxs])
  else if env.tagSet.ret < 0 then
    (some env.tagSet.ret, [.acquire .hctxs, .acquire .data, .release .data, .release .hctxs])
  else if setupQueueLimit env.sectorSize ≠ 0 then
    (some (setupQueueLimit env.sectorSize), upToTagSet ++ freeTagSet)
  else if env.queue.ret ≠ 0 then (some env.queue.ret, upToTagSet ++ freeTagSet)
  else rbullDisk env

def rbullExit (env : RbullEnv) : List (Use RbullItem) :=
  [.release .added] ++ exitHctxs env.hwQueues ++ [.release .disk] ++ freeTagSet

def rbull : Loadable RbullEnv RbullItem where
  init := rbullInit
  exit := rbullExit

/-- Where `vmalloc` fails, an error is in the variable already. -/
def RbullEnv.Sound (env : RbullEnv) : Prop :=
  env.hctxs = true → env.data = false → env.ret < 0

def RbullEnv.hctxLacks (env : RbullEnv) (index : Nat) : Bool := !env.rh index || !env.wq index

def RbullEnv.broken (env : RbullEnv) : Option Nat :=
  if env.hctxs = true ∧ env.data = true ∧ env.tagSet = .ok ∧
      setupQueueLimit env.sectorSize = 0 ∧ env.queue = .ok then
    (List.range env.hwQueues).find? env.hctxLacks
  else none

def RbullEnv.leak (env : RbullEnv) : Multiset RbullItem :=
  match env.broken with
  | some index =>
      if env.rh index = true then {.rh index}
      else Multiset.ofList ([.hctxs, .data, .tagSet] ++ (List.range index).flatMap hctxItems)
  | none => 0

theorem initHctx_isSome (env : RbullEnv) (index : Nat) :
    (rbullInitHctx env index).isSome = env.hctxLacks index := by
  rw [rbullInitHctx, RbullEnv.hctxLacks]
  cases env.rh index <;> cases env.wq index <;> rfl

theorem rbullExitHctx_perm (index : Nat) : (rbullExitHctx index).Perm (hctxItems index) :=
  List.reverse_perm (hctxItems index)

theorem setupQueueLimit_cases (sectorSize : UInt32) :
    setupQueueLimit sectorSize = 0 ∨ setupQueueLimit sectorSize = -EINVAL := by
  rw [setupQueueLimit]
  split
  · exact Or.inr rfl
  · exact Or.inl rfl

theorem tag_set_around {uses : List (Use RbullItem)} {left : Multiset RbullItem}
    (leaves : Leaves uses left) :
    Leaves (upToTagSet ++ uses ++ freeTagSet) left :=
  leaves.bracket (List.reverse_perm [RbullItem.hctxs, .data, .tagSet])

def initHctxs (count : Nat) : List (Use RbullItem) :=
  (List.range' 0 count).flatMap fun index => acquireAll (hctxItems index)

theorem hctxs_around {uses : List (Use RbullItem)} {left : Multiset RbullItem} (count : Nat)
    (leaves : Leaves uses left) : Leaves (initHctxs count ++ uses ++ exitHctxs count) left := by
  have loop := leaves.unwound (List.Perm.refl (List.range' 0 count)) rbullExitHctx_perm
  rwa [initHctxs, exitHctxs, List.range_eq_range']

theorem disk_failed {env : RbullEnv} {uses : List (Use RbullItem)} {left : Multiset RbullItem}
    {ret : Int} (reached : rbull.init env = rbullDisk env)
    (failed : rbullDisk env = (some ret, upToTagSet ++ uses ++ freeTagSet))
    (error : ret < 0) (leaves : Leaves uses left) : Leaves (rbull.attempt env) left :=
  attempt_failed (reached.trans failed) error (tag_set_around leaves)

/-- One hardware queue cannot be set up: without its `rbull_hctx` that is an oops, and without its
workqueue the `rbull_hctx` stays. -/
theorem disk_broken {env : RbullEnv} {last : Nat} (reached : rbull.init env = rbullDisk env)
    (broken : env.broken = some last)
    (search : (List.range' 0 env.hwQueues).find? (fun index => (rbullInitHctx env index).isSome) =
      some last) : Leaves (rbull.attempt env) env.leak := by
  obtain ⟨uses, fail, failed, climbed⟩ := climb_failed hctxItems search
  rw [Nat.sub_zero] at climbed
  change _ = (initHctxs last ++ uses, some (last, fail)) at climbed
  rw [RbullEnv.leak, broken]
  rw [rbullInitHctx] at failed
  cases there : env.rh last with
  | false =>
      simp only [there, Bool.not_false, if_true, Option.some.injEq, Prod.mk.injEq] at failed
      obtain ⟨rfl, rfl⟩ := failed
      have oops : rbullDisk env =
          (none, upToTagSet ++ (initHctxs last ++ [])) := by
        simp only [rbullDisk, climbed]
      rw [Loadable.attempt, reached, oops, List.append_nil, List.append_nil, upToTagSet, initHctxs,
        acquireAll_flatMap, ← List.range_eq_range', acquireAll, acquireAll, ← List.map_append]
      simp only [there, Bool.false_eq_true, if_false]
      exact leaves_acquireAll _
  | true =>
      have unqueued : env.wq last = false := by
        cases queued : env.wq last with
        | false => rfl
        | true =>
            rw [there, queued] at failed
            contradiction
      simp only [there, unqueued, Bool.not_true, Bool.not_false, if_true, Bool.false_eq_true,
        if_false, Option.some.injEq, Prod.mk.injEq] at failed
      obtain ⟨rfl, rfl⟩ := failed
      have unwinds : rbullDisk env = (some (-ENOMEM), upToTagSet ++
          (initHctxs last ++ [.acquire (.rh last)] ++ exitHctxs last) ++ freeTagSet) := by
        simp only [rbullDisk, climbed]
      simp only [there, if_true]
      exact disk_failed reached unwinds (by decide) (hctxs_around last rfl)

theorem disk_done {env : RbullEnv} (reached : rbull.init env = rbullDisk env)
    (search : (List.range' 0 env.hwQueues).find? (fun index => (rbullInitHctx env index).isSome) =
      none) : Leaves (rbull.attempt env) 0 := by
  have climbed : climb hctxItems (rbullInitHctx env) env.hwQueues 0 =
      (initHctxs env.hwQueues, none) := climb_done hctxItems search
  have around := hctxs_around env.hwQueues leaves_nil
  rw [List.append_nil] at around
  by_cases unmade : env.disk.ret ≠ 0
  · have failed : rbullDisk env = (some env.disk.ret, upToTagSet ++
        (initHctxs env.hwQueues ++ exitHctxs env.hwQueues) ++ freeTagSet) := by
      simp only [rbullDisk, climbed, if_pos unmade]
    exact disk_failed reached failed (Status.neg unmade) around
  have single : Leaves [Use.acquire RbullItem.disk] (Multiset.ofList [.disk] + 0) := rfl
  by_cases unadded : env.addDisk.ret < 0
  · have failed : rbullDisk env = (some env.addDisk.ret, upToTagSet ++
        (initHctxs env.hwQueues ++ [.acquire .disk] ++ exitHctxs env.hwQueues ++
          [.release .disk]) ++ freeTagSet) := by
      simp only [rbullDisk, climbed, if_neg unmade, if_pos unadded]
    exact disk_failed reached failed unadded (hctxs_around env.hwQueues single).release
  · have loaded : rbullDisk env = (some 0, upToTagSet ++
        initHctxs env.hwQueues ++ acquireAll [RbullItem.disk, .added]) := by
      simp only [rbullDisk, climbed, if_neg unmade, if_neg unadded]
    have deleted : Leaves (acquireAll [RbullItem.disk, .added] ++ [.release .added])
        (Multiset.ofList [.disk] + 0) := rfl
    have whole := tag_set_around (hctxs_around env.hwQueues deleted).release
    refine attempt_loaded (reached.trans loaded) le_rfl ?_
    simpa only [rbull, rbullExit, releaseAll, List.map_cons, List.map_nil, List.append_assoc]
      using whole

theorem rbull_accounts : rbull.Accounts RbullEnv.Sound RbullEnv.leak where
  leaves := by
    rintro ⟨ret, sectorSize, hctxs, data, tagSet, queue, queues, rh, wq, disk, add⟩ sound
    obtain _ | _ := hctxs
    · rfl
    obtain _ | _ := data
    · exact attempt_failed rfl (sound rfl rfl) rfl
    obtain errno | _ := tagSet
    · cases errno <;> rfl
    set env : RbullEnv :=
      ⟨ret, sectorSize, true, true, .ok, queue, queues, rh, wq, disk, add⟩ with environment
    obtain fine | limited := setupQueueLimit_cases sectorSize
    swap
    · have failed : rbull.init env =
          (some (-EINVAL), upToTagSet ++ freeTagSet) := by
        simp only [rbull, rbullInit, environment, limited]
        rfl
      have unbroken : env.broken = none := by
        simp only [RbullEnv.broken, environment, limited]
        rfl
      rw [RbullEnv.leak, unbroken]
      exact attempt_failed failed (by decide) rfl
    obtain errno | _ := queue
    · have failed : rbull.init env = (some (Status.failed errno).ret,
          upToTagSet ++ freeTagSet) := by
        simp only [rbull, rbullInit, environment, fine]
        rfl
      have unbroken : env.broken = none := by
        simp only [RbullEnv.broken, environment, fine]
        rfl
      rw [RbullEnv.leak, unbroken]
      exact attempt_failed failed (Status.neg (by rw [Status.ret]; omega)) rfl
    have lacks : env.broken = (List.range queues).find? env.hctxLacks := by
      simp only [RbullEnv.broken, environment, fine]
      rfl
    have reached : rbull.init env = rbullDisk env := by
      simp only [rbull, rbullInit, environment, fine]
      rfl
    have search := find_fails (initHctx_isSome env) queues
    rw [← lacks] at search
    cases broken : env.broken with
    | some last => exact disk_broken reached broken (search.trans broken)
    | none =>
        rw [RbullEnv.leak, broken]
        exact disk_done reached (search.trans broken)
  stuck := by
    rintro ⟨ret, sectorSize, hctxs, data, tagSet, queue, queues, rh, wq, disk, add⟩ unsound
    intro left leaves
    obtain _ | _ := hctxs
    · exact unsound (by rintro ⟨⟩)
    obtain _ | _ := data
    · have loaded : 0 ≤ ret := not_lt.mp fun error => unsound fun _ _ => error
      have stuck : rbull.attempt ⟨ret, sectorSize, true, false, tagSet, queue, queues, rh, wq,
          disk, add⟩ = [.acquire .hctxs, .release .hctxs, .release .added] ++
            (exitHctxs queues ++ [.release .disk] ++ freeTagSet) := by
        simp only [Loadable.attempt, rbull, rbullInit, Bool.not_true, Bool.not_false,
          Bool.false_eq_true, if_false, if_true, if_pos loaded, rbullExit, List.append_assoc]
        rfl
      rw [stuck] at leaves
      contradiction
    · exact unsound (by rintro _ ⟨⟩)

end Ldd3.Loading
