import Mathlib.Tactic
import Ldd3.Lib.StepMachine
import Ldd3.Uac.Disconnect

/-!
Whether the teardown is the last that anybody does with the ring. `usb_kill_urb` waits for the
completions; nothing waits for the reads and the writes.
-/

namespace Ldd3.Uac

section Machine

variable {Pid : Type}

structure TeardownSafe (sys : TeardownSys Pid) : Prop where
  untouched : sys.touched = false
  awake : sys.disconnected = true → ∀ pid, (sys.points pid).asleep = false

/-- `kfifo_free` runs when each call under way has made its last access to the ring, and the
`uac_disconnect` of the control interface returns when each is past its last wait. Once an
interface has been disconnected, no read and no write of a byte is begun. -/
def CallsDrained (sys : TeardownSys Pid) : TeardownAction Pid → Prop
  | .disconnectStep =>
      (sys.disconnect = .free → ∀ pid, (sys.points pid).ringToCome = false) ∧
        (sys.disconnect = .clear .control → ∀ pid, (sys.points pid).waitToCome = false)
  | .read _ _ => sys.disconnected = false
  | .write _ count => sys.disconnected = false ∨ count = 0
  | .openFile _ | .proceed _ _ _ | .complete _ _ | .urb _ _ | .disconnect _ => True

instance [Fintype Pid] (sys : TeardownSys Pid) :
    (action : TeardownAction Pid) → Decidable (CallsDrained sys action)
  | .disconnectStep =>
      inferInstanceAs (Decidable ((sys.disconnect = .free → ∀ pid, (sys.points pid).ringToCome = false) ∧
        (sys.disconnect = .clear .control → ∀ pid, (sys.points pid).waitToCome = false)))
  | .read _ _ => inferInstanceAs (Decidable (sys.disconnected = false))
  | .write _ count => inferInstanceAs (Decidable (sys.disconnected = false ∨ count = 0))
  | .openFile _ | .proceed _ _ _ | .complete _ _ | .urb _ _ | .disconnect _ =>
      inferInstanceAs (Decidable True)

structure TeardownInvariant (sys : TeardownSys Pid) : Prop where
  untouched : sys.touched = false
  drained : sys.freed = true → ∀ pid, (sys.points pid).ringToCome = false
  waited : sys.disconnected = true → ∀ pid, (sys.points pid).waitToCome = false
  returned : sys.freed = true → sys.disconnected = true
  gone : sys.freed = true ∨ sys.disconnect = .wake ∨ sys.disconnect = .free →
    ∀ urb ∈ sys.urbs, urb.point = .gone
  killed : ∀ index, sys.disconnect = .kill index ∨ sys.disconnect = .wait index →
    ∀ place < index, ∀ urb, sys.urbs[place]? = some urb → urb.point = .gone
  cleared : sys.disconnect = .outside → sys.controlData = false ∨ sys.streamData = false →
    sys.disconnected = true

@[simp] theorem CallPoint.ringToCome_wake (point : CallPoint) :
    point.wake.ringToCome = point.ringToCome := by
  cases point <;> rfl

@[simp] theorem CallPoint.waitToCome_wake (point : CallPoint) :
    point.wake.waitToCome = point.waitToCome := by
  cases point <;> rfl

theorem CallPoint.awake_of_waited {point : CallPoint} (waited : point.waitToCome = false) :
    point.asleep = false := by
  cases point with
  | readAsleep count => contradiction
  | writeAsleep left off => contradiction
  | _ => rfl

theorem CallPoint.waited_of_drained {point : CallPoint} (drained : point.ringToCome = false) :
    point.waitToCome = false := by
  cases point <;> first | rfl | exact drained

theorem TeardownInvariant.safe {sys : TeardownSys Pid} (invariant : TeardownInvariant sys) :
    TeardownSafe sys :=
  ⟨invariant.untouched, fun disconnected pid =>
    CallPoint.awake_of_waited (invariant.waited disconnected pid)⟩

structure SameDriver (sys next : TeardownSys Pid) : Prop where
  freed : next.freed = sys.freed
  touched : next.touched = sys.touched
  urbs : next.urbs = sys.urbs
  disconnect : next.disconnect = sys.disconnect
  disconnected : next.disconnected = sys.disconnected
  controlData : next.controlData = sys.controlData
  streamData : next.streamData = sys.streamData

theorem invariant_of_same {sys next : TeardownSys Pid} (invariant : TeardownInvariant sys)
    (same : SameDriver sys next)
    (drained : sys.freed = true → ∀ pid, (next.points pid).ringToCome = false)
    (waited : sys.disconnected = true → ∀ pid, (next.points pid).waitToCome = false) :
    TeardownInvariant next where
  untouched := same.touched.trans invariant.untouched
  drained := by rwa [same.freed]
  waited := by rwa [same.disconnected]
  returned := by
    rw [same.freed, same.disconnected]
    exact invariant.returned
  gone := by
    rw [same.freed, same.disconnect, same.urbs]
    exact invariant.gone
  killed := by
    rw [same.disconnect, same.urbs]
    exact invariant.killed
  cleared := by
    rw [same.disconnect, same.controlData, same.streamData, same.disconnected]
    exact invariant.cleared

variable [DecidableEq Pid]

inductive CallMove (sys : TeardownSys Pid) (pid : Pid) (next : TeardownSys Pid) : Prop
  | touched (freed : sys.freed = true) (come : (sys.points pid).ringToCome = true)
  | moved (changed : TeardownSys Pid) (point : CallPoint) (same : SameDriver sys changed)
      (others : ∀ other, changed.points other = sys.points other ∨
        changed.points other = (sys.points other).wake)
      (come : (sys.points pid).ringToCome = false → point.ringToCome = false)
      (wait : (sys.points pid).waitToCome = false → point.waitToCome = false)
      (built : next = changed.setCall pid point)

theorem access_moves {sys next changed : TeardownSys Pid} {pid : Pid} {point : CallPoint}
    (come : (sys.points pid).ringToCome = true)
    (wait : (sys.points pid).waitToCome = false → point.waitToCome = false)
    (same : SameDriver sys changed) (others : changed.points = sys.points)
    (taken : sys.access (changed.setCall pid point) = next) : CallMove sys pid next := by
  cases freed : sys.freed with
  | true => exact .touched freed come
  | false =>
      rw [TeardownSys.access, freed] at taken
      refine .moved changed point same (fun other => .inl (congrFun others other)) ?_ wait
        taken.symm
      intro drained
      rw [come] at drained
      contradiction

theorem callStep_moves {sys next : TeardownSys Pid} {pid : Pid} {fault signal : Bool}
    (taken : callStep sys pid fault signal (sys.points pid) = some next) :
    CallMove sys pid next := by
  have unchanged : SameDriver sys sys := ⟨rfl, rfl, rfl, rfl, rfl, rfl, rfl⟩
  have steps {point : CallPoint}
      (come : (sys.points pid).ringToCome = false → point.ringToCome = false)
      (wait : (sys.points pid).waitToCome = false → point.waitToCome = false)
      (built : sys.setCall pid point = next) : CallMove sys pid next :=
    .moved sys point unchanged (fun _ => .inl rfl) come wait built.symm
  cases here : sys.points pid with
  | outside => simp [here, callStep] at taken
  | returned ret => simp [here, callStep] at taken
  | opening =>
      simp only [here, callStep, Option.some.injEq] at taken
      refine .moved { sys with
          minorReaders := sys.minorReaders - 1, opened := sys.opened || sys.streamData }
        (.returned (if sys.streamData then 0 else -ENODEV)) ?_ (fun _ => .inl rfl) (fun _ => rfl)
        (fun _ => rfl) taken.symm
      exact ⟨rfl, rfl, rfl, rfl, rfl, rfl, rfl⟩
  | readTest count =>
      simp only [here, callStep, Option.some.injEq] at taken
      exact access_moves (by rw [here]; rfl) (by simp [here, CallPoint.waitToCome]) unchanged rfl
        taken
  | readCheck count =>
      simp only [here, callStep, Option.some.injEq] at taken
      exact access_moves (by rw [here]; rfl) (by simp [here, CallPoint.waitToCome]) unchanged rfl
        taken
  | readAsleep count =>
      simp only [here, callStep] at taken
      split at taken
      · exact steps (by simp [here, CallPoint.ringToCome]) (by simp [here, CallPoint.waitToCome])
          (Option.some.inj taken)
      · contradiction
  | readRemove count =>
      simp only [here, callStep] at taken
      split at taken
      · contradiction
      · refine access_moves (by rw [here]; rfl) (fun _ => rfl) ?_ ?_ (Option.some.inj taken)
        · exact ⟨rfl, rfl, rfl, rfl, rfl, rfl, rfl⟩
        · rfl
  | readCopy n =>
      simp only [here, callStep, Option.some.injEq] at taken
      exact steps (fun _ => rfl) (fun _ => rfl) taken
  | writeLoop left off =>
      simp only [here, callStep] at taken
      split at taken
      · exact steps (fun _ => rfl) (fun _ => rfl) (Option.some.inj taken)
      · rename_i more
        split at taken
        · exact steps (fun _ => rfl) (fun _ => rfl) (Option.some.inj taken)
        · exact steps (by simp [here, CallPoint.ringToCome, more])
            (by simp [here, CallPoint.waitToCome, more]) (Option.some.inj taken)
  | writeInsert left off chunk =>
      simp only [here, callStep] at taken
      split at taken
      · contradiction
      · refine access_moves (by rw [here]; rfl) (by simp [here, CallPoint.waitToCome]) ?_ ?_
          (Option.some.inj taken)
        · exact ⟨rfl, rfl, rfl, rfl, rfl, rfl, rfl⟩
        · rfl
  | writeCheck left off =>
      simp only [here, callStep, Option.some.injEq] at taken
      exact access_moves (by rw [here]; rfl) (by simp [here, CallPoint.waitToCome]) unchanged rfl
        taken
  | writeAsleep left off =>
      simp only [here, callStep] at taken
      split at taken
      · exact steps (by simp [here, CallPoint.ringToCome]) (by simp [here, CallPoint.waitToCome])
          (Option.some.inj taken)
      · contradiction
  | writeWake left off =>
      simp only [here, callStep, Option.some.injEq] at taken
      refine .moved (wakeUp sys) (.writeLoop left off) ?_ (fun _ => .inr rfl) ?_ ?_ taken.symm
      · exact ⟨rfl, rfl, rfl, rfl, rfl, rfl, rfl⟩
      · rw [here]
        exact fun drained => drained
      · rw [here]
        exact fun waited => waited

theorem invariant_called {sys next : TeardownSys Pid} {pid : Pid}
    (invariant : TeardownInvariant sys) (move : CallMove sys pid next) :
    TeardownInvariant next := by
  cases move with
  | touched freed come =>
      rw [invariant.drained freed pid] at come
      contradiction
  | moved changed point same others come wait built =>
      rw [built]
      have framed : SameDriver sys (changed.setCall pid point) :=
        ⟨same.freed, same.touched, same.urbs, same.disconnect, same.disconnected,
          same.controlData, same.streamData⟩
      refine invariant_of_same invariant framed ?_ ?_
      · intro freed other
        simp only [TeardownSys.setCall]
        by_cases here : other = pid
        · rw [here, Function.update_self]
          exact come (invariant.drained freed pid)
        · rw [Function.update_of_ne here]
          rcases others other with kept | woken
          · rw [kept]
            exact invariant.drained freed other
          · rw [woken, CallPoint.ringToCome_wake]
            exact invariant.drained freed other
      · intro disconnected other
        simp only [TeardownSys.setCall]
        by_cases here : other = pid
        · rw [here, Function.update_self]
          exact wait (invariant.waited disconnected pid)
        · rw [Function.update_of_ne here]
          rcases others other with kept | woken
          · rw [kept]
            exact invariant.waited disconnected other
          · rw [woken, CallPoint.waitToCome_wake]
            exact invariant.waited disconnected other

theorem invariant_begun {sys changed : TeardownSys Pid} (invariant : TeardownInvariant sys)
    (same : SameDriver sys changed) (points : changed.points = sys.points) {pid : Pid}
    {point : CallPoint} (come : sys.freed = true → point.ringToCome = false)
    (wait : sys.disconnected = true → point.waitToCome = false) :
    TeardownInvariant (changed.setCall pid point) := by
  have framed : SameDriver sys (changed.setCall pid point) :=
    ⟨same.freed, same.touched, same.urbs, same.disconnect, same.disconnected, same.controlData,
      same.streamData⟩
  refine invariant_of_same invariant framed ?_ ?_
  · intro freed other
    simp only [TeardownSys.setCall, points]
    by_cases here : other = pid
    · rw [here, Function.update_self]
      exact come freed
    · rw [Function.update_of_ne here]
      exact invariant.drained freed other
  · intro disconnected other
    simp only [TeardownSys.setCall, points]
    by_cases here : other = pid
    · rw [here, Function.update_self]
      exact wait disconnected
    · rw [Function.update_of_ne here]
      exact invariant.waited disconnected other

omit [DecidableEq Pid]

theorem invariant_urb {sys changed : TeardownSys Pid} (invariant : TeardownInvariant sys)
    {index : Nat} {urb : Urb} (found : sys.urbs[index]? = some urb) (present : urb.point ≠ .gone)
    (same : SameDriver sys changed)
    (points : ∀ pid, changed.points pid = sys.points pid ∨
      changed.points pid = (sys.points pid).wake) (later : Urb) :
    TeardownInvariant (changed.setUrb index later) := by
  have alive : ¬(sys.freed = true ∨ sys.disconnect = .wake ∨ sys.disconnect = .free) :=
    fun finished => present (invariant.gone finished urb (List.mem_of_getElem? found))
  constructor
  · exact same.touched.trans invariant.untouched
  · intro freed
    exact absurd (.inl (same.freed.symm.trans freed)) alive
  · intro disconnected pid
    have before := invariant.waited (same.disconnected.symm.trans disconnected) pid
    show (changed.points pid).waitToCome = false
    rcases points pid with kept | woken
    · rw [kept]
      exact before
    · rw [woken, CallPoint.waitToCome_wake]
      exact before
  · intro freed
    exact absurd (.inl (same.freed.symm.trans freed)) alive
  · intro finished
    have before : sys.freed = true ∨ sys.disconnect = .wake ∨ sys.disconnect = .free := by
      rw [← same.freed, ← same.disconnect]
      exact finished
    exact absurd before alive
  · intro stage killing place earlier other foundOther
    have before : sys.disconnect = .kill stage ∨ sys.disconnect = .wait stage := by
      rw [← same.disconnect]
      exact killing
    simp only [TeardownSys.setUrb, same.urbs] at foundOther
    by_cases here : place = index
    · subst here
      exact absurd (invariant.killed stage before place earlier urb found) present
    · rw [List.getElem?_set_ne (Ne.symm here)] at foundOther
      exact invariant.killed stage before place earlier other foundOther
  · intro outside cleared
    have before := invariant.cleared (same.disconnect.symm.trans outside)
    rw [← same.controlData, ← same.streamData] at before
    exact same.disconnected.trans (before cleared)

theorem invariant_urbStep {sys next : TeardownSys Pid} (invariant : TeardownInvariant sys)
    {index : Nat} {urb : Urb} {submits : Bool} (found : sys.urbs[index]? = some urb)
    (taken : urbStep sys index submits urb = some next) : TeardownInvariant next := by
  have unchanged : SameDriver sys sys := ⟨rfl, rfl, rfl, rfl, rfl, rfl, rfl⟩
  have steps (present : urb.point ≠ .gone) {later : Urb} (built : sys.setUrb index later = next) :
      TeardownInvariant next :=
    built ▸ invariant_urb invariant found present unchanged (fun _ => .inl rfl) later
  simp only [urbStep] at taken
  cases here : urb.point with
  | idle => simp [here] at taken
  | inFlight => simp [here] at taken
  | gone => simp [here] at taken
  | callback status =>
      simp only [here, Option.some.injEq] at taken
      exact steps (by simp [here]) taken
  | lock =>
      simp only [here] at taken
      split at taken
      · contradiction
      · exact steps (by simp [here]) (Option.some.inj taken)
  | fill packets =>
      cases packets with
      | zero =>
          simp only [here, Option.some.injEq] at taken
          exact steps (by simp [here]) taken
      | succ packets =>
          have present : urb.point ≠ .gone := by simp [here]
          have alive : sys.freed = false := by
            cases freed : sys.freed with
            | false => rfl
            | true =>
                exact absurd (invariant.gone (.inl freed) urb (List.mem_of_getElem? found)) present
          have same (held : Nat) : SameDriver sys { sys with held := held } :=
            ⟨rfl, rfl, rfl, rfl, rfl, rfl, rfl⟩
          simp only [here, Option.some.injEq] at taken
          rw [TeardownSys.access, if_neg (by simp [alive])] at taken
          rw [← taken]
          exact invariant_urb invariant found present (same (fillPacket sys.held)) (fun _ => .inl rfl) _
  | wake =>
      have woken : SameDriver sys (wakeUp sys) := ⟨rfl, rfl, rfl, rfl, rfl, rfl, rfl⟩
      simp only [here, Option.some.injEq] at taken
      rw [← taken]
      exact invariant_urb invariant found (by simp [here]) woken (fun _ => .inr rfl) _
  | test =>
      simp only [here, Option.some.injEq] at taken
      exact steps (by simp [here]) taken
  | submit =>
      simp only [here, Option.some.injEq] at taken
      exact steps (by simp [here]) taken

theorem invariant_stage {sys next : TeardownSys Pid} (invariant : TeardownInvariant sys)
    (freed : next.freed = sys.freed) (touched : next.touched = sys.touched)
    (urbs : next.urbs = sys.urbs) (points : next.points = sys.points)
    (disconnected : next.disconnected = sys.disconnected) (inside : next.disconnect ≠ .outside)
    (gone : next.disconnect = .wake ∨ next.disconnect = .free → ∀ urb ∈ sys.urbs, urb.point = .gone)
    (killed : ∀ index, next.disconnect = .kill index ∨ next.disconnect = .wait index →
      ∀ place < index, ∀ urb, sys.urbs[place]? = some urb → urb.point = .gone) :
    TeardownInvariant next where
  untouched := touched.trans invariant.untouched
  drained := by
    rw [freed, points]
    exact invariant.drained
  waited := by
    rw [disconnected, points]
    exact invariant.waited
  returned := by
    rw [freed, disconnected]
    exact invariant.returned
  gone := by
    rw [freed, urbs]
    rintro (finished | later)
    · exact invariant.gone (.inl finished)
    · exact gone later
  killed := by
    rw [urbs]
    exact killed
  cleared reached := absurd reached inside

theorem invariant_disconnect {sys : TeardownSys Pid} (invariant : TeardownInvariant sys)
    (outside : sys.disconnect = .outside) (intf : Interface) :
    TeardownInvariant (uacDisconnect sys intf) := by
  have begins : TeardownInvariant { sys with disconnect := .flag intf } :=
    invariant_stage invariant rfl rfl rfl rfl rfl (by simp) (by simp) (by simp)
  have returns (cleared : sys.controlData = false ∨ sys.streamData = false) :
      TeardownInvariant { sys with disconnected := true } := by
    have returned := invariant.cleared outside cleared
    exact ⟨invariant.untouched, invariant.drained, fun _ => invariant.waited returned,
      fun _ => rfl, invariant.gone, invariant.killed, fun _ _ => rfl⟩
  cases intf with
  | control =>
      simp only [uacDisconnect]
      cases data : sys.controlData with
      | true => simpa [data] using begins
      | false => simpa [data] using returns (.inl data)
  | streaming =>
      simp only [uacDisconnect]
      cases data : sys.streamData with
      | true => simpa [data] using begins
      | false => simpa [data] using returns (.inr data)

theorem invariant_kill {sys next : TeardownSys Pid} (invariant : TeardownInvariant sys)
    {index : Nat} (here : sys.disconnect = .kill index)
    (taken : disconnectStep sys (.kill index) = some next) : TeardownInvariant next := by
  have before := invariant.killed index (.inl here)
  simp only [disconnectStep] at taken
  split at taken
  · rename_i ended
    simp only [Option.some.injEq] at taken
    subst taken
    refine invariant_stage invariant rfl rfl rfl rfl rfl (by simp) ?_ (by simp)
    intro _ urb member
    obtain ⟨place, inside, found⟩ := List.mem_iff_getElem.mp member
    have bound := List.getElem?_eq_none_iff.mp ended
    exact before place (by omega) urb (by rw [List.getElem?_eq_getElem inside, found])
  · rename_i urb found
    split at taken
    · rename_i gone
      simp only [Option.some.injEq] at taken
      subst taken
      refine invariant_stage invariant rfl rfl rfl rfl rfl (by simp) (by simp) ?_
      intro stage killing place earlier other foundOther
      simp only [DisconnectPoint.kill.injEq, reduceCtorEq, or_false] at killing
      by_cases last : place = index
      · subst last
        rw [found, Option.some.injEq] at foundOther
        rw [← foundOther, gone]
      · exact before place (by omega) other foundOther
    · rename_i present
      simp only [Option.some.injEq] at taken
      subst taken
      have same : SameDriver sys sys := ⟨rfl, rfl, rfl, rfl, rfl, rfl, rfl⟩
      have stepped := invariant_urb invariant found present same (fun _ => .inl rfl)
        { urb with rejected := true }
      refine invariant_stage stepped rfl rfl rfl rfl rfl (by simp) (by simp) ?_
      intro stage waiting place earlier other foundOther
      simp only [reduceCtorEq, DisconnectPoint.wait.injEq, false_or] at waiting
      exact stepped.killed index (.inl here) place (by omega) other foundOther

theorem invariant_wait {sys next : TeardownSys Pid} (invariant : TeardownInvariant sys)
    {index : Nat} (here : sys.disconnect = .wait index)
    (taken : disconnectStep sys (.wait index) = some next) : TeardownInvariant next := by
  simp only [disconnectStep] at taken
  split at taken
  · contradiction
  · rename_i urb found
    split at taken
    · rename_i idle
      simp only [Option.some.injEq] at taken
      subst taken
      have same : SameDriver sys sys := ⟨rfl, rfl, rfl, rfl, rfl, rfl, rfl⟩
      have stepped := invariant_urb invariant found (by simp [idle]) same (fun _ => .inl rfl)
        { urb with point := .gone }
      refine invariant_stage stepped rfl rfl rfl rfl rfl (by simp) (by simp) ?_
      intro stage killing place earlier other foundOther
      simp only [DisconnectPoint.kill.injEq, reduceCtorEq, or_false] at killing
      by_cases last : place = index
      · subst last
        have inside := (List.getElem?_eq_some_iff.mp found).1
        simp only [TeardownSys.setUrb, List.getElem?_set_self inside, Option.some.injEq]
          at foundOther
        rw [← foundOther]
      · exact stepped.killed index (.inr here) place (by omega) other foundOther
    · contradiction

theorem invariant_disconnectStep {sys next : TeardownSys Pid} (invariant : TeardownInvariant sys)
    (drained : CallsDrained sys .disconnectStep)
    (taken : disconnectStep sys sys.disconnect = some next) : TeardownInvariant next := by
  obtain ⟨drainedFree, waitedControl⟩ := drained
  cases here : sys.disconnect with
  | outside => simp [here, disconnectStep] at taken
  | flag intf =>
      simp only [here, disconnectStep, Option.some.injEq] at taken
      subst taken
      exact invariant_stage invariant rfl rfl rfl rfl rfl (by simp) (by simp) (by simp)
  | clear intf =>
      cases intf with
      | control =>
          simp only [here, disconnectStep, Option.some.injEq] at taken
          subst taken
          refine ⟨invariant.untouched, invariant.drained, fun _ => waitedControl here,
            fun _ => rfl, ?_, fun _ killing => by simp at killing, fun _ _ => rfl⟩
          rintro (finished | later)
          · exact invariant.gone (.inl finished)
          · simp at later
      | streaming =>
          simp only [here, disconnectStep, Option.some.injEq] at taken
          subst taken
          exact invariant_stage invariant rfl rfl rfl rfl rfl (by simp) (by simp) (by simp)
  | deregister =>
      simp only [here, disconnectStep] at taken
      split at taken
      · simp only [Option.some.injEq] at taken
        subst taken
        refine invariant_stage invariant rfl rfl rfl rfl rfl (by simp) (by simp) ?_
        intro index killing place earlier
        simp only [DisconnectPoint.kill.injEq, reduceCtorEq, or_false] at killing
        omega
      · contradiction
  | kill index =>
      rw [here] at taken
      exact invariant_kill invariant here taken
  | wait index =>
      rw [here] at taken
      exact invariant_wait invariant here taken
  | wake =>
      simp only [here, disconnectStep, Option.some.injEq] at taken
      subst taken
      have allGone := invariant.gone (.inr (.inl here))
      refine ⟨invariant.untouched, ?_, ?_, invariant.returned, fun _ => allGone,
        fun _ killing => by simp at killing, fun reached => by simp at reached⟩
      · intro freed pid
        exact (CallPoint.ringToCome_wake _).trans (invariant.drained freed pid)
      · intro disconnected pid
        exact (CallPoint.waitToCome_wake _).trans (invariant.waited disconnected pid)
  | free =>
      simp only [here, disconnectStep, Option.some.injEq] at taken
      subst taken
      have allDrained := drainedFree here
      exact ⟨invariant.untouched, fun _ => allDrained,
        fun _ pid => CallPoint.waited_of_drained (allDrained pid), fun _ => rfl,
        fun _ => invariant.gone (.inr (.inr here)), fun _ killing => by simp at killing,
        fun _ _ => rfl⟩

section Runs

variable [DecidableEq Pid]

theorem invariant_step {sys next : TeardownSys Pid} {action : TeardownAction Pid}
    (invariant : TeardownInvariant sys) (drained : CallsDrained sys action)
    (taken : teardownStep sys action = some next) : TeardownInvariant next := by
  have unchanged : SameDriver sys sys := ⟨rfl, rfl, rfl, rfl, rfl, rfl, rfl⟩
  cases action with
  | openFile pid =>
      simp only [teardownStep] at taken
      split at taken
      · split at taken
        · rw [← Option.some.inj taken]
          have counted : SameDriver sys { sys with minorReaders := sys.minorReaders + 1 } :=
            ⟨rfl, rfl, rfl, rfl, rfl, rfl, rfl⟩
          exact invariant_begun invariant counted rfl (fun _ => rfl) fun _ => rfl
        · rw [← Option.some.inj taken]
          exact invariant_begun invariant unchanged rfl (fun _ => rfl) fun _ => rfl
      · contradiction
  | read pid count =>
      have connected : ¬sys.disconnected = true := by
        rw [Bool.not_eq_true]
        exact drained
      simp only [teardownStep] at taken
      split at taken
      · rw [← Option.some.inj taken]
        exact invariant_begun invariant unchanged rfl
          (fun freed => absurd (invariant.returned freed) connected)
          fun disconnected => absurd disconnected connected
      · contradiction
  | write pid count =>
      have connectedOrEmpty : sys.disconnected = false ∨ count = 0 := drained
      simp only [teardownStep] at taken
      split at taken
      · rw [← Option.some.inj taken]
        have waited : sys.disconnected = true → (CallPoint.writeLoop count 0).waitToCome = false := by
          intro disconnected
          rcases connectedOrEmpty with connected | empty
          · rw [connected] at disconnected
            contradiction
          · simp only [CallPoint.waitToCome, empty, ne_eq, not_true_eq_false, decide_false]
        exact invariant_begun invariant unchanged rfl (fun freed => waited (invariant.returned freed))
          waited
      · contradiction
  | proceed pid fault signal => exact invariant_called invariant (callStep_moves taken)
  | complete index status =>
      simp only [teardownStep] at taken
      split at taken
      · contradiction
      · rename_i urb found
        split at taken
        · rename_i flying
          rw [← Option.some.inj taken]
          exact invariant_urb invariant found (by simp [flying]) unchanged (fun _ => .inl rfl) _
        · contradiction
  | urb index submits =>
      simp only [teardownStep] at taken
      split at taken
      · contradiction
      · rename_i urb found
        exact invariant_urbStep invariant found taken
  | disconnect intf =>
      simp only [teardownStep] at taken
      split at taken
      · rename_i outside
        rw [← Option.some.inj taken]
        exact invariant_disconnect invariant outside intf
      · contradiction
  | disconnectStep => exact invariant_disconnectStep invariant drained taken

omit [DecidableEq Pid] in
theorem invariant_probed (submitted : List Bool) :
    TeardownInvariant (.probed Pid submitted) := by
  refine ⟨rfl, ?_, ?_, ?_, ?_, ?_, ?_⟩
  · intro freed
    simp [TeardownSys.probed] at freed
  · intro disconnected
    simp [TeardownSys.probed] at disconnected
  · intro freed
    simp [TeardownSys.probed] at freed
  · intro finished
    simp [TeardownSys.probed] at finished
  · intro index killing
    simp [TeardownSys.probed] at killing
  · intro _ cleared
    simp [TeardownSys.probed] at cleared

/-- In every run that disconnects the interfaces with no access and no wait of a call to come, and
begins no call on the ring afterwards, no step looks into a freed ring and no process is left
asleep. -/
theorem uacDisconnect_safe_of_drained (submitted : List Bool)
    (actions : List (TeardownAction Pid))
    (drained : StepMachine.Meets teardownStep CallsDrained (.probed Pid submitted) actions) :
    StepMachine.Always teardownStep TeardownSafe (.probed Pid submitted) actions :=
  StepMachine.always_of_meets
    (fun _ _ _ invariant drained taken => invariant_step invariant drained taken)
    (fun _ invariant => invariant.safe) (invariant_probed submitted) drained

end Runs

def streamingDisconnect : List (TeardownAction Unit) :=
  [.disconnect .streaming, .disconnectStep, .disconnectStep, .disconnectStep] ++
    (List.range NUM_OF_URBS).flatMap (fun index =>
      [.disconnectStep, .complete index (-ENOENT), .urb index true, .disconnectStep]) ++
    [.disconnectStep, .disconnectStep, .disconnectStep]

/-- A write has put its byte into the ring when the interfaces go, and returns after them. -/
def writeUnderWay : List (TeardownAction Unit) :=
  [.openFile (), .proceed () false false, .write () 1, .proceed () false false,
    .proceed () false false] ++ streamingDisconnect ++
      [.disconnect .control, .disconnectStep, .disconnectStep, .proceed () false false,
        .proceed () false false]

theorem uacDisconnect_safe_writeUnderWay :
    (StepMachine.run teardownStep (.probed Unit (List.replicate NUM_OF_URBS true))
        writeUnderWay).map (fun sys => sys.points ()) = some (.returned 1) ∧
      StepMachine.Always teardownStep TeardownSafe
        (.probed Unit (List.replicate NUM_OF_URBS true)) writeUnderWay :=
  ⟨by decide +kernel, uacDisconnect_safe_of_drained _ _ (by decide +kernel)⟩

/-- A read of an open file finds the ring empty and sleeps through the disconnect. -/
def sleepingReader : List (TeardownAction Unit) :=
  [.openFile (), .proceed () false false, .read () 1, .proceed () false false,
    .proceed () false false] ++ streamingDisconnect ++ [.proceed () false false]

theorem sleepingReader_touches :
    ¬ StepMachine.Always teardownStep TeardownSafe
      (.probed Unit (List.replicate NUM_OF_URBS true)) sleepingReader := by
  intro always
  have ran : (StepMachine.run teardownStep (.probed Unit (List.replicate NUM_OF_URBS true))
      sleepingReader).map TeardownSys.touched = some true := by decide +kernel
  obtain ⟨final, safe, touched⟩ := always.observed ran
  rw [safe.untouched] at touched
  exact Bool.false_ne_true touched

end Machine

end Ldd3.Uac
