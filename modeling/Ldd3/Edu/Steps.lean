import Mathlib.Tactic
import Ldd3.Edu.Core

/-! What one step of `edu_dma_transfers`, of the device and of `edu_irq_threaded` can do. -/

namespace Ldd3.Edu

def Point.holdsLock : Point → Bool
  | .idle | .locking _ | .returned _ => false
  | _ => true

def Point.isFree : Point → Bool
  | .idle | .returned _ => true
  | _ => false

section Machine

variable {Pid : Type} [DecidableEq Pid]

inductive EduMove (sys : EduSys Pid) : EduAction Pid → EduSys Pid → Prop
  | enters {pid : Pid} {request : DmaRequest} (free : (sys.points pid).isFree = true) :
      EduMove sys (.call pid request) (sys.setPoint pid (.locking request))
  | fails {pid : Pid} {action : EduAction Pid} {ret : Int} (before : (sys.points pid).holdsLock = false)
      (nonzero : ret ≠ 0) : EduMove sys action (sys.setPoint pid (.returned ⟨none, ret, []⟩))
  | locks {pid : Pid} {request : DmaRequest} {interrupted expired : Bool}
      (here : sys.points pid = .locking request) (free : sys.xferLock = none) :
      EduMove sys (.proceed pid interrupted expired)
        ({ sys with xferLock := some pid }.setPoint pid (.locked request))
  | busy {pid : Pid} {request : DmaRequest} {interrupted expired : Bool}
      (here : sys.points pid = .locked request) (inFlight : sys.inFlight = true) :
      EduMove sys (.proceed pid interrupted expired)
        (sys.setPoint pid (.unlocking ⟨none, -EBUSY, []⟩))
  | starts {pid : Pid} {request : DmaRequest} {interrupted expired : Bool}
      (here : sys.points pid = .locked request) (clear : sys.inFlight = false) :
      EduMove sys (.proceed pid interrupted expired)
        ({ sys with inFlight := true, done := [] }.setPoint pid (.choosing request))
  | chooses {pid : Pid} {request : DmaRequest} {regs : DmaRegs} {interrupted expired : Bool}
      (here : sys.points pid = .choosing request) (directed : request.directed = true) :
      EduMove sys (.proceed pid interrupted expired) (sys.setPoint pid (.writing .dst regs))
  | writes {pid : Pid} {register later : Register} {regs written : DmaRegs}
      {interrupted expired : Bool} (here : sys.points pid = .writing register regs) :
      EduMove sys (.proceed pid interrupted expired)
        ({ sys with regs := written }.setPoint pid (.writing later regs))
  | commands {pid : Pid} {regs : DmaRegs} {point : Point} {interrupted expired : Bool}
      (here : sys.points pid = .writing .cmd regs)
      (goesOn : point = .waiting sys.commands.length ∨ point = .polling sys.commands.length) :
      EduMove sys (.proceed pid interrupted expired)
        ((sys.command regs.cmd).setPoint pid point)
  | completes {pid : Pid} {dma : Nat} {signals : List Nat} {rest : List (List Nat)}
      {interrupted expired : Bool} (here : sys.points pid = .waiting dma)
      (done : sys.done = signals :: rest) :
      EduMove sys (.proceed pid interrupted expired)
        ({ sys with done := rest }.setPoint pid (.ending ⟨some dma, 0, signals⟩))
  | pollsDone {pid : Pid} {dma : Nat} {interrupted expired : Bool}
      (here : sys.points pid = .polling dma) (stopped : sys.running = []) :
      EduMove sys (.proceed pid interrupted expired)
        (sys.setPoint pid (.ending ⟨some dma, 0, []⟩))
  | givesUp {pid : Pid} {dma : Option Nat} {ret : Int} {interrupted expired : Bool}
      (holds : (sys.points pid).holdsLock = true) (nonzero : ret ≠ 0) :
      EduMove sys (.proceed pid interrupted expired) (sys.setPoint pid (.ending ⟨dma, ret, []⟩))
  | ends {pid : Pid} {outcome : Outcome} {interrupted expired : Bool}
      (here : sys.points pid = .ending outcome) :
      EduMove sys (.proceed pid interrupted expired)
        ({ sys with inFlight := false }.setPoint pid (.unlocking outcome))
  | unlocks {pid : Pid} {outcome : Outcome} {interrupted expired : Bool}
      (here : sys.points pid = .unlocking outcome) :
      EduMove sys (.proceed pid interrupted expired)
        ({ sys with xferLock := none }.setPoint pid (.returned outcome))
  | finishes {dma : Nat} {memory : Memory} {raising : List Nat} (runs : dma ∈ sys.running)
      (raised : raising = sys.raising ∨ raising = sys.raising ++ [dma]) :
      EduMove sys (.finish dma)
        { sys with running := sys.running.erase dma, memory := memory, raising := raising }
  | raises {dma : Nat} (here : dma ∈ sys.raising) :
      EduMove sys (.raise dma)
        { sys with raising := sys.raising.erase dma, irqStatus := sys.irqStatus ++ [dma] }
  | reads {resumed : Bool} (idle : sys.handler = .idle) (latched : sys.irqStatus ≠ []) :
      EduMove sys (.irq resumed) { sys with handler := .acking sys.irqStatus }
  | acks {resumed : Bool} {signals : List Nat} (here : sys.handler = .acking signals) :
      EduMove sys (.irq resumed) { sys with irqStatus := [], handler := .completing signals }
  | signals {resumed : Bool} {signals : List Nat} (here : sys.handler = .completing signals)
      (inFlight : sys.inFlight = true) :
      EduMove sys (.irq resumed) { sys with handler := .idle, done := sys.done ++ [signals] }
  | ignores {resumed : Bool} {signals : List Nat} (here : sys.handler = .completing signals) :
      EduMove sys (.irq resumed) { sys with handler := .idle }
  | same {action : EduAction Pid} : EduMove sys action sys

theorem eduIrqThreaded_move (sys : EduSys Pid) (resumed : Bool) :
    EduMove sys (.irq resumed) (eduIrqThreaded sys resumed) := by
  simp only [eduIrqThreaded]
  cases here : sys.handler with
  | idle =>
      simp only
      split
      · exact .same
      · rename_i latched
        refine .reads here ?_
        intro none
        simp [none] at latched
  | acking signals => exact .acks here
  | completing signals =>
      simp only
      split
      · rename_i inFlight
        exact .signals here inFlight
      · exact .ignores here

theorem eduDmaProceed_move {interruptsEnabled interrupted expired : Bool} {sys next : EduSys Pid}
    {pid : Pid}
    (taken : eduDmaProceed interruptsEnabled sys pid interrupted expired (sys.points pid) = some next) :
    EduMove sys (.proceed pid interrupted expired) next := by
  cases here : sys.points pid with
  | idle => simp [here, eduDmaProceed] at taken
  | returned outcome => simp [here, eduDmaProceed] at taken
  | locking request =>
      simp only [here, eduDmaProceed] at taken
      split at taken
      · cases taken
        exact .fails (by rw [here]; rfl) (by decide)
      · split at taken
        · rename_i free
          cases taken
          exact .locks here free
        · contradiction
  | locked request =>
      simp only [here, eduDmaProceed] at taken
      split at taken
      · rename_i inFlight
        cases taken
        exact .busy here inFlight
      · rename_i clear
        cases taken
        exact .starts here (by simpa using clear)
  | choosing request =>
      simp only [here, eduDmaProceed] at taken
      split at taken
      · cases taken
        exact .givesUp (by rw [here]; rfl) (by decide)
      · rename_i regs found
        cases taken
        refine .chooses here ?_
        rw [← Bool.not_eq_false, ← dmaRegs_eq_none_iff interruptsEnabled, found]
        simp
  | writing register regs =>
      simp only [here, eduDmaProceed, Option.some.injEq] at taken
      subst taken
      cases register with
      | dst => exact .writes here
      | src => exact .writes here
      | count => exact .writes here
      | cmd =>
          refine .commands here ?_
          cases interruptsEnabled with
          | true => exact .inl rfl
          | false => exact .inr rfl
  | waiting dma =>
      simp only [here, eduDmaProceed] at taken
      split at taken
      · rename_i done
        cases taken
        exact .completes here done
      · split at taken
        · cases taken
          exact .givesUp (by rw [here]; rfl) (by decide)
        · contradiction
  | polling dma =>
      simp only [here, eduDmaProceed] at taken
      split at taken
      · cases taken
        exact .givesUp (by rw [here]; rfl) (by decide)
      · split at taken
        · rename_i stopped
          cases taken
          exact .pollsDone here stopped
        · cases taken
          exact .same
  | ending outcome =>
      simp only [here, eduDmaProceed, Option.some.injEq] at taken
      subst taken
      exact .ends here
  | unlocking outcome =>
      simp only [here, eduDmaProceed, Option.some.injEq] at taken
      subst taken
      exact .unlocks here

theorem eduStep_move {interruptsEnabled : Bool} {sys next : EduSys Pid} {action : EduAction Pid}
    (taken : eduStep interruptsEnabled sys action = some next) : EduMove sys action next := by
  cases action with
  | call pid request =>
      have enter (free : (sys.points pid).isFree = true) (unlocked : (sys.points pid).holdsLock = false)
          (entered : (if DMA_BUF_SIZE < request.size then
            some (sys.setPoint pid (.returned ⟨none, -EINVAL, []⟩))
            else some (sys.setPoint pid (.locking request))) = some next) :
          EduMove sys (.call pid request) next := by
        split at entered
        · cases entered
          exact .fails unlocked (by decide)
        · cases entered
          exact .enters free
      cases here : sys.points pid with
      | idle =>
          simp only [eduStep, here] at taken
          exact enter (by rw [here]; rfl) (by rw [here]; rfl) taken
      | returned outcome =>
          simp only [eduStep, here] at taken
          exact enter (by rw [here]; rfl) (by rw [here]; rfl) taken
      | _ => simp [eduStep, here] at taken
  | proceed pid interrupted expired => exact eduDmaProceed_move taken
  | finish dma =>
      simp only [eduStep] at taken
      split at taken
      · split at taken
        · rename_i regs found runs
          cases taken
          refine .finishes runs ?_
          split
          · exact .inl rfl
          · exact .inr rfl
        · contradiction
      · contradiction
  | raise dma =>
      simp only [eduStep] at taken
      split at taken
      · rename_i here
        cases taken
        exact .raises here
      · contradiction
  | irq resumed =>
      simp only [eduStep, Option.some.injEq] at taken
      subst taken
      exact eduIrqThreaded_move sys resumed

end Machine

end Ldd3.Edu
