import Mathlib.Tactic
import Ldd3.Lib.Keyed
import Ldd3.Lib.Projection
import Ldd3.Access.Core
import Ldd3.Scull.Ioctl
import Ldd3.Scull.Seek

/-!
The scullpriv devices with their data: `scull_find_listitem` keeps one scull device for each
controlling terminal, and the files of a terminal read and write only that device.
-/

namespace Ldd3.Access

open Scull

structure ScullListitem where
  address : Nat
  key : Nat
  device : ScullDev
  deriving DecidableEq, Repr

/-- An open file: `filp->private_data` and `f_pos`. -/
structure PrivFile where
  privateData : Nat
  fPos : Int
  deriving DecidableEq, Repr

structure Answer where
  ret : Int
  out : List Byte
  deriving DecidableEq, Repr

/-- `allocated` counts the `kmalloc`s, which return ever new addresses; `answers` is what the
calls on each file returned. -/
structure PrivSys (File : Type) where
  globals : Geometry
  list : List ScullListitem
  allocated : Nat
  files : File → Option PrivFile
  answers : File → List Answer

def PrivSys.loaded (File : Type) (globals : Geometry) : PrivSys File :=
  { globals := globals, list := [], allocated := 0, files := fun _ => none,
    answers := fun _ => [] }

inductive FileCall
  | read (env : Env) (count : Nat)
  | write (env : Env) (data : List Byte)
  | llseek (off : BitVec 64) (whence : Int)

def FileCall.perform (device : ScullDev) (fPos : Int) : FileCall → Except Oops Reply
  | .read env count => Scull.perform device (.read env count fPos)
  | .write env data => Scull.perform device (.write env data fPos)
  | .llseek off whence =>
      let reply := scullLlseek device fPos off.toInt whence
      .ok ⟨device, reply.fPos, reply.ret, []⟩

/-- `ioctl` is one on any of the scull devices. -/
inductive PrivAction (File : Type)
  | openFile (file : File) (mode : AccMode) (alloc : Bool)
  | call (file : File) (call : FileCall)
  | release (file : File)
  | ioctl (call : IoctlCall)

section Machine

variable {File : Type}

def PrivSys.addListitem (sys : PrivSys File) (key : Nat) : PrivSys File :=
  { sys with
    list := ⟨sys.allocated, key, .fresh sys.globals⟩ :: sys.list
    allocated := sys.allocated + 1 }

/-- The address is null when a new item is needed and `kmalloc` fails. -/
def scullFindListitem (sys : PrivSys File) (alloc : Bool) (key : Nat) :
    PrivSys File × Option Nat :=
  match Keyed.lookup ScullListitem.key sys.list key with
  | some item => (sys, some item.address)
  | none =>
      if alloc then (sys.addListitem key, some sys.allocated) else (sys, none)

def PrivSys.setDevice (sys : PrivSys File) (address : Nat) (device : ScullDev) : PrivSys File :=
  { sys with
    list := Keyed.change ScullListitem.address sys.list address fun item =>
      { item with device := device } }

variable [DecidableEq File]

def PrivSys.setFile (sys : PrivSys File) (file : File) (state : Option PrivFile) : PrivSys File :=
  { sys with files := Function.update sys.files file state }

def PrivSys.answer (sys : PrivSys File) (file : File) (answer : Answer) : PrivSys File :=
  { sys with answers := Function.update sys.answers file (sys.answers file ++ [answer]) }

/-- The end of `scull_priv_open`; no next state when `scull_dev_reset` does not return. -/
def scullPrivEnter (sys : PrivSys File) (file : File) (mode : AccMode) (address : Nat) :
    Option (PrivSys File) :=
  let opened := (sys.setFile file (some ⟨address, 0⟩)).answer file ⟨0, []⟩
  if mode = .writeOnly then
    match Keyed.lookup ScullListitem.address sys.list address with
    | none => none
    | some item =>
        match scullDevReset (item.device.data.length + 1) sys.globals item.device with
        | .returned device _ => some (opened.setDevice address device)
        | .oops _ => none
        | .running => none
  else some opened

def scullPrivOpenData (sys : PrivSys File) (tty : Option Nat) (file : File) (mode : AccMode)
    (alloc : Bool) : Option (PrivSys File) :=
  match tty with
  | none => some (sys.answer file ⟨-EINVAL, []⟩)
  | some key =>
      match scullFindListitem sys alloc key with
      | (found, some address) => scullPrivEnter found file mode address
      | (found, none) => some (found.answer file ⟨-ENOMEM, []⟩)

def scullPrivCall (sys : PrivSys File) (file : File) (call : FileCall) : Option (PrivSys File) :=
  match sys.files file with
  | none => none
  | some opened =>
      match Keyed.lookup ScullListitem.address sys.list opened.privateData with
      | none => none
      | some item =>
          match call.perform item.device opened.fPos with
          | .error _ => none
          | .ok reply =>
              some (((sys.setDevice opened.privateData reply.dev).setFile file
                (some ⟨opened.privateData, reply.fPos⟩)).answer file ⟨reply.ret, reply.out⟩)

def privStep (tty : File → Option Nat) (sys : PrivSys File) :
    PrivAction File → Option (PrivSys File)
  | .openFile file mode alloc =>
      if sys.files file = none then scullPrivOpenData sys (tty file) file mode alloc else none
  | .call file call => scullPrivCall sys file call
  | .release file => if sys.files file = none then none else some (sys.setFile file none)
  | .ioctl call => some { sys with globals := (call.reply sys.globals).globals }

end Machine

section Terminal

/-! What a terminal should see: one scull device, from the first successful open on, which all
its files share and nobody else uses. -/

structure Terminal (File : Type) where
  globals : Geometry
  device : Option ScullDev
  files : File → Option Int
  answers : File → List Answer

def Terminal.loaded (File : Type) (globals : Geometry) : Terminal File :=
  { globals := globals, device := none, files := fun _ => none, answers := fun _ => [] }

variable {File : Type}

def PrivAction.ofTerminal (tty : File → Option Nat) (key : Nat) : PrivAction File → Bool
  | .openFile file _ _ | .call file _ | .release file => tty file == some key
  | .ioctl _ => true

variable [DecidableEq File]

def Terminal.setFile (terminal : Terminal File) (file : File) (fPos : Option Int) :
    Terminal File :=
  { terminal with files := Function.update terminal.files file fPos }

def Terminal.answer (terminal : Terminal File) (file : File) (answer : Answer) : Terminal File :=
  { terminal with
    answers := Function.update terminal.answers file (terminal.answers file ++ [answer]) }

def Terminal.enter (terminal : Terminal File) (file : File) (mode : AccMode)
    (device : ScullDev) : Option (Terminal File) :=
  let opened := (terminal.setFile file (some 0)).answer file ⟨0, []⟩
  if mode = .writeOnly then
    match scullDevReset (device.data.length + 1) terminal.globals device with
    | .returned device _ => some { opened with device := some device }
    | .oops _ => none
    | .running => none
  else some { opened with device := some device }

def terminalStep (terminal : Terminal File) : PrivAction File → Option (Terminal File)
  | .openFile file mode alloc =>
      if terminal.files file = none then
        match terminal.device with
        | some device => terminal.enter file mode device
        | none =>
            if alloc then terminal.enter file mode (.fresh terminal.globals)
            else some (terminal.answer file ⟨-ENOMEM, []⟩)
      else none
  | .call file call =>
      match terminal.files file, terminal.device with
      | some fPos, some device =>
          match call.perform device fPos with
          | .ok reply =>
              some (({ terminal with device := some reply.dev }.setFile file
                (some reply.fPos)).answer file ⟨reply.ret, reply.out⟩)
          | .error _ => none
      | some _, none => none
      | none, _ => none
  | .release file =>
      if terminal.files file = none then none else some (terminal.setFile file none)
  | .ioctl call => some { terminal with globals := (call.reply terminal.globals).globals }

end Terminal

section Isolation

variable {File : Type} {tty : File → Option Nat} {sys next : PrivSys File} {key : Nat}

def PrivSys.terminal (sys : PrivSys File) (tty : File → Option Nat) (key : Nat) :
    Terminal File where
  globals := sys.globals
  device := (Keyed.lookup ScullListitem.key sys.list key).map ScullListitem.device
  files file := if tty file = some key then (sys.files file).map PrivFile.fPos else none
  answers file := if tty file = some key then sys.answers file else []

/-- One item for each key, at an address of its own, and every open file points to the item of
its terminal. -/
structure Cloned (tty : File → Option Nat) (sys : PrivSys File) : Prop where
  keys : (sys.list.map ScullListitem.key).Nodup
  addresses : (sys.list.map ScullListitem.address).Nodup
  fresh : ∀ item ∈ sys.list, item.address < sys.allocated
  files : ∀ file opened, sys.files file = some opened →
    ∃ item ∈ sys.list, item.address = opened.privateData ∧ tty file = some item.key

theorem cloned_loaded (globals : Geometry) : Cloned tty (.loaded File globals) where
  keys := List.nodup_nil
  addresses := List.nodup_nil
  fresh := by
    intro item member
    contradiction
  files := by
    intro file opened found
    contradiction

theorem Cloned.pointed (cloned : Cloned tty sys) {file : File} {opened : PrivFile}
    (found : sys.files file = some opened) :
    ∃ item, Keyed.lookup ScullListitem.address sys.list opened.privateData = some item ∧
      Keyed.lookup ScullListitem.key sys.list item.key = some item ∧
      item.address = opened.privateData ∧ tty file = some item.key := by
  obtain ⟨item, member, address, terminal⟩ := cloned.files file opened found
  refine ⟨item, ?_, Keyed.lookup_of_mem cloned.keys member, address, terminal⟩
  rw [← address]
  exact Keyed.lookup_of_mem cloned.addresses member

theorem terminal_device (cloned : Cloned tty sys) {item : ScullListitem}
    (member : item ∈ sys.list) (own : item.key = key) :
    (sys.terminal tty key).device = some item.device := by
  rw [PrivSys.terminal, ← own, Keyed.lookup_of_mem cloned.keys member]
  rfl

theorem terminal_own_files {file : File} (own : tty file = some key) :
    (sys.terminal tty key).files file = (sys.files file).map PrivFile.fPos := by
  simp only [PrivSys.terminal, if_pos own]

/-! A change of the device at an address. -/

theorem Cloned.setDevice (cloned : Cloned tty sys) (address : Nat) (device : ScullDev) :
    Cloned tty (sys.setDevice address device) where
  keys := by
    have kept := Keyed.map_change ScullListitem.address sys.list address
      (fun item => { item with device := device }) ScullListitem.key fun _ => rfl
    exact kept ▸ cloned.keys
  addresses := by
    have kept := Keyed.map_change ScullListitem.address sys.list address
      (fun item => { item with device := device }) ScullListitem.address fun _ => rfl
    exact kept ▸ cloned.addresses
  fresh := by
    intro item member
    obtain ⟨before, listed, rfl⟩ := List.mem_map.mp member
    have bound := cloned.fresh before listed
    split <;> exact bound
  files := by
    intro file opened found
    obtain ⟨item, member, pointed, terminal⟩ := cloned.files file opened found
    refine ⟨_, List.mem_map_of_mem member, ?_⟩
    split <;> exact ⟨pointed, terminal⟩

theorem terminal_setDevice (cloned : Cloned tty sys) {item : ScullListitem}
    (member : item ∈ sys.list) (device : ScullDev) :
    (sys.setDevice item.address device).terminal tty key =
      if item.key = key then { sys.terminal tty key with device := some device }
      else sys.terminal tty key := by
  have looked := Keyed.lookup_change ScullListitem.address ScullListitem.key sys.list item.address
    (fun item => { item with device := device }) (fun _ => rfl) key
  rw [PrivSys.terminal, PrivSys.setDevice, looked]
  by_cases own : item.key = key
  · rw [if_pos own, ← own, Keyed.lookup_of_mem cloned.keys member, Option.map_some, if_pos rfl]
    rfl
  · rw [if_neg own, PrivSys.terminal, Option.map_map]
    congr 1
    cases found : Keyed.lookup ScullListitem.key sys.list key with
    | none => rfl
    | some other =>
        obtain ⟨listed, holds⟩ := Keyed.lookup_some found
        have apart : other.address ≠ item.address := by
          intro same
          have first := Keyed.lookup_of_mem cloned.addresses listed
          rw [same, Keyed.lookup_of_mem cloned.addresses member, Option.some.injEq] at first
          exact own (first ▸ holds)
        rw [Option.map_some, Option.map_some, Function.comp_apply, if_neg apart]

/-! A new item. -/

theorem Cloned.addListitem (cloned : Cloned tty sys)
    (absent : Keyed.lookup ScullListitem.key sys.list key = none) :
    Cloned tty (sys.addListitem key) where
  keys := List.nodup_cons.mpr ⟨Keyed.lookup_none.mp absent, cloned.keys⟩
  addresses := by
    refine List.nodup_cons.mpr ⟨?_, cloned.addresses⟩
    intro taken
    obtain ⟨item, member, same⟩ := List.mem_map.mp taken
    have bound := cloned.fresh item member
    rw [same] at bound
    exact lt_irrefl _ bound
  fresh := by
    intro item member
    rcases List.mem_cons.mp member with rfl | old
    · exact Nat.lt_succ_self _
    · exact (cloned.fresh item old).trans (Nat.lt_succ_self _)
  files := by
    intro file opened found
    obtain ⟨item, member, pointed, terminal⟩ := cloned.files file opened found
    exact ⟨item, List.mem_cons_of_mem _ member, pointed, terminal⟩

theorem terminal_addListitem (sys : PrivSys File) (new : Nat) :
    (sys.addListitem new).terminal tty key =
      if new = key then { sys.terminal tty key with device := some (.fresh sys.globals) }
      else sys.terminal tty key := by
  split
  · rename_i own
    subst own
    rw [PrivSys.terminal, PrivSys.addListitem, Keyed.lookup_cons_self]
    rfl
  · rename_i apart
    rw [PrivSys.terminal, PrivSys.addListitem, Keyed.lookup_cons_of_ne apart]
    rfl

section Files

variable [DecidableEq File] {file : File}

theorem terminal_setFile (sys : PrivSys File) (file : File) (state : Option PrivFile) :
    (sys.setFile file state).terminal tty key =
      if tty file = some key then (sys.terminal tty key).setFile file (state.map PrivFile.fPos)
      else sys.terminal tty key := by
  have files : ((sys.setFile file state).terminal tty key).files =
      if tty file = some key then
        Function.update (sys.terminal tty key).files file (state.map PrivFile.fPos)
      else (sys.terminal tty key).files := by
    funext other
    simp only [PrivSys.terminal, PrivSys.setFile]
    by_cases same : other = file
    · subst same
      by_cases own : tty other = some key
      · simp only [own, if_true, Function.update_self]
      · simp only [own, if_false]
    · rw [Function.update_of_ne same, ite_apply, Function.update_of_ne same, ite_self]
  split
  · rename_i own
    rw [if_pos own] at files
    rw [Terminal.setFile, ← files]
    rfl
  · rename_i other
    rw [if_neg other] at files
    rw [PrivSys.terminal] at files ⊢
    simp only at files
    rw [files]
    rfl

theorem terminal_answer (sys : PrivSys File) (file : File) (answer : Answer) :
    (sys.answer file answer).terminal tty key =
      if tty file = some key then (sys.terminal tty key).answer file answer
      else sys.terminal tty key := by
  have answers : ((sys.answer file answer).terminal tty key).answers =
      if tty file = some key then
        Function.update (sys.terminal tty key).answers file
          ((sys.terminal tty key).answers file ++ [answer])
      else (sys.terminal tty key).answers := by
    funext other
    simp only [PrivSys.terminal, PrivSys.answer]
    by_cases same : other = file
    · subst same
      by_cases own : tty other = some key
      · simp only [own, if_true, Function.update_self]
      · simp only [own, if_false]
    · rw [Function.update_of_ne same, ite_apply, Function.update_of_ne same, ite_self]
  split
  · rename_i own
    rw [if_pos own] at answers
    rw [Terminal.answer, ← answers]
    rfl
  · rename_i other
    rw [if_neg other] at answers
    rw [PrivSys.terminal] at answers ⊢
    simp only at answers
    rw [answers]
    rfl

theorem Cloned.answer (cloned : Cloned tty sys) (file : File) (answer : Answer) :
    Cloned tty (sys.answer file answer) :=
  ⟨cloned.keys, cloned.addresses, cloned.fresh, cloned.files⟩

theorem Cloned.setFile (cloned : Cloned tty sys) {state : Option PrivFile}
    (pointed : ∀ opened, state = some opened →
      ∃ item ∈ sys.list, item.address = opened.privateData ∧ tty file = some item.key) :
    Cloned tty (sys.setFile file state) where
  keys := cloned.keys
  addresses := cloned.addresses
  fresh := cloned.fresh
  files := by
    intro other opened found
    simp only [PrivSys.setFile] at found
    by_cases same : other = file
    · subst same
      rw [Function.update_self] at found
      exact pointed opened found
    · rw [Function.update_of_ne same] at found
      exact cloned.files other opened found

def PrivSys.opened (sys : PrivSys File) (file : File) (address : Nat) : PrivSys File :=
  (sys.setFile file (some ⟨address, 0⟩)).answer file ⟨0, []⟩

theorem Cloned.opened (cloned : Cloned tty sys) {item : ScullListitem} (member : item ∈ sys.list)
    (terminal : tty file = some item.key) : Cloned tty (sys.opened file item.address) := by
  apply (cloned.setFile _).answer
  intro opened same
  rw [Option.some.injEq] at same
  subst same
  exact ⟨item, member, rfl, terminal⟩

theorem terminal_opened (sys : PrivSys File) (address : Nat) :
    (sys.opened file address).terminal tty key =
      if tty file = some key then
        ((sys.terminal tty key).setFile file (some 0)).answer file ⟨0, []⟩
      else sys.terminal tty key := by
  rw [PrivSys.opened, terminal_answer, terminal_setFile]
  split <;> rfl

theorem scullPrivEnter_spec (key : Nat) (cloned : Cloned tty sys) {item : ScullListitem}
    (member : item ∈ sys.list) (terminal : tty file = some item.key) {mode : AccMode}
    (entered : scullPrivEnter sys file mode item.address = some next) :
    Cloned tty next ∧
      (item.key ≠ key → next.terminal tty key = sys.terminal tty key) ∧
      (item.key = key →
        (sys.terminal tty key).enter file mode item.device = some (next.terminal tty key)) := by
  have opened := cloned.opened member terminal
  have found := Keyed.lookup_of_mem cloned.addresses member
  have shown : (sys.opened file item.address).terminal tty key = _ :=
    terminal_opened sys item.address
  simp only [scullPrivEnter, found] at entered
  rw [← PrivSys.opened] at entered
  split at entered
  · rename_i writing
    split at entered
    · rename_i device visited reset
      rw [Option.some.injEq] at entered
      subst entered
      refine ⟨opened.setDevice _ _, ?_, ?_⟩
      · intro apart
        have other : tty file ≠ some key := by
          rw [terminal, ne_eq, Option.some.injEq]
          exact apart
        rw [terminal_setDevice opened member, if_neg apart, shown, if_neg other]
      · intro own
        rw [terminal_setDevice opened member, if_pos own, shown, terminal, own, if_pos rfl]
        have reset' : scullDevReset (item.device.data.length + 1)
            (sys.terminal tty key).globals item.device = .returned device visited := reset
        simp only [Terminal.enter, if_pos writing, reset']
    · contradiction
    · contradiction
  · rename_i reading
    rw [Option.some.injEq] at entered
    subst entered
    refine ⟨opened, ?_, ?_⟩
    · intro apart
      have other : tty file ≠ some key := by
        rw [terminal, ne_eq, Option.some.injEq]
        exact apart
      rw [shown, if_neg other]
    · intro own
      have device := terminal_device cloned member own
      rw [shown, terminal, own, if_pos rfl]
      simp only [Terminal.enter, if_neg reading, ← device]
      rfl

/-- What one step does: it keeps the items apart, and is a step of the terminal's machine or
leaves what the terminal sees as it was. -/
structure StepSpec (tty : File → Option Nat) (key : Nat) (sys next : PrivSys File)
    (action : PrivAction File) : Prop where
  cloned : Cloned tty next
  hidden : action.ofTerminal tty key = false → next.terminal tty key = sys.terminal tty key
  shown : action.ofTerminal tty key = true →
    terminalStep (sys.terminal tty key) action = some (next.terminal tty key)

theorem openFile_spec (cloned : Cloned tty sys) {mode : AccMode} {alloc : Bool}
    (closed : sys.files file = none)
    (taken : scullPrivOpenData sys (tty file) file mode alloc = some next) :
    StepSpec tty key sys next (.openFile file mode alloc) := by
  have closedHere : tty file = some key → (sys.terminal tty key).files file = none := by
    intro own
    rw [terminal_own_files own, closed, Option.map_none]
  cases terminal : tty file with
  | none =>
      rw [terminal, scullPrivOpenData, Option.some.injEq] at taken
      subst taken
      have other : tty file ≠ some key := by
        rw [terminal]
        exact nofun
      refine ⟨cloned.answer _ _, ?_, ?_⟩
      · intro _
        rw [terminal_answer, if_neg other]
      · intro own
        exact absurd (beq_iff_eq.mp own) other
  | some tag =>
      rw [terminal, scullPrivOpenData] at taken
      cases found : Keyed.lookup ScullListitem.key sys.list tag with
      | some item =>
          obtain ⟨member, tagged⟩ := Keyed.lookup_some found
          subst tagged
          simp only [scullFindListitem, found] at taken
          obtain ⟨kept, hidden, shown⟩ := scullPrivEnter_spec key cloned member terminal taken
          refine ⟨kept, ?_, ?_⟩
          · intro unseen
            apply hidden
            intro own
            rw [PrivAction.ofTerminal, terminal, own, beq_self_eq_true] at unseen
            contradiction
          · intro seen
            have own := Option.some.inj (terminal.symm.trans (beq_iff_eq.mp seen))
            rw [terminalStep, if_pos (closedHere (own ▸ terminal)), terminal_device cloned member own]
            exact shown own
      | none =>
          simp only [scullFindListitem, found] at taken
          cases alloc with
          | false =>
              simp only [Bool.false_eq_true, if_false, Option.some.injEq] at taken
              subst taken
              refine ⟨cloned.answer _ _, ?_, ?_⟩
              · intro unseen
                have other : tty file ≠ some key := beq_eq_false_iff_ne.mp unseen
                rw [terminal_answer, if_neg other]
              · intro seen
                have own : tty file = some key := beq_iff_eq.mp seen
                have tagged := Option.some.inj (terminal.symm.trans own)
                have nothing : (sys.terminal tty key).device = none := by
                  rw [PrivSys.terminal, ← tagged, found]
                  rfl
                rw [terminalStep, if_pos (closedHere own), nothing, terminal_answer, if_pos own]
                rfl
          | true =>
              simp only [if_true] at taken
              have grown := cloned.addListitem found
              have member : (⟨sys.allocated, tag, .fresh sys.globals⟩ : ScullListitem) ∈
                  (sys.addListitem tag).list := List.mem_cons_self
              obtain ⟨kept, hidden, shown⟩ :=
                scullPrivEnter_spec key grown member terminal taken
              refine ⟨kept, ?_, ?_⟩
              · intro unseen
                have other : tag ≠ key := by
                  intro own
                  rw [PrivAction.ofTerminal, terminal, own, beq_self_eq_true] at unseen
                  contradiction
                rw [hidden other, terminal_addListitem, if_neg other]
              · intro seen
                have own : tty file = some key := beq_iff_eq.mp seen
                have tagged := Option.some.inj (terminal.symm.trans own)
                have nothing : (sys.terminal tty key).device = none := by
                  rw [PrivSys.terminal, ← tagged, found]
                  rfl
                rw [terminalStep, if_pos (closedHere own), nothing, ← shown tagged,
                  terminal_addListitem, if_pos tagged]
                rfl

theorem call_spec (cloned : Cloned tty sys) {call : FileCall}
    (taken : scullPrivCall sys file call = some next) :
    StepSpec tty key sys next (.call file call) := by
  rw [scullPrivCall] at taken
  split at taken
  · contradiction
  · rename_i opened here
    obtain ⟨item, byAddress, byKey, pointed, terminal⟩ := cloned.pointed here
    have member := (Keyed.lookup_some byKey).1
    rw [byAddress] at taken
    simp only at taken
    split at taken
    · contradiction
    · rename_i reply replied
      rw [Option.some.injEq] at taken
      subst taken
      have changed := cloned.setDevice opened.privateData reply.dev
      have shown : (sys.setDevice item.address reply.dev).terminal tty key = _ :=
        terminal_setDevice cloned member reply.dev
      rw [pointed] at shown
      refine ⟨?_, ?_, ?_⟩
      · apply (changed.setFile _).answer
        intro after same
        rw [Option.some.injEq] at same
        subst same
        exact changed.files file opened here
      · intro unseen
        have other : tty file ≠ some key := beq_eq_false_iff_ne.mp unseen
        have apart : item.key ≠ key := by
          intro own
          exact other (own ▸ terminal)
        rw [terminal_answer, if_neg other, terminal_setFile, if_neg other, shown, if_neg apart]
      · intro seen
        have own : tty file = some key := beq_iff_eq.mp seen
        have tagged := Option.some.inj (terminal.symm.trans own)
        have fPos : (sys.terminal tty key).files file = some opened.fPos := by
          rw [terminal_own_files own, here, Option.map_some]
        rw [terminalStep, fPos, terminal_device cloned member tagged]
        simp only [replied]
        rw [terminal_answer, if_pos own, terminal_setFile, if_pos own, shown, if_pos tagged,
          Option.map_some]

theorem privStep_spec (key : Nat) (cloned : Cloned tty sys) {action : PrivAction File}
    (taken : privStep tty sys action = some next) : StepSpec tty key sys next action := by
  cases action with
  | openFile file mode alloc =>
      rw [privStep, Option.ite_none_right_eq_some] at taken
      exact openFile_spec cloned taken.1 taken.2
  | call file call => exact call_spec cloned taken
  | release file =>
      rw [privStep, Option.ite_none_left_eq_some, Option.some.injEq] at taken
      obtain ⟨open_, rfl⟩ := taken
      refine ⟨cloned.setFile nofun, ?_, ?_⟩
      · intro unseen
        rw [terminal_setFile, if_neg (beq_eq_false_iff_ne.mp unseen)]
      · intro seen
        have own : tty file = some key := beq_iff_eq.mp seen
        have still : (sys.terminal tty key).files file ≠ none := by
          rw [terminal_own_files own, ne_eq, Option.map_eq_none_iff]
          exact open_
        rw [terminalStep, if_neg still, terminal_setFile, if_pos own, Option.map_none]
  | ioctl call =>
      rw [privStep, Option.some.injEq] at taken
      subst taken
      exact ⟨⟨cloned.keys, cloned.addresses, cloned.fresh, cloned.files⟩, nofun, fun _ => rfl⟩

theorem privStep_projects (tty : File → Option Nat) (key : Nat) :
    StepMachine.Projects (privStep tty) terminalStep (Cloned tty)
      (fun sys => sys.terminal tty key) (fun action => action.ofTerminal tty key) where
  kept := fun _ _ _ cloned taken => (privStep_spec key cloned taken).cloned
  hidden := fun _ _ _ cloned unseen taken => (privStep_spec key cloned taken).hidden unseen
  shown := fun _ _ _ cloned seen taken => (privStep_spec key cloned taken).shown seen

/-- What the processes of a terminal see of scullpriv is a scull device that only their own
calls reach, and the parameters that every ioctl sets. -/
theorem scullpriv_isolated (tty : File → Option Nat) (globals : Geometry) (key : Nat)
    (actions : List (PrivAction File)) (final : PrivSys File)
    (ran : StepMachine.run (privStep tty) (.loaded File globals) actions = some final) :
    StepMachine.run terminalStep (.loaded File globals)
      (actions.filter fun action => action.ofTerminal tty key) = some (final.terminal tty key) := by
  have started : (PrivSys.loaded File globals).terminal tty key = .loaded File globals := by
    simp only [PrivSys.terminal, PrivSys.loaded, Option.map_none, ite_self, Terminal.loaded]
    rfl
  rw [← started]
  exact (privStep_projects tty key).run (cloned_loaded globals) ran

end Files

/-- Two terminals at once; each reads what it wrote itself. -/
def twoTerminals : List (PrivAction Bool) :=
  [.openFile false .readWrite true, .call false (.write (.good fun _ => 0) [7]),
    .openFile true .writeOnly true, .call true (.write (.good fun _ => 0) [8]),
    .call false (.llseek 0 SEEK_SET), .call false (.read (.good fun _ => 0) 1), .release true]

theorem scullpriv_isolated_two :
    ∃ final, StepMachine.run (privStep fun file => some file.toNat)
        (.loaded Bool ⟨4, 2⟩) twoTerminals = some final ∧
      final.answers false = [⟨0, []⟩, ⟨1, []⟩, ⟨0, []⟩, ⟨1, [7]⟩] ∧
      StepMachine.run terminalStep (.loaded Bool ⟨4, 2⟩)
        (twoTerminals.filter fun action => action.ofTerminal (fun file => some file.toNat) 0) =
          some (final.terminal (fun file => some file.toNat) 0) := by
  have ran : (StepMachine.run (privStep fun file => some file.toNat) (.loaded Bool ⟨4, 2⟩)
      twoTerminals).map (fun final => final.answers false) =
        some [⟨0, []⟩, ⟨1, []⟩, ⟨0, []⟩, ⟨1, [7]⟩] := by decide
  obtain ⟨final, reached, answers⟩ := Option.map_eq_some_iff.mp ran
  exact ⟨final, reached, answers, scullpriv_isolated _ _ _ _ _ reached⟩

end Isolation

end Ldd3.Access
