import Mathlib.Tactic
import Ldd3.Lib.StepMachine
import Ldd3.Uac.Core

/-!
What goes out in the isochronous packets against what `uac_write` accepted.
-/

namespace Ldd3.Uac

def Packet.unpadded (packet : Packet) : List Byte := packet.bytes.take packet.held

def Packet.padding (packet : Packet) : List Byte := packet.bytes.drop packet.held

section Machine

variable {Pid : Type}

/-- The packets carry the accepted stream, each byte of it once and in order, padded with zeros
where the ring held too little; what they have not carried yet waits in the ring, and no read
took a byte that was not yet sent. -/
structure StreamCarried (sys : UacSys Pid) : Prop where
  once : sys.sent = (List.range sys.sent.length).map some
  stream : sys.packets.flatMap Packet.unpadded = sys.stream.take sys.sent.length
  unsent : sys.unsent = sys.stream.drop sys.sent.length
  padded : ∀ packet ∈ sys.packets, ∀ byte ∈ packet.padding, byte = 0
  removedSent : ∀ position, some position ∈ sys.removed → position < sys.sent.length

/-- A packet takes no byte that the tee put back, and a read takes nothing else. -/
def KeepsStream (sys : UacSys Pid) : UacAction Pid → Prop
  | .fillPacket => ∀ cell ∈ sys.ring.take BUF_SIZE, cell.teed = false
  | .proceed pid _ _ =>
      match sys.points pid with
      | .removing count => ∀ cell ∈ sys.ring.take (min sys.ring.length count), cell.teed = true
      | _ => True
  | _ => True

instance (sys : UacSys Pid) (action : UacAction Pid) : Decidable (KeepsStream sys action) := by
  cases action with
  | proceed pid interrupted fault =>
      simp only [KeepsStream]
      split <;> infer_instance
  | _ =>
      simp only [KeepsStream]
      infer_instance

structure RingInvariant (sys : UacSys Pid) : Prop where
  fresh : (sys.ring.filter fun cell => !cell.teed).map Cell.position =
    (List.range' sys.sent.length (sys.accepted.length - sys.sent.length)).map some
  copies : ∀ cell ∈ sys.ring, cell.teed = true →
    ∀ position, cell.position = some position → position < sys.sent.length
  values : ∀ cell ∈ sys.ring, ∀ position, cell.position = some position →
    sys.stream[position]? = some cell.value
  behind : sys.sent.length ≤ sys.accepted.length

theorem ringInvariant_probed : RingInvariant (.probed Pid) where
  fresh := rfl
  copies := by simp [UacSys.probed]
  values := by simp [UacSys.probed]
  behind := Nat.le_refl _

theorem isoFrame_unpadded (ring : List Cell) :
    ((isoFrame ring).map Cell.value).take ring.length = (ring.take BUF_SIZE).map Cell.value := by
  rw [← List.map_take, isoFrame, List.take_append, List.take_take, List.length_take]
  congr 1
  by_cases short : ring.length ≤ BUF_SIZE
  · have none : ring.length - min BUF_SIZE ring.length = 0 := by omega
    rw [none, List.take_zero, List.append_nil, Nat.min_eq_left short, List.take_length,
      List.take_of_length_le short]
  · have none : BUF_SIZE - ring.length = 0 := by omega
    rw [none, List.replicate_zero, List.take_nil, List.append_nil, Nat.min_eq_right (by omega)]

theorem isoFrame_padding (ring : List Cell) :
    ∀ byte ∈ ((isoFrame ring).map Cell.value).drop ring.length, byte = 0 := by
  intro byte member
  rw [← List.map_drop, isoFrame, List.drop_append, List.length_take,
    List.drop_of_length_le (by simp), List.nil_append, List.drop_replicate, List.map_replicate]
    at member
  exact List.eq_of_mem_replicate member

theorem writtenCells_position (position : Nat) (data : List Byte) :
    (writtenCells position data).map Cell.position =
      (List.range' position data.length).map some := by
  rw [writtenCells, List.map_map, ← List.zipIdx_map_snd position data, List.map_map]
  rfl

theorem writtenCells_teed {position : Nat} {data : List Byte} {cell : Cell}
    (member : cell ∈ writtenCells position data) : cell.teed = false := by
  obtain ⟨entry, _, rfl⟩ := List.mem_map.mp member
  rfl

theorem writtenCells_value {stream data : List Byte} {cell : Cell} {position : Nat}
    (member : cell ∈ writtenCells stream.length data) (here : cell.position = some position) :
    (stream ++ data)[position]? = some cell.value := by
  obtain ⟨⟨value, index⟩, found, rfl⟩ := List.mem_map.mp member
  have placed := List.mem_zipIdx_iff_le_and_getElem?_sub.mp found
  simp only [Option.some.injEq] at here
  subst here
  rw [List.getElem?_append_right placed.1]
  exact placed.2

theorem values_of_positions {stream : List Byte} {start : Nat} {cells : List Cell}
    (positions : cells.map Cell.position = (List.range' start cells.length).map some)
    (values : ∀ cell ∈ cells, ∀ position, cell.position = some position →
      stream[position]? = some cell.value) :
    cells.map Cell.value = (stream.drop start).take cells.length := by
  induction cells generalizing start with
  | nil => rfl
  | cons cell rest ih =>
      simp only [List.map_cons, List.length_cons, List.range'_succ, List.cons.injEq] at positions
      have here := values cell List.mem_cons_self start positions.1
      obtain ⟨inside, found⟩ := List.getElem?_eq_some_iff.mp here
      have later := ih positions.2 fun other member => values other (List.mem_cons_of_mem _ member)
      rw [List.map_cons, later, List.length_cons, List.drop_eq_getElem_cons inside,
        List.take_succ_cons, found]

@[simp] theorem stream_length (sys : UacSys Pid) : sys.stream.length = sys.accepted.length :=
  List.length_map _

@[simp] theorem stream_uacAccept (sys : UacSys Pid) (pid : Pid) (data : List Byte) :
    (uacAccept sys pid data).stream = sys.stream ++ data := by
  simp [UacSys.stream, uacAccept, Function.comp_def]

theorem RingInvariant.unsent {sys : UacSys Pid} (invariant : RingInvariant sys) :
    sys.unsent = sys.stream.drop sys.sent.length := by
  have fresh := invariant.fresh
  have length := congrArg List.length fresh
  rw [List.length_map, List.length_map, List.length_range'] at length
  rw [← length] at fresh
  rw [UacSys.unsent, values_of_positions fresh fun cell member =>
    invariant.values cell (List.mem_of_mem_filter member)]
  exact List.take_of_length_le (by rw [List.length_drop, stream_length]; omega)

theorem RingInvariant.taken {sys : UacSys Pid} (invariant : RingInvariant sys)
    (keeps : ∀ cell ∈ sys.ring.take BUF_SIZE, cell.teed = false) :
    (sys.ring.take BUF_SIZE).map Cell.position =
        (List.range' sys.sent.length (sys.ring.take BUF_SIZE).length).map some ∧
      ((sys.ring.drop BUF_SIZE).filter fun cell => !cell.teed).map Cell.position =
        (List.range' (sys.sent.length + (sys.ring.take BUF_SIZE).length)
          (sys.accepted.length - (sys.sent.length + (sys.ring.take BUF_SIZE).length))).map some ∧
      sys.sent.length + (sys.ring.take BUF_SIZE).length ≤ sys.accepted.length := by
  have behind := invariant.behind
  have parts := invariant.fresh
  have all : (sys.ring.take BUF_SIZE).filter (fun cell => !cell.teed) = sys.ring.take BUF_SIZE := by
    apply List.filter_eq_self.mpr
    intro cell member
    rw [keeps cell member]
    rfl
  conv at parts =>
    lhs
    rw [← List.take_append_drop BUF_SIZE sys.ring, List.filter_append, all, List.map_append]
  obtain ⟨before, after, whole, first, second⟩ := List.map_eq_append_iff.mp parts.symm
  obtain ⟨count, bound, rfl, rfl⟩ := List.range'_eq_append_iff.mp whole
  have length : count = (sys.ring.take BUF_SIZE).length := by
    have lengths := congrArg List.length first
    rwa [List.length_map, List.length_map, List.length_range'] at lengths
  subst length
  refine ⟨first.symm, ?_, by omega⟩
  rw [← second, Nat.mul_one, Nat.sub_add_eq]

theorem once_append_iff {sent taken : List (Option Nat)}
    (once : sent = (List.range sent.length).map some) :
    sent ++ taken = (List.range (sent ++ taken).length).map some ↔
      taken = (List.range' sent.length taken.length).map some := by
  rw [List.length_append, List.range_eq_range', ← List.range'_append_1, Nat.zero_add,
    List.map_append, ← List.range_eq_range', ← once, List.append_cancel_left_eq]

theorem RingInvariant.packet_fresh {sys : UacSys Pid} (invariant : RingInvariant sys)
    (good : StreamCarried sys) (goodNext : StreamCarried (uacFillIsoFrame sys)) :
    ∀ cell ∈ sys.ring.take BUF_SIZE, cell.teed = false := by
  intro cell member
  have positions := (once_append_iff good.once).mp goodNext.once
  have placed : cell.position ∈ (sys.ring.take BUF_SIZE).map Cell.position :=
    List.mem_map_of_mem member
  rw [positions] at placed
  obtain ⟨position, inside, here⟩ := List.mem_map.mp placed
  rw [Bool.eq_false_iff]
  intro teed
  have old := invariant.copies cell (List.mem_of_mem_take member) teed position here.symm
  have new := (List.mem_range'_1.mp inside).1
  omega

theorem RingInvariant.packet {sys : UacSys Pid} (invariant : RingInvariant sys)
    (keeps : ∀ cell ∈ sys.ring.take BUF_SIZE, cell.teed = false) :
    RingInvariant (uacFillIsoFrame sys) := by
  obtain ⟨positions, rest, behind⟩ := invariant.taken keeps
  have sent : (uacFillIsoFrame sys).sent.length =
      sys.sent.length + (sys.ring.take BUF_SIZE).length := by
    simp only [uacFillIsoFrame, List.length_append, List.length_map]
  have inRing : ∀ cell ∈ (uacFillIsoFrame sys).ring, cell ∈ sys.ring.drop BUF_SIZE ∨
      ∃ original ∈ isoFrame sys.ring, original.tee = cell := by
    intro cell member
    rcases List.mem_append.mp member with old | new
    · exact Or.inl old
    · exact Or.inr (List.mem_map.mp (List.mem_of_mem_take new))
  constructor
  · have copies : ∀ room, (((isoFrame sys.ring).map Cell.tee).take room).filter
        (fun cell => !cell.teed) = [] := by
      intro room
      apply List.filter_eq_nil_iff.mpr
      intro cell member
      obtain ⟨original, _, rfl⟩ := List.mem_map.mp (List.mem_of_mem_take member)
      simp only [Cell.tee, Bool.not_true, Bool.false_eq_true, not_false_eq_true]
    rw [sent, uacFillIsoFrame, kfifoIn, List.filter_append, copies, List.append_nil]
    exact rest
  · intro cell member teed position here
    rw [sent]
    rcases inRing cell member with old | ⟨original, framed, rfl⟩
    · have before := invariant.copies cell (List.mem_of_mem_drop old) teed position here
      omega
    · rcases List.mem_append.mp framed with taken | padding
      · have placed : some position ∈ (sys.ring.take BUF_SIZE).map Cell.position :=
          List.mem_map.mpr ⟨original, taken, here⟩
        rw [positions] at placed
        obtain ⟨other, inside, same⟩ := List.mem_map.mp placed
        simp only [Option.some.injEq] at same
        subst same
        exact (List.mem_range'_1.mp inside).2
      · rw [List.eq_of_mem_replicate padding] at here
        contradiction
  · intro cell member position here
    rcases inRing cell member with old | ⟨original, framed, rfl⟩
    · exact invariant.values cell (List.mem_of_mem_drop old) position here
    · rcases List.mem_append.mp framed with taken | padding
      · exact invariant.values original (List.mem_of_mem_take taken) position here
      · rw [List.eq_of_mem_replicate padding] at here
        contradiction
  · rw [sent]
    exact behind

theorem RingInvariant.packet_streamCarried {sys : UacSys Pid} (invariant : RingInvariant sys)
    (good : StreamCarried sys) (keeps : ∀ cell ∈ sys.ring.take BUF_SIZE, cell.teed = false) :
    StreamCarried (uacFillIsoFrame sys) := by
  obtain ⟨positions, _, _⟩ := invariant.taken keeps
  constructor
  · apply (once_append_iff good.once).mpr
    rw [List.length_map]
    exact positions
  · have values := values_of_positions positions fun cell member =>
      invariant.values cell (List.mem_of_mem_take member)
    have frame : Packet.unpadded ⟨sys.ring.length, (isoFrame sys.ring).map Cell.value⟩ =
        (sys.stream.drop sys.sent.length).take (sys.ring.take BUF_SIZE).length :=
      (isoFrame_unpadded sys.ring).trans values
    simp only [uacFillIsoFrame, List.flatMap_append, List.flatMap_singleton, good.stream, frame,
      List.length_append, List.length_map, List.take_add]
    rfl
  · exact (invariant.packet keeps).unsent
  · intro packet member byte inside
    rcases List.mem_append.mp member with old | new
    · exact good.padded packet old byte inside
    · rw [List.mem_singleton] at new
      subst new
      exact isoFrame_padding sys.ring byte inside
  · intro position member
    have sent := good.removedSent position member
    simp only [uacFillIsoFrame, List.length_append]
    omega

theorem RingInvariant.accept {sys : UacSys Pid} (invariant : RingInvariant sys) (pid : Pid)
    (data : List Byte) : RingInvariant (uacAccept sys pid data) := by
  have behind := invariant.behind
  constructor
  · have all : (writtenCells sys.accepted.length data).filter (fun cell => !cell.teed) =
        writtenCells sys.accepted.length data := by
      apply List.filter_eq_self.mpr
      intro cell member
      rw [writtenCells_teed member]
      rfl
    have length : sys.accepted.length + data.length - sys.sent.length =
        sys.accepted.length - sys.sent.length + data.length := by omega
    have next : sys.sent.length + (sys.accepted.length - sys.sent.length) =
        sys.accepted.length := by omega
    simp only [uacAccept, List.filter_append, all, List.map_append, invariant.fresh,
      writtenCells_position, List.length_append, List.length_map]
    rw [length, ← List.range'_append_1, next, List.map_append]
  · intro cell member teed position here
    rcases List.mem_append.mp member with old | new
    · exact invariant.copies cell old teed position here
    · rw [writtenCells_teed new] at teed
      contradiction
  · intro cell member position here
    rw [stream_uacAccept]
    rcases List.mem_append.mp member with old | new
    · have found := invariant.values cell old position here
      obtain ⟨inside, _⟩ := List.getElem?_eq_some_iff.mp found
      rw [List.getElem?_append_left inside]
      exact found
    · rw [← stream_length] at new
      exact writtenCells_value new here
  · simp only [uacAccept, List.length_append]
    omega

theorem RingInvariant.accept_streamCarried {sys : UacSys Pid} (invariant : RingInvariant sys)
    (good : StreamCarried sys) (pid : Pid) (data : List Byte) :
    StreamCarried (uacAccept sys pid data) where
  once := good.once
  stream := by
    have behind : sys.sent.length ≤ sys.stream.length := by
      rw [stream_length]
      exact invariant.behind
    rw [stream_uacAccept]
    exact good.stream.trans (List.take_append_of_le_length behind).symm
  unsent := (invariant.accept pid data).unsent
  padded := good.padded
  removedSent := good.removedSent

theorem RingInvariant.fresh_unsent {sys : UacSys Pid} (invariant : RingInvariant sys) {cell : Cell}
    (member : cell ∈ sys.ring) (fresh : cell.teed = false) :
    ∃ position, cell.position = some position ∧ sys.sent.length ≤ position := by
  have kept : cell ∈ sys.ring.filter fun cell => !cell.teed := by
    rw [List.mem_filter, fresh]
    exact ⟨member, rfl⟩
  have placed := List.mem_map_of_mem (f := Cell.position) kept
  rw [invariant.fresh] at placed
  obtain ⟨position, inside, here⟩ := List.mem_map.mp placed
  exact ⟨position, here.symm, (List.mem_range'_1.mp inside).1⟩

theorem RingInvariant.remove_teed {sys : UacSys Pid} (invariant : RingInvariant sys) {count : Nat}
    (goodNext : StreamCarried (uacRemove sys count)) :
    ∀ cell ∈ sys.ring.take count, cell.teed = true := by
  intro cell member
  rw [← Bool.not_eq_false]
  intro fresh
  obtain ⟨position, here, unsent⟩ := invariant.fresh_unsent (List.mem_of_mem_take member) fresh
  have removed : some position ∈ (uacRemove sys count).removed :=
    List.mem_append_right _ (List.mem_map.mpr ⟨cell, member, here⟩)
  have sent := goodNext.removedSent position removed
  simp only [uacRemove] at sent
  omega

theorem RingInvariant.remove {sys : UacSys Pid} (invariant : RingInvariant sys) {count : Nat}
    (keeps : ∀ cell ∈ sys.ring.take count, cell.teed = true) :
    RingInvariant (uacRemove sys count) where
  fresh := by
    have none : (sys.ring.take count).filter (fun cell => !cell.teed) = [] := by
      apply List.filter_eq_nil_iff.mpr
      intro cell member
      rw [keeps cell member]
      simp only [Bool.not_true, Bool.false_eq_true, not_false_eq_true]
    have fresh := invariant.fresh
    rw [← List.take_append_drop count sys.ring, List.filter_append, none, List.nil_append] at fresh
    exact fresh
  copies := fun cell member => invariant.copies cell (List.mem_of_mem_drop member)
  values := fun cell member => invariant.values cell (List.mem_of_mem_drop member)
  behind := invariant.behind

theorem RingInvariant.remove_streamCarried {sys : UacSys Pid} (invariant : RingInvariant sys)
    (good : StreamCarried sys) {count : Nat} (keeps : ∀ cell ∈ sys.ring.take count, cell.teed = true) :
    StreamCarried (uacRemove sys count) where
  once := good.once
  stream := good.stream
  unsent := (invariant.remove keeps).unsent
  padded := good.padded
  removedSent := by
    intro position member
    rcases List.mem_append.mp member with old | new
    · exact good.removedSent position old
    · obtain ⟨cell, taken, here⟩ := List.mem_map.mp new
      exact invariant.copies cell (List.mem_of_mem_take taken) (keeps cell taken) position here

structure SameStream (sys next : UacSys Pid) : Prop where
  ring : next.ring = sys.ring
  accepted : next.accepted = sys.accepted
  packets : next.packets = sys.packets
  sent : next.sent = sys.sent
  removed : next.removed = sys.removed

theorem SameStream.symm {sys next : UacSys Pid} (same : SameStream sys next) :
    SameStream next sys :=
  ⟨same.ring.symm, same.accepted.symm, same.packets.symm, same.sent.symm, same.removed.symm⟩

theorem SameStream.streamCarried {sys next : UacSys Pid} (same : SameStream sys next)
    (good : StreamCarried sys) : StreamCarried next where
  once := by
    rw [same.sent]
    exact good.once
  stream := by
    rw [same.packets, UacSys.stream, same.accepted, same.sent]
    exact good.stream
  unsent := by
    rw [UacSys.unsent, same.ring, UacSys.stream, same.accepted, same.sent]
    exact good.unsent
  padded := by
    rw [same.packets]
    exact good.padded
  removedSent := by
    rw [same.removed, same.sent]
    exact good.removedSent

theorem SameStream.streamCarried_iff {sys next : UacSys Pid} (same : SameStream sys next) :
    StreamCarried next ↔ StreamCarried sys :=
  ⟨same.symm.streamCarried, same.streamCarried⟩

theorem SameStream.ringInvariant {sys next : UacSys Pid} (same : SameStream sys next)
    (invariant : RingInvariant sys) : RingInvariant next where
  fresh := by
    rw [same.ring, same.sent, same.accepted]
    exact invariant.fresh
  copies := by
    rw [same.ring, same.sent]
    exact invariant.copies
  values := by
    rw [same.ring, UacSys.stream, same.accepted]
    exact invariant.values
  behind := by
    rw [same.sent, same.accepted]
    exact invariant.behind

inductive UacMove (sys : UacSys Pid) : UacAction Pid → UacSys Pid → Prop
  | aside {action : UacAction Pid} {next : UacSys Pid} (keeps : KeepsStream sys action)
      (same : SameStream sys next) : UacMove sys action next
  | packet : UacMove sys .fillPacket (uacFillIsoFrame sys)
  | accept {action : UacAction Pid} {next : UacSys Pid} (keeps : KeepsStream sys action)
      (pid : Pid) (data : List Byte) (same : SameStream (uacAccept sys pid data) next) :
      UacMove sys action next
  | remove {pid : Pid} {interrupted fault : Bool} {count : Nat} {next : UacSys Pid}
      (here : sys.points pid = .removing count)
      (same : SameStream (uacRemove sys (min sys.ring.length count)) next) :
      UacMove sys (.proceed pid interrupted fault) next

theorem SameStream.trans {sys middle next : UacSys Pid} (first : SameStream sys middle)
    (second : SameStream middle next) : SameStream sys next :=
  ⟨second.ring.trans first.ring, second.accepted.trans first.accepted,
    second.packets.trans first.packets, second.sent.trans first.sent,
    second.removed.trans first.removed⟩

theorem UacMove.extend {sys after next : UacSys Pid} {pid : Pid} {interrupted fault : Bool}
    (move : UacMove sys (.proceed pid interrupted fault) after) (same : SameStream after next) :
    UacMove sys (.proceed pid interrupted fault) next := by
  cases move with
  | aside keeps before => exact .aside keeps (before.trans same)
  | accept keeps pid data before => exact .accept keeps pid data (before.trans same)
  | remove here before => exact .remove here (before.trans same)

variable [DecidableEq Pid]

theorem sameStream_setPoint (sys : UacSys Pid) (pid : Pid) (point : UacPoint) :
    SameStream sys (sys.setPoint pid point) := ⟨rfl, rfl, rfl, rfl, rfl⟩

theorem sameStream_recordReturn (sys : UacSys Pid) (pid : Pid) (before : UacPoint) :
    SameStream sys (sys.recordReturn pid before) := by
  simp only [UacSys.recordReturn]
  split <;> exact ⟨rfl, rfl, rfl, rfl, rfl⟩

theorem uacProceed_move {sys next : UacSys Pid} {pid : Pid} {interrupted fault : Bool}
    (taken : uacProceed sys pid interrupted fault (sys.points pid) = some next) :
    UacMove sys (.proceed pid interrupted fault) next := by
  cases point : sys.points pid with
  | removing count =>
      rw [point] at taken
      simp only [uacProceed] at taken
      split at taken
      · contradiction
      · rw [Option.some.injEq] at taken
        subst taken
        exact .remove point (sameStream_setPoint _ _ _)
  | writing buf off =>
      have keeps : KeepsStream sys (.proceed pid interrupted fault) := by
        simp only [KeepsStream, point]
      rw [point] at taken
      simp only [uacProceed] at taken
      repeat' split at taken
      all_goals first
        | contradiction
        | rw [Option.some.injEq] at taken
          subst taken
      · exact .aside keeps (sameStream_setPoint _ _ _)
      · exact .aside keeps (sameStream_setPoint _ _ _)
      · exact .aside keeps (sameStream_setPoint _ _ _)
      · exact .aside keeps (sameStream_setPoint _ _ _)
      · exact .accept keeps pid _ (sameStream_setPoint _ _ _)
  | _ =>
      have keeps : KeepsStream sys (.proceed pid interrupted fault) := by
        simp only [KeepsStream, point]
      rw [point] at taken
      simp only [uacProceed] at taken
      repeat' split at taken
      all_goals first
        | contradiction
        | rw [Option.some.injEq] at taken
          subst taken
          exact .aside keeps (sameStream_setPoint _ _ _)

theorem uacStep_move {sys next : UacSys Pid} {action : UacAction Pid}
    (taken : uacStep sys action = some next) : UacMove sys action next := by
  cases action with
  | proceed pid interrupted fault =>
      obtain ⟨after, proceeded, rfl⟩ := Option.map_eq_some_iff.mp taken
      exact (uacProceed_move proceeded).extend (sameStream_recordReturn _ _ _)
  | fillPacket =>
      simp only [uacStep] at taken
      split at taken
      · rw [Option.some.injEq] at taken
        subst taken
        exact .packet
      · contradiction
  | callback status numberOfPackets =>
      simp only [uacStep, uacCallback] at taken
      repeat' split at taken
      all_goals first
        | contradiction
        | rw [Option.some.injEq] at taken
          subst taken
          exact .aside trivial ⟨rfl, rfl, rfl, rfl, rfl⟩
  | shutdown =>
      simp only [uacStep, Option.some.injEq] at taken
      subst taken
      exact .aside trivial ⟨rfl, rfl, rfl, rfl, rfl⟩
  | write pid data | read pid count =>
      simp only [uacStep] at taken
      split at taken
      · rw [Option.some.injEq] at taken
        subst taken
        exact .aside trivial (sameStream_setPoint _ _ _)
      · contradiction

/-! What a process counts as written. -/

/-- The bytes accepted from each process are those that its calls reported as written, and those
that the call under way has counted. -/
def WritesCounted (sys : UacSys Pid) : Prop :=
  ∀ pid, sys.acceptedFrom pid = sys.reported pid ++ (sys.points pid).counted

/-- The stream that the packets carry is made of the bytes that `uac_write` counts. -/
structure StreamSent (sys : UacSys Pid) : Prop extends StreamCarried sys where
  counted : WritesCounted sys

theorem streamSent_probed : StreamSent (.probed Pid) where
  counted := fun _ => rfl
  once := rfl
  stream := rfl
  unsent := rfl
  padded := by simp [UacSys.probed]
  removedSent := by simp [UacSys.probed]

theorem counted_setPoint {sys : UacSys Pid} (counted : WritesCounted sys) {pid : Pid}
    {point : UacPoint} (kept : point.counted = (sys.points pid).counted) :
    WritesCounted (sys.setPoint pid point) := by
  intro other
  have before := counted other
  by_cases here : other = pid
  · subst here
    simp only [UacSys.setPoint, Function.update_self, kept]
    exact before
  · simp only [UacSys.setPoint, Function.update_of_ne here]
    exact before

theorem recordReturn_aside {sys : UacSys Pid} {pid : Pid} {before : UacPoint}
    (aside : before.buffer = none ∨ (sys.points pid).isOver = false) :
    sys.recordReturn pid before = sys := by
  simp only [UacSys.recordReturn]
  split
  · rename_i here there
    rcases aside with none | under
    · rw [none] at here
      contradiction
    · rw [there] at under
      contradiction
  · rfl

theorem counted_return {sys : UacSys Pid} (counted : WritesCounted sys) {pid : Pid}
    {buf : List Byte} {ret : Int} (here : (sys.points pid).buffer = some buf)
    (returns : (sys.points pid).counted = buf.take ret.toNat) :
    WritesCounted ((sys.setPoint pid (.returned ret [])).recordReturn pid (sys.points pid)) := by
  intro other
  have before := counted other
  simp only [UacSys.recordReturn, here, UacSys.setPoint, Function.update_self]
  by_cases same : other = pid
  · subst same
    rw [returns] at before
    simp only [Function.update_self, UacPoint.counted, List.append_nil]
    exact before
  · simp only [Function.update_of_ne same]
    exact before

theorem acceptedFrom_uacAccept (sys : UacSys Pid) (pid : Pid) (data : List Byte) (other : Pid) :
    (uacAccept sys pid data).acceptedFrom other =
      sys.acceptedFrom other ++ if other = pid then data else [] := by
  simp only [UacSys.acceptedFrom, uacAccept, List.filter_append, List.map_append,
    List.filter_map, Function.comp_def]
  by_cases here : other = pid
  · simp [here, Function.comp_def]
  · simp [here, Ne.symm here]

theorem counted_accept {sys : UacSys Pid} (counted : WritesCounted sys) {pid : Pid}
    {buf : List Byte} {off : Nat} (here : sys.points pid = .writing buf off) (chunk : Nat) :
    WritesCounted ((uacAccept sys pid ((buf.drop off).take chunk)).setPoint pid
      (.writing buf (off + chunk))) := by
  intro other
  have before := counted other
  show (uacAccept sys pid ((buf.drop off).take chunk)).acceptedFrom other = _
  rw [acceptedFrom_uacAccept, before]
  by_cases same : other = pid
  · subst same
    simp only [here, UacSys.setPoint, Function.update_self, UacPoint.counted, uacAccept, ↓reduceIte,
      List.append_assoc, List.take_add]
  · simp only [UacSys.setPoint, Function.update_of_ne same, same, ↓reduceIte, List.append_nil,
      uacAccept]

theorem take_early (buf : List Byte) (off : Nat) {error : Int} (negative : error < 0) :
    buf.take off = buf.take (if off = 0 then error else (off : Int)).toNat := by
  split
  · rename_i first
    rw [first, Int.toNat_of_nonpos negative.le]
  · rfl

theorem uacProceed_counted {sys next : UacSys Pid} {pid : Pid} {interrupted fault : Bool}
    (counted : WritesCounted sys)
    (taken : uacProceed sys pid interrupted fault (sys.points pid) = some next) :
    WritesCounted (next.recordReturn pid (sys.points pid)) := by
  have goesOn {base : UacSys Pid} {point : UacPoint} (under : point.isOver = false)
      (after : WritesCounted (base.setPoint pid point)) :
      WritesCounted ((base.setPoint pid point).recordReturn pid (sys.points pid)) := by
    have there : ((base.setPoint pid point).points pid).isOver = false := by
      rw [← under]
      exact congrArg UacPoint.isOver (Function.update_self _ _ _)
    rwa [recordReturn_aside (.inr there)]
  have reads (none : (sys.points pid).buffer = none) (after : WritesCounted next) :
      WritesCounted (next.recordReturn pid (sys.points pid)) := by
    rwa [recordReturn_aside (.inl none)]
  cases here : sys.points pid with
  | writing buf off =>
      rw [here] at taken
      simp only [uacProceed] at taken
      split at taken
      · rw [← Option.some.inj taken, ← here]
        exact counted_return counted (by rw [here]; rfl) (by rw [here]; rfl)
      split at taken
      · rw [← Option.some.inj taken, ← here]
        exact counted_return counted (by rw [here]; rfl)
          (by rw [here]; exact take_early buf off (by decide))
      split at taken
      · contradiction
      split at taken
      · rw [← Option.some.inj taken, ← here]
        exact goesOn rfl (counted_setPoint counted (by rw [here]; rfl))
      · rw [← Option.some.inj taken, ← here, List.take_take,
          Nat.min_eq_left (by rw [List.length_take]; omega)]
        exact goesOn rfl (counted_accept counted here _)
  | writeWait buf off =>
      rw [here] at taken
      simp only [uacProceed] at taken
      split at taken
      · rw [← Option.some.inj taken, ← here]
        exact goesOn rfl (counted_setPoint counted (by rw [here]; rfl))
      split at taken
      · rw [← Option.some.inj taken, ← here]
        exact counted_return counted (by rw [here]; rfl)
          (by rw [here]; exact take_early buf off (by decide))
      · contradiction
  | removing count =>
      rw [← here]
      refine reads (by rw [here]; rfl) ?_
      rw [here] at taken
      simp only [uacProceed] at taken
      split at taken
      · contradiction
      · rw [← Option.some.inj taken]
        have removed : WritesCounted (uacRemove sys (min sys.ring.length count)) := counted
        refine counted_setPoint removed ?_
        split <;> exact (congrArg UacPoint.counted here).symm
  | _ =>
      rw [← here]
      refine reads (by rw [here]; rfl) ?_
      rw [here] at taken
      simp only [uacProceed] at taken
      repeat' split at taken
      all_goals first
        | contradiction
        | rw [← Option.some.inj taken]
          exact counted_setPoint counted (by rw [here]; rfl)

theorem uacStep_counted {sys next : UacSys Pid} {action : UacAction Pid}
    (counted : WritesCounted sys) (taken : uacStep sys action = some next) :
    WritesCounted next := by
  have begins {pid : Pid} (ended : (sys.points pid).isOver = true) :
      (sys.points pid).counted = [] := by
    cases here : sys.points pid with
    | idle | returned ret given => rfl
    | _ =>
        rw [here] at ended
        contradiction
  cases action with
  | proceed pid interrupted fault =>
      obtain ⟨after, proceeded, rfl⟩ := Option.map_eq_some_iff.mp taken
      exact uacProceed_counted counted proceeded
  | write pid buf =>
      simp only [uacStep] at taken
      split at taken
      · rename_i ended
        rw [← Option.some.inj taken]
        exact counted_setPoint counted (begins ended).symm
      · contradiction
  | read pid count =>
      simp only [uacStep] at taken
      split at taken
      · rename_i ended
        rw [← Option.some.inj taken]
        exact counted_setPoint counted (begins ended).symm
      · contradiction
  | callback status numberOfPackets =>
      simp only [uacStep, uacCallback] at taken
      repeat' split at taken
      all_goals first
        | contradiction
        | rw [← Option.some.inj taken]
          exact counted
  | fillPacket =>
      simp only [uacStep] at taken
      split at taken
      · rw [← Option.some.inj taken]
        exact counted
      · contradiction
  | shutdown =>
      rw [← Option.some.inj taken]
      exact counted

theorem streamSent_step_iff {sys next : UacSys Pid} {action : UacAction Pid}
    (invariant : RingInvariant sys) (good : StreamSent sys)
    (taken : uacStep sys action = some next) : StreamSent next ↔ KeepsStream sys action := by
  have counted := uacStep_counted good.counted taken
  have parts : StreamSent next ↔ StreamCarried next :=
    ⟨fun sent => sent.toStreamCarried, fun carried => ⟨carried, counted⟩⟩
  have carried := good.toStreamCarried
  rw [parts]
  cases uacStep_move taken with
  | aside keeps same => exact ⟨fun _ => keeps, fun _ => same.streamCarried carried⟩
  | packet => exact ⟨invariant.packet_fresh carried, invariant.packet_streamCarried carried⟩
  | accept keeps pid data same =>
      have goodNext := same.streamCarried (invariant.accept_streamCarried carried pid data)
      exact ⟨fun _ => keeps, fun _ => goodNext⟩
  | remove here same =>
      rw [same.streamCarried_iff]
      simp only [KeepsStream, here]
      exact ⟨invariant.remove_teed, invariant.remove_streamCarried carried⟩

theorem ringInvariant_step {sys next : UacSys Pid} {action : UacAction Pid}
    (invariant : RingInvariant sys) (good : StreamSent sys)
    (taken : uacStep sys action = some next) (goodNext : StreamSent next) :
    RingInvariant next := by
  have keeps := (streamSent_step_iff invariant good taken).mp goodNext
  cases uacStep_move taken with
  | aside _ same => exact same.ringInvariant invariant
  | packet => exact invariant.packet keeps
  | accept _ pid data same => exact same.ringInvariant (invariant.accept pid data)
  | remove here same =>
      simp only [KeepsStream, here] at keeps
      exact same.ringInvariant (invariant.remove keeps)

/-- In a run from the probe the packets carry the accepted stream throughout exactly when
no packet takes bytes that the tee put back and every read takes only such bytes. -/
theorem uac_streamSent_iff (actions : List (UacAction Pid)) :
    StepMachine.Always uacStep StreamSent (.probed Pid) actions ↔
      StepMachine.Meets uacStep KeepsStream (.probed Pid) actions := by
  have preserved : ∀ (sys : UacSys Pid) action next, RingInvariant sys → StreamSent sys →
      uacStep sys action = some next → StreamSent next → RingInvariant next :=
    fun _ _ _ => ringInvariant_step
  have exactly : ∀ (sys : UacSys Pid) action next, RingInvariant sys → StreamSent sys →
      uacStep sys action = some next → (StreamSent next ↔ KeepsStream sys action) :=
    fun _ _ _ => streamSent_step_iff
  exact StepMachine.always_iff_meets_of_good preserved exactly actions ringInvariant_probed
    streamSent_probed

end Machine

/-- One byte is written and two packets are filled: the second one sends it again. -/
def resentByte : List (UacAction Nat) :=
  [.write 0 [7], .proceed 0 false false, .callback 0 16, .fillPacket, .fillPacket]

/-- One byte is written and read back before any packet is filled. -/
def unsentByte : List (UacAction Nat) :=
  [.write 0 [7], .proceed 0 false false, .read 1 1, .proceed 1 false false,
   .proceed 1 false false]

theorem resentByte_packets :
    (StepMachine.run uacStep (.probed Nat) resentByte).map
        (fun sys => (sys.stream, sys.packets.map Packet.unpadded)) =
      some ([7], [[7], 7 :: List.replicate 191 0]) := by
  decide +kernel

theorem unsentByte_removed :
    (StepMachine.run uacStep (.probed Nat) unsentByte).map (fun sys => (sys.removed, sys.sent)) =
      some ([some 0], []) := by
  decide +kernel

theorem uac_stream_broken :
    ¬ StepMachine.Always uacStep StreamSent (.probed Nat) resentByte ∧
      ¬ StepMachine.Always uacStep StreamSent (.probed Nat) unsentByte := by
  constructor
  · intro always
    obtain ⟨sys, sent, outcome⟩ := always.observed resentByte_packets
    simp only [Prod.mk.injEq] at outcome
    have stream := sent.stream
    rw [List.flatMap_def, outcome.1, outcome.2] at stream
    have lengths := congrArg List.length stream
    have short := List.length_take_le' sys.sent.length [(7 : Byte)]
    rw [← lengths] at short
    simp only [List.flatten_cons, List.flatten_nil, List.length_append, List.length_cons,
      List.length_replicate, List.length_nil] at short
    omega
  · intro always
    obtain ⟨sys, sent, outcome⟩ := always.observed unsentByte_removed
    simp only [Prod.mk.injEq] at outcome
    have before := sent.removedSent 0 (by simp [outcome.1])
    rw [outcome.2] at before
    contradiction

end Ldd3.Uac
