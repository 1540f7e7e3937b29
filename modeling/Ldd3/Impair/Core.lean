import Mathlib.Tactic
import Ldd3.Kernel

/-!
The network driver that delays what it sends and receives it itself (`ch17_net`): per queue a
tx ring, an rx ring, a timer and a NAPI instance, and the statistics that all queues share.
-/

namespace Ldd3.Impair

def RING_SIZE : Nat := 1024
def ETH_ALEN : Nat := 6
def ETH_HLEN : Nat := 14
def IMPAIR_MC_CAM_SIZE : Nat := 16

abbrev Mac := List Byte

structure Skb where
  data : List Byte
  deriving DecidableEq, Repr

def Skb.len (skb : Skb) : Nat := skb.data.length

def Skb.dest (skb : Skb) : Mac := skb.data.take ETH_ALEN

inductive IpSummed
  | checksumNone
  | checksumUnnecessary
  deriving DecidableEq, Repr

inductive NetdevTx
  | NETDEV_TX_OK
  | NETDEV_TX_BUSY
  deriving DecidableEq, Repr

section Ring

/-- `desc` keeps the `data` of each descriptor, `none` for `NULL`. -/
structure ImpairRing where
  desc : List (Option Skb)
  size : Nat
  nextToUse : Nat
  nextToClean : Nat
  deriving Repr

def u32 (value : Nat) : Nat := value % 4294967296

def circCnt (head tail size : Nat) : Nat := u32 (head + 4294967296 - tail) &&& (size - 1)

def circSpace (head tail size : Nat) : Nat := circCnt tail (u32 (head + 1)) size

def ringNext (index : Nat) : Nat := u32 (index + 1) % RING_SIZE

def ringFree (ring : ImpairRing) : Nat := circSpace ring.nextToUse ring.nextToClean ring.size

def ringUsed (ring : ImpairRing) : Nat := circCnt ring.nextToUse ring.nextToClean ring.size

/-- The `memset` clears the first `size` descriptors. -/
def ringInit (ring : ImpairRing) (size : Nat) : Except Int ImpairRing :=
  if size = 0 ∨ RING_SIZE < size then .error (-EINVAL)
  else
    .ok
      { desc := List.replicate size none ++ ring.desc.drop size
        size := size
        nextToUse := 0
        nextToClean := 0 }

def ImpairRing.fresh : ImpairRing :=
  { desc := List.replicate RING_SIZE none, size := RING_SIZE, nextToUse := 0, nextToClean := 0 }

def ImpairRing.isEmpty (ring : ImpairRing) : Bool := ring.nextToClean == ring.nextToUse

def ImpairRing.fill (ring : ImpairRing) (skb : Skb) : ImpairRing :=
  { ring with
    desc := ring.desc.set ring.nextToUse (some skb), nextToUse := ringNext ring.nextToUse }

def ImpairRing.oldest (ring : ImpairRing) : Option Skb := ring.desc.getD ring.nextToClean none

def ImpairRing.clean (ring : ImpairRing) : ImpairRing :=
  { ring with
    desc := ring.desc.set ring.nextToClean none, nextToClean := ringNext ring.nextToClean }

end Ring

section Filter

structure RxFilterState where
  promisc : Bool
  allmulti : Bool
  primaryMac : Mac
  mcCam : List Mac
  deriving DecidableEq, Repr

def isBroadcastEtherAddr (dst : Mac) : Bool := dst.all fun byte => byte == 255

def isMulticastEtherAddr (dst : Mac) : Bool := dst.head?.getD 0 &&& 1 == 1

def rxAccept (filter : RxFilterState) (dst : Mac) : Bool :=
  if filter.promisc then true
  else if isBroadcastEtherAddr dst then true
  else if isMulticastEtherAddr dst then filter.allmulti || filter.mcCam.any fun mac => mac == dst
  else dst == filter.primaryMac

def fillCam (filter : RxFilterState) : List Mac → RxFilterState
  | [] => filter
  | addr :: rest =>
      if filter.mcCam.length = IMPAIR_MC_CAM_SIZE then { filter with allmulti := true }
      else fillCam { filter with mcCam := filter.mcCam ++ [addr] } rest

def impairSetRxMode (promisc allmulti : Bool) (devAddr : Mac) (mcList : List Mac) : RxFilterState :=
  let newf := { promisc := promisc, allmulti := allmulti, primaryMac := devAddr, mcCam := [] }
  if !promisc && !allmulti then fillCam newf mcList else newf

end Filter

structure Stats64 where
  txPackets : Nat
  txBytes : Nat
  txErrors : Nat
  txDropped : Nat
  rxPackets : Nat
  rxBytes : Nat
  rxDropped : Nat
  multicast : Nat
  deriving DecidableEq, Repr

/-- A call of `impair_poll`: what the two loops have done, and which of the rings they
found empty. -/
structure PollFrame where
  budget : Nat
  drained : Nat
  delivered : Nat
  txEmpty : Bool
  rxEmpty : Bool
  deriving DecidableEq, Repr

def PollFrame.begin (budget : Nat) : PollFrame :=
  { budget := budget, drained := 0, delivered := 0, txEmpty := false, rxEmpty := false }

inductive PollPoint
  | idle
  | draining (poll : PollFrame)
  | copying (poll : PollFrame) (skb : Skb)
  | filtering (poll : PollFrame) (skb : Skb)
  | pushing (poll : PollFrame) (skb : Skb)
  | dropping (poll : PollFrame) (skb : Skb)
  | txComplete (poll : PollFrame) (skb : Skb)
  | delivering (poll : PollFrame)
  | receiving (poll : PollFrame) (skb : Skb)
  | handing (poll : PollFrame) (skb : Skb) (ipSummed : IpSummed)
  | returning (poll : PollFrame)
  deriving DecidableEq, Repr

inductive WatchdogPoint
  | idle
  | arming
  | waking
  deriving DecidableEq, Repr

/-- A packet for which `impair_tx` returns `NETDEV_TX_OK`, and when it was put into the ring. -/
structure Accepted where
  skb : Skb
  time : Nat
  deriving DecidableEq, Repr

/-- A queue. The calls of `impair_tx` are counted by what they return: those that have settled on
`NETDEV_TX_OK` are `arming` until their `mod_timer`, and `returnedOk` after it. `drained` of the
accepted packets have left the tx ring, and `received` is what `napi_gro_receive` was given. -/
structure QVector where
  txRing : ImpairRing
  rxRing : ImpairRing
  stopped : Bool
  timer : Option Nat
  scheduled : Bool
  missed : Bool
  poll : PollPoint
  watchdog : WatchdogPoint
  arming : Nat
  returnedOk : Nat
  accepted : List Accepted
  drained : Nat
  received : List (Skb × IpSummed)

def QVector.allocated : QVector :=
  { txRing := .fresh, rxRing := .fresh, stopped := false, timer := none, scheduled := false,
    missed := false, poll := .idle, watchdog := .idle, arming := 0, returnedOk := 0,
    accepted := [], drained := 0, received := [] }

def QVector.waiting (qv : QVector) : List Accepted := qv.accepted.drop qv.drained

structure ImpairSys (Queue : Type) where
  qVect : Queue → QVector
  stats : Stats64
  rxFilter : RxFilterState
  rxCsum : Bool
  jiffies : Nat

def ImpairSys.opened (Queue : Type) (stats : Stats64) (rxFilter : RxFilterState) (rxCsum : Bool)
    (jiffies : Nat) : ImpairSys Queue :=
  { qVect := fun _ => .allocated, stats := stats, rxFilter := rxFilter, rxCsum := rxCsum,
    jiffies := jiffies }

inductive QAction
  | tx (skb : Skb)
  | modTimer
  | txTimeout
  | watchdog
  | expire
  | poll (budget : Nat)
  | proceed (copyFails : Bool)
  deriving DecidableEq, Repr

inductive ImpairAction (Queue : Type)
  | queue (queue : Queue) (action : QAction)
  | setRxMode (promisc allmulti : Bool) (devAddr : Mac) (mcList : List Mac)
  | setMacAddress (addr : Mac)
  | setRxCsum (on : Bool)
  | tick
  deriving DecidableEq, Repr

section Machine

/-- The locked part of `impair_tx`, and what the call returns. -/
def impairTx (qv : QVector) (skb : Skb) : NetdevTx × QVector :=
  if ringFree qv.txRing < 1 then (.NETDEV_TX_BUSY, { qv with stopped := true })
  else (.NETDEV_TX_OK, { qv with txRing := qv.txRing.fill skb })

def QVector.answered (qv : QVector) (skb : Skb) (jiffies : Nat) : NetdevTx → QVector
  | .NETDEV_TX_BUSY => qv
  | .NETDEV_TX_OK =>
      { qv with arming := qv.arming + 1, accepted := qv.accepted ++ [⟨skb, jiffies⟩] }

/-- `napi_schedule_prep` and `__napi_schedule`: a NAPI that is scheduled already remembers. -/
def napiSchedule (qv : QVector) : QVector :=
  { qv with scheduled := true, missed := qv.missed || qv.scheduled }

def napiCompleteDone (qv : QVector) : QVector :=
  { qv with scheduled := qv.missed, missed := false }

def implTimerHandler (qv : QVector) : QVector := napiSchedule { qv with timer := none }

def impairRxDrain (qv : QVector) (poll : PollFrame) : QVector :=
  let ended (found : Bool) : PollPoint :=
    if poll.drained < poll.budget then .delivering { poll with txEmpty := found }
    else .returning poll
  if poll.drained < poll.budget then
    if qv.txRing.isEmpty then { qv with poll := ended true }
    else
      let popped :=
        { qv with
          txRing := qv.txRing.clean
          stopped := qv.stopped && !decide (0 < ringFree qv.txRing.clean)
          drained := qv.drained + 1 }
      match qv.txRing.oldest with
      | none => { popped with poll := ended false }
      | some skb => { popped with poll := .copying poll skb }
  else { qv with poll := ended false }

def impairRxPush (qv : QVector) (stats : Stats64) (poll : PollFrame) (skb : Skb) :
    QVector × Stats64 :=
  if ringFree qv.rxRing < 1 then ({ qv with poll := .dropping poll skb }, stats)
  else
    ({ qv with rxRing := qv.rxRing.fill skb, poll := .txComplete poll skb },
      if isMulticastEtherAddr skb.dest then { stats with multicast := stats.multicast + 1 }
      else stats)

def impairRxDeliver (qv : QVector) (poll : PollFrame) : QVector :=
  if poll.delivered < poll.budget - poll.drained then
    if qv.rxRing.isEmpty then { qv with poll := .returning { poll with rxEmpty := true } }
    else
      let popped := { qv with rxRing := qv.rxRing.clean }
      match qv.rxRing.oldest with
      | none => { popped with poll := .returning poll }
      | some skb => { popped with poll := .receiving poll skb }
  else { qv with poll := .returning poll }

def impairPollReturn (qv : QVector) (poll : PollFrame) : QVector :=
  if poll.drained + poll.delivered < poll.budget then { napiCompleteDone qv with poll := .idle }
  else { qv with poll := .idle }

def impairPoll (rxFilter : RxFilterState) (rxCsum copyFails : Bool) (qv : QVector)
    (stats : Stats64) : PollPoint → Option (QVector × Stats64)
  | .idle => none
  | .draining poll => some (impairRxDrain qv poll, stats)
  | .copying poll skb =>
      if copyFails then some ({ qv with poll := .dropping poll skb }, stats)
      else if skb.len < ETH_HLEN then some ({ qv with poll := .dropping poll skb }, stats)
      else some ({ qv with poll := .filtering poll skb }, stats)
  | .filtering poll skb =>
      if rxAccept rxFilter skb.dest then some ({ qv with poll := .pushing poll skb }, stats)
      else some ({ qv with poll := .dropping poll skb }, stats)
  | .pushing poll skb => some (impairRxPush qv stats poll skb)
  | .dropping poll skb =>
      some ({ qv with poll := .txComplete poll skb },
        { stats with rxDropped := stats.rxDropped + 1 })
  | .txComplete poll skb =>
      some ({ qv with poll := .draining { poll with drained := poll.drained + 1 } },
        { stats with
          txPackets := stats.txPackets + 1, txBytes := stats.txBytes + skb.len })
  | .delivering poll => some (impairRxDeliver qv poll, stats)
  | .receiving poll skb =>
      some ({ qv with
              poll := .handing poll skb (if rxCsum then .checksumUnnecessary else .checksumNone) },
        { stats with
          rxPackets := stats.rxPackets + 1, rxBytes := stats.rxBytes + (skb.len - ETH_HLEN) })
  | .handing poll skb ipSummed =>
      some ({ qv with
              received := qv.received ++ [(skb, ipSummed)]
              poll := .delivering { poll with delivered := poll.delivered + 1 } }, stats)
  | .returning poll => some (impairPollReturn qv poll, stats)

variable {Queue : Type} [DecidableEq Queue]

/-- `delay` is `msecs_to_jiffies(delay_msecs)`. -/
def qStep (delay : Nat) (sys : ImpairSys Queue) (qv : QVector) :
    QAction → Option (QVector × Stats64)
  | .tx skb =>
      let answer := impairTx qv skb
      some (answer.2.answered skb sys.jiffies answer.1, sys.stats)
  | .modTimer =>
      if qv.arming = 0 then none
      else
        some ({ qv with
                timer := some (sys.jiffies + delay)
                arming := qv.arming - 1
                returnedOk := qv.returnedOk + 1 }, sys.stats)
  | .txTimeout =>
      if qv.watchdog = .idle then
        some ({ qv with watchdog := .arming },
          { sys.stats with
            txErrors := sys.stats.txErrors + 1, txDropped := sys.stats.txDropped + 1 })
      else none
  | .watchdog =>
      match qv.watchdog with
      | .idle => none
      | .arming =>
          some ({ qv with timer := some (sys.jiffies + delay), watchdog := .waking }, sys.stats)
      | .waking => some ({ qv with stopped := false, watchdog := .idle }, sys.stats)
  | .expire =>
      match qv.timer with
      | none => none
      | some expiry =>
          if expiry ≤ sys.jiffies then some (implTimerHandler qv, sys.stats) else none
  | .poll budget =>
      if qv.scheduled ∧ qv.poll = .idle then
        some ({ qv with poll := .draining (.begin budget) }, sys.stats)
      else none
  | .proceed copyFails => impairPoll sys.rxFilter sys.rxCsum copyFails qv sys.stats qv.poll

def impairStep (delay : Nat) (sys : ImpairSys Queue) : ImpairAction Queue → Option (ImpairSys Queue)
  | .queue queue action =>
      (qStep delay sys (sys.qVect queue) action).map fun (qv, stats) =>
        { sys with qVect := Function.update sys.qVect queue qv, stats := stats }
  | .setRxMode promisc allmulti devAddr mcList =>
      some { sys with rxFilter := impairSetRxMode promisc allmulti devAddr mcList }
  | .setMacAddress addr => some { sys with rxFilter := { sys.rxFilter with primaryMac := addr } }
  | .setRxCsum on => some { sys with rxCsum := on }
  | .tick => some { sys with jiffies := sys.jiffies + 1 }

end Machine

end Ldd3.Impair
