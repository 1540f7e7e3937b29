import Mathlib.Tactic
import Ldd3.Lib.StepMachine
import Ldd3.Impair.Core

/-!
The receive filter of the impaired device: what `rx_accept` answers from the
filter that `impair_set_rx_mode` and `impair_set_mac_address` store, against the
flags, the address and the multicast list of the device.
-/

namespace Ldd3.Impair

structure EtherAddr where
  bytes : Mac
  length : bytes.length = ETH_ALEN
  deriving DecidableEq

def EtherAddr.broadcast : EtherAddr := ⟨List.replicate ETH_ALEN 255, rfl⟩

def EtherAddr.IsGroup (addr : EtherAddr) : Prop := addr.bytes.head?.getD 0 &&& 1 = 1

/-- The parts of `struct net_device` that the filter follows, and the stored filter. -/
structure NetDevice where
  promisc : Bool
  allmulti : Bool
  devAddr : EtherAddr
  mcList : List EtherAddr
  rxFilter : RxFilterState

def NetDevice.setup (devAddr : EtherAddr) : NetDevice where
  promisc := false
  allmulti := false
  devAddr := devAddr
  mcList := []
  rxFilter := { promisc := false, allmulti := false, primaryMac := devAddr.bytes, mcCam := [] }

/-- Flags, address and list are what they are when the kernel calls `impair_set_rx_mode`;
`prepared` is the answer of `eth_prepare_mac_addr_change`. -/
inductive FilterAction
  | setRxMode (promisc allmulti : Bool) (devAddr : EtherAddr) (mcList : List EtherAddr)
  | setMacAddress (addr : EtherAddr) (prepared : Int)

def NetDevice.impairSetMacAddress (dev : NetDevice) (addr : EtherAddr) (prepared : Int) :
    NetDevice × Int :=
  if prepared ≠ 0 then (dev, prepared)
  else
    ({ dev with devAddr := addr, rxFilter := { dev.rxFilter with primaryMac := addr.bytes } }, 0)

def filterStep (dev : NetDevice) : FilterAction → Option NetDevice
  | .setRxMode promisc allmulti devAddr mcList =>
      some
        { promisc, allmulti, devAddr, mcList
          rxFilter :=
            impairSetRxMode promisc allmulti devAddr.bytes (mcList.map EtherAddr.bytes) }
  | .setMacAddress addr prepared => some (dev.impairSetMacAddress addr prepared).1

def NetDevice.Accepts (dev : NetDevice) (dst : EtherAddr) : Prop :=
  dev.promisc = true ∨ dst = .broadcast ∨
    (dst.IsGroup ∧
      (dev.allmulti = true ∨ dst ∈ dev.mcList ∨ IMPAIR_MC_CAM_SIZE < dev.mcList.length)) ∨
    (¬dst.IsGroup ∧ dst = dev.devAddr)

structure FilterExact (dev : NetDevice) : Prop where
  accepts : ∀ dst, rxAccept dev.rxFilter dst.bytes = true ↔ dev.Accepts dst
  joined : ∀ dst ∈ dev.mcList, dst.IsGroup → rxAccept dev.rxFilter dst.bytes = true
  others : dev.promisc = false → dev.allmulti = false → dev.mcList.length ≤ IMPAIR_MC_CAM_SIZE →
    ∀ dst, dst.IsGroup → dst ≠ .broadcast → dst ∉ dev.mcList →
      rxAccept dev.rxFilter dst.bytes = false

/-! The loop over the list. -/

theorem fillCam_promisc (filter : RxFilterState) (list : List Mac) :
    (fillCam filter list).promisc = filter.promisc := by
  induction list generalizing filter with
  | nil => rfl
  | cons addr rest ih =>
      rw [fillCam]
      split
      · rfl
      · exact ih _

theorem fillCam_primaryMac (filter : RxFilterState) (list : List Mac) :
    (fillCam filter list).primaryMac = filter.primaryMac := by
  induction list generalizing filter with
  | nil => rfl
  | cons addr rest ih =>
      rw [fillCam]
      split
      · rfl
      · exact ih _

theorem fillCam_address (filter : RxFilterState) (addr : Mac) (list : List Mac) :
    { fillCam filter list with primaryMac := addr } =
      fillCam { filter with primaryMac := addr } list := by
  induction list generalizing filter with
  | nil => rfl
  | cons first rest ih =>
      simp only [fillCam]
      split
      · rfl
      · exact ih _

theorem fillCam_table (filter : RxFilterState) (list : List Mac)
    (fits : filter.mcCam.length ≤ IMPAIR_MC_CAM_SIZE) :
    (filter.mcCam.length + list.length ≤ IMPAIR_MC_CAM_SIZE ∧
        (fillCam filter list).mcCam = filter.mcCam ++ list ∧
        (fillCam filter list).allmulti = filter.allmulti) ∨
      (IMPAIR_MC_CAM_SIZE < filter.mcCam.length + list.length ∧
        (fillCam filter list).allmulti = true) := by
  induction list generalizing filter with
  | nil => exact .inl ⟨fits, (List.append_nil _).symm, rfl⟩
  | cons addr rest ih =>
      rw [fillCam]
      by_cases full : filter.mcCam.length = IMPAIR_MC_CAM_SIZE
      · rw [if_pos full]
        exact .inr ⟨by simp only [List.length_cons]; omega, rfl⟩
      · rw [if_neg full]
        have room : (filter.mcCam ++ [addr]).length ≤ IMPAIR_MC_CAM_SIZE := by
          simp only [List.length_append, List.length_cons, List.length_nil]
          omega
        have rest := ih { filter with mcCam := filter.mcCam ++ [addr] } room
        simp only [List.length_append, List.length_cons, List.length_nil, List.append_assoc,
          List.cons_append, List.nil_append] at rest ⊢
        rcases rest with ⟨bound, table, flag⟩ | ⟨bound, flag⟩
        · exact .inl ⟨by omega, table, flag⟩
        · exact .inr ⟨by omega, flag⟩

/-! The test of one address. -/

theorem bytes_inj {addr other : EtherAddr} : addr.bytes = other.bytes ↔ addr = other := by
  cases addr
  cases other
  simp only [EtherAddr.mk.injEq]

theorem isBroadcast_iff (addr : EtherAddr) :
    isBroadcastEtherAddr addr.bytes = true ↔ addr = .broadcast := by
  rw [← bytes_inj, EtherAddr.broadcast, List.eq_replicate_iff, isBroadcastEtherAddr]
  simp only [List.all_eq_true, beq_iff_eq, addr.length, true_and]

theorem isMulticast_iff (addr : EtherAddr) :
    isMulticastEtherAddr addr.bytes = true ↔ addr.IsGroup := by
  simp only [isMulticastEtherAddr, EtherAddr.IsGroup, beq_iff_eq]

theorem rxAccept_iff (filter : RxFilterState) (dst : EtherAddr) :
    rxAccept filter dst.bytes = true ↔
      filter.promisc = true ∨ dst = .broadcast ∨
        (dst.IsGroup ∧ (filter.allmulti = true ∨ dst.bytes ∈ filter.mcCam)) ∨
        (¬dst.IsGroup ∧ dst.bytes = filter.primaryMac) := by
  have group : (EtherAddr.broadcast).IsGroup := by
    simp only [EtherAddr.IsGroup]
    decide
  rw [rxAccept]
  by_cases promisc : filter.promisc = true
  · rw [if_pos promisc]
    exact iff_of_true rfl (.inl promisc)
  rw [if_neg promisc]
  by_cases broadcast : dst = .broadcast
  · rw [if_pos ((isBroadcast_iff dst).mpr broadcast)]
    exact iff_of_true rfl (.inr (.inl broadcast))
  rw [if_neg (mt (isBroadcast_iff dst).mp broadcast)]
  by_cases multicast : dst.IsGroup
  · have listed : filter.mcCam.any (fun mac => mac == dst.bytes) = true ↔
        dst.bytes ∈ filter.mcCam := by
      simp only [List.any_eq_true, beq_iff_eq, exists_eq_right]
    rw [if_pos ((isMulticast_iff dst).mpr multicast), Bool.or_eq_true, listed]
    simp only [promisc, broadcast, multicast, Bool.false_eq_true, false_or, true_and,
      not_true_eq_false, false_and, or_false]
  · rw [if_neg (mt (isMulticast_iff dst).mp multicast), beq_iff_eq]
    simp only [promisc, broadcast, multicast, Bool.false_eq_true, false_or, false_and,
      not_false_eq_true, true_and]

/-! The stored filter. -/

def NetDevice.expected (dev : NetDevice) : RxFilterState :=
  impairSetRxMode dev.promisc dev.allmulti dev.devAddr.bytes (dev.mcList.map EtherAddr.bytes)

theorem expected_step {dev next : NetDevice} {action : FilterAction}
    (current : dev.rxFilter = dev.expected) (taken : filterStep dev action = some next) :
    next.rxFilter = next.expected := by
  cases action with
  | setRxMode promisc allmulti devAddr mcList =>
      simp only [filterStep, Option.some.injEq] at taken
      rw [← taken]
      rfl
  | setMacAddress addr prepared =>
      simp only [filterStep, NetDevice.impairSetMacAddress, Option.some.injEq] at taken
      by_cases refused : prepared ≠ 0
      · rw [if_pos refused] at taken
        rw [← taken]
        exact current
      · rw [if_neg refused] at taken
        rw [← taken]
        simp only [current, NetDevice.expected, impairSetRxMode]
        split
        · exact fillCam_address _ _ _
        · rfl

theorem expected_accepts {dev : NetDevice} (current : dev.rxFilter = dev.expected)
    (dst : EtherAddr) : rxAccept dev.rxFilter dst.bytes = true ↔ dev.Accepts dst := by
  have member : dst.bytes ∈ dev.mcList.map EtherAddr.bytes ↔ dst ∈ dev.mcList := by
    simp only [List.mem_map, bytes_inj, exists_eq_right]
  rw [rxAccept_iff, current, NetDevice.expected, impairSetRxMode, NetDevice.Accepts]
  by_cases promisc : dev.promisc = true
  · rw [promisc]
    exact iff_of_true (.inl rfl) (.inl rfl)
  by_cases allmulti : dev.allmulti = true
  · simp only [promisc, allmulti, Bool.not_true, Bool.and_false, Bool.false_eq_true, ↓reduceIte,
      true_or, and_true, bytes_inj]
  rw [Bool.not_eq_true] at promisc allmulti
  simp only [promisc, allmulti, Bool.not_false, Bool.and_self, ↓reduceIte, fillCam_promisc,
    fillCam_primaryMac, bytes_inj, Bool.false_eq_true, false_or]
  have table := fillCam_table
    { promisc := false, allmulti := false, primaryMac := dev.devAddr.bytes, mcCam := [] }
    (dev.mcList.map EtherAddr.bytes) (Nat.zero_le _)
  simp only [List.length_nil, Nat.zero_add, List.length_map, List.nil_append] at table
  rcases table with ⟨fits, stored, flag⟩ | ⟨overflow, flag⟩
  · simp only [stored, flag, member, Bool.false_eq_true, false_or, fits.not_gt, or_false]
  · simp only [flag, overflow, true_or, or_true]

theorem filterExact_of_accepts {dev : NetDevice}
    (accepts : ∀ dst, rxAccept dev.rxFilter dst.bytes = true ↔ dev.Accepts dst) :
    FilterExact dev where
  accepts := accepts
  joined := fun dst listed group =>
    (accepts dst).mpr (.inr (.inr (.inl ⟨group, .inr (.inl listed)⟩)))
  others := by
    intro promisc allmulti fits dst group notBroadcast unlisted
    rw [← Bool.not_eq_true, accepts dst, NetDevice.Accepts]
    simp only [promisc, allmulti, notBroadcast, unlisted, fits.not_gt, group, Bool.false_eq_true,
      not_true_eq_false, and_false, false_and, or_false, not_false_eq_true]

/-- Over any calls, the filter accepts exactly who should be heard. -/
theorem rxFilter_exact (devAddr : EtherAddr) (actions : List FilterAction) :
    StepMachine.Always filterStep FilterExact (.setup devAddr) actions :=
  StepMachine.always_of_meets (fun _ _ _ current _ taken => expected_step current taken)
    (fun _ current => filterExact_of_accepts (expected_accepts current))
    (rfl : (NetDevice.setup devAddr).rxFilter = (NetDevice.setup devAddr).expected)
    (StepMachine.meets_true _ actions)

end Ldd3.Impair
