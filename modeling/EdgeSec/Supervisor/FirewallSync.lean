import EdgeSec.Lib.Machine
import EdgeSec.Supervisor.NetworkCommands

/-!
# The firewall follows the MAC mapper and the bridge list

The supervisor never recomputes its firewall: every command that changes an address slot, a
`nat` flag or a bridge patches the rules incrementally, looking only at the slots and the
bridge partners it touches.  This file shows that the patches are right.  Read the MAC mapper
and the bridge list as the `AddrView` of `EdgeSec.Firewall` (`addrView`): a MAC holds the
valid addresses in its two slots, with NAT on when its `nat` flag is set, and is bridged to the
MACs of its bridge tuples.  `FwSynced` says the firewall holds exactly the rules that view
calls for.

Each command moves the view by one of the changes of `EdgeSec.Firewall`, and its firewall
calls move the rules by what that change calls for; the step lemmas below prove this command
by command, and `netStep_syncInv` assembles them.  Three conditions are needed, and the run
theorem assumes them along the run: no valid address is held by two MACs (`IpUnique`), a
`SET_IP` release names an address the MAC holds, and the address of a `SET_IP` is a C string
(no NUL character: the model's `String` stands for the characters before the terminator).

## Main results

* `fwSynced_of_assign`, `fwSynced_of_release`: the shape of every step that gives a MAC an
  address or takes one away, on the view and on the firewall;
* `netStep_syncInv`: one successful command, from a synchronised state, leads to one;
* `firewall_follows_mac_mapper`: along every run of successful commands from an empty mapper,
  bridge list and firewall that keeps the conditions, the NAT rules are the valid addresses
  in the slots of MACs with NAT on and the bridge rules are the pairs of valid addresses of
  bridged MACs, after every command.
-/

namespace EdgeSec

namespace Supervisor

open MacMapper BridgeList Net Firewall AddrView Machine

/-! ## The stored state as the facts the rules come from -/

/-- `ip` is a valid address in one of the two slots of `info`. -/
def InSlot (info : MacConnInfo) (ip : String) : Prop :=
  validateIpv4String ip.toList = true ∧ (info.ipAddr = ip ∨ info.ipSecAddr = ip)

/-- The MAC `mac` has an entry with the valid address `ip` in a slot. -/
def HeldBy (hmap : HmapMacConn) (mac : MacAddr) (ip : String) : Prop :=
  ∃ info, getMacMapper hmap mac = some info ∧ InSlot info ip

/-- The MAC `mac` holds `ip` with NAT on. -/
def NatOn (hmap : HmapMacConn) (mac : MacAddr) (ip : String) : Prop :=
  ∃ info, getMacMapper hmap mac = some info ∧ info.nat = true ∧ InSlot info ip

/-- No valid address is held by two different MACs. -/
def IpUnique (hmap : HmapMacConn) : Prop :=
  ∀ a b ip, HeldBy hmap a ip → HeldBy hmap b ip → a = b

/-- The MAC mapper and the bridge list as the facts the firewall rules come from. -/
def addrView (hmap : HmapMacConn) (bl : BridgeMacList) : AddrView MacAddr String where
  holds := HeldBy hmap
  nat := NatOn hmap
  link a b := (⟨a, b⟩ : BridgeMacTuple) ∈ bl

/-- The firewall holds exactly the rules the MAC mapper and the bridge list call for. -/
structure FwSynced (context : NetworkContext) : Prop where
  nat : (↑context.fwCtx.natIps : Set String) =
    (addrView context.macMapper context.bridgeList).natRules
  bridges : (↑context.fwCtx.bridges : Set (Sym2 String)) =
    (addrView context.macMapper context.bridgeList).bridgeRules

/-- Two infos with the same slots and the same `nat` flag. -/
structure SameAddrs (info info' : MacConnInfo) : Prop where
  ipAddr : info.ipAddr = info'.ipAddr
  ipSecAddr : info.ipSecAddr = info'.ipSecAddr
  nat : info.nat = info'.nat

theorem SameAddrs.trans {i j k : MacConnInfo} (h₁ : SameAddrs i j) (h₂ : SameAddrs j k) :
    SameAddrs i k :=
  ⟨h₁.ipAddr.trans h₂.ipAddr, h₁.ipSecAddr.trans h₂.ipSecAddr, h₁.nat.trans h₂.nat⟩

theorem SameAddrs.inSlot {i j : MacConnInfo} (h : SameAddrs i j) (ip : String) :
    InSlot i ip ↔ InSlot j ip := by
  rw [InSlot, InSlot, h.ipAddr, h.ipSecAddr]

/-! ## Slots -/

theorem InSlot.ne_empty {info : MacConnInfo} {ip : String} (h : InSlot info ip) : ip ≠ "" := by
  rintro rfl
  exact absurd h.1 (by simp)

theorem not_inSlot_of_empty {info : MacConnInfo} (h1 : info.ipAddr = "") (h2 : info.ipSecAddr = "")
    (ip : String) : ¬ InSlot info ip := by
  intro hin
  rcases hin.2 with h | h
  · exact hin.ne_empty (h.symm.trans h1)
  · exact hin.ne_empty (h.symm.trans h2)

/-- What `os_strlcpy` stores for a C string `ip` is a valid address `y` exactly when `ip` is
valid and is `y`. -/
theorem valid_stored_iff {ip : String} (hnul : '\x00' ∉ ip.toList) (y : String) :
    (validateIpv4String y.toList = true ∧
        String.ofList (Os.osStrlcpy ip.toList osInetAddrstrlen) = y) ↔
      (y = ip ∧ validateIpv4String ip.toList = true) := by
  constructor
  · rintro ⟨hv, rfl⟩
    rw [String.toList_ofList, validateIpv4String_osStrlcpy hnul] at hv
    rw [osStrlcpy_of_validateIpv4String hv hnul, String.ofList_toList]
    exact ⟨rfl, hv⟩
  · rintro ⟨rfl, hv⟩
    rw [osStrlcpy_of_validateIpv4String hv hnul, String.ofList_toList]
    exact ⟨hv, rfl⟩

/-- An empty slot that now holds the stored copy of `ip` adds `ip`, when valid, to the valid
addresses of the two slots. -/
theorem valid_slots_store {ip : String} (hnul : '\x00' ∉ ip.toList) (other y : String) :
    (validateIpv4String y.toList = true ∧
        (String.ofList (Os.osStrlcpy ip.toList osInetAddrstrlen) = y ∨ other = y)) ↔
      (validateIpv4String y.toList = true ∧ ("" = y ∨ other = y)) ∨
        (y = ip ∧ validateIpv4String ip.toList = true) := by
  have hs := valid_stored_iff hnul y
  constructor
  · rintro ⟨hv, h | h⟩
    · exact Or.inr (hs.1 ⟨hv, h⟩)
    · exact Or.inl ⟨hv, Or.inr h⟩
  · rintro (⟨hv, h | h⟩ | h)
    · subst h
      simp at hv
    · exact ⟨hv, Or.inr h⟩
    · exact ⟨(hs.2 h).1, Or.inl (hs.2 h).2⟩

/-- The `switch` of `set_ip_cmd` keeps the `nat` flag. -/
theorem setIpSwitch_nat {info info' : MacConnInfo} {ipAddr : String} {ipType : DhcpIpType}
    (h : setIpSwitch info ipAddr ipType = .store info') : info'.nat = info.nat := by
  cases ipType with
  | del =>
      unfold setIpSwitch at h
      cases h
      split_ifs <;> rfl
  | _ =>
      unfold setIpSwitch at h
      split_ifs at h <;> cases h <;> rfl

/-- A new or renewed address stored by the `switch` of `set_ip_cmd` joins the valid addresses
of the slots when it is valid. -/
theorem inSlot_of_setIpSwitch_add {info info' : MacConnInfo} {ipAddr : String}
    {ipType : DhcpIpType} (hadd : ipType = .new ∨ ipType = .old) (hnul : '\x00' ∉ ipAddr.toList)
    (h : setIpSwitch info ipAddr ipType = .store info') (y : String) :
    InSlot info' y ↔ InSlot info y ∨ (y = ipAddr ∧ validateIpv4String ipAddr.toList = true) := by
  have hsw : setIpSwitch info ipAddr ipType = setIpSwitch info ipAddr .new := by
    rcases hadd with rfl | rfl <;> rfl
  rw [hsw] at h
  unfold setIpSwitch at h
  split_ifs at h with h1 h2 h3 h4 <;> cases h
  · -- into the empty primary slot
    unfold InSlot
    rw [h3]
    exact valid_slots_store hnul info.ipSecAddr y
  · -- into the empty secondary slot
    unfold InSlot
    rw [h4.2]
    calc validateIpv4String y.toList = true ∧
          (info.ipAddr = y ∨ String.ofList (Os.osStrlcpy ipAddr.toList osInetAddrstrlen) = y)
        ↔ validateIpv4String y.toList = true ∧
          (String.ofList (Os.osStrlcpy ipAddr.toList osInetAddrstrlen) = y ∨ info.ipAddr = y) :=
          and_congr_right fun _ => or_comm
      _ ↔ (validateIpv4String y.toList = true ∧ ("" = y ∨ info.ipAddr = y)) ∨
          (y = ipAddr ∧ validateIpv4String ipAddr.toList = true) := valid_slots_store hnul _ y
      _ ↔ (validateIpv4String y.toList = true ∧ (info.ipAddr = y ∨ "" = y)) ∨
          (y = ipAddr ∧ validateIpv4String ipAddr.toList = true) :=
          or_congr_left (and_congr_right fun _ => or_comm)

/-- A released address is cleared from the slots that hold it. -/
theorem inSlot_of_setIpSwitch_del {info info' : MacConnInfo} {ipAddr : String}
    (h : setIpSwitch info ipAddr .del = .store info') (y : String) :
    InSlot info' y ↔ InSlot info y ∧ y ≠ ipAddr := by
  unfold setIpSwitch at h
  cases h
  by_cases hy : y = ""
  · -- a cleared slot holds `""`, which is no valid address
    subst hy
    exact iff_of_false (fun hin => hin.ne_empty rfl) (fun hin => hin.1.ne_empty rfl)
  · have hy' : "" ≠ y := Ne.symm hy
    by_cases h1 : info.ipAddr = ipAddr <;> by_cases h2 : info.ipSecAddr = ipAddr <;>
      simp only [InSlot, h1, h2, if_true, if_false, hy'] <;> grind

/-! ## The view after a store -/

theorem NatOn.heldBy {hmap : HmapMacConn} {mac : MacAddr} {ip : String} (h : NatOn hmap mac ip) :
    HeldBy hmap mac ip := by
  obtain ⟨info, hget, -, hin⟩ := h
  exact ⟨info, hget, hin⟩

theorem heldBy_putMacMapper (hmap : HmapMacConn) (conn : MacConn) (a : MacAddr) (y : String) :
    HeldBy (putMacMapper hmap conn) a y ↔
      if a = conn.macAddr then InSlot conn.info y else HeldBy hmap a y := by
  unfold HeldBy
  rw [getMacMapper_putMacMapper]
  split <;> simp

theorem natOn_putMacMapper (hmap : HmapMacConn) (conn : MacConn) (a : MacAddr) (y : String) :
    NatOn (putMacMapper hmap conn) a y ↔
      if a = conn.macAddr then conn.info.nat = true ∧ InSlot conn.info y else NatOn hmap a y := by
  unfold NatOn
  rw [getMacMapper_putMacMapper]
  split <;> simp

/-- `save_mac_mapper` stores an entry with the caller's slots and `nat` flag: only the
identifier it may fill in differs. -/
theorem saveMacMapper_macMapper_addrs (env : SaveEnv) (context : SupervisorContext)
    (conn : MacConn) : ∃ info, (saveMacMapper env context conn).2.macMapper =
      putMacMapper context.macMapper ⟨conn.macAddr, info⟩ ∧ SameAddrs info conn.info := by
  refine ⟨_, saveMacMapper_macMapper env context conn, ?_⟩
  split <;> exact ⟨rfl, rfl, rfl⟩

theorem heldBy_saveMacMapper (env : SaveEnv) (context : SupervisorContext) (conn : MacConn)
    (a : MacAddr) (y : String) :
    HeldBy (saveMacMapper env context conn).2.macMapper a y ↔
      if a = conn.macAddr then InSlot conn.info y else HeldBy context.macMapper a y := by
  obtain ⟨info, hput, hsame⟩ := saveMacMapper_macMapper_addrs env context conn
  rw [hput, heldBy_putMacMapper]
  split
  · exact hsame.inSlot y
  · exact Iff.rfl

theorem natOn_saveMacMapper (env : SaveEnv) (context : SupervisorContext) (conn : MacConn)
    (a : MacAddr) (y : String) :
    NatOn (saveMacMapper env context conn).2.macMapper a y ↔
      if a = conn.macAddr then conn.info.nat = true ∧ InSlot conn.info y
      else NatOn context.macMapper a y := by
  obtain ⟨info, hput, hsame⟩ := saveMacMapper_macMapper_addrs env context conn
  rw [hput, natOn_putMacMapper]
  split
  · rw [hsame.nat, hsame.inSlot y]
  · exact Iff.rfl

section Lookup

variable (hmap : HmapMacConn) (mac : MacAddr) {d : MacConnInfo} (h1 : d.ipAddr = "")
  (h2 : d.ipSecAddr = "")
include h1 h2

/-- What a command reads with `init_default_mac_info` and `get_mac_mapper` holds the addresses
the entry holds: the default's slots are empty. -/
theorem heldBy_iff_lookupOrDefault (y : String) :
    HeldBy hmap mac y ↔ InSlot (lookupOrDefault hmap mac d) y := by
  unfold HeldBy lookupOrDefault
  cases getMacMapper hmap mac with
  | none => simpa using not_inSlot_of_empty h1 h2 y
  | some info => simp

theorem natOn_iff_lookupOrDefault (y : String) :
    NatOn hmap mac y ↔
      (lookupOrDefault hmap mac d).nat = true ∧ InSlot (lookupOrDefault hmap mac d) y := by
  unfold NatOn lookupOrDefault
  cases getMacMapper hmap mac with
  | none => simpa using fun _ => not_inSlot_of_empty h1 h2 y
  | some info => simp

end Lookup

/-- The view is unchanged: every MAC holds the same addresses, with NAT as before. -/
structure KeepsAddrs (hmap hmap' : HmapMacConn) : Prop where
  held : ∀ a y, HeldBy hmap' a y ↔ HeldBy hmap a y
  nat : ∀ a y, NatOn hmap' a y ↔ NatOn hmap a y

theorem KeepsAddrs.refl (hmap : HmapMacConn) : KeepsAddrs hmap hmap :=
  ⟨fun _ _ => Iff.rfl, fun _ _ => Iff.rfl⟩

/-- Storing, under a MAC, an info with the slots and `nat` flag a command read for it keeps
the view. -/
theorem keepsAddrs_putMacMapper {hmap : HmapMacConn} {mac : MacAddr} {info d : MacConnInfo}
    (h1 : d.ipAddr = "") (h2 : d.ipSecAddr = "")
    (hsame : SameAddrs info (lookupOrDefault hmap mac d)) :
    KeepsAddrs hmap (putMacMapper hmap ⟨mac, info⟩) := by
  constructor
  · intro a y
    rw [heldBy_putMacMapper]
    split
    · rename_i ha
      subst ha
      rw [hsame.inSlot, heldBy_iff_lookupOrDefault hmap a h1 h2]
    · exact Iff.rfl
  · intro a y
    rw [natOn_putMacMapper]
    split
    · rename_i ha
      subst ha
      rw [hsame.nat, hsame.inSlot, natOn_iff_lookupOrDefault hmap a h1 h2]
    · exact Iff.rfl

theorem keepsAddrs_saveMacMapper (env : SaveEnv) (context : SupervisorContext) (conn : MacConn)
    {d : MacConnInfo} (h1 : d.ipAddr = "") (h2 : d.ipSecAddr = "")
    (hsame : SameAddrs conn.info (lookupOrDefault context.macMapper conn.macAddr d)) :
    KeepsAddrs context.macMapper (saveMacMapper env context conn).2.macMapper := by
  obtain ⟨info, hput, hsame'⟩ := saveMacMapper_macMapper_addrs env context conn
  rw [hput]
  exact keepsAddrs_putMacMapper h1 h2 (hsame'.trans hsame)

/-- `save_device_vlan` keeps the view when the caller's info keeps the addresses it read. -/
theorem keepsAddrs_saveDeviceVlan (env : SaveEnv) (context : SupervisorContext) (macAddr : MacAddr)
    (info : MacConnInfo) {d : MacConnInfo} (h1 : d.ipAddr = "") (h2 : d.ipSecAddr = "")
    (hsame : SameAddrs info (lookupOrDefault context.macMapper macAddr d)) :
    KeepsAddrs context.macMapper (saveDeviceVlan env context macAddr info).2.2.macMapper := by
  unfold saveDeviceVlan
  split
  · exact KeepsAddrs.refl _
  · split
    · exact KeepsAddrs.refl _
    · exact keepsAddrs_saveMacMapper env context _ h1 h2 ⟨hsame.ipAddr, hsame.ipSecAddr, hsame.nat⟩

/-- `get_mac_conn_cmd` changes the VLAN, the passphrase and the permission of an entry, never
its slots or `nat` flag. -/
theorem keepsAddrs_getMacConnCmd (env : SaveEnv) (context : SupervisorContext) (macAddr : MacAddr) :
    KeepsAddrs context.macMapper (getMacConnCmd env context macAddr).2.macMapper := by
  have h1 : (initDefaultMacInfo (allocVlanid context macAddr) context.allowAllNat).ipAddr = "" := rfl
  have h2 : (initDefaultMacInfo (allocVlanid context macAddr) context.allowAllNat).ipSecAddr = "" :=
    rfl
  unfold getMacConnCmd
  split
  · rw [afterSave_snd]
    apply keepsAddrs_saveDeviceVlan _ _ _ _ h1 h2
    split_ifs <;> exact ⟨rfl, rfl, rfl⟩
  · rw [afterSave_snd]
    exact keepsAddrs_saveDeviceVlan _ _ _ _ h1 h2 ⟨rfl, rfl, rfl⟩
  · exact KeepsAddrs.refl _
  · exact KeepsAddrs.refl _
  · split
    · -- the ticket branch frees the ticket first, which leaves the mapper alone
      rw [afterSave_snd]
      exact keepsAddrs_saveDeviceVlan env (freeTicket context) _ _ h1 h2 ⟨rfl, rfl, rfl⟩
    · rw [afterSave_snd]
      exact keepsAddrs_saveDeviceVlan _ _ _ _ h1 h2 ⟨rfl, rfl, rfl⟩

/-- A context whose view and firewall are those of a synchronised one is synchronised. -/
theorem FwSynced.of_keeps {s s' : NetworkContext} (h : FwSynced s)
    (hkeep : KeepsAddrs s.macMapper s'.macMapper) (hbl : s'.bridgeList = s.bridgeList)
    (hfw : s'.fwCtx = s.fwCtx) : FwSynced s' where
  nat := by
    rw [hfw, h.nat]
    exact (natRules_congr hkeep.nat).symm
  bridges := by
    rw [hfw, h.bridges, hbl]
    exact (bridgeRules_congr (W := addrView s'.macMapper s.bridgeList)
      (V := addrView s.macMapper s.bridgeList) hkeep.held fun _ _ => Iff.rfl).symm

@[simp] theorem addrView_link (hmap : HmapMacConn) (bl : BridgeMacList) (a b : MacAddr) :
    (addrView hmap bl).link a b ↔ (⟨a, b⟩ : BridgeMacTuple) ∈ bl := Iff.rfl

theorem linkSymm_addrView {bl : BridgeMacList} (hinv : BridgeInv bl) (hmap : HmapMacConn) :
    (addrView hmap bl).LinkSymm :=
  fun _ _ hab => hinv.symm _ hab

theorem linkIrrefl_addrView {bl : BridgeMacList} (hinv : BridgeInv bl) (hmap : HmapMacConn) :
    (addrView hmap bl).LinkIrrefl :=
  fun _ haa => hinv.irrefl _ haa rfl

/-! ## The rules the firewall calls make -/

/-- `add_nat_ip` on both slots of an entry adds the addresses it holds. -/
theorem natIps_addNatIp_slots (fwCtx : FwContext String) (info : MacConnInfo) :
    (↑(addNatIp (addNatIp fwCtx info.ipAddr) info.ipSecAddr).natIps : Set String) =
      ↑fwCtx.natIps ∪ {y | InSlot info y} := by
  rw [natIps_addNatIp, natIps_addNatIp, Set.union_assoc]
  congr 1
  ext y
  simp only [Set.mem_union, Set.mem_ofPred_eq, InSlot]
  constructor
  · rintro (⟨rfl, hv⟩ | ⟨rfl, hv⟩)
    · exact ⟨hv, Or.inl rfl⟩
    · exact ⟨hv, Or.inr rfl⟩
  · rintro ⟨hv, rfl | rfl⟩
    · exact Or.inl ⟨rfl, hv⟩
    · exact Or.inr ⟨rfl, hv⟩

/-- `remove_nat_ip` on both slots of an entry removes the addresses it holds. -/
theorem natIps_removeNatIp_slots (fwCtx : FwContext String) (info : MacConnInfo) :
    (↑(removeNatIp (removeNatIp fwCtx info.ipAddr) info.ipSecAddr).natIps : Set String) =
      ↑fwCtx.natIps \ {y | InSlot info y} := by
  rw [natIps_removeNatIp, natIps_removeNatIp, Set.sdiff_sdiff]
  congr 1
  ext y
  simp only [Set.mem_union, Set.mem_ofPred_eq, InSlot]
  constructor
  · rintro (⟨rfl, hv⟩ | ⟨rfl, hv⟩)
    · exact ⟨hv, Or.inl rfl⟩
    · exact ⟨hv, Or.inr rfl⟩
  · rintro ⟨hv, rfl | rfl⟩
    · exact Or.inl ⟨rfl, hv⟩
    · exact Or.inr ⟨rfl, hv⟩

/-- The pairs of the slots of two entries are the pairs of the addresses they hold. -/
theorem pairRulesOf_slots (leftInfo rightInfo : MacConnInfo) :
    pairRulesOf ([leftInfo.ipAddr, leftInfo.ipSecAddr] ×ˢ [rightInfo.ipAddr, rightInfo.ipSecAddr]) =
      {e | ∃ x y, InSlot leftInfo x ∧ InSlot rightInfo y ∧ e = s(x, y)} := by
  ext e
  simp only [pairRulesOf, Set.mem_ofPred_eq, InSlot]
  constructor
  · rintro ⟨⟨x, y⟩, hq, hx, hy, rfl⟩
    simp only [List.mem_product, List.mem_cons, List.not_mem_nil, or_false] at hq
    exact ⟨x, y, ⟨hx, hq.1.imp Eq.symm Eq.symm⟩, ⟨hy, hq.2.imp Eq.symm Eq.symm⟩, rfl⟩
  · rintro ⟨x, y, ⟨hx, hxs⟩, ⟨hy, hys⟩, rfl⟩
    refine ⟨(x, y), ?_, hx, hy, rfl⟩
    simp only [List.mem_product, List.mem_cons, List.not_mem_nil, or_false]
    exact ⟨hxs.imp Eq.symm Eq.symm, hys.imp Eq.symm Eq.symm⟩

/-- The pairs between two MACs are the pairs of their slots when both have an entry, and none
otherwise. -/
theorem pairRules_addrView (hmap : HmapMacConn) (bl : BridgeMacList) (l r : MacAddr) :
    (addrView hmap bl).pairRules l r =
      match getMacMapper hmap l, getMacMapper hmap r with
      | some leftInfo, some rightInfo =>
          {e | ∃ x y, InSlot leftInfo x ∧ InSlot rightInfo y ∧ e = s(x, y)}
      | _, _ => ∅ := by
  ext e
  simp only [pairRules, addrView, HeldBy, Set.mem_ofPred_eq]
  cases getMacMapper hmap l <;> cases getMacMapper hmap r <;> simp

/-- `add_bridge_ip` between two MACs adds the pairs of their addresses. -/
theorem bridges_macPairsWith_addBridgeIp (context : NetworkContext) (bl : BridgeMacList)
    (l r : MacAddr) :
    (↑(macPairsWith addBridgeIp context l r).bridges : Set (Sym2 String)) =
      ↑context.fwCtx.bridges ∪ (addrView context.macMapper bl).pairRules l r := by
  unfold macPairsWith
  rw [pairRules_addrView]
  cases getMacMapper context.macMapper l with
  | none => exact (Set.union_empty _).symm
  | some leftInfo =>
      cases getMacMapper context.macMapper r with
      | none => exact (Set.union_empty _).symm
      | some rightInfo =>
          dsimp only
          rw [slotPairsWith_eq_foldl, bridges_foldl_addBridgeIp, pairRulesOf_slots]

/-- `delete_bridge_ip` between two MACs removes the pairs of their addresses. -/
theorem bridges_macPairsWith_deleteBridgeIp (context : NetworkContext) (bl : BridgeMacList)
    (l r : MacAddr) :
    (↑(macPairsWith deleteBridgeIp context l r).bridges : Set (Sym2 String)) =
      ↑context.fwCtx.bridges \ (addrView context.macMapper bl).pairRules l r := by
  unfold macPairsWith
  rw [pairRules_addrView]
  cases getMacMapper context.macMapper l with
  | none => exact Set.sdiff_empty.symm
  | some leftInfo =>
      cases getMacMapper context.macMapper r with
      | none => exact Set.sdiff_empty.symm
      | some rightInfo =>
          dsimp only
          rw [slotPairsWith_eq_foldl, bridges_foldl_deleteBridgeIp, pairRulesOf_slots]

theorem natIps_macPairsWith (ipCall : FwContext String → String → String → FwContext String)
    (hcall : ∀ fwCtx l r, (ipCall fwCtx l r).natIps = fwCtx.natIps) (context : NetworkContext)
    (l r : MacAddr) : (macPairsWith ipCall context l r).natIps = context.fwCtx.natIps := by
  unfold macPairsWith
  split
  · rw [slotPairsWith_eq_foldl, natIps_foldl_bridgeIp ipCall hcall]
  · rfl

/-- The pairs of the loop of `set_ip_cmd` are those of the address with the addresses of the
MAC's partners, when the address is valid. -/
theorem pairRulesOf_partnerPairs (hmap : HmapMacConn) (bl : BridgeMacList) (mac : MacAddr)
    (ip : String) :
    pairRulesOf (partnerPairs hmap ip (getSrcMacList bl mac)) =
      {e | validateIpv4String ip.toList = true ∧ e ∈ (addrView hmap bl).partnerRules mac ip} := by
  ext e
  simp only [pairRulesOf, partnerPairs, List.mem_flatMap, Set.mem_ofPred_eq, partnerRules,
    addrView, HeldBy, mem_getSrcMacList]
  constructor
  · rintro ⟨q, ⟨p, hp, hq⟩, hv1, hv2, rfl⟩
    cases hget : getMacMapper hmap p with
    | none => simp [hget] at hq
    | some info =>
        simp only [hget, List.mem_cons, List.not_mem_nil, or_false] at hq
        rcases hq with rfl | rfl
        · exact ⟨hv1, p, _, hp, ⟨info, hget, hv2, Or.inl rfl⟩, rfl⟩
        · exact ⟨hv1, p, _, hp, ⟨info, hget, hv2, Or.inr rfl⟩, rfl⟩
  · rintro ⟨hv, p, y, hp, ⟨info, hget, hy, hslot⟩, rfl⟩
    refine ⟨(ip, y), ⟨p, hp, ?_⟩, hv, hy, rfl⟩
    simp only [hget, List.mem_cons, List.not_mem_nil, or_false, Prod.mk.injEq, true_and]
    exact hslot.imp Eq.symm Eq.symm

/-! ## Steps that give a MAC an address or take one away -/

section Shapes

variable {s s' : NetworkContext} {m : MacAddr} {x : String} {n : Prop}

/-- A step that gives `m` the address `x` (when valid), with NAT on when `n`, and adds the NAT
rule and the partner pairs of `x`, keeps the firewall synchronised. -/
theorem fwSynced_of_assign (h : FwSynced s) (hinv : BridgeInv s.bridgeList)
    (hbl : s'.bridgeList = s.bridgeList)
    (hheld : ∀ a y, HeldBy s'.macMapper a y ↔
      HeldBy s.macMapper a y ∨ (a = m ∧ y = x ∧ validateIpv4String x.toList = true))
    (hnat : ∀ a y, NatOn s'.macMapper a y ↔ NatOn s.macMapper a y ∨ (a = m ∧ y = x ∧ n))
    (hfwNat : (↑s'.fwCtx.natIps : Set String) = ↑s.fwCtx.natIps ∪ {y | y = x ∧ n})
    (hfwBridges : (↑s'.fwCtx.bridges : Set (Sym2 String)) = ↑s.fwCtx.bridges ∪
      {e | validateIpv4String x.toList = true ∧
        e ∈ (addrView s.macMapper s.bridgeList).partnerRules m x}) :
    FwSynced s' where
  nat := by
    rw [hfwNat, h.nat, natRules_of_assign (W := addrView s'.macMapper s'.bridgeList)
      (V := addrView s.macMapper s.bridgeList) hnat]
  bridges := by
    rw [hfwBridges, h.bridges, bridgeRules_of_assign (W := addrView s'.macMapper s'.bridgeList)
      (V := addrView s.macMapper s.bridgeList) (linkSymm_addrView hinv _)
      (linkIrrefl_addrView hinv _) (fun b c => by simp only [addrView_link, hbl]) hheld]

/-- A step that takes `x` from its only holder `m`, with its NAT rule when `n` and its partner
pairs, keeps the firewall synchronised. -/
theorem fwSynced_of_release (h : FwSynced s) (hinv : BridgeInv s.bridgeList)
    (hsole : ∀ b, HeldBy s.macMapper b x → b = m) (hbl : s'.bridgeList = s.bridgeList)
    (hheld : ∀ a y, HeldBy s'.macMapper a y ↔
      HeldBy s.macMapper a y ∧ ¬ (y = x ∧ validateIpv4String x.toList = true))
    (hnat : ∀ a y, NatOn s'.macMapper a y ↔ NatOn s.macMapper a y ∧ ¬ (y = x ∧ n))
    (hfwNat : (↑s'.fwCtx.natIps : Set String) = ↑s.fwCtx.natIps \ {y | y = x ∧ n})
    (hfwBridges : (↑s'.fwCtx.bridges : Set (Sym2 String)) = ↑s.fwCtx.bridges \
      {e | validateIpv4String x.toList = true ∧
        e ∈ (addrView s.macMapper s.bridgeList).partnerRules m x}) :
    FwSynced s' where
  nat := by
    rw [hfwNat, h.nat, natRules_of_release (W := addrView s'.macMapper s'.bridgeList)
      (V := addrView s.macMapper s.bridgeList) hnat]
  bridges := by
    rw [hfwBridges, h.bridges, bridgeRules_of_release (W := addrView s'.macMapper s'.bridgeList)
      (V := addrView s.macMapper s.bridgeList) (linkSymm_addrView hinv _) (fun _ => hsole)
      (fun b c => by simp only [addrView_link, hbl]) hheld]

end Shapes

/-! ## The NAT commands -/

section NatCmd

variable (nat : Bool) (natIp : FwContext String → String → FwContext String) (env : SaveEnv)
  (context : NetworkContext) (macAddr : MacAddr)

theorem natCmdWith_macMapper : (natCmdWith nat natIp env context macAddr).2.macMapper =
    (saveMacMapper env context.toSupervisorContext ⟨macAddr, { lookupOrDefault context.macMapper
      macAddr (initDefaultMacInfo context.defaultOpenVlanid context.allowAllNat) with nat := nat }⟩).2.macMapper :=
  rfl

theorem natCmdWith_bridgeList : (natCmdWith nat natIp env context macAddr).2.bridgeList =
    context.bridgeList := rfl

theorem natCmdWith_fwCtx : (natCmdWith nat natIp env context macAddr).2.fwCtx =
    let info := lookupOrDefault context.macMapper macAddr
      (initDefaultMacInfo context.defaultOpenVlanid context.allowAllNat)
    natIp (natIp context.fwCtx info.ipAddr) info.ipSecAddr := rfl

/-- A NAT command keeps the addresses every MAC holds, and sets the flag of its MAC. -/
theorem natCmdWith_view (a : MacAddr) (y : String) :
    (HeldBy (natCmdWith nat natIp env context macAddr).2.macMapper a y ↔
        HeldBy context.macMapper a y) ∧
      (NatOn (natCmdWith nat natIp env context macAddr).2.macMapper a y ↔
        if a = macAddr then nat = true ∧ HeldBy context.macMapper macAddr y
        else NatOn context.macMapper a y) := by
  have h1 : (initDefaultMacInfo context.defaultOpenVlanid context.allowAllNat).ipAddr = "" := rfl
  have h2 : (initDefaultMacInfo context.defaultOpenVlanid context.allowAllNat).ipSecAddr = "" := rfl
  rw [natCmdWith_macMapper, heldBy_saveMacMapper, natOn_saveMacMapper,
    heldBy_iff_lookupOrDefault context.macMapper macAddr h1 h2 y]
  split
  · rename_i ha
    subst ha
    rw [heldBy_iff_lookupOrDefault context.macMapper a h1 h2 y]
    exact ⟨Iff.rfl, Iff.rfl⟩
  · exact ⟨Iff.rfl, Iff.rfl⟩

end NatCmd

/-- `add_nat_cmd` keeps the firewall synchronised, whatever the SQLite write does. -/
theorem fwSynced_addNatCmd {s : NetworkContext} (h : FwSynced s) (env : SaveEnv) (macAddr : MacAddr) :
    FwSynced (addNatCmd env s macAddr).2 where
  nat := by
    rw [addNatCmd, natCmdWith_fwCtx, natCmdWith_bridgeList]
    dsimp only
    rw [natIps_addNatIp_slots, h.nat, natRules_of_natOn (a := macAddr)
      (W := addrView (natCmdWith true addNatIp env s macAddr).2.macMapper s.bridgeList)
      (V := addrView s.macMapper s.bridgeList) ?_]
    · congr 1
      ext y
      exact (heldBy_iff_lookupOrDefault s.macMapper macAddr rfl rfl y).symm
    · -- the view after: NAT on for every address of the MAC
      intro a y
      dsimp only [addrView]
      rw [(natCmdWith_view true addNatIp env s macAddr a y).2]
      split
      · rename_i ha
        subst ha
        exact ⟨fun hy => Or.inr ⟨rfl, hy.2⟩,
          fun hy => ⟨rfl, hy.elim NatOn.heldBy fun hy => hy.2⟩⟩
      · rename_i ha
        exact ⟨Or.inl, fun hy => hy.resolve_right fun hy => ha hy.1⟩
  bridges := by
    rw [addNatCmd, natCmdWith_fwCtx, natCmdWith_bridgeList]
    dsimp only
    rw [addNatIp_bridges, addNatIp_bridges, h.bridges]
    exact (bridgeRules_congr
      (W := addrView (natCmdWith true addNatIp env s macAddr).2.macMapper s.bridgeList)
      (V := addrView s.macMapper s.bridgeList)
      (fun a y => (natCmdWith_view true addNatIp env s macAddr a y).1) fun _ _ => Iff.rfl).symm

/-- `remove_nat_cmd` keeps the firewall synchronised, when each address has one holder. -/
theorem fwSynced_removeNatCmd {s : NetworkContext} (h : FwSynced s) (hu : IpUnique s.macMapper)
    (env : SaveEnv) (macAddr : MacAddr) : FwSynced (removeNatCmd env s macAddr).2 where
  nat := by
    rw [removeNatCmd, natCmdWith_fwCtx, natCmdWith_bridgeList]
    dsimp only
    rw [natIps_removeNatIp_slots, h.nat, natRules_of_natOff (a := macAddr)
      (W := addrView (natCmdWith false removeNatIp env s macAddr).2.macMapper s.bridgeList)
      (V := addrView s.macMapper s.bridgeList) hu (fun _ _ => NatOn.heldBy) ?_]
    · congr 1
      ext y
      exact (heldBy_iff_lookupOrDefault s.macMapper macAddr rfl rfl y).symm
    · -- the view after: NAT off for the MAC, as before for the others
      intro a y
      dsimp only [addrView]
      rw [(natCmdWith_view false removeNatIp env s macAddr a y).2]
      split
      · rename_i ha
        exact iff_of_false (fun hy => Bool.false_ne_true hy.1) fun hy => hy.2 ha
      · rename_i ha
        exact ⟨fun hy => ⟨hy, ha⟩, And.left⟩
  bridges := by
    rw [removeNatCmd, natCmdWith_fwCtx, natCmdWith_bridgeList]
    dsimp only
    rw [removeNatIp_bridges, removeNatIp_bridges, h.bridges]
    exact (bridgeRules_congr
      (W := addrView (natCmdWith false removeNatIp env s macAddr).2.macMapper s.bridgeList)
      (V := addrView s.macMapper s.bridgeList)
      (fun a y => (natCmdWith_view false removeNatIp env s macAddr a y).1) fun _ _ => Iff.rfl).symm

/-! ## The bridge commands -/

section Bridges

variable {s : NetworkContext} (leftMacAddr rightMacAddr : MacAddr)

theorem addBridgeMacCmd_fst :
    (addBridgeMacCmd s leftMacAddr rightMacAddr).1 = 0 ∨
      (addBridgeMacCmd s leftMacAddr rightMacAddr).1 = -1 := by
  unfold addBridgeMacCmd
  dsimp only
  split_ifs
  · exact Or.inl rfl
  · exact Or.inr rfl

theorem bridgeInv_addBridgeMacCmd (hinv : BridgeInv s.bridgeList) :
    BridgeInv (addBridgeMacCmd s leftMacAddr rightMacAddr).2.bridgeList := by
  unfold addBridgeMacCmd
  dsimp only
  split_ifs <;> exact bridgeInv_step hinv (.add leftMacAddr rightMacAddr)

/-- A successful `add_bridge_mac_cmd` records a bridge and adds the pairs of the two MACs'
addresses: the firewall stays synchronised. -/
theorem fwSynced_addBridgeMacCmd (h : FwSynced s) (hinv : BridgeInv s.bridgeList)
    (hret : (addBridgeMacCmd s leftMacAddr rightMacAddr).1 = 0) :
    FwSynced (addBridgeMacCmd s leftMacAddr rightMacAddr).2 := by
  unfold addBridgeMacCmd at hret ⊢
  dsimp only at hret ⊢
  split_ifs at hret ⊢ with hle
  · -- `add_bridge_mac` refuses equal addresses, so the two MACs differ
    have hne : leftMacAddr ≠ rightMacAddr := by
      rintro rfl
      simp [addBridgeMac] at hle
    constructor
    · rw [natIps_macPairsWith addBridgeIp addBridgeIp_natIps]
      exact h.nat
    · rw [bridges_macPairsWith_addBridgeIp _ s.bridgeList]
      dsimp only
      rw [h.bridges, bridgeRules_of_link
        (W := addrView s.macMapper (addBridgeMac s.bridgeList leftMacAddr rightMacAddr).2)
        (V := addrView s.macMapper s.bridgeList) (fun _ _ => Iff.rfl)]
      intro c d
      simp only [addrView_link, mem_addBridgeMac hinv hne, BridgeMacTuple.mk.injEq]
  · simp at hret

/-- On an invariant list `remove_bridge_cmd` deletes the bridge and the pairs of the two MACs'
addresses, and returns `0`. -/
theorem removeBridgeCmd_eq (hinv : BridgeInv s.bridgeList) :
    removeBridgeCmd s leftMacAddr rightMacAddr =
      let s' := { s with bridgeList := s.bridgeList.filter fun (e : BridgeMacTuple) =>
        ¬ (e = (⟨leftMacAddr, rightMacAddr⟩ : BridgeMacTuple) ∨
          e = (⟨rightMacAddr, leftMacAddr⟩ : BridgeMacTuple)) }
      (0, { s' with fwCtx := macPairsWith deleteBridgeIp s' leftMacAddr rightMacAddr }) := by
  unfold removeBridgeCmd
  rw [removeBridgeMac_eq hinv]
  rfl

theorem fwSynced_removeBridgeCmd (h : FwSynced s) (hinv : BridgeInv s.bridgeList)
    (hu : IpUnique s.macMapper) : FwSynced (removeBridgeCmd s leftMacAddr rightMacAddr).2 := by
  rw [removeBridgeCmd_eq _ _ hinv]
  constructor
  · rw [natIps_macPairsWith deleteBridgeIp deleteBridgeIp_natIps]
    exact h.nat
  · rw [bridges_macPairsWith_deleteBridgeIp _ s.bridgeList]
    dsimp only
    rw [h.bridges, bridgeRules_of_unlink (W := addrView s.macMapper
        (s.bridgeList.filter fun (e : BridgeMacTuple) =>
          ¬ (e = (⟨leftMacAddr, rightMacAddr⟩ : BridgeMacTuple) ∨
            e = (⟨rightMacAddr, leftMacAddr⟩ : BridgeMacTuple))))
      (V := addrView s.macMapper s.bridgeList) hu (fun _ _ => Iff.rfl)]
    intro c d
    simp only [addrView_link, List.mem_filter, BridgeMacTuple.mk.injEq, decide_eq_true_eq]

/-- `clear_bridges_cmd` runs `remove_bridge_cmd` with every entry; each keeps the firewall
synchronised, the bridge list invariant and the mapper. -/
theorem clearBridgesCmd_spec (h : FwSynced s) (hinv : BridgeInv s.bridgeList)
    (hu : IpUnique s.macMapper) (macAddr : MacAddr) :
    FwSynced (clearBridgesCmd s macAddr).2 ∧ BridgeInv (clearBridgesCmd s macAddr).2.bridgeList ∧
      (clearBridgesCmd s macAddr).2.macMapper = s.macMapper := by
  unfold clearBridgesCmd
  dsimp only
  generalize getMacList s.macMapper = els
  -- the loop over the entries, carrying the three facts
  induction els generalizing s with
  | nil => exact ⟨h, hinv, rfl⟩
  | cons el els ih =>
      rw [List.foldl_cons]
      have hmap : (removeBridgeCmd s macAddr el.macAddr).2.macMapper = s.macMapper := by
        rw [removeBridgeCmd_eq _ _ hinv]
      have hinv' : BridgeInv (removeBridgeCmd s macAddr el.macAddr).2.bridgeList := by
        rw [removeBridgeCmd_eq _ _ hinv]
        exact hinv.remove _ _
      obtain ⟨h', hinv'', hmap'⟩ := ih (fwSynced_removeBridgeCmd _ _ h hinv hu) hinv'
        (hmap ▸ hu)
      exact ⟨h', hinv'', hmap'.trans hmap⟩

/-- `add_bridge_ip_cmd` does nothing, or what an `add_bridge_mac_cmd` does, which then
succeeds when it does. -/
theorem addBridgeIpCmd_cases (leftIpAddr rightIpAddr : String) :
    (addBridgeIpCmd s leftIpAddr rightIpAddr).2 = s ∨
      ∃ l r, (addBridgeIpCmd s leftIpAddr rightIpAddr).2 = (addBridgeMacCmd s l r).2 ∧
        ((addBridgeIpCmd s leftIpAddr rightIpAddr).1 = 0 → (addBridgeMacCmd s l r).1 = 0) := by
  unfold addBridgeIpCmd
  cases getIpMapper s.macMapper leftIpAddr with
  | none => exact Or.inl rfl
  | some l =>
      cases getIpMapper s.macMapper rightIpAddr with
      | none => exact Or.inl rfl
      | some r =>
          dsimp only
          by_cases hex : 0 < checkBridgeExist s.bridgeList l r
          · rw [if_pos hex]
            exact Or.inl rfl
          · rw [if_neg hex]
            refine Or.inr ⟨l, r, rfl, fun hret => ?_⟩
            dsimp only at hret
            by_cases hlt : (addBridgeMacCmd s l r).1 < 0
            · rw [if_pos hlt] at hret
              simp at hret
            · exact (addBridgeMacCmd_fst l r).resolve_right fun h => hlt (by rw [h]; decide)

end Bridges

/-! ## The commands that keep the view -/

/-- `accept_mac_cmd` changes the VLAN and the permission of the entry, never its slots or
`nat` flag, and touches neither the bridges nor the firewall. -/
theorem acceptMacCmd_keeps (env : AcceptEnv) (s : NetworkContext) (macAddr : MacAddr)
    (vlanid : Int) :
    KeepsAddrs s.macMapper (acceptMacCmd env s macAddr vlanid).2.macMapper ∧
      (acceptMacCmd env s macAddr vlanid).2.bridgeList = s.bridgeList ∧
      (acceptMacCmd env s macAddr vlanid).2.fwCtx = s.fwCtx := by
  unfold acceptMacCmd
  split
  · exact ⟨KeepsAddrs.refl _, rfl, rfl⟩
  · dsimp only
    have hk : KeepsAddrs s.macMapper (saveMacMapper env.save s.toSupervisorContext
        ⟨macAddr, { lookupOrDefault s.macMapper macAddr
          (initDefaultMacInfo s.defaultOpenVlanid s.allowAllNat) with
            allowConnection := true, vlanid := vlanid, ifname := ‹String› }⟩).2.macMapper :=
      keepsAddrs_saveMacMapper _ _ _ (d := initDefaultMacInfo s.defaultOpenVlanid s.allowAllNat)
        rfl rfl ⟨rfl, rfl, rfl⟩
    split_ifs <;> exact ⟨hk, rfl, rfl⟩

/-- `deny_mac_cmd` changes only the permission of the entry. -/
theorem keepsAddrs_denyMacCmd (env : SaveEnv) (disconnectOk : Bool) (context : SupervisorContext)
    (macAddr : MacAddr) :
    KeepsAddrs context.macMapper (denyMacCmd env disconnectOk context macAddr).2.macMapper := by
  rw [denyMacCmd_snd]
  exact keepsAddrs_saveMacMapper _ _ _
    (d := initDefaultMacInfo context.defaultOpenVlanid context.allowAllNat) rfl rfl ⟨rfl, rfl, rfl⟩

/-! ## `set_ip_cmd` -/

section SetIp

variable {env : SetIpEnv} {s s' : NetworkContext} {macAddr : MacAddr} {ipAddr : String}
  {ipType : DhcpIpType} {add : Bool} {info : MacConnInfo}

/-- What a `set_ip_cmd` that gets past its `switch` and its checks leaves: the entry of
`macAddr` with the slots and `nat` flag of `info`, the NAT call for the address, then the
bridge calls of the address with both slots of every bridged MAC that has an entry. -/
structure SetIpStored (s : NetworkContext) (macAddr : MacAddr) (ipAddr : String) (add : Bool)
    (info : MacConnInfo) (s' : NetworkContext) : Prop where
  bridgeList : s'.bridgeList = s.bridgeList
  held : ∀ a y, HeldBy s'.macMapper a y ↔
    if a = macAddr then InSlot info y else HeldBy s.macMapper a y
  nat : ∀ a y, NatOn s'.macMapper a y ↔
    if a = macAddr then info.nat = true ∧ InSlot info y else NatOn s.macMapper a y
  fwCtx : s'.fwCtx = setIpPartners (if add then addBridgeIp else deleteBridgeIp) s'.macMapper
    ipAddr (getSrcMacList s.bridgeList macAddr)
      (if add ∧ info.nat then addNatIp s.fwCtx ipAddr
        else if ¬ add ∧ info.nat then removeNatIp s.fwCtx ipAddr else s.fwCtx)

/-- A `set_ip_cmd` that returns `0` either leaves the context as it was (the address is
already in a slot, or the call is an ARP notice) or stores the entry its `switch` computed. -/
theorem setIpCmd_cases (hret : (setIpCmd env s macAddr ipAddr ipType).1 = 0) :
    (setIpCmd env s macAddr ipAddr ipType).2 = s ∨
      ∃ info, setIpSwitch (lookupOrDefault s.macMapper macAddr
          (initDefaultMacInfo s.defaultOpenVlanid s.allowAllNat)) ipAddr ipType = .store info ∧
        SetIpStored s macAddr ipAddr (ipType == .new || ipType == .old) info
          (setIpCmd env s macAddr ipAddr ipType).2 := by
  unfold setIpCmd at hret ⊢
  cases hif : env.ifname with
  | none => simp [hif] at hret
  | some ifname =>
      simp only [hif] at hret ⊢
      cases hsw : setIpSwitch (lookupOrDefault s.macMapper macAddr
          (initDefaultMacInfo s.defaultOpenVlanid s.allowAllNat)) ipAddr ipType with
      | ret code => exact Or.inl rfl
      | store info =>
          simp only [hsw] at hret ⊢
          -- the failed save and the failed notification return `-1`
          split at hret
          · simp at hret
          rename_i hsave
          split at hret
          · simp at hret
          rename_i hsub
          rw [if_neg hsave, if_neg hsub]
          refine Or.inr ⟨info, rfl, ?_⟩
          exact ⟨rfl, fun a y => heldBy_saveMacMapper _ _ _ a y,
            fun a y => natOn_saveMacMapper _ _ _ a y, rfl⟩

namespace SetIpStored

/-- The partners of `macAddr` are other MACs, whose entries the store leaves alone. -/
theorem partnerRules_eq (h : SetIpStored s macAddr ipAddr add info s')
    (hinv : BridgeInv s.bridgeList) (x : String) :
    (addrView s'.macMapper s.bridgeList).partnerRules macAddr x =
      (addrView s.macMapper s.bridgeList).partnerRules macAddr x := by
  refine partnerRules_congr (W := addrView s'.macMapper s.bridgeList)
    (V := addrView s.macMapper s.bridgeList) (fun _ _ => Iff.rfl) fun b hb y => ?_
  have hne : b ≠ macAddr := by
    rintro rfl
    exact linkIrrefl_addrView hinv s.macMapper b hb
  dsimp only [addrView]
  rw [h.held, if_neg hne]

/-- The bridge calls leave the NAT rules as the NAT call made them. -/
theorem natIps_eq (h : SetIpStored s macAddr ipAddr add info s') :
    s'.fwCtx.natIps = (if add ∧ info.nat then addNatIp s.fwCtx ipAddr
      else if ¬ add ∧ info.nat then removeNatIp s.fwCtx ipAddr else s.fwCtx).natIps := by
  rw [h.fwCtx, setIpPartners_eq_foldl]
  apply natIps_foldl_bridgeIp
  cases add
  · exact deleteBridgeIp_natIps
  · exact addBridgeIp_natIps

/-- A new address gets its pairs with the addresses of the MAC's partners, a released one
loses them. -/
theorem bridges_eq (h : SetIpStored s macAddr ipAddr add info s') (hinv : BridgeInv s.bridgeList) :
    (↑s'.fwCtx.bridges : Set (Sym2 String)) =
      if add then ↑s.fwCtx.bridges ∪ {e | validateIpv4String ipAddr.toList = true ∧
          e ∈ (addrView s.macMapper s.bridgeList).partnerRules macAddr ipAddr}
      else ↑s.fwCtx.bridges \ {e | validateIpv4String ipAddr.toList = true ∧
          e ∈ (addrView s.macMapper s.bridgeList).partnerRules macAddr ipAddr} := by
  -- the NAT call before the loop leaves the bridge rules alone
  have hnat : (if add ∧ info.nat then addNatIp s.fwCtx ipAddr
      else if ¬ add ∧ info.nat then removeNatIp s.fwCtx ipAddr else s.fwCtx).bridges =
        s.fwCtx.bridges := by
    split_ifs <;> simp
  rw [h.fwCtx, setIpPartners_eq_foldl, ← h.partnerRules_eq hinv]
  cases add
  · rw [if_neg Bool.false_ne_true, if_neg Bool.false_ne_true, bridges_foldl_deleteBridgeIp,
      pairRulesOf_partnerPairs, hnat]
  · rw [if_pos rfl, if_pos rfl, bridges_foldl_addBridgeIp, pairRulesOf_partnerPairs, hnat]

end SetIpStored

theorem HeldBy.valid {hmap : HmapMacConn} {a : MacAddr} {y : String} (h : HeldBy hmap a y) :
    validateIpv4String y.toList = true := by
  obtain ⟨info, -, hin⟩ := h
  exact hin.1

/-- A `set_ip_cmd` that stores a new or renewed address gives it to the MAC. -/
theorem fwSynced_setIp_assign (h : FwSynced s) (hinv : BridgeInv s.bridgeList)
    (hnul : '\x00' ∉ ipAddr.toList) (hadd : ipType = .new ∨ ipType = .old)
    (hsw : setIpSwitch (lookupOrDefault s.macMapper macAddr
      (initDefaultMacInfo s.defaultOpenVlanid s.allowAllNat)) ipAddr ipType = .store info)
    (hst : SetIpStored s macAddr ipAddr true info s') : FwSynced s' := by
  have h1 : (initDefaultMacInfo s.defaultOpenVlanid s.allowAllNat).ipAddr = "" := rfl
  have h2 : (initDefaultMacInfo s.defaultOpenVlanid s.allowAllNat).ipSecAddr = "" := rfl
  have hslot := inSlot_of_setIpSwitch_add hadd hnul hsw
  refine fwSynced_of_assign (m := macAddr) (x := ipAddr)
    (n := (lookupOrDefault s.macMapper macAddr
      (initDefaultMacInfo s.defaultOpenVlanid s.allowAllNat)).nat = true ∧
        validateIpv4String ipAddr.toList = true) h hinv hst.bridgeList ?_ ?_ ?_ ?_
  · intro a y
    rw [hst.held]
    split_ifs with ha
    · subst ha
      rw [hslot, ← heldBy_iff_lookupOrDefault s.macMapper a h1 h2 y]
      exact or_congr_right ⟨fun hy => ⟨rfl, hy⟩, fun hy => hy.2⟩
    · exact ⟨Or.inl, fun hy => hy.resolve_right fun hy => ha hy.1⟩
  · intro a y
    rw [hst.nat]
    split_ifs with ha
    · subst ha
      rw [setIpSwitch_nat hsw, hslot, natOn_iff_lookupOrDefault s.macMapper a h1 h2 y, and_or_left]
      exact or_congr_right ⟨fun ⟨hn, hy, hv⟩ => ⟨rfl, hy, hn, hv⟩, fun ⟨_, hy, hn, hv⟩ => ⟨hn, hy, hv⟩⟩
    · exact ⟨Or.inl, fun hy => hy.resolve_right fun hy => ha hy.1⟩
  · rw [hst.natIps_eq, setIpSwitch_nat hsw]
    by_cases hn : (lookupOrDefault s.macMapper macAddr
        (initDefaultMacInfo s.defaultOpenVlanid s.allowAllNat)).nat = true
    · simp only [hn, and_self, if_true, natIps_addNatIp, true_and]
    · simp [hn]
  · rw [hst.bridges_eq hinv, if_pos rfl]

/-- A `set_ip_cmd` that releases an address no other MAC holds takes it from the MAC. -/
theorem fwSynced_setIp_release (h : FwSynced s) (hinv : BridgeInv s.bridgeList)
    (hsole : ∀ b, HeldBy s.macMapper b ipAddr → b = macAddr)
    (hsw : setIpSwitch (lookupOrDefault s.macMapper macAddr
      (initDefaultMacInfo s.defaultOpenVlanid s.allowAllNat)) ipAddr .del = .store info)
    (hst : SetIpStored s macAddr ipAddr false info s') : FwSynced s' := by
  have h1 : (initDefaultMacInfo s.defaultOpenVlanid s.allowAllNat).ipAddr = "" := rfl
  have h2 : (initDefaultMacInfo s.defaultOpenVlanid s.allowAllNat).ipSecAddr = "" := rfl
  have hslot := inSlot_of_setIpSwitch_del hsw
  refine fwSynced_of_release (m := macAddr) (x := ipAddr)
    (n := (lookupOrDefault s.macMapper macAddr
      (initDefaultMacInfo s.defaultOpenVlanid s.allowAllNat)).nat = true ∧
        validateIpv4String ipAddr.toList = true) h hinv hsole hst.bridgeList ?_ ?_ ?_ ?_
  · intro a y
    rw [hst.held]
    split_ifs with ha
    · subst ha
      rw [hslot, ← heldBy_iff_lookupOrDefault s.macMapper a h1 h2 y]
      exact and_congr_right fun hy =>
        ⟨fun hne hc => hne hc.1, fun hc he => hc ⟨he, he ▸ hy.valid⟩⟩
    · -- another holder of the address would be `macAddr`
      exact ⟨fun hy => ⟨hy, fun hc => ha (hsole a (hc.1 ▸ hy))⟩, And.left⟩
  · intro a y
    rw [hst.nat]
    split_ifs with ha
    · subst ha
      rw [setIpSwitch_nat hsw, hslot, natOn_iff_lookupOrDefault s.macMapper a h1 h2 y]
      constructor
      · rintro ⟨hn, hy, hne⟩
        exact ⟨⟨hn, hy⟩, fun hc => hne hc.1⟩
      · rintro ⟨⟨hn, hy⟩, hc⟩
        exact ⟨hn, hy, fun he => hc ⟨he, hn, he ▸ hy.1⟩⟩
    · exact ⟨fun hy => ⟨hy, fun hc => ha (hsole a (hc.1 ▸ hy.heldBy))⟩, And.left⟩
  · rw [hst.natIps_eq, setIpSwitch_nat hsw]
    by_cases hn : (lookupOrDefault s.macMapper macAddr
        (initDefaultMacInfo s.defaultOpenVlanid s.allowAllNat)).nat = true
    · simp only [hn, and_self, Bool.false_eq_true, false_and, if_false, not_false_eq_true,
        if_true, natIps_removeNatIp, true_and]
    · simp [hn]
  · rw [hst.bridges_eq hinv, if_neg Bool.false_ne_true]

/-- A successful `set_ip_cmd` keeps the firewall synchronised, when the address is a C string
and a release names an address no other MAC holds. -/
theorem fwSynced_setIpCmd (h : FwSynced s) (hinv : BridgeInv s.bridgeList)
    (hnul : '\x00' ∉ ipAddr.toList)
    (hdel : ipType = .del → ∀ b, HeldBy s.macMapper b ipAddr → b = macAddr)
    (hret : (setIpCmd env s macAddr ipAddr ipType).1 = 0) :
    FwSynced (setIpCmd env s macAddr ipAddr ipType).2 := by
  rcases setIpCmd_cases hret with hsame | ⟨info, hsw, hst⟩
  · rw [hsame]
    exact h
  · cases ipType with
    | new => exact fwSynced_setIp_assign h hinv hnul (Or.inl rfl) hsw hst
    | old => exact fwSynced_setIp_assign h hinv hnul (Or.inr rfl) hsw hst
    | del => exact fwSynced_setIp_release h hinv (hdel rfl) hsw hst
    | arp => simp [setIpSwitch] at hsw
    | none => simp [setIpSwitch] at hsw

/-- `set_ip_cmd` never touches the bridge list. -/
theorem setIpCmd_bridgeList (hret : (setIpCmd env s macAddr ipAddr ipType).1 = 0) :
    (setIpCmd env s macAddr ipAddr ipType).2.bridgeList = s.bridgeList := by
  rcases setIpCmd_cases hret with hsame | ⟨info, -, hst⟩
  · rw [hsame]
  · exact hst.bridgeList

end SetIp

/-! ## Every run -/

/-- What the run theorem assumes of a step: the command succeeds, no valid address has two
holders before it, and a `SET_IP` names a C string and, for a release, an address no other
MAC holds (as an address the MAC holds is, when no address has two holders). -/
def CmdOk (t : Transition NetworkContext NetCommand Int) : Prop :=
  t.reply = 0 ∧ IpUnique t.before.macMapper ∧
    match t.cmd with
    | .setIp macAddr ipAddr ipType _ => '\x00' ∉ ipAddr.toList ∧
        (ipType = .del → ∀ b, HeldBy t.before.macMapper b ipAddr → b = macAddr)
    | _ => True

/-- The invariant of a run: the firewall is synchronised and the bridge list well formed. -/
structure SyncInv (s : NetworkContext) : Prop where
  synced : FwSynced s
  bridges : BridgeInv s.bridgeList

/-- An empty mapper, bridge list and firewall are synchronised. -/
theorem syncInv_empty (s : NetworkContext) (hmap : s.macMapper = []) (hbl : s.bridgeList = [])
    (hfw : s.fwCtx = FwContext.empty) : SyncInv s where
  synced := by
    constructor
    · ext y
      simp [hmap, hfw, FwContext.empty, natRules, addrView, NatOn, getMacMapper]
    · ext e
      simp [hbl, hfw, FwContext.empty, bridgeRules, addrView]
  bridges := hbl ▸ bridgeInv_init

/-- One command that meets `CmdOk` keeps `SyncInv`. -/
theorem netStep_syncInv (s : NetworkContext) (c : NetCommand) (hs : SyncInv s)
    (hok : CmdOk ⟨s, c, (netStep s c).1, (netStep s c).2⟩) : SyncInv (netStep s c).1 := by
  obtain ⟨hret, hu, hcmd⟩ := hok
  cases c with
  | setIp macAddr ipAddr ipType env =>
      obtain ⟨hnul, hdel⟩ := hcmd
      exact ⟨fwSynced_setIpCmd hs.synced hs.bridges hnul hdel hret,
        (setIpCmd_bridgeList hret).symm ▸ hs.bridges⟩
  | addNat macAddr env => exact ⟨fwSynced_addNatCmd hs.synced env macAddr, hs.bridges⟩
  | removeNat macAddr env => exact ⟨fwSynced_removeNatCmd hs.synced hu env macAddr, hs.bridges⟩
  | addBridgeMac l r =>
      exact ⟨fwSynced_addBridgeMacCmd l r hs.synced hs.bridges hret,
        bridgeInv_addBridgeMacCmd l r hs.bridges⟩
  | addBridgeIp leftIpAddr rightIpAddr =>
      show SyncInv (addBridgeIpCmd s leftIpAddr rightIpAddr).2
      rcases addBridgeIpCmd_cases leftIpAddr rightIpAddr with hsame | ⟨l, r, heq, hmac⟩
      · -- an address without a holder, or a bridge already there: nothing changes
        rw [hsame]
        exact hs
      · rw [heq]
        exact ⟨fwSynced_addBridgeMacCmd l r hs.synced hs.bridges (hmac hret),
          bridgeInv_addBridgeMacCmd l r hs.bridges⟩
  | removeBridge l r =>
      refine ⟨fwSynced_removeBridgeCmd l r hs.synced hs.bridges hu, ?_⟩
      show BridgeInv (removeBridgeCmd s l r).2.bridgeList
      rw [removeBridgeCmd_eq _ _ hs.bridges]
      exact hs.bridges.remove _ _
  | clearBridges macAddr =>
      obtain ⟨hsync, hinv, -⟩ := clearBridgesCmd_spec hs.synced hs.bridges hu macAddr
      exact ⟨hsync, hinv⟩
  | acceptMac macAddr vlanid env =>
      obtain ⟨hkeep, hbl, hfw⟩ := acceptMacCmd_keeps env s macAddr vlanid
      exact ⟨hs.synced.of_keeps hkeep hbl hfw, hbl ▸ hs.bridges⟩
  | denyMac macAddr env disconnectOk =>
      exact ⟨hs.synced.of_keeps
        (keepsAddrs_denyMacCmd env disconnectOk s.toSupervisorContext macAddr) rfl rfl, hs.bridges⟩
  | getMacConn macAddr env =>
      exact ⟨hs.synced.of_keeps (keepsAddrs_getMacConnCmd env s.toSupervisorContext macAddr) rfl rfl,
        hs.bridges⟩

/-- Along every run of successful commands from an empty mapper, bridge list and firewall, in
which no valid address has two holders and every release names an address no other MAC holds,
the NAT rules are the valid addresses in a slot of a MAC with NAT on, and the bridge rules are
the pairs of valid addresses in slots of two bridged MACs, after every command. -/
theorem firewall_follows_mac_mapper (s₀ : NetworkContext) (hmap : s₀.macMapper = [])
    (hbl : s₀.bridgeList = []) (hfw : s₀.fwCtx = FwContext.empty) (cs : List NetCommand)
    (hok : ∀ t ∈ transitions netStep s₀ cs, CmdOk t) :
    ∀ t ∈ transitions netStep s₀ cs,
      (↑t.after.fwCtx.natIps : Set String) = {ip | ∃ mac, NatOn t.after.macMapper mac ip} ∧
      (↑t.after.fwCtx.bridges : Set (Sym2 String)) =
        {e | ∃ a b x y, (⟨a, b⟩ : BridgeMacTuple) ∈ t.after.bridgeList ∧
          HeldBy t.after.macMapper a x ∧ HeldBy t.after.macMapper b y ∧ e = s(x, y)} := by
  intro t ht
  have hinv := (transitions_guarded_invariant SyncInv CmdOk (syncInv_empty s₀ hmap hbl hfw)
    netStep_syncInv hok t ht).2
  exact ⟨hinv.synced.nat, hinv.synced.bridges⟩

/-- A holder of an address in a mapper whose entries all sit under `mac` is `mac`. -/
theorem eq_of_heldBy_of_keys {hmap : HmapMacConn} {m b : MacAddr} {ip : String}
    (hkeys : ∀ e ∈ hmap, e.1 = m) (hb : HeldBy hmap b ip) : b = m := by
  obtain ⟨info, hget, -⟩ := hb
  have hmem : b ∈ hmap.map Prod.fst := (getMacMapper_isSome_iff hmap b).1 (by rw [hget]; rfl)
  obtain ⟨e, he, rfl⟩ := List.mem_map.1 hmem
  exact hkeys e he

theorem ipUnique_of_keys {hmap : HmapMacConn} {m : MacAddr} (hkeys : ∀ e ∈ hmap, e.1 = m) :
    IpUnique hmap := fun _ _ _ ha hb =>
  (eq_of_heldBy_of_keys hkeys ha).trans (eq_of_heldBy_of_keys hkeys hb).symm

/-- The supervisor of `deniedStationContext` with an empty mapper, bridge list and firewall. -/
def emptyNetworkContext : NetworkContext where
  toSupervisorContext := { deniedStationContext with macMapper := [] }
  bridgeList := []
  fwCtx := FwContext.empty

/-- A station is leased an address, gets NAT, is bridged to a MAC without an entry, is leased
a second address and releases the first. -/
def natBridgeRun : List NetCommand :=
  [.setIp deniedStation "10.0.1.2" .new ⟨some "br1", ⟨true, some 0, "", true⟩, true⟩,
    .addNat deniedStation ⟨true, some 0, "", true⟩,
    .addBridgeMac deniedStation (Vector.replicate 6 2),
    .setIp deniedStation "10.0.1.3" .old ⟨some "br1", ⟨true, some 0, "", true⟩, true⟩,
    .setIp deniedStation "10.0.1.2" .del ⟨some "br1", ⟨true, some 0, "", true⟩, true⟩]

theorem firewall_follows_mac_mapper_on_nat_bridge_run :
    emptyNetworkContext.macMapper = [] ∧ emptyNetworkContext.bridgeList = [] ∧
      emptyNetworkContext.fwCtx = FwContext.empty ∧
      (∀ t ∈ transitions netStep emptyNetworkContext natBridgeRun, CmdOk t) ∧
      ∀ t ∈ transitions netStep emptyNetworkContext natBridgeRun,
        (↑t.after.fwCtx.natIps : Set String) = {ip | ∃ mac, NatOn t.after.macMapper mac ip} ∧
        (↑t.after.fwCtx.bridges : Set (Sym2 String)) =
          {e | ∃ a b x y, (⟨a, b⟩ : BridgeMacTuple) ∈ t.after.bridgeList ∧
            HeldBy t.after.macMapper a x ∧ HeldBy t.after.macMapper b y ∧ e = s(x, y)} := by
  -- every entry of the run sits under the one station
  have hok : ∀ t ∈ transitions netStep emptyNetworkContext natBridgeRun, CmdOk t := by
    intro t ht
    simp only [natBridgeRun, transitions, List.mem_cons, List.not_mem_nil, or_false] at ht
    rcases ht with rfl | rfl | rfl | rfl | rfl
    · exact ⟨by decide +kernel, ipUnique_of_keys (m := deniedStation) (by decide +kernel),
        by decide, fun h => absurd h (by decide)⟩
    · exact ⟨by decide +kernel, ipUnique_of_keys (m := deniedStation) (by decide +kernel),
        trivial⟩
    · exact ⟨by decide +kernel, ipUnique_of_keys (m := deniedStation) (by decide +kernel),
        trivial⟩
    · exact ⟨by decide +kernel, ipUnique_of_keys (m := deniedStation) (by decide +kernel),
        by decide, fun h => absurd h (by decide)⟩
    · exact ⟨by decide +kernel, ipUnique_of_keys (m := deniedStation) (by decide +kernel),
        by decide, fun _ _ hb => eq_of_heldBy_of_keys (by decide +kernel) hb⟩
  exact ⟨rfl, rfl, rfl, hok, firewall_follows_mac_mapper emptyNetworkContext rfl rfl rfl natBridgeRun hok⟩

/-- A station without an entry yet. -/
def unconnectedPartner : MacAddr := Vector.replicate 6 2

/-- The outcomes of a DHCP lease that `set_ip_cmd` sees succeed. -/
def leaseEnv : SetIpEnv := ⟨some "br1", ⟨true, some 0, "", true⟩, true⟩

/-- A station is leased an address and bridged to a MAC that has not connected yet. -/
def bridgeBeforeConnectRun : List NetCommand :=
  [.setIp deniedStation "10.0.1.2" .new leaseEnv, .addBridgeMac deniedStation unconnectedPartner]

/-- Clearing the station's bridges keeps the bridge to the partner without an entry, and the
partner's first lease then installs the bridge rule between the two addresses. -/
theorem clear_bridges_keeps_unconnected_partner :
    getSrcMacList (clearBridgesCmd (run netStep emptyNetworkContext bridgeBeforeConnectRun).1
      deniedStation).2.bridgeList deniedStation = [unconnectedPartner] ∧
    s("10.0.1.5", "10.0.1.2") ∈ (setIpCmd leaseEnv
      (clearBridgesCmd (run netStep emptyNetworkContext bridgeBeforeConnectRun).1
        deniedStation).2 unconnectedPartner "10.0.1.5" .new).2.fwCtx.bridges := by
  decide +kernel

end Supervisor

end EdgeSec
