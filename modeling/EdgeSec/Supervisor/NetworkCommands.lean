import EdgeSec.Firewall.Rules
import EdgeSec.Supervisor.BridgeList
import EdgeSec.Supervisor.Connection
import EdgeSec.Utils.Net

/-!
# The commands that change addresses, NAT and bridges

`set_ip_cmd` (`src/supervisor/system_commands.c`) is what the DHCP server calls when it
hands out, renews or releases an address; `add_nat_cmd`, `remove_nat_cmd`,
`add_bridge_mac_cmd`, `add_bridge_ip_cmd`, `remove_bridge_cmd`, `clear_bridges_cmd`,
`accept_mac_cmd` and `deny_mac_cmd` (`src/supervisor/network_commands.c`) are commands of the
supervisor's control socket.  Each changes the MAC mapper or the bridge list and then patches
the firewall with `add_nat_ip`, `remove_nat_ip`, `add_bridge_ip` and `delete_bridge_ip`,
which call the firewall only for valid address strings.

The firewall is the abstract `FwContext` of `EdgeSec.Firewall`, and its calls succeed, so the
`fw_... fail` branches of the callers are not reached.  What the commands call outside the
modelled state is given with each command as the outcome it had: the interface
`get_ifname_from_ip` found for the address (`none` for its `-1`), the interface
`get_vlan_mapper` found for the VLAN, the `SaveEnv` of `save_mac_mapper`, and whether
`send_events_subscriber`, `clear_dhcp_lease` and `disconnect_ap_command` succeeded and
`check_sta_ap_command` found the station.  The text of the subscriber event, and the `primary`
flag that only goes into it, are not modelled.

`NetworkContext` adds the bridge list and the firewall context to the fields of
`struct supervisor_context` that `SupervisorContext` models; `netStep` runs one command on it.
-/

namespace EdgeSec

open Firewall

/-- The fields of `struct supervisor_context` the network commands use beyond those of
`SupervisorContext`: the bridge list and the firewall context. -/
structure NetworkContext extends SupervisorContext where
  bridgeList : BridgeList.BridgeMacList
  fwCtx : FwContext String

namespace Supervisor

open MacMapper BridgeList Net

/-- `get_ip_mapper`: the key of the first entry whose primary or secondary slot is a valid
address equal to `ip`. -/
def getIpMapper (hmap : HmapMacConn) (ip : String) : Option MacAddr :=
  hmap.findSome? fun e =>
    if validateIpv4String e.2.ipAddr.toList = true ∧ ip = e.2.ipAddr then some e.1
    else if validateIpv4String e.2.ipSecAddr.toList = true ∧ ip = e.2.ipSecAddr then some e.1
    else none

/-! ## The firewall calls of the commands -/

/-- The shape of `add_nat_ip` and `remove_nat_ip`: the firewall call, made only for a valid
address. -/
def natIpWith (fwCall : FwContext String → String → FwContext String) (fwCtx : FwContext String)
    (ipAddr : String) : FwContext String :=
  if validateIpv4String ipAddr.toList = true then fwCall fwCtx ipAddr else fwCtx

/-- `add_nat_ip`. -/
def addNatIp (fwCtx : FwContext String) (ipAddr : String) : FwContext String :=
  natIpWith fwAddNat fwCtx ipAddr

/-- `remove_nat_ip`. -/
def removeNatIp (fwCtx : FwContext String) (ipAddr : String) : FwContext String :=
  natIpWith fwRemoveNat fwCtx ipAddr

/-- The shape of `add_bridge_ip` and `delete_bridge_ip`: the firewall call, made only when
both addresses are valid. -/
def bridgeIpWith (fwCall : FwContext String → String → String → FwContext String)
    (fwCtx : FwContext String) (ipAddrLeft ipAddrRight : String) : FwContext String :=
  if validateIpv4String ipAddrLeft.toList = true ∧ validateIpv4String ipAddrRight.toList = true then
    fwCall fwCtx ipAddrLeft ipAddrRight
  else fwCtx

/-- `add_bridge_ip`. -/
def addBridgeIp (fwCtx : FwContext String) (ipAddrLeft ipAddrRight : String) : FwContext String :=
  bridgeIpWith fwAddBridge fwCtx ipAddrLeft ipAddrRight

/-- `delete_bridge_ip`. -/
def deleteBridgeIp (fwCtx : FwContext String) (ipAddrLeft ipAddrRight : String) :
    FwContext String :=
  bridgeIpWith fwRemoveBridge fwCtx ipAddrLeft ipAddrRight

/-- The four bridge calls of `add_bridge_mac_cmd` and of `remove_bridge_cmd`: each slot of
the left entry with each slot of the right one. -/
def slotPairsWith (ipCall : FwContext String → String → String → FwContext String)
    (fwCtx : FwContext String) (leftInfo rightInfo : MacConnInfo) : FwContext String :=
  let fwCtx := ipCall fwCtx leftInfo.ipAddr rightInfo.ipAddr
  let fwCtx := ipCall fwCtx leftInfo.ipAddr rightInfo.ipSecAddr
  let fwCtx := ipCall fwCtx leftInfo.ipSecAddr rightInfo.ipAddr
  ipCall fwCtx leftInfo.ipSecAddr rightInfo.ipSecAddr

/-- The bridge calls between two MACs, made only when both have an entry
(`get_mac_mapper(...) == 1`). -/
def macPairsWith (ipCall : FwContext String → String → String → FwContext String)
    (context : NetworkContext) (leftMacAddr rightMacAddr : MacAddr) : FwContext String :=
  match getMacMapper context.macMapper leftMacAddr, getMacMapper context.macMapper rightMacAddr with
  | some leftInfo, some rightInfo => slotPairsWith ipCall context.fwCtx leftInfo rightInfo
  | _, _ => context.fwCtx

/-! ## What the firewall calls change -/

section FirewallCalls

variable (fwCtx : FwContext String) (ipAddr ipAddrLeft ipAddrRight : String)

@[simp] theorem addNatIp_bridges : (addNatIp fwCtx ipAddr).bridges = fwCtx.bridges := by
  unfold addNatIp natIpWith
  split <;> rfl

@[simp] theorem removeNatIp_bridges : (removeNatIp fwCtx ipAddr).bridges = fwCtx.bridges := by
  unfold removeNatIp natIpWith
  split <;> rfl

@[simp] theorem addBridgeIp_natIps :
    (addBridgeIp fwCtx ipAddrLeft ipAddrRight).natIps = fwCtx.natIps := by
  unfold addBridgeIp bridgeIpWith
  split <;> rfl

@[simp] theorem deleteBridgeIp_natIps :
    (deleteBridgeIp fwCtx ipAddrLeft ipAddrRight).natIps = fwCtx.natIps := by
  unfold deleteBridgeIp bridgeIpWith
  split <;> rfl

/-- `add_nat_ip` adds the address when it is valid. -/
theorem natIps_addNatIp : (↑(addNatIp fwCtx ipAddr).natIps : Set String) =
    ↑fwCtx.natIps ∪ {y | y = ipAddr ∧ validateIpv4String ipAddr.toList = true} := by
  unfold addNatIp natIpWith
  ext y
  split_ifs with hv <;> simp [hv]

/-- `remove_nat_ip` removes the address when it is valid. -/
theorem natIps_removeNatIp : (↑(removeNatIp fwCtx ipAddr).natIps : Set String) =
    ↑fwCtx.natIps \ {y | y = ipAddr ∧ validateIpv4String ipAddr.toList = true} := by
  unfold removeNatIp natIpWith
  ext y
  split_ifs with hv <;> simp [hv, and_comm]

/-- `add_bridge_ip` adds the pair when both addresses are valid. -/
theorem bridges_addBridgeIp : (↑(addBridgeIp fwCtx ipAddrLeft ipAddrRight).bridges : Set (Sym2 String)) =
    ↑fwCtx.bridges ∪ {e | validateIpv4String ipAddrLeft.toList = true ∧
      validateIpv4String ipAddrRight.toList = true ∧ e = s(ipAddrLeft, ipAddrRight)} := by
  unfold addBridgeIp bridgeIpWith
  ext e
  split_ifs with hv
  · simp [hv.1, hv.2, or_comm]
  · simp only [Set.mem_union, Set.mem_ofPred_eq, Finset.mem_coe]
    tauto

/-- `delete_bridge_ip` removes the pair when both addresses are valid. -/
theorem bridges_deleteBridgeIp :
    (↑(deleteBridgeIp fwCtx ipAddrLeft ipAddrRight).bridges : Set (Sym2 String)) =
      ↑fwCtx.bridges \ {e | validateIpv4String ipAddrLeft.toList = true ∧
        validateIpv4String ipAddrRight.toList = true ∧ e = s(ipAddrLeft, ipAddrRight)} := by
  unfold deleteBridgeIp bridgeIpWith
  ext e
  split_ifs with hv
  · simp [hv.1, hv.2]
  · simp only [Set.mem_sdiff, Set.mem_ofPred_eq, Finset.mem_coe]
    tauto

end FirewallCalls

/-- The pairs of addresses a sequence of bridge calls is made for. -/
def pairRulesOf (qs : List (String × String)) : Set (Sym2 String) :=
  {e | ∃ q ∈ qs, validateIpv4String q.1.toList = true ∧ validateIpv4String q.2.toList = true ∧
    e = s(q.1, q.2)}

@[simp] theorem pairRulesOf_nil : pairRulesOf [] = ∅ := by
  ext e
  simp [pairRulesOf]

theorem pairRulesOf_cons (q : String × String) (qs : List (String × String)) :
    pairRulesOf (q :: qs) = {e | validateIpv4String q.1.toList = true ∧
      validateIpv4String q.2.toList = true ∧ e = s(q.1, q.2)} ∪ pairRulesOf qs := by
  ext e
  simp [pairRulesOf]

/-- A sequence of `add_bridge_ip` calls adds the pairs of valid addresses. -/
theorem bridges_foldl_addBridgeIp (qs : List (String × String)) (fwCtx : FwContext String) :
    (↑(qs.foldl (fun fwCtx q => addBridgeIp fwCtx q.1 q.2) fwCtx).bridges : Set (Sym2 String)) =
      ↑fwCtx.bridges ∪ pairRulesOf qs := by
  induction qs generalizing fwCtx with
  | nil => simp
  | cons q qs ih =>
      rw [List.foldl_cons, ih, bridges_addBridgeIp, pairRulesOf_cons, Set.union_assoc]

/-- A sequence of `delete_bridge_ip` calls removes the pairs of valid addresses. -/
theorem bridges_foldl_deleteBridgeIp (qs : List (String × String)) (fwCtx : FwContext String) :
    (↑(qs.foldl (fun fwCtx q => deleteBridgeIp fwCtx q.1 q.2) fwCtx).bridges : Set (Sym2 String)) =
      ↑fwCtx.bridges \ pairRulesOf qs := by
  induction qs generalizing fwCtx with
  | nil => simp
  | cons q qs ih =>
      rw [List.foldl_cons, ih, bridges_deleteBridgeIp, pairRulesOf_cons, Set.sdiff_sdiff]

/-- Bridge calls leave the NAT rules alone. -/
theorem natIps_foldl_bridgeIp (ipCall : FwContext String → String → String → FwContext String)
    (hcall : ∀ fwCtx l r, (ipCall fwCtx l r).natIps = fwCtx.natIps) (qs : List (String × String))
    (fwCtx : FwContext String) :
    (qs.foldl (fun fwCtx q => ipCall fwCtx q.1 q.2) fwCtx).natIps = fwCtx.natIps := by
  induction qs generalizing fwCtx with
  | nil => rfl
  | cons q qs ih => rw [List.foldl_cons, ih, hcall]

/-- The four calls between two entries are the calls for the pairs of their slots. -/
theorem slotPairsWith_eq_foldl (ipCall : FwContext String → String → String → FwContext String)
    (fwCtx : FwContext String) (leftInfo rightInfo : MacConnInfo) :
    slotPairsWith ipCall fwCtx leftInfo rightInfo =
      ([leftInfo.ipAddr, leftInfo.ipSecAddr] ×ˢ [rightInfo.ipAddr, rightInfo.ipSecAddr]).foldl
        (fun fwCtx q => ipCall fwCtx q.1 q.2) fwCtx := rfl

/-! ## The NAT commands -/

/-- The shape of `add_nat_cmd` and `remove_nat_cmd`: set the entry's `nat` flag, make the NAT
call for both slots, then `save_mac_mapper`. -/
def natCmdWith (nat : Bool) (natIp : FwContext String → String → FwContext String)
    (env : SaveEnv) (context : NetworkContext) (macAddr : MacAddr) : Int × NetworkContext :=
  let info := lookupOrDefault context.macMapper macAddr
    (initDefaultMacInfo context.defaultOpenVlanid context.allowAllNat)
  let info := { info with nat := nat }
  let fwCtx := natIp (natIp context.fwCtx info.ipAddr) info.ipSecAddr
  let r := saveMacMapper env context.toSupervisorContext ⟨macAddr, info⟩
  (if r.1 then 0 else -1, { context with toSupervisorContext := r.2, fwCtx := fwCtx })

/-- `add_nat_cmd`. -/
def addNatCmd (env : SaveEnv) (context : NetworkContext) (macAddr : MacAddr) :
    Int × NetworkContext :=
  natCmdWith true addNatIp env context macAddr

/-- `remove_nat_cmd`. -/
def removeNatCmd (env : SaveEnv) (context : NetworkContext) (macAddr : MacAddr) :
    Int × NetworkContext :=
  natCmdWith false removeNatIp env context macAddr

/-! ## The bridge commands -/

/-- `add_bridge_mac_cmd`: record the bridge, then add the rules between the two entries'
slots. -/
def addBridgeMacCmd (context : NetworkContext) (leftMacAddr rightMacAddr : MacAddr) :
    Int × NetworkContext :=
  let r := addBridgeMac context.bridgeList leftMacAddr rightMacAddr
  let context := { context with bridgeList := r.2 }
  if 0 ≤ r.1 then (0, { context with fwCtx := macPairsWith addBridgeIp context leftMacAddr rightMacAddr })
  else (-1, context)

/-- `remove_bridge_cmd`: delete the bridge, then the rules between the two entries' slots.  A
`remove_bridge_mac` that would free a node twice is undefined behaviour in C; the model stops
there with `-1`. -/
def removeBridgeCmd (context : NetworkContext) (leftMacAddr rightMacAddr : MacAddr) :
    Int × NetworkContext :=
  match removeBridgeMac context.bridgeList leftMacAddr rightMacAddr with
  | none => (-1, context)
  | some r =>
      let context := { context with bridgeList := r.2 }
      if 0 ≤ r.1 then
        (0, { context with fwCtx := macPairsWith deleteBridgeIp context leftMacAddr rightMacAddr })
      else (-1, context)

/-- `add_bridge_ip_cmd`: find the MACs holding the two addresses; nothing to do when they are
bridged already, else `add_bridge_mac_cmd`. -/
def addBridgeIpCmd (context : NetworkContext) (leftIpAddr rightIpAddr : String) :
    Int × NetworkContext :=
  match getIpMapper context.macMapper leftIpAddr with
  | none => (-1, context)
  | some leftMacAddr =>
      match getIpMapper context.macMapper rightIpAddr with
      | none => (-1, context)
      | some rightMacAddr =>
          if 0 < checkBridgeExist context.bridgeList leftMacAddr rightMacAddr then (0, context)
          else
            let r := addBridgeMacCmd context leftMacAddr rightMacAddr
            (if r.1 < 0 then -1 else 0, r.2)

/-- `clear_bridges_cmd`: `remove_bridge_cmd` between the MAC and every entry of the mapper,
whatever each returns. -/
def clearBridgesCmd (context : NetworkContext) (macAddr : MacAddr) : Int × NetworkContext :=
  (0, (getMacList context.macMapper).foldl
    (fun context el => (removeBridgeCmd context macAddr el.macAddr).2) context)

/-! ## `set_ip_cmd` -/

/-- `enum DHCP_IP_TYPE`. -/
inductive DhcpIpType
  | none
  | new
  | old
  | del
  | arp
  deriving Repr, DecidableEq

/-- Where the `switch (ip_type)` of `set_ip_cmd` leaves the call: returned with a code, or
going on with the updated `info`. -/
inductive SetIpSwitch
  | ret (code : Int)
  | store (info : MacConnInfo)
  deriving Repr, DecidableEq

/-- The `switch (ip_type)` of `set_ip_cmd`: a new or renewed address goes into the first empty
slot (`os_strlcpy` into an `OS_INET_ADDRSTRLEN` buffer), unless a slot already holds it; a
released address is cleared from the slots that hold it. -/
def setIpSwitch (info : MacConnInfo) (ipAddr : String) : DhcpIpType → SetIpSwitch
  | .new | .old =>
      if info.ipAddr = ipAddr then .ret 0
      else if info.ipSecAddr = ipAddr then .ret 0
      else if info.ipAddr = "" then
        .store { info with ipAddr := String.ofList (Os.osStrlcpy ipAddr.toList osInetAddrstrlen) }
      else if info.ipAddr ≠ "" ∧ info.ipSecAddr = "" then
        .store { info with ipSecAddr := String.ofList (Os.osStrlcpy ipAddr.toList osInetAddrstrlen) }
      else .ret (-1)
  | .del =>
      let info := if info.ipAddr = ipAddr then { info with ipAddr := "" } else info
      let info := if info.ipSecAddr = ipAddr then { info with ipSecAddr := "" } else info
      .store info
  | .arp => .ret 0
  | .none => .ret (-1)

/-- The `while` loop of `set_ip_cmd` over the MACs bridged to it: for each with an entry, the
bridge call between the address and both of that entry's slots. -/
def setIpPartners (ipCall : FwContext String → String → String → FwContext String)
    (hmap : HmapMacConn) (ipAddr : String) (partners : List MacAddr) (fwCtx : FwContext String) :
    FwContext String :=
  partners.foldl (fun fwCtx p =>
    match getMacMapper hmap p with
    | some rightInfo => ipCall (ipCall fwCtx ipAddr rightInfo.ipAddr) ipAddr rightInfo.ipSecAddr
    | none => fwCtx) fwCtx

/-- The address paired with both slots of each partner that has an entry. -/
def partnerPairs (hmap : HmapMacConn) (ipAddr : String) (partners : List MacAddr) :
    List (String × String) :=
  partners.flatMap fun p =>
    match getMacMapper hmap p with
    | some rightInfo => [(ipAddr, rightInfo.ipAddr), (ipAddr, rightInfo.ipSecAddr)]
    | none => []

/-- The loop of `set_ip_cmd` makes the calls for the partner pairs, in order. -/
theorem setIpPartners_eq_foldl (ipCall : FwContext String → String → String → FwContext String)
    (hmap : HmapMacConn) (ipAddr : String) (partners : List MacAddr) (fwCtx : FwContext String) :
    setIpPartners ipCall hmap ipAddr partners fwCtx =
      (partnerPairs hmap ipAddr partners).foldl (fun fwCtx q => ipCall fwCtx q.1 q.2) fwCtx := by
  induction partners generalizing fwCtx with
  | nil => rfl
  | cons p partners ih =>
      rw [partnerPairs, List.flatMap_cons, List.foldl_append, ← partnerPairs]
      unfold setIpPartners
      rw [List.foldl_cons, ← setIpPartners, ih]
      cases getMacMapper hmap p <;> rfl

/-- The outcomes of what `set_ip_cmd` calls outside the modelled state. -/
structure SetIpEnv where
  ifname : Option String
  save : SaveEnv
  subscriberOk : Bool
  deriving Repr, DecidableEq

/-- `set_ip_cmd`: record the address change in the entry, save it, then patch the NAT rule of
the address and its bridge rules with every bridged MAC. -/
def setIpCmd (env : SetIpEnv) (context : NetworkContext) (macAddr : MacAddr) (ipAddr : String)
    (ipType : DhcpIpType) : Int × NetworkContext :=
  let add := ipType == .new || ipType == .old
  let info := lookupOrDefault context.macMapper macAddr
    (initDefaultMacInfo context.defaultOpenVlanid context.allowAllNat)
  match env.ifname with
  | none => (-1, context)
  | some ifname =>
      match setIpSwitch info ipAddr ipType with
      | .ret code => (code, context)
      | .store info =>
          let info := { info with ifname := ifname }
          let r := saveMacMapper env.save context.toSupervisorContext ⟨macAddr, info⟩
          let context := { context with toSupervisorContext := r.2 }
          if ¬ r.1 then (-1, context)
          else if add ∧ ¬ env.subscriberOk then (-1, context)
          else
            let fwCtx :=
              if add ∧ info.nat then addNatIp context.fwCtx ipAddr
              else if ¬ add ∧ info.nat then removeNatIp context.fwCtx ipAddr
              else context.fwCtx
            let fwCtx := setIpPartners (if add then addBridgeIp else deleteBridgeIp)
              context.macMapper ipAddr (getSrcMacList context.bridgeList macAddr) fwCtx
            (0, { context with fwCtx := fwCtx })

/-! ## `accept_mac_cmd` -/

/-- The outcomes of what `accept_mac_cmd` calls outside the modelled state. -/
structure AcceptEnv where
  vlanIfname : Option String
  save : SaveEnv
  clearLeaseOk : Bool
  staConnected : Bool
  disconnectOk : Bool
  deriving Repr, DecidableEq

/-- `accept_mac_cmd`: allow the MAC on the VLAN, save the entry, then clear its DHCP lease and
disconnect the station if it is connected. -/
def acceptMacCmd (env : AcceptEnv) (context : NetworkContext) (macAddr : MacAddr) (vlanid : Int) :
    Int × NetworkContext :=
  let info := lookupOrDefault context.macMapper macAddr
    (initDefaultMacInfo context.defaultOpenVlanid context.allowAllNat)
  let info := { info with allowConnection := true, vlanid := vlanid }
  match env.vlanIfname with
  | none => (-1, context)
  | some ifname =>
      let r := saveMacMapper env.save context.toSupervisorContext ⟨macAddr, { info with ifname := ifname }⟩
      let context := { context with toSupervisorContext := r.2 }
      if ¬ r.1 then (-1, context)
      else if ¬ env.clearLeaseOk then (-1, context)
      else if env.staConnected ∧ ¬ env.disconnectOk then (-1, context)
      else (0, context)

/-! ## The commands as one state machine -/

/-- The commands that change addresses, NAT and bridges, with the outcomes they see. -/
inductive NetCommand
  | setIp (macAddr : MacAddr) (ipAddr : String) (ipType : DhcpIpType) (env : SetIpEnv)
  | addNat (macAddr : MacAddr) (env : SaveEnv)
  | removeNat (macAddr : MacAddr) (env : SaveEnv)
  | addBridgeMac (leftMacAddr rightMacAddr : MacAddr)
  | addBridgeIp (leftIpAddr rightIpAddr : String)
  | removeBridge (leftMacAddr rightMacAddr : MacAddr)
  | clearBridges (macAddr : MacAddr)
  | acceptMac (macAddr : MacAddr) (vlanid : Int) (env : AcceptEnv)
  | denyMac (macAddr : MacAddr) (env : SaveEnv) (disconnectOk : Bool)
  | getMacConn (macAddr : MacAddr) (env : SaveEnv)

/-- One command and its return code; `get_mac_conn_cmd` fails by returning `vlanid = -1`. -/
def netStep (context : NetworkContext) : NetCommand → NetworkContext × Int
  | .setIp macAddr ipAddr ipType env =>
      let r := setIpCmd env context macAddr ipAddr ipType
      (r.2, r.1)
  | .addNat macAddr env =>
      let r := addNatCmd env context macAddr
      (r.2, r.1)
  | .removeNat macAddr env =>
      let r := removeNatCmd env context macAddr
      (r.2, r.1)
  | .addBridgeMac leftMacAddr rightMacAddr =>
      let r := addBridgeMacCmd context leftMacAddr rightMacAddr
      (r.2, r.1)
  | .addBridgeIp leftIpAddr rightIpAddr =>
      let r := addBridgeIpCmd context leftIpAddr rightIpAddr
      (r.2, r.1)
  | .removeBridge leftMacAddr rightMacAddr =>
      let r := removeBridgeCmd context leftMacAddr rightMacAddr
      (r.2, r.1)
  | .clearBridges macAddr =>
      let r := clearBridgesCmd context macAddr
      (r.2, r.1)
  | .acceptMac macAddr vlanid env =>
      let r := acceptMacCmd env context macAddr vlanid
      (r.2, r.1)
  | .denyMac macAddr env disconnectOk =>
      let r := denyMacCmd env disconnectOk context.toSupervisorContext macAddr
      ({ context with toSupervisorContext := r.2 }, r.1)
  | .getMacConn macAddr env =>
      let r := getMacConnCmd env context.toSupervisorContext macAddr
      ({ context with toSupervisorContext := r.2 }, if r.1.vlanid = -1 then -1 else 0)

end Supervisor

end EdgeSec
