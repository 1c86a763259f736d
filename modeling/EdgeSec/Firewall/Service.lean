import EdgeSec.Utils.IfaceMapper
import EdgeSec.Utils.IptablesOneRead

/-!
# The firewall service over `iptables`

`src/firewall/firewall_service.c` as it is built without `WITH_UCI_SERVICE`.  The service finds
the interface of every address it is given among the configured subnets
(`get_ifname_from_ip`, `Utils/IfaceMapper`) and hands address and interface to the iptables
backend (`Utils/IptablesBridge`); in this build `run_firewall` does nothing and returns `0`.
At start-up `fw_init_context` looks up the path of `iptables` and `iptables_init` flushes the
tables (`flush_iptables`), which leaves in `FORWARD` one `ACCEPT` rule for multicast traffic,
then appends the `REJECT` rule of every configured interface (`add_baseif_rules`).

`fw_add_nat` and `fw_remove_nat` are one definition, `natCommand`, over their backend call;
`fw_add_bridge` and `fw_remove_bridge` are `bridgeCommand`.  The commands the supervisor sends
make a state machine, `fwStep`.

## Main results

* `fwInitContext_of_present`: start-up leaves the multicast rule and the base rules of the
  configured interfaces in `FORWARD`, and `POSTROUTING` empty, whatever the chains held;
* `natCommand_of_unresolved`, `bridgeCommand_of_unresolved`: a command naming an address that
  no configured subnet holds returns `-1` and changes nothing;
* `natCommand_of_resolved`, `bridgeCommand_of_resolved`: otherwise it is the backend call with
  the interfaces found.
-/

namespace EdgeSec.FirewallService

open Os Iptables IfaceMapper

/-! ## Start-up -/

/-- An `iptables` command run at start-up, by what it does to the two chains the model keeps. -/
inductive SetupCommand
  /-- `-P`, `-F -t mangle` and `-X`: policies, the `mangle` table and user chains. -/
  | other
  /-- `-F -t nat`: the `nat` table flushed, `POSTROUTING` with it. -/
  | flushNat
  /-- `-F`: the `filter` table flushed, `FORWARD` with it. -/
  | flushFilter
  /-- `-A FORWARD ...`: a rule appended to `FORWARD`. -/
  | appendForward (rule : Rule)

/-- The chains after `iptables` ran a start-up command. -/
def applySetup (chains : Chains) : SetupCommand → Chains
  | .other => chains
  | .flushNat => chains.set .postrouting []
  | .flushFilter => chains.set .forward []
  | .appendForward rule => chains.set .forward (chains.forward ++ [rule.ofArgs])

/-- `run_iptables` of a start-up command, with no callback: `false` for its `-1`. -/
def runSetup (env : IptablesEnv) (fw : Firewall) (cmd : SetupCommand) : Bool × Firewall :=
  if fw.ctx.execIptables then
    (env.present, if env.present then { fw with chains := applySetup fw.chains cmd } else fw)
  else (true, fw)

/-- The loops of `flush_iptables` and `add_baseif_rules`: every command in turn, `-1` at the
first that fails. -/
def runSetupCommands (env : IptablesEnv) : Firewall → List SetupCommand → ℤ × Firewall
  | fw, [] => (0, fw)
  | fw, cmd :: cmds =>
      let r := runSetup env fw cmd
      if !r.1 then (-1, r.2) else runSetupCommands env r.2 cmds

/-- `-A FORWARD -t filter --src 224.0.0.0/4 --dst 224.0.0.0/4 -j ACCEPT`. -/
def multicastRule : Rule :=
  ⟨"ACCEPT".toList, "*".toList, "*".toList, "224.0.0.0/4".toList, "224.0.0.0/4".toList⟩

/-- `BASIC_FLUSH_COMMANDS`: the three policies, the `nat`, `mangle` and `filter` tables
flushed, user chains deleted, and the multicast rule. -/
def basicFlushCommands : List SetupCommand :=
  [.other, .other, .other, .flushNat, .other, .flushFilter, .other, .appendForward multicastRule]

/-- `flush_iptables(ctx)`. -/
def flushIptables (env : IptablesEnv) (fw : Firewall) : ℤ × Firewall :=
  runSetupCommands env fw basicFlushCommands

/-- `-A FORWARD -t filter -i ifname -j REJECT`, the base rule of an interface. -/
def baseRule (ifname : List Char) : Rule :=
  ⟨"REJECT".toList, ifname, "*".toList, "0.0.0.0/0".toList, "0.0.0.0/0".toList⟩

/-- `add_baseif_rules(ctx, ifinfo_array)`: the base rule of every entry, in order. -/
def addBaseifRules (env : IptablesEnv) (fw : Firewall) (ifinfoArray : List Ifinfo) :
    ℤ × Firewall :=
  runSetupCommands env fw (ifinfoArray.map fun p => .appendForward (baseRule p.ifname))

/-- `iptables_init(path, ifinfo_array, exec_iptables)`, over the chains the system had before;
`none` for its `NULL`. -/
def iptablesInit (env : IptablesEnv) (path : List Char) (ifinfoArray : List Ifinfo)
    (execIptables : Bool) (chains : Chains) : Option Firewall :=
  if (cStr path).length = 0 then none
  else
    let r := flushIptables env ⟨⟨[], execIptables⟩, chains⟩
    if r.1 < 0 then none
    else
      let r := addBaseifRules env r.2 ifinfoArray
      if r.1 < 0 then none else some r.2

/-- `struct fwctx`, the fields the iptables build reads, with the chains the backend changes. -/
structure FwCtx where
  configIfinfoArray : List Ifinfo
  natInterface : List Char
  fw : Firewall

/-- `fw_init_context(...)` without `WITH_UCI_SERVICE`: the path of `iptables` among the binary
paths (`hmap_str_keychar_get`), then `iptables_init`; `none` for its `NULL`. -/
def fwInitContext (env : IptablesEnv) (hmapBinPaths : List (List Char × List Char))
    (configIfinfoArray : List Ifinfo) (natInterface : List Char) (execFirewall : Bool)
    (chains : Chains) : Option FwCtx :=
  match hmapBinPaths.lookup "iptables".toList with
  | none => none
  | some iptablesPath =>
      (iptablesInit env iptablesPath configIfinfoArray execFirewall chains).map
        fun fw => ⟨configIfinfoArray, natInterface, fw⟩

/-! ## The commands -/

/-- `fw_add_nat` and `fw_remove_nat`, which differ only in the backend call: the interface of
the address, then the backend with the NAT interface. -/
def natCommand (backend : Firewall → List Char → List Char → List Char → ℤ × Firewall)
    (context : FwCtx) (ipAddr : List Char) : ℤ × FwCtx :=
  let r := getIfnameFromIp context.configIfinfoArray ipAddr
  if r.1 < 0 then (-1, context)
  else
    let b := backend context.fw ipAddr (r.2.getD []) context.natInterface
    (if b.1 < 0 then -1 else 0, { context with fw := b.2 })

/-- `fw_add_nat(context, ip_addr)`. -/
def fwAddNat (env : IptablesEnv) (context : FwCtx) (ipAddr : List Char) : ℤ × FwCtx :=
  natCommand (iptablesAddNat env) context ipAddr

/-- `fw_remove_nat(context, ip_addr)`. -/
def fwRemoveNat (env : IptablesEnv) (context : FwCtx) (ipAddr : List Char) : ℤ × FwCtx :=
  natCommand (iptablesDeleteNat env) context ipAddr

/-- `fw_add_bridge` and `fw_remove_bridge`, which differ only in the backend call: the
interfaces of the two addresses, then the backend. -/
def bridgeCommand
    (backend : Firewall → List Char → List Char → List Char → List Char → ℤ × Firewall)
    (context : FwCtx) (ipAddrLeft ipAddrRight : List Char) : ℤ × FwCtx :=
  let l := getIfnameFromIp context.configIfinfoArray ipAddrLeft
  if l.1 < 0 then (-1, context)
  else
    let r := getIfnameFromIp context.configIfinfoArray ipAddrRight
    if r.1 < 0 then (-1, context)
    else
      let b := backend context.fw ipAddrLeft (l.2.getD []) ipAddrRight (r.2.getD [])
      (if b.1 < 0 then -1 else 0, { context with fw := b.2 })

/-- `fw_add_bridge(context, ip_addr_left, ip_addr_right)`. -/
def fwAddBridge (env : IptablesEnv) (context : FwCtx) (ipAddrLeft ipAddrRight : List Char) :
    ℤ × FwCtx :=
  bridgeCommand (iptablesAddBridge env) context ipAddrLeft ipAddrRight

/-- `fw_remove_bridge(context, ip_addr_left, ip_addr_right)`. -/
def fwRemoveBridge (env : IptablesEnv) (context : FwCtx) (ipAddrLeft ipAddrRight : List Char) :
    ℤ × FwCtx :=
  bridgeCommand (iptablesDeleteBridge env) context ipAddrLeft ipAddrRight

/-- The calls the supervisor makes on the firewall. -/
inductive FwCommand
  | addNat (ipAddr : List Char)
  | removeNat (ipAddr : List Char)
  | addBridge (ipAddrLeft ipAddrRight : List Char)
  | removeBridge (ipAddrLeft ipAddrRight : List Char)

/-- One call: the context after it, and what it returns. -/
def fwStep (env : IptablesEnv) (context : FwCtx) : FwCommand → FwCtx × ℤ
  | .addNat ipAddr => (fwAddNat env context ipAddr).swap
  | .removeNat ipAddr => (fwRemoveNat env context ipAddr).swap
  | .addBridge ipAddrLeft ipAddrRight => (fwAddBridge env context ipAddrLeft ipAddrRight).swap
  | .removeBridge ipAddrLeft ipAddrRight =>
      (fwRemoveBridge env context ipAddrLeft ipAddrRight).swap

/-- The rules `add_baseif_rules` appends. -/
theorem foldl_applySetup_appendForward (rules : List Rule) (chains : Chains) :
    (rules.map SetupCommand.appendForward).foldl applySetup chains =
      chains.set .forward (chains.forward ++ rules.map Rule.ofArgs) := by
  induction rules generalizing chains with
  | nil => rw [List.map_nil, List.foldl_nil, List.map_nil, List.append_nil, Chains.set_forward_self]
  | cons rule rules ih =>
      rw [List.map_cons, List.foldl_cons, ih, applySetup, Chains.forward_set_forward,
        Chains.set_set, List.map_cons, List.append_assoc, List.singleton_append]

theorem multicastRule_ofArgs : multicastRule.ofArgs = multicastRule := by
  simp only [multicastRule, Rule.ofArgs]
  decide

theorem baseRule_ofArgs (ifname : List Char) :
    (baseRule ifname).ofArgs = baseRule (cStr ifname) := by
  simp only [baseRule, Rule.ofArgs, Rule.mk.injEq, true_and]
  decide

/-! ## Start-up, when `iptables` is there -/

section Setup

variable {env : IptablesEnv} (hpresent : env.present = true)
include hpresent

/-- With `iptables` there, every start-up command runs. -/
theorem runSetupCommands_of_present (fw : Firewall) (hexec : fw.ctx.execIptables = true) :
    ∀ cmds : List SetupCommand,
      runSetupCommands env fw cmds = (0, { fw with chains := cmds.foldl applySetup fw.chains })
  | [] => rfl
  | cmd :: cmds => by
      have hrun : runSetup env fw cmd = (true, { fw with chains := applySetup fw.chains cmd }) := by
        simp only [runSetup, hexec, hpresent, if_true]
      rw [runSetupCommands, hrun]
      exact runSetupCommands_of_present { fw with chains := applySetup fw.chains cmd } hexec cmds

/-- What start-up leaves in the chains: in `FORWARD` the multicast rule and the base rule of every
configured interface, and nothing in `POSTROUTING`. -/
def setupChains (ifinfoArray : List Ifinfo) : Chains :=
  ⟨multicastRule :: ifinfoArray.map fun p => baseRule (cStr p.ifname), []⟩

/-- `iptables_init` with `iptables` there and a path: whatever the chains held, they are flushed
and hold the multicast rule and the base rules. -/
theorem iptablesInit_of_present {path : List Char} (hpath : (cStr path).length ≠ 0)
    (ifinfoArray : List Ifinfo) (chains : Chains) :
    iptablesInit env path ifinfoArray true chains =
      some ⟨⟨[], true⟩, setupChains ifinfoArray⟩ := by
  have hflush : flushIptables env ⟨⟨[], true⟩, chains⟩ =
      (0, ⟨⟨[], true⟩, ⟨[multicastRule], []⟩⟩) := by
    rw [flushIptables, runSetupCommands_of_present hpresent _ rfl]
    simp only [basicFlushCommands, List.foldl_cons, List.foldl_nil, applySetup,
      multicastRule_ofArgs]
    rfl
  have hbase : addBaseifRules env ⟨⟨[], true⟩, ⟨[multicastRule], []⟩⟩ ifinfoArray =
      (0, ⟨⟨[], true⟩, setupChains ifinfoArray⟩) := by
    rw [addBaseifRules, runSetupCommands_of_present hpresent _ rfl]
    have hmap : (ifinfoArray.map fun p => SetupCommand.appendForward (baseRule p.ifname)) =
        ((ifinfoArray.map fun p => baseRule p.ifname).map SetupCommand.appendForward) := by
      rw [List.map_map]
      rfl
    rw [hmap, foldl_applySetup_appendForward, List.map_map]
    simp only [Function.comp_def, baseRule_ofArgs]
    rfl
  simp only [iptablesInit, hpath, if_false, hflush, lt_self_iff_false, hbase]

/-- `fw_init_context` with `iptables` found and there: the service starts over the chains of
`setupChains`. -/
theorem fwInitContext_of_present {hmapBinPaths : List (List Char × List Char)}
    {iptablesPath : List Char} (hbin : hmapBinPaths.lookup "iptables".toList = some iptablesPath)
    (hpath : (cStr iptablesPath).length ≠ 0) (configIfinfoArray : List Ifinfo)
    (natInterface : List Char) (chains : Chains) :
    fwInitContext env hmapBinPaths configIfinfoArray natInterface true chains =
      some ⟨configIfinfoArray, natInterface,
        ⟨⟨[], true⟩, setupChains configIfinfoArray⟩⟩ := by
  rw [fwInitContext, hbin]
  dsimp only
  rw [iptablesInit_of_present hpresent hpath, Option.map_some]

end Setup

/-! ## A command, by whether its addresses resolve -/

/-- `get_ifname_from_ip` returns `0` or `-1`. -/
theorem getIfnameFromIp_fst (arr : List Ifinfo) (ipAddr : List Char) :
    (getIfnameFromIp arr ipAddr).1 = 0 ∨ (getIfnameFromIp arr ipAddr).1 = -1 := by
  unfold getIfnameFromIp getNameFromIp
  by_cases h : (findIfinfo arr ipAddr).1 = 0 <;> simp [h]

theorem getIfnameFromIp_neg {arr : List Ifinfo} {ipAddr : List Char}
    (h : (getIfnameFromIp arr ipAddr).1 ≠ 0) : (getIfnameFromIp arr ipAddr).1 < 0 := by
  rcases getIfnameFromIp_fst arr ipAddr with h0 | h1
  · exact absurd h0 h
  · rw [h1]
    decide

section Commands

variable (backend : Firewall → List Char → List Char → List Char → ℤ × Firewall)
  (backend₂ :
    Firewall → List Char → List Char → List Char → List Char → ℤ × Firewall)
  (context : FwCtx)

/-- A NAT command for an address no configured subnet holds returns `-1` and changes nothing. -/
theorem natCommand_of_unresolved {ipAddr : List Char}
    (h : (getIfnameFromIp context.configIfinfoArray ipAddr).1 ≠ 0) :
    natCommand backend context ipAddr = (-1, context) := by
  simp only [natCommand, getIfnameFromIp_neg h, if_true]

theorem natCommand_of_resolved {ipAddr : List Char}
    (h : (getIfnameFromIp context.configIfinfoArray ipAddr).1 = 0) :
    natCommand backend context ipAddr =
      let b := backend context.fw ipAddr
        ((getIfnameFromIp context.configIfinfoArray ipAddr).2.getD []) context.natInterface
      (if b.1 < 0 then -1 else 0, { context with fw := b.2 }) := by
  simp only [natCommand, h, lt_self_iff_false, if_false]

/-- A bridge command for an address no configured subnet holds returns `-1` and changes
nothing. -/
theorem bridgeCommand_of_unresolved {ipAddrLeft ipAddrRight : List Char}
    (h : ¬ ((getIfnameFromIp context.configIfinfoArray ipAddrLeft).1 = 0 ∧
      (getIfnameFromIp context.configIfinfoArray ipAddrRight).1 = 0)) :
    bridgeCommand backend₂ context ipAddrLeft ipAddrRight = (-1, context) := by
  by_cases hl : (getIfnameFromIp context.configIfinfoArray ipAddrLeft).1 = 0
  · have hr := getIfnameFromIp_neg fun hr => h ⟨hl, hr⟩
    simp only [bridgeCommand, hl, lt_self_iff_false, if_false, hr, if_true]
  · simp only [bridgeCommand, getIfnameFromIp_neg hl, if_true]

theorem bridgeCommand_of_resolved {ipAddrLeft ipAddrRight : List Char}
    (hl : (getIfnameFromIp context.configIfinfoArray ipAddrLeft).1 = 0)
    (hr : (getIfnameFromIp context.configIfinfoArray ipAddrRight).1 = 0) :
    bridgeCommand backend₂ context ipAddrLeft ipAddrRight =
      let b := backend₂ context.fw ipAddrLeft
        ((getIfnameFromIp context.configIfinfoArray ipAddrLeft).2.getD []) ipAddrRight
        ((getIfnameFromIp context.configIfinfoArray ipAddrRight).2.getD [])
      (if b.1 < 0 then -1 else 0, { context with fw := b.2 }) := by
  simp only [bridgeCommand, hl, hr, lt_self_iff_false, if_false]

end Commands

end EdgeSec.FirewallService
