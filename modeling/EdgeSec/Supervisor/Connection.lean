import EdgeSec.Supervisor.Context

/-!
# The AP connection path: `get_mac_conn_cmd`

`get_mac_conn_cmd` (`src/supervisor/supervisor.c`) is the callback the RADIUS server calls
when a station asks to join: it picks the VLAN and the passphrase the station gets.  Its
body is an `if`/`else if` chain over `allow_all_connections`, the code `get_mac_mapper`
returns and the stored `allow_connection` and `pass_len`.  `connBranch` names the branch the
chain takes, with the guards as the source writes them, and `getMacConnCmd` runs it.  The
`NULL` checks on `mac_addr` and `context` are not modelled: the RADIUS server passes both.

`deny_mac_cmd` (`src/supervisor/network_commands.c`) is modelled beside it, since it is what
makes an entry denied.

## Main results

* `getMacConnCmd_of_denied`: on a MAC whose entry is denied the call rejects with
  `vlanid = -1` and leaves the whole context as it was.
* `denied_mac_rejected`: the same, stated on the entry and the ticket.
* `getMacConnCmd_context`, `getMacConnCmd_ticket`: a call changes only the MAC mapper and the
  ticket, and the ticket only on the ticket branch, which leaves it `NULL`.
* `denyMacCmd_snd`: whatever it returns, `deny_mac_cmd` leaves the context in which
  `save_mac_mapper` stored the entry with `allow_connection` off.
-/

namespace EdgeSec

namespace Supervisor

open MacMapper

/-- The return code of `get_mac_mapper`: `1` when the key has an entry, `0` when it has
none.  Its `-1` is for `NULL` arguments, which no caller passes. -/
def findMacCode (hmap : HmapMacConn) (macAddr : MacAddr) : Int :=
  if (getMacMapper hmap macAddr).isSome then 1 else 0

/-- The branches of the `if`/`else if` chain of `get_mac_conn_cmd`. -/
inductive ConnBranch
  /-- `allow_all_connections`, and the MAC unknown or allowed. -/
  | allowAll
  /-- A known, allowed MAC with a passphrase of its own. -/
  | assigned
  /-- `get_mac_mapper` failed; the chain then falls through to the rejection. -/
  | lookupFail
  /-- An unknown MAC, or an allowed one without passphrase: the ticket or the default. -/
  | unassigned
  /-- The rejection after the chain. -/
  | reject
  deriving Repr, DecidableEq

/-- The branch `get_mac_conn_cmd` takes, its guards in the source's order. -/
def connBranch (allowAllConnections : Bool) (findMac : Int) (info : MacConnInfo) : ConnBranch :=
  if allowAllConnections ∧ (findMac = 0 ∨ (findMac = 1 ∧ info.allowConnection)) then .allowAll
  else if ¬ allowAllConnections ∧ (findMac = 1 ∧ info.allowConnection ∧ info.passLen ≠ 0) then
    .assigned
  else if ¬ allowAllConnections ∧ findMac = -1 then .lookupFail
  else if ¬ allowAllConnections ∧
      (findMac = 0 ∨ (findMac = 1 ∧ info.allowConnection ∧ info.passLen = 0)) then .unassigned
  else .reject

/-- The reply after `save_device_vlan`: the `info` it left, with `vlanid = -1` when it
failed. -/
def afterSave (r : Bool × MacConnInfo × SupervisorContext) : MacConnInfo × SupervisorContext :=
  (if r.1 then r.2.1 else { r.2.1 with vlanid := -1 }, r.2.2)

/-- `alloc_vlanid` of `get_mac_conn_cmd`: the hashed VLAN when `allocate_vlans` is on, else
the default open VLAN. -/
def allocVlanid (context : SupervisorContext) (macAddr : MacAddr) : Int :=
  if context.allocateVlans then allocateVlan context macAddr .hash 0
  else context.defaultOpenVlanid

/-- The `info` of `get_mac_conn_cmd` after `init_default_mac_info` and `get_mac_mapper`. -/
def lookupInfo (context : SupervisorContext) (macAddr : MacAddr) : MacConnInfo :=
  lookupOrDefault context.macMapper macAddr
    (initDefaultMacInfo (allocVlanid context macAddr) context.allowAllNat)

/-- The ticket branch: copy the ticket's VLAN, passphrase and label into `info`, then
`free_ticket`.  The object is read whether or not it has already been freed. -/
def useTicket (context : SupervisorContext) (info : MacConnInfo) (t : TicketObj) :
    MacConnInfo × SupervisorContext :=
  ({ info with
      vlanid := t.val.vlanid
      passLen := t.val.passphraseLen
      pass := t.val.passphrase
      label := t.val.deviceLabel },
    freeTicket context)

/-- `get_mac_conn_cmd`: the `info` returned to the RADIUS server and the context after the
call.  `save_device_vlan` draws its outcomes from `env`. -/
def getMacConnCmd (env : SaveEnv) (context : SupervisorContext) (macAddr : MacAddr) :
    MacConnInfo × SupervisorContext :=
  match connBranch context.allowAllConnections (findMacCode context.macMapper macAddr)
      (lookupInfo context macAddr) with
  | .allowAll =>
      let info := lookupInfo context macAddr
      let info :=
        if findMacCode context.macMapper macAddr = 0 then
          configureMacInfo info true (allocVlanid context macAddr) context.wpaPassphraseLen
            context.wpaPassphrase none
        else if findMacCode context.macMapper macAddr = 1 ∧ info.passLen = 0 then
          { info with passLen := context.wpaPassphraseLen, pass := context.wpaPassphrase }
        else info
      afterSave (saveDeviceVlan env context macAddr info)
  | .assigned => afterSave (saveDeviceVlan env context macAddr (lookupInfo context macAddr))
  | .lookupFail | .reject => ({ lookupInfo context macAddr with vlanid := -1 }, context)
  | .unassigned =>
      let info := { lookupInfo context macAddr with allowConnection := true }
      match context.ticket with
      | some t =>
          let r := useTicket context info t
          afterSave (saveDeviceVlan env r.2 macAddr r.1)
      | none =>
          afterSave (saveDeviceVlan env context macAddr
            { info with
                vlanid := allocVlanid context macAddr
                passLen := context.wpaPassphraseLen
                pass := context.wpaPassphrase })

/-- `deny_mac_cmd`: mark the entry denied and store it with `save_mac_mapper`, then ask
hostapd to disconnect the station; `disconnectOk` is the outcome of
`disconnect_ap_command`.  Returns `0` or `-1` and the context. -/
def denyMacCmd (env : SaveEnv) (disconnectOk : Bool) (context : SupervisorContext)
    (macAddr : MacAddr) : Int × SupervisorContext :=
  let info := lookupOrDefault context.macMapper macAddr
    (initDefaultMacInfo context.defaultOpenVlanid context.allowAllNat)
  let r := saveMacMapper env context ⟨macAddr, { info with allowConnection := false }⟩
  if ¬ r.1 then (-1, r.2)
  else if ¬ disconnectOk then (-1, r.2)
  else (0, r.2)

/-! ## The lookup and the branch -/

theorem findMacCode_of_some {hmap : HmapMacConn} {macAddr : MacAddr} {info : MacConnInfo}
    (h : getMacMapper hmap macAddr = some info) : findMacCode hmap macAddr = 1 := by
  simp [findMacCode, h]

theorem lookupOrDefault_of_some {hmap : HmapMacConn} {macAddr : MacAddr} {info : MacConnInfo}
    (h : getMacMapper hmap macAddr = some info) (default : MacConnInfo) :
    lookupOrDefault hmap macAddr default = info := by
  simp [lookupOrDefault, h]

/-- A found entry that is denied falls through every guard of the chain. -/
theorem connBranch_of_denied (allowAllConnections : Bool) {info : MacConnInfo}
    (hdeny : info.allowConnection = false) :
    connBranch allowAllConnections 1 info = .reject := by
  cases allowAllConnections <;> simp [connBranch, hdeny]

/-! ## What a call changes -/

theorem afterSave_snd (r : Bool × MacConnInfo × SupervisorContext) :
    (afterSave r).2 = r.2.2 := rfl

/-- A call of `get_mac_conn_cmd` touches only the MAC mapper and the ticket. -/
theorem getMacConnCmd_context (env : SaveEnv) (context : SupervisorContext) (macAddr : MacAddr) :
    (getMacConnCmd env context macAddr).2 =
      { context with
        macMapper := (getMacConnCmd env context macAddr).2.macMapper
        ticket := (getMacConnCmd env context macAddr).2.ticket } := by
  unfold getMacConnCmd
  split
  · rw [afterSave_snd, saveDeviceVlan_context]
  · rw [afterSave_snd, saveDeviceVlan_context]
  · rfl
  · rfl
  · split
    · rw [afterSave_snd, saveDeviceVlan_context]; rfl
    · rw [afterSave_snd, saveDeviceVlan_context]

/-- The ticket after a call: cleared on the `unassigned` branch, untouched on the others. -/
theorem getMacConnCmd_ticket (env : SaveEnv) (context : SupervisorContext) (macAddr : MacAddr) :
    (getMacConnCmd env context macAddr).2.ticket =
      if connBranch context.allowAllConnections (findMacCode context.macMapper macAddr)
          (lookupInfo context macAddr) = .unassigned then none
      else context.ticket := by
  unfold getMacConnCmd
  split <;> rename_i hb
  · rw [hb, if_neg (by decide), afterSave_snd, saveDeviceVlan_ticket]
  · rw [hb, if_neg (by decide), afterSave_snd, saveDeviceVlan_ticket]
  · rw [hb, if_neg (by decide)]
  · rw [hb, if_neg (by decide)]
  · rw [hb, if_pos rfl]
    split
    · rw [afterSave_snd, saveDeviceVlan_ticket]; rfl
    · rename_i hnone
      rw [afterSave_snd, saveDeviceVlan_ticket, hnone]

/-! ## A denied MAC is rejected -/

/-- On a MAC whose entry is denied, `get_mac_conn_cmd` rejects and changes nothing. -/
theorem getMacConnCmd_of_denied (env : SaveEnv) (context : SupervisorContext)
    {macAddr : MacAddr} {info : MacConnInfo}
    (hfind : getMacMapper context.macMapper macAddr = some info)
    (hdeny : info.allowConnection = false) :
    getMacConnCmd env context macAddr = ({ info with vlanid := -1 }, context) := by
  have hcode := findMacCode_of_some hfind
  have hinfo : lookupInfo context macAddr = info := lookupOrDefault_of_some hfind _
  have hbranch := connBranch_of_denied context.allowAllConnections hdeny
  unfold getMacConnCmd
  simp only [hcode, hinfo, hbranch]

theorem denied_mac_rejected (env : SaveEnv) (context : SupervisorContext) (macAddr : MacAddr)
    (info : MacConnInfo) (hfind : getMacMapper context.macMapper macAddr = some info)
    (hdeny : info.allowConnection = false) :
    (getMacConnCmd env context macAddr).1.vlanid = -1 ∧
      getMacMapper (getMacConnCmd env context macAddr).2.macMapper macAddr = some info ∧
      (getMacConnCmd env context macAddr).2.ticket = context.ticket := by
  rw [getMacConnCmd_of_denied env context hfind hdeny]
  exact ⟨rfl, hfind, rfl⟩

/-- A station that was denied, in a supervisor that admits every connection and holds a
ticket. -/
def deniedStation : MacAddr := #v[2, 0, 0, 0, 0, 1]

def deniedStationInfo : MacConnInfo :=
  { initDefaultMacInfo 3 true with allowConnection := false }

def deniedStationContext : SupervisorContext where
  macMapper := [(deniedStation, deniedStationInfo)]
  allowAllConnections := true
  allowAllNat := true
  execCapture := false
  wpaPassphrase := []
  wpaPassphraseLen := 0
  allocateVlans := false
  defaultOpenVlanid := 3
  configVlans := []
  ticket := some ⟨0, false, ⟨List.replicate 16 48, 16, "guest", 7⟩⟩
  allocs := 1

theorem denied_station_rejected :
    getMacMapper deniedStationContext.macMapper deniedStation = some deniedStationInfo ∧
      deniedStationInfo.allowConnection = false ∧
      ((getMacConnCmd ⟨true, some 0, "", true⟩ deniedStationContext deniedStation).1.vlanid = -1 ∧
        getMacMapper (getMacConnCmd ⟨true, some 0, "", true⟩ deniedStationContext
          deniedStation).2.macMapper deniedStation = some deniedStationInfo ∧
        (getMacConnCmd ⟨true, some 0, "", true⟩ deniedStationContext deniedStation).2.ticket =
          deniedStationContext.ticket) :=
  have hfind : getMacMapper deniedStationContext.macMapper deniedStation =
      some deniedStationInfo := if_pos rfl
  ⟨hfind, rfl, denied_mac_rejected _ _ _ _ hfind rfl⟩

/-! ## `deny_mac_cmd` -/

/-- Whatever it returns, `deny_mac_cmd` leaves the context `save_mac_mapper` made. -/
theorem denyMacCmd_snd (env : SaveEnv) (disconnectOk : Bool) (context : SupervisorContext)
    (macAddr : MacAddr) :
    (denyMacCmd env disconnectOk context macAddr).2 =
      (saveMacMapper env context ⟨macAddr, { lookupOrDefault context.macMapper macAddr
        (initDefaultMacInfo context.defaultOpenVlanid context.allowAllNat) with
          allowConnection := false }⟩).2 := by
  unfold denyMacCmd
  dsimp only
  split_ifs <;> rfl

end Supervisor

end EdgeSec
