import Mathlib

/-!
# The MAC mapper of `src/supervisor/mac_mapper.c`

The supervisor keeps, for every MAC address it has seen, a `struct mac_conn_info`: the
VLAN it is assigned to, whether it may connect, whether NAT is on for it, its WiFi
passphrase and its two IP slots.  The store is a uthash table keyed by the six address
bytes.  uthash iterates in insertion order and `put_mac_mapper` overwrites an existing
entry in place, so the table is modelled by an association list in insertion order, which
`putMacMapper` never gives a key twice.

`get_mac_mapper` writes `*info` only when it finds the key; its callers initialise `info`
with `init_default_mac_info` first, which is `lookupOrDefault`.  The `NULL` checks on its
pointer arguments (return `-1`) are not modelled: every caller passes the address of a
local.

The byte array `pass[AP_SECRET_LEN]` is modelled by its first `pass_len` bytes, the only
ones any reader looks at.
-/

namespace EdgeSec

/-- A MAC address, `uint8_t mac_addr[ETHER_ADDR_LEN]`. -/
abbrev MacAddr := Vector UInt8 6

/-- `enum AP_CONNECTION_STATUS`. -/
inductive ApConnectionStatus
  | defaultStatus
  | connected
  | disconnected
  deriving Repr, DecidableEq

/-- `struct mac_conn_info`. -/
structure MacConnInfo where
  status : ApConnectionStatus
  vlanid : Int
  nat : Bool
  allowConnection : Bool
  pass : List UInt8
  passLen : Int
  ipAddr : String
  ipSecAddr : String
  ifname : String
  label : String
  id : String
  joinTimestamp : ℕ
  deriving Repr, DecidableEq

/-- `struct mac_conn`. -/
structure MacConn where
  macAddr : MacAddr
  info : MacConnInfo
  deriving Repr, DecidableEq

namespace MacMapper

/-- `init_default_mac_info`: the info of a MAC the supervisor has no entry for. -/
def initDefaultMacInfo (defaultOpenVlanid : Int) (allowAllNat : Bool) : MacConnInfo where
  status := .defaultStatus
  vlanid := defaultOpenVlanid
  nat := allowAllNat
  allowConnection := true
  pass := []
  passLen := 0
  ipAddr := ""
  ipSecAddr := ""
  ifname := ""
  label := ""
  id := ""
  joinTimestamp := 0

end MacMapper

/-- `hmap_mac_conn`: the entries of the hash table in insertion order. -/
abbrev HmapMacConn := List (MacAddr × MacConnInfo)

namespace MacMapper

/-- `get_mac_mapper` (`HASH_FIND`): the stored info of `macAddr`, `none` when it has no
entry (return value `0`). -/
def getMacMapper : HmapMacConn → MacAddr → Option MacConnInfo
  | [], _ => none
  | e :: rest, macAddr => if e.1 = macAddr then some e.2 else getMacMapper rest macAddr

/-- The `info` a caller holds after `init_default_mac_info` followed by `get_mac_mapper`. -/
def lookupOrDefault (hmap : HmapMacConn) (macAddr : MacAddr) (default : MacConnInfo) :
    MacConnInfo :=
  (getMacMapper hmap macAddr).getD default

/-- `put_mac_mapper`: overwrite the value of the entry with the same key in place
(`s->value = conn.info`), or add a new entry at the end (`HASH_ADD`). -/
def putMacMapper : HmapMacConn → MacConn → HmapMacConn
  | [], conn => [(conn.macAddr, conn.info)]
  | e :: rest, conn =>
      if e.1 = conn.macAddr then (e.1, conn.info) :: rest else e :: putMacMapper rest conn

/-- `get_mac_list`: every entry, in iteration order. -/
def getMacList (hmap : HmapMacConn) : List MacConn := hmap.map fun e => ⟨e.1, e.2⟩

variable {hmap : HmapMacConn}

@[simp] theorem getMacMapper_nil (mac : MacAddr) : getMacMapper [] mac = none := rfl

/-- After a put, the key holds the new info. -/
@[simp] theorem getMacMapper_putMacMapper_self (hmap : HmapMacConn) (conn : MacConn) :
    getMacMapper (putMacMapper hmap conn) conn.macAddr = some conn.info := by
  induction hmap with
  | nil => simp [putMacMapper, getMacMapper]
  | cons e rest ih =>
      by_cases he : e.1 = conn.macAddr
      · simp [putMacMapper, getMacMapper, he]
      · simp [putMacMapper, getMacMapper, he, ih]

/-- A put leaves every other key alone. -/
theorem getMacMapper_putMacMapper_of_ne (hmap : HmapMacConn) (conn : MacConn) {mac : MacAddr}
    (hne : mac ≠ conn.macAddr) :
    getMacMapper (putMacMapper hmap conn) mac = getMacMapper hmap mac := by
  induction hmap with
  | nil => simp [putMacMapper, getMacMapper, Ne.symm hne]
  | cons e rest ih =>
      by_cases he : e.1 = conn.macAddr
      · simp [putMacMapper, getMacMapper, he, Ne.symm hne]
      · simp only [putMacMapper, getMacMapper, he, if_false, ih]

theorem getMacMapper_putMacMapper (hmap : HmapMacConn) (conn : MacConn) (mac : MacAddr) :
    getMacMapper (putMacMapper hmap conn) mac =
      if mac = conn.macAddr then some conn.info else getMacMapper hmap mac := by
  split
  · rename_i h; subst h; exact getMacMapper_putMacMapper_self hmap conn
  · rename_i h; exact getMacMapper_putMacMapper_of_ne hmap conn h

/-- A key has an entry exactly when it is one of the keys. -/
theorem getMacMapper_isSome_iff (hmap : HmapMacConn) (mac : MacAddr) :
    (getMacMapper hmap mac).isSome ↔ mac ∈ hmap.map Prod.fst := by
  induction hmap with
  | nil => simp
  | cons e rest ih =>
      by_cases he : e.1 = mac
      · simp [getMacMapper, he]
      · simp [getMacMapper, he, ih, Ne.symm he]

end MacMapper

end EdgeSec
