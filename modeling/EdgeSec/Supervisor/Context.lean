import EdgeSec.Supervisor.MacMapper

/-!
# The supervisor context and the helpers its commands share

`struct supervisor_context` (`src/supervisor/supervisor_config.h`) holds the daemon's
configuration flags, the MAC mapper, the bridge list, the firewall context and the single
authentication ticket.  This file models the fields the modelled commands read or write,
and the helpers of `src/supervisor/supervisor.c`, `supervisor_utils.c` and
`network_commands.c` that several commands call:

* `allocate_vlan` with `sdbm_hash` (`src/utils/hash.c`), in 32-bit arithmetic;
* `configure_mac_info`, `save_mac_mapper`, `save_device_vlan`;
* `free_ticket`.

`context->ticket` is a pointer to a heap object.  It is modelled as an optional
`TicketObj`: the ticket's contents, whether the object has been freed while the pointer
still refers to it (a dangling pointer), and the serial number of the allocation that made
it.  Every `os_zalloc` of a ticket takes the next serial from `allocs`, so two different
allocations are never confused, even where the allocator hands out the same address again.

What the supervisor does outside this repository or outside the modelled state is an
explicit `SaveEnv` of outcomes: whether `schedule_analyser` succeeds (it starts a capture
thread), the time `os_get_timestamp` reads, the identifier `generate_radom_uuid` draws and
whether the SQLite write of `save_sqlite_macconn_entry` succeeds.  The build without
`WITH_CRYPTO_SERVICE` (the default of `CMakeLists.txt`) is modelled.
-/

namespace EdgeSec

/-- `struct auth_ticket`; `passphrase` holds the first `passphrase_len` bytes. -/
structure AuthTicket where
  passphrase : List UInt8
  passphraseLen : Int
  deviceLabel : String
  vlanid : Int
  deriving Repr, DecidableEq

/-- The heap object `context->ticket` points to. -/
structure TicketObj where
  serial : ℕ
  freed : Bool
  val : AuthTicket
  deriving Repr, DecidableEq

/-- The fields of `struct supervisor_context` that the modelled commands use.
`configVlans` are the `vlanid`s of `config_ifinfo_array`, in order. -/
structure SupervisorContext where
  macMapper : HmapMacConn
  allowAllConnections : Bool
  allowAllNat : Bool
  execCapture : Bool
  wpaPassphrase : List UInt8
  wpaPassphraseLen : Int
  allocateVlans : Bool
  defaultOpenVlanid : Int
  configVlans : List Int
  ticket : Option TicketObj
  allocs : ℕ
  deriving Repr

/-- The outcomes of what `save_device_vlan` calls outside the modelled state. -/
structure SaveEnv where
  scheduleOk : Bool
  timestamp : Option ℕ
  uuid : String
  sqliteOk : Bool
  deriving Repr, DecidableEq

namespace Supervisor

open MacMapper

/-- `sdbm_hash` over the six bytes of a MAC address, in `uint32_t` arithmetic. -/
def sdbmHash (msg : List UInt8) : UInt32 :=
  msg.foldl (fun hash b => b.toUInt32 + (hash <<< 6) + (hash <<< 16) - hash) 0

/-- `enum VLAN_ALLOCATION_TYPE`. -/
inductive VlanAllocationType
  | random
  | hash
  deriving Repr, DecidableEq

/-- The position of `vlan_arr` that `allocate_vlan` reads: none when at most one
interface is configured, else `os_get_random_int_range(0, len)` of the `rand()` value `rnd`
for `VLAN_ALLOCATE_RANDOM`, and `sdbm_hash(mac) % len` for `VLAN_ALLOCATE_HASH`. -/
def allocateVlanIdx (context : SupervisorContext) (macAddr : MacAddr) (type : VlanAllocationType)
    (rnd : ℕ) : Option ℕ :=
  let len := context.configVlans.length
  if len ≤ 1 then none
  else
    match type with
    | .random => some (rnd % (len - 0 + 1) + 0)
    | .hash => some ((sdbmHash macAddr.toList).toNat % len)

/-- `allocate_vlan`: the default open VLAN when at most one interface is configured, else
the VLAN stored at the position `allocateVlanIdx` picks.  A position past the array is an
out-of-bounds read in C; `allocateVlanIdx` exposes it, and the value read there is
modelled as `-1`. -/
def allocateVlan (context : SupervisorContext) (macAddr : MacAddr) (type : VlanAllocationType)
    (rnd : ℕ) : Int :=
  match allocateVlanIdx context macAddr type rnd with
  | none => context.defaultOpenVlanid
  | some i => context.configVlans.getD i (-1)

/-- `configure_mac_info` (with `label == NULL` as `none`). -/
def configureMacInfo (info : MacConnInfo) (allowConnection : Bool) (vlanid : Int) (passLen : Int)
    (pass : List UInt8) (label : Option String) : MacConnInfo :=
  { info with
    allowConnection := allowConnection
    vlanid := vlanid
    passLen := passLen
    pass := pass
    label := label.getD info.label }

/-- `save_mac_mapper`: give the entry an identifier if it has none, store it, then write it
to the SQLite table; the store happens even when the write then fails. -/
def saveMacMapper (env : SaveEnv) (context : SupervisorContext) (conn : MacConn) :
    Bool × SupervisorContext :=
  let conn := if conn.info.id = "" then { conn with info := { conn.info with id := env.uuid } }
    else conn
  let context := { context with macMapper := putMacMapper context.macMapper conn }
  (env.sqliteOk, context)

/-- `save_device_vlan`: start the analyser if capture is on, stamp the join time into the
caller's `info`, then `save_mac_mapper`.  Returns success, the caller's `info` as the call
left it, and the context. -/
def saveDeviceVlan (env : SaveEnv) (context : SupervisorContext) (macAddr : MacAddr)
    (info : MacConnInfo) : Bool × MacConnInfo × SupervisorContext :=
  if context.execCapture ∧ ¬ env.scheduleOk then (false, info, context)
  else
    match env.timestamp with
    | none => (false, info, context)
    | some t =>
        let info := { info with joinTimestamp := t }
        let r := saveMacMapper env context ⟨macAddr, info⟩
        (r.1, info, r.2)

/-- `free_ticket`: free the object `context->ticket` points to, if any, and clear the
pointer. -/
def freeTicket (context : SupervisorContext) : SupervisorContext :=
  { context with ticket := none }

/-- Whether a step that frees the ticket frees an object that is already freed. -/
def freesTwice (context : SupervisorContext) : Bool :=
  match context.ticket with
  | some t => t.freed
  | none => false

@[simp] theorem freeTicket_ticket (context : SupervisorContext) :
    (freeTicket context).ticket = none := rfl

@[simp] theorem freeTicket_macMapper (context : SupervisorContext) :
    (freeTicket context).macMapper = context.macMapper := rfl

@[simp] theorem saveMacMapper_ticket (env : SaveEnv) (context : SupervisorContext) (conn : MacConn) :
    (saveMacMapper env context conn).2.ticket = context.ticket := rfl

@[simp] theorem saveMacMapper_fst (env : SaveEnv) (context : SupervisorContext) (conn : MacConn) :
    (saveMacMapper env context conn).1 = env.sqliteOk := rfl

/-- `save_mac_mapper` puts the entry under its own key, with the identifier it chose. -/
theorem saveMacMapper_macMapper (env : SaveEnv) (context : SupervisorContext) (conn : MacConn) :
    (saveMacMapper env context conn).2.macMapper =
      putMacMapper context.macMapper
        ⟨conn.macAddr, if conn.info.id = "" then { conn.info with id := env.uuid } else conn.info⟩ := by
  by_cases h : conn.info.id = ""
  · simp [saveMacMapper, h]
  · simp [saveMacMapper, h]

@[simp] theorem saveMacMapper_allocs (env : SaveEnv) (context : SupervisorContext) (conn : MacConn) :
    (saveMacMapper env context conn).2.allocs = context.allocs := rfl

/-- `save_device_vlan` touches only the MAC mapper of the context. -/
theorem saveDeviceVlan_context (env : SaveEnv) (context : SupervisorContext) (macAddr : MacAddr)
    (info : MacConnInfo) :
    (saveDeviceVlan env context macAddr info).2.2 =
      { context with macMapper := (saveDeviceVlan env context macAddr info).2.2.macMapper } := by
  unfold saveDeviceVlan
  split
  · rfl
  · split <;> rfl

@[simp] theorem saveDeviceVlan_ticket (env : SaveEnv) (context : SupervisorContext)
    (macAddr : MacAddr) (info : MacConnInfo) :
    (saveDeviceVlan env context macAddr info).2.2.ticket = context.ticket := by
  rw [saveDeviceVlan_context]

/-! ## The position `allocate_vlan` reads -/

section AllocateVlan

variable (context : SupervisorContext) (macAddr : MacAddr)

/-- `VLAN_ALLOCATE_HASH` reads position `sdbm_hash(mac) % len`. -/
theorem allocateVlanIdx_hash (rnd : ℕ) :
    allocateVlanIdx context macAddr .hash rnd =
      if context.configVlans.length ≤ 1 then none
      else some ((sdbmHash macAddr.toList).toNat % context.configVlans.length) := by
  simp [allocateVlanIdx]

/-- `os_get_random_int_range(0, len)` is `rand() % (len + 1)`: its upper bound is inclusive. -/
theorem allocateVlanIdx_random (rnd : ℕ) :
    allocateVlanIdx context macAddr .random rnd =
      if context.configVlans.length ≤ 1 then none
      else some (rnd % (context.configVlans.length + 1)) := by
  simp [allocateVlanIdx]

/-- `sdbm_hash(mac) % len` is always a position of the array. -/
theorem allocateVlanIdx_hash_lt (rnd : ℕ) :
    (allocateVlanIdx context macAddr .hash rnd).all (· < context.configVlans.length) := by
  rw [allocateVlanIdx_hash]
  split
  · rfl
  · rename_i hlen
    simp only [Option.all_some, decide_eq_true_eq]
    exact Nat.mod_lt _ (by omega)

/-- No station yet, VLANs `1` and `2` configured and allocated. -/
def twoVlanContext : SupervisorContext := ⟨[], false, false, false, [], 0, true, 0, [1, 2], none, 0⟩

/-- The hash position is always inside `vlan_arr`, but a `rand()` value equal to the number of
interfaces makes `VLAN_ALLOCATE_RANDOM` read the element one past its end. -/
theorem allocate_vlan_random_index_reaches_len (context : SupervisorContext) (macAddr : MacAddr) :
    (∀ rnd, (allocateVlanIdx context macAddr .hash rnd).all (· < context.configVlans.length)) ∧
    allocateVlanIdx context macAddr .random context.configVlans.length =
      if context.configVlans.length ≤ 1 then none else some context.configVlans.length := by
  refine ⟨allocateVlanIdx_hash_lt context macAddr, ?_⟩
  rw [allocateVlanIdx_random, Nat.mod_eq_of_lt (Nat.lt_succ_self _)]

end AllocateVlan

end Supervisor

end EdgeSec
