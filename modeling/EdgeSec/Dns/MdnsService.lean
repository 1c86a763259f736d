import EdgeSec.Dns.MdnsMapper
import EdgeSec.Utils.Squeue
import EdgeSec.Utils.Net
import EdgeSec.Capture.PacketDecoder

/-!
# Bridge commands of the mDNS service

For every IPv4 packet the mDNS service captures, `send_bridge_command`
(`src/dns/mdns_service.c`) asks the mDNS mapper whether the source or the destination has
given an mDNS answer, and if so builds the command `ADD_BRIDGE src dst`
(`create_domain_command`) and sends it to the supervisor's control socket once: the command
mapper (`src/dns/command_mapper.c`) remembers which commands were sent.  The mapper keys its
uthash table on the 32-bit `md_hash` of the command (`src/utils/hash.c`), not on the command,
so a command whose hash equals that of one sent before is taken for it.

The table `hmap_command_conn` is the list of its keys in insertion order; its value is always
`true` and never read.  `md_hash` reads the command four bytes at a time into a `uint32_t`,
in the byte order of the little-endian targets the service is built for, and copies a last
partial block over the bytes of the block before it.  Each allocation and the socket write
may fail; which do is part of the packet event (`BridgeAlloc`), as for the mDNS mapper.  The
decoder keeps an IPv4 address as the string `inaddr4_2_ip` writes, the dotted quad of its
four bytes.

## Main results

* `createDomainCommand_eq`, `writeDomainCommand_eq`, `sendBridgeCommand_ip4`: what one packet
  does: nothing, or, when one end has answered and the command's key is new, the key is put
  and the command written.
* `imap_run`: packets leave the mDNS mapper alone, so the table is the run of its own puts.
* `written_keys_nodup`: along every run the commands written have distinct keys, so none is
  written twice; `written_of_qualifying`: each is the command of a packet one of whose ends
  had answered.
* `not_written_run_of_key_mem`: a packet whose command has the key of one put before writes
  nothing, however much later it comes, and `mdHash_add_bridge_collision` gives two such
  commands.
-/

namespace EdgeSec.Mdns

open Machine Squeue Capture

/-! ## `md_hash` -/

/-- `md_mix`. -/
def mdMix (block state : UInt32) : UInt32 := (state * block) ^^^ ((state <<< 3) + (block >>> 2))

/-- The `uint32_t` whose four bytes in memory are `b`, least significant first. -/
def leWord (b : List UInt8) : UInt32 :=
  (b.getD 0 0).toUInt32 ||| (b.getD 1 0).toUInt32 <<< 8 ||| (b.getD 2 0).toUInt32 <<< 16 |||
    (b.getD 3 0).toUInt32 <<< 24

/-- The loop of `md_hash` over the message and its last `if (length)`: `block` holds the
bytes of the variable `block`, of which the tail's `memcpy` overwrites only the first. -/
def mdHashLoop : List UInt8 → List UInt8 → UInt32 → UInt32
  | a :: b :: c :: d :: msg, _, state => mdHashLoop msg [a, b, c, d] (mdMix (leWord [a, b, c, d]) state)
  | [], _, state => state
  | msg, block, state => mdMix (leWord (msg ++ block.drop msg.length)) state

/-- `md_hash(msg, length)` on the `length` bytes of `msg`. -/
def mdHash (msg : List UInt8) : UInt32 := mdHashLoop msg [0, 0, 0, 0] 0xA5A5A5A5

/-- The bytes `strlen` counts of a C string of ASCII characters. -/
def cBytes (s : String) : List UInt8 := (Os.cStr s.toList).map Char.toUInt8

/-! ## The command mapper -/

/-- `hmap_command_conn`: the keys of its entries. -/
abbrev HmapCommandConn := List UInt32

/-- `hash_key = md_hash(command, strlen(command))`, the key of a command. -/
def commandKey (command : String) : UInt32 := mdHash (cBytes command)

/-- `put_command_mapper`, with whether its `os_malloc` succeeds. -/
def putCommandMapper (mallocOk : Bool) (hmap : HmapCommandConn) (command : String) :
    HmapCommandConn × Int :=
  let hashKey := commandKey command
  if hashKey ∈ hmap then (hmap, 0)
  else if mallocOk then (hmap ++ [hashKey], 0) else (hmap, -1)

/-- `check_command_mapper`. -/
def checkCommandMapper (hmap : HmapCommandConn) (command : String) : Int :=
  if commandKey command ∈ hmap then 1 else 0

/-! ## `send_bridge_command` -/

/-- `CMD_ADD_BRIDGE`. -/
def cmdAddBridge : String := "ADD_BRIDGE"

/-- `CMD_DELIMITER`. -/
def cmdDelimiter : Char := ' '

/-- `create_domain_command`: the command is pushed piece by piece into an unbounded string
queue and concatenated. -/
def createDomainCommand (srcIp dstIp : String) : Option String :=
  let delimStr := String.singleton cmdDelimiter
  let squeue := initStringQueue (-1)
  let squeue := pushStringQueue squeue cmdAddBridge
  let squeue := pushStringQueue squeue delimStr
  let squeue := pushStringQueue squeue srcIp
  let squeue := pushStringQueue squeue delimStr
  let squeue := pushStringQueue squeue dstIp
  concatStringQueue squeue (-1)

/-- The four address bytes the decoder stored, as `uint8_t ip[IP_ALEN]`. -/
def ip4Buf (addr : List UInt8) : IpAddr4 := Vector.ofFn fun i => addr.getD i 0

/-- `inaddr4_2_ip`: the dotted quad `inet_ntop` writes for an address. -/
def inaddr4ToIp (addr : List UInt8) : String := Net.dotted (ip4Buf addr)

/-- The fields of `struct mdns_context` that `send_bridge_command` reads and writes. -/
structure MdnsContext where
  imap : HmapMdnsConn
  commandMapper : HmapCommandConn

/-- What the environment does during one `send_bridge_command`: the stale contents of the
uninitialised `sip` and `dip`, whether `put_command_mapper`'s allocation succeeds, and
whether `write_domain_data_s` succeeds. -/
structure BridgeAlloc where
  sip : IpAddr4
  dip : IpAddr4
  mallocOk : Bool
  writeOk : Bool

/-- The end of `send_bridge_command` once the command is built: `check_command_mapper`, and
for a command not in the mapper `put_command_mapper` and the write to the supervisor. -/
def writeDomainCommand (alloc : BridgeAlloc) (context : MdnsContext) (domain : String) :
    MdnsContext × Option String × Int :=
  let ret := checkCommandMapper context.commandMapper domain
  if ret > 0 then (context, none, 0)
  else if ret = 0 then
    let r := putCommandMapper alloc.mallocOk context.commandMapper domain
    if r.2 < 0 then (context, none, -1)
    else
      -- the key stays in the mapper even when the write fails
      let context := { context with commandMapper := r.1 }
      if alloc.writeOk then (context, some domain, 0) else (context, none, -1)
  else (context, none, -1)

/-- `send_bridge_command(context, tp)`: the context afterwards, the command written to the
supervisor, and the return value. -/
def sendBridgeCommand (alloc : BridgeAlloc) (context : MdnsContext) (tp : TuplePacket) :
    MdnsContext × Option String × Int :=
  match tp with
  | .ip4 sch =>
      let srcIp := inaddr4ToIp sch.ipSrc
      let dstIp := inaddr4ToIp sch.ipDst
      match Net.ip4ToBuf srcIp.toList alloc.sip with
      | none => (context, none, -1)
      | some sip =>
          match Net.ip4ToBuf dstIp.toList alloc.dip with
          | none => (context, none, -1)
          | some dip =>
              match bridgeCommandCheck context.imap sip dip with
              | none => (context, none, -1)
              | some false => (context, none, 0)
              | some true =>
                  match createDomainCommand srcIp dstIp with
                  | none => (context, none, -1)
                  | some domain => writeDomainCommand alloc context domain
  | _ => (context, none, 0)

/-- The events of the mDNS service: a put into the mDNS mapper for a query or an answer it
captured, or a captured packet passed to `send_bridge_command`. -/
inductive ServiceEvent
  | mapper (c : MapperCmd)
  | packet (alloc : BridgeAlloc) (tp : TuplePacket)

/-- One event, with the command it writes to the supervisor. -/
def serviceStep (context : MdnsContext) : ServiceEvent → MdnsContext × Option String
  | .mapper c => ({ context with imap := (mapperStep context.imap c).1 }, none)
  | .packet alloc tp =>
      let r := sendBridgeCommand alloc context tp
      (r.1, r.2.1)

/-- The puts of a list of events, in order. -/
def mapperCmds : List ServiceEvent → List MapperCmd
  | [] => []
  | .mapper c :: evs => c :: mapperCmds evs
  | .packet _ _ :: evs => mapperCmds evs

/-- The command `ADD_BRIDGE src dst` for the addresses of an IPv4 packet. -/
def addBridgeCommand (sch : Ip4Schema) : String :=
  cmdAddBridge ++ " " ++ inaddr4ToIp sch.ipSrc ++ " " ++ inaddr4ToIp sch.ipDst

/-! ## One packet -/

theorem createDomainCommand_eq (srcIp dstIp : String) :
    createDomainCommand srcIp dstIp = some (cmdAddBridge ++ " " ++ srcIp ++ " " ++ dstIp) := by
  simp [createDomainCommand, pushStringQueue, getStringQueueLength, initStringQueue,
    concatStringQueue, concatStringQueueLoop, cmdDelimiter, String.append_assoc]

/-- The mapper and the write: a command whose key is in the mapper is dropped; otherwise its
key is put, when the allocation succeeds, and it is written, when the write succeeds. -/
theorem writeDomainCommand_eq (alloc : BridgeAlloc) (context : MdnsContext) (domain : String) :
    writeDomainCommand alloc context domain =
      if commandKey domain ∈ context.commandMapper then (context, none, 0)
      else if alloc.mallocOk then
        ({ context with commandMapper := context.commandMapper ++ [commandKey domain] },
          if alloc.writeOk then some domain else none, if alloc.writeOk then 0 else -1)
      else (context, none, -1) := by
  unfold writeDomainCommand checkCommandMapper putCommandMapper
  by_cases hmem : commandKey domain ∈ context.commandMapper
  · simp [hmem]
  · by_cases hok : alloc.mallocOk <;> by_cases hw : alloc.writeOk <;> simp [hmem, hok, hw]

/-- An IPv4 packet: the addresses convert back from their dotted quads, and the command is
asked for exactly when the mDNS mapper has an answer for one of them. -/
theorem sendBridgeCommand_ip4 (alloc : BridgeAlloc) (context : MdnsContext) (sch : Ip4Schema) :
    sendBridgeCommand alloc context (.ip4 sch) =
      if bridgeCommandCheck context.imap (ip4Buf sch.ipSrc) (ip4Buf sch.ipDst) = some true then
        writeDomainCommand alloc context (addBridgeCommand sch)
      else (context, none, 0) := by
  simp only [sendBridgeCommand, inaddr4ToIp, Net.ip4ToBuf_dotted]
  obtain ⟨b, hb⟩ : ∃ b, bridgeCommandCheck context.imap (ip4Buf sch.ipSrc) (ip4Buf sch.ipDst) =
      some b := ⟨_, bridgeCommandCheck_eq _ _ _⟩
  rw [hb]
  cases b with
  | false => rfl
  | true =>
      simp only [if_true, createDomainCommand_eq]
      rfl

@[simp] theorem serviceStep_mapper (context : MdnsContext) (c : MapperCmd) :
    serviceStep context (.mapper c) = ({ context with imap := (mapperStep context.imap c).1 }, none) :=
  rfl

/-- Everything a packet can do: nothing, or, for an IPv4 packet one of whose ends has answered
and whose command has a new key, put the key and write the command if the write succeeds. -/
theorem serviceStep_packet_cases (context : MdnsContext) (alloc : BridgeAlloc) (tp : TuplePacket) :
    serviceStep context (.packet alloc tp) = (context, none) ∨
      ∃ sch, tp = .ip4 sch ∧
        bridgeCommandCheck context.imap (ip4Buf sch.ipSrc) (ip4Buf sch.ipDst) = some true ∧
        commandKey (addBridgeCommand sch) ∉ context.commandMapper ∧ alloc.mallocOk = true ∧
        serviceStep context (.packet alloc tp) =
          ({ context with commandMapper := context.commandMapper ++ [commandKey (addBridgeCommand sch)] },
            if alloc.writeOk then some (addBridgeCommand sch) else none) := by
  cases tp with
  | ip4 sch =>
      by_cases hq : bridgeCommandCheck context.imap (ip4Buf sch.ipSrc) (ip4Buf sch.ipDst) = some true
      · by_cases hmem : commandKey (addBridgeCommand sch) ∈ context.commandMapper
        · left
          simp [serviceStep, sendBridgeCommand_ip4, hq, writeDomainCommand_eq, hmem]
        · by_cases hok : alloc.mallocOk
          · right
            refine ⟨sch, rfl, hq, hmem, hok, ?_⟩
            simp [serviceStep, sendBridgeCommand_ip4, hq, writeDomainCommand_eq, hmem, hok]
          · left
            simp [serviceStep, sendBridgeCommand_ip4, hq, writeDomainCommand_eq, hmem, hok]
      · left
        simp [serviceStep, sendBridgeCommand_ip4, hq]
  | _ => left; rfl

/-- A packet whose command has a key already in the mapper writes nothing. -/
theorem not_written_of_key_mem {context : MdnsContext} {sch : Ip4Schema}
    (h : commandKey (addBridgeCommand sch) ∈ context.commandMapper) (alloc : BridgeAlloc) :
    serviceStep context (.packet alloc (.ip4 sch)) = (context, none) := by
  rcases serviceStep_packet_cases context alloc (.ip4 sch) with h' | ⟨sch', hsch, -, hnew, -, -⟩
  · exact h'
  · cases hsch
    exact absurd h hnew

/-! ## Runs -/

/-- Packets leave the mDNS mapper alone: along any run its table is the run of the puts. -/
theorem imap_run (context : MdnsContext) (evs : List ServiceEvent) :
    (run serviceStep context evs).1.imap = (run mapperStep context.imap (mapperCmds evs)).1 := by
  induction evs generalizing context with
  | nil => rfl
  | cons ev evs ih =>
      cases ev with
      | mapper c =>
          rw [run_cons, ih, serviceStep_mapper]
          rfl
      | packet alloc tp =>
          rw [run_cons, ih, mapperCmds]
          rcases serviceStep_packet_cases context alloc tp with h | ⟨sch, -, -, -, -, h⟩ <;> rw [h]

/-- The mapper only grows along a run: a key once put stays. -/
theorem commandMapper_prefix_run (context : MdnsContext) (evs : List ServiceEvent) :
    context.commandMapper <+: (run serviceStep context evs).1.commandMapper := by
  induction evs generalizing context with
  | nil => exact List.prefix_refl _
  | cons ev evs ih =>
      rw [run_cons]
      refine List.IsPrefix.trans ?_ (ih _)
      cases ev with
      | mapper c => exact List.prefix_refl _
      | packet alloc tp =>
          rcases serviceStep_packet_cases context alloc tp with h | ⟨sch, -, -, -, -, h⟩
          · rw [h]
          · rw [h]
            exact List.prefix_append _ _

/-- A command whose key is in the mapper is never written afterwards, whatever happens in
between. -/
theorem not_written_run_of_key_mem {context : MdnsContext} {sch : Ip4Schema}
    (h : commandKey (addBridgeCommand sch) ∈ context.commandMapper) (evs : List ServiceEvent)
    (alloc : BridgeAlloc) :
    (serviceStep (run serviceStep context evs).1 (.packet alloc (.ip4 sch))).2 = none := by
  have hmem := (commandMapper_prefix_run context evs).subset h
  rw [not_written_of_key_mem hmem]

/-- The packet from `10.0.0.108` to `10.0.0.1`. -/
def sch108 : Ip4Schema := { ipSrc := [10, 0, 0, 108], ipDst := [10, 0, 0, 1] }

/-- Its allocations and its write succeed. -/
def alloc108 : BridgeAlloc := ⟨ip4Buf [10, 0, 0, 108], ip4Buf [10, 0, 0, 1], true, true⟩

/-- An answer of `10.0.0.1`, put with both allocations succeeding. -/
def answer1 : MapperCmd :=
  .putAnswer ⟨true, true⟩ (ip4Buf [10, 0, 0, 1]) ⟨120, 1, "printer.local", [10, 0, 0, 1]⟩

/-- With its key in the mapper, the command of `10.0.0.108` and `10.0.0.1` is not written again
after an answer of `10.0.0.1`. -/
theorem not_written_run_of_key_mem_108 :
    commandKey (addBridgeCommand sch108) ∈
        (⟨[], [commandKey (addBridgeCommand sch108)]⟩ : MdnsContext).commandMapper ∧
      (serviceStep (run serviceStep ⟨[], [commandKey (addBridgeCommand sch108)]⟩
        [.mapper answer1]).1 (.packet alloc108 (.ip4 sch108))).2 = none :=
  ⟨List.mem_singleton_self _, not_written_run_of_key_mem (List.mem_singleton_self _) _ _⟩

/-- The keys of the commands written so far are distinct and in the mapper. -/
def WrittenInv (context : MdnsContext) (replies : List (Option String)) : Prop :=
  (replies.reduceOption.map commandKey).Nodup ∧
    ∀ w ∈ replies.reduceOption, commandKey w ∈ context.commandMapper

/-- A step that writes nothing and keeps every key keeps the invariant. -/
theorem WrittenInv.silent {context context' : MdnsContext} {replies : List (Option String)}
    (h : WrittenInv context replies) (hsub : context.commandMapper ⊆ context'.commandMapper) :
    WrittenInv context' (replies ++ [none]) := by
  rw [WrittenInv, List.reduceOption_append, List.reduceOption_singleton, Option.toList_none,
    List.append_nil]
  exact ⟨h.1, fun w hw => hsub (h.2 w hw)⟩

/-- A step that writes a command with a new key, having put the key, keeps the invariant. -/
theorem WrittenInv.write {context context' : MdnsContext} {replies : List (Option String)}
    {w : String} (h : WrittenInv context replies) (hnew : commandKey w ∉ context.commandMapper)
    (hsub : context.commandMapper ⊆ context'.commandMapper)
    (hput : commandKey w ∈ context'.commandMapper) :
    WrittenInv context' (replies ++ [some w]) := by
  obtain ⟨hnd, hmem⟩ := h
  rw [WrittenInv, List.reduceOption_append, List.reduceOption_singleton, Option.toList_some,
    List.map_append, List.map_singleton]
  refine ⟨List.nodup_append.2 ⟨hnd, List.nodup_singleton _, ?_⟩, ?_⟩
  · -- every key written before is in the mapper, so it is not the new one
    intro a ha b hb hab
    obtain ⟨v, hv, rfl⟩ := List.mem_map.1 ha
    rw [List.mem_singleton] at hb
    exact hnew (hb ▸ hab ▸ hmem v hv)
  · intro v hv
    rcases List.mem_append.1 hv with hv | hv
    · exact hsub (hmem v hv)
    · rw [List.mem_singleton.1 hv]
      exact hput

theorem writtenInv_step {context : MdnsContext} {replies : List (Option String)}
    (h : WrittenInv context replies) (ev : ServiceEvent) :
    WrittenInv (serviceStep context ev).1 (replies ++ [(serviceStep context ev).2]) := by
  cases ev with
  | mapper c => exact h.silent (List.Subset.refl _)
  | packet alloc tp =>
      rcases serviceStep_packet_cases context alloc tp with hstep | ⟨sch, -, -, hnew, -, hstep⟩
      · rw [hstep]
        exact h.silent (List.Subset.refl _)
      · rw [hstep]
        have hsub : context.commandMapper ⊆
            context.commandMapper ++ [commandKey (addBridgeCommand sch)] :=
          List.subset_append_left _ _
        cases alloc.writeOk with
        | false => exact h.silent hsub
        | true => exact h.write hnew hsub (List.mem_append_right _ (List.mem_singleton_self _))

/-- Along every run, the commands written to the supervisor have distinct keys: none is
written twice. -/
theorem written_keys_nodup (context : MdnsContext) (evs : List ServiceEvent) :
    ((run serviceStep context evs).2.reduceOption.map commandKey).Nodup := by
  have hinv : WrittenInv (run serviceStep context evs).1 (run serviceStep context evs).2 :=
    run_trace_invariant WrittenInv ⟨List.nodup_nil, by simp⟩
      (fun s tr c h => writtenInv_step h c) evs
  exact hinv.1

/-- After any events from the start, a packet writes only the command of its own two addresses,
and only when a put of an answer for one of them succeeded among those events. -/
theorem written_of_qualifying (pre : List ServiceEvent) (alloc : BridgeAlloc) (tp : TuplePacket)
    {w : String} (hw : (serviceStep (run serviceStep ⟨[], []⟩ pre).1 (.packet alloc tp)).2 = some w) :
    ∃ sch, tp = .ip4 sch ∧ w = addBridgeCommand sch ∧
      ((∃ el ∈ putsFor (transitions mapperStep [] (mapperCmds pre)) (ip4Buf sch.ipSrc),
          el.request = .answer) ∨
        ∃ el ∈ putsFor (transitions mapperStep [] (mapperCmds pre)) (ip4Buf sch.ipDst),
          el.request = .answer) := by
  rcases serviceStep_packet_cases _ alloc tp with h | ⟨sch, rfl, hq, -, -, h⟩
  · rw [h] at hw
    cases hw
  · rw [h] at hw
    have hcmd : w = addBridgeCommand sch := by
      cases hok : alloc.writeOk <;> simp only [hok, Bool.false_eq_true, if_false, if_true,
        reduceCtorEq, Option.some.injEq] at hw
      exact hw.symm
    -- the test was made on the table the puts among `pre` built
    have himap : (run serviceStep ⟨[], []⟩ pre).1.imap = (run mapperStep [] (mapperCmds pre)).1 :=
      imap_run _ pre
    rw [himap, bridgeCommandCheck_run, Option.some.injEq, decide_eq_true_iff] at hq
    exact ⟨sch, rfl, hcmd, hq⟩

/-- After an answer of `10.0.0.1`, the packet from `10.0.0.108` to it writes its command, for
which the answer qualifies. -/
theorem written_of_qualifying_108 :
    (serviceStep (run serviceStep ⟨[], []⟩ [.mapper answer1]).1
        (.packet alloc108 (.ip4 sch108))).2 = some "ADD_BRIDGE 10.0.0.108 10.0.0.1" ∧
      ∃ sch, TuplePacket.ip4 sch108 = .ip4 sch ∧
        "ADD_BRIDGE 10.0.0.108 10.0.0.1" = addBridgeCommand sch ∧
        ((∃ el ∈ putsFor (transitions mapperStep [] (mapperCmds [.mapper answer1]))
            (ip4Buf sch.ipSrc), el.request = .answer) ∨
          ∃ el ∈ putsFor (transitions mapperStep [] (mapperCmds [.mapper answer1]))
            (ip4Buf sch.ipDst), el.request = .answer) := by
  have hw : (serviceStep (run serviceStep ⟨[], []⟩ [.mapper answer1]).1
      (.packet alloc108 (.ip4 sch108))).2 = some "ADD_BRIDGE 10.0.0.108 10.0.0.1" := by
    decide +kernel
  exact ⟨hw, written_of_qualifying _ _ _ hw⟩

/-! ## Two commands with one key -/

/-- `md_hash` gives the commands for `10.0.0.108` and `10.0.0.148` to `10.0.0.1` one key. -/
theorem mdHash_add_bridge_collision :
    commandKey "ADD_BRIDGE 10.0.0.108 10.0.0.1" = commandKey "ADD_BRIDGE 10.0.0.148 10.0.0.1" := by
  decide +kernel

example : commandKey "ADD_BRIDGE 10.0.0.108 10.0.0.1" = 0x1b76bf91 := by decide +kernel

theorem addBridgeCommand_108 :
    addBridgeCommand { ipSrc := [10, 0, 0, 108], ipDst := [10, 0, 0, 1] } =
      "ADD_BRIDGE 10.0.0.108 10.0.0.1" := by
  decide +kernel

theorem addBridgeCommand_148 :
    addBridgeCommand { ipSrc := [10, 0, 0, 148], ipDst := [10, 0, 0, 1] } =
      "ADD_BRIDGE 10.0.0.148 10.0.0.1" := by
  decide +kernel

/-- Once `10.0.0.1` has answered, a packet from `10.0.0.108` to it has its command written and
a later packet from `10.0.0.148` to it has none, though both pairs qualify: the second
command has the key of the first. -/
theorem bridge_command_lost_to_hash_collision (answer : MdnsAnswerEntry)
    (sip₁ dip₁ sip₂ dip₂ : IpAddr4) :
    (run mapperStep [] [.putAnswer ⟨true, true⟩ (ip4Buf [10, 0, 0, 1]) answer]).2 = [0] ∧
    (run serviceStep ⟨[], []⟩
      [.mapper (.putAnswer ⟨true, true⟩ (ip4Buf [10, 0, 0, 1]) answer),
        .packet ⟨sip₁, dip₁, true, true⟩ (.ip4 { ipSrc := [10, 0, 0, 108], ipDst := [10, 0, 0, 1] }),
        .packet ⟨sip₂, dip₂, true, true⟩ (.ip4 { ipSrc := [10, 0, 0, 148], ipDst := [10, 0, 0, 1] })]).2 =
      [none, some "ADD_BRIDGE 10.0.0.108 10.0.0.1", none] := by
  -- the put of the answer makes the table's only entry
  have himap : (mapperStep [] (.putAnswer ⟨true, true⟩ (ip4Buf [10, 0, 0, 1]) answer)) =
      ([(ip4Buf [10, 0, 0, 1], [storedInfo (answerInfo answer)])], 0) := rfl
  have hq : ∀ src : List UInt8,
      bridgeCommandCheck [(ip4Buf [10, 0, 0, 1], [storedInfo (answerInfo answer)])]
        (ip4Buf src) (ip4Buf [10, 0, 0, 1]) = some true := by
    intro src
    rw [bridgeCommandCheck_eq]
    simp [hashFind, storedInfo, answerInfo]
  refine ⟨by simp [himap], ?_⟩
  have h₂ : serviceStep ⟨[(ip4Buf [10, 0, 0, 1], [storedInfo (answerInfo answer)])], []⟩
      (.packet ⟨sip₁, dip₁, true, true⟩ (.ip4 { ipSrc := [10, 0, 0, 108], ipDst := [10, 0, 0, 1] })) =
      (⟨[(ip4Buf [10, 0, 0, 1], [storedInfo (answerInfo answer)])],
        [commandKey "ADD_BRIDGE 10.0.0.108 10.0.0.1"]⟩, some "ADD_BRIDGE 10.0.0.108 10.0.0.1") := by
    simp only [serviceStep, sendBridgeCommand_ip4, hq, if_true, writeDomainCommand_eq,
      addBridgeCommand_108, List.not_mem_nil, if_false, List.nil_append]
  -- the second command's key is the first one's, already in the mapper
  have h₃ := @not_written_of_key_mem
    ⟨[(ip4Buf [10, 0, 0, 1], [storedInfo (answerInfo answer)])],
      [commandKey "ADD_BRIDGE 10.0.0.108 10.0.0.1"]⟩
    { ipSrc := [10, 0, 0, 148], ipDst := [10, 0, 0, 1] }
    (by rw [addBridgeCommand_148, ← mdHash_add_bridge_collision]; exact List.mem_singleton_self _)
    ⟨sip₂, dip₂, true, true⟩
  simp only [run_cons, run_nil, serviceStep_mapper, himap]
  rw [h₂, h₃]

end EdgeSec.Mdns
