import EdgeSec.Lib.Varint

/-!
# The length-delimited protobuf records of the capture pipe

`src/capture/middlewares/protobuf_middleware/protobuf_utils.c` writes a protobuf message
prefixed with its size as a varint (the "delimited" form), and `protobuf_encoder.c`
allocates the buffer for it from the size it computes first:

* `uint32_pack` writes the varint byte by byte, in four nested `if (value >= 0x80)` blocks;
* `uint32_size` computes its length by a separate cascade of comparisons;
* `protobuf_c_message_del_get_packed_size` and `protobuf_c_message_del_pack` use the one and
  the other around the message;
* `encode_protobuf_sync_delimited` wraps a packet in a sync message, allocates
  `del_get_packed_size` bytes and packs into them.

The message functions of protobuf-c are outside this repository: `ProtobufC` holds them, with
the contract protobuf-c documents, that `pack` writes `get_packed_size` bytes.  A failing
`os_malloc` is not modelled.

## Main results

* `uint32Pack_eq_varint`: `uint32_pack` writes the varint of the value;
* `length_uint32Pack`: it writes `uint32_size` bytes;
* `length_messageDelPack`: `del_pack` writes `del_get_packed_size` bytes, for every message;
* `encodeProtobufSyncDelimited_fits`: the delimited encoder fills the buffer it allocates;
* `decodeVarint_messageDelPack`: a reader of the buffer gets the size, then the message.
-/

namespace EdgeSec.Protobuf

open Varint

/-- The bytes of `uint32_pack`: each of its four nested `if (value >= 0x80)` blocks stores
`value | 0x80` into a `uint8_t` and shifts the value by seven (`groups` counts the blocks
left), then the last byte is `value`. -/
def packGroups : ℕ → UInt32 → List UInt8
  | 0, value => [value.toUInt8]
  | groups + 1, value =>
      if value ≥ 0x80 then (value ||| 0x80).toUInt8 :: packGroups groups (value >>> 7)
      else [value.toUInt8]

/-- `uint32_pack`: the bytes written to `out`; it returns their number. -/
def uint32Pack (value : UInt32) : List UInt8 := packGroups 4 value

/-- `uint32_size`, comparing with `1UL << 7`, `1UL << 14`, `1UL << 21` and `1UL << 28`. -/
def uint32Size (v : UInt32) : ℕ :=
  if v.toNat < 2 ^ 7 then 1
  else if v.toNat < 2 ^ 14 then 2
  else if v.toNat < 2 ^ 21 then 3
  else if v.toNat < 2 ^ 28 then 4
  else 5

/-- What the encoder uses of protobuf-c for a message type: `get_packed_size`, and `pack` as
the bytes it writes, which are as many as `get_packed_size` says. -/
structure ProtobufC (Msg : Type*) where
  messageGetPackedSize : Msg → ℕ
  messagePack : Msg → List UInt8
  length_messagePack : ∀ message, (messagePack message).length = messageGetPackedSize message

variable {Msg : Type*}

/-- `protobuf_c_message_del_get_packed_size`: the `size_t` packed size goes through the
`uint32_t` parameter of `uint32_size`, so its delimiter is sized modulo `2 ^ 32`. -/
def messageDelGetPackedSize (pc : ProtobufC Msg) (message : Msg) : ℕ :=
  let messageSize := pc.messageGetPackedSize message
  let delimiterSize := uint32Size (UInt32.ofNat messageSize)
  messageSize + delimiterSize

/-- `protobuf_c_message_del_pack`: the count it returns and the bytes it writes, the delimiter
and then the message. -/
def messageDelPack (pc : ProtobufC Msg) (message : Msg) : ℕ × List UInt8 :=
  let messageSize := pc.messageGetPackedSize message
  let delimiter := uint32Pack (UInt32.ofNat messageSize)
  ((pc.messagePack message).length + delimiter.length, delimiter ++ pc.messagePack message)

/-- `PACKET_TYPES`. -/
inductive PacketTypes
  | none
  | ethernet
  | arp
  | ip4
  | ip6
  | tcp
  | udp
  | icmp4
  | icmp6
  | dns
  | mdns
  | dhcp
  deriving Repr, DecidableEq

/-- The `header_id` that `encode_protobuf_sync_delimited` copies for a packet type; none for
`PACKET_NONE`, where it returns `-1`. -/
def headerId : PacketTypes → Option String
  | .none => Option.none
  | .ethernet => some "eth"
  | .arp => some "arp"
  | .ip4 => some "ip4"
  | .ip6 => some "ip6"
  | .tcp => some "tcp"
  | .udp => some "udp"
  | .icmp4 => some "icmp4"
  | .icmp6 => some "icmp6"
  | .dns => some "dns"
  | .mdns => some "mdns"
  | .dhcp => some "dhcp"

/-- The fields of `ProtobufSyncWrapper` that the encoder sets. -/
structure ProtobufSyncWrapper where
  headerId : String
  payload : List UInt8
  deriving Repr, DecidableEq

/-- `encode_protobuf_sync_delimited`: the size it allocates, the count it returns and the bytes
it writes into the buffer; none where it returns `-1`. -/
def encodeProtobufSyncDelimited (pc : ProtobufC ProtobufSyncWrapper) (type : PacketTypes)
    (packetBuffer : List UInt8) : Option (ℕ × ℕ × List UInt8) :=
  match headerId type with
  | Option.none => Option.none
  | some headerId =>
      let sync : ProtobufSyncWrapper := ⟨headerId, packetBuffer⟩
      let syncLength := messageDelGetPackedSize pc sync
      let r := messageDelPack pc sync
      some (syncLength, r.1, r.2)

/-! ## `uint32_pack` writes the varint -/

/-- The low byte of `value | 0x80` is the low seven bits with the high bit set. -/
theorem toNat_toUInt8_or (value : UInt32) :
    ((value ||| 0x80).toUInt8).toNat = value.toNat % 128 + 128 := by
  have hbyte : ∀ b : UInt8, (b ||| 0x80).toNat = b.toNat % 128 + 128 := by decide +kernel
  rw [UInt32.toUInt8_or]
  show (value.toUInt8 ||| 0x80).toNat = _
  rw [hbyte, UInt32.toNat_toUInt8]
  omega

theorem toUInt8_eq_toNat_toUInt8 (value : UInt32) : value.toUInt8 = value.toNat.toUInt8 := by
  apply UInt8.toNat_inj.1
  simp

theorem toNat_shiftRight_seven (value : UInt32) : (value >>> 7).toNat = value.toNat / 128 := by
  rw [UInt32.toNat_shiftRight, Nat.shiftRight_eq_div_pow]
  rfl

/-- With `groups` blocks left, a value of at most `groups + 1` groups of seven bits is written
as its varint. -/
theorem packGroups_eq_varint (groups : ℕ) (value : UInt32)
    (h : value.toNat < 128 ^ (groups + 1)) : packGroups groups value = varint value.toNat := by
  induction groups generalizing value with
  | zero =>
      rw [packGroups, varint_of_lt (by simpa using h), toUInt8_eq_toNat_toUInt8]
  | succ groups ih =>
      rw [packGroups]
      split
      · rename_i hge
        have hle : 128 ≤ value.toNat := UInt32.le_iff_toNat_le.1 hge
        have hshift : (value >>> 7).toNat < 128 ^ (groups + 1) := by
          rw [toNat_shiftRight_seven, Nat.div_lt_iff_lt_mul (by omega), ← Nat.pow_succ]
          exact h
        rw [ih _ hshift, toNat_shiftRight_seven, varint_of_le hle]
        congr 1
        apply UInt8.toNat_inj.1
        rw [toNat_toUInt8_or, toNat_toUInt8_of_lt (by omega)]
      · rename_i hlt
        have hlt' : value.toNat < 128 :=
          Nat.lt_of_not_le fun hle => hlt (UInt32.le_iff_toNat_le.2 hle)
        rw [varint_of_lt hlt', toUInt8_eq_toNat_toUInt8]

/-- `uint32_pack` writes the base-128 varint of the value: 32 bits fit in its five bytes. -/
theorem uint32Pack_eq_varint (value : UInt32) : uint32Pack value = varint value.toNat :=
  packGroups_eq_varint 4 value (by have := value.toNat_lt; omega)

/-- `uint32_size` is the length of the varint, one threshold per number of groups. -/
theorem uint32Size_eq_length_varint (v : UInt32) : uint32Size v = (varint v.toNat).length := by
  have hv := v.toNat_lt
  unfold uint32Size
  split_ifs with h1 h2 h3 h4
  · exact (length_varint_eq (k := 0) (Or.inl rfl) (by omega)).symm
  · exact (length_varint_eq (k := 1) (Or.inr (by omega)) (by omega)).symm
  · exact (length_varint_eq (k := 2) (Or.inr (by omega)) (by omega)).symm
  · exact (length_varint_eq (k := 3) (Or.inr (by omega)) (by omega)).symm
  · exact (length_varint_eq (k := 4) (Or.inr (by omega)) (by omega)).symm

/-- The two cascades agree: `uint32_pack` writes `uint32_size` bytes. -/
theorem length_uint32Pack (v : UInt32) : (uint32Pack v).length = uint32Size v := by
  rw [uint32Pack_eq_varint, uint32Size_eq_length_varint]

example : uint32Pack 300 = [0xAC, 0x02] := by decide

/-! ## The delimited message -/

section Delimited

variable (pc : ProtobufC Msg) (message : Msg)

/-- `del_pack` writes and counts `del_get_packed_size` bytes, whatever the message's size. -/
theorem messageDelPack_eq_length :
    (messageDelPack pc message).1 = messageDelGetPackedSize pc message ∧
      (messageDelPack pc message).2.length = messageDelGetPackedSize pc message := by
  have hpack := pc.length_messagePack message
  have hdel := length_uint32Pack (UInt32.ofNat (pc.messageGetPackedSize message))
  simp only [messageDelPack, messageDelGetPackedSize, List.length_append, hpack, hdel]
  exact ⟨trivial, Nat.add_comm _ _⟩

theorem length_messageDelPack :
    (messageDelPack pc message).2.length = messageDelGetPackedSize pc message :=
  (messageDelPack_eq_length pc message).2

/-- Below `2 ^ 32`, the reader of a delimited record gets the message's size, then exactly the
message. -/
theorem decodeVarint_messageDelPack (h : pc.messageGetPackedSize message < 2 ^ 32) :
    decodeVarint (messageDelPack pc message).2 =
      some (pc.messageGetPackedSize message, pc.messagePack message) := by
  have hsize : (UInt32.ofNat (pc.messageGetPackedSize message)).toNat =
      pc.messageGetPackedSize message := by
    rw [UInt32.toNat_ofNat', Nat.mod_eq_of_lt h]
  simp only [messageDelPack]
  rw [uint32Pack_eq_varint, hsize, decodeVarint_varint_append]

/-- Byte strings packed as themselves. -/
def bytesProtobufC : ProtobufC (List UInt8) := ⟨List.length, id, fun _ => rfl⟩

/-- A record of three bytes reads back with its size. -/
theorem decodeVarint_messageDelPack_three_bytes :
    bytesProtobufC.messageGetPackedSize [1, 2, 3] < 2 ^ 32 ∧
      decodeVarint (messageDelPack bytesProtobufC [1, 2, 3]).2 = some (3, [1, 2, 3]) :=
  ⟨by decide, decodeVarint_messageDelPack bytesProtobufC [1, 2, 3] (by decide)⟩

end Delimited

/-- `encode_protobuf_sync_delimited` refuses exactly `PACKET_NONE`, and otherwise writes and
returns as many bytes as it allocated. -/
theorem encodeProtobufSyncDelimited_fits (pc : ProtobufC ProtobufSyncWrapper) (type : PacketTypes)
    (packetBuffer : List UInt8) :
    (encodeProtobufSyncDelimited pc type packetBuffer).isSome = decide (type ≠ .none) ∧
      (encodeProtobufSyncDelimited pc type packetBuffer).all
        (fun r => r.2.1 = r.1 ∧ r.2.2.length = r.1) := by
  unfold encodeProtobufSyncDelimited
  cases type <;>
    simp [headerId, (messageDelPack_eq_length pc _).1, (messageDelPack_eq_length pc _).2]

/-- `uint32_pack` writes `uint32_size` bytes, the varint of the value, with the continuation
bit on all but the last, which decode back to the value; so a delimited record has the size
`del_get_packed_size` gives it, and `encode_protobuf_sync_delimited` writes as many bytes as
it allocates. -/
theorem uint32_pack_writes_uint32_size_varint (pc : ProtobufC Msg)
    (pcSync : ProtobufC ProtobufSyncWrapper) :
    (∀ v : UInt32, (uint32Pack v).length = uint32Size v ∧ uint32Pack v = varint v.toNat ∧
      (∃ init last, uint32Pack v = init ++ [last] ∧ (∀ b ∈ init, 128 ≤ b.toNat) ∧
        last.toNat < 128) ∧
      decodeVarint (uint32Pack v) = some (v.toNat, [])) ∧
    (∀ message, (messageDelPack pc message).2.length = messageDelGetPackedSize pc message) ∧
    ∀ type packetBuffer, ∀ r ∈ encodeProtobufSyncDelimited pcSync type packetBuffer,
      r.2.2.length = r.1 := by
  refine ⟨fun v => ⟨length_uint32Pack v, uint32Pack_eq_varint v, ?_, ?_⟩,
    length_messageDelPack pc, fun type packetBuffer r hr => ?_⟩
  · rw [uint32Pack_eq_varint]
    exact varint_eq_init_last v.toNat
  · rw [uint32Pack_eq_varint]
    exact decodeVarint_varint v.toNat
  · have hall := (encodeProtobufSyncDelimited_fits pcSync type packetBuffer).2
    rw [Option.mem_def] at hr
    rw [hr, Option.all_some, decide_eq_true_eq] at hall
    exact hall.2

end EdgeSec.Protobuf
