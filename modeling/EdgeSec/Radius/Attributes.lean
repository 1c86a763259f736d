import EdgeSec.Lib.Memory
import EdgeSec.Lib.XorChain
import EdgeSec.Supervisor.MacMapper

/-!
# The attributes of the RADIUS MAC ACL server

`radius_server_macacl` (`src/radius/radius_server.c`) answers an Access-Request with the
VLAN and the passphrase that the supervisor's connection callback gives for the station:

* `get_vlan_attribute` builds Tunnel-Type, Tunnel-Medium-Type and Tunnel-Private-Group-ID,
  the last by `sprintf(id_str, "%d", vlan_id)` into `char id_str[5]`;
* `get_password_attribute` builds Tunnel-Password: tag `0`, a random salt with its top bit set,
  then the passphrase hidden by `encrypt_ms_key` (`src/radius/radius.c`), a chain of XOR masks
  `MD5(secret + ...)` over 16-byte blocks (`Lib/XorChain`);
* `radius_msg_get_tunnel_password` is the access point's side, which unmasks it again.

`md5_vector` is any function to 16 bytes: nothing here depends on what MD5 computes.  What
`os_get_random` draws is a parameter (`none` when it fails); allocations are taken to succeed.
A copy past a buffer is a fault of `Lib/Memory`.

## Main results

* `getVlanAttribute_of_lt`, `getVlanAttribute_of_le`: the group id is the decimal VLAN below
  `10000`, and from `10000` on `sprintf` writes six bytes into the five of `id_str`;
* `getPasswordAttribute_eq`: the value is tag, salt and the masked blocks of the key;
* `radiusMsgGetTunnelPassword_getPasswordAttribute`: the access point recovers the passphrase.
-/

namespace EdgeSec.Radius

open Memory XorChain

/-- An attribute of a RADIUS message (`struct hostapd_radius_attr` before it is added): its
type and its value. -/
structure RadiusAttr where
  type : UInt8
  val : List UInt8
  deriving Repr, DecidableEq

/-- `RADIUS_ATTR_TUNNEL_TYPE`. -/
def radiusAttrTunnelType : UInt8 := 64

/-- `RADIUS_ATTR_TUNNEL_MEDIUM_TYPE`. -/
def radiusAttrTunnelMediumType : UInt8 := 65

/-- `RADIUS_ATTR_TUNNEL_PASSWORD`. -/
def radiusAttrTunnelPassword : UInt8 := 69

/-- `RADIUS_ATTR_TUNNEL_PRIVATE_GROUP_ID`. -/
def radiusAttrTunnelPrivateGroupId : UInt8 := 81

/-- `RADIUS_CODE_ACCESS_ACCEPT`. -/
def radiusCodeAccessAccept : UInt8 := 2

/-- `RADIUS_CODE_ACCESS_REJECT`. -/
def radiusCodeAccessReject : UInt8 := 3

/-- `RADIUS_ATTR_TUNNEL_VALUE`: VLAN. -/
def radiusAttrTunnelValue : UInt32 := 13

/-- `RADIUS_ATTR_TUNNEL_MEDIUM_VALUE`: IEEE 802. -/
def radiusAttrTunnelMediumValue : UInt32 := 6

/-- `RADIUS_MAX_ATTR_LEN`: 255 less the two bytes of the attribute header. -/
def radiusMaxAttrLen : ℕ := 253

/-- `AP_SECRET_LEN`, the size of the `pass` array of `struct mac_conn_info`. -/
def apSecretLen : ℕ := 64

/-- `WPA_PUT_BE16`. -/
def putBe16 (v : UInt16) : List UInt8 := [(v >>> 8).toUInt8, v.toUInt8]

/-- `wpabuf_put_be32`. -/
def putBe32 (v : UInt32) : List UInt8 :=
  [(v >>> 24).toUInt8, (v >>> 16).toUInt8, (v >>> 8).toUInt8, v.toUInt8]

/-- The `(size_t)` conversion of an `int` or `ssize_t`. -/
def sizeT (x : ℤ) : ℕ := (x % 2 ^ 64).toNat

/-- The characters `sprintf(buf, "%d", n)` writes for a non-negative `n`, before its NUL. -/
def decimalDigits (n : ℕ) : List UInt8 :=
  if n < 10 then [(48 + n).toUInt8] else decimalDigits (n / 10) ++ [(48 + n % 10).toUInt8]
termination_by n
decreasing_by omega

/-! ## The VLAN attributes -/

/-- `get_vlan_attribute`: Tunnel-Type `13` and Tunnel-Medium-Type `6` as big-endian words, and
Tunnel-Private-Group-ID the `strlen(id_str)` bytes that `sprintf` left in `char id_str[5]`. -/
def getVlanAttribute (vlanId : UInt16) : Except Stop (List RadiusAttr) := do
  let idStr ← storeInto 5 (decimalDigits vlanId.toNat ++ [0])
  pure [⟨radiusAttrTunnelType, putBe32 radiusAttrTunnelValue⟩,
    ⟨radiusAttrTunnelMediumType, putBe32 radiusAttrTunnelMediumValue⟩,
    ⟨radiusAttrTunnelPrivateGroupId, idStr.takeWhile (· ≠ 0)⟩]

/-! ## Tunnel-Password -/

section Md5

variable (md5 : List UInt8 → Vector UInt8 16)

/-- The `len` of `encrypt_ms_key`: `1 + key_len`, rounded up by `(len & 0xf0) + 16` when it is
not a multiple of 16. -/
def msKeyLen (keyLen : ℕ) : ℕ :=
  let len := 1 + keyLen
  if len &&& 0x0f ≠ 0 then (len &&& 0xf0) + 16 else len

/-- The `while (len > 0)` loop of `encrypt_ms_key` over the 16-byte blocks of `ebuf`: each
block XORed with `hash`, which is `MD5(secret + req_authenticator + salt)` for the first block
and `MD5(secret + c(i - 1))`, the block just masked, for the later ones. -/
def encryptMsKeyLoop (secret reqAuthenticator saltbuf : List UInt8) :
    Bool → List UInt8 → List (List UInt8) → List (List UInt8)
  | _, _, [] => []
  | first, prev, blk :: rest =>
      let hash := md5 (if first then secret ++ reqAuthenticator ++ saltbuf else secret ++ prev)
      let c := xorBlock blk hash.toList
      c :: encryptMsKeyLoop secret reqAuthenticator saltbuf false c rest

/-- What `ebuf` holds before the loop: `key_len` as a byte, the key, then the zeros of the
`memset`, over its first `len` bytes. -/
def msKeyPlain (key : List UInt8) : List UInt8 :=
  ((key.length.toUInt8 :: key) ++ List.replicate (msKeyLen key.length) 0).take
    (msKeyLen key.length)

/-- `encrypt_ms_key(key, key_len, salt, req_authenticator, secret, secret_len, ebuf, &elen)`:
the `len` bytes of `ebuf` the loop masks, and `elen`. -/
def encryptMsKey (key : List UInt8) (salt : UInt16) (reqAuthenticator : Vector UInt8 16)
    (secret : List UInt8) : List UInt8 × ℕ :=
  ((encryptMsKeyLoop md5 secret reqAuthenticator.toList (putBe16 salt) true []
    (blocks 16 (msKeyPlain key))).flatten, msKeyLen key.length)

/-- `get_password_attribute(req_authenticator, secret, secret_len, key, key_len)`: `buf` holds
`packet_len` bytes, a `uint16_t`; it gets tag `0`, the salt with its top bit set, and from offset
3 what `encrypt_ms_key` writes (its `memcpy` of the key may reach past the `len` it masks).  The
value is the first `3 + elen` bytes. -/
def getPasswordAttribute (random : Option UInt16) (reqAuthenticator : Vector UInt8 16)
    (secret key : List UInt8) : Except Stop RadiusAttr := do
  let salt ← match random with
    | some salt => pure salt
    | none => throw .fail
  let salt := salt ||| 0x8000
  let packetLen := (3 + 1 + key.length + 15) % 2 ^ 16
  let e := encryptMsKey md5 key salt reqAuthenticator secret
  let buf ← storeInto packetLen ([0] ++ putBe16 salt ++ e.1 ++ key.drop (e.2 - 1))
  pure ⟨radiusAttrTunnelPassword, buf.take (3 + e.2)⟩

/-- `MD5(secret + x)`, the mask `md5_vector` computes from the pieces `secret` and `x`. -/
def md5Mask (secret x : List UInt8) : List UInt8 := (md5 (secret ++ x)).toList

/-- The value of the `n`-th Tunnel-Password attribute that `radius_msg_get_tunnel_password`
takes: one whose length (value and two header bytes) is above 5 and whose value has `3 + 16 k`
bytes with `k ≥ 1`. -/
def tunnelPasswordValue (attrs : List RadiusAttr) (n : ℕ) : Option (List UInt8) :=
  ((attrs.filter fun a => a.type = radiusAttrTunnelPassword ∧ ¬ a.val.length + 2 ≤ 5 ∧
    ¬ (a.val.length ≤ 3 ∨ a.val.length % 16 ≠ 3)).map RadiusAttr.val)[n]?

/-- `radius_msg_get_tunnel_password(msg, &keylen, secret, secret_len, sent_msg, n)`: the
passphrase and `keylen`, `none` for `NULL`.  The blocks after tag and salt are unmasked in place
from the last back to the second, each with `MD5(secret + the block before it)`, then the first
with `MD5(secret + sent authenticator + salt)`; a value of `3 + 16 k` bytes always leaves the
backward loop at the first block, so its `str != pos` check never fails. -/
def radiusMsgGetTunnelPassword (attrs : List RadiusAttr) (secret : List UInt8)
    (sentAuthenticator : Vector UInt8 16) (n : ℕ) : Option (List UInt8 × ℕ) := do
  let buf ← tunnelPasswordValue attrs n
  let salt := (buf.drop 1).take 2
  let str := blocks 16 (buf.drop 3)
  let str := decryptBack (md5Mask md5 secret) (str.length - 1) str
  let str := str.set 0 (xorBlock (str.getD 0 []) (md5Mask md5 secret (sentAuthenticator.toList ++ salt)))
  let plain := str.flatten
  let keylen := (plain.getD 0 0).toNat
  if buf.length ≤ 3 + keylen then none
  else if keylen = 0 then none
  else some ((plain.drop 1).take keylen, keylen)

/-! ## The reply -/

/-- What `radius_server_macacl` reads of the Access-Request: its authenticator, and whether
`radius_msg_get_attr_ptr` finds a User-Password. -/
structure AccessRequest where
  authenticator : Vector UInt8 16
  hasUserPassword : Bool
  deriving Repr, DecidableEq

/-- `radius_server_macacl` for the `mac_conn_info` that `conn_fn` returns: the reply's code and
the attributes it adds.  A VLAN `>= 0` goes to `get_vlan_attribute` narrowed to `uint16_t`, and
the passphrase is the first `pass_len` bytes of the `AP_SECRET_LEN` bytes of `pass`; an
attribute longer than `RADIUS_MAX_ATTR_LEN` makes `radius_msg_add_attr` fail, and the reply is
dropped. -/
def radiusServerMacacl (random : Option UInt16) (sharedSecret : List UInt8)
    (macConn : MacConnInfo) (request : AccessRequest) : Except Stop (UInt8 × List RadiusAttr) := do
  let attrs ← if 0 ≤ macConn.vlanid then do
      let attr ← getVlanAttribute (UInt16.ofNat macConn.vlanid.toNat)
      let pass := (macConn.pass ++ List.replicate apSecretLen 0).take apSecretLen
      let key ← loadFrom pass (sizeT macConn.passLen)
      let passAttr ← getPasswordAttribute md5 random request.authenticator sharedSecret key
      pure (some (attr ++ [passAttr]))
    else pure none
  let code := if attrs.isSome ∧ request.hasUserPassword then radiusCodeAccessAccept
    else radiusCodeAccessReject
  let added := if code = radiusCodeAccessAccept then attrs.getD [] else []
  if added.any fun a => radiusMaxAttrLen < a.val.length then throw .fail
  pure (code, added)

end Md5

/-! ## The decimal VLAN -/

theorem decimalDigits_of_lt {n : ℕ} (h : n < 10) : decimalDigits n = [(48 + n).toUInt8] := by
  rw [decimalDigits, if_pos h]

theorem decimalDigits_of_le {n : ℕ} (h : 10 ≤ n) :
    decimalDigits n = decimalDigits (n / 10) ++ [(48 + n % 10).toUInt8] := by
  rw [decimalDigits, if_neg (by omega)]

theorem decimalDigits_ne_nil (n : ℕ) : decimalDigits n ≠ [] := by
  rw [decimalDigits]
  split <;> simp

/-- `%d` writes at most `k + 1` digits exactly for the numbers below `10 ^ (k + 1)`. -/
theorem length_decimalDigits_le_iff (n k : ℕ) :
    (decimalDigits n).length ≤ k + 1 ↔ n < 10 ^ (k + 1) := by
  induction k generalizing n with
  | zero =>
      by_cases h : n < 10
      · simp [decimalDigits_of_lt h, h]
      · have hpos : 0 < (decimalDigits (n / 10)).length :=
          List.length_pos_iff.2 (decimalDigits_ne_nil _)
        rw [decimalDigits_of_le (by omega), List.length_append, List.length_singleton]
        constructor
        · intro hle
          omega
        · intro hlt
          omega
  | succ k ih =>
      by_cases h : n < 10
      · have hpow : 10 ≤ 10 ^ (k + 1 + 1) := Nat.le_self_pow (by omega) 10
        simp only [decimalDigits_of_lt h, List.length_singleton]
        constructor
        · intro _
          omega
        · intro _
          omega
      · rw [decimalDigits_of_le (by omega), List.length_append, List.length_singleton,
          Nat.add_le_add_iff_right, ih (n / 10), Nat.div_lt_iff_lt_mul (by omega), ← Nat.pow_succ]

/-- The digits are the bytes `'0'` to `'9'`, none of them a NUL. -/
theorem ne_zero_of_mem_decimalDigits {n : ℕ} {b : UInt8} (hb : b ∈ decimalDigits n) : b ≠ 0 := by
  induction n using Nat.strong_induction_on with
  | _ n ih =>
    by_cases h : n < 10
    · rw [decimalDigits_of_lt h, List.mem_singleton] at hb
      subst hb
      intro h0
      have := congrArg UInt8.toNat h0
      simp at this
      omega
    · rw [decimalDigits_of_le (by omega), List.mem_append, List.mem_singleton] at hb
      rcases hb with hb | rfl
      · exact ih (n / 10) (by omega) hb
      · intro h0
        have := congrArg UInt8.toNat h0
        simp at this
        omega

/-- Below `10000` the digits and their NUL fit `id_str`, and the group id is the decimal VLAN. -/
theorem getVlanAttribute_of_lt (vlanId : UInt16) (h : vlanId.toNat < 10000) :
    getVlanAttribute vlanId = .ok [⟨radiusAttrTunnelType, putBe32 radiusAttrTunnelValue⟩,
      ⟨radiusAttrTunnelMediumType, putBe32 radiusAttrTunnelMediumValue⟩,
      ⟨radiusAttrTunnelPrivateGroupId, decimalDigits vlanId.toNat⟩] := by
  have hlen : (decimalDigits vlanId.toNat).length ≤ 4 :=
    (length_decimalDigits_le_iff _ 3).2 h
  have htake : (decimalDigits vlanId.toNat ++ [0]).takeWhile (· ≠ 0) =
      decimalDigits vlanId.toNat := by
    rw [List.takeWhile_append_of_pos fun b hb => by
      simpa using ne_zero_of_mem_decimalDigits hb]
    simp
  have hfit : (decimalDigits vlanId.toNat ++ [0]).length ≤ 5 := by
    simp only [List.length_append, List.length_singleton]
    omega
  rw [getVlanAttribute, storeInto_of_le hfit, Checked.ok_bind, htake]
  rfl

/-- From `10000` on `sprintf` writes five digits and a NUL into the five bytes of `id_str`. -/
theorem getVlanAttribute_of_le (vlanId : UInt16) (h : 10000 ≤ vlanId.toNat) :
    getVlanAttribute vlanId = .error (.fault (.overflow 5 6)) := by
  have hle : (decimalDigits vlanId.toNat).length ≤ 5 :=
    (length_decimalDigits_le_iff _ 4).2 (by have := vlanId.toNat_lt; omega)
  have hgt : ¬(decimalDigits vlanId.toNat).length ≤ 4 := by
    rw [length_decimalDigits_le_iff]
    omega
  have hsix : (decimalDigits vlanId.toNat ++ [0]).length = 6 := by
    simp only [List.length_append, List.length_singleton]
    omega
  rw [getVlanAttribute, storeInto_of_lt (by omega), hsix]
  rfl

/-! ## Tunnel-Password -/

section RoundTrip

variable (md5 : List UInt8 → Vector UInt8 16)

/-- Below 255 bytes of key, `(len & 0xf0) + 16` rounds `1 + key_len` up to a multiple of 16. -/
theorem msKeyLen_eq {keyLen : ℕ} (h : keyLen ≤ 254) :
    msKeyLen keyLen = 16 * ((keyLen + 16) / 16) := by
  have hround : ∀ k : Fin 255, msKeyLen k.val = 16 * ((k.val + 16) / 16) := by decide +kernel
  exact hround ⟨keyLen, by omega⟩

theorem length_msKeyPlain (key : List UInt8) : (msKeyPlain key).length = msKeyLen key.length := by
  simp only [msKeyPlain, List.length_take, List.length_append, List.length_cons,
    List.length_replicate]
  omega

/-- The first byte of `ebuf` is `key_len`. -/
theorem getD_msKeyPlain_zero {key : List UInt8} (hkey : key.length ≤ 254) :
    (msKeyPlain key).getD 0 0 = key.length.toUInt8 := by
  have hpos : 0 < msKeyLen key.length := by
    rw [msKeyLen_eq hkey]
    omega
  obtain ⟨k, hk⟩ : ∃ k, msKeyLen key.length = k + 1 := ⟨_, (Nat.succ_pred_eq_of_pos hpos).symm⟩
  rw [msKeyPlain, hk, List.cons_append, List.take_succ_cons]
  rfl

/-- The key follows it. -/
theorem take_drop_msKeyPlain {key : List UInt8} (hkey : key.length ≤ 254) :
    ((msKeyPlain key).drop 1).take key.length = key := by
  have hle : key.length + 1 ≤ msKeyLen key.length := by
    rw [msKeyLen_eq hkey]
    omega
  rw [msKeyPlain, List.drop_take, List.cons_append, List.drop_one, List.tail_cons,
    List.take_take, Nat.min_eq_left (by omega), List.take_left' rfl]

variable (secret : List UInt8)

/-- After the first block the loop masks with `MD5(secret + c(i - 1))`: `chainEncrypt`. -/
theorem encryptMsKeyLoop_eq_chainEncrypt (reqAuthenticator saltbuf prev : List UInt8)
    (bs : List (List UInt8)) :
    encryptMsKeyLoop md5 secret reqAuthenticator saltbuf false prev bs =
      chainEncrypt (md5Mask md5 secret) prev bs := by
  induction bs generalizing prev with
  | nil => rfl
  | cons b bs ih =>
      simp only [encryptMsKeyLoop, chainEncrypt, Bool.false_eq_true, if_false, ih, md5Mask]

/-- The whole loop is `chainEncrypt` from `req_authenticator + salt`. -/
theorem encryptMsKeyLoop_first (reqAuthenticator saltbuf : List UInt8) (bs : List (List UInt8)) :
    encryptMsKeyLoop md5 secret reqAuthenticator saltbuf true [] bs =
      chainEncrypt (md5Mask md5 secret) (reqAuthenticator ++ saltbuf) bs := by
  cases bs with
  | nil => rfl
  | cons b bs =>
      simp only [encryptMsKeyLoop, chainEncrypt, if_true, List.append_assoc,
        encryptMsKeyLoop_eq_chainEncrypt, md5Mask]

/-- A key of at most 254 bytes is padded to whole blocks of 16. -/
theorem length_msKeyPlain_of_le {key : List UInt8} (hkey : key.length ≤ 254) :
    (msKeyPlain key).length = 16 * ((key.length + 16) / 16) := by
  rw [length_msKeyPlain, msKeyLen_eq hkey]

theorem length_of_mem_blocks_msKeyPlain {key : List UInt8} (hkey : key.length ≤ 254)
    {b : List UInt8} (hb : b ∈ blocks 16 (msKeyPlain key)) : b.length = 16 :=
  length_of_mem_blocks (by omega) (length_msKeyPlain_of_le hkey) hb

/-- Every masked block has 16 bytes. -/
theorem length_of_mem_chainEncrypt_msKeyPlain {key : List UInt8} (hkey : key.length ≤ 254)
    (iv : List UInt8) {c : List UInt8}
    (hc : c ∈ chainEncrypt (md5Mask md5 secret) iv (blocks 16 (msKeyPlain key))) :
    c.length = 16 := by
  obtain ⟨p, hp, hcp⟩ := length_of_mem_chainEncrypt _
    (fun x p hp => by rw [length_of_mem_blocks_msKeyPlain hkey hp]; simp [md5Mask]) hc
  rw [hcp, length_of_mem_blocks_msKeyPlain hkey hp]

theorem length_flatten_chainEncrypt_msKeyPlain {key : List UInt8} (hkey : key.length ≤ 254)
    (iv : List UInt8) :
    (chainEncrypt (md5Mask md5 secret) iv (blocks 16 (msKeyPlain key))).flatten.length =
      16 * ((key.length + 16) / 16) := by
  rw [length_flatten_of_forall fun c hc =>
      length_of_mem_chainEncrypt_msKeyPlain md5 secret hkey _ hc,
    length_chainEncrypt, length_blocks (by omega) (length_msKeyPlain_of_le hkey)]

/-- The value `get_password_attribute` builds: tag, salt with its top bit, and the masked
blocks of `key_len`, key and padding. -/
theorem getPasswordAttribute_eq (salt : UInt16) (reqAuthenticator : Vector UInt8 16)
    {key : List UInt8} (hkey : key.length ≤ 254) :
    getPasswordAttribute md5 (some salt) reqAuthenticator secret key =
      .ok ⟨radiusAttrTunnelPassword, [0] ++ putBe16 (salt ||| 0x8000) ++
        (chainEncrypt (md5Mask md5 secret)
          (reqAuthenticator.toList ++ putBe16 (salt ||| 0x8000))
          (blocks 16 (msKeyPlain key))).flatten⟩ := by
  set cs := chainEncrypt (md5Mask md5 secret)
    (reqAuthenticator.toList ++ putBe16 (salt ||| 0x8000)) (blocks 16 (msKeyPlain key))
  have hlen : cs.flatten.length = msKeyLen key.length := by
    rw [length_flatten_chainEncrypt_msKeyPlain md5 secret hkey, msKeyLen_eq hkey]
  have henc : encryptMsKey md5 key (salt ||| 0x8000) reqAuthenticator secret =
      (cs.flatten, msKeyLen key.length) := by
    rw [encryptMsKey, encryptMsKeyLoop_first]
  -- the `memcpy` of the key ends inside the `len` bytes the loop masks
  have hdrop : key.drop (msKeyLen key.length - 1) = [] :=
    List.drop_eq_nil_of_le (by rw [msKeyLen_eq hkey]; omega)
  have hwritten : ([0] ++ putBe16 (salt ||| 0x8000) ++ cs.flatten ++ []).length =
      3 + msKeyLen key.length := by
    simp only [List.length_append, hlen, putBe16, List.length_cons, List.length_nil]
    omega
  have hfit : 3 + msKeyLen key.length ≤ (3 + 1 + key.length + 15) % 2 ^ 16 := by
    rw [msKeyLen_eq hkey, Nat.mod_eq_of_lt (by omega)]
    omega
  simp only [getPasswordAttribute, Checked.pure_eq_ok, Checked.ok_bind]
  rw [henc]
  dsimp only
  rw [hdrop, storeInto_of_le (hwritten ▸ hfit), Checked.ok_bind,
    List.take_of_length_le (by omega), List.append_nil]

/-- A message whose only Tunnel-Password attribute has a value of `3 + 16 k` bytes: that value
is the first one `radius_msg_get_tunnel_password` takes. -/
theorem tunnelPasswordValue_of_filter {attrs : List RadiusAttr} {v : List UInt8}
    (hattrs : attrs.filter (fun a => a.type = radiusAttrTunnelPassword) =
      [⟨radiusAttrTunnelPassword, v⟩])
    (hv3 : 3 < v.length) (hv16 : v.length % 16 = 3) :
    tunnelPasswordValue attrs 0 = some v := by
  have hfilter : (attrs.filter fun a => a.type = radiusAttrTunnelPassword ∧
      ¬ a.val.length + 2 ≤ 5 ∧ ¬ (a.val.length ≤ 3 ∨ a.val.length % 16 ≠ 3)) =
      (attrs.filter fun a => a.type = radiusAttrTunnelPassword).filter fun a =>
        ¬ a.val.length + 2 ≤ 5 ∧ ¬ (a.val.length ≤ 3 ∨ a.val.length % 16 ≠ 3) := by
    rw [List.filter_filter]
    apply List.filter_congr
    intro a _
    rw [Bool.decide_and, Bool.and_comm]
  have hvalid : ¬ v.length + 2 ≤ 5 ∧ ¬ (v.length ≤ 3 ∨ v.length % 16 ≠ 3) := by omega
  unfold tunnelPasswordValue
  rw [hfilter, hattrs, List.filter_cons_of_pos (by simpa using hvalid)]
  rfl

theorem xor_xor_cancel (a m : UInt8) : a ^^^ m ^^^ m = a := by
  rw [UInt8.xor_assoc, UInt8.xor_self, UInt8.xor_zero]

/-- The access point recovers the passphrase from the Tunnel-Password the server built, for any
`md5_vector`, shared secret, authenticator and salt, and any other attributes in the message. -/
theorem radiusMsgGetTunnelPassword_getPasswordAttribute (salt : UInt16)
    (reqAuthenticator : Vector UInt8 16) {key v : List UInt8} {attrs : List RadiusAttr}
    (hkey0 : key ≠ []) (hkey : key.length ≤ 254)
    (hget : getPasswordAttribute md5 (some salt) reqAuthenticator secret key =
      .ok ⟨radiusAttrTunnelPassword, v⟩)
    (hattrs : attrs.filter (fun a => a.type = radiusAttrTunnelPassword) =
      [⟨radiusAttrTunnelPassword, v⟩]) :
    radiusMsgGetTunnelPassword md5 attrs secret reqAuthenticator 0 = some (key, key.length) := by
  set iv := reqAuthenticator.toList ++ putBe16 (salt ||| 0x8000)
  set bs := blocks 16 (msKeyPlain key)
  set cs := chainEncrypt (md5Mask md5 secret) iv bs
  have hbs16 : ∀ b ∈ bs, b.length = 16 := fun b hb => length_of_mem_blocks_msKeyPlain hkey hb
  have hcs16 : ∀ c ∈ cs, c.length = 16 :=
    fun c hc => length_of_mem_chainEncrypt_msKeyPlain md5 secret hkey iv hc
  have hv : v = [0] ++ putBe16 (salt ||| 0x8000) ++ cs.flatten := by
    rw [getPasswordAttribute_eq md5 secret salt reqAuthenticator hkey] at hget
    injection hget with h
    injection h with _ h
    exact h.symm
  have hvlen : v.length = 3 + 16 * ((key.length + 16) / 16) := by
    rw [hv, List.length_append, length_flatten_chainEncrypt_msKeyPlain md5 secret hkey]
    simp [putBe16]
  -- the salt and the masked blocks, read back from the value
  have hsalt : (v.drop 1).take 2 = putBe16 (salt ||| 0x8000) := by
    rw [hv]
    simp [putBe16]
  have hstr : blocks 16 (v.drop 3) = cs := by
    rw [hv]
    simpa [putBe16] using blocks_flatten (by omega) hcs16
  -- the in-place decoder is `chainDecrypt`, which undoes `chainEncrypt`
  have hdec : (decryptBack (md5Mask md5 secret) (cs.length - 1) cs).set 0
      (xorBlock (cs.getD 0 []) (md5Mask md5 secret iv)) = bs := by
    rw [← chainDecrypt_eq_decryptBack, chainDecrypt_chainEncrypt _ xor_xor_cancel iv bs]
    intro x b hb
    rw [hbs16 b hb]
    simp [md5Mask]
  have hkeylen : ((msKeyPlain key).getD 0 0).toNat = key.length := by
    rw [getD_msKeyPlain_zero hkey]
    simp
    omega
  have hne : key.length ≠ 0 := fun h => hkey0 (List.length_eq_zero_iff.1 h)
  unfold radiusMsgGetTunnelPassword
  rw [tunnelPasswordValue_of_filter hattrs (by omega) (by omega)]
  simp only [Option.bind_eq_bind, Option.bind_some]
  rw [hsalt, hstr, getD_zero_decryptBack, hdec, flatten_blocks (by omega), hkeylen,
    if_neg (by omega), if_neg hne, take_drop_msKeyPlain hkey]

/-- The salt's first byte has its top bit set. -/
theorem le_toNat_putBe16_or (salt : UInt16) :
    128 ≤ ((putBe16 (salt ||| 0x8000)).getD 0 0).toNat := by
  have hor : 32768 ≤ (salt ||| 0x8000).toNat := by
    rw [UInt16.toNat_or]
    exact Nat.right_le_or
  have hlt := (salt ||| 0x8000).toNat_lt
  simp only [putBe16, List.getD_cons_zero, UInt16.toNat_toUInt8, UInt16.toNat_shiftRight,
    Nat.shiftRight_eq_div_pow]
  have h8 : (8 : UInt16).toNat % 16 = 8 := rfl
  rw [h8]
  omega

/-- The Tunnel-Password value of a passphrase of 1 to `AP_SECRET_LEN` bytes has
`3 + 16 ⌈(|p| + 1) / 16⌉` bytes, starts with tag `0` and a salt whose top bit is set, and gives
the passphrase back to the access point from any message where it is the only Tunnel-Password,
whatever `md5_vector` computes. -/
theorem tunnel_password_round_trip (secret : List UInt8) (reqAuthenticator : Vector UInt8 16)
    (salt : UInt16) (key : List UInt8) (hkey0 : 1 ≤ key.length) (hkey : key.length ≤ apSecretLen) :
    ∃ v, getPasswordAttribute md5 (some salt) reqAuthenticator secret key =
        .ok ⟨radiusAttrTunnelPassword, v⟩ ∧
      v.length = 3 + 16 * ((key.length + 1 + 15) / 16) ∧ v.head? = some 0 ∧
      128 ≤ (v.getD 1 0).toNat ∧
      ∀ attrs : List RadiusAttr,
        attrs.filter (fun a => a.type = radiusAttrTunnelPassword) =
          [⟨radiusAttrTunnelPassword, v⟩] →
        radiusMsgGetTunnelPassword md5 attrs secret reqAuthenticator 0 = some (key, key.length) := by
  have hkey' : key.length ≤ 254 := by
    unfold apSecretLen at hkey
    omega
  have hne : key ≠ [] := fun h => by simp [h] at hkey0
  have hget := getPasswordAttribute_eq md5 secret salt reqAuthenticator hkey'
  refine ⟨_, hget, ?_, rfl, ?_, fun attrs hattrs =>
    radiusMsgGetTunnelPassword_getPasswordAttribute md5 secret salt reqAuthenticator hne hkey'
      hget hattrs⟩
  · rw [List.length_append, length_flatten_chainEncrypt_msKeyPlain md5 secret hkey']
    simp [putBe16]
    omega
  · simpa [putBe16] using le_toNat_putBe16_or salt

theorem tunnel_password_round_trip_one_byte :
    1 ≤ ([7] : List UInt8).length ∧ ([7] : List UInt8).length ≤ apSecretLen ∧
    ∃ v, getPasswordAttribute (fun _ => Vector.replicate 16 0) (some 0) (Vector.replicate 16 0)
        [] [7] = .ok ⟨radiusAttrTunnelPassword, v⟩ ∧
      v.length = 3 + 16 * ((([7] : List UInt8).length + 1 + 15) / 16) ∧ v.head? = some 0 ∧
      128 ≤ (v.getD 1 0).toNat ∧
      ∀ attrs : List RadiusAttr,
        attrs.filter (fun a => a.type = radiusAttrTunnelPassword) =
          [⟨radiusAttrTunnelPassword, v⟩] →
        radiusMsgGetTunnelPassword (fun _ => Vector.replicate 16 0) attrs [] (Vector.replicate 16 0)
          0 = some ([7], ([7] : List UInt8).length) :=
  ⟨by decide, by decide, tunnel_password_round_trip (fun _ => Vector.replicate 16 0) []
    (Vector.replicate 16 0) 0 [7] (by decide) (by decide)⟩

end RoundTrip

/-! ## The reply -/

section Reply

variable (md5 : List UInt8 → Vector UInt8 16) (random : Option UInt16) (sharedSecret : List UInt8)
  (request : AccessRequest)

theorem toNat_ofNat_vlanid {vlanid : ℤ} (h0 : 0 ≤ vlanid) :
    ((UInt16.ofNat vlanid.toNat).toNat : ℤ) = vlanid % 65536 := by
  rw [UInt16.toNat_ofNat']
  omega

/-- A VLAN of five digits after the narrowing to `uint16_t` overflows `id_str` before any
other step of the reply. -/
theorem radiusServerMacacl_faults {macConn : MacConnInfo} (h0 : 0 ≤ macConn.vlanid)
    (hvlan : 10000 ≤ macConn.vlanid % 65536) :
    Faults (radiusServerMacacl md5 random sharedSecret macConn request) := by
  have hid := toNat_ofNat_vlanid h0
  unfold radiusServerMacacl
  rw [if_pos h0, getVlanAttribute_of_le _ (by omega)]
  exact faults_of_fault _

/-- An accepting reply comes from a VLAN `>= 0`: its attributes are the three VLAN attributes
and the Tunnel-Password after them. -/
theorem radiusServerMacacl_accept {macConn : MacConnInfo} {code : UInt8} {attrs : List RadiusAttr}
    (h : radiusServerMacacl md5 random sharedSecret macConn request = .ok (code, attrs))
    (hcode : code = radiusCodeAccessAccept) :
    0 ≤ macConn.vlanid ∧ ∃ vlanAttrs passAttr,
      getVlanAttribute (UInt16.ofNat macConn.vlanid.toNat) = .ok vlanAttrs ∧
      attrs = vlanAttrs ++ [passAttr] := by
  unfold radiusServerMacacl at h
  by_cases h0 : 0 ≤ macConn.vlanid
  · rw [if_pos h0] at h
    -- each step of the accepting branch must have gone on
    cases hv : getVlanAttribute (UInt16.ofNat macConn.vlanid.toNat) with
    | error e => simp [hv, Checked.error_bind] at h
    | ok vlanAttrs =>
      cases hk : loadFrom ((macConn.pass ++ List.replicate apSecretLen 0).take apSecretLen)
          (sizeT macConn.passLen) with
      | error e => simp [hv, hk, Checked.error_bind] at h
      | ok key =>
        cases hp : getPasswordAttribute md5 random request.authenticator sharedSecret key with
        | error e => simp [hv, hk, hp, Checked.error_bind] at h
        | ok passAttr =>
          refine ⟨h0, vlanAttrs, passAttr, rfl, ?_⟩
          simp only [hv, hk, hp, Checked.ok_bind, Checked.pure_eq_ok, Option.isSome_some,
            true_and, Option.getD_some] at h
          -- the code is an accept only with a User-Password, and a long attribute drops it
          by_cases hpw : request.hasUserPassword = true
          · by_cases hlong : ((vlanAttrs ++ [passAttr]).any fun a =>
                radiusMaxAttrLen < a.val.length) = true
            · simp [hpw, hlong] at h
            · rw [Bool.not_eq_true] at hlong
              simp only [hpw, hlong, if_true, Bool.false_eq_true, if_false, Except.ok.injEq,
                Prod.mk.injEq] at h
              exact h.2.symm
          · have hrej : radiusCodeAccessReject ≠ radiusCodeAccessAccept := by decide
            simp [hpw, hrej] at h
            exact absurd (h.1.trans hcode) hrej
  · rw [if_neg h0] at h
    simp only [Checked.pure_eq_ok, Checked.ok_bind, Option.isSome_none, Bool.false_eq_true,
      false_and, if_false] at h
    simp [radiusCodeAccessReject, radiusCodeAccessAccept] at h
    exact absurd (h.1.trans hcode) (by decide)

/-- The VLAN attributes of the Access-Accept: Tunnel-Type VLAN and Tunnel-Medium-Type IEEE 802
as a zero tag and three big-endian bytes, and the group id `vlanid` modulo `2 ^ 16` in decimal;
from `10000` on, modulo `2 ^ 16`, the `sprintf` into `id_str` overflows instead. -/
theorem radius_vlan_attribute_overflows_or_wraps (macConn : MacConnInfo) :
    (0 ≤ macConn.vlanid → 10000 ≤ macConn.vlanid % 65536 →
      Faults (radiusServerMacacl md5 random sharedSecret macConn request)) ∧
    ∀ code attrs, radiusServerMacacl md5 random sharedSecret macConn request = .ok (code, attrs) →
      code = radiusCodeAccessAccept →
      ⟨radiusAttrTunnelType, [0, 0, 0, 13]⟩ ∈ attrs ∧
      ⟨radiusAttrTunnelMediumType, [0, 0, 0, 6]⟩ ∈ attrs ∧
      ⟨radiusAttrTunnelPrivateGroupId, decimalDigits (macConn.vlanid % 65536).toNat⟩ ∈ attrs := by
  refine ⟨fun h0 hvlan => radiusServerMacacl_faults md5 random sharedSecret request h0 hvlan,
    fun code attrs h hcode => ?_⟩
  obtain ⟨h0, vlanAttrs, passAttr, hvlan, rfl⟩ :=
    radiusServerMacacl_accept md5 random sharedSecret request h hcode
  have hid := toNat_ofNat_vlanid h0
  -- the overflow is a fault, not a reply, so the narrowed VLAN has at most four digits
  have hlt : (UInt16.ofNat macConn.vlanid.toNat).toNat < 10000 := by
    by_contra hge
    rw [getVlanAttribute_of_le _ (by omega)] at hvlan
    cases hvlan
  rw [getVlanAttribute_of_lt _ hlt] at hvlan
  cases hvlan
  have hnat : (UInt16.ofNat macConn.vlanid.toNat).toNat = (macConn.vlanid % 65536).toNat := by
    omega
  have h13 : putBe32 radiusAttrTunnelValue = [0, 0, 0, 13] := by decide
  have h6 : putBe32 radiusAttrTunnelMediumValue = [0, 0, 0, 6] := by decide
  rw [h13, h6, hnat]
  refine ⟨List.mem_append_left _ ?_, List.mem_append_left _ ?_, List.mem_append_left _ ?_⟩ <;>
    simp

end Reply

end EdgeSec.Radius
