import EdgeSec.Lib.Memory
import EdgeSec.Utils.Base64

/-!
# The buffers of the crypt service

`load_crypt_service` (`src/crypt/crypt_service.c`), for a key id the secrets table holds and a
user secret, reads the master key back with `extract_user_crypto_key_entry`:

* `extract_secret_entry` decodes the value, salt and IV columns with `base64_decode` and
  `os_memcpy`s each into a stack buffer of its caller, `enc_crypto_key[AES_KEY_SIZE +
  AES_BLOCK_SIZE]`, `user_key_salt[SALT_SIZE]` and `iv[IV_SIZE]`, with no size to stop at;
* the salt and IV sizes are checked after the copies, and `crypto_decrypt` writes the master
  key into `crypto_key[AES_KEY_SIZE + AES_BLOCK_SIZE]` of the context.

`get_crypt_pair` decodes the IV and value columns of a store row, checks neither, and decrypts
the value with the master key into a buffer of the value's size.

What OpenSSL computes is a parameter (`Cipher`): PBKDF2 gives `AES_KEY_SIZE` bytes, and
`crypto_decrypt` reads `in_size` bytes of its input, `AES_KEY_SIZE` of its key and `IV_SIZE` of
its IV and writes at most `in_size` bytes.  Copies, reads and `NULL` are those of `Lib/Memory`;
allocations are taken to succeed.

## Main results

* `extractSecretEntryInto_eq_ok_iff`: the copying `extract_secret_entry` goes on exactly when
  the buffer-free one of `Utils/Base64` does and every decoded column fits its buffer;
* `faults_extractUserCryptoKeyEntry_iff`: the user-secret path faults exactly when a column, in
  the order of the source, decodes to more bytes than its buffer holds;
* `faults_getCryptPair_iff`: `get_crypt_pair` faults exactly on a stored value whose IV is
  missing, undecodable or shorter than `IV_SIZE`, or whose value is undecodable.
-/

namespace EdgeSec.Crypt

open Memory Base64

/-- `AES_BLOCK_SIZE`. -/
def aesBlockSize : ℕ := 16

/-- `IV_SIZE`. -/
def ivSize : ℕ := aesBlockSize

/-- `SALT_SIZE`. -/
def saltSize : ℕ := 16

/-- `AES_KEY_SIZE`. -/
def aesKeySize : ℕ := 32

/-- What OpenSSL computes for the crypt service: `crypto_buf2key` of a user secret and a salt
(`none` when `PKCS5_PBKDF2_HMAC` fails), and the plaintext that `crypto_decrypt` gets from an
input, a key and an IV (`none` for its `-1`), never longer than the input. -/
structure Cipher where
  buf2key : List UInt8 → List UInt8 → Option (List UInt8)
  decrypt : List UInt8 → List UInt8 → List UInt8 → Option (List UInt8)
  length_buf2key : ∀ secret salt key, buf2key secret salt = some key → key.length = aesKeySize
  length_decrypt_le : ∀ input key iv out, decrypt input key iv = some out →
    out.length ≤ input.length

/-! ## The source's functions -/

/-- One column of `extract_secret_entry` copied into a buffer of `size` bytes: nothing for a
`NULL` text, `-1` when `base64_decode` fails, else the `os_memcpy` of every decoded byte. -/
def extractFieldInto (size : ℕ) (text : Option (List UInt8)) : Except Stop (List UInt8) :=
  match extractField text with
  | none => throw .fail
  | some buf => storeInto size buf

/-- `extract_secret_entry(row, key, &key_size, salt, &salt_size, iv, &iv_size)` into buffers of
`keyCap`, `saltCap` and `ivCap` bytes, column after column as the source copies them; the sizes
are the lengths. -/
def extractSecretEntryInto (keyCap saltCap ivCap : ℕ) (row : SecretsRow) :
    Except Stop (List UInt8 × List UInt8 × List UInt8) := do
  let key ← extractFieldInto keyCap row.value
  let salt ← extractFieldInto saltCap row.salt
  let iv ← extractFieldInto ivCap row.iv
  pure (key, salt, iv)

/-- `generate_user_key(user_secret, user_secret_size, user_key, AES_KEY_SIZE, user_key_salt,
SALT_SIZE)`: `SALT_SIZE` bytes of the salt buffer read, the derived key written into
`user_key[AES_KEY_SIZE]`. -/
def generateUserKey (cipher : Cipher) (userSecret salt : List UInt8) : Except Stop (List UInt8) := do
  let saltBytes ← loadFrom salt saltSize
  match cipher.buf2key userSecret saltBytes with
  | none => throw .fail
  | some key => storeInto aesKeySize key

/-- `crypto_decrypt(in, in_size, key, iv, out)` with an `out` of `outSize` bytes: `in_size` bytes
read at `in` and `IV_SIZE` at `iv`, either of which may be `NULL`, `AES_KEY_SIZE` of the key, and
the plaintext written into `out`. -/
def cryptoDecrypt (cipher : Cipher) (input : Option (List UInt8)) (inSize : ℕ) (key : List UInt8)
    (iv : Option (List UInt8)) (outSize : ℕ) : Except Stop (List UInt8) := do
  let inBuf ← deref input
  let inBytes ← loadFrom inBuf inSize
  let keyBytes ← loadFrom key aesKeySize
  let ivBuf ← deref iv
  let ivBytes ← loadFrom ivBuf ivSize
  match cipher.decrypt inBytes keyBytes ivBytes with
  | none => throw .fail
  | some out => storeInto outSize out

/-- `extract_user_crypto_key_entry(row_secret, user_secret, user_secret_size, crypto_key)`, the
path `load_crypt_service` takes for an existing key with a user secret: the master key written
into the context's `crypto_key`, whose length is the size it returns. -/
def extractUserCryptoKeyEntry (cipher : Cipher) (row : SecretsRow) (userSecret : List UInt8) :
    Except Stop (List UInt8) := do
  let (encCryptoKey, userKeySalt, iv) ←
    extractSecretEntryInto (aesKeySize + aesBlockSize) saltSize ivSize row
  if userKeySalt.length ≠ saltSize then throw .fail
  if iv.length ≠ ivSize then throw .fail
  let userKey ← generateUserKey cipher userSecret userKeySalt
  cryptoDecrypt cipher (some encCryptoKey) encCryptoKey.length userKey (some iv)
    (aesKeySize + aesBlockSize)

/-- The fields of `struct store_row` that `get_crypt_pair` reads, `NULL` as `none`; `key` is set
when the store holds the key. -/
structure StoreRow where
  key : Option String
  value : Option (List UInt8)
  iv : Option (List UInt8)
  deriving Repr, DecidableEq

/-- `base64_decode(text, strlen(text), &len)` of a column: `strlen` of a `NULL` text is a fault,
and a failed decoding is the `NULL` it returns. -/
def decodeColumn (text : Option (List UInt8)) : Except Stop (Option (List UInt8)) := do
  let t ← deref text
  pure (base64Decode (t.takeWhile (· ≠ 0)))

/-- `struct crypt_pair`: the key, and the value, its size being its length. -/
structure CryptPair where
  key : String
  value : Option (List UInt8)
  deriving Repr, DecidableEq

/-- `get_crypt_pair(ctx, key)` with the context's `crypto_key` and the row that
`get_sqlite_store_row` returns (`none` when it fails): the pair, `none` for `NULL`.  The value is
decrypted into `os_malloc(value_size)`. -/
def getCryptPair (cipher : Cipher) (cryptoKey : Vector UInt8 (aesKeySize + aesBlockSize))
    (key : Option String) (row : Option StoreRow) : Except Stop (Option CryptPair) :=
  match key with
  | none => pure none
  | some key =>
      if key = "" then pure none
      else match row with
        | none => pure none
        | some row =>
            if row.key = none then pure (some ⟨key, none⟩)
            else match row.value with
              | none => pure (some ⟨key, none⟩)
              | some value => do
                  let iv ← decodeColumn row.iv
                  let encValue ← decodeColumn (some value)
                  -- `value_size` is written by a decoding that succeeds; after a failed one
                  -- `enc_value` is `NULL`, which `crypto_decrypt` reads before anything else
                  let valueSize := (encValue.getD []).length
                  let out ← cryptoDecrypt cipher encValue valueSize cryptoKey.toList iv valueSize
                  pure (some ⟨key, some out⟩)

/-! ## The copies of `extract_secret_entry` -/

theorem extractFieldInto_eq_ok_iff {size : ℕ} {text : Option (List UInt8)} {buf : List UInt8} :
    extractFieldInto size text = .ok buf ↔ extractField text = some buf ∧ buf.length ≤ size := by
  unfold extractFieldInto
  cases h : extractField text with
  | none => simp
  | some b =>
      dsimp only
      rw [storeInto_eq_ok_iff, Option.some.injEq]
      constructor
      · rintro ⟨hle, rfl⟩
        exact ⟨rfl, hle⟩
      · rintro ⟨rfl, hle⟩
        exact ⟨hle, rfl⟩

theorem faults_extractFieldInto_iff {size : ℕ} {text : Option (List UInt8)} :
    Faults (extractFieldInto size text) ↔
      ∃ buf, extractField text = some buf ∧ size < buf.length := by
  unfold extractFieldInto
  cases h : extractField text with
  | none =>
      simp only [throw_eq_error, reduceCtorEq, false_and, exists_false, iff_false]
      exact not_faults_fail
  | some b =>
      dsimp only
      by_cases hfit : b.length ≤ size
      · rw [storeInto_of_le hfit]
        simp only [not_faults_ok, false_iff, not_exists, not_and, Option.some.injEq]
        rintro _ rfl
        omega
      · rw [storeInto_of_lt (by omega)]
        exact ⟨fun _ => ⟨b, rfl, by omega⟩, fun _ => faults_of_fault _⟩

/-- A column of the row decodes to more bytes than its buffer holds, after the columns copied
before it (the value, then the salt, then the IV) decoded and fitted. -/
def ColumnOverflow (keyCap saltCap ivCap : ℕ) (row : SecretsRow) : Prop :=
  (∃ key, extractField row.value = some key ∧ keyCap < key.length) ∨
  (∃ key salt, extractField row.value = some key ∧ key.length ≤ keyCap ∧
    extractField row.salt = some salt ∧ saltCap < salt.length) ∨
  (∃ key salt iv, extractField row.value = some key ∧ key.length ≤ keyCap ∧
    extractField row.salt = some salt ∧ salt.length ≤ saltCap ∧
    extractField row.iv = some iv ∧ ivCap < iv.length)

theorem faults_extractSecretEntryInto_iff (keyCap saltCap ivCap : ℕ) (row : SecretsRow) :
    Faults (extractSecretEntryInto keyCap saltCap ivCap row) ↔
      ColumnOverflow keyCap saltCap ivCap row := by
  simp only [extractSecretEntryInto, faults_bind_iff, faults_extractFieldInto_iff,
    extractFieldInto_eq_ok_iff, Checked.pure_eq_ok, not_faults_ok, and_false, exists_false,
    or_false, ColumnOverflow]
  -- what is left regroups the existentials of the three copies
  constructor
  · rintro (hk | ⟨k, ⟨hk, hkle⟩, ⟨s, hs, hlt⟩ | ⟨s, ⟨hs, hsle⟩, ⟨i, hi, hlt⟩⟩⟩)
    · exact .inl hk
    · exact .inr (.inl ⟨k, s, hk, hkle, hs, hlt⟩)
    · exact .inr (.inr ⟨k, s, i, hk, hkle, hs, hsle, hi, hlt⟩)
  · rintro (hk | ⟨k, s, hk, hkle, hs, hlt⟩ | ⟨k, s, i, hk, hkle, hs, hsle, hi, hlt⟩)
    · exact .inl hk
    · exact .inr ⟨k, ⟨hk, hkle⟩, .inl ⟨s, hs, hlt⟩⟩
    · exact .inr ⟨k, ⟨hk, hkle⟩, .inr ⟨s, ⟨hs, hsle⟩, ⟨i, hi, hlt⟩⟩⟩

/-- The copying `extract_secret_entry` refines the buffer-free one: it goes on exactly when that
one does and every column fits its buffer. -/
theorem extractSecretEntryInto_eq_ok_iff {keyCap saltCap ivCap : ℕ} {row : SecretsRow}
    {key salt iv : List UInt8} :
    extractSecretEntryInto keyCap saltCap ivCap row = .ok (key, salt, iv) ↔
      extractSecretEntry row = some (key, salt, iv) ∧ key.length ≤ keyCap ∧
        salt.length ≤ saltCap ∧ iv.length ≤ ivCap := by
  simp only [extractSecretEntryInto, extractSecretEntry, bind_eq_ok, extractFieldInto_eq_ok_iff,
    Checked.pure_eq_ok, Except.ok.injEq, Option.bind_eq_bind, Option.bind_eq_some_iff,
    Option.pure_def, Option.some.injEq, Prod.mk.injEq]
  constructor
  · rintro ⟨_, ⟨hk, hkle⟩, _, ⟨hs, hsle⟩, _, ⟨hi, hile⟩, rfl, rfl, rfl⟩
    exact ⟨⟨_, hk, _, hs, _, hi, rfl, rfl, rfl⟩, hkle, hsle, hile⟩
  · rintro ⟨⟨_, hk, _, hs, _, hi, rfl, rfl, rfl⟩, hkle, hsle, hile⟩
    exact ⟨_, ⟨hk, hkle⟩, _, ⟨hs, hsle⟩, _, ⟨hi, hile⟩, rfl, rfl, rfl⟩

/-! ## Key derivation and decryption -/

section Decrypt

variable (cipher : Cipher)

/-- With the whole salt in its buffer, the key derivation fails or writes `AES_KEY_SIZE`
bytes. -/
theorem generateUserKey_cases (userSecret : List UInt8) {salt : List UInt8}
    (hsalt : saltSize ≤ salt.length) :
    generateUserKey cipher userSecret salt = .error .fail ∨
      ∃ key, generateUserKey cipher userSecret salt = .ok key ∧ key.length = aesKeySize := by
  unfold generateUserKey
  rw [loadFrom_of_le hsalt, Checked.ok_bind]
  cases hk : cipher.buf2key userSecret (salt.take saltSize) with
  | none => exact .inl rfl
  | some key =>
      have hlen := cipher.length_buf2key _ _ _ hk
      refine .inr ⟨key, ?_, hlen⟩
      exact storeInto_of_le hlen.le

theorem cryptoDecrypt_of_null_input (inSize : ℕ) (key : List UInt8) (iv : Option (List UInt8))
    (outSize : ℕ) : cryptoDecrypt cipher none inSize key iv outSize = .error (.fault .nullDeref) :=
  rfl

/-- With input and key in bounds, the reads of the IV are what is left before the decryption. -/
theorem cryptoDecrypt_of_reads {input key : List UInt8} {inSize : ℕ} (hin : inSize ≤ input.length)
    (hkey : aesKeySize ≤ key.length) (iv : Option (List UInt8)) (outSize : ℕ) :
    cryptoDecrypt cipher (some input) inSize key iv outSize = (do
      let ivBuf ← deref iv
      let ivBytes ← loadFrom ivBuf ivSize
      match cipher.decrypt (input.take inSize) (key.take aesKeySize) ivBytes with
      | none => throw .fail
      | some out => storeInto outSize out) := by
  simp only [cryptoDecrypt, deref_some, loadFrom_of_le hin, loadFrom_of_le hkey, Checked.ok_bind]

/-- A decryption whose reads are in bounds and whose output buffer holds `in_size` bytes fails
or goes on, and never faults. -/
theorem not_faults_cryptoDecrypt {input key iv : List UInt8} {inSize outSize : ℕ}
    (hin : inSize ≤ input.length) (hkey : aesKeySize ≤ key.length) (hiv : ivSize ≤ iv.length)
    (hout : inSize ≤ outSize) :
    ¬ Faults (cryptoDecrypt cipher (some input) inSize key (some iv) outSize) := by
  rw [cryptoDecrypt_of_reads cipher hin hkey, deref_some, Checked.ok_bind, loadFrom_of_le hiv,
    Checked.ok_bind]
  cases hd : cipher.decrypt (input.take inSize) (key.take aesKeySize) (iv.take ivSize) with
  | none => exact not_faults_fail
  | some out =>
      have hlen := cipher.length_decrypt_le _ _ _ _ hd
      rw [List.length_take] at hlen
      dsimp only
      rw [storeInto_of_le (by omega)]
      exact not_faults_ok _

/-! ## The user-secret path of `load_crypt_service` -/

/-- `extract_user_crypto_key_entry` faults exactly in the copies of `extract_secret_entry`:
once they are past, the size checks, the key derivation and the decryption stay in bounds. -/
theorem faults_extractUserCryptoKeyEntry_iff (row : SecretsRow) (userSecret : List UInt8) :
    Faults (extractUserCryptoKeyEntry cipher row userSecret) ↔
      ColumnOverflow (aesKeySize + aesBlockSize) saltSize ivSize row := by
  rw [← faults_extractSecretEntryInto_iff]
  unfold extractUserCryptoKeyEntry
  rw [faults_bind_iff, or_iff_left]
  rintro ⟨⟨key, salt, iv⟩, hx, hf⟩
  obtain ⟨-, hkey, -, -⟩ := extractSecretEntryInto_eq_ok_iff.1 hx
  dsimp only at hf
  -- a wrong salt or IV size is the `-1` of its check
  by_cases hs : salt.length = saltSize
  · rw [if_neg (not_not.2 hs)] at hf
    by_cases hi : iv.length = ivSize
    · rw [if_neg (not_not.2 hi)] at hf
      rcases generateUserKey_cases cipher userSecret hs.ge with hg | ⟨userKey, hg, hlen⟩
      · rw [hg, Checked.error_bind] at hf
        exact not_faults_fail hf
      · rw [hg, Checked.ok_bind] at hf
        exact not_faults_cryptoDecrypt cipher le_rfl hlen.ge hi.ge hkey hf
    · rw [if_pos hi, throw_eq_error, Checked.error_bind] at hf
      exact not_faults_fail hf
  · rw [if_pos hs, throw_eq_error, Checked.error_bind] at hf
    exact not_faults_fail hf

/-! ## `get_crypt_pair` -/

@[simp] theorem decodeColumn_none : decodeColumn none = .error (.fault .nullDeref) := rfl

@[simp] theorem decodeColumn_some (text : List UInt8) :
    decodeColumn (some text) = .ok (base64Decode (text.takeWhile (· ≠ 0))) := rfl

variable (cryptoKey : Vector UInt8 (aesKeySize + aesBlockSize))

/-- The decryption of `get_crypt_pair` faults unless both decodings gave a buffer and the IV
has at least `IV_SIZE` bytes. -/
theorem faults_cryptoDecrypt_pair_iff (encValue iv : Option (List UInt8)) :
    Faults (cryptoDecrypt cipher encValue (encValue.getD []).length cryptoKey.toList iv
      (encValue.getD []).length) ↔
      ¬ ∃ i e, iv = some i ∧ encValue = some e ∧ ivSize ≤ i.length := by
  have hkey : aesKeySize ≤ cryptoKey.toList.length := by simp
  cases encValue with
  | none =>
      rw [cryptoDecrypt_of_null_input]
      simp [faults_of_fault]
  | some e =>
      rw [Option.getD_some]
      cases iv with
      | none =>
          rw [cryptoDecrypt_of_reads cipher le_rfl hkey]
          simp [faults_of_fault]
      | some i =>
          by_cases hi : ivSize ≤ i.length
          · have hnf := not_faults_cryptoDecrypt cipher (le_refl e.length) hkey hi le_rfl
            simp only [hnf, false_iff, not_not]
            exact ⟨i, e, rfl, rfl, hi⟩
          · rw [cryptoDecrypt_of_reads cipher le_rfl hkey, deref_some, Checked.ok_bind,
              loadFrom_of_lt (by omega), Checked.error_bind]
            simp only [faults_of_fault, true_iff]
            rintro ⟨i', e', hi', -, hle⟩
            cases hi'
            exact hi hle

/-- `get_crypt_pair` faults exactly on a stored value whose IV column is `NULL`, fails to
decode or decodes to fewer than `IV_SIZE` bytes, or whose value column fails to decode. -/
theorem faults_getCryptPair_iff (key : String) (row : StoreRow) :
    Faults (getCryptPair cipher cryptoKey (some key) (some row)) ↔
      key ≠ "" ∧ row.key ≠ none ∧ row.value ≠ none ∧
        ¬ ∃ iv enc, decodeColumn row.iv = .ok (some iv) ∧
          decodeColumn row.value = .ok (some enc) ∧ ivSize ≤ iv.length := by
  -- the branches before the decodings return at once
  by_cases hkey : key = ""
  · simp [getCryptPair, hkey, not_faults_ok]
  by_cases hrow : row.key = none
  · simp [getCryptPair, hkey, hrow, not_faults_ok]
  cases hv : row.value with
  | none => simp [getCryptPair, hkey, hrow, hv, not_faults_ok]
  | some value =>
      simp only [getCryptPair, if_neg hkey, if_neg hrow, hv]
      rw [and_iff_right hkey, and_iff_right hrow, and_iff_right (Option.some_ne_none value),
        decodeColumn_some]
      cases hiv : row.iv with
      | none => simp [faults_of_fault]
      | some ivText =>
          rw [decodeColumn_some, Checked.ok_bind, Checked.ok_bind, faults_bind_pure_iff,
            faults_cryptoDecrypt_pair_iff]
          simp only [Except.ok.injEq]

/-- A master key of more than `AES_KEY_SIZE + AES_BLOCK_SIZE` bytes, as `prepare_secret_entry`
stores it, overflows `enc_crypto_key` when the user-secret path reads it back. -/
theorem faults_extractUserCryptoKeyEntry_of_long_key (keyId : Option String) {key : List UInt8}
    (hlong : aesKeySize + aesBlockSize < key.length) (hlen : key.length < sizeMax / 4)
    (salt iv : Option (List UInt8)) (userSecret : List UInt8) :
    Faults (extractUserCryptoKeyEntry cipher (prepareSecretEntry keyId (some key) salt iv)
      userSecret) := by
  have hne : key ≠ [] := by
    rintro rfl
    simp at hlong
  rw [faults_extractUserCryptoKeyEntry_iff]
  exact .inl ⟨key, extractField_base64Encode key hne hlen, hlong⟩

end Decrypt

/-- Neither function checks before it copies or reads: the user-secret path of
`load_crypt_service` faults exactly when a column decodes to more bytes than its stack buffer
holds, so a master key of more than `AES_KEY_SIZE + AES_BLOCK_SIZE` bytes, or a salt or IV longer
than its size after a key that fits, overflows before the size checks; and `get_crypt_pair`
faults exactly on a stored value whose IV is `NULL`, undecodable or shorter than `IV_SIZE`, or
whose value is undecodable. -/
theorem crypt_service_copies_before_checks (cipher : Cipher) (userSecret : List UInt8)
    (cryptoKey : Vector UInt8 (aesKeySize + aesBlockSize)) :
    (∀ row : SecretsRow, Faults (extractUserCryptoKeyEntry cipher row userSecret) ↔
      ColumnOverflow (aesKeySize + aesBlockSize) saltSize ivSize row) ∧
    (∀ (keyId : Option String) (key : List UInt8) (salt iv : Option (List UInt8)),
      aesKeySize + aesBlockSize < key.length → key.length < sizeMax / 4 →
      Faults (extractUserCryptoKeyEntry cipher (prepareSecretEntry keyId (some key) salt iv)
        userSecret)) ∧
    (∀ (key : String) (row : StoreRow),
      Faults (getCryptPair cipher cryptoKey (some key) (some row)) ↔
        key ≠ "" ∧ row.key ≠ none ∧ row.value ≠ none ∧
          ¬ ∃ iv enc, decodeColumn row.iv = .ok (some iv) ∧
            decodeColumn row.value = .ok (some enc) ∧ ivSize ≤ iv.length) := by
  refine ⟨fun row => faults_extractUserCryptoKeyEntry_iff cipher row userSecret, ?_,
    fun key row => faults_getCryptPair_iff cipher cryptoKey key row⟩
  intro keyId key salt iv hlong hlen
  exact faults_extractUserCryptoKeyEntry_of_long_key cipher keyId hlong hlen salt iv userSecret

end EdgeSec.Crypt
