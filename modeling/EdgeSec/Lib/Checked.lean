import Mathlib

/-!
# Reads from a buffer of known length

A decoder written with raw pointers reads byte `i` of a buffer that holds `len` bytes, and
nothing stops it from reading past the end.  `readByte buf len i` models one such read in
the `Except Fault` monad: it yields the byte when `i < len`, and the fault `outOfBounds i`
otherwise, so that a decoder's run ends at its first read past the buffer and says where
it was.  `noFuel` is the fault of a recursion that is given a depth bound and exceeds it.
The writes are checked the same way: `strcpyInto size src` is `strcpy` into a buffer of `size`
bytes, and a string that does not fit with its NUL is the fault `overflow`.

The multi-byte reads in network order (`ntohs`, `ntohl` of a field read through a cast
pointer) and the read of a run of bytes (`memcpy` from the buffer) are built from
`readByte`, in increasing order of address.
-/

namespace EdgeSec.Checked

/-- Why a checked decoder stopped. -/
inductive Fault
  /-- A read of byte `index` of a buffer that holds fewer bytes. -/
  | outOfBounds (index : ℕ)
  /-- A recursion that went deeper than its bound. -/
  | noFuel
  /-- A copy of `bytes` bytes into a buffer that holds fewer. -/
  | overflow (bytes : ℕ)
  deriving Repr, DecidableEq

/-- Byte `i` of the `len` bytes of `buf`. -/
def readByte (buf : List UInt8) (len : ℕ) (i : ℕ) : Except Fault UInt8 :=
  if i < len then .ok (buf.getD i 0) else .error (.outOfBounds i)

/-- The `n` bytes from `i` on (`memcpy` out of the buffer). -/
def readBytes (buf : List UInt8) (len : ℕ) : ℕ → ℕ → Except Fault (List UInt8)
  | _, 0 => pure []
  | i, n + 1 => do
      let b ← readByte buf len i
      let rest ← readBytes buf len (i + 1) n
      pure (b :: rest)

/-- The big-endian `uint16_t` at `i` (`ntohs` of a field read in place). -/
def readBe16 (buf : List UInt8) (len : ℕ) (i : ℕ) : Except Fault UInt16 := do
  let hi ← readByte buf len i
  let lo ← readByte buf len (i + 1)
  pure (UInt16.ofNat (hi.toNat * 256 + lo.toNat))

/-- The big-endian `uint32_t` at `i` (`ntohl` of a field read in place). -/
def readBe32 (buf : List UInt8) (len : ℕ) (i : ℕ) : Except Fault UInt32 := do
  let hi ← readBe16 buf len i
  let lo ← readBe16 buf len (i + 2)
  pure (UInt32.ofNat (hi.toNat * 65536 + lo.toNat))

/-- `strcpy(dst, src)` into a `dst` of `size` bytes, one byte per character: the copy when the
string and its NUL fit, the fault `overflow` with the bytes written otherwise. -/
def strcpyInto (size : ℕ) (src : String) : Except Fault String :=
  if src.length + 1 ≤ size then .ok src else .error (.overflow (src.length + 1))

/-! ## Running a checked decoder -/

section Run

universe u v

variable {ε : Type u} {α β : Type v}

@[simp] theorem ok_bind (a : α) (f : α → Except ε β) : (Except.ok a >>= f) = f a := rfl

@[simp] theorem error_bind (e : ε) (f : α → Except ε β) : (Except.error e >>= f) = .error e := rfl

@[simp] theorem pure_eq_ok (a : α) : (pure a : Except ε α) = .ok a := rfl

end Run

@[simp] theorem readByte_of_lt {buf : List UInt8} {len i : ℕ} (h : i < len) :
    readByte buf len i = .ok (buf.getD i 0) := if_pos h

@[simp] theorem readByte_of_le {buf : List UInt8} {len i : ℕ} (h : len ≤ i) :
    readByte buf len i = .error (.outOfBounds i) := if_neg (by omega)

@[simp] theorem strcpyInto_of_lt {size : ℕ} {src : String} (h : src.length < size) :
    strcpyInto size src = .ok src := if_pos h

theorem strcpyInto_of_le {size : ℕ} {src : String} (h : size ≤ src.length) :
    strcpyInto size src = .error (.overflow (src.length + 1)) := if_neg (by omega)

/-- A run of bytes that the buffer holds reads as those bytes. -/
theorem readBytes_of_le {buf : List UInt8} {len : ℕ} (i n : ℕ) (h : i + n ≤ len) :
    readBytes buf len i n = .ok (List.ofFn fun k : Fin n => buf.getD (i + k) 0) := by
  induction n generalizing i with
  | zero => rfl
  | succ n ih =>
      rw [readBytes, readByte_of_lt (by omega), ok_bind, ih (i + 1) (by omega), ok_bind,
        pure_eq_ok, List.ofFn_succ]
      simp only [Fin.val_zero, Nat.add_zero, Fin.val_succ, Nat.add_assoc, Nat.add_comm 1]

/-- A run of `n` bytes that is read is `n` bytes long. -/
theorem readBytes_length_of_ok {buf : List UInt8} {len i n : ℕ} {bs : List UInt8}
    (h : readBytes buf len i n = .ok bs) : bs.length = n := by
  induction n generalizing i bs with
  | zero =>
      rw [readBytes] at h
      cases h
      rfl
  | succ n ih =>
      rw [readBytes] at h
      cases hb : readByte buf len i with
      | error e => rw [hb, error_bind] at h; cases h
      | ok b =>
          rw [hb, ok_bind] at h
          cases hr : readBytes buf len (i + 1) n with
          | error e => rw [hr, error_bind] at h; cases h
          | ok rest =>
              rw [hr, ok_bind, pure_eq_ok] at h
              cases h
              rw [List.length_cons, ih hr]

/-- A 16-bit read of two bytes held by the buffer. -/
theorem readBe16_of_lt {buf : List UInt8} {len i : ℕ} (h : i + 1 < len) :
    readBe16 buf len i = .ok (UInt16.ofNat ((buf.getD i 0).toNat * 256 + (buf.getD (i + 1) 0).toNat)) := by
  rw [readBe16, readByte_of_lt (by omega), ok_bind, readByte_of_lt h, ok_bind, pure_eq_ok]

/-- A 32-bit read of four bytes held by the buffer: its two 16-bit halves, high one first. -/
theorem readBe32_of_lt {buf : List UInt8} {len i : ℕ} (h : i + 3 < len) :
    readBe32 buf len i = .ok (UInt32.ofNat
      ((UInt16.ofNat ((buf.getD i 0).toNat * 256 + (buf.getD (i + 1) 0).toNat)).toNat * 65536 +
        (UInt16.ofNat ((buf.getD (i + 2) 0).toNat * 256 + (buf.getD (i + 3) 0).toNat)).toNat)) := by
  rw [readBe32, readBe16_of_lt (by omega), ok_bind, readBe16_of_lt (by omega), ok_bind,
    pure_eq_ok]

end EdgeSec.Checked
