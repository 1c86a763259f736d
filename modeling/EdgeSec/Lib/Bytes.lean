import Mathlib

/-!
# Multi-byte integers in byte buffers

A C program that `memcpy`s bytes into a `uint32_t` field reads them in the host's byte
order; on the little-endian hosts the daemon is built for (x86-64, ARM) that is
`readLe32`.  `encodeLe32` is the inverse, used to state what a well-formed buffer holds.

* `readLe32_encodeLe32_append`: reading back what was encoded gives the number;
* `readLe32_append_of_length`: a read past a prefix reads what follows it.
-/

namespace EdgeSec.Bytes

/-- The little-endian `uint32_t` at offset `off` of `bs`; bytes past the end read as `0`. -/
def readLe32 (bs : List UInt8) (off : ℕ) : UInt32 :=
  UInt32.ofNat ((bs.getD off 0).toNat + (bs.getD (off + 1) 0).toNat * 256 +
    (bs.getD (off + 2) 0).toNat * 65536 + (bs.getD (off + 3) 0).toNat * 16777216)

/-- The four little-endian bytes of `x`. -/
def encodeLe32 (x : UInt32) : List UInt8 :=
  [UInt8.ofNat x.toNat, UInt8.ofNat (x.toNat / 256), UInt8.ofNat (x.toNat / 65536),
    UInt8.ofNat (x.toNat / 16777216)]

@[simp] theorem length_encodeLe32 (x : UInt32) : (encodeLe32 x).length = 4 := rfl

/-- The four bytes put together again give the number. -/
theorem readLe32_encodeLe32_append (x : UInt32) (rest : List UInt8) :
    readLe32 (encodeLe32 x ++ rest) 0 = x := by
  have hx := x.toNat_lt
  have hsum : x.toNat % 256 + x.toNat / 256 % 256 * 256 + x.toNat / 65536 % 256 * 65536 +
      x.toNat / 16777216 % 256 * 16777216 = x.toNat := by
    omega
  simp only [readLe32, encodeLe32, List.cons_append, List.getD_cons_zero, List.getD_cons_succ,
    UInt8.toNat_ofNat', Nat.reducePow]
  rw [hsum, UInt32.ofNat_toNat]

/-- A read at the offset just past a prefix reads what follows it. -/
theorem readLe32_append_of_length {pre : List UInt8} {off : ℕ} (h : pre.length = off)
    (rest : List UInt8) : readLe32 (pre ++ rest) off = readLe32 rest 0 := by
  subst h
  simp only [readLe32, List.getD_eq_getElem?_getD, zero_add]
  rw [List.getElem?_append_right (by omega), List.getElem?_append_right (by omega),
    List.getElem?_append_right (by omega), List.getElem?_append_right (by omega)]
  simp only [Nat.sub_self, Nat.add_sub_cancel_left]

end EdgeSec.Bytes
