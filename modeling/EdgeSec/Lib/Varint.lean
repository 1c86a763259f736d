import Mathlib

/-!
# Base-128 varints

The base-128 little-endian varint of a natural number: seven bits of the number per byte,
lowest group first, with the high bit set on every byte but the last.  `varint` is the
encoding, `decodeVarint` reads one varint off the front of a buffer.

## Main results

* `decodeVarint_varint_append`: decoding what was encoded gives the number back, and the
  bytes after it untouched;
* `length_varint_le_iff`: the encoding has at most `k + 1` bytes exactly when the number is
  below `128 ^ (k + 1)`; `length_varint_eq` gives the length between two powers;
* `varint_eq_init_last`: every byte but the last has its high bit set, the last does not.
-/

namespace EdgeSec.Varint

/-- The varint of `n`: the low seven bits with the high bit set, then the varint of the
rest, until what is left fits in seven bits. -/
def varint (n : ℕ) : List UInt8 :=
  if n < 128 then [n.toUInt8] else (n % 128 + 128).toUInt8 :: varint (n / 128)
termination_by n
decreasing_by omega

/-- The number at the front of `bytes` and the bytes after it; `none` when the buffer ends
inside the number. -/
def decodeVarint : List UInt8 → Option (ℕ × List UInt8)
  | [] => none
  | b :: rest =>
      if b.toNat < 128 then some (b.toNat, rest)
      else (decodeVarint rest).map fun r => (b.toNat - 128 + 128 * r.1, r.2)

theorem varint_of_lt {n : ℕ} (h : n < 128) : varint n = [n.toUInt8] := by
  rw [varint, if_pos h]

theorem varint_of_le {n : ℕ} (h : 128 ≤ n) :
    varint n = (n % 128 + 128).toUInt8 :: varint (n / 128) := by
  rw [varint, if_neg (by omega)]

theorem toNat_toUInt8_of_lt {n : ℕ} (h : n < 256) : n.toUInt8.toNat = n := by
  simp [Nat.mod_eq_of_lt h]

theorem varint_ne_nil (n : ℕ) : varint n ≠ [] := by
  rw [varint]
  split <;> simp

/-- The round trip, with whatever follows the varint in the buffer. -/
theorem decodeVarint_varint_append (n : ℕ) (rest : List UInt8) :
    decodeVarint (varint n ++ rest) = some (n, rest) := by
  induction n using Nat.strong_induction_on with
  | _ n ih =>
    by_cases h : n < 128
    · rw [varint_of_lt h]
      have hb := toNat_toUInt8_of_lt (show n < 256 by omega)
      simp [decodeVarint, hb, h]
    · have hb := toNat_toUInt8_of_lt (show n % 128 + 128 < 256 by omega)
      have hlt : n / 128 < n := by omega
      rw [varint_of_le (by omega), List.cons_append, decodeVarint, hb, if_neg (by omega),
        ih (n / 128) hlt]
      simp only [Option.map_some, Option.some.injEq, Prod.mk.injEq, and_true]
      omega

theorem decodeVarint_varint (n : ℕ) : decodeVarint (varint n) = some (n, []) := by
  simpa using decodeVarint_varint_append n []

/-- The varint has at most `k + 1` bytes exactly when the number has at most `k + 1` groups
of seven bits. -/
theorem length_varint_le_iff (n k : ℕ) : (varint n).length ≤ k + 1 ↔ n < 128 ^ (k + 1) := by
  induction k generalizing n with
  | zero =>
      by_cases h : n < 128
      · simp [varint_of_lt h, h]
      · have hne := varint_ne_nil (n / 128)
        have hpos : 0 < (varint (n / 128)).length := List.length_pos_iff.2 hne
        rw [varint_of_le (by omega), List.length_cons]
        constructor
        · intro hle
          omega
        · intro hlt
          omega
  | succ k ih =>
      by_cases h : n < 128
      · have hpow : 128 ≤ 128 ^ (k + 1 + 1) :=
          Nat.le_self_pow (by omega) 128
        simp only [varint_of_lt h, List.length_singleton]
        constructor
        · intro _
          omega
        · intro _
          omega
      · rw [varint_of_le (by omega), List.length_cons, Nat.add_le_add_iff_right, ih (n / 128),
          Nat.div_lt_iff_lt_mul (by omega), ← Nat.pow_succ]

/-- The length of the varint of a number with `k + 1` groups of seven bits. -/
theorem length_varint_eq {n k : ℕ} (hlo : k = 0 ∨ 128 ^ k ≤ n) (hhi : n < 128 ^ (k + 1)) :
    (varint n).length = k + 1 := by
  have hle := (length_varint_le_iff n k).2 hhi
  cases k with
  | zero =>
      have hpos : 0 < (varint n).length := List.length_pos_iff.2 (varint_ne_nil n)
      omega
  | succ j =>
      have hlo' : 128 ^ (j + 1) ≤ n := hlo.resolve_left (Nat.succ_ne_zero j)
      have hgt : ¬(varint n).length ≤ j + 1 := by
        rw [length_varint_le_iff]
        omega
      omega

/-- Every byte but the last carries the continuation bit; the last does not. -/
theorem varint_eq_init_last (n : ℕ) :
    ∃ init last, varint n = init ++ [last] ∧ (∀ b ∈ init, 128 ≤ b.toNat) ∧ last.toNat < 128 := by
  induction n using Nat.strong_induction_on with
  | _ n ih =>
    by_cases h : n < 128
    · refine ⟨[], n.toUInt8, by rw [varint_of_lt h]; rfl, by simp, ?_⟩
      rw [toNat_toUInt8_of_lt (by omega)]
      exact h
    · obtain ⟨init, last, heq, hinit, hlast⟩ := ih (n / 128) (by omega)
      refine ⟨(n % 128 + 128).toUInt8 :: init, last, ?_, ?_, hlast⟩
      · rw [varint_of_le (by omega), heq, List.cons_append]
      · intro b hb
        rcases List.mem_cons.1 hb with rfl | hb
        · rw [toNat_toUInt8_of_lt (by omega)]
          omega
        · exact hinit b hb

example : varint 300 = [0xAC, 0x02] := by
  rw [varint_of_le (by omega), varint_of_lt (by omega)]
  rfl

end EdgeSec.Varint
