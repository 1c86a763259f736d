import Mathlib

/-!
# Chained XOR masks over blocks

A stream of blocks masked by XOR with a hash of the block sent before it: the first block is
masked with `H iv`, each later one with `H` of the previous masked block.  This is the hiding of
RADIUS passwords (RFC 2865 §5.2, RFC 2868 §3.5, RFC 2548 §2.4.2) with `H x = MD5(secret + x)`.
A decoder can unmask every block from the masked ones alone, in any order; the in-place decoder
that runs from the last block back to the second, then unmasks the first, is `decryptBack`.

## Main results

* `chainDecrypt_chainEncrypt`: unmasking what was masked gives the blocks back, for any `H`
  whose values are as long as the blocks;
* `getD_decryptBack`: the in-place backward loop unmasks every block after the first;
* `chainDecrypt_eq_decryptBack`: with the first block unmasked after it, it is `chainDecrypt`;
* `flatten_blocks`, `blocks_flatten`: a list cut into blocks and glued back.
-/

namespace EdgeSec.XorChain

variable {α : Type*}

/-! ## Blocks -/

/-- `l` cut into blocks of `n`, the last one shorter when `n` does not divide its length. -/
def blocks (n : ℕ) (l : List α) : List (List α) :=
  if h : 0 < n ∧ l ≠ [] then l.take n :: blocks n (l.drop n) else []
termination_by l.length
decreasing_by
  have hl : 0 < l.length := List.length_pos_iff.2 h.2
  simp only [List.length_drop]
  omega

theorem blocks_of_ne_nil {n : ℕ} (hn : 0 < n) {l : List α} (hl : l ≠ []) :
    blocks n l = l.take n :: blocks n (l.drop n) := by
  rw [blocks, dif_pos ⟨hn, hl⟩]

@[simp] theorem blocks_nil (n : ℕ) : blocks n ([] : List α) = [] := by
  rw [blocks, dif_neg (by simp)]

theorem flatten_blocks {n : ℕ} (hn : 0 < n) (l : List α) : (blocks n l).flatten = l := by
  induction h : l.length using Nat.strong_induction_on generalizing l with
  | _ k ih =>
    by_cases hl : l = []
    · simp [hl]
    · have hlt : (l.drop n).length < k := by
        have := List.length_pos_iff.2 hl
        simp only [List.length_drop]
        omega
      rw [blocks_of_ne_nil hn hl, List.flatten_cons, ih _ hlt _ rfl, List.take_append_drop]

/-- Every block of a list whose length is a multiple of `n` has `n` elements. -/
theorem length_of_mem_blocks {n k : ℕ} (hn : 0 < n) {l : List α} (hl : l.length = n * k)
    {b : List α} (hb : b ∈ blocks n l) : b.length = n := by
  induction k generalizing l with
  | zero =>
      rw [Nat.mul_zero, List.length_eq_zero_iff] at hl
      simp [hl] at hb
  | succ k ih =>
      have hne : l ≠ [] := by
        rintro rfl
        simp only [List.length_nil] at hl
        rw [Nat.mul_succ] at hl
        omega
      rw [blocks_of_ne_nil hn hne, List.mem_cons] at hb
      rcases hb with rfl | hb
      · rw [List.length_take, hl]
        rw [Nat.mul_succ]
        omega
      · exact ih (by rw [List.length_drop, hl, Nat.mul_succ]; omega) hb

theorem length_blocks {n k : ℕ} (hn : 0 < n) {l : List α} (hl : l.length = n * k) :
    (blocks n l).length = k := by
  induction k generalizing l with
  | zero =>
      rw [Nat.mul_zero, List.length_eq_zero_iff] at hl
      simp [hl]
  | succ k ih =>
      have hne : l ≠ [] := by
        rintro rfl
        simp only [List.length_nil] at hl
        rw [Nat.mul_succ] at hl
        omega
      rw [blocks_of_ne_nil hn hne, List.length_cons,
        ih (by rw [List.length_drop, hl, Nat.mul_succ]; omega)]

/-- Blocks of `n` glued together are cut back into the same blocks. -/
theorem blocks_flatten {n : ℕ} (hn : 0 < n) {bs : List (List α)} (hbs : ∀ b ∈ bs, b.length = n) :
    blocks n bs.flatten = bs := by
  induction bs with
  | nil => simp
  | cons b bs ih =>
      have hb : b.length = n := hbs b List.mem_cons_self
      have hne : (b :: bs).flatten ≠ [] := by
        rw [List.flatten_cons]
        intro h
        have := congrArg List.length h
        simp only [List.length_append, List.length_nil] at this
        omega
      rw [blocks_of_ne_nil hn hne, List.flatten_cons, ← hb, List.take_left, List.drop_left,
        hb, ih fun b' hb' => hbs b' (List.mem_cons_of_mem b hb')]

theorem length_flatten_of_forall {n : ℕ} {bs : List (List α)} (h : ∀ b ∈ bs, b.length = n) :
    bs.flatten.length = n * bs.length := by
  induction bs with
  | nil => simp
  | cons b bs ih =>
      rw [List.flatten_cons, List.length_append, h b List.mem_cons_self,
        ih fun b' hb' => h b' (List.mem_cons_of_mem b hb'), List.length_cons, Nat.mul_succ]
      omega

/-! ## Lists read with a default -/

theorem getD_set_eq (bs : List α) (k i : ℕ) (v d : α) :
    (bs.set k v).getD i d = if i = k ∧ k < bs.length then v else bs.getD i d := by
  simp only [List.getD_eq_getElem?_getD, List.getElem?_set]
  by_cases hki : k = i
  · subst hki
    by_cases hk : k < bs.length
    · simp [hk]
    · simp [hk]
  · simp [hki, Ne.symm hki]

/-- Two lists of one length that read alike at every position are equal. -/
theorem ext_getD {l₁ l₂ : List α} (d : α) (hlen : l₁.length = l₂.length)
    (h : ∀ i < l₁.length, l₁.getD i d = l₂.getD i d) : l₁ = l₂ := by
  apply List.ext_getElem hlen
  intro i h₁ h₂
  have hi := h i h₁
  rwa [List.getD_eq_getElem _ _ h₁, List.getD_eq_getElem _ _ h₂] at hi

/-! ## Masks -/

variable [XorOp α]

/-- A block XORed with a mask, element by element. -/
def xorBlock (b mask : List α) : List α := List.zipWith (· ^^^ ·) b mask

/-- Each block masked with `H` of the masked block before it, the first with `H iv`. -/
def chainEncrypt (H : List α → List α) : List α → List (List α) → List (List α)
  | _, [] => []
  | iv, p :: ps =>
      let c := xorBlock p (H iv)
      c :: chainEncrypt H c ps

/-- Each block unmasked with `H` of the masked block before it, the first with `H iv`. -/
def chainDecrypt (H : List α → List α) : List α → List (List α) → List (List α)
  | _, [] => []
  | iv, c :: cs => xorBlock c (H iv) :: chainDecrypt H c cs

/-- The in-place backward loop: block `j + 1` unmasked with `H` of block `j`, still masked
since the loop has not reached it, then the blocks before it; the first block is left. -/
def decryptBack (H : List α → List α) : ℕ → List (List α) → List (List α)
  | 0, bs => bs
  | j + 1, bs =>
      decryptBack H j (bs.set (j + 1) (xorBlock (bs.getD (j + 1) []) (H (bs.getD j []))))

@[simp] theorem length_xorBlock (b mask : List α) :
    (xorBlock b mask).length = min b.length mask.length := List.length_zipWith

/-- Masking twice with one mask at least as long as the block gives the block back. -/
theorem xorBlock_xorBlock (hcancel : ∀ a m : α, a ^^^ m ^^^ m = a) {b mask : List α}
    (hlen : b.length ≤ mask.length) : xorBlock (xorBlock b mask) mask = b := by
  induction b generalizing mask with
  | nil => rfl
  | cons a b ih =>
      cases mask with
      | nil => simp at hlen
      | cons m mask =>
          simp only [List.length_cons, Nat.add_le_add_iff_right] at hlen
          simp only [xorBlock, List.zipWith_cons_cons] at ih ⊢
          rw [hcancel, ih hlen]

section Chain

variable (H : List α → List α)

@[simp] theorem length_chainEncrypt (iv : List α) (ps : List (List α)) :
    (chainEncrypt H iv ps).length = ps.length := by
  induction ps generalizing iv with
  | nil => rfl
  | cons p ps ih => simp [chainEncrypt, ih]

/-- Blocks no longer than the masks keep their lengths. -/
theorem length_of_mem_chainEncrypt {iv : List α} {ps : List (List α)}
    (hlen : ∀ x, ∀ p ∈ ps, p.length ≤ (H x).length) {c : List α}
    (hc : c ∈ chainEncrypt H iv ps) : ∃ p ∈ ps, c.length = p.length := by
  induction ps generalizing iv with
  | nil => simp [chainEncrypt] at hc
  | cons p ps ih =>
      simp only [chainEncrypt, List.mem_cons] at hc
      rcases hc with rfl | hc
      · exact ⟨p, List.mem_cons_self, by simpa using hlen iv p List.mem_cons_self⟩
      · obtain ⟨q, hq, hcq⟩ := ih (fun x q hq => hlen x q (List.mem_cons_of_mem p hq)) hc
        exact ⟨q, List.mem_cons_of_mem p hq, hcq⟩

/-- Unmasking recovers the blocks: each mask is computed from masked blocks only. -/
theorem chainDecrypt_chainEncrypt (hcancel : ∀ a m : α, a ^^^ m ^^^ m = a) (iv : List α)
    (ps : List (List α)) (hlen : ∀ x, ∀ p ∈ ps, p.length ≤ (H x).length) :
    chainDecrypt H iv (chainEncrypt H iv ps) = ps := by
  induction ps generalizing iv with
  | nil => rfl
  | cons p ps ih =>
      simp only [chainEncrypt, chainDecrypt]
      rw [xorBlock_xorBlock hcancel (hlen iv p List.mem_cons_self),
        ih _ fun x q hq => hlen x q (List.mem_cons_of_mem p hq)]

/-- `chainDecrypt` unmasks block `i` with `H` of block `i - 1`, and the first with `H iv`. -/
theorem getD_chainDecrypt (iv : List α) (bs : List (List α)) (i : ℕ) (hi : i < bs.length) :
    (chainDecrypt H iv bs).getD i [] =
      xorBlock (bs.getD i []) (H (if i = 0 then iv else bs.getD (i - 1) [])) := by
  induction bs generalizing iv i with
  | nil => simp at hi
  | cons c cs ih =>
      cases i with
      | zero => simp [chainDecrypt]
      | succ i =>
          simp only [List.length_cons, Nat.add_lt_add_iff_right] at hi
          simp only [chainDecrypt, List.getD_cons_succ, ih c i hi, Nat.add_sub_cancel,
            Nat.succ_ne_zero, if_false]
          cases i with
          | zero => simp
          | succ i => simp

@[simp] theorem length_chainDecrypt (iv : List α) (bs : List (List α)) :
    (chainDecrypt H iv bs).length = bs.length := by
  induction bs generalizing iv with
  | nil => rfl
  | cons c cs ih => simp [chainDecrypt, ih]

@[simp] theorem length_decryptBack (j : ℕ) (bs : List (List α)) :
    (decryptBack H j bs).length = bs.length := by
  induction j generalizing bs with
  | zero => rfl
  | succ j ih => rw [decryptBack, ih, List.length_set]

/-- After the backward loop from block `j`, blocks `1` to `j` are unmasked with the masked
block before each, the others untouched. -/
theorem getD_decryptBack (j : ℕ) (bs : List (List α)) (i : ℕ) :
    (decryptBack H j bs).getD i [] =
      if 1 ≤ i ∧ i ≤ j ∧ i < bs.length then xorBlock (bs.getD i []) (H (bs.getD (i - 1) []))
      else bs.getD i [] := by
  induction j generalizing bs with
  | zero =>
      rw [decryptBack, if_neg (by omega)]
  | succ j ih =>
      rw [decryptBack, ih, List.length_set]
      by_cases hij : i = j + 1
      · -- the block the step wrote: below it the loop does not go back
        subst hij
        rw [if_neg (by omega), getD_set_eq]
        by_cases hlt : j + 1 < bs.length
        · rw [if_pos ⟨rfl, hlt⟩, if_pos ⟨by omega, le_rfl, hlt⟩, Nat.add_sub_cancel]
        · rw [if_neg (fun h => hlt h.2), if_neg (fun h => hlt h.2.2)]
      · -- a block below reads the block before it, which the step did not write
        by_cases hi : 1 ≤ i ∧ i ≤ j ∧ i < bs.length
        · rw [if_pos hi, if_pos ⟨hi.1, by omega, hi.2.2⟩, getD_set_eq bs (j + 1) i,
            getD_set_eq bs (j + 1) (i - 1), if_neg (fun h => hij h.1), if_neg (by omega)]
        · rw [if_neg hi, if_neg (by omega), getD_set_eq bs (j + 1) i, if_neg (fun h => hij h.1)]

/-- The backward loop leaves the first block as it was. -/
theorem getD_zero_decryptBack (j : ℕ) (bs : List (List α)) :
    (decryptBack H j bs).getD 0 [] = bs.getD 0 [] := by
  rw [getD_decryptBack, if_neg (by omega)]

/-- The in-place decoder, backward loop then first block, is `chainDecrypt`. -/
theorem chainDecrypt_eq_decryptBack (iv : List α) (bs : List (List α)) :
    chainDecrypt H iv bs =
      (decryptBack H (bs.length - 1) bs).set 0 (xorBlock (bs.getD 0 []) (H iv)) := by
  apply ext_getD [] (by simp)
  intro i hi
  rw [length_chainDecrypt] at hi
  rw [getD_chainDecrypt H iv bs i hi, getD_set_eq, length_decryptBack, getD_decryptBack]
  by_cases h0 : i = 0
  · subst h0
    rw [if_pos rfl, if_pos ⟨rfl, hi⟩]
  · rw [if_neg h0, if_neg (fun h => h0 h.1), if_pos ⟨by omega, by omega, hi⟩]

end Chain

end EdgeSec.XorChain
