import Mathlib

/-!
# Lists edited by position

A program that keeps an ordered list in another process edits it by position: it inserts an
element before the first one of some kind, or first when there is none, and it removes the
first copy of an element.  This file has what such edits do to the list as a whole:

* `firstIdx`: the position of the first element where `p` holds, `0` when there is none;
* `sublist_insertIdx_firstIdx`: an element inserted there comes before every element where
  `p` holds;
* `erase_erase_of_perm`: removing the first copies of two elements that were added to a list
  holding neither gives that list back;
* `sum_map_le_of_subperm`: a sum over part of a list, in any order, is at most the sum over
  the list;
* `mem_takeWhile_insertIdx_firstIdx`, `takeWhile_sublist_insertIdx`, `takeWhile_erase_sublist`:
  what comes before the first element of a kind, after such edits;
* `CountsAs`: a list holds a fixed base of elements and, once each, the elements of a set;
  `CountsAs.erase_erase` and `CountsAs.erase_erase_cons_cons` follow the set as a pair of
  elements is taken out, or replaced by new copies in front.
-/

namespace EdgeSec.ListEdit

variable {α : Type*}

/-- The position of the first element of `l` where `p` holds, or `0` when there is none. -/
def firstIdx (p : α → Bool) (l : List α) : ℕ := (l.findIdx? p).getD 0

theorem firstIdx_le_length (p : α → Bool) (l : List α) : firstIdx p l ≤ l.length := by
  rw [firstIdx]
  cases h : l.findIdx? p with
  | none => exact Nat.zero_le _
  | some i => exact (List.findIdx?_eq_some_iff_findIdx_eq.1 h).1.le

theorem firstIdx_cons_of_pos (p : α → Bool) {x : α} (l : List α) (hx : p x = true) :
    firstIdx p (x :: l) = 0 := by
  rw [firstIdx, List.findIdx?_cons, if_pos hx, Option.getD_some]

/-- Past an element where `p` fails, the first position moves by one, provided `p` holds
somewhere further on. -/
theorem firstIdx_cons_of_neg (p : α → Bool) {x b : α} {l : List α} (hx : p x = false)
    (hb : b ∈ l) (hpb : p b = true) : firstIdx p (x :: l) = firstIdx p l + 1 := by
  obtain ⟨i, hi⟩ : ∃ i, l.findIdx? p = some i := by
    cases h : l.findIdx? p with
    | none => exact absurd hpb (by simp [List.findIdx?_eq_none_iff.1 h b hb])
    | some i => exact ⟨i, rfl⟩
  rw [firstIdx, firstIdx, List.findIdx?_cons, if_neg (by simp [hx]), hi, Option.map_some,
    Option.getD_some, Option.getD_some]

/-- An element inserted at the first position where `p` holds comes before every element
where `p` holds. -/
theorem sublist_insertIdx_firstIdx (p : α → Bool) (x : α) {b : α} :
    ∀ {l : List α}, b ∈ l → p b = true → [x, b].Sublist (l.insertIdx (firstIdx p l) x)
  | [], hb, _ => absurd hb List.not_mem_nil
  | y :: l, hb, hpb => by
      cases hy : p y with
      | true =>
          -- the insert goes in front of `y`, and `b` is `y` or after it
          rw [firstIdx_cons_of_pos p l hy, List.insertIdx_zero]
          exact (List.singleton_sublist.2 hb).cons_cons x
      | false =>
          -- `b` is not `y`, so it is further on and the insert is past `y`
          have hbl : b ∈ l := by
            rcases List.mem_cons.1 hb with rfl | hbl
            · exact absurd hpb (by simp [hy])
            · exact hbl
          rw [firstIdx_cons_of_neg p hy hbl hpb, List.insertIdx_succ_cons]
          exact (sublist_insertIdx_firstIdx p x hbl hpb).cons y

/-- An element where `p` fails, inserted at the first position where `p` holds, stands before
the first element where `p` holds. -/
theorem mem_takeWhile_insertIdx_firstIdx (p : α → Bool) {x : α} (hx : p x = false) :
    ∀ l : List α, x ∈ (l.insertIdx (firstIdx p l) x).takeWhile (fun y => !p y)
  | [] => by simp [firstIdx, hx]
  | y :: l => by
      -- at the front, `x` is the first element kept
      have hfront : ∀ l' : List α, x ∈ (l'.insertIdx 0 x).takeWhile (fun y => !p y) := by
        intro l'
        rw [List.insertIdx_zero, List.takeWhile_cons, if_pos (by simp [hx])]
        exact List.mem_cons_self
      cases hy : p y with
      | true => rw [firstIdx_cons_of_pos p l hy]; exact hfront _
      | false =>
          by_cases hb : ∃ b ∈ l, p b = true
          · -- `x` goes into the tail, after `y`, which is kept
            obtain ⟨b, hb, hpb⟩ := hb
            rw [firstIdx_cons_of_neg p hy hb hpb, List.insertIdx_succ_cons, List.takeWhile_cons,
              if_pos (by simp [hy])]
            exact List.mem_cons_of_mem _ (mem_takeWhile_insertIdx_firstIdx p hx l)
          · -- no element where `p` holds: the insert goes first
            have hnone : (y :: l).findIdx? p = none := by
              rw [List.findIdx?_eq_none_iff]
              intro b hb'
              rcases List.mem_cons.1 hb' with rfl | hb'
              · exact hy
              · exact Bool.eq_false_iff.2 fun hpb => hb ⟨b, hb', hpb⟩
            rw [firstIdx, hnone, Option.getD_none]
            exact hfront _

/-- Inserting an element where `f` holds anywhere keeps what `takeWhile f` kept. -/
theorem takeWhile_sublist_insertIdx {f : α → Bool} {y : α} (hy : f y = true) :
    ∀ (l : List α) (i : ℕ), (l.takeWhile f).Sublist ((l.insertIdx i y).takeWhile f)
  | l, 0 => by
      rw [List.insertIdx_zero, List.takeWhile_cons, if_pos hy]
      exact List.sublist_cons_self _ _
  | [], _ + 1 => by simp
  | z :: l, i + 1 => by
      rw [List.insertIdx_succ_cons, List.takeWhile_cons, List.takeWhile_cons]
      by_cases hz : f z = true
      · rw [if_pos hz, if_pos hz]
        exact (takeWhile_sublist_insertIdx hy l i).cons_cons z
      · rw [if_neg hz]
        exact List.nil_sublist _

/-- Removing the first copy of an element keeps what `takeWhile f` kept, but that copy. -/
theorem takeWhile_erase_sublist [BEq α] [LawfulBEq α] (f : α → Bool) (z : α) :
    ∀ l : List α, ((l.takeWhile f).erase z).Sublist ((l.erase z).takeWhile f)
  | [] => by simp
  | w :: l => by
      rw [List.takeWhile_cons]
      by_cases hw : f w = true
      · rw [if_pos hw]
        by_cases hwz : w = z
        · subst hwz
          rw [List.erase_cons_head, List.erase_cons_head]
        · rw [List.erase_cons_tail (by simpa using hwz), List.erase_cons_tail (by simpa using hwz),
            List.takeWhile_cons, if_pos hw]
          exact (takeWhile_erase_sublist f z l).cons_cons w
      · rw [if_neg hw, List.erase_nil]
        exact List.nil_sublist _

/-- Removing the first copy of `a` from `b :: a :: l` gives `b :: l`, whether or not `b` is
`a`. -/
theorem erase_cons_cons_right [BEq α] [LawfulBEq α] (a b : α) (l : List α) :
    (b :: a :: l).erase a = b :: l := by
  by_cases hba : b = a
  · rw [hba, List.erase_cons_head]
  · rw [List.erase_cons_tail (by simpa using hba), List.erase_cons_head]

/-- A list that held neither `a` nor `b`, with both added anywhere: removing the first copy
of `a` and then of `b` gives it back. -/
theorem erase_erase_of_perm [BEq α] [LawfulBEq α] {a b : α} {l l' : List α} (ha : a ∉ l)
    (hb : b ∉ l) (hsub : l.Sublist l') (hperm : l'.Perm (b :: a :: l)) :
    (l'.erase a).erase b = l := by
  -- `l` stays a sublist through both removals, which leave exactly as many elements as it has
  have hsub' : l.Sublist ((l'.erase a).erase b) := by
    have h := (hsub.erase a).erase b
    rwa [List.erase_of_not_mem ha, List.erase_of_not_mem hb] at h
  have hperm' : ((l'.erase a).erase b).Perm l := by
    have h := (hperm.erase a).erase b
    rwa [erase_cons_cons_right, List.erase_cons_head] at h
  exact (hsub'.eq_of_length hperm'.length_eq.symm).symm

/-- A sum over part of a list, in any order, is at most the sum over the list. -/
theorem sum_map_le_of_subperm (f : α → ℕ) {l l' : List α} (h : l.Subperm l') :
    (l.map f).sum ≤ (l'.map f).sum := by
  obtain ⟨l₀, hperm, hsub⟩ := h
  calc (l.map f).sum = (l₀.map f).sum := ((hperm.map f).sum_eq).symm
    _ ≤ (l'.map f).sum := (hsub.map f).sum_le_sum fun _ _ => Nat.zero_le _

/-! ## A list counted as a base and a set -/

section Count

variable [DecidableEq α]

/-- `l` holds `S r` copies of every `r`, and one more where `P` holds: a base that never
changes, and one copy of each element of a set. -/
def CountsAs (l : List α) (S : α → ℕ) (P : α → Prop) [DecidablePred P] : Prop :=
  ∀ r, l.count r = S r + if P r then 1 else 0

variable {l : List α} {S : α → ℕ} {P P' : α → Prop} [DecidablePred P] [DecidablePred P']

/-- Removing the first copy of an element outside the base takes it out of the set. -/
theorem CountsAs.erase (h : CountsAs l S P) {a : α} (ha : S a = 0)
    (hP' : ∀ r, P' r ↔ P r ∧ r ≠ a) : CountsAs (l.erase a) S P' := by
  intro r
  rw [List.count_erase, h r]
  by_cases hr : r = a
  · subst hr
    have hn : ¬ P' r := fun hp => ((hP' r).1 hp).2 rfl
    by_cases hp : P r <;> simp [hp, hn, ha]
  · have hiff : P' r ↔ P r := by
      rw [hP' r]
      exact ⟨And.left, fun hp => ⟨hp, hr⟩⟩
    have hba : (a == r) = false := by simpa using Ne.symm hr
    by_cases hp : P r <;> simp [hp, hiff, hba]

/-- Adding an element outside the base and the set puts it in the set. -/
theorem CountsAs.cons (h : CountsAs l S P) {a : α} (ha : S a = 0) (hna : ¬ P a)
    (hP' : ∀ r, P' r ↔ P r ∨ r = a) : CountsAs (a :: l) S P' := by
  intro r
  rw [List.count_cons, h r]
  by_cases hr : r = a
  · subst hr
    simp [ha, hna, (hP' r).2 (.inr rfl)]
  · have hiff : P' r ↔ P r := by
      rw [hP' r]
      exact ⟨fun hp => hp.resolve_right hr, .inl⟩
    have hba : (a == r) = false := by simpa using Ne.symm hr
    by_cases hp : P r <;> simp [hp, hiff, hba]

/-- Removing the first copies of two elements outside the base takes both out of the set. -/
theorem CountsAs.erase_erase (h : CountsAs l S P) {a b : α} (ha : S a = 0) (hb : S b = 0)
    (hP' : ∀ r, P' r ↔ P r ∧ r ≠ a ∧ r ≠ b) : CountsAs ((l.erase a).erase b) S P' := by
  have h₁ : CountsAs (l.erase a) S fun r => P r ∧ r ≠ a := h.erase ha fun _ => Iff.rfl
  exact h₁.erase hb fun r => by rw [hP' r, and_assoc]

/-- Replacing one element outside the base: its old copy goes and a new one comes first. -/
theorem CountsAs.erase_cons (h : CountsAs l S P) {a : α} (ha : S a = 0)
    (hP' : ∀ r, P' r ↔ P r ∨ r = a) : CountsAs (a :: l.erase a) S P' := by
  have h₁ : CountsAs (l.erase a) S fun r => P r ∧ r ≠ a := h.erase ha fun _ => Iff.rfl
  refine h₁.cons ha (fun hp => hp.2 rfl) fun r => ?_
  rw [hP' r]
  by_cases hr : r = a <;> simp [hr]

/-- Replacing two distinct elements outside the base: their old copies go and new ones come
first. -/
theorem CountsAs.erase_erase_cons_cons (h : CountsAs l S P) {a b : α} (ha : S a = 0)
    (hb : S b = 0) (hab : a ≠ b) (hP' : ∀ r, P' r ↔ P r ∨ r = a ∨ r = b) :
    CountsAs (b :: a :: (l.erase a).erase b) S P' := by
  have h₂ : CountsAs ((l.erase a).erase b) S fun r => P r ∧ r ≠ a ∧ r ≠ b :=
    h.erase_erase ha hb fun _ => Iff.rfl
  have h₃ : CountsAs (a :: (l.erase a).erase b) S
      fun r => (P r ∧ r ≠ a ∧ r ≠ b) ∨ r = a :=
    h₂.cons ha (fun hp => hp.2.1 rfl) fun _ => Iff.rfl
  refine h₃.cons hb (fun hp => hp.elim (fun hp => hp.2.2 rfl) fun h => hab h.symm) fun r => ?_
  rw [hP' r]
  by_cases hra : r = a <;> by_cases hrb : r = b <;> simp [hra, hrb]

theorem CountsAs.perm (h : CountsAs l S P) {l' : List α} (hp : l.Perm l') : CountsAs l' S P :=
  fun r => (hp.count_eq r).symm.trans (h r)

theorem CountsAs.mem_iff (h : CountsAs l S P) (r : α) : r ∈ l ↔ 0 < S r ∨ P r := by
  rw [← List.count_pos_iff, h r]
  by_cases hp : P r <;> simp [hp]

theorem CountsAs.not_mem (h : CountsAs l S P) {a : α} (ha : S a = 0) (hP : ¬ P a) : a ∉ l := by
  rw [h.mem_iff, ha]
  exact fun h' => h'.elim (lt_irrefl 0) hP

end Count

end EdgeSec.ListEdit
