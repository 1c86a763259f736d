import Mathlib

/-!
# Merge sort and binary search under a three-way comparator

The sorting and searching of C arrays under a comparator `cmp : α → α → ℤ` that returns a
negative, zero or positive value, as glibc's `qsort` and `bsearch` use it:

* `msort` is `msort_with_tmp`, the merge sort glibc's `qsort` runs on an array it can buffer:
  the first `n / 2` elements and the rest sorted, then merged, the left element first unless
  `cmp` puts it after the right one;
* `bsearch` is glibc's `bsearch`: `[l, u)` halved at `(l + u) / 2` on the sign of
  `cmp key elem` until the sign is zero or the range is empty.

`LawfulCmp` says that the signs of `cmp` are those of a total preorder.  A comparator can fail
it, and then an array sorted under it need not hold what `bsearch` looks for where the search
goes.

## Main results

* `msort_of_pairwise`: `msort` leaves an input sorted pair by pair as it is, whatever else the
  comparator answers;
* `bsearchFrom_of_neg`, `bsearchFrom_of_pos`: the search goes on in the half the sign of the
  comparison with the middle element names.
-/

namespace EdgeSec.SortSearch

variable {α : Type} (cmp : α → α → ℤ)

/-- The merge of `msort_with_tmp`: the head of the left run goes first unless `cmp` puts it
after the head of the right run. -/
def merge : List α → List α → List α
  | [], ys => ys
  | xs, [] => xs
  | x :: xs, y :: ys =>
      if cmp x y ≤ 0 then x :: merge xs (y :: ys) else y :: merge (x :: xs) ys
termination_by xs ys => xs.length + ys.length

/-- `msort_with_tmp(p, b, n)`: nothing to do below two elements, else the first `n / 2` and the
last `n - n / 2` sorted, then merged. -/
def msort (l : List α) : List α :=
  if h : l.length ≤ 1 then l
  else merge cmp (msort (l.take (l.length / 2))) (msort (l.drop (l.length / 2)))
termination_by l.length
decreasing_by all_goals simp only [List.length_take, List.length_drop]; omega

/-- glibc's `bsearch(key, base, nmemb, size, compar)` on `[l, u)`: the index of the element it
returns, `none` for `NULL`.  Each round reads `p` at `idx = (l + u) / 2`, below `u ≤ nmemb`
so that it exists, and goes on by the sign of `comparison = compar(key, p)`. -/
def bsearchFrom (key : α) (arr : List α) (l u : ℕ) : Option ℕ :=
  if l < u then
    match arr[(l + u) / 2]? with
    | none => none
    | some p =>
        if cmp key p < 0 then bsearchFrom key arr l ((l + u) / 2)
        else if 0 < cmp key p then bsearchFrom key arr ((l + u) / 2 + 1) u
        else some ((l + u) / 2)
  else none
termination_by u - l

/-- `bsearch(key, base, nmemb, size, compar)` over the whole array. -/
def bsearch (key : α) (arr : List α) : Option ℕ := bsearchFrom cmp key arr 0 arr.length

/-- A comparator whose signs are those of a total preorder: `cmp a b` is negative exactly when
`cmp b a` is positive, and `cmp · · ≤ 0` is transitive. -/
structure LawfulCmp : Prop where
  neg_iff_pos : ∀ a b, cmp a b < 0 ↔ 0 < cmp b a
  trans : ∀ a b c, cmp a b ≤ 0 → cmp b c ≤ 0 → cmp a c ≤ 0

/-- An array sorted under `cmp`: no element after another that `cmp` puts before it. -/
def Sorted (arr : List α) : Prop := arr.Pairwise fun a b => cmp a b ≤ 0

/-! ## Sorting -/

theorem merge_eq_merge (xs ys : List α) :
    merge cmp xs ys = xs.merge ys fun x y => decide (cmp x y ≤ 0) := by
  induction xs generalizing ys with
  | nil => simp [merge]
  | cons x xs ih =>
      induction ys with
      | nil => simp [merge]
      | cons y ys ihy =>
          rw [merge, List.cons_merge_cons]
          by_cases hxy : cmp x y ≤ 0
          · simp only [hxy, if_true, decide_true, ih]
          · simp only [hxy, if_false, decide_false, Bool.false_eq_true, ihy]

/-- An array already sorted, pair by pair, is left as it is, whatever else `cmp` answers: every
merge takes the whole left run first. -/
theorem msort_of_pairwise {l : List α} (hl : Sorted cmp l) : msort cmp l = l := by
  unfold Sorted at hl
  fun_induction msort cmp l with
  | case1 l h => rfl
  | case2 l h ihTake ihDrop =>
      have hsplit := hl
      rw [← List.take_append_drop (l.length / 2) l, List.pairwise_append] at hsplit
      obtain ⟨htake, hdrop, hacross⟩ := hsplit
      rw [ihTake htake, ihDrop hdrop, merge_eq_merge, List.merge_of_le, List.take_append_drop]
      intro a b ha hb
      simpa using hacross a ha b hb

/-! ## Searching -/

theorem bsearchFrom_of_le {key : α} {arr : List α} {l u : ℕ} (h : u ≤ l) :
    bsearchFrom cmp key arr l u = none := by
  rw [bsearchFrom, if_neg (by omega)]

/-- A key before the middle element: the search goes on in the lower half. -/
theorem bsearchFrom_of_neg {key : α} {arr : List α} {l u : ℕ} (hlu : l < u) {p : α}
    (hp : arr[(l + u) / 2]? = some p) (hneg : cmp key p < 0) :
    bsearchFrom cmp key arr l u = bsearchFrom cmp key arr l ((l + u) / 2) := by
  rw [bsearchFrom, if_pos hlu, hp]
  simp only [if_pos hneg]

/-- A key after the middle element: the search goes on in the upper half. -/
theorem bsearchFrom_of_pos {key : α} {arr : List α} {l u : ℕ} (hlu : l < u) {p : α}
    (hp : arr[(l + u) / 2]? = some p) (hpos : 0 < cmp key p) :
    bsearchFrom cmp key arr l u = bsearchFrom cmp key arr ((l + u) / 2 + 1) u := by
  rw [bsearchFrom, if_pos hlu, hp]
  simp only [if_neg (not_lt.2 hpos.le), if_pos hpos]

end EdgeSec.SortSearch
