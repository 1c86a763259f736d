import Mathlib

/-!
# Lists of items each ended by a separator

A program that prints records one to a line writes every record followed by the separator,
and one that reads them back cuts the text at every separator (`List.splitOn`); a program
that writes a separator after every label and then takes the last one back writes the
labels joined by the separator.  This file relates the text `ls.flatMap (· ++ [x])` to
`[x].intercalate` and through it to `List.splitOn`:

* `flatMap_append_singleton_eq_intercalate`: the items each ended by `x` are the items
  joined by `x`, with an empty item last;
* `splitOn_flatMap_append_singleton`: cutting such a text at `x` gives the items back and
  the empty piece after the last separator;
* `drop_flatMap_append_singleton`: a suffix that starts inside an item is again such a text;
* `dropLast_flatMap_append_singleton`: without its last separator the text is the items
  joined by `x`;
* `mem_intercalate_singleton`: an element of the items joined by `x` is `x` or an element of
  an item.
-/

namespace EdgeSec.Terminated

variable {α : Type*}

theorem mem_intercalate_singleton {x c : α} :
    ∀ {ls : List (List α)}, c ∈ [x].intercalate ls → c = x ∨ ∃ l ∈ ls, c ∈ l
  | [], h => by simp at h
  | [l], h => .inr ⟨l, List.mem_singleton_self l, by simpa using h⟩
  | l :: l' :: ls, h => by
      rw [List.intercalate_cons_cons] at h
      rcases List.mem_append.1 h with h | h
      · rcases List.mem_append.1 h with h | h
        · exact .inr ⟨l, List.mem_cons_self, h⟩
        · exact .inl (List.mem_singleton.1 h)
      · rcases mem_intercalate_singleton h with h | ⟨l'', hl, hc⟩
        · exact .inl h
        · exact .inr ⟨l'', List.mem_cons_of_mem _ hl, hc⟩

theorem not_mem_intercalate_singleton {x c : α} {ls : List (List α)} (hx : c ≠ x)
    (hls : ∀ l ∈ ls, c ∉ l) : c ∉ [x].intercalate ls := by
  intro h
  rcases mem_intercalate_singleton h with h | ⟨l, hl, hc⟩
  · exact hx h
  · exact hls l hl hc

/-- Items each ended by `x` are the items joined by `x`, with an empty item last. -/
theorem flatMap_append_singleton_eq_intercalate (x : α) :
    ∀ ls : List (List α), ls.flatMap (· ++ [x]) = [x].intercalate (ls ++ [[]])
  | [] => rfl
  | l :: ls => by
      rw [List.flatMap_cons, flatMap_append_singleton_eq_intercalate x ls, List.cons_append,
        List.intercalate_cons_of_ne_nil (by simp)]

/-- Without its last separator, the text is the items joined by `x`. -/
theorem dropLast_flatMap_append_singleton (x : α) :
    ∀ ls : List (List α), (ls.flatMap (· ++ [x])).dropLast = [x].intercalate ls
  | [] => rfl
  | [l] => by simp
  | l :: l' :: ls => by
      have hrest : (l' :: ls).flatMap (· ++ [x]) ≠ [] := by simp
      rw [List.flatMap_cons, List.append_assoc, List.dropLast_append_of_ne_nil (by simp),
        List.dropLast_append_of_ne_nil hrest, dropLast_flatMap_append_singleton x (l' :: ls),
        List.intercalate_cons_cons, List.append_assoc]

theorem not_mem_flatMap_append_singleton {x c : α} (hc : c ≠ x) {ls : List (List α)}
    (h : ∀ l ∈ ls, c ∉ l) : c ∉ ls.flatMap (· ++ [x]) := by
  simp only [List.mem_flatMap, List.mem_append, List.mem_singleton, not_exists, not_and]
  rintro l hl (hcl | rfl)
  · exact h l hl hcl
  · exact hc rfl

/-- Cutting the text at every `x` gives the items back, and the empty piece after the last
separator. -/
theorem splitOn_flatMap_append_singleton [BEq α] [LawfulBEq α] {x : α} {ls : List (List α)}
    (h : ∀ l ∈ ls, x ∉ l) : (ls.flatMap (· ++ [x])).splitOn x = ls ++ [[]] := by
  rw [flatMap_append_singleton_eq_intercalate]
  refine List.splitOn_intercalate x (fun l hl => ?_) (by simp)
  rcases List.mem_append.1 hl with hl | hl
  · exact h l hl
  · simp [List.mem_singleton.1 hl]

/-- A suffix that starts inside an item holds the rest of that item and the items after it,
each still ended by `x`. -/
theorem drop_flatMap_append_singleton (x : α) (pre : List (List α)) (l : List α)
    (post : List (List α)) {n : ℕ} (hn : n ≤ l.length) :
    ((pre ++ l :: post).flatMap (· ++ [x])).drop ((pre.flatMap (· ++ [x])).length + n) =
      (l.drop n :: post).flatMap (· ++ [x]) := by
  rw [List.flatMap_append, ← List.drop_drop, List.drop_left, List.flatMap_cons, List.flatMap_cons,
    List.append_assoc, List.drop_append_of_le_length hn, List.append_assoc]

end EdgeSec.Terminated
