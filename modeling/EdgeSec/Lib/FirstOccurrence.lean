import Mathlib

/-!
# Elements in the order of their first occurrence

A list that a program keeps free of repeats by appending an element only when it is not in
the list yet ends up holding the elements it was offered in the order they were first
offered.  `firstOccurrences l` is that list, defined from Mathlib's `List.dedup` (which keeps
the last occurrences) by reversing before and after.

* `firstOccurrences_append_singleton`: offering one more element appends it exactly when it
  is new (`appendIfNew`), the step lemma by which an implementation is compared with it;
* `nodup_firstOccurrences`, `mem_firstOccurrences`: the result has no repeats and the same
  elements.
-/

namespace EdgeSec.FirstOccurrence

variable {α : Type*} [DecidableEq α]

/-- The elements of `l`, each once, in the order of its first occurrence in `l`. -/
def firstOccurrences (l : List α) : List α := l.reverse.dedup.reverse

@[simp] theorem firstOccurrences_nil : firstOccurrences ([] : List α) = [] := rfl

@[simp] theorem mem_firstOccurrences {l : List α} {x : α} : x ∈ firstOccurrences l ↔ x ∈ l := by
  rw [firstOccurrences, List.mem_reverse, List.mem_dedup, List.mem_reverse]

/-- Append `x` unless it is already in `l`. -/
def appendIfNew (l : List α) (x : α) : List α := if x ∈ l then l else l ++ [x]

/-- Offering one more element appends it exactly when it is new. -/
theorem firstOccurrences_append_singleton (l : List α) (x : α) :
    firstOccurrences (l ++ [x]) = appendIfNew (firstOccurrences l) x := by
  have hrev : firstOccurrences (l ++ [x]) = (x :: l.reverse).dedup.reverse := by
    rw [firstOccurrences, List.reverse_append, List.reverse_singleton, List.singleton_append]
  rw [hrev, appendIfNew]
  by_cases hx : x ∈ l
  · rw [if_pos (mem_firstOccurrences.2 hx), List.dedup_cons_of_mem (List.mem_reverse.2 hx)]
    rfl
  · rw [if_neg (mt mem_firstOccurrences.1 hx),
      List.dedup_cons_of_notMem (fun h => hx (List.mem_reverse.1 h)), List.reverse_cons]
    rfl

theorem nodup_firstOccurrences (l : List α) : (firstOccurrences l).Nodup :=
  List.nodup_reverse.2 (List.nodup_dedup _)

example : firstOccurrences [2, 1, 2, 3, 1] = [2, 1, 3] := by decide

end EdgeSec.FirstOccurrence
