import Mathlib

/-!
# Lookups by first match

Two kinds of table in a C program answer a query with the first entry that fits it.  A hash
table of `uthash` keeps its entries in the order they were added and overwrites the value of
a key where it stands, so it is an association list whose keys are distinct: `put` replaces
the value of the key or adds the key at the end, and `List.lookup` finds it.  A chain of
filter rules gives a packet the target of the first rule that matches it, or the chain's
policy when none does (`firstMatch`).

* `lookup_put`: a put changes the lookup of its own key only;
* `lookup_foldl_put`: a table built by puts of a list of entries holds, for each key, the
  value of its last entry;
* `foldl_put_of_nodup`: puts of entries with new, distinct keys append them, so copying a
  table entry by entry gives it back;
* `firstMatch_cases`: the answer is the target of a rule that matches, or the policy when no
  rule matches;
* `firstMatch_of_mem_takeWhile`: a matching rule before every rule of some kind decides the
  answer, when the matching rules before that kind all have its target.
-/

namespace EdgeSec.FirstMatch

section Table

variable {κ ν : Type*} [DecidableEq κ]

/-- Overwrite the value of `k` where it stands, or add `k` at the end. -/
def put : List (κ × ν) → κ → ν → List (κ × ν)
  | [], k, v => [(k, v)]
  | e :: t, k, v => if e.1 = k then (k, v) :: t else e :: put t k v

theorem lookup_cons_of_eq (t : List (κ × ν)) (k : κ) (v : ν) :
    ((k, v) :: t).lookup k = some v := by
  simp only [List.lookup_cons, beq_self_eq_true]

theorem lookup_cons_of_ne (t : List (κ × ν)) {k k' : κ} (v : ν) (h : k' ≠ k) :
    ((k, v) :: t).lookup k' = t.lookup k' := by
  simp only [List.lookup_cons, beq_false_of_ne h]

/-- A put answers its own key with the new value and every other key as before. -/
@[simp] theorem lookup_put (t : List (κ × ν)) (k k' : κ) (v : ν) :
    (put t k v).lookup k' = if k' = k then some v else t.lookup k' := by
  induction t with
  | nil =>
      by_cases h : k' = k
      · rw [if_pos h, h, put, lookup_cons_of_eq]
      · rw [if_neg h, put, lookup_cons_of_ne _ _ h]
  | cons e t ih =>
      obtain ⟨k₀, v₀⟩ := e
      by_cases h₀ : k₀ = k
      · -- the key is overwritten where it stands
        subst h₀
        rw [put, if_pos rfl]
        by_cases h : k' = k₀
        · rw [if_pos h, h, lookup_cons_of_eq]
        · rw [if_neg h, lookup_cons_of_ne _ _ h, lookup_cons_of_ne _ _ h]
      · rw [put, if_neg h₀]
        by_cases h : k' = k₀
        · subst h
          rw [lookup_cons_of_eq, if_neg h₀, lookup_cons_of_eq]
        · rw [lookup_cons_of_ne _ _ h, ih, lookup_cons_of_ne _ _ h]

/-- The keys after a put: the old ones, and the new key at the end if it is new. -/
theorem map_fst_put (t : List (κ × ν)) (k : κ) (v : ν) :
    (put t k v).map Prod.fst =
      if k ∈ t.map Prod.fst then t.map Prod.fst else t.map Prod.fst ++ [k] := by
  induction t with
  | nil => rfl
  | cons e t ih =>
      by_cases he : e.1 = k
      · rw [put, if_pos he, List.map_cons, List.map_cons, if_pos (by simp [he]), he]
      · have hne : k ≠ e.1 := Ne.symm he
        simp only [put, if_neg he, List.map_cons, ih, List.mem_cons, hne, false_or]
        split <;> rfl

/-- A put keeps the keys distinct. -/
theorem nodup_map_fst_put {t : List (κ × ν)} (h : (t.map Prod.fst).Nodup) (k : κ) (v : ν) :
    ((put t k v).map Prod.fst).Nodup := by
  rw [map_fst_put]
  split
  · exact h
  · rename_i hk
    exact h.append (List.nodup_singleton k) (List.disjoint_singleton.2 hk)

/-- An entry after a put is an old one or the new one. -/
theorem mem_put {t : List (κ × ν)} {k : κ} {v : ν} {e : κ × ν} (he : e ∈ put t k v) :
    e ∈ t ∨ e = (k, v) := by
  induction t with
  | nil => exact .inr (List.mem_singleton.1 he)
  | cons e₀ t ih =>
      rw [put] at he
      split at he
      · rcases List.mem_cons.1 he with rfl | he
        · exact .inr rfl
        · exact .inl (List.mem_cons_of_mem _ he)
      · rcases List.mem_cons.1 he with rfl | he
        · exact .inl List.mem_cons_self
        · exact (ih he).imp_left (List.mem_cons_of_mem _)

/-- A put of a new key adds it at the end. -/
theorem put_of_not_mem {t : List (κ × ν)} {k : κ} (h : k ∉ t.map Prod.fst) (v : ν) :
    put t k v = t ++ [(k, v)] := by
  induction t with
  | nil => rfl
  | cons e t ih =>
      have hne : e.1 ≠ k := fun he => h (he ▸ List.mem_map_of_mem List.mem_cons_self)
      rw [put, if_neg hne, ih (fun hk => h (List.mem_cons_of_mem _ hk)), List.cons_append]

/-- A table built by puts of the entries of `l` answers a key with the value of its last entry
in `l`, and keys `l` does not hold as `acc` did. -/
theorem lookup_foldl_put (l acc : List (κ × ν)) (k : κ) :
    (l.foldl (fun t e => put t e.1 e.2) acc).lookup k = (l.reverse.lookup k).or (acc.lookup k) := by
  induction l generalizing acc with
  | nil => rfl
  | cons e l ih =>
      rw [List.foldl_cons, ih, lookup_put, List.reverse_cons, List.lookup_append, Option.or_assoc]
      congr 1
      by_cases h : k = e.1
      · rw [if_pos h, h, lookup_cons_of_eq, Option.some_or]
      · rw [if_neg h, lookup_cons_of_ne _ _ h, List.lookup_nil, Option.none_or]

/-- Puts of entries whose keys are new and distinct append them in order. -/
theorem foldl_put_of_nodup (l acc : List (κ × ν))
    (h : (acc.map Prod.fst ++ l.map Prod.fst).Nodup) :
    l.foldl (fun t e => put t e.1 e.2) acc = acc ++ l := by
  induction l generalizing acc with
  | nil => rw [List.foldl_nil, List.append_nil]
  | cons e l ih =>
      have hnew : e.1 ∉ acc.map Prod.fst := by
        intro he
        rw [List.map_cons] at h
        exact List.disjoint_of_nodup_append h he List.mem_cons_self
      rw [List.foldl_cons, put_of_not_mem hnew, ih, List.append_assoc, List.singleton_append]
      rw [List.map_append, List.map_singleton, List.append_assoc, List.singleton_append]
      simpa only [List.map_cons] using h

/-- Looking a key up among the entries of the elements that have one finds the first element
with that key. -/
theorem lookup_filterMap {α : Type*} (key : α → Option κ) (val : α → ν) (l : List α)
    (k : κ) :
    (l.filterMap fun x => (key x).map fun k' => (k', val x)).lookup k =
      (l.find? fun x => key x = some k).map val := by
  induction l with
  | nil => rfl
  | cons x l ih =>
      rw [List.filterMap_cons, List.find?_cons]
      cases hx : key x with
      | none => simpa using ih
      | some k' =>
          by_cases hk : k = k'
          · subst hk
            simp only [Option.map_some, lookup_cons_of_eq, decide_true]
          · simp only [Option.map_some, lookup_cons_of_ne _ _ hk, ih, Option.some.injEq,
              Ne.symm hk, decide_false]

end Table

section Rules

variable {ρ τ : Type*} (p : ρ → Bool) (target : ρ → τ) (policy : τ)

/-- The target of the first rule where `p` holds, or `policy` when there is none. -/
def firstMatch (rules : List ρ) : τ := ((rules.find? p).map target).getD policy

/-- The answer is the policy, when no rule matches, or the target of a rule that matches. -/
theorem firstMatch_cases (rules : List ρ) :
    ((∀ r ∈ rules, p r = false) ∧ firstMatch p target policy rules = policy) ∨
      ∃ r ∈ rules, p r = true ∧ firstMatch p target policy rules = target r := by
  cases hfind : rules.find? p with
  | none =>
      refine .inl ⟨fun r hr => ?_, by rw [firstMatch, hfind]; rfl⟩
      simpa using List.find?_eq_none.1 hfind r hr
  | some r =>
      exact .inr ⟨r, List.mem_of_find?_eq_some hfind, List.find?_some hfind,
        by rw [firstMatch, hfind]; rfl⟩

/-- A rule that matches before the first rule where `q` holds decides the answer, when every
matching rule there has its target. -/
theorem firstMatch_of_mem_takeWhile {q : ρ → Bool} {rules : List ρ} {a : ρ}
    (ha : a ∈ rules.takeWhile (fun r => !q r)) (hpa : p a = true)
    (hpre : ∀ r ∈ rules.takeWhile (fun r => !q r), p r = true → target r = target a) :
    firstMatch p target policy rules = target a := by
  obtain ⟨r, hfind⟩ : ∃ r, (rules.takeWhile (fun r => !q r)).find? p = some r := by
    cases h : (rules.takeWhile (fun r => !q r)).find? p with
    | none => exact absurd hpa (by simpa using List.find?_eq_none.1 h a ha)
    | some r => exact ⟨r, rfl⟩
  have hsplit := (List.takeWhile_append_dropWhile (p := fun r => !q r) (l := rules)).symm
  rw [firstMatch, hsplit, List.find?_append, hfind, Option.some_or, Option.map_some,
    Option.getD_some]
  exact hpre r (List.mem_of_find?_eq_some hfind) (List.find?_some hfind)

end Rules

end EdgeSec.FirstMatch
