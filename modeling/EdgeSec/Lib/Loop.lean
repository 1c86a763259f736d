import Mathlib

/-!
# `while` loops with fuel

A C loop whose body both updates the state and decides whether to go on,
`while ((go = body(&s)))`, is modelled by `loop body fuel s`: at most `fuel` iterations,
and `none` when the fuel runs out before the body says stop.  A proof that such a loop ends
exhibits the iterations it goes through; the lemmas here turn that into the loop's result
for every large enough fuel, so that a termination claim is stated as "enough fuel gives
the result" and never as "if it returns, the result is right".

* `Iterates body n s t`: `n` iterations from `s` that all go on end in `t`
  (`Iterates.trans`, `Iterates.single`);
* `loop_of_iterates`: the loop runs through such iterations, using up their fuel;
* `loop_mono`: more fuel does not change a result;
* `loop_eq_of_iterates_exit`: iterations that go on, then one that stops, give the result
  for every fuel past their number;
* `exists_iterates_exit`: an invariant and a measure that every iteration going on decreases
  give such iterations, and `loop_eq_none_of_forever` is the other side: an invariant under
  which every iteration goes on makes the loop run out of any fuel.
-/

namespace EdgeSec.Loop

variable {σ : Type*} (body : σ → Bool × σ)

/-- At most `fuel` iterations of `body`, stopping after the first one that says stop. -/
def loop : ℕ → σ → Option σ
  | 0, _ => none
  | fuel + 1, s => if (body s).1 then loop fuel (body s).2 else some (body s).2

/-- `n` iterations from `s` that all go on end in `t`. -/
inductive Iterates : ℕ → σ → σ → Prop
  | refl (s : σ) : Iterates 0 s s
  | step {n : ℕ} {s t : σ} : (body s).1 = true → Iterates n (body s).2 t → Iterates (n + 1) s t

variable {body}

theorem Iterates.single {s : σ} (h : (body s).1 = true) : Iterates body 1 s (body s).2 :=
  .step h (.refl _)

theorem Iterates.trans {m n : ℕ} {s t u : σ} (h₁ : Iterates body m s t)
    (h₂ : Iterates body n t u) : Iterates body (m + n) s u := by
  induction h₁ with
  | refl => simpa using h₂
  | step hgo _ ih =>
      rw [Nat.add_right_comm]
      exact .step hgo (ih h₂)

/-- Iterations that go on use up their fuel and leave the loop where they end. -/
theorem loop_of_iterates {n : ℕ} {s t : σ} (h : Iterates body n s t) (fuel : ℕ) :
    loop body (n + fuel) s = loop body fuel t := by
  induction h with
  | refl => simp
  | step hgo _ ih =>
      rw [Nat.add_right_comm, loop, if_pos hgo]
      exact ih

/-- An iteration that says stop ends the loop. -/
theorem loop_exit {s : σ} (h : (body s).1 = false) (fuel : ℕ) :
    loop body (fuel + 1) s = some (body s).2 := by
  rw [loop, if_neg (by simp [h])]

/-- More fuel does not change a result. -/
theorem loop_mono {fuel fuel' : ℕ} {s t : σ} (h : loop body fuel s = some t)
    (hle : fuel ≤ fuel') : loop body fuel' s = some t := by
  induction fuel generalizing s fuel' with
  | zero => simp [loop] at h
  | succ fuel ih =>
      obtain ⟨fuel', rfl⟩ : ∃ f, fuel' = f + 1 := ⟨fuel' - 1, by omega⟩
      rw [loop] at h ⊢
      split
      · rename_i hgo
        rw [if_pos hgo] at h
        exact ih h (by omega)
      · rename_i hgo
        rwa [if_neg hgo] at h

/-- Iterations that go on, then one that stops: the loop's result for every fuel past
their number. -/
theorem loop_eq_of_iterates_exit {n : ℕ} {s t : σ} (h : Iterates body n s t)
    (hexit : (body t).1 = false) (fuel : ℕ) (hfuel : n + 1 ≤ fuel) :
    loop body fuel s = some (body t).2 := by
  have hrun : loop body (n + 1) s = some (body t).2 := by
    rw [loop_of_iterates h 1]
    exact loop_exit hexit 0
  exact loop_mono hrun hfuel

/-- An invariant under which every iteration goes on: the loop never ends, whatever the fuel. -/
theorem loop_eq_none_of_forever (P : σ → Prop)
    (hgo : ∀ s, P s → (body s).1 = true ∧ P (body s).2) :
    ∀ (fuel : ℕ) (s : σ), P s → loop body fuel s = none := by
  intro fuel
  induction fuel with
  | zero => intro s _; rfl
  | succ fuel ih =>
      intro s hs
      obtain ⟨hgo', hP⟩ := hgo s hs
      rw [loop, if_pos hgo']
      exact ih _ hP

/-- An invariant that the iterations which go on keep, and a measure they decrease: from a
state with the invariant the loop stops, after at most as many iterations as the measure, in
a state with the invariant. -/
theorem exists_iterates_exit (P : σ → Prop) (μ : σ → ℕ)
    (hstep : ∀ s, P s → (body s).1 = true → P (body s).2 ∧ μ (body s).2 < μ s) :
    ∀ s, P s → ∃ n t, Iterates body n s t ∧ (body t).1 = false ∧ n ≤ μ s ∧ P t := by
  intro s hs
  -- strong induction on the measure of the state the loop is in
  induction hμ : μ s using Nat.strong_induction_on generalizing s with
  | _ m ih =>
      cases hgo : (body s).1 with
      | false => exact ⟨0, s, .refl s, hgo, Nat.zero_le _, hs⟩
      | true =>
          obtain ⟨hP, hlt⟩ := hstep s hs hgo
          obtain ⟨n, t, hit, hexit, hn, ht⟩ := ih (μ (body s).2) (hμ ▸ hlt) (body s).2 hP rfl
          exact ⟨n + 1, t, .step hgo hit, hexit, by omega, ht⟩

end EdgeSec.Loop
