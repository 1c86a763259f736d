import Mathlib

/-!
# Command-driven state machines: runs, reachable states and simulation

Most components of a network daemon are state machines driven by commands: a store, a
queue, a ticket slot, a rule table.  Each is given by a step function
`step : σ → α → σ × β` that computes, from a state and a command, the next state and the
command's reply.  This file is the small library every such component in this development
is verified with:

* `run` replays a list of commands and collects the replies, with `run_append` to cut a run
  in two;
* `Reachable` is the set of states a run can reach, with `Reachable.of_run` and
  `Reachable.invariant` (an invariant that holds initially and is preserved by one step
  holds in every reachable state);
* `run_sim` is forward simulation: a relation between two machines that one step of each
  preserves, and on which they give the same reply, relates their runs, which then give the
  same replies;
* `transitions` lists the steps a run takes, each with the state before and after, so that a
  property of single steps (`mem_transitions`) can be read along a whole run;
* `run_trace_invariant` is the invariant rule for a property of the state together with the
  replies given so far, for facts about a run's whole history, and `transitions_invariant`
  the same with the steps taken so far, commands included;
* `transitions_guarded_invariant` is the invariant rule for runs whose every step meets a
  condition, for facts that hold only along such runs, and `run_sim_guarded` the simulation
  rule for such runs.

Nothing here names the program; the later modules instantiate `σ`, `α` and `β`.
-/

namespace EdgeSec.Machine

variable {σ τ α β : Type*}

/-- Replay the commands `cs` from `s`, collecting the replies in order. -/
def run (step : σ → α → σ × β) : σ → List α → σ × List β
  | s, [] => (s, [])
  | s, c :: cs =>
      let r := run step (step s c).1 cs
      (r.1, (step s c).2 :: r.2)

@[simp] theorem run_nil (step : σ → α → σ × β) (s : σ) : run step s [] = (s, []) := rfl

@[simp] theorem run_cons (step : σ → α → σ × β) (s : σ) (c : α) (cs : List α) :
    run step s (c :: cs) =
      ((run step (step s c).1 cs).1, (step s c).2 :: (run step (step s c).1 cs).2) := rfl

/-- Running `cs ++ ds` is running `cs`, then `ds` from where `cs` stopped. -/
theorem run_append (step : σ → α → σ × β) (s : σ) (cs ds : List α) :
    run step s (cs ++ ds) =
      ((run step (run step s cs).1 ds).1, (run step s cs).2 ++ (run step (run step s cs).1 ds).2) := by
  induction cs generalizing s with
  | nil => rfl
  | cons c cs ih => simp [ih]

/-! ## Reachable states -/

/-- The states a run of `step` from `init` can reach. -/
inductive Reachable (step : σ → α → σ × β) (init : σ) : σ → Prop
  | init : Reachable step init init
  | step {s : σ} (c : α) : Reachable step init s → Reachable step init (step s c).1

variable {step : σ → α → σ × β} {init : σ}

/-- Every state a run ends in is reachable. -/
theorem Reachable.of_run_from {s : σ} (hs : Reachable step init s) (cs : List α) :
    Reachable step init (run step s cs).1 := by
  induction cs generalizing s with
  | nil => exact hs
  | cons c cs ih => exact ih (hs.step c)

theorem Reachable.of_run (cs : List α) : Reachable step init (run step init cs).1 :=
  Reachable.init.of_run_from cs

/-- The invariant rule: what holds initially and is preserved by every step holds in every
reachable state. -/
theorem Reachable.invariant (P : σ → Prop) (h0 : P init) (hstep : ∀ s c, P s → P (step s c).1)
    {s : σ} (hs : Reachable step init s) : P s := by
  induction hs with
  | init => exact h0
  | step c _ ih => exact hstep _ c ih

/-! ## Forward simulation -/

/-- Forward simulation: a relation that one step of each machine preserves, and on which
the two give the same reply, relates their runs, and the runs give the same replies. -/
theorem run_sim {step₁ : σ → α → σ × β} {step₂ : τ → α → τ × β} (R : σ → τ → Prop)
    (hsim : ∀ s t c, R s t → R (step₁ s c).1 (step₂ t c).1 ∧ (step₁ s c).2 = (step₂ t c).2)
    {s : σ} {t : τ} (hst : R s t) (cs : List α) :
    R (run step₁ s cs).1 (run step₂ t cs).1 ∧ (run step₁ s cs).2 = (run step₂ t cs).2 := by
  induction cs generalizing s t with
  | nil => exact ⟨hst, rfl⟩
  | cons c cs ih =>
      obtain ⟨hR, hreply⟩ := hsim s t c hst
      obtain ⟨hR', hreplies⟩ := ih hR
      simp only [run_cons, hreply, hreplies]
      exact ⟨hR', trivial⟩

/-! ## The steps of a run -/

/-- One step of a run: the state before, the command, the state after and the reply. -/
structure Transition (σ α β : Type*) where
  before : σ
  cmd : α
  after : σ
  reply : β

/-- The steps a run of `cs` from `s` takes, in order. -/
def transitions (step : σ → α → σ × β) : σ → List α → List (Transition σ α β)
  | _, [] => []
  | s, c :: cs => ⟨s, c, (step s c).1, (step s c).2⟩ :: transitions step (step s c).1 cs

/-- Every step of a run is a step of the machine. -/
theorem mem_transitions {s : σ} {cs : List α} {x : Transition σ α β}
    (hx : x ∈ transitions step s cs) :
    x.after = (step x.before x.cmd).1 ∧ x.reply = (step x.before x.cmd).2 := by
  induction cs generalizing s with
  | nil => simp [transitions] at hx
  | cons c cs ih =>
      rcases List.mem_cons.1 hx with rfl | hx
      · exact ⟨rfl, rfl⟩
      · exact ih hx

/-- The invariant rule over histories: a property of the state and the replies so far that
holds at the start and is kept by every step holds at the end of every run. -/
theorem run_trace_invariant (P : σ → List β → Prop) {s : σ} (h0 : P s [])
    (hstep : ∀ s' tr c, P s' tr → P (step s' c).1 (tr ++ [(step s' c).2])) (cs : List α) :
    P (run step s cs).1 (run step s cs).2 := by
  -- generalise over the history already given, so the induction can carry it
  suffices h : ∀ (tr : List β) (s : σ), P s tr → P (run step s cs).1 (tr ++ (run step s cs).2) by
    simpa using h [] s h0
  induction cs with
  | nil => intro tr s hs; simpa using hs
  | cons c cs ih =>
      intro tr s hs
      have h := ih (tr ++ [(step s c).2]) (step s c).1 (hstep s tr c hs)
      simpa using h

/-- The invariant rule over the steps taken: a property of the state and the steps taken so
far that holds at the start and is kept by every step holds at the end of every run. -/
theorem transitions_invariant (P : σ → List (Transition σ α β) → Prop) {s : σ} (h0 : P s [])
    (hstep : ∀ s' ts c, P s' ts → P (step s' c).1 (ts ++ [⟨s', c, (step s' c).1, (step s' c).2⟩]))
    (cs : List α) : P (run step s cs).1 (transitions step s cs) := by
  -- generalise over the steps already taken, as for `run_trace_invariant`
  suffices h : ∀ (ts : List (Transition σ α β)) (s : σ), P s ts →
      P (run step s cs).1 (ts ++ transitions step s cs) by
    simpa using h [] s h0
  induction cs with
  | nil => intro ts s hs; simpa [transitions] using hs
  | cons c cs ih =>
      intro ts s hs
      have h := ih (ts ++ [⟨s, c, (step s c).1, (step s c).2⟩]) (step s c).1 (hstep s ts c hs)
      simpa [transitions] using h

/-- The invariant rule under a guard on the steps: when every step of a run meets `G`, and a
step that meets `G` from a state with `P` leads to a state with `P`, every state the run
passes through has `P`. -/
theorem transitions_guarded_invariant (P : σ → Prop) (G : Transition σ α β → Prop) {s : σ}
    (h0 : P s) (hstep : ∀ s c, P s → G ⟨s, c, (step s c).1, (step s c).2⟩ → P (step s c).1)
    {cs : List α} (hG : ∀ t ∈ transitions step s cs, G t) :
    ∀ t ∈ transitions step s cs, P t.before ∧ P t.after := by
  induction cs generalizing s with
  | nil => simp [transitions]
  | cons c cs ih =>
      have h1 : P (step s c).1 := hstep s c h0 (hG _ List.mem_cons_self)
      intro t ht
      rcases List.mem_cons.1 ht with rfl | ht
      · exact ⟨h0, h1⟩
      · exact ih h1 (fun t' ht' => hG t' (List.mem_cons_of_mem _ ht')) t ht

/-- Forward simulation along a run whose every step meets a guard: a relation that one guarded
step of each machine preserves, with the same reply, relates their runs. -/
theorem run_sim_guarded {step₁ : σ → α → σ × β} {step₂ : τ → α → τ × β} (R : σ → τ → Prop)
    (G : σ → α → Prop)
    (hsim : ∀ s t c, R s t → G s c →
      R (step₁ s c).1 (step₂ t c).1 ∧ (step₁ s c).2 = (step₂ t c).2)
    {s : σ} {t : τ} (hst : R s t) {cs : List α}
    (hG : ∀ x ∈ transitions step₁ s cs, G x.before x.cmd) :
    R (run step₁ s cs).1 (run step₂ t cs).1 ∧ (run step₁ s cs).2 = (run step₂ t cs).2 := by
  induction cs generalizing s t with
  | nil => exact ⟨hst, rfl⟩
  | cons c cs ih =>
      obtain ⟨hR, hreply⟩ := hsim s t c hst (hG _ List.mem_cons_self)
      obtain ⟨hR', hreplies⟩ := ih hR fun x hx => hG x (List.mem_cons_of_mem _ hx)
      simp only [run_cons, hreply, hreplies]
      exact ⟨hR', trivial⟩

end EdgeSec.Machine
