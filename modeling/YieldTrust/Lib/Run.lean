import Mathlib.Logic.Basic
import Mathlib.Tactic.Common

/-!
# YieldTrust.Lib.Run

Runs of a transition system and their **traces**. A trace lists the steps of a
run, newest first, each with the state before it, the action and the state after
it, so that a quantity of the history (what was paid, for how long something was
the case) is a recursive function of the trace, and a property of the history is
proved by the same induction as an invariant of the state.
-/

/-- One step of a run. -/
structure Run.Step (σ α : Type) where
  before : σ
  action : α
  after : σ

variable {σ α : Type} {init : σ → Prop} {next : σ → α → σ → Prop}

/-- `Run init next tr s`: the steps `tr`, newest first, lead from an initial
state to `s`. -/
inductive Run (init : σ → Prop) (next : σ → α → σ → Prop) : List (Run.Step σ α) → σ → Prop
  | start {s : σ} (h : init s) : Run init next [] s
  | step {tr : List (Run.Step σ α)} {s : σ} {a : α} {s' : σ} (h : Run init next tr s)
      (hn : next s a s') : Run init next (⟨s, a, s'⟩ :: tr) s'

namespace Run

/-- **Invariant rule.** What holds initially and is preserved by every step
holds at the end of every run. -/
theorem invariant {I : σ → Prop} (hinit : ∀ s, init s → I s)
    (hstep : ∀ s a s', I s → next s a s' → I s') {tr : List (Run.Step σ α)} {s : σ}
    (h : Run init next tr s) : I s := by
  induction h with
  | start h => exact hinit _ h
  | step _ hn ih => exact hstep _ _ _ ih hn

/-- A run from fewer states. -/
theorem mono {init' : σ → Prop} (himp : ∀ s, init s → init' s) {tr : List (Run.Step σ α)} {s : σ}
    (h : Run init next tr s) : Run init' next tr s := by
  induction h with
  | start h => exact .start (himp _ h)
  | step _ hn ih => exact .step ih hn

/-- A run whose steps all meet `p`. -/
theorem restrict {p : Step σ α → Prop} {tr : List (Run.Step σ α)} {s : σ}
    (h : Run init next tr s) (hp : ∀ e ∈ tr, p e) :
    Run init (fun s a s' => next s a s' ∧ p ⟨s, a, s'⟩) tr s := by
  induction h with
  | start h => exact .start h
  | step _ hn ih =>
      rw [List.forall_mem_cons] at hp
      exact .step (ih hp.2) ⟨hn, hp.1⟩

/-- A run that goes on from the end of another one. -/
theorem append {older newer : List (Run.Step σ α)} {s s' : σ} (h : Run init next older s)
    (h' : Run (· = s) next newer s') : Run init next (newer ++ older) s' := by
  induction h' with
  | start heq => exact heq ▸ h
  | step _ hn ih => exact .step ih hn

/-- The newest step of a run and the run before it. -/
theorem uncons {tr : List (Run.Step σ α)} {e : Step σ α} {s : σ} (h : Run init next (e :: tr) s) :
    Run init next tr e.before ∧ next e.before e.action e.after ∧ e.after = s := by
  cases h with
  | step h hn => exact ⟨h, hn, rfl⟩

/-- A run up to one of its steps. -/
theorem suffix {newer older : List (Run.Step σ α)} {e : Step σ α} {s : σ}
    (h : Run init next (newer ++ e :: older) s) : Run init next (e :: older) e.after := by
  induction newer generalizing s with
  | nil =>
      obtain ⟨hrun, hn, -⟩ := h.uncons
      exact .step hrun hn
  | cons e' newer ih => exact ih h.uncons.1

/-- Every step of a run starts in the state that the older steps lead to. -/
theorem of_mem {tr : List (Run.Step σ α)} {s : σ} (h : Run init next tr s) {e : Step σ α}
    (he : e ∈ tr) : ∃ older, Run init next older e.before ∧ next e.before e.action e.after := by
  induction h with
  | start => simp at he
  | step h hn ih =>
      rcases List.mem_cons.mp he with rfl | he
      · exact ⟨_, h, hn⟩
      · exact ih he

/-! ### Components -/

/-- **Event rule.** Let every step of a run be one of the events `E`. What holds
initially of a part `f` of the state, and is kept by every event, holds of the part
and the trace at the end of every run. -/
theorem event_induction {τ : Type} {f : σ → τ} {E : Step σ α → Prop}
    {I : List (Step σ α) → τ → Prop}
    (event : ∀ {tr : List (Step σ α)} {e : Step σ α}, Run init next tr e.before →
      next e.before e.action e.after → E e)
    (start : ∀ s, init s → I [] (f s))
    (step : ∀ {tr : List (Step σ α)} {e : Step σ α}, Run init next tr e.before →
      I tr (f e.before) → E e → I (e :: tr) (f e.after))
    {tr : List (Step σ α)} {s : σ} (h : Run init next tr s) : I tr (f s) := by
  induction h with
  | start h => exact start _ h
  | @step tr s a s' h hn ih => exact step (e := ⟨s, a, s'⟩) h ih (event h hn)

/-- **Key rule.** An operation on the part at the key `j`, seen from the part at `i`. -/
theorem keyed_cases {κ ω : Type} [DecidableEq κ] {i j : κ} {o : ω} {P : Prop} {Q : ω → Prop}
    (self : j = i → Q o) (other : j ≠ i → P) :
    ((if j = i then some o else none) = none ∧ P) ∨
      ∃ o', (if j = i then some o else none) = some o' ∧ Q o' := by
  by_cases h : j = i
  · exact .inr ⟨o, if_pos h, self h⟩
  · exact .inl ⟨if_neg h, other h⟩

/-- **Component rule.** Let `f` be a part of the state that only operations
change: a step either leaves it alone or performs an operation `o`, and then `R`
holds of the part before and after. What holds initially, and is kept by the steps
of both kinds, holds of the part and the trace at the end of every run. -/
theorem component_induction {τ ω : Type} {f : σ → τ} {op : Step σ α → Option ω}
    {R : σ → α → ω → τ → τ → Prop} {I : List (Step σ α) → τ → Prop}
    (component : ∀ {s a s'}, next s a s' → (op ⟨s, a, s'⟩ = none ∧ f s' = f s) ∨
      ∃ o, op ⟨s, a, s'⟩ = some o ∧ R s a o (f s) (f s'))
    (start : ∀ s, init s → I [] (f s))
    (idle : ∀ {tr : List (Step σ α)} {e : Step σ α}, Run init next tr e.before →
      I tr (f e.before) → op e = none → f e.after = f e.before →
      I (e :: tr) (f e.after))
    (operated : ∀ {tr : List (Step σ α)} {e : Step σ α} {o : ω}, Run init next tr e.before →
      I tr (f e.before) → op e = some o → R e.before e.action o (f e.before) (f e.after) →
      I (e :: tr) (f e.after))
    {tr : List (Step σ α)} {s : σ} (h : Run init next tr s) : I tr (f s) := by
  refine event_induction (fun _ hn => component hn) start (fun hrun ih hevent => ?_) h
  rcases hevent with ⟨hop, hview⟩ | ⟨o, hop, hR⟩
  · exact idle hrun ih hop hview
  · exact operated hrun ih hop hR

/-- The steps after the last one that meets `p`; all of them if there is none. -/
def since (p : Step σ α → Bool) (tr : List (Step σ α)) : List (Step σ α) :=
  tr.takeWhile fun e => !p e

theorem since_cons_of_pos {p : Step σ α → Bool} {e : Step σ α} (h : p e = true)
    (tr : List (Step σ α)) : since p (e :: tr) = [] := by
  simp [since, h]

theorem since_cons_of_neg {p : Step σ α → Bool} {e : Step σ α} (h : p e = false)
    (tr : List (Step σ α)) : since p (e :: tr) = e :: since p tr := by
  simp [since, h]

theorem since_subset (p : Step σ α → Bool) (tr : List (Step σ α)) : since p tr ⊆ tr :=
  (List.takeWhile_prefix _).subset

/-! ### Properties of all steps -/

/-- `p` holds of every step of a trace and the steps before it. -/
def Each (p : Step σ α → List (Step σ α) → Prop) : List (Step σ α) → Prop
  | [] => True
  | e :: older => p e older ∧ Each p older

instance decidableEach {p : Step σ α → List (Step σ α) → Prop}
    [∀ e older, Decidable (p e older)] : (tr : List (Step σ α)) → Decidable (Each p tr)
  | [] => inferInstanceAs (Decidable True)
  | e :: older =>
    have := decidableEach (p := p) older
    inferInstanceAs (Decidable (p e older ∧ Each p older))

/-- Two properties that agree on the steps of runs, where `c` holds, agree on runs. -/
theorem each_iff {c p q : Step σ α → List (Step σ α) → Prop} {tr : List (Step σ α)} {s : σ}
    (h : Run init next tr s) (hc : Each c tr)
    (hiff : ∀ {e : Step σ α} {older : List (Step σ α)}, Run init next (e :: older) e.after →
      c e older → (p e older ↔ q e older)) : Each p tr ↔ Each q tr := by
  induction h with
  | start => exact Iff.rfl
  | step h hn ih => exact and_congr (hiff (.step h hn) hc.1) (ih hc.2)

/-- What follows from a property of the steps of a run, one at a time and together. -/
theorem each_imp {p q : Step σ α → List (Step σ α) → Prop} {tr : List (Step σ α)} {s : σ}
    (h : Run init next tr s) (hp : Each p tr)
    (himp : ∀ {e : Step σ α} {older : List (Step σ α)}, Run init next (e :: older) e.after →
      Each p (e :: older) → q e older) : Each q tr := by
  induction h with
  | start => exact trivial
  | step h hn ih => exact ⟨himp (.step h hn) hp, ih hp.2⟩

theorem each_and {p q : Step σ α → List (Step σ α) → Prop} {tr : List (Step σ α)} :
    Each (fun e older => p e older ∧ q e older) tr ↔ Each p tr ∧ Each q tr := by
  induction tr with
  | nil => exact (and_self_iff (a := True)).symm
  | cons e tr ih =>
      unfold Each
      rw [ih]
      exact and_and_and_comm

/-- **Exactness rule.** Let `J` and `I` hold initially, and let a step from a state with
both lead to one with `I` exactly if `q` holds of the step, and to one with `J` if `q`
does. Then `I` holds at every step of a run exactly if `q` does. -/
theorem each_iff_of_invariant {I J : List (Step σ α) → σ → Prop}
    {q : Step σ α → List (Step σ α) → Prop} (start : ∀ s, init s → J [] s ∧ I [] s)
    (step : ∀ {e : Step σ α} {older : List (Step σ α)}, Run init next older e.before →
      next e.before e.action e.after → J older e.before → I older e.before →
      (q e older → J (e :: older) e.after) ∧ (I (e :: older) e.after ↔ q e older))
    {tr : List (Step σ α)} {s : σ} (h : Run init next tr s) :
    Each (fun e older => I (e :: older) e.after) tr ↔ Each q tr := by
  have hlast {tr : List (Step σ α)} {s : σ} (h : Run init next tr s) (hall : Each q tr) :
      J tr s ∧ I tr s := by
    induction h with
    | start h => exact start _ h
    | @step tr s a s' h hn ih =>
        obtain ⟨hJ, hI⟩ := ih hall.2
        obtain ⟨hkept, hiff⟩ := step (e := ⟨s, a, s'⟩) h hn hJ hI
        exact ⟨hkept hall.1, hiff.mpr hall.1⟩
  induction h with
  | start => exact Iff.rfl
  | @step tr s a s' h hn ih =>
      have hiff (hall : Each q tr) :=
        (step (e := ⟨s, a, s'⟩) h hn (hlast h hall).1 (hlast h hall).2).2
      constructor
      · intro ⟨hnew, hall⟩
        exact ⟨(hiff (ih.mp hall)).mp hnew, ih.mp hall⟩
      · intro ⟨hnew, hall⟩
        exact ⟨(hiff hall).mpr hnew, ih.mpr hall⟩

/-- The exactness rule for a property `p` of the steps. Where `J` holds before a step, let the
step have `p` exactly if it has `q`, and `J` hold after it if it has `q`. -/
theorem each_iff_of_kept {J : List (Step σ α) → σ → Prop}
    {p q : Step σ α → List (Step σ α) → Prop} (start : ∀ s, init s → J [] s)
    (step : ∀ {e : Step σ α} {older : List (Step σ α)}, Run init next older e.before →
      next e.before e.action e.after → J older e.before →
      (q e older → J (e :: older) e.after) ∧ (p e older ↔ q e older))
    {tr : List (Step σ α)} {s : σ} (h : Run init next tr s) : Each p tr ↔ Each q tr := by
  let I : List (Step σ α) → σ → Prop
    | [], _ => True
    | e :: older, _ => p e older
  refine each_iff_of_invariant (I := I) (fun s hs => ⟨start s hs, trivial⟩) ?_ h
  intro e older hrun hn hJ _
  exact step hrun hn hJ

/-- The exactness rule for an `I` that needs no other invariant. -/
theorem each_iff_of_step {I : List (Step σ α) → σ → Prop}
    {q : Step σ α → List (Step σ α) → Prop} (start : ∀ s, init s → I [] s)
    (step : ∀ {e : Step σ α} {older : List (Step σ α)}, Run init next older e.before →
      next e.before e.action e.after → I older e.before → (I (e :: older) e.after ↔ q e older))
    {tr : List (Step σ α)} {s : σ} (h : Run init next tr s) :
    Each (fun e older => I (e :: older) e.after) tr ↔ Each q tr :=
  each_iff_of_invariant (J := fun _ _ => True) (fun s hs => ⟨trivial, start s hs⟩)
    (fun hrun hn _ hI => ⟨fun _ => trivial, step hrun hn hI⟩) h

/-- The exactness rule for runs whose steps all meet `c`. -/
theorem each_iff_of_step_when {I : List (Step σ α) → σ → Prop}
    {c q : Step σ α → List (Step σ α) → Prop} (start : ∀ s, init s → I [] s)
    (step : ∀ {e : Step σ α} {older : List (Step σ α)}, Run init next older e.before →
      next e.before e.action e.after → Each c (e :: older) → I older e.before →
      (I (e :: older) e.after ↔ q e older))
    {tr : List (Step σ α)} {s : σ} (h : Run init next tr s) (hc : Each c tr) :
    Each (fun e older => I (e :: older) e.after) tr ↔ Each q tr := by
  have hwhen {p : Step σ α → List (Step σ α) → Prop} :
      Each p tr ↔ Each (fun e older => Each c (e :: older) → p e older) tr := by
    clear h
    induction tr with
    | nil => exact Iff.rfl
    | cons e tr ih => exact and_congr ⟨fun hp _ => hp, fun hp => hp hc⟩ (ih hc.2)
  rw [hwhen, hwhen (p := q)]
  exact each_iff_of_step (I := fun tr s => Each c tr → I tr s) (fun s hs _ => start s hs)
    (fun hrun hn hI => forall_congr' fun hc => step hrun hn hc (hI hc.2)) h

/-! ### Running a list of actions -/

/-- Perform `actions`, oldest first, after the trace `tr` that ended in `s`. -/
def replayFrom (exec : σ → α → σ) : List (Run.Step σ α) → σ → List α → List (Run.Step σ α) × σ
  | tr, s, [] => (tr, s)
  | tr, s, a :: actions => replayFrom exec (⟨s, a, exec s a⟩ :: tr) (exec s a) actions

/-- Perform `actions`, oldest first, from `s`. -/
def replay (exec : σ → α → σ) (s : σ) (actions : List α) : List (Run.Step σ α) × σ :=
  replayFrom exec [] s actions

/-- The steps `actions` would take from `s` are all allowed. -/
def Enabled (exec : σ → α → σ) (next : σ → α → σ → Prop) : σ → List α → Prop
  | _, [] => True
  | s, a :: actions => next s a (exec s a) ∧ Enabled exec next (exec s a) actions

theorem replayFrom_run {exec : σ → α → σ} {actions : List α} {tr : List (Run.Step σ α)} {s : σ}
    (h : Run init next tr s) (he : Enabled exec next s actions) :
    Run init next (replayFrom exec tr s actions).1 (replayFrom exec tr s actions).2 := by
  induction actions generalizing tr s with
  | nil => exact h
  | cons a actions ih => exact ih (.step h he.1) he.2

/-- Performing allowed actions from an initial state is a run. -/
theorem replay_run {exec : σ → α → σ} {actions : List α} {s : σ} (h : init s)
    (he : Enabled exec next s actions) :
    Run init next (replay exec s actions).1 (replay exec s actions).2 :=
  replayFrom_run (.start h) he

end Run
