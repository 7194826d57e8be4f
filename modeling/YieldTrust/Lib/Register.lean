import YieldTrust.Lib.Ledger

/-!
# YieldTrust.Lib.Register

**Registers** of a transition system: parts of the state that are only replaced as a whole. A step
leaves a register alone or writes a value to it, so the register has what the newest write wrote,
and what is known of every write is known of the register.
-/

namespace Run

variable {σ α τ : Type} {init : σ → Prop} {next : σ → α → σ → Prop} {w : Step σ α → Option τ}
  {tr : List (Step σ α)} {e : Step σ α} {s : σ} {v x : τ}

/-- What the newest write of the trace wrote, and `v` if nothing was written. -/
def lastWritten (w : Step σ α → Option τ) (v : τ) : List (Step σ α) → τ
  | [] => v
  | e :: older => (w e).getD (lastWritten w v older)

theorem lastWritten_of_some (h : w e = some x) : lastWritten w v (e :: tr) = x := by
  simp [lastWritten, h]

theorem lastWritten_of_none (h : w e = none) :
    lastWritten w v (e :: tr) = lastWritten w v tr := by
  simp [lastWritten, h]

/-- What was written last, wherever that was. -/
theorem lastWritten_of_newest {newer older : List (Step σ α)} (hnewer : ∀ e' ∈ newer, w e' = none)
    (h : w e = some x) : lastWritten w v (newer ++ e :: older) = x := by
  induction newer with
  | nil => exact lastWritten_of_some h
  | cons e' newer ih =>
      rw [List.forall_mem_cons] at hnewer
      rw [List.cons_append, lastWritten_of_none hnewer.1]
      exact ih hnewer.2

/-- What is not in the register comes into it only by being written. -/
theorem lastWritten_append_ne {newer older : List (Step σ α)} (hnewer : ∀ e ∈ newer, w e ≠ some x)
    (h : lastWritten w v older ≠ x) : lastWritten w v (newer ++ older) ≠ x := by
  induction newer with
  | nil => exact h
  | cons e newer ih =>
      rw [List.forall_mem_cons] at hnewer
      rw [List.cons_append]
      cases he : w e with
      | none =>
          rw [lastWritten_of_none he]
          exact ih hnewer.2
      | some y =>
          rw [lastWritten_of_some he]
          intro heq
          exact hnewer.1 (heq ▸ he)

/-- **Register rule.** A part of the state that every step leaves alone or writes. -/
theorem register_eq {f : σ → τ} (start : ∀ s, init s → f s = v)
    (step : ∀ {e : Step σ α}, next e.before e.action e.after →
      f e.after = (w e).getD (f e.before)) (h : Run init next tr s) :
    f s = lastWritten w v tr := by
  induction h with
  | start h => exact start _ h
  | @step tr s a s' _ hn ih =>
      have hwrite := step (e := ⟨s, a, s'⟩) hn
      dsimp only at hwrite
      rw [hwrite, ih]
      rfl

/-- Nothing was written, or the value is that of a write after which nothing was written. -/
theorem lastWritten_cases (w : Step σ α → Option τ) (v : τ) (tr : List (Step σ α)) :
    ((∀ e ∈ tr, w e = none) ∧ lastWritten w v tr = v) ∨
      ∃ newer e older, tr = newer ++ e :: older ∧ w e = some (lastWritten w v tr) ∧
        ∀ e' ∈ newer, w e' = none := by
  induction tr with
  | nil => exact .inl ⟨by simp, rfl⟩
  | cons e tr ih =>
      cases he : w e with
      | some x =>
          rw [lastWritten_of_some he]
          exact .inr ⟨[], e, tr, rfl, he, by simp⟩
      | none =>
          rw [lastWritten_of_none he]
          rcases ih with ⟨hnone, hv⟩ | ⟨newer, e', older, rfl, hwrite, hnewer⟩
          · exact .inl ⟨List.forall_mem_cons.mpr ⟨he, hnone⟩, hv⟩
          · exact .inr ⟨e :: newer, e', older, rfl, hwrite, List.forall_mem_cons.mpr ⟨he, hnewer⟩⟩

end Run

namespace Ledger

variable {A σ κ ε : Type} [DecidableEq A] {C : Contract A σ κ ε} {init : Env A σ → Prop}
  {trace : Trace A σ κ} {env : Env A σ}

/-- Nothing on a ledger is later than what it has come to. -/
theorem timestamp_le_of_mem (h : Run init (Next C) trace env) {e : Run.Step (Env A σ) (Event A κ)}
    (he : e ∈ trace) : e.action.timestamp ≤ env.timestamp := by
  induction h with
  | start => cases he
  | @step tr s a s' _ hn ih =>
      obtain ⟨hle, heq⟩ := timestamp_of_next (e := ⟨s, a, s'⟩) hn
      rcases List.mem_cons.mp he with rfl | he
      · exact heq.ge
      · exact (ih he).trans (hle.trans heq.ge)

/-- Nothing on a ledger is earlier than what was there before it. -/
theorem timestamp_le_of_newer {newer older : Trace A σ κ} {e e' : Run.Step (Env A σ) (Event A κ)}
    (h : Run init (Next C) (newer ++ e :: older) env) (he' : e' ∈ newer) :
    e.action.timestamp ≤ e'.action.timestamp := by
  obtain ⟨newest, rest, rfl⟩ := List.append_of_mem he'
  rw [List.append_assoc, List.cons_append] at h
  obtain ⟨hrun, hn, -⟩ := h.suffix.uncons
  have hle := timestamp_le_of_mem hrun (List.mem_append_right rest List.mem_cons_self)
  exact hle.trans (timestamp_of_next hn).1

end Ledger
