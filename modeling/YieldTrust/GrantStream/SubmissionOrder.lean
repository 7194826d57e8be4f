import YieldTrust.GrantStream.MilestoneDeposits

/-!
# YieldTrust.GrantStream.SubmissionOrder

**Milestone submissions are ordered.** The nonces of the submissions for a grant are `0, 1, 2, …`
without a gap, so none can be replayed; no milestone is submitted twice, and the proof of every
submission stays in storage until the grant is pruned.
-/

namespace YieldTrust.GrantStream

open Fallible

variable {trace older : Trace} {env env' : Env} {e : Run.Step Env Event} {grantId : Nat}

/-! ### The submissions of a grant -/

structure Submission where
  index : Nat
  nonce : Nat
  proof : String
  deriving DecidableEq

/-- The submission for the grant that the step made. -/
def submittedBy (grantId : Nat) (e : Run.Step Env Event) : Option Submission :=
  match called e with
  | some (.submitMilestoneProof id index proof nonce) =>
    if id = grantId then some ⟨index, nonce, proof⟩ else none
  | _ => none

/-- The step pruned the grant. -/
def prunedBy (grantId : Nat) (e : Run.Step Env Event) : Bool :=
  match called e with
  | some (.pruneFinalizedGrant id _) => id = grantId
  | _ => false

/-- The submissions since the grant was last pruned, newest first. -/
def submittedSince (grantId : Nat) (trace : Trace) : List Submission :=
  (Run.since (prunedBy grantId) trace).filterMap (submittedBy grantId)

/-- The nonce that the next submission has to have. -/
def expectedNonce (env : Env) (grantId : Nat) : Nat := (env.milestoneSubmitNonce grantId).getD 0

/-- What a step does to the nonce and the milestones of the grant. -/
inductive SubmissionEffect (grantId : Nat) (e : Run.Step Env Event) : Prop
  | kept (hnone : submittedBy grantId e = none) (hunpruned : prunedBy grantId e = false)
      (hnonce : expectedNonce e.after grantId = expectedNonce e.before grantId)
      (hmilestone : e.after.milestone grantId = e.before.milestone grantId)
  | submitted {s : Submission} {grant : Grant} (hsubmitted : submittedBy grantId e = some s)
      (hunpruned : prunedBy grantId e = false) (hgrant : e.before.grants grantId = some grant)
      (hsigned : grant.recipient ∈ e.action.auths)
      (hfirst : e.before.milestone grantId s.index = none)
      (hexpected : s.nonce = expectedNonce e.before grantId)
      (hnonce : expectedNonce e.after grantId = s.nonce + 1)
      (hmilestone : e.after.milestone grantId =
        Function.update (e.before.milestone grantId) s.index (some s.proof))
  | pruned (hpruned : prunedBy grantId e = true) (hnonce : expectedNonce e.after grantId = 0)

/-- What `submit_milestone_proof` checks, and how it counts. -/
theorem submitMilestoneProof_nonce {index nonce : Nat} {proof : String}
    (h : submitMilestoneProof env grantId index proof nonce = .ok env') :
    ∃ grant, env.grants grantId = some grant ∧ grant.recipient ∈ env.auths ∧
      nonce = expectedNonce env grantId ∧
      env'.milestoneSubmitNonce =
        Function.update env.milestoneSubmitNonce grantId (some (nonce + 1)) := by
  simp only [submitMilestoneProof, readGrant, readNativeToken, bind_eq_ok, okOr_eq_ok, ensure_eq_ok,
    requireAuth_eq_ok, transfer_eq_ok, U64.checkedAdd_eq_some, pure_eq_ok] at h
  obtain ⟨grant, hgrant, _, hsigned, _, -, _, -, _, hnonce, _, -, _, ⟨_, -, rfl⟩, _, ⟨-, rfl⟩,
    rfl⟩ := h
  exact ⟨grant, hgrant, hsigned, hnonce, rfl⟩

/-- Only submissions and prunings change the nonce. -/
theorem expectedNonce_of_exec {call : Call} (h : call.exec env = .ok env')
    (hsubmit : ∀ index proof nonce, call ≠ .submitMilestoneProof grantId index proof nonce)
    (hprune : ∀ relayer, call ≠ .pruneFinalizedGrant grantId relayer) :
    expectedNonce env' grantId = expectedNonce env grantId ∧
      env'.milestone grantId = env.milestone grantId := by
  unfold expectedNonce
  by_cases hwrites : Region.milestones ∈ call.writes
  · cases call <;> simp [Call.writes] at hwrites
    case submitMilestoneProof id index proof nonce =>
      have hid : grantId ≠ id := by
        rintro rfl
        exact hsubmit index proof nonce rfl
      obtain ⟨_, _, -, -, -, -, hmilestone, -⟩ := submitMilestoneProof_eq_ok h
      obtain ⟨_, -, -, -, hnonce⟩ := submitMilestoneProof_nonce h
      rw [hnonce, hmilestone, Function.update_of_ne hid, Function.update_of_ne hid]
      exact ⟨rfl, rfl⟩
    case approveMilestoneSubmission id index =>
      simp only [Call.exec, approveMilestoneSubmission, bind_eq_ok, transfer_eq_ok, pure_eq_ok] at h
      obtain ⟨_, -, _, -, _, -, _, -, _, ⟨_, -, rfl⟩, rfl⟩ := h
      exact ⟨rfl, rfl⟩
    case slashMsSubmissionDeposit id index =>
      simp only [Call.exec, slashMsSubmissionDeposit, bind_eq_ok, transfer_eq_ok, pure_eq_ok] at h
      obtain ⟨_, -, _, -, _, -, _, -, _, ⟨_, -, rfl⟩, rfl⟩ := h
      exact ⟨rfl, rfl⟩
    case pruneFinalizedGrant id relayer =>
      have hid : grantId ≠ id := by
        rintro rfl
        exact hprune relayer rfl
      obtain ⟨-, -, -, hnonce, hmilestone, -⟩ := pruneFinalizedGrant_left h
      rw [hnonce, hmilestone, Function.update_of_ne hid, Function.update_of_ne hid]
      exact ⟨rfl, rfl⟩
  · obtain ⟨hmilestone, hnonce, -⟩ := (frame_of_exec h).same .milestones hwrites
    rw [hmilestone, hnonce]
    exact ⟨rfl, rfl⟩

theorem submissionEffect_of_next (hn : Next e.before e.action e.after) (grantId : Nat) :
    SubmissionEffect grantId e := by
  rcases called_of_next hn with ⟨hcalled, hframe⟩ | ⟨call, hcalled, hexec⟩
  · obtain ⟨hmilestone, hnonce, -⟩ := hframe.same .milestones (by decide)
    refine .kept (by simp [submittedBy, hcalled]) (by simp [prunedBy, hcalled]) ?_ ?_
    · unfold expectedNonce
      rw [hnonce]
    · rw [hmilestone]
  · by_cases hsubmit : ∃ index proof nonce, call = .submitMilestoneProof grantId index proof nonce
    · obtain ⟨index, proof, nonce, rfl⟩ := hsubmit
      obtain ⟨_, _, -, hfirst, -, -, hmilestone, -⟩ := submitMilestoneProof_eq_ok hexec
      obtain ⟨grant, hgrant, hsigned, hexpected, hnonce⟩ := submitMilestoneProof_nonce hexec
      refine .submitted (s := ⟨index, nonce, proof⟩) (by simp [submittedBy, hcalled])
        (by simp [prunedBy, hcalled]) hgrant hsigned hfirst hexpected ?_ ?_
      · simp [expectedNonce, hnonce]
      · rw [hmilestone, Function.update_self]
        rfl
    · by_cases hprune : ∃ relayer, call = .pruneFinalizedGrant grantId relayer
      · obtain ⟨relayer, rfl⟩ := hprune
        obtain ⟨-, -, -, hnonce, -, -⟩ := pruneFinalizedGrant_left hexec
        exact .pruned (by simp [prunedBy, hcalled]) (by simp [expectedNonce, hnonce])
      · have hsubmit' (index : Nat) (proof : String) (nonce : Nat) :
            call ≠ .submitMilestoneProof grantId index proof nonce :=
          fun heq => hsubmit ⟨index, proof, nonce, heq⟩
        have hprune' (relayer : Address) : call ≠ .pruneFinalizedGrant grantId relayer :=
          fun heq => hprune ⟨relayer, heq⟩
        obtain ⟨hnonce, hmilestone⟩ := expectedNonce_of_exec hexec hsubmit' hprune'
        refine .kept ?_ ?_ hnonce hmilestone
        · unfold submittedBy
          rw [hcalled]
          cases call with
          | submitMilestoneProof id index proof nonce =>
              exact if_neg fun heq : id = grantId => hsubmit' index proof nonce (heq ▸ rfl)
          | _ => rfl
        · unfold prunedBy
          rw [hcalled]
          cases call with
          | pruneFinalizedGrant id relayer =>
              exact decide_eq_false fun heq : id = grantId => hprune' relayer (heq ▸ rfl)
          | _ => rfl

/-! ### The order of the submissions -/

/-- The submissions since the last pruning, and what is stored of them. -/
structure InOrder (subs : List Submission) (env : Env) (grantId : Nat) : Prop where
  expected : expectedNonce env grantId = subs.length
  nonces : subs.map Submission.nonce = (List.range subs.length).reverse
  indices : (subs.map Submission.index).Nodup
  stored : ∀ s ∈ subs, env.milestone grantId s.index = some s.proof

theorem InOrder.nil (h : expectedNonce env grantId = 0) : InOrder [] env grantId :=
  ⟨h, rfl, List.nodup_nil, by simp⟩

theorem InOrder.submit {subs : List Submission} {s : Submission} (h : InOrder subs env grantId)
    (hfirst : env.milestone grantId s.index = none)
    (hexpected : s.nonce = expectedNonce env grantId)
    (hnonce : expectedNonce env' grantId = s.nonce + 1)
    (hmilestone : env'.milestone grantId =
      Function.update (env.milestone grantId) s.index (some s.proof)) :
    InOrder (s :: subs) env' grantId := by
  have hlength : s.nonce = subs.length := hexpected.trans h.expected
  have hnew (s' : Submission) (hs' : s' ∈ subs) : s'.index ≠ s.index := by
    intro heq
    have hstored := h.stored s' hs'
    rw [heq, hfirst] at hstored
    cases hstored
  constructor
  · rw [hnonce, hlength, List.length_cons]
  · rw [List.map_cons, h.nonces, List.length_cons, List.range_succ, List.reverse_append, hlength]
    rfl
  · rw [List.map_cons, List.nodup_cons]
    refine ⟨fun hmem => ?_, h.indices⟩
    obtain ⟨s', hs', heq⟩ := List.mem_map.mp hmem
    exact hnew s' hs' heq
  · intro s' hs'
    rw [hmilestone]
    rcases List.mem_cons.mp hs' with rfl | hs'
    · rw [Function.update_self]
    · rw [Function.update_of_ne (hnew s' hs')]
      exact h.stored s' hs'

/-- **Step lemma.** -/
theorem SubmissionEffect.inOrder (heffect : SubmissionEffect grantId e)
    (h : InOrder (submittedSince grantId older) e.before grantId) :
    InOrder (submittedSince grantId (e :: older)) e.after grantId := by
  cases heffect with
  | kept hnone hunpruned hnonce hmilestone =>
      have hsubs : submittedSince grantId (e :: older) = submittedSince grantId older := by
        simp [submittedSince, Run.since_cons_of_neg hunpruned, hnone]
      rw [hsubs]
      exact ⟨hnonce.trans h.expected, h.nonces, h.indices, hmilestone ▸ h.stored⟩
  | @submitted s grant hsubmitted hunpruned _ _ hfirst hexpected hnonce hmilestone =>
      have hsubs : submittedSince grantId (e :: older) = s :: submittedSince grantId older := by
        simp [submittedSince, Run.since_cons_of_neg hunpruned, hsubmitted]
      rw [hsubs]
      exact h.submit hfirst hexpected hnonce hmilestone
  | pruned hpruned hnonce =>
      have hsubs : submittedSince grantId (e :: older) = [] := by
        simp [submittedSince, Run.since_cons_of_pos hpruned]
      rw [hsubs]
      exact .nil hnonce

theorem inOrder_of_reachable (h : Reachable trace env) (grantId : Nat) :
    InOrder (submittedSince grantId trace) env grantId := by
  induction h with
  | start h =>
      obtain ⟨_, _, _, rfl⟩ := h
      exact .nil rfl
  | @step trace env event env' _ hn ih =>
      exact (submissionEffect_of_next (e := ⟨env, event, env'⟩) hn grantId).inOrder ih

/-- **Order of submissions.** In every run, for every grant: the nonces of the submissions since it
was last pruned are `0, 1, 2, …` in the order they were made, the next one has to have the number of
them, no two are for the same milestone, and the proofs of all of them are stored; and every
submission was signed by the recipient of that time. -/
theorem submissions_ordered (h : Reachable trace env) (grantId : Nat) :
    InOrder (submittedSince grantId trace) env grantId ∧
      ∀ e ∈ trace, (submittedBy grantId e).isSome → ∃ grant,
        e.before.grants grantId = some grant ∧ grant.recipient ∈ e.action.auths := by
  refine ⟨inOrder_of_reachable h grantId, fun e he hsome => ?_⟩
  obtain ⟨older, -, hn⟩ := h.of_mem he
  cases submissionEffect_of_next hn grantId with
  | kept hnone => simp [hnone] at hsome
  | submitted _ _ hgrant hsigned => exact ⟨_, hgrant, hsigned⟩
  | pruned hpruned =>
      unfold prunedBy at hpruned
      unfold submittedBy at hsome
      split at hpruned
      · next hcalled => simp [hcalled] at hsome
      · cases hpruned

namespace Demo

/-- Two submissions, and one that repeats a nonce. -/
def submitted : Trace × Env :=
  history Demo.env (setUp 0 ++
    [⟨1, 0, .tokenMint nativeToken grantee (10 ^ 9)⟩,
      Demo.call 1 (.createGrant 7 grantee 60000000 1000000 0 none none),
      Demo.call 2 (.submitMilestoneProof 7 4 "a" 0), Demo.call 3 (.submitMilestoneProof 7 2 "b" 0),
      Demo.call 4 (.submitMilestoneProof 7 2 "c" 1)])

end Demo

theorem submissions_ordered_of_replay :
    submittedSince 7 Demo.submitted.1 = [⟨2, 1, "c"⟩, ⟨4, 0, "a"⟩] ∧
      InOrder [⟨2, 1, "c"⟩, ⟨4, 0, "a"⟩] Demo.submitted.2 7 := by
  have hsubs : submittedSince 7 Demo.submitted.1 = [⟨2, 1, "c"⟩, ⟨4, 0, "a"⟩] := by decide
  refine ⟨hsubs, ?_⟩
  rw [← hsubs]
  exact (submissions_ordered (history_reachable Demo.env_deployed (by decide)) 7).1

end YieldTrust.GrantStream
