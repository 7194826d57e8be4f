import YieldTrust.GrantStream.History

/-!
# YieldTrust.GrantStream.Registry

What ties the records of the contract together: `GrantIds` lists every existing
grant once, and grants only exist once the contract is configured.
-/

namespace YieldTrust.GrantStream

/-- The index lists the existing grants, and they belong to a configured contract. -/
structure Vault.Registered (v : Vault) : Prop where
  nodup : v.grantIds.Nodup
  mem_iff : ∀ id, id ∈ v.grantIds ↔ v.grants id ≠ none
  configured : ∀ id, v.grants id ≠ none → v.admin ≠ none ∧ v.grantToken ≠ none

namespace Vault.Registered

/-- Adding a grant to the end of the index. -/
theorem create {v : Vault} (h : v.Registered) {grantId : Nat} (hnone : v.grants grantId = none)
    (hadmin : v.admin ≠ none) (htoken : v.grantToken ≠ none) (g : Grant)
    (recipientGrants : Address → List Nat) :
    ({ v with
      grants := Function.update v.grants grantId (some g)
      grantIds := v.grantIds ++ [grantId]
      recipientGrants } : Vault).Registered := by
  refine ⟨?_, fun id => ?_, fun _ _ => ⟨hadmin, htoken⟩⟩
  · have hnew : grantId ∉ v.grantIds := fun hm => (h.mem_iff grantId).mp hm hnone
    refine List.nodup_append.mpr ⟨h.nodup, by simp, fun a ha b hb heq => hnew ?_⟩
    rw [← List.mem_singleton.mp hb, ← heq]
    exact ha
  · show id ∈ v.grantIds ++ [grantId] ↔ Function.update v.grants grantId (some g) id ≠ none
    rw [List.mem_append, List.mem_singleton, h.mem_iff]
    by_cases hid : id = grantId
    · subst hid
      simp
    · simp [hid]

/-- Changing the record of an existing grant. -/
theorem write {v : Vault} (h : v.Registered) {grantId : Nat} {g : Grant}
    (hg : v.grants grantId = some g) (g' : Grant) (recipientGrants : Address → List Nat)
    (disputeEscrow : Nat → Option Int) :
    ({ v with
      grants := Function.update v.grants grantId (some g')
      disputeEscrow
      recipientGrants } : Vault).Registered := by
  have hsome : v.grants grantId ≠ none := by simp [hg]
  refine ⟨h.nodup, fun id => ?_, fun _ _ => h.configured grantId hsome⟩
  show id ∈ v.grantIds ↔ Function.update v.grants grantId (some g') id ≠ none
  rw [h.mem_iff]
  by_cases hid : id = grantId
  · subst hid
    simp [hg]
  · rw [Function.update_of_ne hid]

/-- Deleting a grant and its entry in the index. -/
theorem delete {v : Vault} (h : v.Registered) {grantId : Nat} {ids : List Nat}
    (hids : ids = v.grantIds.filter (· ≠ grantId) ∨ ids = v.grantIds.erase grantId)
    (recipientGrants : Address → List Nat) :
    ({ v with
      grants := Function.update v.grants grantId none
      grantIds := ids
      recipientGrants } : Vault).Registered := by
  have hmem : ∀ id, id ∈ ids ↔ id ≠ grantId ∧ id ∈ v.grantIds := by
    intro id
    rcases hids with rfl | rfl
    · simp [and_comm]
    · exact h.nodup.mem_erase_iff
  refine ⟨?_, fun id => ?_, fun id hid => ?_⟩
  · show ids.Nodup
    rcases hids with rfl | rfl
    · exact h.nodup.filter _
    · exact h.nodup.erase _
  · show id ∈ ids ↔ Function.update v.grants grantId none id ≠ none
    rw [hmem, h.mem_iff]
    by_cases hid : id = grantId
    · subst hid
      simp
    · simp [hid]
  · refine h.configured id fun hnone => hid ?_
    show Function.update v.grants grantId none id = none
    by_cases heq : id = grantId
    · subst heq
      simp
    · rw [Function.update_of_ne heq, hnone]

end Vault.Registered

/-- **Registry.** In every reachable state the index lists the existing grants. -/
theorem registered_of_reachable {trace : Trace} {env : Env} (h : Reachable trace env) :
    env.vault.Registered := by
  refine Run.invariant (I := fun env => env.vault.Registered) ?_ ?_ h
  · rintro env ⟨self, host, tokens, rfl⟩
    exact ⟨List.nodup_nil, fun id => by simp [Env.vault, Env.deployed], fun id hid => absurd rfl hid⟩
  · intro env event env' ih hn
    have ih : (env.enter event).vault.Registered := ⟨ih.nodup, ih.mem_iff, ih.configured⟩
    rcases vault_of_next hn with hv | ⟨call, heffect⟩
    · rw [hv]
      exact ih
    · cases heffect with
      | keeps _ hv =>
          rw [hv]
          exact ih
      | initialized hadmin hv =>
          -- a contract without an admin has no grants
          have hnone : ∀ id, (env.enter event).grants id = none := by
            intro id
            by_contra hid
            exact (ih.configured id hid).1 hadmin
          rw [hv]
          refine ⟨List.nodup_nil, fun id => ?_, fun id hid => absurd (hnone id) hid⟩
          show id ∈ [] ↔ (env.enter event).grants id ≠ none
          simp [hnone id]
      | created hnone _ _ hadmin htoken hv =>
          rw [hv]
          exact ih.create hnone (by simp [Env.vault, hadmin]) (by simp [Env.vault, htoken]) _ _
      | operated _ hoperates =>
          obtain ⟨g, a', payments, hg, -, -, hv⟩ := hoperates
          rw [hv]
          exact ih.write hg _ _ _
      | deleted _ _ _ _ hids hv =>
          rw [hv]
          exact ih.delete hids _

end YieldTrust.GrantStream
