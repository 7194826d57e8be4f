import YieldTrust.Bidding.Contract
import YieldTrust.Lib.FixedWidth

/-!
# YieldTrust.Bidding.Binding

What a **commitment binds** its grantee to. The hash is taken over the milestones and the salt
without a mark between them, so a commitment admits two bids exactly if one of them has its last
milestones where the other one has the beginning of its salt.
-/

namespace YieldTrust.Bidding

open Fallible
open GrantStream (Address Bytes length_toBeBytes toBeBytes_injective)
open GrantStream.AuditLog (toBeBytes)

variable {host : Host} {env env' : Env} {bid bid' : RevealedBid} {grantee : Address} {call : Call}

/-! ### The sort -/

theorem compareSwap_of_lt {ids : List UInt32} (h : ids.Pairwise (· < ·)) {j : Nat}
    (hj : j + 1 < ids.length) : compareSwap ids j = ids := by
  have hlt : ids[j] < ids[j + 1] :=
    List.pairwise_iff_getElem.mp h j (j + 1) (by omega) hj (Nat.lt_succ_self j)
  have hread (k : Nat) (hk : k < ids.length) : ids.getD k 0 = ids[k] := by
    rw [List.getD_eq_getElem?_getD, List.getElem?_eq_getElem hk, Option.getD_some]
  unfold compareSwap
  rw [hread j (by omega), hread (j + 1) hj]
  exact if_neg (UInt32.lt_asymm hlt)

/-- The keys of a map are sorted already. -/
theorem sortIds_of_sorted {ids : List UInt32} (h : ids.Pairwise (· < ·)) : sortIds ids = ids := by
  unfold sortIds
  have hround (len : Nat) (hlen : len ≤ ids.length) (rounds : List Nat) :
      rounds.foldl (fun ids i => (List.range (len - i - 1)).foldl compareSwap ids) ids = ids := by
    induction rounds with
    | nil => rfl
    | cons i rounds ih =>
        have hpass (js : List Nat) (hjs : ∀ j ∈ js, j + 1 < ids.length) :
            js.foldl compareSwap ids = ids := by
          induction js with
          | nil => rfl
          | cons j js ihjs =>
              rw [List.foldl_cons, compareSwap_of_lt h (hjs j List.mem_cons_self)]
              exact ihjs fun j' hj' => hjs j' (List.mem_cons_of_mem j hj')
        rw [List.foldl_cons, hpass _ fun j hj => by
          have hlt := List.mem_range.mp hj
          omega]
        exact ih
  exact hround ids.length le_rfl _

/-! ### The preimage -/

/-- One milestone in 12 bytes. -/
def encodeEntry (entry : UInt32 × UInt64) : Bytes :=
  toBeBytes 4 entry.1.toNat ++ toBeBytes 8 entry.2.toNat

theorem length_encodeEntry (entry : UInt32 × UInt64) : (encodeEntry entry).length = 12 := by
  simp [encodeEntry, length_toBeBytes]

theorem encodeEntry_injective : Function.Injective encodeEntry := by
  rintro ⟨id, cost⟩ ⟨id', cost'⟩ h
  obtain ⟨hid, hcost⟩ := List.append_inj h (by rw [length_toBeBytes, length_toBeBytes])
  have hid := toBeBytes_injective id.toNat_lt id'.toNat_lt hid
  have hcost := toBeBytes_injective cost.toNat_lt cost'.toNat_lt hcost
  exact Prod.ext (UInt32.toNat_inj.mp hid) (UInt64.toNat_inj.mp hcost)

/-- What is hashed. -/
def RevealedBid.encoded (bid : RevealedBid) : Bytes :=
  toBeBytes 8 bid.amount.toNat ++ (bid.milestoneCosts.entries.flatMap encodeEntry ++ bid.salt)

/-- The cost of a milestone is found under its key. -/
theorem CostMap.get_of_mem (costs : CostMap) {id : UInt32} {cost : UInt64}
    (h : (id, cost) ∈ costs.entries) : costs.get id = some cost := by
  have hnodup : (costs.entries.map Prod.fst).Nodup :=
    costs.sorted.imp fun hlt => UInt32.ne_of_lt hlt
  unfold CostMap.get
  generalize costs.entries = entries at h hnodup
  induction entries with
  | nil => cases h
  | cons entry entries ih =>
      obtain ⟨id', cost'⟩ := entry
      rw [List.map_cons, List.nodup_cons] at hnodup
      rcases List.mem_cons.mp h with heq | hmem
      · cases heq
        simp
      · have hne : id ≠ id' := by
          rintro rfl
          exact hnodup.1 (List.mem_map.mpr ⟨(id, cost), hmem, rfl⟩)
        rw [List.lookup_cons, beq_eq_false_iff_ne.mpr hne]
        exact ih hmem hnodup.2

/-- **Loop lemma.** -/
theorem preimage_eq (bid : RevealedBid) : preimage bid = .ok bid.encoded := by
  have hloop (entries : List (UInt32 × UInt64)) (start : Bytes)
      (hmem : ∀ entry ∈ entries, entry ∈ bid.milestoneCosts.entries) :
      (entries.map Prod.fst).foldlM
        (fun encoded id => do
          let cost ← orTrap (bid.milestoneCosts.get id)
          return encoded ++ toBeBytes 4 id.toNat ++ toBeBytes 8 cost.toNat) start =
        (Except.ok (start ++ entries.flatMap encodeEntry) : Res Bytes) := by
    induction entries generalizing start with
    | nil =>
        rw [List.flatMap_nil, List.append_nil]
        rfl
    | cons entry entries ih =>
        obtain ⟨id, cost⟩ := entry
        rw [List.map_cons, List.foldlM_cons]
        refine bind_eq_ok.mpr ⟨start ++ encodeEntry (id, cost), ?_, ?_⟩
        · have hget := bid.milestoneCosts.get_of_mem (hmem _ List.mem_cons_self)
          dsimp only
          rw [hget, encodeEntry, ← List.append_assoc]
          rfl
        · rw [ih _ fun entry hentry => hmem entry (List.mem_cons_of_mem _ hentry),
            List.flatMap_cons, List.append_assoc]
  unfold preimage CostMap.keys
  rw [sortIds_of_sorted bid.milestoneCosts.sorted]
  refine bind_eq_ok.mpr ⟨_, hloop bid.milestoneCosts.entries _ fun _ hentry => hentry, ?_⟩
  rw [RevealedBid.encoded, List.append_assoc]
  rfl

theorem hashBid_eq (host : Host) (bid : RevealedBid) :
    hashBid host bid = .ok (host.sha256 bid.encoded) := by
  unfold hashBid
  rw [preimage_eq]
  rfl

/-! ### Two bids of one hash -/

/-- The bids say the same: the amount, the milestones with their costs, and the salt. -/
def SameContent (bid bid' : RevealedBid) : Prop :=
  bid.amount = bid'.amount ∧ bid.milestoneCosts = bid'.milestoneCosts ∧ bid.salt = bid'.salt

instance (bid bid' : RevealedBid) : Decidable (SameContent bid bid') :=
  inferInstanceAs (Decidable (_ ∧ _))

theorem SameContent.symm (h : SameContent bid bid') : SameContent bid' bid :=
  ⟨h.1.symm, h.2.1.symm, h.2.2.symm⟩

/-- The last milestones of `bid` are the beginning of the salt of `bid'`, which has the same
amount and the same milestones before them. -/
def MovedInto (bid bid' : RevealedBid) : Prop :=
  bid.amount = bid'.amount ∧
    FixedWidth.Moved encodeEntry bid.milestoneCosts.entries bid.salt
      bid'.milestoneCosts.entries bid'.salt

/-- One bid is the other one with milestones moved into the salt. -/
def Regrouped (bid bid' : RevealedBid) : Prop := MovedInto bid bid' ∨ MovedInto bid' bid

instance (bid bid' : RevealedBid) : Decidable (MovedInto bid bid') :=
  inferInstanceAs (Decidable (_ ∧ _))

instance (bid bid' : RevealedBid) : Decidable (Regrouped bid bid') :=
  inferInstanceAs (Decidable (_ ∨ _))

theorem MovedInto.encoded_eq (h : MovedInto bid bid') : bid.encoded = bid'.encoded := by
  unfold RevealedBid.encoded
  rw [h.1, h.2.append_eq]

theorem MovedInto.not_sameContent (h : MovedInto bid bid') : ¬SameContent bid bid' :=
  fun hsame => h.2.ne (congrArg CostMap.entries hsame.2.1)

theorem encoded_eq_cases (h : bid.encoded = bid'.encoded) :
    SameContent bid bid' ∨ Regrouped bid bid' := by
  obtain ⟨hamount, hrest⟩ := List.append_inj h (by rw [length_toBeBytes, length_toBeBytes])
  have hamount : bid.amount = bid'.amount :=
    UInt64.toNat_inj.mp (toBeBytes_injective bid.amount.toNat_lt bid'.amount.toNat_lt hamount)
  rcases FixedWidth.append_eq_cases length_encodeEntry encodeEntry_injective hrest with
    ⟨hentries, hsalt⟩ | hmoved | hmoved
  · refine .inl ⟨hamount, ?_, hsalt⟩
    cases hcosts : bid.milestoneCosts
    cases hcosts' : bid'.milestoneCosts
    simpa [hcosts, hcosts'] using hentries
  · exact .inr (.inl ⟨hamount, hmoved⟩)
  · exact .inr (.inr ⟨hamount.symm, hmoved⟩)

/-- The hash gives different digests for different `inputs`. -/
def CollisionFree (sha256 : Bytes → Bytes) (inputs : List Bytes) : Prop :=
  ∀ x ∈ inputs, ∀ y ∈ inputs, sha256 x = sha256 y → x = y

instance (sha256 : Bytes → Bytes) (inputs : List Bytes) :
    Decidable (CollisionFree sha256 inputs) :=
  inferInstanceAs (Decidable (∀ x ∈ inputs, ∀ y ∈ inputs, _))

/-- **Binding of the hash.** Of two bids whose preimages do not collide, the hash tells the
content exactly if neither is the other one regrouped. -/
theorem hashBid_binding_iff (h : CollisionFree host.sha256 [bid.encoded, bid'.encoded]) :
    (hashBid host bid = hashBid host bid' → SameContent bid bid') ↔ ¬Regrouped bid bid' := by
  rw [hashBid_eq, hashBid_eq, Except.ok.injEq]
  constructor
  · rintro hbinds (hmoved | hmoved)
    · exact hmoved.not_sameContent (hbinds (congrArg host.sha256 hmoved.encoded_eq))
    · exact hmoved.not_sameContent (hbinds (congrArg host.sha256 hmoved.encoded_eq.symm)).symm
  · intro hregrouped hhash
    have heq := h bid.encoded List.mem_cons_self bid'.encoded
      (List.mem_cons_of_mem _ List.mem_cons_self) hhash
    exact (encoded_eq_cases heq).resolve_right hregrouped

end YieldTrust.Bidding
