import Mathlib.Algebra.Order.BigOperators.Group.List
import Mathlib.Data.List.Induction
import YieldTrust.MultiToken.Completion

/-!
# YieldTrust.MultiToken.Results

What `multi_token_withdraw` **reports** against what it paid. The requests are shared out to the
successful and the failed ones, and the entries are booked by the successful ones. Of several
successful requests for one token, `total_withdrawn` keeps the last one.
-/

namespace YieldTrust.MultiToken

open Fallible
open GrantStream (Address Bytes)
open Optimized (Error StatusMask hasStatus setStatus clearStatus statusActive statusPaused
  statusCompleted validateStatusTransition)

variable {host : Optimized.Host} {env : Env} {grant : MultiTokenGrant} {token : TokenBalance}
  {tokenAddress : Address} {withdrawal : TokenWithdrawal}
  {withdrawals successful failed : List TokenWithdrawal} {progress progress' : Progress}

/-! ### Lists -/

/-- `Interleaved l₁ l₂ l`: `l` consists of the records of `l₁` and `l₂`, in their order. -/
inductive Interleaved {α : Type} : List α → List α → List α → Prop
  | nil : Interleaved [] [] []
  | left {a : α} {l₁ l₂ l : List α} (h : Interleaved l₁ l₂ l) : Interleaved (a :: l₁) l₂ (a :: l)
  | right {a : α} {l₁ l₂ l : List α} (h : Interleaved l₁ l₂ l) : Interleaved l₁ (a :: l₂) (a :: l)

theorem sum_nonneg_of_pos {l : List Int} (h : ∀ a ∈ l, 0 < a) : 0 ≤ l.sum :=
  List.sum_nonneg fun a ha => (h a ha).le

/-- The last one of positive amounts is their sum exactly if it is the only one. -/
theorem getLast?_eq_sum_iff {l : List Int} (h : ∀ a ∈ l, 0 < a) :
    (l.getLast? = if l = [] then none else some l.sum) ↔ l.length ≤ 1 := by
  induction l using List.reverseRecOn with
  | nil => simp
  | append_singleton l a =>
      have hnonneg := sum_nonneg_of_pos fun b hb => h b (List.mem_append_left [a] hb)
      rw [List.getLast?_concat, if_neg (by simp), List.sum_append, List.sum_singleton,
        Option.some.injEq]
      constructor
      · intro hlast
        -- the amounts before the last one are positive, so there are none
        have hsum : l.sum = 0 := by omega
        cases l with
        | nil => simp
        | cons b l =>
            have hpos := h b (by simp)
            have hrest : 0 ≤ l.sum := sum_nonneg_of_pos fun c hc => h c (by simp [hc])
            rw [List.sum_cons] at hsum
            omega
      · intro hlength
        have hnil : l = [] := by simpa using hlength
        simp [hnil]

/-! ### What is paid out of an entry -/

/-- The amounts that the withdrawals withdraw of the token. -/
def amountsOf (tokenAddress : Address) (withdrawals : List TokenWithdrawal) : List Int :=
  (withdrawals.filter fun withdrawal => withdrawal.tokenAddress = tokenAddress).map
    TokenWithdrawal.amount

theorem amountsOf_append_self (withdrawals : List TokenWithdrawal) (withdrawal : TokenWithdrawal) :
    amountsOf withdrawal.tokenAddress (withdrawals ++ [withdrawal]) =
      amountsOf withdrawal.tokenAddress withdrawals ++ [withdrawal.amount] := by
  simp [amountsOf]

theorem amountsOf_append_of_ne (h : withdrawal.tokenAddress ≠ tokenAddress)
    (withdrawals : List TokenWithdrawal) :
    amountsOf tokenAddress (withdrawals ++ [withdrawal]) = amountsOf tokenAddress withdrawals := by
  simp [amountsOf, h]

/-- The amounts that can be paid when `amounts` are requested one after the other: those that are
positive and at most what is left then. -/
def payments (left : Int) : List Int → List Int
  | [] => []
  | amount :: amounts =>
    if 0 < amount ∧ amount ≤ left then amount :: payments (left - amount) amounts
    else payments left amounts

theorem payments_pos {left : Int} {amounts : List Int} : ∀ a ∈ payments left amounts, 0 < a := by
  induction amounts generalizing left with
  | nil => simp [payments]
  | cons amount amounts ih =>
      intro a ha
      rw [payments] at ha
      split at ha
      · case isTrue hpays =>
        rcases List.mem_cons.mp ha with rfl | ha
        · exact hpays.1
        · exact ih a ha
      · exact ih a ha

/-- What the requests for `amounts` of an entry come to: the amounts of the successful ones, and
how much is transferred. A payment that can not be booked is transferred but does not succeed. -/
inductive Paid (token : TokenBalance) (amounts paid : List Int) (transferred : Int) : Prop
  | booked (hrange : I128.InRange (token.withdrawn + (payments token.claimable amounts).sum))
      (hpaid : paid = payments token.claimable amounts) (hsum : transferred = paid.sum)
  | unbooked (hrange : ¬I128.InRange (token.withdrawn + (payments token.claimable amounts).sum))
      (hexceeds : paid.sum < transferred)

theorem Paid.sum_le {amounts paid : List Int} {transferred : Int}
    (h : Paid token amounts paid transferred) : paid.sum ≤ transferred := by
  cases h with
  | booked _ _ hsum => exact hsum.ge
  | unbooked _ hexceeds => exact hexceeds.le

/-! ### One round -/

/-- One round of the withdrawals with what it reports. -/
inductive Report (progress : Progress) (withdrawal : TokenWithdrawal) : Progress → Prop
  | rejected (hreject : isHalted progress.env withdrawal.tokenAddress = true ∨
        withdrawal.amount ≤ 0 ∨ ∀ token ∈ findToken progress.grant.tokens withdrawal.tokenAddress,
          token.claimable < withdrawal.amount) :
      Report progress withdrawal { progress with
        failedWithdrawals := progress.failedWithdrawals ++ [withdrawal] }
  /-- The transfer stands, and the entry is not written. -/
  | unbooked (token : TokenBalance) (ledger : TokenLedger Address)
      (hlive : isHalted progress.env withdrawal.tokenAddress = false)
      (hfind : findToken progress.grant.tokens withdrawal.tokenAddress = some token)
      (hpos : 0 < withdrawal.amount) (hle : withdrawal.amount ≤ token.claimable)
      (htransfer : progress.env.tokens.transfer withdrawal.tokenAddress progress.env.self
        progress.grant.recipient withdrawal.amount = some ledger)
      (hbooks : ¬token.Books withdrawal.amount) :
      Report progress withdrawal { progress with
        env := { progress.env with tokens := ledger }
        failedWithdrawals := progress.failedWithdrawals ++ [withdrawal] }
  | booked (token : TokenBalance) (ledger : TokenLedger Address)
      (hlive : isHalted progress.env withdrawal.tokenAddress = false)
      (hfind : findToken progress.grant.tokens withdrawal.tokenAddress = some token)
      (hpos : 0 < withdrawal.amount) (hle : withdrawal.amount ≤ token.claimable)
      (htransfer : progress.env.tokens.transfer withdrawal.tokenAddress progress.env.self
        progress.grant.recipient withdrawal.amount = some ledger)
      (hbooks : token.Books withdrawal.amount) :
      Report progress withdrawal { progress with
        env := { progress.env with tokens := ledger }
        grant := { progress.grant with
          tokens := setToken progress.grant.tokens (token.draw withdrawal.amount) }
        successfulWithdrawals := progress.successfulWithdrawals ++ [withdrawal]
        totalWithdrawn := Function.update progress.totalWithdrawn withdrawal.tokenAddress
          (some withdrawal.amount) }

theorem Progress.next_report (h : progress.next withdrawal = .ok progress') :
    Report progress withdrawal progress' := by
  unfold Progress.next at h
  split at h
  · case isTrue hhalted =>
    rw [← pure_eq_ok.mp h]
    exact .rejected (.inl hhalted)
  · case isFalse hlive =>
    rw [Bool.not_eq_true] at hlive
    obtain ⟨⟨env₁, outcome⟩, hprocess, h⟩ := bind_eq_ok.mp h
    rcases processTokenWithdrawal_eq_ok hprocess with ⟨rfl, ⟨e, rfl⟩, hreject⟩ |
      ⟨token, ledger, hfind, hpos, hle, htransfer, rfl, ⟨⟨e, rfl⟩, hbooks⟩ | ⟨hbooks, rfl⟩⟩
    · rw [← pure_eq_ok.mp h]
      exact .rejected (.inr hreject)
    · rw [← pure_eq_ok.mp h]
      exact .unbooked token ledger hlive hfind hpos hle htransfer hbooks
    · rw [← pure_eq_ok.mp h]
      exact .booked token ledger hlive hfind hpos hle htransfer hbooks

/-- What one round does to an entry: what it pays, what it transfers, and what it leaves. -/
inductive EntryRound (env : Env) (withdrawal : TokenWithdrawal) (token : TokenBalance) :
    List Int → Int → TokenBalance → Prop
  | other (hreject : token.tokenAddress = withdrawal.tokenAddress ∧
        isHalted env withdrawal.tokenAddress = false →
          ¬(0 < withdrawal.amount ∧ withdrawal.amount ≤ token.claimable)) :
      EntryRound env withdrawal token [] 0 token
  | unbooked (hmine : token.tokenAddress = withdrawal.tokenAddress ∧
        isHalted env withdrawal.tokenAddress = false)
      (hpays : 0 < withdrawal.amount ∧ withdrawal.amount ≤ token.claimable)
      (hbooks : ¬token.Books withdrawal.amount) :
      EntryRound env withdrawal token [] withdrawal.amount token
  | booked (hmine : token.tokenAddress = withdrawal.tokenAddress ∧
        isHalted env withdrawal.tokenAddress = false)
      (hpays : 0 < withdrawal.amount ∧ withdrawal.amount ≤ token.claimable)
      (hbooks : token.Books withdrawal.amount) :
      EntryRound env withdrawal token [withdrawal.amount] withdrawal.amount { token with
        claimable := token.claimable - withdrawal.amount
        withdrawn := token.withdrawn + withdrawal.amount }

/-- Requests that are not payable leave the entry. -/
theorem TokenBalance.request_of_reject (hreject : token.tokenAddress = withdrawal.tokenAddress ∧
      isHalted env withdrawal.tokenAddress = false →
        ¬(0 < withdrawal.amount ∧ withdrawal.amount ≤ token.claimable)) :
    token.request env withdrawal = token := by
  refine ite_eq_right_iff.mpr fun hmine => ?_
  have hpays := hreject hmine
  exact TokenBalance.draw_of_not_le (by omega)

/-- A round of another token leaves what was paid of the token. -/
theorem Report.of_ne (h : Report progress withdrawal progress')
    (hne : withdrawal.tokenAddress ≠ tokenAddress) :
    amountsOf tokenAddress progress'.successfulWithdrawals =
        amountsOf tokenAddress progress.successfulWithdrawals ∧
      TokenLedger.sent tokenAddress progress'.env.tokens.log =
        TokenLedger.sent tokenAddress progress.env.tokens.log := by
  cases h with
  | rejected => exact ⟨rfl, rfl⟩
  | unbooked token ledger _ _ _ _ htransfer =>
      obtain ⟨-, rfl⟩ := TokenLedger.transfer_eq_some.mp htransfer
      exact ⟨rfl, TokenLedger.sent_cons_of_ne hne _⟩
  | booked token ledger _ _ _ _ htransfer =>
      obtain ⟨-, rfl⟩ := TokenLedger.transfer_eq_some.mp htransfer
      exact ⟨amountsOf_append_of_ne hne _, TokenLedger.sent_cons_of_ne hne _⟩

/-- The round as one of the entry. -/
theorem Report.entryRound (h : Report progress withdrawal progress')
    (hnodup : (addresses progress.grant.tokens).Nodup) (htoken : token ∈ progress.grant.tokens) :
    ∃ paid transferred,
      amountsOf token.tokenAddress progress'.successfulWithdrawals =
        amountsOf token.tokenAddress progress.successfulWithdrawals ++ paid ∧
      TokenLedger.sent token.tokenAddress progress'.env.tokens.log =
        transferred + TokenLedger.sent token.tokenAddress progress.env.tokens.log ∧
      EntryRound progress.env withdrawal token paid transferred
        (token.request progress.env withdrawal) := by
  have hfound := KeyedList.find?_of_mem hnodup htoken
  by_cases hkey : token.tokenAddress = withdrawal.tokenAddress
  · rw [hkey] at hfound ⊢
    cases h with
    | rejected hreject =>
        have hnot : token.tokenAddress = withdrawal.tokenAddress ∧
            isHalted progress.env withdrawal.tokenAddress = false →
              ¬(0 < withdrawal.amount ∧ withdrawal.amount ≤ token.claimable) := by
          rintro ⟨-, hlive⟩ ⟨hpos, hle⟩
          rcases hreject with hhalted | hamount | hbelow
          · simp [hlive] at hhalted
          · omega
          · have hlt := hbelow token hfound
            omega
        refine ⟨[], 0, by simp, by simp, ?_⟩
        rw [TokenBalance.request_of_reject hnot]
        exact .other hnot
    | unbooked found ledger hlive hfind hpos hle htransfer hbooks =>
        cases hfound.symm.trans hfind
        obtain ⟨-, rfl⟩ := TokenLedger.transfer_eq_some.mp htransfer
        refine ⟨[], withdrawal.amount, by simp, TokenLedger.sent_cons_self .., ?_⟩
        rw [TokenBalance.request, if_pos ⟨hkey, hlive⟩, (token.draw_of_le hpos hle).2 hbooks]
        exact .unbooked ⟨hkey, hlive⟩ ⟨hpos, hle⟩ hbooks
    | booked found ledger hlive hfind hpos hle htransfer hbooks =>
        cases hfound.symm.trans hfind
        obtain ⟨-, rfl⟩ := TokenLedger.transfer_eq_some.mp htransfer
        refine ⟨[withdrawal.amount], withdrawal.amount, amountsOf_append_self ..,
          TokenLedger.sent_cons_self .., ?_⟩
        rw [TokenBalance.request, if_pos ⟨hkey, hlive⟩, (token.draw_of_le hpos hle).1 hbooks]
        exact .booked ⟨hkey, hlive⟩ ⟨hpos, hle⟩ hbooks
  · obtain ⟨hamounts, hsent⟩ := h.of_ne (Ne.symm hkey)
    have hnot : token.tokenAddress = withdrawal.tokenAddress ∧
        isHalted progress.env withdrawal.tokenAddress = false →
          ¬(0 < withdrawal.amount ∧ withdrawal.amount ≤ token.claimable) :=
      fun hmine => absurd hmine.1 hkey
    rw [TokenBalance.request_of_reject hnot, hamounts, hsent]
    exact ⟨[], 0, by simp, by simp, .other hnot⟩

/-- A round in front of other rounds. -/
theorem EntryRound.paid {paid paid₁ : List Int} {transferred transferred₁ : Int}
    {token₁ : TokenBalance} (h : EntryRound env withdrawal token paid₁ transferred₁ token₁)
    (hrep : token.Representable)
    (hrest : Paid token₁ (requested env token.tokenAddress withdrawals) paid transferred) :
    Paid token (requested env token.tokenAddress (withdrawal :: withdrawals)) (paid₁ ++ paid)
      (transferred₁ + transferred) := by
  rw [requested_cons]
  cases h with
  | other hreject =>
      rw [List.nil_append, zero_add]
      split
      · case isTrue hmine =>
        cases hrest with
        | booked hrange hpaid hsum =>
            refine .booked ?_ ?_ hsum <;> rwa [payments, if_neg (hreject hmine)]
        | unbooked hrange hexceeds =>
            refine .unbooked ?_ hexceeds
            rwa [payments, if_neg (hreject hmine)]
      · exact hrest
  | unbooked hmine hpays hbooks =>
      have hle := hrest.sum_le
      rw [if_pos hmine, List.nil_append]
      refine .unbooked ?_ (by omega)
      rw [payments, if_pos hpays, List.sum_cons]
      -- the payment alone leaves the range, and the later ones only add to it
      have hnonneg : 0 ≤ (payments (token.claimable - withdrawal.amount)
          (requested env token.tokenAddress withdrawals)).sum :=
        sum_nonneg_of_pos payments_pos
      have hclaimable : I128.InRange (token.claimable - withdrawal.amount) :=
        hrep.claimable.of_nonneg_of_le (by omega) (by omega)
      intro hrange
      refine hbooks ⟨hclaimable, hrep.withdrawn.of_between hrange (by omega) (by omega)⟩
  | booked hmine hpays hbooks =>
      rw [if_pos hmine]
      have hpayments : payments token.claimable
          (withdrawal.amount :: requested env token.tokenAddress withdrawals) =
            withdrawal.amount :: payments (token.claimable - withdrawal.amount)
              (requested env token.tokenAddress withdrawals) := by
        rw [payments, if_pos hpays]
      cases hrest with
      | booked hrange hpaid hsum =>
          refine .booked ?_ ?_ ?_
          · rwa [hpayments, List.sum_cons, ← add_assoc]
          · rw [hpayments, hpaid, List.singleton_append]
          · rw [hsum, List.singleton_append, List.sum_cons]
      | unbooked hrange hexceeds =>
          refine .unbooked ?_ ?_
          · rwa [hpayments, List.sum_cons, ← add_assoc]
          · rw [List.singleton_append, List.sum_cons]
            omega

/-! ### The rounds of one call -/

/-- What holds after every round. -/
theorem withdrawals_induction {P : Progress → Prop}
    (step : ∀ progress withdrawal progress', P progress → Report progress withdrawal progress' →
      P progress')
    (h : withdrawals.foldlM Progress.next progress = .ok progress') (hstart : P progress) :
    P progress' := by
  induction withdrawals generalizing progress with
  | nil =>
      rw [← pure_eq_ok.mp h]
      exact hstart
  | cons withdrawal withdrawals ih =>
      rw [List.foldlM_cons] at h
      obtain ⟨progress₁, hround, h⟩ := bind_eq_ok.mp h
      exact ih h (step progress withdrawal progress₁ hstart (Progress.next_report hround))

/-- The rounds share out the requests to the successful and the failed ones. -/
theorem withdrawals_interleaved (h : withdrawals.foldlM Progress.next progress = .ok progress') :
    ∃ successful failed,
      progress'.successfulWithdrawals = progress.successfulWithdrawals ++ successful ∧
      progress'.failedWithdrawals = progress.failedWithdrawals ++ failed ∧
      Interleaved successful failed withdrawals := by
  induction withdrawals generalizing progress with
  | nil =>
      rw [← pure_eq_ok.mp h]
      exact ⟨[], [], by simp, by simp, .nil⟩
  | cons withdrawal withdrawals ih =>
      rw [List.foldlM_cons] at h
      obtain ⟨progress₁, hround, h⟩ := bind_eq_ok.mp h
      obtain ⟨successful, failed, hsuccessful, hfailed, hshared⟩ := ih h
      cases Progress.next_report hround with
      | rejected | unbooked =>
          exact ⟨successful, withdrawal :: failed, hsuccessful, by simp [hfailed], .right hshared⟩
      | booked =>
          exact ⟨withdrawal :: successful, failed, by simp [hsuccessful], hfailed, .left hshared⟩

/-- What holds of the rounds of a call, which started with `grant`. -/
structure InProgress (env : Env) (grant : MultiTokenGrant) (progress : Progress) : Prop where
  self_eq : progress.env.self = env.self
  recipient_eq : progress.grant.recipient = grant.recipient
  addresses_eq : addresses progress.grant.tokens = addresses grant.tokens
  /-- A later payment of a token overwrites an earlier one. -/
  totals : ∀ tokenAddress, progress.totalWithdrawn tokenAddress =
    (amountsOf tokenAddress progress.successfulWithdrawals).getLast?
  successful : ∀ withdrawal ∈ progress.successfulWithdrawals,
    0 < withdrawal.amount ∧ withdrawal.tokenAddress ∈ addresses grant.tokens
  transfers : ∀ t ∈ progress.env.tokens.log,
    t.source = env.self ∧ t.target = grant.recipient ∧ t.token ∈ addresses grant.tokens

theorem mem_addresses_of_find (hfind : findToken grant.tokens tokenAddress = some token) :
    tokenAddress ∈ addresses grant.tokens := by
  obtain ⟨hmem, rfl⟩ := KeyedList.find?_eq_some hfind
  exact List.mem_map_of_mem hmem

theorem InProgress.next (hI : InProgress env grant progress)
    (h : Report progress withdrawal progress') : InProgress env grant progress' := by
  have hpaid {ledger : TokenLedger Address} {token : TokenBalance}
      (hfind : findToken progress.grant.tokens withdrawal.tokenAddress = some token)
      (htransfer : progress.env.tokens.transfer withdrawal.tokenAddress progress.env.self
        progress.grant.recipient withdrawal.amount = some ledger) :
      ∀ t ∈ ledger.log,
        t.source = env.self ∧ t.target = grant.recipient ∧ t.token ∈ addresses grant.tokens := by
    obtain ⟨-, rfl⟩ := TokenLedger.transfer_eq_some.mp htransfer
    rw [List.forall_mem_cons]
    exact ⟨⟨hI.self_eq, hI.recipient_eq, hI.addresses_eq ▸ mem_addresses_of_find hfind⟩,
      hI.transfers⟩
  cases h with
  | rejected => exact { hI with }
  | unbooked token ledger _ hfind _ _ htransfer =>
      exact { hI with transfers := hpaid hfind htransfer }
  | booked token ledger _ hfind hpos _ htransfer =>
      refine { hI with addresses_eq := ?_, totals := ?_, successful := ?_
                       transfers := hpaid hfind htransfer }
      · rw [← hI.addresses_eq]
        exact KeyedList.map_key_set
      · intro tokenAddress
        by_cases hkey : withdrawal.tokenAddress = tokenAddress
        · subst hkey
          rw [amountsOf_append_self, List.getLast?_concat]
          exact Function.update_self ..
        · rw [amountsOf_append_of_ne hkey, ← hI.totals]
          exact Function.update_of_ne (Ne.symm hkey) ..
      · intro w hw
        rcases List.mem_append.mp hw with hw | hw
        · exact hI.successful w hw
        · cases List.mem_singleton.mp hw
          exact ⟨hpos, hI.addresses_eq ▸ mem_addresses_of_find hfind⟩

/-- Only positive amounts succeed. -/
theorem InProgress.amounts_pos (hI : InProgress env grant progress) :
    ∀ a ∈ amountsOf tokenAddress progress.successfulWithdrawals, 0 < a := by
  intro a ha
  obtain ⟨withdrawal, hmem, rfl⟩ := List.mem_map.mp ha
  exact (hI.successful withdrawal (List.mem_of_mem_filter hmem)).1

/-- Nothing of an unknown token succeeds or is transferred. -/
theorem InProgress.of_unknown (hI : InProgress env grant progress)
    (hunknown : tokenAddress ∉ addresses grant.tokens) :
    amountsOf tokenAddress progress.successfulWithdrawals = [] ∧
      TokenLedger.sent tokenAddress progress.env.tokens.log = 0 := by
  constructor
  · refine List.map_eq_nil_iff.mpr (List.filter_eq_nil_iff.mpr fun withdrawal hmem hkey => ?_)
    rw [decide_eq_true_eq] at hkey
    exact hunknown (hkey ▸ (hI.successful withdrawal hmem).2)
  · refine TokenLedger.sent_of_forall_ne fun t ht hkey => ?_
    exact hunknown (hkey ▸ (hI.transfers t ht).2.2)

theorem requested_env {env' : Env} (h : env'.store = env.store) (tokenAddress : Address)
    (withdrawals : List TokenWithdrawal) :
    requested env' tokenAddress withdrawals = requested env tokenAddress withdrawals := by
  unfold requested
  rw [isHalted_env h]

/-- **Loop lemma.** What the withdrawals of a call come to for an entry. -/
theorem withdrawals_paid (h : withdrawals.foldlM Progress.next progress = .ok progress')
    (hnodup : (addresses progress.grant.tokens).Nodup) (htoken : token ∈ progress.grant.tokens)
    (hrep : token.Representable) :
    ∃ paid transferred,
      amountsOf token.tokenAddress progress'.successfulWithdrawals =
        amountsOf token.tokenAddress progress.successfulWithdrawals ++ paid ∧
      TokenLedger.sent token.tokenAddress progress'.env.tokens.log =
        transferred + TokenLedger.sent token.tokenAddress progress.env.tokens.log ∧
      Paid token (requested progress.env token.tokenAddress withdrawals) paid transferred ∧
      (token.requests progress.env withdrawals).withdrawn = token.withdrawn + paid.sum ∧
      (paid = [] → token.requests progress.env withdrawals = token) := by
  induction withdrawals generalizing progress token with
  | nil =>
      rw [← pure_eq_ok.mp h]
      refine ⟨[], 0, by simp, by simp, .booked ?_ rfl rfl, by simp [TokenBalance.requests],
        fun _ => rfl⟩
      simpa [requested, payments] using hrep.withdrawn
  | cons withdrawal withdrawals ih =>
      rw [List.foldlM_cons] at h
      obtain ⟨progress₁, hround, h⟩ := bind_eq_ok.mp h
      -- the first round takes the entry to the one from which the other rounds start
      obtain ⟨paid₁, transferred₁, hamounts₁, hsent₁, hentry⟩ :=
        (Progress.next_report hround).entryRound hnodup htoken
      have hround := Progress.next_eq_ok hround
      have htoken₁ : token.request progress.env withdrawal ∈ progress₁.grant.tokens := by
        rw [hround.grant_eq hnodup]
        exact List.mem_map_of_mem htoken
      have hstore : progress₁.env.store = progress.env.store := by rw [hround.env_eq]
      obtain ⟨paid, transferred, hamounts, hsent, hpaid, hwithdrawn, hsame⟩ :=
        ih h (hround.nodup hnodup) htoken₁ (hrep.request progress.env withdrawal)
      rw [token.request_tokenAddress] at hamounts hsent hpaid
      rw [TokenBalance.requests_env hstore] at hwithdrawn hsame
      rw [requested_env hstore] at hpaid
      refine ⟨paid₁ ++ paid, transferred₁ + transferred, ?_, ?_, hentry.paid hrep hpaid, ?_, ?_⟩
      · rw [hamounts, hamounts₁, List.append_assoc]
      · rw [hsent, hsent₁]
        omega
      · rw [TokenBalance.requests_cons, hwithdrawn, List.sum_append]
        generalize token.request progress.env withdrawal = token₁ at hentry
        cases hentry with
        | other | unbooked => simp
        | booked => simp [add_assoc]
      · intro hnil
        obtain ⟨rfl, rfl⟩ := List.append_eq_nil_iff.mp hnil
        rw [TokenBalance.requests_cons, hsame rfl]
        generalize token.request progress.env withdrawal = token₁ at hentry
        cases hentry with
        | other | unbooked => rfl

/-! ### What a call reports -/

theorem TokenBalance.settled_withdrawn (token : TokenBalance) (secs : Nat) :
    (token.settled secs).withdrawn = token.withdrawn := by
  unfold TokenBalance.settled
  split <;> rfl

/-- What every call that goes through keeps to: its result shares out the requests in their order,
only the recipient is paid, the entries are booked by the successful requests, and an entry without
one is left as the settlement leaves it. -/
structure Booked (env : Env) (grant : MultiTokenGrant) (withdrawals : List TokenWithdrawal)
    (after : Env) (grant' : MultiTokenGrant) (result : MultiTokenWithdrawResult) : Prop where
  interleaved : Interleaved result.successfulWithdrawals result.failedWithdrawals withdrawals
  recipient : ∀ t ∈ after.tokens.log, t.source = env.self ∧ t.target = grant.recipient
  addresses_eq : addresses grant'.tokens = addresses grant.tokens
  successful : ∀ withdrawal ∈ result.successfulWithdrawals,
    withdrawal.tokenAddress ∈ addresses grant.tokens
  withdrawn_eq : ∀ token ∈ grant.tokens, ∀ token' ∈ grant'.tokens,
    token'.tokenAddress = token.tokenAddress → token'.withdrawn =
      token.withdrawn + (amountsOf token.tokenAddress result.successfulWithdrawals).sum
  unchanged : ∀ token ∈ (grant.settled env.timestamp).tokens,
    amountsOf token.tokenAddress result.successfulWithdrawals = [] → token ∈ grant'.tokens

/-- The call reports what it paid: the successful amounts of a token are what was transferred of
it, and their sum is in `total_withdrawn`. -/
structure Reported (env : Env) (grant : MultiTokenGrant) (withdrawals : List TokenWithdrawal)
    (after : Env) (grant' : MultiTokenGrant) (result : MultiTokenWithdrawResult) : Prop
    extends Booked env grant withdrawals after grant' result where
  transferred : ∀ tokenAddress, TokenLedger.sent tokenAddress after.tokens.log =
    (amountsOf tokenAddress result.successfulWithdrawals).sum
  total_withdrawn : ∀ tokenAddress, result.totalWithdrawn tokenAddress =
    if amountsOf tokenAddress result.successfulWithdrawals = [] then none
    else some (amountsOf tokenAddress result.successfulWithdrawals).sum

/-- At most one of the requests for the entry can be paid, and it can be booked. -/
def TokenBalance.PaidOnce (token : TokenBalance) (amounts : List Int) : Prop :=
  (payments token.claimable amounts).length ≤ 1 ∧
    I128.InRange (token.withdrawn + (payments token.claimable amounts).sum)

instance (token : TokenBalance) (amounts : List Int) : Decidable (token.PaidOnce amounts) :=
  inferInstanceAs (Decidable (_ ∧ _))

/-- The condition on the requests under which the call reports what it paid. -/
def MultiTokenGrant.PaidOnce (grant : MultiTokenGrant) (env : Env)
    (withdrawals : List TokenWithdrawal) : Prop :=
  ∀ token ∈ (grant.settled env.timestamp).tokens,
    token.PaidOnce (requested env token.tokenAddress withdrawals)

instance (grant : MultiTokenGrant) (env : Env) (withdrawals : List TokenWithdrawal) :
    Decidable (grant.PaidOnce env withdrawals) :=
  inferInstanceAs (Decidable (∀ token ∈ _, _))

/-! ### One call -/

/-- Before the first round. -/
def Progress.start (env : Env) (grant : MultiTokenGrant) : Progress :=
  { env, grant, successfulWithdrawals := [], failedWithdrawals := []
    totalWithdrawn := fun _ => none }

/-- The result that is returned after the last round. -/
def Progress.result (progress : Progress) (grantId withdrawnAt : Nat) : MultiTokenWithdrawResult :=
  { grantId, successfulWithdrawals := progress.successfulWithdrawals
    failedWithdrawals := progress.failedWithdrawals
    totalWithdrawn := progress.totalWithdrawn, withdrawnAt }

section Call

variable {grantId : Nat} {after : Env} {grant' : MultiTokenGrant}
  {result : MultiTokenWithdrawResult}

theorem writeMultiTokenGrant_grants (env : Env) (grantId : Nat) (grant : MultiTokenGrant) :
    (writeMultiTokenGrant env grantId grant).store.grants grantId = some grant :=
  Function.update_self ..

/-- A call that goes through, in its parts. -/
theorem multiTokenWithdraw_eq_ok
    (h : multiTokenWithdraw env grantId withdrawals = .ok (after, result)) :
    ∃ grant progress full, env.store.grants grantId = some grant ∧
      settleMultiTokenGrant grant env.timestamp = .ok (grant.settled env.timestamp) ∧
      withdrawals.foldlM Progress.next (.start env (grant.settled env.timestamp)) =
        .ok progress ∧
      after = writeMultiTokenGrant progress.env grantId (progress.grant.completedIf full) ∧
      result = progress.result grantId after.timestamp := by
  unfold multiTokenWithdraw at h
  simp only [bind_eq_ok, ensure_eq_ok, pure_eq_ok, Prod.mk.injEq] at h
  obtain ⟨_, -, grant, hgrant, _, -, _, -, settled, hsettle, progress, hloop, full, -, _, -,
    hafter, hresult⟩ := h
  cases settleMultiTokenGrant_eq_ok hsettle
  refine ⟨grant, progress, full, readMultiTokenGrant_eq_ok hgrant, hsettle, hloop, ?_, ?_⟩
  · rw [← hafter]
    cases full <;> rfl
  · rw [← hresult, ← hafter]
    rfl

/-- What the withdrawals of the call come to for an entry. -/
theorem settled_paid (hstored : Stored grant.tokens) (hlog : env.tokens.log = [])
    (hsettle : settleMultiTokenGrant grant env.timestamp = .ok (grant.settled env.timestamp))
    (hloop : withdrawals.foldlM Progress.next (.start env (grant.settled env.timestamp)) =
      .ok progress)
    (htoken : token ∈ (grant.settled env.timestamp).tokens) :
    Paid token (requested env token.tokenAddress withdrawals)
        (amountsOf token.tokenAddress progress.successfulWithdrawals)
        (TokenLedger.sent token.tokenAddress progress.env.tokens.log) ∧
      (token.requests env withdrawals).withdrawn = token.withdrawn +
        (amountsOf token.tokenAddress progress.successfulWithdrawals).sum ∧
      (amountsOf token.tokenAddress progress.successfulWithdrawals = [] →
        token.requests env withdrawals = token) ∧
      token.requests env withdrawals ∈ progress.grant.tokens := by
  have hsettled := hstored.settled hsettle
  obtain ⟨paid, transferred, hamounts, hsent, hpaid, hwithdrawn, hsame⟩ :=
    withdrawals_paid hloop hsettled.distinct htoken (hsettled.representable token htoken)
  have htokens := withdrawals_grant_eq hloop hsettled.distinct
  simp only [Progress.start, amountsOf, List.filter_nil, List.map_nil, List.nil_append] at hamounts
  simp only [Progress.start, hlog, TokenLedger.sent_nil, add_zero] at hsent
  unfold amountsOf
  rw [hamounts, hsent]
  refine ⟨hpaid, hwithdrawn, hsame, ?_⟩
  rw [htokens]
  exact List.mem_map_of_mem htoken

/-- What every call that goes through reports. -/
theorem booked_of_withdrawals (grantId : Nat) (full : Bool) (hstored : Stored grant.tokens)
    (hlog : env.tokens.log = [])
    (hsettle : settleMultiTokenGrant grant env.timestamp = .ok (grant.settled env.timestamp))
    (hloop : withdrawals.foldlM Progress.next (.start env (grant.settled env.timestamp)) =
      .ok progress) :
    InProgress env grant progress ∧
      Booked env grant withdrawals
        (writeMultiTokenGrant progress.env grantId (progress.grant.completedIf full))
        (progress.grant.completedIf full) (progress.result grantId progress.env.timestamp) := by
  have hI : InProgress env grant progress := by
    refine withdrawals_induction (P := InProgress env grant)
      (fun _ _ _ hI hround => hI.next hround) hloop ?_
    refine ⟨rfl, rfl, grant.addresses_settled env.timestamp, fun _ => rfl, ?_, ?_⟩ <;>
      simp [Progress.start, hlog]
  obtain ⟨successful, failed, hsuccessful, hfailed, hshared⟩ := withdrawals_interleaved hloop
  have hdistinct : (addresses progress.grant.tokens).Nodup := hI.addresses_eq ▸ hstored.distinct
  refine ⟨hI, ?_, fun t ht => ⟨(hI.transfers t ht).1, (hI.transfers t ht).2.1⟩, hI.addresses_eq,
    fun withdrawal hmem => (hI.successful withdrawal hmem).2, ?_, ?_⟩
  · dsimp only [Progress.start, Progress.result] at hsuccessful hfailed ⊢
    rw [hsuccessful, hfailed, List.nil_append, List.nil_append]
    exact hshared
  · intro token htoken token' htoken' hkey
    have hsettled : token.settled (grant.elapsed env.timestamp) ∈
        (grant.settled env.timestamp).tokens := List.mem_map_of_mem htoken
    obtain ⟨-, hwithdrawn, -, hmem⟩ := settled_paid hstored hlog hsettle hloop hsettled
    rw [token.settled_tokenAddress] at hwithdrawn
    -- the entry of the token is the only one with its address
    have hfound := KeyedList.find?_of_mem hdistinct htoken'
    have hfound' := KeyedList.find?_of_mem hdistinct hmem
    rw [TokenBalance.requests_tokenAddress, token.settled_tokenAddress, ← hkey] at hfound'
    cases hfound.symm.trans hfound'
    rw [hwithdrawn, token.settled_withdrawn]
    rfl
  · intro token htoken hnone
    obtain ⟨-, -, hsame, hmem⟩ := settled_paid hstored hlog hsettle hloop htoken
    rw [hsame hnone] at hmem
    exact hmem

/-- The result reports what was paid exactly if each token is paid once. -/
theorem reported_iff (hbooked : Booked env grant withdrawals after grant' result)
    (hI : InProgress env grant progress)
    (hlog : after.tokens.log = progress.env.tokens.log)
    (hsuccessful : result.successfulWithdrawals = progress.successfulWithdrawals)
    (htotals : result.totalWithdrawn = progress.totalWithdrawn)
    (hpaid : ∀ token ∈ (grant.settled env.timestamp).tokens,
      Paid token (requested env token.tokenAddress withdrawals)
        (amountsOf token.tokenAddress progress.successfulWithdrawals)
        (TokenLedger.sent token.tokenAddress progress.env.tokens.log)) :
    Reported env grant withdrawals after grant' result ↔ grant.PaidOnce env withdrawals := by
  constructor
  · intro hreported token htoken
    have htransferred := hreported.transferred token.tokenAddress
    have htotal := hreported.total_withdrawn token.tokenAddress
    rw [hlog, hsuccessful] at htransferred
    rw [htotals, hsuccessful, hI.totals, getLast?_eq_sum_iff hI.amounts_pos] at htotal
    cases hpaid token htoken with
    | booked hrange heq =>
        rw [heq] at htotal
        exact ⟨htotal, hrange⟩
    | unbooked _ hexceeds =>
        -- more was transferred than succeeded
        omega
  · intro honce
    have hentry : ∀ tokenAddress,
        TokenLedger.sent tokenAddress progress.env.tokens.log =
            (amountsOf tokenAddress progress.successfulWithdrawals).sum ∧
          (amountsOf tokenAddress progress.successfulWithdrawals).length ≤ 1 := by
      intro tokenAddress
      by_cases hknown : tokenAddress ∈ addresses (grant.settled env.timestamp).tokens
      · obtain ⟨token, htoken, rfl⟩ := List.mem_map.mp hknown
        obtain ⟨hlength, hrange⟩ := honce token htoken
        cases hpaid token htoken with
        | booked _ heq hsum => exact ⟨hsum, heq ▸ hlength⟩
        | unbooked hout => exact absurd hrange hout
      · rw [grant.addresses_settled] at hknown
        obtain ⟨hnone, hsent⟩ := hI.of_unknown hknown
        simp [hnone, hsent]
    refine ⟨hbooked, fun tokenAddress => ?_, fun tokenAddress => ?_⟩
    · rw [hlog, hsuccessful]
      exact (hentry tokenAddress).1
    · rw [htotals, hsuccessful, hI.totals]
      exact (getLast?_eq_sum_iff hI.amounts_pos).mpr (hentry tokenAddress).2

end Call

/-- **Reports of multi-token withdrawals.** Every call that goes through shares out its requests,
pays the recipient only, and books the entries by the successful requests. It reports what it paid
exactly if at most one request for each token can be paid, and booked. -/
theorem withdrawals_reported_iff (host : Optimized.Host) {trace : Trace} {env after : Env}
    {event : Ledger.Event Address Call} {grantId : Nat} {withdrawals : List TokenWithdrawal}
    {result : MultiTokenWithdrawResult} (h : Ledger.Reachable (contract host) trace env)
    (hcall : multiTokenWithdraw (env.enter event) grantId withdrawals = .ok (after, result)) :
    ∃ grant grant', env.store.grants grantId = some grant ∧
      after.store.grants grantId = some grant' ∧
      Booked (env.enter event) grant withdrawals after grant' result ∧
      (Reported (env.enter event) grant withdrawals after grant' result ↔
        grant.PaidOnce (env.enter event) withdrawals) := by
  obtain ⟨grant, progress, full, hgrant, hsettle, hloop, rfl, rfl⟩ := multiTokenWithdraw_eq_ok hcall
  have hstored := (wellStored_of_reachable h).multi grantId grant hgrant
  obtain ⟨hI, hbooked⟩ := booked_of_withdrawals grantId full hstored rfl hsettle hloop
  refine ⟨grant, _, hgrant, writeMultiTokenGrant_grants .., hbooked, ?_⟩
  exact reported_iff hbooked hI rfl rfl rfl fun token htoken =>
    (settled_paid hstored rfl hsettle hloop htoken).1

/-- After 60 seconds: one request for each token can be paid, the others ask for too much. -/
theorem withdrawals_reported_of_one_each :
    let run := Ledger.history (contract Demo.host) Demo.env Demo.setUp
    let withdrawals : List TokenWithdrawal :=
      [⟨Demo.tokenA, 61⟩, ⟨Demo.tokenB, 30⟩, ⟨Demo.tokenA, 60⟩, ⟨Demo.tokenB, 31⟩]
    let event := Demo.call 60 [Optimized.Demo.grantee] (.multiTokenWithdraw 7 withdrawals)
    ∃ after result grant grant',
      multiTokenWithdraw (run.2.enter event) 7 withdrawals = .ok (after, result) ∧
      Reported (run.2.enter event) grant withdrawals after grant' result := by
  intro run withdrawals event
  have hrun : Ledger.Reachable (contract Demo.host) run.1 run.2 :=
    Ledger.history_reachable _ Demo.env_deployed (by decide)
  have hdone : (multiTokenWithdraw (run.2.enter event) 7 withdrawals).toOption.isSome := by decide
  cases hresult : multiTokenWithdraw (run.2.enter event) 7 withdrawals with
  | error => simp [hresult, Except.toOption] at hdone
  | ok result =>
      obtain ⟨grant, grant', hgrant, -, -, hiff⟩ :=
        withdrawals_reported_iff Demo.host hrun hresult
      have hstored : run.2.store.grants 7 = some
          { recipient := Optimized.Demo.grantee
            tokens := [Demo.entry Demo.tokenA, Demo.entry Demo.tokenB]
            lastUpdateTs := 0, rateUpdatedAt := 0, statusMask := statusActive } := by decide
      cases hstored.symm.trans hgrant
      exact ⟨_, _, _, grant', rfl, hiff.mpr (by decide)⟩

/-- 60 and then 40 of one token are withdrawn in one call, and 40 are reported. -/
theorem withdrawals_reported_overwritten :
    ¬∀ (trace : Trace) (env : Env) (event : Ledger.Event Address Call) (grantId : Nat)
      (withdrawals : List TokenWithdrawal) (after : Env) (result : MultiTokenWithdrawResult)
      (grant grant' : MultiTokenGrant), Ledger.Reachable (contract Demo.host) trace env →
      multiTokenWithdraw (env.enter event) grantId withdrawals = .ok (after, result) →
      env.store.grants grantId = some grant → after.store.grants grantId = some grant' →
      Reported (env.enter event) grant withdrawals after grant' result := by
  intro h
  let run := Ledger.history (contract Demo.host) Demo.env Demo.setUp
  let withdrawals : List TokenWithdrawal := [⟨Demo.tokenA, 60⟩, ⟨Demo.tokenA, 40⟩]
  let event := Demo.call 100 [Optimized.Demo.grantee] (.multiTokenWithdraw 7 withdrawals)
  have hrun : Ledger.Reachable (contract Demo.host) run.1 run.2 :=
    Ledger.history_reachable _ Demo.env_deployed (by decide)
  have hdone : (multiTokenWithdraw (run.2.enter event) 7 withdrawals).toOption.map
      (fun r => (r.2.totalWithdrawn Demo.tokenA, r.2.successfulWithdrawals)) =
        some (some 40, withdrawals) := by decide
  cases hresult : multiTokenWithdraw (run.2.enter event) 7 withdrawals with
  | error => simp [hresult, Except.toOption] at hdone
  | ok result =>
      obtain ⟨after, result⟩ := result
      rw [hresult] at hdone
      simp only [Except.toOption, Option.map_some, Option.some.injEq, Prod.mk.injEq] at hdone
      obtain ⟨htotal, hsuccessful⟩ := hdone
      obtain ⟨grant, progress, full, hgrant, -, -, hafter, -⟩ := multiTokenWithdraw_eq_ok hresult
      have hgrant' : after.store.grants 7 = some (progress.grant.completedIf full) := by
        rw [hafter, writeMultiTokenGrant_grants]
      have hreported := (h _ _ event 7 withdrawals after result _ _ hrun hresult hgrant
        hgrant').total_withdrawn Demo.tokenA
      rw [htotal, hsuccessful] at hreported
      exact absurd hreported (by decide)

end YieldTrust.MultiToken
