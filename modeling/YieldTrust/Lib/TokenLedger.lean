import Mathlib.Algebra.BigOperators.Group.List.Basic
import Mathlib.Algebra.Ring.Int.Defs
import Mathlib.Logic.Function.Basic
import Mathlib.Tactic.Common

/-!
# YieldTrust.Lib.TokenLedger

A **standard token ledger**: for each token the balance of each holder, and the
list of the transfers that were made, newest first. A transfer moves a
non-negative amount the sender has, and fails otherwise.
-/

/-- One transfer of a token. -/
structure TokenLedger.Transfer (A : Type) where
  token : A
  source : A
  target : A
  amount : Int
  deriving DecidableEq

/-- The balances of every token, and the transfers made so far. -/
structure TokenLedger (A : Type) where
  balance : A → A → Int
  log : List (TokenLedger.Transfer A)

namespace TokenLedger

variable {A : Type} [DecidableEq A]

/-- Add `amount` (which may be negative) to what `holder` has of `token`. -/
def credit (balance : A → A → Int) (token holder : A) (amount : Int) : A → A → Int :=
  fun t h => if t = token ∧ h = holder then balance t h + amount else balance t h

/-- Move `amount` of `token` from `source` to `target`. -/
def transfer (L : TokenLedger A) (token source target : A) (amount : Int) :
    Option (TokenLedger A) :=
  if 0 ≤ amount ∧ amount ≤ L.balance token source then
    some { balance := credit (credit L.balance token source (-amount)) token target amount
           log := ⟨token, source, target, amount⟩ :: L.log }
  else none

/-- One payment of a token that both sides know. -/
structure Payment (A : Type) where
  target : A
  amount : Int
  deriving DecidableEq

/-- Make the payments in this order, all of them in `token` and by `source`. -/
def payAll (L : TokenLedger A) (token source : A) : List (Payment A) → Option (TokenLedger A)
  | [] => some L
  | p :: payments =>
    (L.transfer token source p.target p.amount).bind fun L => payAll L token source payments

/-- What `source` gives away by the payments: those to itself do not count. -/
def spentBy (source : A) (payments : List (Payment A)) : Int :=
  (payments.map fun p => if p.target = source then 0 else p.amount).sum

/-- How much of `token` the transfers of a log move. -/
def sent (token : A) (log : List (TokenLedger.Transfer A)) : Int :=
  ((log.filter fun t => t.token = token).map Transfer.amount).sum

@[simp] theorem sent_nil (token : A) : sent token [] = 0 := rfl

theorem sent_cons_self (token source target : A) (amount : Int)
    (log : List (TokenLedger.Transfer A)) :
    sent token (⟨token, source, target, amount⟩ :: log) = amount + sent token log := by
  simp [sent]

theorem sent_cons_of_ne {token : A} {t : TokenLedger.Transfer A} (h : t.token ≠ token)
    (log : List (TokenLedger.Transfer A)) : sent token (t :: log) = sent token log := by
  simp [sent, h]

theorem sent_of_forall_ne {token : A} {log : List (TokenLedger.Transfer A)}
    (h : ∀ t ∈ log, t.token ≠ token) : sent token log = 0 := by
  induction log with
  | nil => simp
  | cons t log ih =>
      rw [List.forall_mem_cons] at h
      rw [sent_cons_of_ne h.1, ih h.2]

/-- Create `amount` of `token` for `target`. -/
def mint (L : TokenLedger A) (token target : A) (amount : Int) : TokenLedger A :=
  { L with balance := credit L.balance token target amount }

theorem transfer_eq_some {L L' : TokenLedger A} {token source target : A} {amount : Int} :
    L.transfer token source target amount = some L' ↔
      (0 ≤ amount ∧ amount ≤ L.balance token source) ∧
      { balance := credit (credit L.balance token source (-amount)) token target amount
        log := ⟨token, source, target, amount⟩ :: L.log } = L' := by
  unfold transfer
  by_cases h : 0 ≤ amount ∧ amount ≤ L.balance token source
  · rw [if_pos h]
    simp [h]
  · rw [if_neg h]
    simp [h]

/-- What the sender has can be transferred. -/
theorem exists_transfer {L : TokenLedger A} {token source : A} (target : A) {amount : Int}
    (hnonneg : 0 ≤ amount) (hle : amount ≤ L.balance token source) :
    ∃ L', L.transfer token source target amount = some L' :=
  ⟨_, transfer_eq_some.mpr ⟨⟨hnonneg, hle⟩, rfl⟩⟩

theorem credit_same (balance : A → A → Int) (token holder : A) (amount : Int) :
    credit balance token holder amount token holder = balance token holder + amount := by
  simp [credit]

theorem credit_holder_ne {balance : A → A → Int} {token t holder h : A} {amount : Int}
    (hh : h ≠ holder) : credit balance token holder amount t h = balance t h := by
  simp [credit, hh]

/-- What a transfer leaves its sender: everything if it went to the sender
itself, the rest otherwise. -/
theorem transfer_balance_source {L L' : TokenLedger A} {token source target : A} {amount : Int}
    (h : L.transfer token source target amount = some L') :
    L'.balance token source =
      L.balance token source - (if target = source then 0 else amount) := by
  obtain ⟨-, rfl⟩ := transfer_eq_some.mp h
  by_cases ht : target = source
  · subst ht
    rw [if_pos rfl, Int.sub_zero]
    show credit (credit L.balance token target (-amount)) token target amount token target = _
    rw [credit_same, credit_same, Int.neg_add_cancel_right]
  · rw [if_neg ht]
    show credit (credit L.balance token source (-amount)) token target amount token source = _
    rw [credit_holder_ne (Ne.symm ht), credit_same, Int.sub_eq_add_neg]

/-- What a transfer brings its receiver: the amount, unless it came from the receiver
itself. -/
theorem transfer_balance_target {L L' : TokenLedger A} {token source target : A} {amount : Int}
    (h : L.transfer token source target amount = some L') :
    L'.balance token target =
      L.balance token target + (if source = target then 0 else amount) := by
  obtain ⟨-, rfl⟩ := transfer_eq_some.mp h
  show credit (credit L.balance token source (-amount)) token target amount token target = _
  rw [credit_same]
  by_cases hs : source = target
  · subst hs
    rw [if_pos rfl, credit_same, Int.neg_add_cancel_right, Int.add_zero]
  · rw [if_neg hs, credit_holder_ne (Ne.symm hs)]

/-- What a holder sends to itself it keeps. -/
theorem transfer_balance_self {L L' : TokenLedger A} {token holder : A} {amount : Int}
    (h : L.transfer token holder holder amount = some L') : L'.balance = L.balance := by
  obtain ⟨-, rfl⟩ := transfer_eq_some.mp h
  funext t other
  simp only [credit]
  split_ifs
  · omega
  · rfl

/-- Nothing happens to other tokens. -/
theorem transfer_balance_other {L L' : TokenLedger A} {token source target t : A} {amount : Int}
    (h : L.transfer token source target amount = some L') (ht : t ≠ token) :
    L'.balance t = L.balance t := by
  obtain ⟨-, rfl⟩ := transfer_eq_some.mp h
  funext holder
  simp [credit, ht]

theorem payAll_balance_other {L L' : TokenLedger A} {token source t : A}
    {payments : List (Payment A)} (h : L.payAll token source payments = some L') (ht : t ≠ token) :
    L'.balance t = L.balance t := by
  induction payments generalizing L with
  | nil =>
      obtain rfl := Option.some.inj h
      rfl
  | cons p payments ih =>
      obtain ⟨L₁, h₁, h⟩ := Option.bind_eq_some_iff.mp h
      rw [ih h, transfer_balance_other h₁ ht]

theorem spentBy_nil (source : A) : spentBy source [] = 0 := rfl

theorem spentBy_cons (source : A) (p : Payment A) (payments : List (Payment A)) :
    spentBy source (p :: payments) =
      (if p.target = source then 0 else p.amount) + spentBy source payments := rfl

theorem payAll_balance_source {L L' : TokenLedger A} {token source : A}
    {payments : List (Payment A)} (h : L.payAll token source payments = some L') :
    L'.balance token source = L.balance token source - spentBy source payments := by
  induction payments generalizing L with
  | nil =>
      obtain rfl := Option.some.inj h
      exact (Int.sub_zero _).symm
  | cons p payments ih =>
      obtain ⟨L₁, h₁, h⟩ := Option.bind_eq_some_iff.mp h
      rw [ih h, transfer_balance_source h₁, spentBy_cons]
      omega

/-- Others can only add to what a holder has. -/
theorem transfer_balance_le {L L' : TokenLedger A} {token source target t holder : A}
    {amount : Int} (h : L.transfer token source target amount = some L') (hs : source ≠ holder) :
    L.balance t holder ≤ L'.balance t holder := by
  obtain ⟨⟨hamount, -⟩, rfl⟩ := transfer_eq_some.mp h
  show _ ≤ credit (credit L.balance token source (-amount)) token target amount t holder
  have hsource : credit L.balance token source (-amount) t holder = L.balance t holder :=
    credit_holder_ne (Ne.symm hs)
  unfold credit at hsource ⊢
  rw [hsource]
  split_ifs <;> omega

theorem mint_balance_le (L : TokenLedger A) (token target t holder : A) {amount : Int}
    (h : 0 ≤ amount) : L.balance t holder ≤ (L.mint token target amount).balance t holder := by
  show _ ≤ credit L.balance token target amount t holder
  unfold credit
  split_ifs <;> omega

/-- Payments are logged as transfers, the last one in front. -/
theorem payAll_log {L L' : TokenLedger A} {token source : A} {payments : List (Payment A)}
    (h : L.payAll token source payments = some L') :
    L'.log = (payments.map fun p => ⟨token, source, p.target, p.amount⟩).reverse ++ L.log := by
  induction payments generalizing L with
  | nil =>
      obtain rfl := Option.some.inj h
      rfl
  | cons p payments ih =>
      obtain ⟨L₁, h₁, h⟩ := Option.bind_eq_some_iff.mp h
      obtain ⟨-, rfl⟩ := transfer_eq_some.mp h₁
      rw [ih h]
      simp

/-- Only non-negative amounts are paid. -/
theorem payAll_nonneg {L L' : TokenLedger A} {token source : A} {payments : List (Payment A)}
    (h : L.payAll token source payments = some L') : ∀ p ∈ payments, 0 ≤ p.amount := by
  induction payments generalizing L with
  | nil => simp
  | cons p payments ih =>
      obtain ⟨L₁, h₁, h⟩ := Option.bind_eq_some_iff.mp h
      intro q hq
      rcases List.mem_cons.mp hq with rfl | hq
      · exact (transfer_eq_some.mp h₁).1.1
      · exact ih h q hq

theorem payAll_append {L : TokenLedger A} {token source : A} (ps qs : List (Payment A)) :
    L.payAll token source (ps ++ qs) =
      (L.payAll token source ps).bind fun L => L.payAll token source qs := by
  induction ps generalizing L with
  | nil => rfl
  | cons p ps ih =>
      show ((L.transfer token source p.target p.amount).bind fun L =>
        L.payAll token source (ps ++ qs)) = _
      rw [funext fun L => ih (L := L)]
      exact (Option.bind_assoc ..).symm

end TokenLedger
