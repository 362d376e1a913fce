import Mathlib.Algebra.BigOperators.Pi
import Mathlib.Algebra.Order.BigOperators.Group.List
import Mathlib.Algebra.Ring.Int.Defs

/-!
# Payments between accounts

Settling payments one by one keeps the total; it keeps every balance non-negative if no account
pays out more than it held at first.
-/

structure Payment (α : Type) where
  source : α
  target : α
  amount : Int

namespace Payment

variable {α : Type} [DecidableEq α]
variable {payments : List (Payment α)} (balances : α → Int) {payment : Payment α}

def move (payment : Payment α) : α → Int :=
  balances - Pi.single payment.source payment.amount + Pi.single payment.target payment.amount

theorem sum_move [Fintype α] (payment : Payment α) :
    ∑ account, move balances payment account = ∑ account, balances account := by
  simp [move, Finset.sum_add_distrib, Finset.sum_sub_distrib, Finset.sum_pi_single']

theorem move_zero (nothing : payment.amount = 0) : move balances payment = balances := by
  simp [move, nothing]

def outgoing (account : α) (payments : List (Payment α)) : Int :=
  (payments.map fun payment => if payment.source = account then payment.amount else 0).sum

theorem outgoing_cons (account : α) (payment : Payment α) (payments : List (Payment α)) :
    outgoing account (payment :: payments) =
      (if payment.source = account then payment.amount else 0) + outgoing account payments := by
  simp [outgoing]

/-- Every payment is non-negative and the balances cover what each account pays out. -/
structure Covered (balances : α → Int) (payments : List (Payment α)) : Prop where
  nonneg : ∀ payment ∈ payments, 0 ≤ payment.amount
  covers : ∀ account, outgoing account payments ≤ balances account

theorem outgoing_nonneg (nonneg : ∀ payment ∈ payments, 0 ≤ payment.amount) (account : α) :
    0 ≤ outgoing account payments := by
  refine List.sum_nonneg fun amount member => ?_
  obtain ⟨payment, inPayments, rfl⟩ := List.mem_map.mp member
  split
  · exact nonneg payment inPayments
  · exact le_refl 0

variable {balances}

theorem Covered.balance_nonneg
    (covered : Covered balances payments) (account : α) : 0 ≤ balances account :=
  (outgoing_nonneg covered.nonneg account).trans (covered.covers account)

theorem Covered.le_balance (covered : Covered balances (payment :: payments)) :
    payment.amount ≤ balances payment.source := by
  have covers := covered.covers payment.source
  have rest := outgoing_nonneg
    (fun other member => covered.nonneg other (List.mem_cons_of_mem _ member)) payment.source
  rw [outgoing_cons, if_pos rfl] at covers
  omega

variable (balances)

theorem move_apply (payment : Payment α) (account : α) :
    move balances payment account =
      balances account - (if payment.source = account then payment.amount else 0) +
        if payment.target = account then payment.amount else 0 := by
  simp only [move, Pi.add_apply, Pi.sub_apply, Pi.single_apply, eq_comm]

variable {balances} in
theorem Covered.move (covered : Covered balances (payment :: payments)) :
    Covered (move balances payment) payments := by
  refine ⟨fun other member => covered.nonneg other (List.mem_cons_of_mem _ member), ?_⟩
  intro account
  have covers := covered.covers account
  have nonneg := covered.nonneg payment List.mem_cons_self
  have credit : 0 ≤ if payment.target = account then payment.amount else 0 := by
    split
    · exact nonneg
    · exact le_refl 0
  rw [outgoing_cons] at covers
  rw [move_apply]
  omega

def settle (payments : List (Payment α)) : α → Int :=
  payments.foldl move balances

theorem sum_settle [Fintype α] (payments : List (Payment α)) :
    ∑ account, settle balances payments account = ∑ account, balances account := by
  induction payments generalizing balances with
  | nil => rfl
  | cons payment payments ih => exact (ih (move balances payment)).trans (sum_move balances payment)

def incoming (account : α) (payments : List (Payment α)) : Int :=
  (payments.map fun payment => if payment.target = account then payment.amount else 0).sum

theorem incoming_cons (account : α) (payment : Payment α) (payments : List (Payment α)) :
    incoming account (payment :: payments) =
      (if payment.target = account then payment.amount else 0) + incoming account payments := by
  simp [incoming]

theorem settle_apply (payments : List (Payment α)) (account : α) :
    settle balances payments account =
      balances account - outgoing account payments + incoming account payments := by
  induction payments generalizing balances with
  | nil => simp [settle, outgoing, incoming]
  | cons payment payments ih =>
    refine (ih (move balances payment)).trans ?_
    rw [move_apply, outgoing_cons, incoming_cons]
    omega

variable {balances}

theorem Covered.settle_nonneg
    (covered : Covered balances payments) (account : α) : 0 ≤ settle balances payments account := by
  induction payments generalizing balances with
  | nil => exact covered.balance_nonneg account
  | cons payment payments ih => exact ih covered.move

end Payment
