import AnnchainOG.Lib.GoMap

/-!
# Basic types of the ledger

Hashes are ideal: a digest is represented by what it digests.
-/

namespace AnnchainOG

variable {α β ε : Type}
variable {value : Int} {first : Except ε α} {result : β}

abbrev Address := BitVec 160

abbrev Hash := BitVec 256

instance : LawfulBEq Hash := inferInstance

abbrev TokenId := Int32

abbrev Bytes := List UInt8

def emptyAddress : Address := 0

def ogTokenID : TokenId := 0

inductive Panic where
  | snapshotNotFound
  | refundBelowZero
  | nilPointer
  | typeAssertion
  | notImplemented
  deriving DecidableEq

/-- `BigInt.Add` and `Sub` rebuild the result from the bytes of its absolute value. -/
def bigAdd (value increment : Int) : Int :=
  (value + increment).natAbs

def bigSub (value decrement : Int) : Int :=
  (value - decrement).natAbs

theorem bigAdd_of_nonneg {increment : Int} (bound : 0 ≤ value + increment) :
    bigAdd value increment = value + increment := by
  unfold bigAdd
  omega

theorem bigSub_of_le {decrement : Int} (bound : decrement ≤ value) :
    bigSub value decrement = value - decrement := by
  unfold bigSub
  omega

theorem bind_ok {next : α → Except ε β} (success : (first >>= next) = .ok result) :
    ∃ value, first = .ok value ∧ next value = .ok result := by
  cases first with
  | error error => cases success
  | ok value => exact ⟨value, rfl, success⟩

theorem map_ok {f : α → β}
    (success : first.map f = .ok result) : ∃ value, first = .ok value ∧ f value = result := by
  cases first with
  | error error => cases success
  | ok value => exact ⟨value, rfl, Except.ok.inj success⟩

theorem ok_of_toOption {result : Except ε α} {value : α}
    (isSome : result.toOption = some value) : result = .ok value := by
  cases result with
  | error error => cases isSome
  | ok value =>
    cases isSome
    rfl

theorem map_eq_cases {f : α → β} {left right : Option α} (same : left.map f = right.map f) :
    (left = none ∧ right = none) ∨ ∃ a b, left = some a ∧ right = some b ∧ f a = f b := by
  cases left with
  | none => exact .inl ⟨rfl, Option.map_eq_none_iff.mp same.symm⟩
  | some a =>
    obtain ⟨b, isRight, same⟩ := Option.map_eq_some_iff.mp same.symm
    exact .inr ⟨a, b, rfl, isRight, same.symm⟩

theorem clash {flag : Bool} {P : Prop} (isFalse : flag = false) (isTrue : flag = true) : P :=
  absurd (isFalse.symm.trans isTrue) Bool.false_ne_true

section

variable {left : List α} {right : List β} {related : α → β → Prop} (all : List.Forall₂ related left
  right)
include all

theorem exists_of_forall₂_left {a : α} (member : a ∈ left) : ∃ b ∈ right, related a b := by
  induction all with
  | nil => cases member
  | cons first _ ih =>
    rcases List.mem_cons.mp member with rfl | later
    · exact ⟨_, List.mem_cons_self, first⟩
    · obtain ⟨b, inRight, isRelated⟩ := ih later
      exact ⟨b, List.mem_cons_of_mem _ inRight, isRelated⟩

theorem exists_of_forall₂_right {b : β} (member : b ∈ right) : ∃ a ∈ left, related a b := by
  have flipped : List.Forall₂ (flip related) right left := List.Forall₂.flip all
  exact exists_of_forall₂_left flipped member

theorem forall₂_iff_of_related {other : α → β → Prop} {holds : α → Prop} (pointwise : ∀ a b,
    related a b → (other a b ↔ holds a)) : List.Forall₂ other left right ↔ ∀ a ∈ left, holds a := by
  induction all with
  | nil => simp
  | cons first _ ih => simp [pointwise _ _ first, ih]

end

end AnnchainOG
