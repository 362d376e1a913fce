import Mathlib.Data.Finset.Card
import Mathlib.Data.List.ReduceOption

/-!
# Votes in slots, and quorums

Votes in different slots are of different voters. Two large quorums share a voter outside any small
set.
-/

namespace AnnchainOG

open Finset List

section Slots

variable {α κ : Type} {key : α → κ} {position : κ → ℕ} {slots : List (Option α)}
variable {first : ℕ} {vote : α}
variable {i : ℕ} {counts : α → Bool} {voter : κ}

theorem forall_set {holds : α → Prop}
    (all : ∀ other, some other ∈ slots → holds other) (isNew : holds vote) :
    ∀ other, some other ∈ slots.set i (some vote) → holds other := by
  intro other member
  cases mem_or_eq_of_mem_set member with
  | inl earlier => exact all other earlier
  | inr isVote =>
    cases isVote
    exact isNew

/-- Every vote stands in the slot of its voter, from slot `first` on. -/
def Placed (key : α → κ) (position : κ → ℕ) (first : ℕ) (slots : List (Option α)) : Prop :=
  ∀ i vote, slots[i]? = some (some vote) → position (key vote) = first + i

theorem placed_replicate (first count : ℕ) :
    Placed key position first (List.replicate count none) := by
  intro i vote found
  rw [getElem?_replicate] at found
  split at found
  · cases found
  · cases found

theorem Placed.set (placed : Placed key position first slots)
    (own : position (key vote) = first + i) :
    Placed key position first (slots.set i (some vote)) := by
  intro j other found
  rw [getElem?_set] at found
  split at found
  next same =>
    split at found
    · obtain rfl : vote = other := Option.some.inj (Option.some.inj found)
      rw [own, same]
    · cases found
  · exact placed j other found

theorem Placed.tail {slot : Option α} (placed : Placed key position first (slot :: slots)) :
    Placed key position (first + 1) slots := by
  intro i vote found
  rw [placed (i + 1) vote found]
  omega

theorem Placed.increasing (placed : Placed key position first slots) :
    ((slots.reduceOption.map key).map position).Pairwise (· < ·) ∧
      ∀ vote ∈ slots.reduceOption, first ≤ position (key vote) := by
  induction slots generalizing first with
  | nil => simp [List.reduceOption]
  | cons slot rest ih =>
    obtain ⟨restIncreasing, restAbove⟩ := ih placed.tail
    cases slot with
    | none => exact ⟨restIncreasing, fun vote member => Nat.le_of_succ_le (restAbove vote member)⟩
    | some head =>
      have isFirst : position (key head) = first := placed 0 head rfl
      rw [reduceOption_cons_of_some]
      constructor
      · simp only [List.map_cons, List.pairwise_cons, List.mem_map]
        refine ⟨?_, restIncreasing⟩
        intro later isLater
        obtain ⟨_, ⟨vote, member, rfl⟩, rfl⟩ := isLater
        have above := restAbove vote member
        omega
      · intro vote member
        cases mem_cons.mp member with
        | inl isHead => rw [isHead, isFirst]
        | inr inRest => exact Nat.le_of_succ_le (restAbove vote inRest)

theorem Placed.nodup (placed : Placed key position first slots) :
    (slots.reduceOption.map key).Nodup := by
  have increasing := placed.increasing.1
  have distinct : ((slots.reduceOption.map key).map position).Nodup :=
    increasing.imp fun less => Nat.ne_of_lt less
  exact distinct.of_map position

variable [DecidableEq κ]

def voters (key : α → κ) (counts : α → Bool) (slots : List (Option α)) : Finset κ :=
  ((slots.reduceOption.filter counts).map key).toFinset

theorem mem_voters :
    voter ∈ voters key counts slots ↔
      ∃ vote, some vote ∈ slots ∧ counts vote = true ∧ key vote = voter := by
  simp [voters, reduceOption_mem_iff, and_assoc]

theorem Placed.mem_voters_set
    (placed : Placed key position 0 slots) (injective : Function.Injective position)
    (inRange : position (key vote) < slots.length) :
    voter ∈ voters key counts (slots.set (position (key vote)) (some vote)) ↔
      if voter = key vote then counts vote = true else voter ∈ voters key counts slots := by
  simp only [mem_voters, mem_iff_getElem?]
  split
  next own =>
    constructor
    · intro counted
      obtain ⟨other, ⟨i, found⟩, counts, isVoter⟩ := counted
      rw [getElem?_set] at found
      split at found
      · cases found
        exact counts
      have place := placed i other found
      rw [isVoter, own] at place
      omega
    · intro counted
      exact ⟨vote, ⟨position (key vote), by rw [getElem?_set_self inRange]⟩, counted, own.symm⟩
  next different =>
    constructor
    · intro counted
      obtain ⟨other, ⟨i, found⟩, counts, isVoter⟩ := counted
      rw [getElem?_set] at found
      split at found
      · cases found
        exact absurd isVoter.symm different
      · exact ⟨other, ⟨i, found⟩, counts, isVoter⟩
    · intro counted
      obtain ⟨other, ⟨i, found⟩, counts, isVoter⟩ := counted
      refine ⟨other, ⟨i, ?_⟩, counts, isVoter⟩
      have elsewhere : position (key vote) ≠ i := by
        intro same
        have place := placed i other found
        rw [Nat.zero_add, ← same] at place
        exact different (isVoter.symm.trans (injective place))
      rw [getElem?_set_ne elsewhere, found]

omit [DecidableEq κ] in
theorem length_filter_reduceOption (counts : α → Bool) (slots : List (Option α)) :
    (slots.reduceOption.filter counts).length = slots.countP fun slot => slot.any counts := by
  induction slots with
  | nil => rfl
  | cons slot rest ih =>
    cases slot with
    | none => simpa [reduceOption_cons_of_none] using ih
    | some vote => cases isCounted : counts vote <;> simp [isCounted, ih]

theorem Placed.card_voters (placed : Placed key position first slots) (counts : α → Bool) :
    (voters key counts slots).card = slots.countP fun slot => slot.any counts := by
  have distinct : ((slots.reduceOption.filter counts).map key).Nodup :=
    placed.nodup.sublist (filter_sublist.map key)
  rw [voters, toFinset_card_of_nodup distinct, length_map, length_filter_reduceOption]

end Slots

section Quorums

variable {κ : Type} [DecidableEq κ] {all faulty left right : Finset κ}

theorem quorums_meet (leftAll : left ⊆ all) (rightAll : right ⊆ all)
    (enough : all.card + faulty.card < left.card + right.card) :
    ∃ voter ∈ left, voter ∈ right ∧ voter ∉ faulty := by
  have inAll : (left ∪ right).card ≤ all.card := card_le_card (union_subset leftAll rightAll)
  have counted := card_union_add_card_inter left right
  have notFaulty : ¬ left ∩ right ⊆ faulty := by
    intro inFaulty
    have few := card_le_card inFaulty
    omega
  obtain ⟨voter, member, honest⟩ := not_subset.mp notFaulty
  obtain ⟨inLeft, inRight⟩ := mem_inter.mp member
  exact ⟨voter, inLeft, inRight, honest⟩

theorem quorums_agree {β : Type} {cast : κ → β → Prop} {value other : β}
    (single : ∀ voter ∈ all, voter ∉ faulty → ∀ one two, cast voter one → cast voter two → one = two)
    (leftAll : left ⊆ all) (rightAll : right ⊆ all)
    (enough : all.card + faulty.card < left.card + right.card)
    (leftCast : ∀ voter ∈ left, voter ∉ faulty → cast voter value)
    (rightCast : ∀ voter ∈ right, voter ∉ faulty → cast voter other) : value = other := by
  obtain ⟨voter, inLeft, inRight, honest⟩ := quorums_meet leftAll rightAll enough
  exact single voter (leftAll inLeft) honest value other (leftCast voter inLeft honest)
    (rightCast voter inRight honest)

end Quorums

end AnnchainOG
