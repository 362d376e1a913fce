import Mathlib.Data.List.Pairwise
import Mathlib.Data.List.Sort
import Mathlib.Order.Basic

/-!
# Sorting without stability

A sorting procedure promises a permutation in ascending order, and nothing about items that compare
equal.
-/

namespace AnnchainOG

open List

theorem compare_step {left right : Nat} {rest : Bool} :
    (if left < right then true else if right < left then false else rest) = true ↔
      left < right ∨ left = right ∧ rest = true := by
  rcases lt_trichotomy left right with below | same | above
  · simp [below]
  · simp [same]
  · simp [above, above.asymm, above.ne']

structure Sorter where
  sort : {α : Type} → (α → α → Bool) → List α → List α
  perm : ∀ {α : Type} (less : α → α → Bool) (items : List α), (sort less items).Perm items
  sorted : ∀ {α ρ : Type} [LinearOrder ρ] {less : α → α → Bool} {key : α → ρ},
    (∀ left right, less left right = true ↔ key left < key right) → ∀ items : List α,
      (sort less items).Pairwise fun left right => key left ≤ key right

section Insertion

variable {α ρ : Type} [LinearOrder ρ] {less : α → α → Bool} {key : α → ρ}

theorem not_less_iff (isLess : ∀ left right, less left right = true ↔ key left < key right)
    (left right : α) : less right left = false ↔ key left ≤ key right := by
  rw [← Bool.not_eq_true, isLess, not_lt]

theorem insertionSort_sorted
    (isLess : ∀ left right, less left right = true ↔ key left < key right) (items : List α) :
    (items.insertionSort fun left right => less right left = false).Pairwise
      fun left right => key left ≤ key right := by
  have isTotal : Std.Total fun left right => less right left = false := by
    refine ⟨fun left right => ?_⟩
    rw [not_less_iff isLess, not_less_iff isLess]
    exact le_total _ _
  have isTrans : IsTrans α fun left right => less right left = false := by
    refine ⟨fun first second third => ?_⟩
    rw [not_less_iff isLess, not_less_iff isLess, not_less_iff isLess]
    exact le_trans
  refine (pairwise_insertionSort (fun left right => less right left = false) items).imp ?_
  intro left right notLess
  exact (not_less_iff isLess left right).mp notLess

end Insertion

/-- Insertion from the back, which keeps the order of items that compare equal. -/
def Sorter.insertion : Sorter where
  sort less items := items.insertionSort fun left right => less right left = false
  perm _ items := List.perm_insertionSort _ items
  sorted isLess items := insertionSort_sorted isLess items

namespace Sorter

theorem sort_perm (sorter : Sorter) {α : Type} (less : α → α → Bool) {items others : List α}
    (permuted : items.Perm others) : (sorter.sort less items).Perm (sorter.sort less others) :=
  ((sorter.perm less items).trans permuted).trans (sorter.perm less others).symm

variable {α ρ : Type} [LinearOrder ρ] {less : α → α → Bool} {key : α → ρ}
variable (isLess : ∀ left right, less left right = true ↔ key left < key right)

include isLess

variable (sorter : Sorter)
variable {others items : List α}

theorem sort_keys (permuted : items.Perm others) :
    (sorter.sort less items).map key = (sorter.sort less others).map key := by
  refine List.Perm.eq_of_pairwise' (r := (· ≤ ·)) ?_ ?_ ?_
  · exact pairwise_map.mpr (sorter.sorted isLess items)
  · exact pairwise_map.mpr (sorter.sorted isLess others)
  · exact (sorter.sort_perm less permuted).map key

theorem sort_map {β : Type} {f : α → β} (permuted : items.Perm others)
    (tied : ∀ left ∈ items, ∀ right ∈ items, key left = key right → f left = f right) :
    (sorter.sort less items).map f = (sorter.sort less others).map f := by
  have keys := sorter.sort_keys isLess permuted
  have lengths : (sorter.sort less items).length = (sorter.sort less others).length := by
    have same := congrArg List.length keys
    rwa [length_map, length_map] at same
  refine ext_getElem (by rw [length_map, length_map, lengths]) ?_
  intro index inFirst inSecond
  rw [getElem_map, getElem_map]
  refine tied _ ?_ _ ?_ ?_
  · exact (sorter.perm less items).mem_iff.mp (getElem_mem _)
  · exact permuted.mem_iff.mpr ((sorter.perm less others).mem_iff.mp (getElem_mem _))
  · have same := getElem_of_eq keys (by rw [length_map] at inFirst ⊢; exact inFirst)
    rwa [getElem_map, getElem_map] at same

theorem countP_le_index (items : List α) {index : Nat}
    (bound : index < (sorter.sort less items).length) :
    items.countP (fun item => less item ((sorter.sort less items)[index])) ≤ index := by
  have sorted := sorter.sorted isLess items
  rw [← (sorter.perm less items).countP_eq]
  generalize sorter.sort less items = list at bound sorted
  generalize isItem : list[index] = item
  have noneLater : (list.drop index).countP (fun other => less other item) = 0 := by
    rw [countP_eq_zero]
    intro other member
    obtain ⟨later, inDrop, rfl⟩ := getElem_of_mem member
    rw [getElem_drop, isLess, not_lt, ← isItem]
    rcases Nat.eq_zero_or_pos later with rfl | positive
    · exact le_rfl
    · exact pairwise_iff_getElem.mp sorted _ _ bound _ (by omega)
  calc list.countP (fun other => less other item)
      = (list.take index).countP (fun other => less other item) +
          (list.drop index).countP (fun other => less other item) := by
        rw [← countP_append, take_append_drop]
    _ = (list.take index).countP (fun other => less other item) := by rw [noneLater, Nat.add_zero]
    _ ≤ (list.take index).length := countP_le_length
    _ ≤ index := by
        rw [length_take]
        exact Nat.min_le_left _ _

theorem mem_take {item : α} (member : item ∈ items) {n : Nat}
    (few : items.countP (fun other => !less item other) ≤ n) :
    item ∈ (sorter.sort less items).take n := by
  have sorted := sorter.sorted isLess items
  rw [← (sorter.perm less items).mem_iff] at member
  rw [← (sorter.perm less items).countP_eq] at few
  generalize sorter.sort less items = list at member few sorted
  obtain ⟨index, bound, rfl⟩ := getElem_of_mem member
  have notLarger : ∀ other ∈ list.take (index + 1), (!less list[index] other) = true := by
    intro other isEarly
    obtain ⟨position, inTake, rfl⟩ := getElem_of_mem isEarly
    rw [length_take, Nat.lt_min] at inTake
    rw [getElem_take, Bool.not_eq_true', not_less_iff isLess]
    rcases Nat.lt_or_eq_of_le (Nat.le_of_lt_succ inTake.1) with earlier | rfl
    · exact pairwise_iff_getElem.mp sorted _ _ inTake.2 bound earlier
    · exact le_rfl
  have isSmall : index + 1 ≤ n :=
    calc index + 1 = (list.take (index + 1)).length := by
          rw [length_take]
          omega
      _ = (list.take (index + 1)).countP (fun other => !less list[index] other) :=
          (countP_eq_length.mpr notLarger).symm
      _ ≤ list.countP (fun other => !less list[index] other) :=
          (take_sublist _ _).countP_le
      _ ≤ n := few
  exact mem_take_iff_getElem.mpr ⟨index, by omega, rfl⟩

theorem sort_take (permuted : items.Perm others) {n : Nat}
    (ahead : ∀ left ∈ items, ∀ right ∈ items, key left = key right → left ≠ right →
      n ≤ items.countP fun item => less item left) :
    (sorter.sort less items).take n = (sorter.sort less others).take n := by
  have keys := sorter.sort_keys isLess permuted
  have lengths : (sorter.sort less items).length = (sorter.sort less others).length := by
    have same := congrArg List.length keys
    rwa [length_map, length_map] at same
  refine ext_getElem (by rw [length_take, length_take, lengths]) ?_
  intro index inFirst inSecond
  rw [getElem_take, getElem_take]
  rw [length_take, Nat.lt_min] at inFirst inSecond
  by_contra different
  have same : key (sorter.sort less items)[index] = key (sorter.sort less others)[index] := by
    have equal := getElem_of_eq keys (by rw [length_map]; exact inFirst.2)
    rwa [getElem_map, getElem_map] at equal
  have enough := ahead _ ((sorter.perm less items).mem_iff.mp (getElem_mem inFirst.2)) _
    (permuted.mem_iff.mpr ((sorter.perm less others).mem_iff.mp (getElem_mem inSecond.2)))
    same different
  have bound := sorter.countP_le_index isLess items inFirst.2
  omega

theorem sublist_of_lt {first second : α}
    (isFirst : first ∈ items) (isSecond : second ∈ items) (smaller : key first < key second) :
    [first, second].Sublist (sorter.sort less items) := by
  have sorted := sorter.sorted isLess items
  rw [← (sorter.perm less items).mem_iff] at isFirst isSecond
  generalize sorter.sort less items = list at isFirst isSecond sorted
  induction list with
  | nil => cases isFirst
  | cons head rest ih =>
    obtain ⟨smallest, restSorted⟩ := pairwise_cons.mp sorted
    have later : second ∈ rest := by
      rcases mem_cons.mp isSecond with rfl | inRest
      · rcases mem_cons.mp isFirst with rfl | inRest
        · exact absurd smaller (lt_irrefl _)
        · exact absurd (smallest first inRest) (not_le_of_gt smaller)
      · exact inRest
    rcases mem_cons.mp isFirst with rfl | inRest
    · exact (singleton_sublist.mpr later).cons_cons first
    · exact (ih inRest later restSorted).cons head

theorem sort_unique (sorter other : Sorter) (permuted : items.Perm others)
    (distinct : ∀ left ∈ items, ∀ right ∈ items, key left = key right → left = right) :
    sorter.sort less items = other.sort less others := by
  have permutation : (sorter.sort less items).Perm (other.sort less others) :=
    ((sorter.perm less items).trans permuted).trans (other.perm less others).symm
  refine permutation.eq_of_pairwise ?_ (sorter.sorted isLess items) (other.sorted isLess others)
  intro left right isLeft isRight below above
  have inItems := (sorter.perm less items).mem_iff.mp isLeft
  have alsoItem := permuted.mem_iff.mpr ((other.perm less others).mem_iff.mp isRight)
  exact distinct left inItems right alsoItem (le_antisymm below above)

theorem length_takeWhile {list : List α}
    (sorted : list.Pairwise fun left right => key left ≤ key right) (item : α) :
    (list.takeWhile fun other => less other item).length =
      list.countP fun other => less other item := by
  induction list with
  | nil => rfl
  | cons first rest ih =>
    obtain ⟨smallest, restSorted⟩ := pairwise_cons.mp sorted
    rw [takeWhile_cons, countP_cons]
    by_cases isFirst : less first item = true
    · rw [if_pos isFirst, if_pos isFirst, length_cons, ih restSorted]
    rw [if_neg isFirst, if_neg isFirst, length_nil, Nat.add_zero, eq_comm, countP_eq_zero]
    intro other member
    rw [isLess, not_lt] at isFirst ⊢
    exact isFirst.trans (smallest other member)

theorem insertion_getElem? (item : α) (rest : List α) :
    (insertion.sort less (item :: rest))[(item :: rest).countP fun other => less other item]? =
      some item := by
  have notSelf : ¬ less item item = true := by
    rw [isLess]
    exact lt_irrefl _
  have position : (item :: rest).countP (fun other => less other item) =
      ((insertion.sort less rest).takeWhile fun other => less other item).length := by
    rw [countP_cons, if_neg notSelf, Nat.add_zero,
      length_takeWhile isLess (insertion.sorted isLess rest), (insertion.perm less rest).countP_eq]
  have placed : insertion.sort less (item :: rest) =
      (insertion.sort less rest).takeWhile (fun other => less other item) ++
        item :: (insertion.sort less rest).dropWhile fun other => less other item := by
    refine (insertionSort_cons_eq_take_drop _ item rest).trans ?_
    simp only [Bool.not_eq_false, Bool.decide_eq_true]
    rfl
  rw [placed, position, getElem?_append_right le_rfl, Nat.sub_self]
  rfl

end Sorter

/-! ## Heaps kept in slices -/

section Heap

variable {α : Type} {r : α → α → Prop} {items : List α}

def HeapOrdered (r : α → α → Prop) (items : List α) : Prop :=
  ∀ child low high, items[(child - 1) / 2]? = some low → items[child]? = some high → r low high

theorem HeapOrdered.of_sorted [Std.Refl r] (sorted : items.Pairwise r) : HeapOrdered r items := by
  intro child low high isLow isHigh
  obtain ⟨inParent, rfl⟩ := List.getElem?_eq_some_iff.mp isLow
  obtain ⟨inChild, rfl⟩ := List.getElem?_eq_some_iff.mp isHigh
  have above : (child - 1) / 2 ≤ child := by omega
  exact @Pairwise.rel_get_of_le _ _ _ _ sorted ⟨_, inParent⟩ ⟨_, inChild⟩ above

/-- What the operations of a heap promise on a slice in heap order. -/
structure Heap (r : α → α → Prop) where
  push : List α → α → List α
  remove : List α → Nat → List α
  push_perm : ∀ {items}, HeapOrdered r items → ∀ item, (push items item).Perm (item :: items)
  push_ordered : ∀ {items}, HeapOrdered r items → ∀ item, HeapOrdered r (push items item)
  remove_perm : ∀ {items index}, HeapOrdered r items → index < items.length →
    (remove items index).Perm (items.eraseIdx index)
  remove_ordered : ∀ {items index}, HeapOrdered r items → index < items.length →
    HeapOrdered r (remove items index)

end Heap

end AnnchainOG
