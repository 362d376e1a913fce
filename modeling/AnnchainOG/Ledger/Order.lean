import AnnchainOG.Ledger.Confirmed
import AnnchainOG.Lib.Sorting
import Mathlib.Data.Prod.Lex

/-!
# The order of execution

A verified weight is one more than the largest one of the parents.
-/

namespace AnnchainOG

open List

variable {find : Hash → Option Txi} {left right : Txi}

/-! ## Weights -/

def maxWeight (parents : List Txi) : UInt64 :=
  parents.foldl (fun max parent => if parent.getWeight > max then parent.getWeight else max) 0

def calculateWeight (parents : List Txi) : UInt64 :=
  maxWeight parents + 1

/-- `GraphVerifier.verifyWeight`. A parent is looked for in the pool and then in the ledger. -/
def verifyWeight (find : Hash → Option Txi) (tx : Txi) : Bool :=
  match tx.parents.mapM find with
  | none => false
  | some parents => calculateWeight parents = tx.getWeight

private theorem maxWeight_loop (parents : List Txi) (start : UInt64) :
    let max := parents.foldl
      (fun max parent => if parent.getWeight > max then parent.getWeight else max) start
    start ≤ max ∧ (∀ parent ∈ parents, parent.getWeight ≤ max) ∧
      (max = start ∨ ∃ parent ∈ parents, max = parent.getWeight) := by
  induction parents generalizing start with
  | nil => exact ⟨UInt64.le_refl _, by simp, .inl rfl⟩
  | cons first rest ih =>
    rw [foldl_cons]
    by_cases larger : first.getWeight > start
    · rw [if_pos larger]
      obtain ⟨atLeast, bounds, isMax⟩ := ih first.getWeight
      refine ⟨UInt64.le_trans (UInt64.le_of_lt larger) atLeast, ?_, .inr ?_⟩
      · intro parent member
        rcases mem_cons.mp member with rfl | inRest
        · exact atLeast
        · exact bounds parent inRest
      · rcases isMax with isFirst | ⟨parent, inRest, isParent⟩
        · exact ⟨first, mem_cons_self, isFirst⟩
        · exact ⟨parent, mem_cons_of_mem _ inRest, isParent⟩
    · rw [if_neg larger]
      obtain ⟨atLeast, bounds, isMax⟩ := ih start
      refine ⟨atLeast, ?_, ?_⟩
      · intro parent member
        rcases mem_cons.mp member with rfl | inRest
        · exact UInt64.le_trans (UInt64.not_lt.mp larger) atLeast
        · exact bounds parent inRest
      · rcases isMax with isStart | ⟨parent, inRest, isParent⟩
        · exact .inl isStart
        · exact .inr ⟨parent, mem_cons_of_mem _ inRest, isParent⟩

theorem mapM_find {hashes : List Hash} {parents : List Txi}
    (collected : hashes.mapM find = some parents) :
    List.Forall₂ (fun h parent => find h = some parent) hashes parents := by
  induction hashes generalizing parents with
  | nil =>
    cases collected
    exact .nil
  | cons h hashes ih =>
    rw [mapM_cons] at collected
    obtain ⟨parent, found, others⟩ := Option.bind_eq_some_iff.mp collected
    obtain ⟨rest, inRest, isParents⟩ := Option.bind_eq_some_iff.mp others
    cases isParents
    exact .cons found (ih inRest)

theorem verifyWeight_lt {tx parent : Txi} {h : Hash}
    (weighed : verifyWeight find tx = true) (isParent : h ∈ tx.parents)
    (found : find h = some parent)
    (bounded : ∀ other ∈ tx.parents, ∀ stored, find other = some stored →
      stored.getWeight.toNat + 1 < 2 ^ 64) : parent.getWeight < tx.getWeight := by
  unfold verifyWeight at weighed
  split at weighed
  · cases weighed
  rename_i parents collected
  have isWeight : maxWeight parents + 1 = tx.getWeight := of_decide_eq_true weighed
  obtain ⟨-, bounds, isMax⟩ := maxWeight_loop parents 0
  have pairs := mapM_find collected
  obtain ⟨other, inParents, isOther⟩ := exists_of_forall₂_left pairs isParent
  rw [found] at isOther
  cases isOther
  have below : parent.getWeight ≤ maxWeight parents := bounds parent inParents
  have small : (maxWeight parents).toNat + 1 < 2 ^ 64 := by
    rcases isMax with isZero | ⟨heaviest, inParents, isHeaviest⟩
    · rw [maxWeight, isZero]
      decide
    obtain ⟨hash, inHashes, isFound⟩ := exists_of_forall₂_right pairs inParents
    rw [maxWeight, isHeaviest]
    exact bounded hash inHashes heaviest isFound
  have added : (maxWeight parents + 1).toNat = (maxWeight parents).toNat + 1 := by
    exact Nat.mod_eq_of_lt small
  rw [UInt64.lt_iff_toNat_lt, ← isWeight, added]
  exact Nat.lt_succ_of_le (UInt64.le_iff_toNat_le.mp below)

/-! ## Sorting -/

/-- What `Txis.Less` compares. -/
def Txi.rank (tx : Txi) : ℕ ×ₗ ℕ ×ₗ ℕ :=
  toLex (tx.getWeight.toNat, toLex (tx.getNonce.toNat, tx.getTxHash.toNat))

theorem Txi.less_iff (left right : Txi) : left.less right = true ↔ left.rank < right.rank := by
  simp only [less, rank, Prod.Lex.toLex_lt_toLex, UInt64.lt_iff_toNat_lt, gt_iff_lt, compare_step,
    decide_eq_true_eq, BitVec.lt_def]

theorem Txi.getTxHash_eq_of_rank (same : left.rank = right.rank) :
    left.getTxHash = right.getTxHash :=
  BitVec.eq_of_toNat_eq (congrArg (fun rank => (ofLex (ofLex rank).2).2) same)

theorem Txi.rank_lt_of_weight (lighter : left.getWeight < right.getWeight) :
    left.rank < right.rank :=
  Prod.Lex.toLex_lt_toLex.mpr (.inl (UInt64.lt_iff_toNat_lt.mp lighter))

def ParentIn (txs : List Txi) (parent child : Txi) : Prop :=
  parent ∈ txs ∧ child ∈ txs ∧ parent.getTxHash ∈ child.parents

instance (txs : List Txi) (parent child : Txi) : Decidable (ParentIn txs parent child) :=
  inferInstanceAs (Decidable (_ ∧ _ ∧ _))

/-- There is one sorted order, and in it every ancestor comes before its descendants. -/
theorem execution_order_topological (find : Hash → Option Txi) (txs : List Txi)
    (distinct : (txs.map Txi.getTxHash).Nodup) (found : ∀ tx ∈ txs, find tx.getTxHash = some tx)
    (weighed : ∀ tx ∈ txs, verifyWeight find tx = true)
    (bounded : ∀ tx ∈ txs, ∀ h ∈ tx.parents, ∀ parent, find h = some parent →
      parent.getWeight.toNat + 1 < 2 ^ 64)
    (order : List Txi) (permuted : order.Perm txs) (sorter : Sorter) :
    (∀ ancestor descendant, Relation.TransGen (ParentIn txs) ancestor descendant →
      [ancestor, descendant].Sublist (sorter.sort Txi.less order)) ∧
    sorter.sort Txi.less order = sortTxis txs ∧
    ∀ seq, Dag.executionOrder ⟨seq, order⟩ = Dag.executionOrder ⟨seq, txs⟩ := by
  have unique : ∀ sorters : Sorter, sorters.sort Txi.less order = sortTxis txs := by
    intro sorters
    refine sorters.sort_unique Txi.less_iff .insertion permuted fun left isLeft right isRight same => ?_
    exact inj_on_of_nodup_map distinct (permuted.mem_iff.mp isLeft)
      (permuted.mem_iff.mp isRight) (Txi.getTxHash_eq_of_rank same)
  have ordered : ∀ {ancestor descendant}, Relation.TransGen (ParentIn txs) ancestor descendant →
      ancestor ∈ txs ∧ descendant ∈ txs ∧ ancestor.rank < descendant.rank := by
    intro ancestor descendant descends
    have lighter : ∀ {parent child}, ParentIn txs parent child → parent.rank < child.rank := by
      rintro parent child ⟨isParent, isChild, listed⟩
      exact Txi.rank_lt_of_weight (verifyWeight_lt (weighed child isChild) listed
        (found parent isParent) (bounded child isChild))
    induction descends with
    | single step => exact ⟨step.1, step.2.1, lighter step⟩
    | tail _ step ih => exact ⟨ih.1, step.2.1, ih.2.2.trans (lighter step)⟩
  refine ⟨fun ancestor descendant descends => ?_, unique sorter, fun seq => ?_⟩
  · obtain ⟨isAncestor, isDescendant, below⟩ := ordered descends
    exact sorter.sublist_of_lt Txi.less_iff (permuted.mem_iff.mpr isAncestor)
      (permuted.mem_iff.mpr isDescendant) below
  · have sorted : sortTxis order = sortTxis txs := unique .insertion
    rw [Dag.executionOrder, Dag.executionOrder, sorted]

def weighing (hash : Hash) (parents : List Hash) (weight : UInt64) : Txi :=
  ⟨⟨.archive, hash, parents, 0, 0, weight⟩, .archive⟩

def weighed : List Txi := [weighing 3 [1, 2] 3, weighing 1 [2, 9] 2, weighing 2 [9] 1]

theorem execution_order_topological_archives :
    Relation.TransGen (ParentIn weighed) (weighing 2 [9] 1) (weighing 3 [1, 2] 3) ∧
      [weighing 2 [9] 1, weighing 3 [1, 2] 3].Sublist (Sorter.insertion.sort Txi.less weighed) := by
  have descends : Relation.TransGen (ParentIn weighed) (weighing 2 [9] 1) (weighing 3 [1, 2] 3) :=
    .tail (.single (by decide : ParentIn weighed (weighing 2 [9] 1) (weighing 1 [2, 9] 2)))
      (by decide)
  refine ⟨descends, (execution_order_topological
    (fun h => (weighing 9 [] 0 :: weighed).find? fun tx => tx.getTxHash = h) weighed
    (by decide) (by decide) (by decide) ?_ weighed (.refl _) .insertion).1 _ _ descends⟩
  have light : ∀ tx ∈ weighing 9 [] 0 :: weighed, tx.getWeight.toNat + 1 < 2 ^ 64 := by decide
  intro tx member h isParent parent isFound
  exact light parent (mem_of_find?_eq_some isFound)

end AnnchainOG
