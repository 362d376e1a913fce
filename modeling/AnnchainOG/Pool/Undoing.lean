import AnnchainOG.Pool.Flows
import Mathlib.Algebra.BigOperators.Group.List.Basic
import Mathlib.Algebra.Ring.Int.Defs

/-!
# Taking a transaction out of a flow

`Remove` takes the value of a transfer off what is spent and off the origin balance as well.
-/

namespace AnnchainOG

open List

def Txi.transfers (tokenID : TokenId) (tx : Txi) : Int :=
  if tx.getType ≠ .normal then 0
  else
    match tx.body with
    | .tx txnormal => if txnormal.tokenId = tokenID then txnormal.value else 0
    | _ => 0

theorem Txi.transfers_of_normal {tx : Txi} {txnormal : Tx} {tokenID : TokenId}
    (normal : ¬ tx.getType ≠ .normal) (isBody : tx.body = .tx txnormal) :
    tx.transfers tokenID = if txnormal.tokenId = tokenID then txnormal.value else 0 := by
  rw [transfers, if_neg normal, isBody]

namespace TxList

variable {list : TxList} {tx : Txi} {nonce : UInt64}

theorem remove_put (missing : list.get tx.getNonce = none) :
    (list.put tx).remove tx.getNonce = list := by
  refine (TxList.mk.injEq _ _ _ _).mpr ?_
  rw [put_of_none missing, filter_append, filter_eq_self.mpr, filter_cons_of_neg (by simp),
    filter_nil, append_nil]
  intro other member
  exact bne_iff_ne.mpr fun same => notMem_of_get_eq_none missing (mem_map.mpr ⟨other, member, same⟩)

theorem sum_remove (f : Txi → Int) (found : list.get nonce = some tx) :
    ((list.remove nonce).txflow.map f).sum = (list.txflow.map f).sum + - f tx := by
  obtain ⟨member, isNonce⟩ := get_eq_some_iff.mp found
  have isErase : (list.remove nonce).txflow = list.txflow.erase tx := by
    rw [list.distinct.of_map.erase_eq_filter]
    refine filter_congr fun other inList => ?_
    rw [Bool.eq_iff_iff, bne_iff_ne, bne_iff_ne, ne_eq, ne_eq, not_iff_not]
    exact ⟨fun same => inj_on_of_nodup_map list.distinct inList member (same.trans isNonce.symm),
      fun same => same ▸ isNonce⟩
  rw [isErase, ← sum_map_erase f member, ← sub_eq_add_neg, add_sub_cancel_left]

end TxList

namespace AccountFlow

def Summed (flow : AccountFlow) : Prop :=
  ∀ tokenID state, flow.balances.get? tokenID = some state →
    state.spent = (flow.txlist.txflow.map (Txi.transfers tokenID)).sum

inductive Accepts (flow next : AccountFlow) : Prop where
  | add {tx : Txi} (accepted : flow.add tx = .ok (.ok (), next))
  | remove {nonce : UInt64} (accepted : flow.remove nonce = .ok (.ok (), next))

variable {flow after next : AccountFlow} {tx : Txi} {nonce : UInt64}

theorem add_ok (accepted : flow.add tx = .ok (.ok (), next)) :
    flow.txlist.get tx.getNonce = none ∧ (tx.getType ≠ .normal ∧ next = flow.put tx ∨
      ∃ txnormal state, ¬ tx.getType ≠ .normal ∧ tx.body = .tx txnormal ∧
        flow.balances.get? txnormal.tokenId = some state ∧
        next = ⟨flow.balances.set txnormal.tokenId
          ⟨state.spent + txnormal.value, state.originBalance⟩, flow.txlist.put tx⟩) := by
  unfold add at accepted
  split at accepted
  · cases accepted
  next missing =>
    refine ⟨Option.not_isSome_iff_eq_none.mp missing, ?_⟩
    split at accepted
    next other =>
      cases accepted
      exact .inl ⟨other, rfl⟩
    next normal =>
      split at accepted
      next txnormal isBody =>
        split at accepted
        · cases accepted
        next state isState =>
          unfold BalanceState.trySubBalance at accepted
          split at accepted
          · cases accepted
          next paid =>
            split at paid <;> cases paid
            cases accepted
            exact .inr ⟨txnormal, state, normal, isBody, isState, rfl⟩
      · cases accepted

theorem Summed.set (summed : flow.Summed) {id : TokenId} {before state : BalanceState} {δ : Int}
    {list : TxList} (isBefore : flow.balances.get? id = some before)
    (spent : state.spent = before.spent + δ)
    (sums : ∀ tokenID, (list.txflow.map (Txi.transfers tokenID)).sum =
      (flow.txlist.txflow.map (Txi.transfers tokenID)).sum + if id = tokenID then δ else 0) :
    Summed ⟨flow.balances.set id state, list⟩ := by
  intro tokenID found isFound
  rw [sums]
  rw [GoMap.get?_set] at isFound
  split at isFound
  next same =>
    cases isFound
    rw [spent, summed _ _ isBefore, if_pos same.symm, same]
  next different => rw [if_neg (Ne.symm different), add_zero, summed _ _ isFound]

theorem Summed.accepts (summed : flow.Summed) (accepts : flow.Accepts next) : next.Summed := by
  cases accepts with
  | @add tx accepted =>
    obtain ⟨missing, added⟩ := add_ok accepted
    have sums : ∀ tokenID, ((flow.txlist.put tx).txflow.map (Txi.transfers tokenID)).sum =
        (flow.txlist.txflow.map (Txi.transfers tokenID)).sum + tx.transfers tokenID := by
      intro tokenID
      rw [TxList.put_of_none missing, map_append, sum_append, map_singleton, sum_singleton]
    rcases added with ⟨other, rfl⟩ | ⟨txnormal, state, normal, isBody, isState, rfl⟩
    · intro tokenID state isState
      rw [put, sums, Txi.transfers, if_pos other, add_zero, summed _ _ isState]
    · refine summed.set isState rfl fun tokenID => ?_
      rw [sums, Txi.transfers_of_normal normal isBody]
  | remove accepted =>
    unfold remove at accepted
    split at accepted
    · cases accepted
      exact summed
    next tx found =>
      have sums := fun tokenID => TxList.sum_remove (Txi.transfers tokenID) found
      split at accepted
      next other =>
        cases accepted
        intro tokenID state isState
        rw [removeTx, sums, Txi.transfers, if_pos other, neg_zero, add_zero, summed _ _ isState]
      next normal =>
        split at accepted
        next txnormal isBody =>
          split at accepted
          · cases accepted
          next state isState =>
            unfold BalanceState.tryRemoveValue at accepted
            split at accepted
            · cases accepted
            next paid =>
              split at paid <;> cases paid
              cases accepted
              refine summed.set isState rfl fun tokenID => ?_
              rw [removeTx, sums, Txi.transfers_of_normal normal isBody]
              split <;> simp
        · cases accepted

/-- Removing what was added restores the flow exactly if the transfer moves nothing and nothing
negative is spent. What is spent stays the sum of the listed transfers all the same. -/
theorem remove_add_iff (accepted : flow.add tx = .ok (.ok (), after)) :
    (after.remove tx.getNonce = .ok (.ok (), flow) ↔
      ∀ txnormal state, tx.getType = .normal → tx.body = .tx txnormal →
        flow.balances.get? txnormal.tokenId = some state → txnormal.value = 0 ∧ 0 ≤ state.spent) ∧
      ∀ next, Relation.ReflTransGen Accepts flow next → flow.Summed → next.Summed := by
  refine ⟨?_, fun next run summed => ?_⟩
  · obtain ⟨missing, added⟩ := add_ok accepted
    have found : (flow.txlist.put tx).get tx.getNonce = some tx := by
      rw [TxList.get_put, missing, if_pos rfl, Option.none_or]
    rcases added with ⟨other, rfl⟩ | ⟨txnormal, state, normal, isBody, isState, rfl⟩
    · refine iff_of_true ?_ fun _ _ normal => absurd normal other
      simp only [remove, put, found, removeTx, TxList.remove_put missing]
      rw [if_pos other]
    · simp only [remove, found, removeTx, TxList.remove_put missing, if_neg normal, isBody,
        GoMap.get?_set_self, BalanceState.tryRemoveValue, GoMap.set_set, add_sub_cancel_right]
      split
      next refused =>
        split at refused <;> cases refused
        refine iff_of_false (fun same => by cases same) fun holds => ?_
        have := (holds txnormal state (not_not.mp normal) rfl isState).2
        omega
      next paid =>
        split at paid <;> cases paid
        constructor
        · rintro same other left - isOther isLeft
          cases isOther
          cases isLeft.symm.trans isState
          have isFlow : flow.balances.set _ _ = flow.balances :=
            congrArg balances (Prod.mk.inj (Except.ok.inj same)).2
          rw [← isFlow, GoMap.get?_set_self] at isState
          have := congrArg BalanceState.originBalance (Option.some.inj isState)
          dsimp only at this
          omega
        · intro holds
          obtain ⟨zero, -⟩ := holds txnormal state (not_not.mp normal) rfl isState
          rw [zero, sub_zero, GoMap.set_eq_self isState]
  · induction run with
    | refl => exact summed
    | tail _ accepts ih => exact ih.accepts accepts

def funded : AccountFlow := ⟨(∅ : GoMap TokenId BalanceState).set 0 (newBalanceState 10), .empty⟩

def paying (value : Int) : Txi := ⟨⟨.normal, 1, [], 1, 0, 0⟩, .tx ⟨1, 2, value, 0, []⟩⟩

theorem remove_add_nothing : ∃ after, funded.add (paying 0) = .ok (.ok (), after) ∧
    after.remove (paying 0).getNonce = .ok (.ok (), funded) := by
  have accepted : funded.add (paying 0) = .ok (.ok (), _) := rfl
  refine ⟨_, accepted, (remove_add_iff accepted).1.mpr fun txnormal state _ isBody isState => ?_⟩
  cases isBody
  cases isState
  decide

theorem removed_lowers_origin : ∃ after restored, funded.add (paying 3) = .ok (.ok (), after) ∧
    after.remove 1 = .ok (.ok (), restored) ∧ (restored.balances.get? 0).map
      BalanceState.originBalance = some 7 :=
  ⟨_, _, rfl, rfl, rfl⟩

end AccountFlow

end AnnchainOG
