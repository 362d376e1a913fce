import AnnchainOG.Pool.Supply

/-!
# The exact effect of a batch of transfers

Transfers that the confirmed balances cover do not need what is received on the way.
-/

namespace AnnchainOG

open List

def Txi.PlainTransfer (txi : Txi) : Prop :=
  txi.isTransfer = true ∧ ∀ tx, txi.body = .tx tx → 0 ≤ tx.value ∧ tx.toAddress ≠ emptyAddress

def Txi.brings (addr : Address) (tokenID : TokenId) (txi : Txi) : Int :=
  match txi.body with
  | .tx tx => if tx.toAddress = addr ∧ tx.tokenId = tokenID then tx.value else 0
  | _ => 0

def receivedBy (addr : Address) (tokenID : TokenId) (txs : List Txi) : Int :=
  (txs.map (Txi.brings addr tokenID)).sum

section Transfers

variable {txs : List Txi} (plain : ∀ txi ∈ txs, txi.PlainTransfer)
variable {sd : StateDB}

include plain

theorem payments_totals (addr : Address) (tokenID : TokenId) :
    Payment.outgoing addr (payments tokenID txs) = spentBy addr tokenID txs ∧
      Payment.incoming addr (payments tokenID txs) = receivedBy addr tokenID txs := by
  induction txs with
  | nil => exact ⟨rfl, rfl⟩
  | cons txi txs ih =>
    obtain ⟨isTransfer, passes⟩ := plain txi mem_cons_self
    obtain ⟨isType, tx, isBody, -⟩ := isTransfer_iff.mp isTransfer
    obtain ⟨-, toAccount⟩ := passes tx isBody
    obtain ⟨sent, received⟩ := ih fun other member => plain other (mem_cons_of_mem _ member)
    have spends : txi.spends addr tokenID =
        if tx.sender = addr ∧ tx.tokenId = tokenID then tx.value else 0 := by
      simp [Txi.spends, isType, isBody]
    have brings : txi.brings addr tokenID =
        if tx.toAddress = addr ∧ tx.tokenId = tokenID then tx.value else 0 := by
      simp [Txi.brings, isBody]
    have sentAll : spentBy addr tokenID (txi :: txs) =
        txi.spends addr tokenID + spentBy addr tokenID txs := by simp [spentBy]
    have receivedAll : receivedBy addr tokenID (txi :: txs) =
        txi.brings addr tokenID + receivedBy addr tokenID txs := by simp [receivedBy]
    rw [sentAll, receivedAll, spends, brings, payments_cons isBody]
    by_cases sameToken : tx.tokenId = tokenID
    · rw [if_pos ⟨sameToken, toAccount⟩, Payment.outgoing_cons, Payment.incoming_cons, sent,
        received]
      simp [sameToken]
    · rw [if_neg fun paid => sameToken paid.1, sent, received]
      simp [sameToken]

theorem payments_covered
    (covered : ∀ addr tokenID, spentBy addr tokenID txs ≤ sd.getBalance addr tokenID)
    (tokenID : TokenId) :
    Payment.Covered (fun addr => sd.getBalance addr tokenID) (payments tokenID txs) := by
  refine ⟨fun payment member => ?_, fun addr => ?_⟩
  · obtain ⟨txi, inTxs, isPayment⟩ := mem_filterMap.mp member
    split at isPayment
    next tx isBody =>
      split at isPayment
      · cases isPayment
        exact ((plain txi inTxs).2 tx isBody).1
      · cases isPayment
    · cases isPayment
  · rw [(payments_totals plain addr tokenID).1]
    exact covered addr tokenID

theorem processAll_exact (ovm : Ovm) (sequenceID : UInt64)
    (covered : ∀ addr tokenID, spentBy addr tokenID txs ≤ sd.getBalance addr tokenID) :
    ∃ after, processAll ovm sequenceID sd txs = .ok (.ok txs, after) ∧
      ∀ addr tokenID, after.getBalance addr tokenID =
        sd.getBalance addr tokenID - spentBy addr tokenID txs + receivedBy addr tokenID txs := by
  obtain ⟨after, executed, settled, -⟩ := processAll_transfers ovm sequenceID
    (fun txi member => (plain txi member).1) sd (payments_covered plain covered)
  refine ⟨after, executed, fun addr tokenID => ?_⟩
  obtain ⟨sent, received⟩ := payments_totals plain addr tokenID
  rw [← sent, ← received]
  exact (congrFun (settled tokenID) addr).trans (Payment.settle_apply _ _ addr)

end Transfers

variable {first second : List Txi} {addr : Address}

theorem spentBy_perm (permuted : first.Perm second) (addr : Address)
    (tokenID : TokenId) : spentBy addr tokenID first = spentBy addr tokenID second :=
  (permuted.map _).sum_eq

theorem receivedBy_perm (permuted : first.Perm second) (addr : Address)
    (tokenID : TokenId) : receivedBy addr tokenID first = receivedBy addr tokenID second :=
  (permuted.map _).sum_eq

theorem spentBy_nonneg {txs : List Txi} (plain : ∀ txi ∈ txs, txi.PlainTransfer) (addr : Address)
    (tokenID : TokenId) : 0 ≤ spentBy addr tokenID txs := by
  refine sum_nonneg fun amount member => ?_
  obtain ⟨txi, inTxs, rfl⟩ := mem_map.mp member
  exact Txi.spends_nonneg (fun tx isBody => ((plain txi inTxs).2 tx isBody).1) addr tokenID

theorem receivedBy_nonneg {txs : List Txi} (plain : ∀ txi ∈ txs, txi.PlainTransfer)
    (addr : Address) (tokenID : TokenId) : 0 ≤ receivedBy addr tokenID txs := by
  refine sum_nonneg fun amount member => ?_
  obtain ⟨txi, inTxs, rfl⟩ := mem_map.mp member
  unfold Txi.brings
  split
  next tx isBody =>
    split
    · exact ((plain txi inTxs).2 tx isBody).1
    · exact le_refl 0
  · exact le_refl 0

theorem spentBy_eq_zero {txs : List Txi}
    (silent : ∀ txi ∈ txs, txi.sender ≠ .ok addr) (tokenID : TokenId) :
    spentBy addr tokenID txs = 0 := by
  refine sum_eq_zero fun amount member => ?_
  obtain ⟨txi, inTxs, rfl⟩ := mem_map.mp member
  unfold Txi.spends
  split
  · rfl
  split
  next tx isBody =>
    rw [if_neg]
    rintro ⟨rfl, -⟩
    exact silent txi inTxs (by rw [Txi.sender, isBody])
  · rfl

theorem subBalance_nonneg {sd : StateDB} {tokenID : TokenId} {decrement : Int}
    (nonneg : ∀ addr tokenID, 0 ≤ sd.getBalance addr tokenID) (amount : 0 ≤ decrement)
    (enough : decrement ≤ sd.getBalance addr tokenID) (other : Address) (otherID : TokenId) :
    0 ≤ (sd.subBalance addr tokenID decrement).getBalance other otherID := by
  rcases amount.eq_or_lt with isZero | positive
  · rw [StateDB.subBalance, if_pos isZero.symm]
    exact nonneg other otherID
  rw [sd.getBalance_subBalance positive enough]
  split
  next same =>
    rw [same.1, same.2]
    omega
  · rw [sub_zero]
    exact nonneg other otherID

/-- In any order, transfers that the balances cover move what they send, and no balance is negative
on the way, not even between the halves of one. -/
theorem batch_effect_exact (ovm : Ovm) (sequenceID : UInt64) (sd : StateDB) (txs : List Txi)
    (nonneg : ∀ addr tokenID, 0 ≤ sd.getBalance addr tokenID)
    (plain : ∀ txi ∈ txs, txi.PlainTransfer)
    (covered : ∀ txi ∈ txs, ∀ addr tokenID, txi.sender = .ok addr →
      spentBy addr tokenID txs ≤ sd.getBalance addr tokenID)
    (order : List Txi) (permuted : order.Perm txs) :
    (∃ after, processAll ovm sequenceID sd order = .ok (.ok order, after) ∧
      ∀ addr tokenID, after.getBalance addr tokenID =
        sd.getBalance addr tokenID - spentBy addr tokenID txs + receivedBy addr tokenID txs) ∧
    ∀ executed txi tx rest, order = executed ++ txi :: rest → txi.body = .tx tx →
      ∃ between, processAll ovm sequenceID sd executed = .ok (.ok executed, between) ∧
        ∀ addr tokenID, 0 ≤ between.getBalance addr tokenID ∧
          0 ≤ ((updateNonce between tx.sender txi.getNonce).subBalance tx.sender tx.tokenId
            tx.value).getBalance addr tokenID := by
  have orderPlain : ∀ txi ∈ order, txi.PlainTransfer :=
    fun txi member => plain txi (permuted.mem_iff.mp member)
  have orderCovered : ∀ addr tokenID, spentBy addr tokenID order ≤ sd.getBalance addr tokenID := by
    intro addr tokenID
    rw [spentBy_perm permuted]
    by_cases sends : ∃ txi ∈ txs, txi.sender = .ok addr
    · obtain ⟨txi, member, isSender⟩ := sends
      exact covered txi member addr tokenID isSender
    · rw [spentBy_eq_zero fun txi member isSender => sends ⟨txi, member, isSender⟩]
      exact nonneg addr tokenID
  refine ⟨?_, ?_⟩
  · obtain ⟨after, executed, balances⟩ := processAll_exact orderPlain ovm sequenceID orderCovered
    refine ⟨after, executed, fun addr tokenID => ?_⟩
    rw [balances, spentBy_perm permuted, receivedBy_perm permuted]
  · rintro executed txi tx rest rfl isBody
    have executedPlain : ∀ txi ∈ executed, txi.PlainTransfer :=
      fun other member => orderPlain other (mem_append_left _ member)
    have restPlain : ∀ other ∈ rest, other.PlainTransfer :=
      fun other member => orderPlain other (mem_append_right _ (mem_cons_of_mem _ member))
    have own : txi.PlainTransfer := orderPlain txi (by simp)
    obtain ⟨isType, -⟩ := isTransfer_iff.mp own.1
    -- What is spent so far, by the transfer itself and later.
    have splits : ∀ addr tokenID, spentBy addr tokenID (executed ++ txi :: rest) =
        spentBy addr tokenID executed + (txi.spends addr tokenID + spentBy addr tokenID rest) := by
      intro addr tokenID
      simp [spentBy]
    have amount : 0 ≤ tx.value := (own.2 tx isBody).1
    have spendsNonneg : ∀ addr tokenID, 0 ≤ txi.spends addr tokenID :=
      Txi.spends_nonneg fun other isOther => (own.2 other isOther).1
    have left : ∀ addr tokenID, spentBy addr tokenID executed + txi.spends addr tokenID ≤
        sd.getBalance addr tokenID := by
      intro addr tokenID
      have total := orderCovered addr tokenID
      have later := spentBy_nonneg restPlain addr tokenID
      rw [splits] at total
      omega
    obtain ⟨between, ran, balances⟩ := processAll_exact executedPlain ovm sequenceID
      fun addr tokenID => (left addr tokenID).trans' (by have := spendsNonneg addr tokenID; omega)
    have betweenNonneg : ∀ addr tokenID, 0 ≤ between.getBalance addr tokenID := by
      intro addr tokenID
      have enough := left addr tokenID
      have spends := spendsNonneg addr tokenID
      have received := receivedBy_nonneg executedPlain addr tokenID
      rw [balances]
      omega
    refine ⟨between, ran, fun addr tokenID => ⟨betweenNonneg addr tokenID, ?_⟩⟩
    have noted := getBalance_updateNonce between tx.sender txi.getNonce
    refine subBalance_nonneg (fun addr tokenID => ?_) amount ?_ addr tokenID
    · rw [noted]
      exact betweenNonneg addr tokenID
    · have enough := left tx.sender tx.tokenId
      have received := receivedBy_nonneg executedPlain tx.sender tx.tokenId
      have spends : txi.spends tx.sender tx.tokenId = tx.value := by
        simp [Txi.spends, isType, isBody]
      rw [noted, balances]
      omega

def StateDB.endowed : StateDB :=
  ((newStateDB ∅ .empty).addBalance 1 ogTokenID 10).addBalance 2 ogTokenID 3

theorem StateDB.getBalance_endowed (addr : Address) (tokenID : TokenId) :
    StateDB.endowed.getBalance addr tokenID = (if addr = 1 ∧ tokenID = ogTokenID then 10 else 0) +
        if addr = 2 ∧ tokenID = ogTokenID then 3 else 0 := by
  have first : ∀ addr tokenID, ((newStateDB ∅ .empty).addBalance 1 ogTokenID 10).getBalance addr
      tokenID = if addr = 1 ∧ tokenID = ogTokenID then 10 else 0 := by
    intro addr tokenID
    rw [getBalance_addBalance _ (by decide) (by decide)]
    exact Int.zero_add _
  rw [StateDB.endowed, getBalance_addBalance _ (by decide) (by rw [first]; decide), first]

def handing (hash : Hash) (sender recipient : Address) (value : Int) (nonce : UInt64) : Txi :=
  ⟨⟨.normal, hash, [], nonce, 1, 0⟩, .tx ⟨sender, recipient, value, ogTokenID, []⟩⟩

def handed : List Txi := [handing 1 1 1 5 1, handing 2 1 2 5 2, handing 3 2 1 3 1]

theorem batch_effect_exact_chain :
    ∃ after, processAll .idle 0 .endowed [handing 3 2 1 3 1, handing 1 1 1 5 1, handing 2 1 2 5 2] =
        .ok (.ok [handing 3 2 1 3 1, handing 1 1 1 5 1, handing 2 1 2 5 2], after) ∧
      after.getBalance 1 ogTokenID = 8 ∧ after.getBalance 2 ogTokenID = 5 := by
  have nonneg : ∀ addr tokenID, 0 ≤ StateDB.endowed.getBalance addr tokenID := by
    intro addr tokenID
    rw [StateDB.getBalance_endowed]
    split <;> split <;> decide
  have plain : ∀ txi ∈ handed, txi.PlainTransfer := by
    intro txi member
    simp only [handed, mem_cons, not_mem_nil, or_false] at member
    rcases member with rfl | rfl | rfl <;>
      exact ⟨rfl, fun tx isBody => by cases isBody; exact ⟨by decide, by decide⟩⟩
  have tally : ∀ addr tokenID, spentBy addr tokenID handed =
      StateDB.endowed.getBalance addr tokenID := by
    intro addr tokenID
    rw [StateDB.getBalance_endowed]
    simp only [handed, spentBy, Txi.spends, handing, Txi.getType, map_cons, map_nil,
      sum_cons, sum_nil, reduceCtorEq, if_false, eq_comm]
    split <;> split <;> omega
  have permuted : [handing 3 2 1 3 1, handing 1 1 1 5 1, handing 2 1 2 5 2].Perm handed :=
    (perm_append_singleton _ [handing 1 1 1 5 1, handing 2 1 2 5 2]).symm
  obtain ⟨⟨after, executed, balances⟩, -⟩ := batch_effect_exact .idle 0 .endowed handed nonneg plain
    (fun _ _ addr tokenID _ => (tally addr tokenID).le) _ permuted
  refine ⟨after, executed, ?_, ?_⟩ <;>
    (rw [balances, StateDB.getBalance_endowed]; decide)

end AnnchainOG
