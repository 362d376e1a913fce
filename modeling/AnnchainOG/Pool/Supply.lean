import AnnchainOG.Ledger.Transfers
import AnnchainOG.Pool.Batch
import Mathlib.Data.FinEnum

/-!
# Conservation of supply

The batch check adds up signed values, and execution rebuilds every balance from its absolute value.
-/

namespace AnnchainOG

open List StateDB

variable {batch : ConfirmBatch} {txi : Txi} {txs : List Txi}
variable {ovm : Ovm} {dag : Dag} {value : Int}

def Dag.supply (dag : Dag) (tokenID : TokenId) : Int :=
  ∑ addr : Address, dag.getBalance addr tokenID

def Txi.isTransfer (txi : Txi) : Bool :=
  match txi.getType, txi.body with
  | .normal, .tx tx => tx.data = []
  | _, _ => false

/-- The payments of a token that executing transfers makes. Nothing goes to the empty address. -/
def payments (tokenID : TokenId) (txs : List Txi) : List (Payment Address) :=
  txs.filterMap fun txi =>
    match txi.body with
    | .tx tx =>
      if tx.tokenId = tokenID ∧ tx.toAddress ≠ emptyAddress then
        some ⟨tx.sender, tx.toAddress, tx.value⟩
      else none
    | _ => none

theorem isTransfer_iff :
    txi.isTransfer = true ↔ txi.getType = .normal ∧ ∃ tx, txi.body = .tx tx ∧ tx.data = [] := by
  unfold Txi.isTransfer
  split
  next isType isBody => simp [isType, isBody]
  rename_i other
  simp only [Bool.false_eq_true, false_iff, not_and, not_exists]
  intro isType tx isBody
  exact (other tx isType isBody).elim

/-! ## A batch of transfers -/

theorem payments_cons {tx : Tx} (isBody : txi.body = .tx tx) (tokenID : TokenId) (txs : List Txi) :
    payments tokenID (txi :: txs) = if tx.tokenId = tokenID ∧ tx.toAddress ≠ emptyAddress then
        ⟨tx.sender, tx.toAddress, tx.value⟩ :: payments tokenID txs else payments tokenID txs := by
  by_cases paid : tx.tokenId = tokenID ∧ tx.toAddress ≠ emptyAddress
  · rw [if_pos paid]
    exact filterMap_cons_some (by simp only [isBody, if_pos paid])
  · rw [if_neg paid]
    exact filterMap_cons_none (by simp only [isBody, if_neg paid])

theorem processAll_transfers (ovm : Ovm) (sequenceID : UInt64)
    (transfers : ∀ txi ∈ txs, txi.isTransfer = true) (sd : StateDB)
    (covered : ∀ tokenID, Payment.Covered (fun addr => sd.getBalance addr tokenID)
      (payments tokenID txs)) :
    ∃ after, processAll ovm sequenceID sd txs = .ok (.ok txs, after) ∧
      (∀ tokenID, (fun addr => after.getBalance addr tokenID) =
        Payment.settle (fun addr => sd.getBalance addr tokenID) (payments tokenID txs)) ∧
      (after.HoldsNil → sd.HoldsNil) := by
  induction txs generalizing sd with
  | nil => exact ⟨sd, rfl, fun _ => rfl, id⟩
  | cons txi txs ih =>
    obtain ⟨isType, tx, isBody, noData⟩ := isTransfer_iff.mp (transfers txi mem_cons_self)
    have first := processTransaction_transfer ovm sequenceID sd isType isBody noData
    have noted := getBalance_updateNonce sd tx.sender txi.getNonce
    have payable : tx.toAddress ≠ emptyAddress → 0 ≤ tx.value ∧
        tx.value ≤ (updateNonce sd tx.sender txi.getNonce).getBalance tx.sender tx.tokenId := by
      intro toAccount
      have covers := covered tx.tokenId
      rw [payments_cons isBody, if_pos ⟨rfl, toAccount⟩] at covers
      rw [noted]
      exact ⟨covers.nonneg _ mem_cons_self, covers.le_balance⟩
    have moved := getBalance_transfer _ payable fun addr =>
      (noted addr tx.tokenId).symm ▸ (covered tx.tokenId).balance_nonneg addr
    simp only [noted] at moved
    have coveredRest : ∀ tokenID, Payment.Covered
        (fun addr => (transfer (updateNonce sd tx.sender txi.getNonce) tx).getBalance addr tokenID)
        (payments tokenID txs) := by
      intro tokenID
      have covers := covered tokenID
      rw [payments_cons isBody] at covers
      rw [moved]
      split
      next paid =>
        rw [if_pos paid] at covers
        exact covers.move
      next unpaid => rwa [if_neg unpaid] at covers
    obtain ⟨after, later, settled, noNil⟩ :=
      ih (fun other member => transfers other (mem_cons_of_mem _ member)) _ coveredRest
    refine ⟨after, ?_, fun tokenID => ?_, fun nil => ?_⟩
    · simp only [processAll, first, later, bind, Except.bind]
      rfl
    · rw [settled, moved, payments_cons isBody]
      split <;> rfl
    · obtain ⟨addr, tokenID, isNil⟩ := StateDB.HoldsNil.of_transfer _ (noNil nil)
      rw [getAllBalance_updateNonce] at isNil
      exact ⟨addr, tokenID, isNil⟩

/-! ## From the batch check to coverage -/

def TxPool.ValuesIn (pool : TxPool) (values : Set Int) : Prop :=
  ∀ hash txi tx, pool.get hash = some txi → txi.body = .tx tx → tx.value ∈ values

theorem Txi.spends_nonneg (nonneg : ∀ tx, txi.body = .tx tx → 0 ≤ tx.value)
    (addr : Address) (tokenID : TokenId) : 0 ≤ txi.spends addr tokenID := by
  unfold Txi.spends
  split
  · exact le_refl 0
  split
  next tx isBody =>
    split
    · exact nonneg tx isBody
    · exact le_refl 0
  · exact le_refl 0

private theorem executionOrder_transfers (transfers : ∀ txi ∈ batch.txs, txi.isTransfer = true) :
    ∀ txi ∈ Dag.executionOrder batch, txi.isTransfer = true := by
  intro txi member
  obtain ⟨tx, inSorted, rfl⟩ := mem_map.mp member
  exact transfers tx ((sortTxis_perm batch.txs).mem_iff.mp inSorted)

private theorem spentBy_executionOrder (batch : ConfirmBatch) (addr : Address) (tokenID : TokenId) :
    spentBy addr tokenID (Dag.executionOrder batch) = spentBy addr tokenID batch.txs := by
  unfold spentBy Dag.executionOrder
  rw [map_map]
  exact ((sortTxis_perm batch.txs).map _).sum_eq

private theorem outgoing_le_spentBy (transfers : ∀ txi ∈ txs, txi.isTransfer = true)
    (nonneg : ∀ txi ∈ txs, ∀ tx, txi.body = .tx tx → 0 ≤ tx.value) (addr : Address)
    (tokenID : TokenId) :
    Payment.outgoing addr (payments tokenID txs) ≤ spentBy addr tokenID txs := by
  induction txs with
  | nil => exact le_refl _
  | cons txi txs ih =>
    obtain ⟨isType, tx, isBody, -⟩ := isTransfer_iff.mp (transfers txi mem_cons_self)
    have rest := ih (fun other member => transfers other (mem_cons_of_mem _ member))
      fun other member => nonneg other (mem_cons_of_mem _ member)
    have value := nonneg txi mem_cons_self tx isBody
    have spent : spentBy addr tokenID (txi :: txs) =
        (if tx.sender = addr ∧ tx.tokenId = tokenID then tx.value else 0) +
          spentBy addr tokenID txs := by
      simp [spentBy, Txi.spends, isType, isBody]
    rw [spent, payments_cons isBody]
    split
    next paid =>
      rw [Payment.outgoing_cons]
      simp only [paid.1, and_true]
      omega
    · split <;> omega

theorem TxPool.confirmHelper_covered {pool : TxPool} {seq : Sequencer}
    (nonneg : ∀ addr tokenID, 0 ≤ pool.dag.getBalance addr tokenID)
    (values : pool.ValuesIn {value | 0 ≤ value}) (accepted : pool.confirmHelper seq = .ok batch)
    (transfers : ∀ txi ∈ batch.txs, txi.isTransfer = true) (tokenID : TokenId) :
    Payment.Covered (fun addr => pool.dag.getBalance addr tokenID)
      (payments tokenID (Dag.executionOrder batch)) := by
  obtain ⟨-, -, elders, found, verified⟩ := confirmHelper_ok accepted
  have elderValues : ∀ txi ∈ elders, ∀ tx, txi.body = .tx tx → 0 ≤ tx.value := by
    intro txi member tx isBody
    obtain ⟨hash, -, pooled⟩ := (seekElders_sound found).1 txi member
    exact values hash txi tx pooled isBody
  have inElders : ∀ txi ∈ Dag.executionOrder batch, ∃ elder ∈ elders, txi.body = elder.body := by
    intro txi member
    obtain ⟨tx, inSorted, rfl⟩ := mem_map.mp member
    have inTxs := (sortTxis_perm batch.txs).mem_iff.mp inSorted
    rw [verified.isTxs] at inTxs
    exact ⟨tx, mem_of_mem_filter inTxs, rfl⟩
  have orderValues : ∀ txi ∈ Dag.executionOrder batch, ∀ tx, txi.body = .tx tx → 0 ≤ tx.value := by
    intro txi member tx isBody
    obtain ⟨elder, inElders, sameBody⟩ := inElders txi member
    exact elderValues elder inElders tx (sameBody ▸ isBody)
  refine ⟨?_, fun addr => ?_⟩
  · intro payment member
    obtain ⟨txi, inOrder, isPayment⟩ := mem_filterMap.mp member
    split at isPayment
    next tx isBody =>
      split at isPayment
      · cases isPayment
        exact orderValues txi inOrder tx isBody
      · cases isPayment
    · cases isPayment
  · calc Payment.outgoing addr (payments tokenID (Dag.executionOrder batch))
        ≤ spentBy addr tokenID (Dag.executionOrder batch) :=
          outgoing_le_spentBy (executionOrder_transfers transfers) orderValues addr tokenID
      _ = spentBy addr tokenID batch.txs := spentBy_executionOrder batch addr tokenID
      _ ≤ spentBy addr tokenID elders := by
          rw [verified.isTxs]
          refine (filter_sublist.map _).sum_le_sum fun amount member => ?_
          obtain ⟨elder, inElders, rfl⟩ := mem_map.mp member
          exact Txi.spends_nonneg (elderValues elder inElders) addr tokenID
      _ ≤ pool.dag.getBalance addr tokenID := by
          rcases verified.covered addr tokenID with nothing | enough
          · rw [nothing]
            exact nonneg addr tokenID
          · exact enough

/-! ## Push -/

structure Dag.Conserves (before after : Dag) : Prop where
  nonneg : ∀ addr tokenID, 0 ≤ after.getBalance addr tokenID
  supply : ∀ tokenID, after.supply tokenID = before.supply tokenID

theorem Dag.push_balances
    {statedb : StateDB} (height : dag.latestSequencer.base.height + 1 = batch.seq.base.height)
    (executed : dag.execute ovm batch = .ok (.ok txs, statedb)) :
    (∃ after, dag.push ovm noFault batch = .done after ∧
        ∀ addr, after.statedb.getAllBalance addr = statedb.getAllBalance addr) ∨
      (dag.push ovm noFault batch = .crashed .nilPointer ∧ statedb.HoldsNil) ∨
      (dag.push ovm noFault batch = .crashed .typeAssertion ∧
        (batch.seq.base.type = .normal ∨ batch.seq.base.type = .action)) := by
  have isPush := push_of_executed height executed
  rcases processTransaction_seq ovm dag.latestSequencer.base.height statedb batch.seq with
    ⟨asserted, tag⟩ | ⟨last, processed, isLast⟩
  · simp only [asserted] at isPush
    exact .inr (.inr ⟨isPush, tag⟩)
  have sameSets : ∀ addr, last.getAllBalance addr = statedb.getAllBalance addr := by
    rcases isLast with rfl | rfl
    · exact fun _ => rfl
    · exact getAllBalance_updateNonce _ _ _
  simp only [processed] at isPush
  rcases last.commit_cases with committed | ⟨panicked, addr, tokenID, isNil⟩
  · simp only [committed] at isPush
    exact .inl ⟨_, isPush, fun addr => (last.getAllBalance_committed addr).trans (sameSets addr)⟩
  · simp only [panicked] at isPush
    exact .inr (.inl ⟨isPush, addr, tokenID, sameSets addr ▸ isNil⟩)

theorem Dag.push_transfers (ovm : Ovm)
    (height : dag.latestSequencer.base.height + 1 = batch.seq.base.height)
    (transfers : ∀ txi ∈ batch.txs, txi.isTransfer = true)
    (covered : ∀ tokenID, Payment.Covered (fun addr => dag.getBalance addr tokenID)
      (payments tokenID (Dag.executionOrder batch))) :
    (∃ after, dag.push ovm noFault batch = .done after ∧ dag.Conserves after) ∨
      (dag.push ovm noFault batch = .crashed .nilPointer ∧ dag.statedb.HoldsNil) ∨
      (dag.push ovm noFault batch = .crashed .typeAssertion ∧
        (batch.seq.base.type = .normal ∨ batch.seq.base.type = .action)) := by
  have snapshotBalance : ∀ addr tokenID,
      dag.statedb.snapshot.2.getBalance addr tokenID = dag.getBalance addr tokenID := by
    intro addr tokenID
    rw [Dag.getBalance, getBalance_eq_amount, getBalance_eq_amount, getAllBalance_snapshot]
  obtain ⟨statedb, executed, settled, noNil⟩ :=
    processAll_transfers ovm dag.latestSequencer.base.height (executionOrder_transfers transfers)
      dag.statedb.snapshot.2 (by simpa only [snapshotBalance] using covered)
  simp only [snapshotBalance] at settled
  rcases push_balances height executed with ⟨after, isPush, sameSets⟩ | ⟨isPush, nil⟩ | mistagged
  · have balances : ∀ addr tokenID, after.getBalance addr tokenID =
        Payment.settle (fun addr => dag.getBalance addr tokenID)
          (payments tokenID (Dag.executionOrder batch)) addr := by
      intro addr tokenID
      rw [← settled tokenID, Dag.getBalance, getBalance_eq_amount, sameSets]
      exact (getBalance_eq_amount _ _ _).symm
    refine .inl ⟨after, isPush, fun addr tokenID => ?_, fun tokenID => ?_⟩
    · rw [balances]
      exact (covered tokenID).settle_nonneg addr
    · simp only [supply, balances]
      exact Payment.sum_settle _ _
  · obtain ⟨holder, heldID, wasNil⟩ := noNil nil
    rw [getAllBalance_snapshot] at wasNil
    exact .inr (.inl ⟨isPush, holder, heldID, wasNil⟩)
  · exact .inr (.inr mistagged)

/-! ## Negative values -/

def owing (value : Int) : Txi := ⟨⟨.normal, 1, [], 1, 1, 0⟩, .tx ⟨1, 2, value, ogTokenID, []⟩⟩

def owingSequencer : Sequencer := ⟨⟨.sequencer, 101, [1], 1, 1, 0⟩, 9⟩

def owingPool (value : Int) : TxPool :=
  { TxPool.init Dag.empty Dag.empty.latestSequencer with
    txLookup := TxLookUp.empty.add ⟨owing value, .localTx, .tip, 1⟩ }

private theorem empty_getAllBalance (addr : Address) : Dag.empty.statedb.getAllBalance addr = ∅ :=
  rfl

private theorem empty_supply (tokenID : TokenId) : Dag.empty.supply tokenID = 0 :=
  Finset.sum_eq_zero fun _ _ => rfl

private theorem owingPool_accepts (negative : value < 0) :
    (owingPool value).confirmHelper owingSequencer = .ok ⟨owingSequencer, [owing value]⟩ := by
  have enough : ¬ (owingPool value).dag.getBalance 1 ogTokenID < 0 + value := by
    show ¬ (0 : Int) < 0 + value
    omega
  have checked : (owingPool value).checkBalances 1 [⟨ogTokenID, 0 + value⟩] = .ok () := by
    rw [TxPool.checkBalances, if_neg enough]
    rfl
  have verified : (owingPool value).verifyDetails owingSequencer [⟨1,
      (TxPool.BatchDetail.empty.put (owing value)).addNeg ogTokenID value⟩] = .ok () := by
    show ((owingPool value).checkBalances 1 [⟨ogTokenID, 0 + value⟩] >>= fun _ => _) = _
    rw [checked]
    rfl
  have found : (owingPool value).seekElders owingSequencer.txi = .ok [owing value] := rfl
  have batched : (owingPool value).verifyConfirmBatch owingSequencer [owing value] =
      .ok ⟨owingSequencer, [owing value]⟩ := by
    show ((owingPool value).verifyDetails owingSequencer [⟨1,
      (TxPool.BatchDetail.empty.put (owing value)).addNeg ogTokenID value⟩] >>= fun _ => _) = _
    rw [verified]
    rfl
  have good : (owingPool value).isBadSeq owingSequencer = .ok () := rfl
  simp only [TxPool.confirmHelper, good, found, batched, bind, Except.bind]

private theorem push_owing {after : Dag} (negative : value < 0)
    (pushed : Dag.empty.push ovm noFault ⟨owingSequencer, [owing value]⟩ = .done after) :
    after.supply ogTokenID = -value := by
  have executed : Dag.empty.execute ovm ⟨owingSequencer, [owing value]⟩ = .ok (.ok [owing value],
      transfer (updateNonce Dag.empty.statedb.snapshot.2 1 1) ⟨1, 2, value, ogTokenID, []⟩) := by
    have first := processTransaction_transfer ovm Dag.empty.latestSequencer.base.height
      Dag.empty.statedb.snapshot.2 (show (owing value).getType = .normal from rfl)
      (show (owing value).body = .tx ⟨1, 2, value, ogTokenID, []⟩ from rfl) rfl
    show (processTransaction ovm _ _ (owing value) >>= _) = _
    rfl
  have balances : ∀ addr, after.getBalance addr ogTokenID = if addr = 2 then -value else 0 := by
    have changes : value ≠ 0 := by omega
    have moves : value ≠ 0 ∧ (2 : Address) ≠ emptyAddress := ⟨changes, by decide⟩
    have gained : bigAdd 0 value = -value := by
      simp only [bigAdd, zero_add]
      omega
    intro addr
    rcases Dag.push_balances (show Dag.empty.latestSequencer.base.height + 1 = _ from rfl)
      executed with ⟨other, isPush, sameSets⟩ | ⟨isPush, -⟩ | ⟨isPush, -⟩
    · rw [pushed] at isPush
      cases isPush
      rw [Dag.getBalance, getBalance_eq_amount, sameSets]
      simp only [transfer, if_pos moves, getAllBalance_addBalance _ _ _ changes,
        getAllBalance_subBalance _ _ _ changes, getBalance_eq_amount,
        getAllBalance_updateNonce, getAllBalance_snapshot, empty_getAllBalance,
        if_neg (show ¬ (2 : Address) = 1 by decide)]
      split
      · rw [BalanceSet.amount_set, Function.update_self]
        exact gained
      split
      · rw [BalanceSet.amount_set, Function.update_self]
        rfl
      · rfl
    · rw [pushed] at isPush
      cases isPush
    · rw [pushed] at isPush
      cases isPush
  simp [Dag.supply, balances]

end AnnchainOG
