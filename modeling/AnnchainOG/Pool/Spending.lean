import AnnchainOG.Pool.Structure
import Mathlib.Algebra.BigOperators.Group.List.Basic

/-!
# What the pool spends

The admission check goes by the kind of a transaction, and the flow that records what is spent by
its tag.
-/

namespace AnnchainOG

open GoMap List Option TxLookUp

open AccountFlows (ensureFlow getBalanceState openBalance resetFlow)

/-! ## Sums over the order -/

variable (lookup : TxLookUp)

namespace TxLookUp

variable {h : Hash} {txEnv : TxEnvelope}

def goodAt (h : Hash) : Option Txi :=
  (lookup.getEnvelope h).bind fun txEnv => if txEnv.status.isGood then some txEnv.tx else none

def goodTxs : List Txi :=
  lookup.order.filterMap lookup.goodAt

def spendsAt (addr : Address) (tokenID : TokenId) (h : Hash) : Int :=
  ((lookup.goodAt h).map (Txi.spends addr tokenID)).getD 0

variable {lookup : TxLookUp}

theorem spentBy_goodTxs (addr : Address) (tokenID : TokenId) :
    spentBy addr tokenID lookup.goodTxs =
      (lookup.order.map (lookup.spendsAt addr tokenID)).sum := by
  unfold goodTxs
  induction lookup.order with
  | nil => rfl
  | cons h order ih =>
    rw [map_cons, sum_cons, ← ih]
    cases found : lookup.goodAt h with
    | none => rw [filterMap_cons_none found, spendsAt, found, map_none,
        getD_none, zero_add]
    | some tx => rw [filterMap_cons_some found, spentBy, map_cons, sum_cons,
        spendsAt, found, map_some, getD_some, spentBy]

theorem goodAt_of_found (found : lookup.getEnvelope h = some txEnv) :
    lookup.goodAt h = if txEnv.status.isGood then some txEnv.tx else none := by
  rw [goodAt, found]
  rfl

theorem mem_goodTxs {tx : Txi} (member : tx ∈ lookup.goodTxs) :
    ∃ h txEnv, lookup.getEnvelope h = some txEnv ∧ txEnv.status.isGood = true ∧ txEnv.tx = tx := by
  obtain ⟨h, -, good⟩ := mem_filterMap.mp member
  obtain ⟨txEnv, found, isTx⟩ := bind_eq_some_iff.mp good
  split at isTx
  next isGood =>
    cases isTx
    exact ⟨h, txEnv, found, isGood, rfl⟩
  · cases isTx

theorem sum_changed {f g : Hash → Int} {order : List Hash} (distinct : order.Nodup)
    (listed : h ∈ order) (others : ∀ other, other ≠ h → g other = f other) :
    (order.map g).sum = (order.map f).sum - f h + g h := by
  have same : (order.erase h).map g = (order.erase h).map f := by
    refine map_congr_left fun other member => others other ?_
    exact (distinct.mem_erase_iff.mp member).1
  rw [← sum_map_erase g listed, ← sum_map_erase f listed, same]
  omega

variable {addr : Address} {tokenID : TokenId}

theorem spentBy_add (notGood : txEnv.status.isGood = false)
    (absent : lookup.getEnvelope txEnv.tx.getTxHash = none) :
    spentBy addr tokenID (lookup.add txEnv).goodTxs = spentBy addr tokenID lookup.goodTxs := by
  have notThere : ¬ lookup.txs.contains txEnv.tx.getTxHash = true := by
    intro present
    obtain ⟨other, found⟩ := contains_iff.mp present
    exact absurd (absent.symm.trans found) (by simp)
  have isOrder : (lookup.add txEnv).order = lookup.order ++ [txEnv.tx.getTxHash] := by
    rw [TxLookUp.add, if_neg notThere]
  have same : ∀ h, (lookup.add txEnv).spendsAt addr tokenID h = lookup.spendsAt addr tokenID h := by
    intro h
    unfold spendsAt goodAt
    rw [getEnvelope_add]
    split
    next own =>
      rw [own, absent, getD_none, bind_some, notGood]
      rfl
    · rfl
  have own : lookup.spendsAt addr tokenID txEnv.tx.getTxHash = 0 := by
    rw [spendsAt, goodAt, absent]
    rfl
  rw [spentBy_goodTxs, spentBy_goodTxs, isOrder, map_append, sum_append,
    map_singleton, sum_singleton, same, own, add_zero]
  exact congrArg List.sum (map_congr_left fun h _ => same h)

theorem spentBy_remove (wellFormed : lookup.WellFormed)
    (nothing : lookup.spendsAt addr tokenID h = 0) (removeType : HashOrderRemoveType)
    (removes : removeType ≠ .noRemove) :
    spentBy addr tokenID (lookup.remove h removeType).goodTxs =
      spentBy addr tokenID lookup.goodTxs := by
  have isOrder : (lookup.remove h removeType).order.Perm (lookup.order.erase h) := by
    cases removeType with
    | noRemove => exact absurd rfl removes
    | removeFromFront => exact .refl _
    | removeFromEnd => exact (reverse_perm _).trans ((reverse_perm lookup.order).erase h)
  have same : ∀ other ∈ lookup.order.erase h,
      (lookup.remove h removeType).spendsAt addr tokenID other =
        lookup.spendsAt addr tokenID other := by
    intro other member
    unfold spendsAt goodAt
    rw [getEnvelope_remove, if_neg (wellFormed.distinct.mem_erase_iff.mp member).1]
  rw [spentBy_goodTxs, spentBy_goodTxs, (isOrder.map _).sum_eq, map_congr_left same]
  by_cases listed : h ∈ lookup.order
  · rw [← sum_map_erase (lookup.spendsAt addr tokenID) listed, nothing, zero_add]
  · rw [erase_of_not_mem listed]

theorem spentBy_switchStatus (wellFormed : lookup.WellFormed) (complete : lookup.Complete)
    (found : lookup.getEnvelope h = some txEnv) (status : TxStatus) :
    spentBy addr tokenID (lookup.switchStatus h status).goodTxs =
      spentBy addr tokenID lookup.goodTxs
        - (if txEnv.status.isGood then txEnv.tx.spends addr tokenID else 0)
        + (if status.isGood then txEnv.tx.spends addr tokenID else 0) := by
  have others : ∀ other, other ≠ h →
      (lookup.switchStatus h status).spendsAt addr tokenID other =
        lookup.spendsAt addr tokenID other := by
    intro other different
    unfold spendsAt goodAt
    rw [getEnvelope_switchStatus, if_neg different]
  have before : lookup.spendsAt addr tokenID h =
      if txEnv.status.isGood then txEnv.tx.spends addr tokenID else 0 := by
    rw [spendsAt, goodAt_of_found found]
    split <;> rfl
  have after : (lookup.switchStatus h status).spendsAt addr tokenID h =
      if status.isGood then txEnv.tx.spends addr tokenID else 0 := by
    have switched : (lookup.switchStatus h status).getEnvelope h =
        some { txEnv with status := status } := by
      rw [getEnvelope_switchStatus, if_pos rfl, found]
      rfl
    rw [spendsAt, goodAt_of_found switched]
    split <;> rfl
  rw [spentBy_goodTxs, spentBy_goodTxs, switchStatus_order,
    sum_changed wellFormed.distinct (complete h txEnv found) others, before, after]

end TxLookUp

/-! ## The recorded balances -/

theorem Txi.spends_transfer (txi : Txi) {tx : Tx} (isBody : txi.body = .tx tx)
    (normal : txi.getType = .normal) (addr : Address) (tokenID : TokenId) :
    txi.spends addr tokenID = if tx.sender = addr ∧ tx.tokenId = tokenID then tx.value else 0 := by
  have notArchive : txi.getType ≠ .archive := by
    rw [normal]
    decide
  rw [Txi.spends, if_neg notArchive, isBody]

theorem Txi.TagMatches.spends_sequencer {tx : Txi} (tagMatches : tx.TagMatches)
    (isSequencer : tx.getType = .sequencer) (addr : Address) (tokenID : TokenId) :
    tx.spends addr tokenID = 0 := by
  rw [tagMatches] at isSequencer
  cases isBody : tx.body with
  | sequencer issuer => rw [Txi.spends, isBody, ite_self]
  | _ =>
    rw [isBody] at isSequencer
    cases isSequencer

variable (flows : AccountFlows)

def AccountFlows.recorded (addr : Address) (tokenID : TokenId) : Int :=
  ((flows.getBalanceState addr tokenID).map BalanceState.spent).getD 0

theorem recorded_eq (addr : Address) (tokenID : TokenId) (balance : Int) :
    flows.recorded addr tokenID =
      ((flows.getBalanceState addr tokenID).getD (newBalanceState balance)).spent := by
  rw [AccountFlows.recorded]
  cases flows.getBalanceState addr tokenID <;> rfl

def AccountFlows.Covered (dag : Dag) (flows : AccountFlows) : Prop :=
  ∀ addr tokenID state, flows.getBalanceState addr tokenID = some state →
    state.originBalance = dag.getBalance addr tokenID ∧ state.spent ≤ state.originBalance

namespace TxPool

variable {pool next : TxPool} {tx : Txi} {flows : AccountFlows}
variable {dag : Dag} {txi : Txi}

theorem getBalanceState_ensured (sender addr : Address) (tokenID : TokenId) :
    (flows.ensureFlow sender).getBalanceState addr tokenID = flows.getBalanceState addr tokenID := by
  unfold ensureFlow
  split
  · rfl
  rename_i absent
  simp only [getBalanceState, resetFlow, get?_set]
  split
  next same =>
    rw [same, get?_eq_none absent]
    rfl
  · rfl

theorem getBalanceState_set (sender addr : Address) (flow : AccountFlow) (tokenID : TokenId) :
    getBalanceState (flows.set sender flow) addr tokenID =
      if addr = sender then flow.balances.get? tokenID else flows.getBalanceState addr tokenID := by
  rw [getBalanceState, get?_set]
  split <;> rfl

theorem getBalanceState_getD (sender : Address) (tokenID : TokenId) :
    (((flows.get? sender).getD newAccountFlow).balances.get? tokenID) =
      flows.getBalanceState sender tokenID := by
  rw [getBalanceState]
  cases flows.get? sender <;> rfl

theorem flows_add_other {next : AccountFlows}
    (notNormal : tx.getType ≠ .normal) (entered : AccountFlows.add dag flows tx = .ok next)
    (addr : Address) (tokenID : TokenId) :
    next.getBalanceState addr tokenID = flows.getBalanceState addr tokenID := by
  by_cases archive : tx.getType = .archive
  · rw [AccountFlows.add, if_pos archive] at entered
    cases entered
    rfl
  obtain ⟨sender, opened, answer, flow, -, isOpened, added, rfl⟩ := flows_add_ok archive entered
  rw [openBalance, if_neg notNormal] at isOpened
  cases isOpened
  have sameBalances : flow.balances = ((flows.get? sender).getD newAccountFlow).balances := by
    unfold AccountFlow.add at added
    split at added
    · cases added
      rfl
    · cases added
      rfl
  rw [getBalanceState_set, sameBalances, getBalanceState_getD]
  split
  next same => rw [same]
  · rfl

theorem transferQuality_good {tx : Tx} (good : pool.transferQuality tx = .isGood) :
    let state := (pool.flows.getBalanceState tx.sender tx.tokenId).getD
      (newBalanceState (pool.dag.getBalance tx.sender tx.tokenId))
    tx.value ≤ state.originBalance ∧ state.spent + tx.value ≤ state.originBalance := by
  unfold transferQuality at good
  simp only at good
  split at good
  · cases good
  rename_i within
  split at good
  · cases good
  next enough => exact ⟨not_lt.mp within, not_lt.mp enough⟩

theorem openBalance_get {flow opened : AccountFlow} {tx : Tx}
    (isBody : txi.body = .tx tx) (normal : txi.getType = .normal)
    (isOpened : openBalance dag flow txi = .ok opened) (tokenID : TokenId) :
    opened.balances.get? tokenID = if tokenID = tx.tokenId then
        some ((flow.balances.get? tx.tokenId).getD
          (newBalanceState (dag.getBalance tx.sender tx.tokenId)))
      else flow.balances.get? tokenID := by
  rw [openBalance, if_pos normal] at isOpened
  simp only [isBody] at isOpened
  split at isOpened
  next present =>
    cases isOpened
    obtain ⟨state, found⟩ := contains_iff.mp present
    split
    next same =>
      rw [same, found]
      rfl
    · rfl
  next absent =>
    cases isOpened
    rw [get?_set, get?_eq_none absent]
    rfl

theorem Admits.transfer {tx : Tx}
    (admits : pool.Admits txi flows) (isBody : txi.body = .tx tx) (normal : txi.getType = .normal) :
    ∃ state, state = (pool.flows.getBalanceState tx.sender tx.tokenId).getD
        (newBalanceState (pool.dag.getBalance tx.sender tx.tokenId)) ∧
      state.spent + tx.value ≤ state.originBalance ∧
      ∀ addr tokenID, flows.getBalanceState addr tokenID =
        if addr = tx.sender ∧ tokenID = tx.tokenId then
          some { state with spent := state.spent + tx.value }
        else pool.flows.getBalanceState addr tokenID := by
  have notArchive : txi.getType ≠ .archive := by
    rw [normal]
    decide
  have isSender : txi.sender = .ok tx.sender := by rw [Txi.sender, isBody]
  obtain ⟨opened, answer, flow, isOpened, absent, added, rfl, goodContent⟩ :=
    admits.enters notArchive isSender
  simp only [contentQuality, isBody, Except.ok.injEq] at goodContent
  obtain ⟨-, enough⟩ := transferQuality_good goodContent
  have balances := openBalance_get isBody normal isOpened
  simp only [← getBalanceState_ensureFlow] at balances
  have own := balances tx.tokenId
  rw [if_pos rfl] at own
  unfold AccountFlow.add at added
  simp only [absent, isSome_none, Bool.false_eq_true, if_false, normal, ne_eq,
    not_true_eq_false, isBody, own, BalanceState.trySubBalance, if_neg (not_lt.mpr enough)] at added
  cases added
  refine ⟨_, rfl, enough, fun addr tokenID => ?_⟩
  rw [getBalanceState_set, getBalanceState_ensured]
  by_cases isPayer : addr = tx.sender
  · rw [if_pos isPayer, get?_set, balances, isPayer]
    by_cases isToken : tokenID = tx.tokenId
    · rw [if_pos isToken, if_pos ⟨rfl, isToken⟩]
    · rw [if_neg isToken, if_neg isToken, if_neg fun both => isToken both.2]
  · rw [if_neg isPayer, if_neg fun both => isPayer both.1]

theorem Admits.other
    (admits : pool.Admits tx flows) (notNormal : tx.getType ≠ .normal) (addr : Address)
    (tokenID : TokenId) :
    flows.getBalanceState addr tokenID = pool.flows.getBalanceState addr tokenID := by
  obtain ⟨-, ⟨-, rfl⟩ | ⟨-, sender, -, entered⟩⟩ := admits
  · rfl
  · rw [flows_add_other notNormal entered, getBalanceState_ensured]

theorem Admits.balances (admits : pool.Admits tx flows) (tagMatches : tx.TagMatches) :
    (∃ transfer, tx.body = .tx transfer ∧ tx.getType = .normal) ∨
      (∀ addr tokenID, tx.spends addr tokenID = 0 ∧
        flows.getBalanceState addr tokenID = pool.flows.getBalanceState addr tokenID) ∧
      ∀ transfer, tx.body ≠ .tx transfer := by
  cases isBody : tx.body with
  | tx transfer => exact .inl ⟨transfer, rfl, tagMatches.trans (by rw [isBody]; rfl)⟩
  | _ =>
    have notNormal : tx.getType ≠ .normal := by
      rw [tagMatches, isBody]
      intro same
      cases same
    refine .inr ⟨fun addr tokenID => ⟨?_, admits.other notNormal addr tokenID⟩, ?_⟩
    · rw [Txi.spends, isBody, ite_self]
    · intro transfer same
      cases same

/-! ## The books of the pool -/

/-- The flows record what the tips and pending transactions spend, within the ledger. -/
structure Accounted (pool : TxPool) : Prop where
  tags : ∀ h txEnv, pool.txLookup.getEnvelope h = some txEnv → txEnv.tx.TagMatches
  total : ∀ addr tokenID,
    pool.flows.recorded addr tokenID = spentBy addr tokenID pool.txLookup.goodTxs
  covered : pool.flows.Covered pool.dag
  opened : ∀ h txEnv transfer, pool.txLookup.getEnvelope h = some txEnv →
    txEnv.status.isGood = true → txEnv.tx.body = .tx transfer →
      (pool.flows.getBalanceState transfer.sender transfer.tokenId).isSome = true

section

variable (accounted : pool.Accounted)
include accounted

theorem Accounted.carried (balances : ∀ addr tokenID, next.dag.getBalance addr tokenID =
    pool.dag.getBalance addr tokenID) (flows : ∀ addr tokenID, next.flows.getBalanceState addr
    tokenID = pool.flows.getBalanceState addr tokenID) (total : ∀ addr tokenID, spentBy addr
    tokenID next.txLookup.goodTxs = spentBy addr tokenID pool.txLookup.goodTxs) (origin : ∀ h
    txEnv, next.txLookup.getEnvelope h = some txEnv → txEnv.tx.TagMatches ∧ (txEnv.status.isGood =
    true → (∃ earlier, pool.txLookup.getEnvelope h = some earlier ∧ earlier.tx = txEnv.tx ∧
    earlier.status.isGood = true) ∨ ∀ transfer, txEnv.tx.body ≠ .tx transfer)) :
    next.Accounted where
  tags h txEnv found := (origin h txEnv found).1
  total addr tokenID := by
    rw [total, ← accounted.total, AccountFlows.recorded, flows]
    rfl
  covered addr tokenID state found := by
    rw [flows] at found
    rw [balances]
    exact accounted.covered addr tokenID state found
  opened h txEnv transfer found good isBody := by
    rw [flows]
    rcases (origin h txEnv found).2 good with ⟨earlier, present, sameTx, wasGood⟩ | noTransfer
    · exact accounted.opened h earlier transfer present wasGood (sameTx ▸ isBody)
    · exact absurd isBody (noTransfer transfer)

/-! ## Judging -/

theorem Accounted.add {txEnv : TxEnvelope} (isQueue : txEnv.status = .queue) (tagMatches :
    txEnv.tx.TagMatches) (absent : pool.txLookup.getEnvelope txEnv.tx.getTxHash = none) :
    { pool with txLookup := pool.txLookup.add txEnv }.Accounted := by
  have notGood : txEnv.status.isGood = false := by
    rw [isQueue]
    rfl
  refine accounted.carried (fun _ _ => rfl) (fun _ _ => rfl)
    (fun _ _ => spentBy_add notGood absent) fun h other found => ?_
  rw [getEnvelope_add] at found
  split at found
  next own =>
    rw [own, absent] at found
    cases found
    refine ⟨tagMatches, fun good => ?_⟩
    exact absurd (good.symm.trans notGood) (by decide)
  · exact ⟨accounted.tags h other found, fun good => .inl ⟨other, found, rfl, good⟩⟩

theorem Accounted.remove (filed : pool.Filed) {h : Hash} (nothing : ∀ addr tokenID,
    pool.txLookup.spendsAt addr tokenID h = 0) (removeType : HashOrderRemoveType) (removes :
    removeType ≠ .noRemove) (tips : TxMap) :
    { pool with tips := tips, txLookup := pool.txLookup.remove h removeType }.Accounted := by
  refine accounted.carried (fun _ _ => rfl) (fun _ _ => rfl)
    (fun addr tokenID => spentBy_remove filed.wellFormed (nothing addr tokenID) removeType
      removes) fun other txEnv found => ?_
  rw [getEnvelope_remove] at found
  split at found
  · cases found
  · exact ⟨accounted.tags other txEnv found, fun good => .inl ⟨txEnv, found, rfl, good⟩⟩

theorem Accounted.switch (filed : pool.Filed) {h : Hash} {txEnv : TxEnvelope} (found :
    pool.txLookup.getEnvelope h = some txEnv) {status : TxStatus} (same : status.isGood =
    txEnv.status.isGood) (tips pendings badtxs : TxMap) :
    { pool with
      tips := tips, pendings := pendings, badtxs := badtxs
      txLookup := pool.txLookup.switchStatus h status }.Accounted := by
  refine accounted.carried (fun _ _ => rfl) (fun _ _ => rfl) (fun addr tokenID => ?_)
    fun other otherEnv present => ?_
  · show spentBy addr tokenID (pool.txLookup.switchStatus h status).goodTxs = _
    rw [spentBy_switchStatus filed.wellFormed filed.complete found, same]
    omega
  · replace present : (pool.txLookup.switchStatus h status).getEnvelope other = some otherEnv :=
      present
    rw [getEnvelope_switchStatus] at present
    split at present
    next own =>
      rw [found] at present
      cases present
      refine ⟨accounted.tags h txEnv found, fun good => .inl ⟨txEnv, own ▸ found, rfl, ?_⟩⟩
      rw [← same]
      exact good
    · exact ⟨accounted.tags other otherEnv present, fun good => .inl ⟨otherEnv, present, rfl, good⟩⟩

theorem Accounted.moveParent (filed : pool.Filed) (pHash : Hash) :
    (pool.moveParent pHash).Accounted := by
  unfold TxPool.moveParent
  split
  · exact accounted
  split
  · exact accounted
  rename_i isTip parent found
  rw [filed.tips] at found
  obtain ⟨txEnv, inLookup, rfl, isStatus⟩ := found_of_withStatus found
  split
  next isSequencer =>
    refine accounted.remove filed (fun addr tokenID => ?_) .removeFromFront (by decide) _
    rw [TxLookUp.spendsAt, goodAt_of_found inLookup, isStatus]
    exact (accounted.tags pHash txEnv inLookup).spends_sequencer isSequencer addr tokenID
  · refine accounted.switch filed inLookup ?_ _ _ _
    rw [isStatus]
    rfl

theorem Accounted.moveParents (filed : pool.Filed) (parents : List Hash) :
    (parents.foldl TxPool.moveParent pool).Accounted := by
  induction parents generalizing pool with
  | nil => exact accounted
  | cons pHash rest ih => exact ih (accounted.moveParent filed pHash) (filed.moveParent pHash)

theorem Accounted.admitted {judging : TxPool} (filed : pool.Filed) (queued : pool.Queued tx)
    (admits : judging.Admits tx flows) (sameDag : pool.dag = judging.dag) (sameFlows : pool.flows
    = judging.flows) (tips : TxMap) :
    { pool with
      flows := flows, tips := tips
      txLookup := pool.txLookup.switchStatus tx.getTxHash .tip }.Accounted := by
  obtain ⟨txEnv, found, rfl, isQueue⟩ := queued
  have tagMatches := accounted.tags _ txEnv found
  have isTotal : ∀ addr tokenID,
      spentBy addr tokenID (pool.txLookup.switchStatus txEnv.tx.getTxHash .tip).goodTxs =
        pool.flows.recorded addr tokenID + txEnv.tx.spends addr tokenID := by
    intro addr tokenID
    rw [spentBy_switchStatus filed.wellFormed filed.complete found, isQueue, accounted.total]
    show _ - 0 + _ = _
    rw [Int.sub_zero]
    rfl
  have origin : ∀ h other,
      (pool.txLookup.switchStatus txEnv.tx.getTxHash .tip).getEnvelope h = some other →
        pool.txLookup.getEnvelope h = some other ∨ other.tx = txEnv.tx := by
    intro h other present
    rw [getEnvelope_switchStatus] at present
    split at present
    · rw [found] at present
      cases present
      exact .inr rfl
    · exact .inl present
  have tags : ∀ h other,
      (pool.txLookup.switchStatus txEnv.tx.getTxHash .tip).getEnvelope h = some other →
        other.tx.TagMatches := by
    intro h other present
    rcases origin h other present with before | sameTx
    · exact accounted.tags h other before
    · exact sameTx ▸ tagMatches
  rcases admits.balances tagMatches with ⟨transfer, isBody, normal⟩ | ⟨same, noTransfer⟩
  · obtain ⟨state, isState, enough, balances⟩ := admits.transfer isBody normal
    rw [← sameDag, ← sameFlows] at isState
    rw [← sameFlows] at balances
    refine ⟨tags, fun addr tokenID => ?_, fun addr tokenID after present => ?_,
      fun h other pooled present good isOther => ?_⟩
    · show flows.recorded addr tokenID = _
      rw [isTotal, txEnv.tx.spends_transfer isBody normal, AccountFlows.recorded, balances]
      split
      next own =>
        rw [if_pos ⟨own.1.symm, own.2.symm⟩, own.1, own.2, recorded_eq _ _ _ (pool.dag.getBalance _ _),
          ← isState]
        rfl
      next different =>
        rw [if_neg fun own => different ⟨own.1.symm, own.2.symm⟩, add_zero]
        rfl
    · replace present : flows.getBalanceState addr tokenID = some after := present
      rw [balances] at present
      split at present
      next own =>
        cases present
        refine ⟨?_, enough⟩
        rw [own.1, own.2]
        rw [isState]
        cases opened : pool.flows.getBalanceState transfer.sender transfer.tokenId with
        | none => rfl
        | some earlier => exact (accounted.covered _ _ earlier opened).1
      · exact accounted.covered addr tokenID after present
    · show (flows.getBalanceState pooled.sender pooled.tokenId).isSome = true
      rw [balances]
      split
      · rfl
      rename_i different
      rcases origin h other present with before | sameTx
      · exact accounted.opened h other pooled before good isOther
      rw [sameTx, isBody] at isOther
      cases isOther
      exact absurd ⟨rfl, rfl⟩ different
  · rw [← sameFlows] at same
    refine ⟨tags, fun addr tokenID => ?_, fun addr tokenID state present => ?_,
      fun h other transfer present good isBody => ?_⟩
    · rw [isTotal, (same addr tokenID).1, add_zero, AccountFlows.recorded, (same addr tokenID).2]
      rfl
    · exact accounted.covered addr tokenID state ((same addr tokenID).2 ▸ present)
    · show (flows.getBalanceState transfer.sender transfer.tokenId).isSome = true
      rw [(same _ _).2]
      rcases origin h other present with before | sameTx
      · exact accounted.opened h other transfer before good isBody
      · exact absurd (sameTx ▸ isBody) (noTransfer transfer)

theorem commit_accounted {answer : Except PoolError Unit} (filed : pool.Filed) (queued :
    pool.Queued tx) (committed : pool.commit tx = .ok (answer, next)) : next.Accounted := by
  cases commit_cases queued committed with
  | fatal =>
    obtain ⟨txEnv, found, -, isQueue⟩ := queued
    refine accounted.remove filed (fun addr tokenID => ?_) .removeFromEnd (by decide) pool.tips
    rw [TxLookUp.spendsAt, goodAt_of_found found, isQueue]
    rfl
  | bad =>
    obtain ⟨txEnv, found, -, isQueue⟩ := queued
    refine accounted.switch filed found ?_ pool.tips pool.pendings _
    rw [isQueue]
    rfl
  | good admits =>
    have moved := moveParents_moved pool tx.parents
    exact (accounted.moveParents filed tx.parents).admitted (filed.moveParents tx.parents)
      (queued.moveParents _) admits moved.dag moved.flows _

end

variable {batch : ConfirmBatch} {initial : Sequencer}

/-! ## A confirmation -/

theorem Accounted.cleared : pool.clearAll.Accounted where
  tags _ _ found := by cases found
  total _ _ := rfl
  covered _ _ _ found := by cases found
  opened _ _ _ found := by cases found

theorem rejudge_accounted {txs : List Txi} (wellFormed : pool.txLookup.WellFormed)
    (tags : ∀ h txEnv, pool.txLookup.getEnvelope h = some txEnv → txEnv.tx.TagMatches)
    (isRejudged : pool.clearAll.rejudge (txsInPool (pool.txLookup.withoutBatch txs)) = .ok next) :
    next.Accounted ∧ next.Filed ∧ next.NoneQueued := by
  refine remaining_keeps
    (motive := fun state => state.Accounted ∧ state.Filed ∧ state.NoneQueued) wellFormed
    (fun holds => holds.2.1.wellFormed) ?_ ⟨.cleared, .cleared, .cleared pool⟩ isRejudged
  rintro state after answer queue ⟨accounted, filed, noneQueued⟩ remaining - missing committed
  have waiting := filed.add remaining.isQueue missing
  have queued := queued_add state queue remaining.isQueue missing
  obtain ⟨earlier, pooled, sameTx⟩ := remaining.pooled
  have entered := accounted.add remaining.isQueue (sameTx ▸ tags _ earlier pooled) missing
  exact ⟨commit_accounted entered waiting queued committed,
    commit_filed waiting queued (noneQueued.add queue) committed⟩

theorem settle_accounted
    (settled : pool.settle batch = .ok next) (wellFormed : pool.txLookup.WellFormed)
    (queued : pool.Queued batch.seq.txi) (tagged : batch.seq.base.type = .sequencer)
    (tags : ∀ h txEnv, pool.txLookup.getEnvelope h = some txEnv → txEnv.tx.TagMatches)
    (notBatch : ∀ tx ∈ batch.txs, tx.getTxHash ≠ batch.seq.base.hash) : next.Accounted := by
  obtain ⟨rejudged, seqEnv, flows, isRejudged, isSeq, isQueue, absent, entered, rfl⟩ :=
    settle_cases wellFormed queued tagged notBatch settled
  obtain ⟨queuedEnv, inPool, isTx, -⟩ := queued
  have tagMatches : batch.seq.txi.TagMatches := isTx ▸ tags _ queuedEnv inPool
  obtain ⟨accounted, filed, -⟩ := rejudge_accounted wellFormed tags isRejudged
  have isAbsent : rejudged.txLookup.getEnvelope seqEnv.tx.getTxHash = none := by
    rw [isSeq]
    exact absent
  have notNormal : batch.seq.txi.getType ≠ .normal := by
    show batch.seq.base.type ≠ .normal
    rw [tagged]
    decide
  obtain ⟨waitingEnv, found, isWaiting, -⟩ := queued_add rejudged seqEnv isQueue isAbsent
  rw [isSeq] at found isWaiting
  refine accounted.carried (fun _ _ => rfl) (fun addr tokenID => ?_) (fun addr tokenID => ?_)
    fun h txEnv present => ?_
  · show flows.getBalanceState addr tokenID = _
    rw [flows_add_other notNormal entered, getBalanceState_ensured]
  · have waiting := filed.add isQueue isAbsent
    refine (spentBy_switchStatus waiting.wellFormed waiting.complete found .tip).trans ?_
    rw [isWaiting, tagMatches.spends_sequencer tagged addr tokenID, ite_self, ite_self,
      Int.sub_zero, Int.add_zero]
    exact spentBy_add (by rw [isQueue]; rfl) isAbsent
  · rw [getEnvelope_closed isSeq absent flows] at present
    split at present
    · cases present
      rw [isSeq]
      exact ⟨tagMatches, fun _ => .inr nofun⟩
    · exact ⟨accounted.tags h txEnv present, fun good => .inl ⟨txEnv, present, rfl, good⟩⟩

/-! ## Every operation -/

theorem Accounted.raiseWeight (accounted : pool.Accounted) (tx : Txi) :
    (pool.raiseWeight tx).Accounted := by
  unfold TxPool.raiseWeight
  split
  · exact ⟨accounted.tags, accounted.total, accounted.covered, accounted.opened⟩
  · exact accounted

theorem Accounted.enqueue (accounted : pool.Accounted) (txType : TxType)
    (tagMatches : tx.TagMatches) (absent : pool.txLookup.getEnvelope tx.getTxHash = none) :
    (pool.enqueue txType tx).Accounted :=
  accounted.add rfl tagMatches absent

theorem Accounted.step {ovm : Ovm}
    {input : TxType × Txi} {confirmed : List ConfirmBatch} (orderly : pool.Orderly initial)
    (accounted : pool.Accounted) (tagMatches : input.2.TagMatches)
    (submits : pool.Submits ovm input next confirmed) : next.Accounted := by
  obtain ⟨answer, submitted, -⟩ := submits
  cases submit_ends orderly.regular.cached submitted with
  | duplicate present => exact accounted
  | refused error statedb absent ledger =>
    have waiting : (pool.enqueue input.1 input.2).Filed := orderly.filed.add rfl absent
    have withdrawn := getEnvelope_withdrawn input.1 absent
    obtain ⟨txEnv, found, -, isQueue⟩ := enqueue_queued input.1 absent
    refine accounted.carried ledger.getBalance (fun _ _ => rfl) (fun addr tokenID => ?_)
      fun h other stays => ?_
    · refine (spentBy_remove waiting.wellFormed ?_ .removeFromEnd (by decide)).trans
        (spentBy_add rfl absent)
      rw [TxLookUp.spendsAt, goodAt_of_found found, isQueue]
      rfl
    · have before := (withdrawn h).symm.trans stays
      exact ⟨accounted.tags h other before, fun good => .inl ⟨other, before, rfl, good⟩⟩
  | confirmed isTx absent accepted executed processed isSettled =>
    obtain rfl := confirmed_isSeq accepted
    rw [isTx] at absent accepted isSettled tagMatches
    have tagged := tagMatches.tagged _ rfl
    have waiting := accounted.enqueue input.1 tagMatches absent
    exact (settle_accounted isSettled (orderly.regular.wellFormed.add _)
      (enqueue_queued input.1 absent) tagged waiting.tags
      (orderly.regular.notBatch tagged absent accepted)).raiseWeight _
  | @judged outcome between notSequencer absent committed =>
    have waiting : (pool.enqueue input.1 input.2).Filed := orderly.filed.add rfl absent
    have queued := enqueue_queued input.1 absent
    have kept : between.Accounted :=
      commit_accounted (accounted.enqueue input.1 tagMatches absent) waiting queued committed
    split
    · exact kept.raiseWeight _
    · exact kept

theorem Accounted.init (dag : Dag) (tagMatches : initial.txi.TagMatches) :
    (TxPool.init dag initial).Accounted where
  tags h txEnv found := by
    obtain ⟨-, rfl⟩ := getEnvelope_init found
    exact tagMatches
  total addr tokenID := by
    have isOrder : (TxPool.init dag initial).txLookup.order = [initial.txi.getTxHash] := rfl
    rw [spentBy_goodTxs, isOrder, map_singleton, sum_singleton]
    have found : (TxPool.init dag initial).txLookup.getEnvelope initial.txi.getTxHash =
      some ⟨initial.txi, .genesis, .tip, 1⟩ := (getEnvelope_add _ _ _).trans (if_pos rfl)
    rw [TxLookUp.spendsAt, goodAt_of_found found]
    exact (tagMatches.spends_sequencer (tagMatches.tagged _ rfl) addr tokenID).symm
  covered _ _ _ found := by cases found
  opened h txEnv transfer found _ isBody := by
    obtain ⟨-, rfl⟩ := getEnvelope_init found
    cases isBody

/-- The recorded amount is what tips and pending transactions spend, within the confirmed
balance. -/
structure Balanced (pool : TxPool) (addr : Address) (tokenID : TokenId) : Prop where
  recorded : pool.flows.recorded addr tokenID = spentBy addr tokenID pool.txLookup.goodTxs
  within : spentBy addr tokenID pool.txLookup.goodTxs ≤ pool.dag.getBalance addr tokenID ∨
    pool.dag.getBalance addr tokenID < 0 ∧
      ∀ txi ∈ pool.txLookup.goodTxs, ∀ tx, txi.body = .tx tx →
        ¬ (tx.sender = addr ∧ tx.tokenId = tokenID)

theorem Accounted.balanced (accounted : pool.Accounted) (addr : Address)
    (tokenID : TokenId) : pool.Balanced addr tokenID where
  recorded := accounted.total addr tokenID
  within := by
    rw [← accounted.total, AccountFlows.recorded]
    cases opened : pool.flows.getBalanceState addr tokenID with
    | some state =>
      obtain ⟨isOrigin, enough⟩ := accounted.covered addr tokenID state opened
      exact .inl (isOrigin ▸ enough)
    | none =>
      rcases lt_or_ge (pool.dag.getBalance addr tokenID) 0 with negative | enough
      · refine .inr ⟨negative, fun txi member tx isBody own => ?_⟩
        obtain ⟨h, txEnv, found, good, rfl⟩ := mem_goodTxs member
        have isOpened := accounted.opened h txEnv tx found good isBody
        rw [own.1, own.2, opened] at isOpened
        cases isOpened
      · exact .inl enough

end TxPool

/-- In runs of rightly tagged transactions, without storage faults, the recorded amounts are
right. -/
theorem pool_balanced (ovm : Ovm) (dag : Dag) (initial : Sequencer)
    (tagged : initial.txi.TagMatches) (pool : TxPool) (batches : List ConfirmBatch)
    (run : Run (TxPool.Submits ovm) (fun _ input => input.2.TagMatches) (.init dag initial) pool
      batches) (addr : Address) (tokenID : TokenId) : pool.Balanced addr tokenID := by
  have kept : pool.Orderly initial ∧ pool.Accounted := by
    refine Run.invariant (motive := fun state _ => state.Orderly initial ∧ state.Accounted)
      ⟨.init dag tagged.tagged, .init dag tagged⟩ ?_ run
    rintro state after outputs new input ⟨orderly, accounted⟩ tagMatches submits
    exact ⟨orderly.step tagMatches.tagged submits, accounted.step orderly tagMatches submits⟩
  exact kept.2.balanced addr tokenID

def Dag.funded : Dag :=
  { Dag.genesis with statedb := Dag.genesis.statedb.setBalance 7 0 50 }

def transferring (tag : TxBaseType) : Txi :=
  ⟨⟨tag, 1, [100], 1, 0, 0⟩, .tx ⟨7, 8, 20, 0, []⟩⟩

theorem pool_balanced_transfer :
    ∃ pool, Run (TxPool.Submits .idle) (fun _ input => input.2.TagMatches)
        (.init Dag.funded Dag.funded.latestSequencer) pool [] ∧
      pool.txLookup.goodTxs = [transferring .normal] ∧ pool.flows.recorded 7 0 = 20 ∧ pool.Balanced 7 0 := by
  have opened : Run (TxPool.Submits .idle) (fun _ input => input.2.TagMatches)
    (.init Dag.funded Dag.funded.latestSequencer) (.init Dag.funded Dag.funded.latestSequencer)
    [] := .start
  have run := TxPool.run_after (transferring .normal) opened rfl rfl
  refine ⟨_, run, rfl, rfl, ?_⟩
  exact pool_balanced .idle Dag.funded Dag.funded.latestSequencer rfl _ _ run 7 0

/-- A transfer under the tag of a campaign becomes a tip and is not recorded. -/
theorem mistagged_transfer_unrecorded :
    ∃ pool, Run (TxPool.Submits .idle) (fun _ _ => True)
        (.init Dag.funded Dag.funded.latestSequencer) pool [] ∧
      pool.getStatus 1 = .tip ∧ pool.get 1 = some (transferring .campaign) ∧
      spentBy 7 0 pool.txLookup.goodTxs = 20 ∧ pool.flows.recorded 7 0 = 0 := by
  have opened : Run (TxPool.Submits .idle) (fun _ _ => True)
    (.init Dag.funded Dag.funded.latestSequencer) (.init Dag.funded Dag.funded.latestSequencer)
    [] := .start
  have run := TxPool.run_after (transferring .campaign) opened trivial rfl
  exact ⟨_, run, rfl, rfl, rfl, rfl⟩

end AnnchainOG
