import AnnchainOG.Pool.Once

/-!
# The structure of the pool

`Filed` says how the lookup, the order and the maps belong together while a transaction waits to be
judged.
-/

namespace AnnchainOG

open List Option TxLookUp

theorem Sequencer.txi_inj {left right : Sequencer} (same : left.txi = right.txi) :
    left = right := by
  cases left
  cases right
  cases same
  rfl

def TxBody.type : TxBody → TxBaseType
  | .tx _ => .normal
  | .sequencer _ => .sequencer
  | .campaign _ => .campaign
  | .termChange _ => .termChange
  | .archive => .archive
  | .action _ => .action

def Txi.TagMatches (tx : Txi) : Prop :=
  tx.getType = tx.body.type

theorem Txi.TagMatches.tagged {tx : Txi} (tagMatches : tx.TagMatches) : tx.Tagged := by
  intro issuer isBody
  rw [tagMatches, isBody]
  rfl

theorem TxMap.get?_add (map : TxMap) (tx : Txi) (h : Hash) :
    (TxMap.add map tx).get? h =
      if h = tx.getTxHash then some ((map.get? h).getD tx) else map.get? h :=
  GoMap.get?_setNew _ _ _ _

/-! ## The lookup by status -/

variable (lookup : TxLookUp)

namespace TxLookUp

variable {status : TxStatus} {h : Hash}
variable {tx : Txi} {txEnv : TxEnvelope}

def withStatus (status : TxStatus) (h : Hash) : Option Txi :=
  (lookup.getEnvelope h).bind fun txEnv => if txEnv.status = status then some txEnv.tx else none

variable {lookup : TxLookUp}

theorem withStatus_eq_some_iff :
    lookup.withStatus status h = some tx ↔ lookup.get h = some tx ∧ lookup.status h = status := by
  unfold withStatus get TxLookUp.status
  cases lookup.getEnvelope h with
  | none => simp
  | some txEnv => simp [and_comm]

theorem found_of_withStatus (isStatus : lookup.withStatus status h = some tx) :
    ∃ txEnv, lookup.getEnvelope h = some txEnv ∧ txEnv.tx = tx ∧ txEnv.status = status := by
  obtain ⟨txEnv, found, isTx⟩ := bind_eq_some_iff.mp isStatus
  split at isTx
  next same =>
    cases isTx
    exact ⟨txEnv, found, rfl, same⟩
  · cases isTx

theorem withStatus_of_found (found : lookup.getEnvelope h = some txEnv) :
    lookup.withStatus status h = if txEnv.status = status then some txEnv.tx else none := by
  rw [withStatus, found]
  rfl

theorem withStatus_add (status : TxStatus)
    (absent : lookup.getEnvelope txEnv.tx.getTxHash = none) (h : Hash) :
    (lookup.add txEnv).withStatus status h =
      if h = txEnv.tx.getTxHash then if txEnv.status = status then some txEnv.tx else none
      else lookup.withStatus status h := by
  unfold withStatus
  rw [getEnvelope_add]
  split
  next same =>
    rw [same, absent]
    rfl
  · rfl

theorem withStatus_remove (removed : Hash) (removeType : HashOrderRemoveType)
    (status : TxStatus) (h : Hash) :
    (lookup.remove removed removeType).withStatus status h =
      if h = removed then none else lookup.withStatus status h := by
  unfold withStatus
  rw [getEnvelope_remove]
  split <;> rfl

theorem withStatus_switchStatus (switched : Hash) (new status : TxStatus) (h : Hash) :
    (lookup.switchStatus switched new).withStatus status h =
      if h = switched then if new = status then lookup.get switched else none
      else lookup.withStatus status h := by
  unfold withStatus get
  rw [getEnvelope_switchStatus]
  split
  · cases lookup.getEnvelope switched with
    | none => simp
    | some txEnv => rfl
  · rfl

section Other

variable {other : Hash} (found : lookup.getEnvelope other = some txEnv)
  (different : txEnv.status ≠ status)
include found different

theorem withStatus_remove_other (removeType : HashOrderRemoveType) (h : Hash) :
    (lookup.remove other removeType).withStatus status h = lookup.withStatus status h := by
  rw [withStatus_remove]
  split
  next own => rw [own, withStatus_of_found found, if_neg different]
  · rfl

theorem withStatus_switch_other {new : TxStatus} (notNew : new ≠ status) (h : Hash) :
    (lookup.switchStatus other new).withStatus status h = lookup.withStatus status h := by
  rw [withStatus_switchStatus, if_neg notNew]
  split
  next own => rw [own, withStatus_of_found found, if_neg different]
  · rfl

end Other

theorem get?_add_switched {map : TxMap} (isMap : ∀ h, map.get? h = lookup.withStatus status h)
    (found : lookup.getEnvelope txEnv.tx.getTxHash = some txEnv)
    (different : txEnv.status ≠ status) (h : Hash) :
    (TxMap.add map txEnv.tx).get? h =
      (lookup.switchStatus txEnv.tx.getTxHash status).withStatus status h := by
  rw [TxMap.get?_add, withStatus_switchStatus]
  split
  next own =>
    rw [own, isMap, withStatus_of_found found, if_neg different, if_pos rfl, get, found]
    rfl
  · exact isMap h

def Complete (lookup : TxLookUp) : Prop :=
  ∀ h txEnv, lookup.getEnvelope h = some txEnv → h ∈ lookup.order

theorem Complete.empty : TxLookUp.empty.Complete := by
  intro h txEnv found
  cases found

theorem Complete.add (complete : lookup.Complete) (txEnv : TxEnvelope) :
    (lookup.add txEnv).Complete := by
  intro h other found
  by_cases present : lookup.txs.contains txEnv.tx.getTxHash = true
  · rw [TxLookUp.add, if_pos present] at found ⊢
    exact complete h other found
  have isOrder : (lookup.add txEnv).order = lookup.order ++ [txEnv.tx.getTxHash] := by
    rw [TxLookUp.add, if_neg present]
  rw [isOrder]
  rw [getEnvelope_add] at found
  split at found
  next same =>
    rw [same]
    exact mem_append_right _ (mem_singleton_self _)
  · exact mem_append_left _ (complete h other found)

theorem Complete.remove (complete : lookup.Complete) (removed : Hash)
    (removeType : HashOrderRemoveType) : (lookup.remove removed removeType).Complete := by
  intro h txEnv found
  rw [getEnvelope_remove] at found
  split at found
  · cases found
  rename_i different
  have listed := complete h txEnv found
  cases removeType with
  | noRemove => exact listed
  | removeFromFront => exact (mem_erase_of_ne different).mpr listed
  | removeFromEnd =>
    exact mem_reverse.mpr
      ((mem_erase_of_ne different).mpr (mem_reverse.mpr listed))

theorem switchStatus_order (h : Hash) (status : TxStatus) :
    (lookup.switchStatus h status).order = lookup.order := by
  unfold switchStatus
  split <;> rfl

theorem Complete.switchStatus (complete : lookup.Complete) (switched : Hash) (status : TxStatus) :
    (lookup.switchStatus switched status).Complete := by
  intro h txEnv found
  rw [switchStatus_order]
  rw [getEnvelope_switchStatus] at found
  split at found
  next same =>
    obtain ⟨earlier, present, -⟩ := map_eq_some_iff.mp found
    exact same ▸ complete _ earlier present
  · exact complete h txEnv found

end TxLookUp

/-! ## The three maps -/

def TxStatus.isFiled : TxStatus → Bool
  | .tip | .pending | .badTx => true
  | .notExist | .queue => false

theorem TxStatus.Becomes.isFiled {old new : TxStatus} (becomes : old.Becomes new)
    (filed : old.isFiled = true) : new.isFiled = true := by
  rcases becomes with rfl | ⟨-, rfl⟩
  · exact filed
  · rfl

namespace TxPool

variable {pool next : TxPool} {tx : Txi} {initial : Sequencer} {batch : ConfirmBatch}
  {txType : TxType}

/-- The order lists what is pooled, and each map holds what has its status. -/
structure Filed (pool : TxPool) : Prop where
  wellFormed : pool.txLookup.WellFormed
  complete : pool.txLookup.Complete
  tips : ∀ h, pool.tips.get? h = pool.txLookup.withStatus .tip h
  pendings : ∀ h, pool.pendings.get? h = pool.txLookup.withStatus .pending h
  badtxs : ∀ h, pool.badtxs.get? h = pool.txLookup.withStatus .badTx h

theorem Filed.cleared : pool.clearAll.Filed :=
  ⟨.empty, .empty, fun _ => rfl, fun _ => rfl, fun _ => rfl⟩

theorem Filed.add (filed : pool.Filed) {txEnv : TxEnvelope} (isQueue : txEnv.status = .queue)
    (absent : pool.txLookup.getEnvelope txEnv.tx.getTxHash = none) :
    { pool with txLookup := pool.txLookup.add txEnv }.Filed := by
  have same : ∀ status, status ≠ .queue → ∀ h,
      (pool.txLookup.add txEnv).withStatus status h = pool.txLookup.withStatus status h := by
    intro status notQueue h
    rw [withStatus_add status absent, isQueue, if_neg (Ne.symm notQueue)]
    split
    next own =>
      rw [TxLookUp.withStatus, own, absent]
      rfl
    · rfl
  refine ⟨filed.wellFormed.add _, filed.complete.add _, fun h => ?_, fun h => ?_, fun h => ?_⟩
  · exact (filed.tips h).trans (same .tip (by decide) h).symm
  · exact (filed.pendings h).trans (same .pending (by decide) h).symm
  · exact (filed.badtxs h).trans (same .badTx (by decide) h).symm

theorem Filed.remove (filed : pool.Filed) {h : Hash} {txEnv : TxEnvelope}
    (found : pool.txLookup.getEnvelope h = some txEnv) (isQueue : txEnv.status = .queue)
    (removeType : HashOrderRemoveType) (removes : removeType ≠ .noRemove) :
    { pool with txLookup := pool.txLookup.remove h removeType }.Filed := by
  have same (status : TxStatus) (notQueue : .queue ≠ status) (other : Hash) :=
    withStatus_remove_other found (isQueue.trans_ne notQueue) removeType other
  refine ⟨filed.wellFormed.remove h removeType removes, filed.complete.remove h removeType,
    fun other => ?_, fun other => ?_, fun other => ?_⟩
  · exact (filed.tips other).trans (same .tip (by decide) other).symm
  · exact (filed.pendings other).trans (same .pending (by decide) other).symm
  · exact (filed.badtxs other).trans (same .badTx (by decide) other).symm

theorem Filed.becomeBad (filed : pool.Filed) (queued : pool.Queued tx) :
    { pool with
      badtxs := TxMap.add pool.badtxs tx
      txLookup := pool.txLookup.switchStatus tx.getTxHash .badTx }.Filed := by
  obtain ⟨txEnv, found, rfl, isQueue⟩ := queued
  have other {status : TxStatus} (notQueue : .queue ≠ status) (notBad : .badTx ≠ status) :=
    withStatus_switch_other found (isQueue.trans_ne notQueue) notBad
  exact ⟨filed.wellFormed.switchStatus _ _, filed.complete.switchStatus _ _,
    fun h => (filed.tips h).trans (other (by decide) (by decide) h).symm,
    fun h => (filed.pendings h).trans (other (by decide) (by decide) h).symm,
    get?_add_switched filed.badtxs found (isQueue.trans_ne (by decide))⟩

theorem Filed.becomeTip (filed : pool.Filed) (queued : pool.Queued tx) (flows : AccountFlows) :
    { pool with
      flows := flows, tips := TxMap.add pool.tips tx
      txLookup := pool.txLookup.switchStatus tx.getTxHash .tip }.Filed := by
  obtain ⟨txEnv, found, rfl, isQueue⟩ := queued
  have other {status : TxStatus} (notQueue : .queue ≠ status) (notTip : .tip ≠ status) :=
    withStatus_switch_other found (isQueue.trans_ne notQueue) notTip
  exact ⟨filed.wellFormed.switchStatus _ _, filed.complete.switchStatus _ _,
    get?_add_switched filed.tips found (isQueue.trans_ne (by decide)),
    fun h => (filed.pendings h).trans (other (by decide) (by decide) h).symm,
    fun h => (filed.badtxs h).trans (other (by decide) (by decide) h).symm⟩

/-! ## Moving parents -/

theorem Filed.moveParent (filed : pool.Filed) (pHash : Hash) : (pool.moveParent pHash).Filed := by
  unfold TxPool.moveParent
  split
  · exact filed
  split
  · exact filed
  rename_i isTip parent found
  rw [filed.tips] at found
  obtain ⟨txEnv, inLookup, rfl, isStatus⟩ := found_of_withStatus found
  have notOther {status : TxStatus} (notTip : .tip ≠ status) : txEnv.status ≠ status :=
    isStatus.trans_ne notTip
  split
  · -- A sequencer leaves the pool.
    have others {status : TxStatus} (notTip : .tip ≠ status) :=
      withStatus_remove_other inLookup (notOther notTip) .removeFromFront
    refine ⟨filed.wellFormed.remove pHash .removeFromFront (by decide),
      filed.complete.remove _ _, fun h => ?_, fun h => ?_, fun h => ?_⟩
    · show (pool.tips.delete pHash).get? h = _
      rw [GoMap.get?_delete, withStatus_remove, filed.tips]
    · exact (filed.pendings h).trans (others (by decide) h).symm
    · exact (filed.badtxs h).trans (others (by decide) h).symm
  · have isHash := filed.wellFormed.hashes inLookup
    refine ⟨filed.wellFormed.switchStatus _ _, filed.complete.switchStatus _ _, fun h => ?_,
      fun h => ?_, fun h => ?_⟩
    · show (pool.tips.delete pHash).get? h = _
      rw [GoMap.get?_delete, withStatus_switchStatus, filed.tips]
      rfl
    · rw [← isHash] at inLookup ⊢
      exact get?_add_switched filed.pendings inLookup (notOther (by decide)) h
    · exact (filed.badtxs h).trans
        (withStatus_switch_other inLookup (notOther (by decide)) (by decide) h).symm

theorem Filed.moveParents (filed : pool.Filed) (parents : List Hash) :
    (parents.foldl TxPool.moveParent pool).Filed := by
  induction parents generalizing pool with
  | nil => exact filed
  | cons pHash rest ih => exact ih (filed.moveParent pHash)

/-! ## Judging -/

def OnlyQueued (pool : TxPool) (own : Hash) : Prop :=
  ∀ h txEnv, h ≠ own → pool.txLookup.getEnvelope h = some txEnv → txEnv.status.isFiled = true

def NoneQueued (pool : TxPool) : Prop :=
  ∀ h txEnv, pool.txLookup.getEnvelope h = some txEnv → txEnv.status.isFiled = true

theorem NoneQueued.cleared (pool : TxPool) : pool.clearAll.NoneQueued := by
  intro h txEnv found
  cases found

theorem NoneQueued.add (noneQueued : pool.NoneQueued) (txEnv : TxEnvelope) :
    { pool with txLookup := pool.txLookup.add txEnv }.OnlyQueued txEnv.tx.getTxHash := by
  intro h other different found
  rw [getEnvelope_add, if_neg different] at found
  exact noneQueued h other found

theorem Queued.moveParents (queued : pool.Queued tx)
    (parents : List Hash) : (parents.foldl TxPool.moveParent pool).Queued tx := by
  obtain ⟨txEnv, found, isTx, isQueue⟩ := queued
  refine ⟨txEnv, ?_, isTx, isQueue⟩
  rw [(moveParents_moved pool parents).others _ ?_, found]
  rw [getStatus_eq found, isQueue]
  decide

theorem commit_filed {answer : Except PoolError Unit}
    (filed : pool.Filed) (queued : pool.Queued tx) (only : pool.OnlyQueued tx.getTxHash)
    (committed : pool.commit tx = .ok (answer, next)) : next.Filed ∧ next.NoneQueued := by
  have judges := commit_judges filed.wellFormed queued committed
  have others : ∀ h txEnv, h ≠ tx.getTxHash → next.txLookup.getEnvelope h = some txEnv →
      txEnv.status.isFiled = true := by
    intro h txEnv different found
    obtain ⟨earlier, inPool, -, becomes⟩ := judges.others h txEnv different found
    exact becomes.isFiled (only h earlier different inPool)
  have switched : ∀ {lookup : TxLookUp} {status : TxStatus} {txEnv : TxEnvelope},
      (lookup.switchStatus tx.getTxHash status).getEnvelope tx.getTxHash = some txEnv →
        txEnv.status = status := by
    intro lookup status txEnv found
    rw [getEnvelope_switchStatus, if_pos rfl] at found
    obtain ⟨earlier, -, rfl⟩ := map_eq_some_iff.mp found
    rfl
  have settled : next.Filed ∧ ∀ txEnv, next.txLookup.getEnvelope tx.getTxHash = some txEnv →
      txEnv.status.isFiled = true := by
    cases commit_cases queued committed with
    | fatal =>
      obtain ⟨txEnv, found, -, isQueue⟩ := queued
      refine ⟨filed.remove found isQueue .removeFromEnd (by decide), fun other stays => ?_⟩
      rw [getEnvelope_remove, if_pos rfl] at stays
      cases stays
    | bad =>
      refine ⟨filed.becomeBad queued, fun txEnv found => ?_⟩
      rw [switched found]
      rfl
    | good =>
      refine ⟨(filed.moveParents tx.parents).becomeTip (queued.moveParents _) _,
        fun txEnv found => ?_⟩
      rw [switched found]
      rfl
  refine ⟨settled.1, fun h txEnv found => ?_⟩
  by_cases own : h = tx.getTxHash
  · exact settled.2 txEnv (own ▸ found)
  · exact others h txEnv own found

theorem rejudge_filed {txs : List Txi} (wellFormed : pool.txLookup.WellFormed)
    (isRejudged : pool.clearAll.rejudge (txsInPool (pool.txLookup.withoutBatch txs)) =
      .ok next) : next.Filed ∧ next.NoneQueued := by
  refine remaining_keeps (motive := fun state => state.Filed ∧ state.NoneQueued) wellFormed
    (fun holds => holds.1.wellFormed) ?_ ⟨.cleared, .cleared pool⟩ isRejudged
  rintro state after answer queue ⟨filed, noneQueued⟩ remaining - missing committed
  exact commit_filed (filed.add remaining.isQueue missing)
    (queued_add state queue remaining.isQueue missing) (noneQueued.add queue) committed

/-! ## A confirmation -/

def Unused (dag : Dag) (addr : Address) (nonce : UInt64) (_ : Txi) : Prop :=
  dag.getTxByNonce addr nonce = none

theorem unused_stable : FlowStable Unused := by
  intro pool tx addr nonce good isKey
  obtain ⟨notArchive, isSender, rfl⟩ := Txi.key_eq_some_iff.mp isKey
  obtain ⟨judge, isJudge, goodNonce, -⟩ := isBadTx_good good notArchive
  rw [isSender] at isJudge
  cases isJudge
  exact (nonceQuality_good goodNonce).2

theorem sequencer_listed {dag : Dag} {flows next : AccountFlows} {seq : Sequencer}
    (tagged : seq.base.type = .sequencer)
    (unlisted : flows.getTxByNonce seq.issuer seq.base.accountNonce = none)
    (entered : AccountFlows.add dag (flows.ensureFlow seq.issuer) seq.txi = .ok next) :
    next.getTxByNonce seq.issuer seq.base.accountNonce = some seq.txi := by
  have notArchive : seq.txi.getType ≠ .archive := by
    show seq.base.type ≠ .archive
    rw [tagged]
    decide
  obtain ⟨sender, opened, answer, flow, isSender, isOpened, added, rfl⟩ :=
    flows_add_ok notArchive entered
  cases isSender
  rw [← getTxByNonce_ensureFlow flows seq.issuer] at unlisted
  have absent : opened.txlist.get seq.txi.getNonce = none := by
    rw [openBalance_txlist isOpened]
    cases found : (flows.ensureFlow seq.issuer).get? seq.issuer with
    | none => rfl
    | some earlier =>
      rw [AccountFlows.getTxByNonce, found] at unlisted
      exact unlisted
  have notNormal : seq.txi.getType ≠ .normal := by
    show seq.base.type ≠ .normal
    rw [tagged]
    decide
  rw [AccountFlow.add, absent, if_neg (by decide), if_pos notNormal] at added
  cases added
  rw [AccountFlows.getTxByNonce, GoMap.get?_set_self]
  show (opened.txlist.put seq.txi).get seq.txi.getNonce = _
  rw [TxList.get_put, absent, if_pos rfl]
  rfl

def SequencersListed (initial : Sequencer) (pool : TxPool) : Prop :=
  ∀ h txEnv (seq : Sequencer), pool.txLookup.getEnvelope h = some txEnv →
    txEnv.status.isGood = true → txEnv.tx = seq.txi → seq ≠ initial →
      pool.flows.getTxByNonce seq.issuer seq.base.accountNonce = some seq.txi

theorem settle_filed
    (settled : pool.settle batch = .ok next) (wellFormed : pool.txLookup.WellFormed)
    (queued : pool.Queued batch.seq.txi) (tagged : batch.seq.base.type = .sequencer)
    (tags : ∀ h txEnv, pool.txLookup.getEnvelope h = some txEnv → txEnv.tx.Tagged)
    (notBatch : ∀ tx ∈ batch.txs, tx.getTxHash ≠ batch.seq.base.hash)
    (known : (pool.dag.getTxByNonce batch.seq.issuer batch.seq.base.accountNonce).isSome = true)
    (initial : Sequencer) : next.Filed ∧ next.NoneQueued ∧ next.SequencersListed initial := by
  obtain ⟨rejudged, seqEnv, flows, isRejudged, isSeq, isQueue, absent, entered, rfl⟩ :=
    settle_cases wellFormed queued tagged notBatch settled
  have remains := rejudge_remains wellFormed isRejudged
  obtain ⟨filed, noneQueued⟩ := rejudge_filed wellFormed isRejudged
  have lookup := getEnvelope_closed isSeq absent flows
  have unlisted : rejudged.flows.getTxByNonce batch.seq.issuer batch.seq.base.accountNonce =
      none := by
    cases listed : rejudged.flows.getTxByNonce batch.seq.issuer batch.seq.base.accountNonce with
    | none => rfl
    | some other =>
      have notKnown : rejudged.dag.getTxByNonce _ _ = none :=
        remains.flowsHold unused_stable _ _ other listed
      rw [remains.dag] at notKnown
      rw [notKnown] at known
      cases known
  have isAbsent : rejudged.txLookup.getEnvelope seqEnv.tx.getTxHash = none := by
    rw [isSeq]
    exact absent
  have isQueued := queued_add rejudged seqEnv isQueue isAbsent
  rw [isSeq] at isQueued
  refine ⟨(filed.add isQueue isAbsent).becomeTip isQueued flows, fun h txEnv found => ?_,
    fun h txEnv seq found _ isTx _ => ?_⟩
  · rw [lookup] at found
    split at found
    · cases found
      rfl
    · exact noneQueued h txEnv found
  · rw [lookup] at found
    split at found
    · cases found
      obtain rfl := Sequencer.txi_inj (isTx.symm.trans isSeq)
      exact sequencer_listed tagged unlisted entered
    · obtain ⟨⟨earlier, inPool, sameTx⟩, notSequencer, -⟩ := remains.origin h txEnv found
      have isTagged := tags h earlier inPool seq.issuer (by rw [sameTx, isTx]; rfl)
      exact absurd (sameTx ▸ isTagged) notSequencer

/-! ## Every operation -/

theorem SequencersListed.judged (listed : pool.SequencersListed initial)
    (notSequencer : ∀ issuer, tx.body ≠ .sequencer issuer)
    (absent : pool.txLookup.getEnvelope tx.getTxHash = none)
    (judges : (pool.enqueue txType tx).Judges tx next) : next.SequencersListed initial := by
  intro h txEnv seq found good isSeq other
  by_cases own : h = tx.getTxHash
  · obtain ⟨isTx, -⟩ := judges.own txEnv (own ▸ found)
    exact absurd (by rw [← isTx, isSeq]; rfl) (notSequencer seq.issuer)
  obtain ⟨earlier, inQueue, sameTx, becomes⟩ := judges.others h txEnv own found
  rcases getEnvelope_enqueue absent inQueue with before | ⟨isHash, -⟩
  · have earlierListed := listed h earlier seq before (becomes.good good) (sameTx.trans isSeq) other
    rcases judges.flows with same | ⟨-, ⟨-, same⟩ | ⟨-, sender, -, entered⟩⟩
    · rw [same]
      exact earlierListed
    · rw [same]
      exact earlierListed
    · refine flows_add_get entered ?_
      rw [getTxByNonce_ensureFlow]
      exact earlierListed
  · exact absurd isHash own

structure Orderly (initial : Sequencer) (pool : TxPool) : Prop where
  regular : pool.Regular
  filed : pool.Filed
  noneQueued : pool.NoneQueued
  fresh : GoodHold Fresh pool
  sequencers : pool.SequencersListed initial

theorem Filed.raiseWeight (filed : pool.Filed) (tx : Txi) : (pool.raiseWeight tx).Filed := by
  unfold TxPool.raiseWeight
  split
  · exact ⟨filed.wellFormed, filed.complete, filed.tips, filed.pendings, filed.badtxs⟩
  · exact filed

theorem raiseWeight_lookup (pool : TxPool) (tx : Txi) :
    (pool.raiseWeight tx).txLookup = pool.txLookup := by
  unfold TxPool.raiseWeight
  split <;> rfl

theorem raiseWeight_flows (pool : TxPool) (tx : Txi) :
    (pool.raiseWeight tx).flows = pool.flows := by
  unfold TxPool.raiseWeight
  split <;> rfl

theorem Orderly.confirmed {settled : TxPool} {txs : List Txi} {last : StateDB}
    (orderly : pool.Orderly initial) (tagged : batch.seq.base.type = .sequencer)
    (absent : pool.txLookup.getEnvelope batch.seq.txi.getTxHash = none)
    (accepted : (pool.enqueue txType batch.seq.txi).confirmHelper batch.seq = .ok batch)
    (isSettled : { pool.enqueue txType batch.seq.txi with
      cached := none, dag := pool.dag.pushed batch.seq txs last }.settle batch = .ok settled) :
    settled.Filed ∧ settled.NoneQueued ∧ settled.SequencersListed initial := by
  refine settle_filed isSettled (orderly.regular.wellFormed.add _) (enqueue_queued txType absent)
    tagged ?_ ?_ ?_ initial
  · intro h txEnv found
    rcases getEnvelope_enqueue absent found with before | ⟨-, rfl⟩
    · exact orderly.regular.tagged h txEnv before
    · intro _ _
      exact tagged
  · exact orderly.regular.notBatch tagged absent accepted
  · refine Dag.pushed_getTxByNonce (.inr ⟨batch.seq.txi, ?_, ?_⟩)
    · exact mem_append_right _ (mem_singleton_self _)
    · refine Txi.key_eq_some_iff.mpr ⟨?_, rfl, rfl⟩
      show batch.seq.base.type ≠ .archive
      rw [tagged]
      decide

theorem Orderly.step {ovm : Ovm}
    {input : TxType × Txi} {confirmed : List ConfirmBatch} (orderly : pool.Orderly initial)
    (tagged : input.2.Tagged) (submits : pool.Submits ovm input next confirmed) :
    next.Orderly initial := by
  obtain ⟨nextRegular, step⟩ := submits.step orderly.regular tagged
  have nextFresh := step.goodHold fresh_stable orderly.fresh
  obtain ⟨answer, submitted, -⟩ := submits
  suffices rest : next.Filed ∧ next.NoneQueued ∧ next.SequencersListed initial from
    ⟨nextRegular, rest.1, rest.2.1, nextFresh, rest.2.2⟩
  cases submit_ends orderly.regular.cached submitted with
  | duplicate present => exact ⟨orderly.filed, orderly.noneQueued, orderly.sequencers⟩
  | refused error statedb absent ledger =>
    have waiting : (pool.enqueue input.1 input.2).Filed := orderly.filed.add rfl absent
    obtain ⟨txEnv, found, -, isQueue⟩ := enqueue_queued input.1 absent
    have filed := waiting.remove found isQueue .removeFromEnd (by decide)
    have same := getEnvelope_withdrawn input.1 absent
    refine ⟨⟨filed.wellFormed, filed.complete, filed.tips, filed.pendings, filed.badtxs⟩, ?_, ?_⟩
    · intro h other stays
      exact orderly.noneQueued h other ((same h).symm.trans stays)
    · intro h other seq stays
      exact orderly.sequencers h other seq ((same h).symm.trans stays)
  | confirmed isTx absent accepted executed processed isSettled =>
    obtain rfl := confirmed_isSeq accepted
    rw [isTx] at absent accepted isSettled tagged
    obtain ⟨filed, noneQueued, sequencers⟩ :=
      orderly.confirmed (tagged _ rfl) absent accepted isSettled
    refine ⟨filed.raiseWeight _, ?_, ?_⟩
    · intro h txEnv found
      rw [raiseWeight_lookup] at found
      exact noneQueued h txEnv found
    · intro h txEnv seq found
      rw [raiseWeight_lookup] at found
      rw [raiseWeight_flows]
      exact sequencers h txEnv seq found
  | @judged outcome between notSequencer absent committed =>
    have waiting : (pool.enqueue input.1 input.2).Filed := orderly.filed.add rfl absent
    have queued := enqueue_queued input.1 absent
    obtain ⟨filed, noneQueued⟩ := commit_filed waiting queued (orderly.noneQueued.add _) committed
    have judges := commit_judges waiting.wellFormed queued committed
    split
    · refine ⟨filed.raiseWeight _, ?_,
        orderly.sequencers.judged notSequencer absent judges.raiseWeight⟩
      intro h txEnv found
      rw [raiseWeight_lookup] at found
      exact noneQueued h txEnv found
    · exact ⟨filed, noneQueued, orderly.sequencers.judged notSequencer absent judges⟩

theorem Orderly.init (dag : Dag) (tagged : initial.txi.Tagged) :
    (TxPool.init dag initial).Orderly initial where
  regular := init_regular dag tagged
  filed := by
    have absent : TxLookUp.empty.getEnvelope initial.txi.getTxHash = none := rfl
    refine ⟨TxLookUp.WellFormed.empty.add _, TxLookUp.Complete.empty.add _, fun h => ?_,
      fun h => ?_, fun h => ?_⟩
    · refine ((TxMap.get?_add _ _ _).trans ?_).trans (withStatus_add .tip absent h).symm
      split <;> rfl
    · refine Eq.trans ?_ (withStatus_add .pending absent h).symm
      split <;> rfl
    · refine Eq.trans ?_ (withStatus_add .badTx absent h).symm
      split <;> rfl
  noneQueued h txEnv found := by
    obtain ⟨-, rfl⟩ := getEnvelope_init found
    rfl
  fresh := init_goodHold fresh_stable dag initial
  sequencers h txEnv seq found _ isSeq other := by
    obtain ⟨-, rfl⟩ := getEnvelope_init found
    exact absurd (Sequencer.txi_inj isSeq).symm other

/-- Every pooled transaction is in the map of its status alone, and the flows list the good ones
that are no archives. -/
structure Structured (initial : Sequencer) (pool : TxPool) : Prop where
  once : pool.txLookup.order.Nodup
  order : ∀ h, h ∈ pool.txLookup.order ↔ ∃ tx, pool.get h = some tx ∧ tx.getTxHash = h
  status : ∀ h tx, pool.get h = some tx →
    pool.getStatus h = .tip ∨ pool.getStatus h = .pending ∨ pool.getStatus h = .badTx
  tips : ∀ h tx, pool.tips.get? h = some tx ↔ pool.get h = some tx ∧ pool.getStatus h = .tip
  pendings : ∀ h tx,
    pool.pendings.get? h = some tx ↔ pool.get h = some tx ∧ pool.getStatus h = .pending
  badtxs : ∀ h tx, pool.badtxs.get? h = some tx ↔ pool.get h = some tx ∧ pool.getStatus h = .badTx
  flows : ∀ h tx sender, pool.get h = some tx →
    pool.getStatus h = .tip ∨ pool.getStatus h = .pending →
    tx.getType ≠ .archive → tx ≠ initial.txi → tx.sender = .ok sender →
      pool.flows.getTxByNonce sender tx.getNonce = some tx

theorem Orderly.structured (orderly : pool.Orderly initial) : pool.Structured initial where
  once := orderly.filed.wellFormed.distinct
  order h := by
    constructor
    · intro listed
      obtain ⟨txEnv, found⟩ := orderly.filed.wellFormed.listed h listed
      exact ⟨txEnv.tx, map_eq_some_iff.mpr ⟨txEnv, found, rfl⟩,
        orderly.filed.wellFormed.hashes found⟩
    · rintro ⟨tx, pooled, -⟩
      obtain ⟨txEnv, found, -⟩ := map_eq_some_iff.mp pooled
      exact orderly.filed.complete h txEnv found
  status h tx pooled := by
    obtain ⟨txEnv, found, -⟩ := map_eq_some_iff.mp pooled
    have filed := orderly.noneQueued h txEnv found
    rw [getStatus_eq found]
    cases isStatus : txEnv.status with
    | tip => exact .inl rfl
    | pending => exact .inr (.inl rfl)
    | badTx => exact .inr (.inr rfl)
    | notExist | queue =>
      rw [isStatus] at filed
      cases filed
  tips h tx := by
    rw [orderly.filed.tips]
    exact withStatus_eq_some_iff
  pendings h tx := by
    rw [orderly.filed.pendings]
    exact withStatus_eq_some_iff
  badtxs h tx := by
    rw [orderly.filed.badtxs]
    exact withStatus_eq_some_iff
  flows h tx sender pooled good notArchive other isSender := by
    obtain ⟨txEnv, found, rfl⟩ := map_eq_some_iff.mp pooled
    have isGood : txEnv.status.isGood = true := by
      rw [getStatus_eq found] at good
      rcases good with isTip | isPending
      · rw [isTip]
        rfl
      · rw [isPending]
        rfl
    by_cases isSequencer : ∃ issuer, txEnv.tx.body = .sequencer issuer
    · obtain ⟨issuer, isBody⟩ := isSequencer
      have isSeq : txEnv.tx = Sequencer.txi ⟨txEnv.tx.base, issuer⟩ := by
        rw [Sequencer.txi, ← isBody]
      rw [isSeq] at isSender other ⊢
      cases isSender
      exact orderly.sequencers h txEnv _ found isGood isSeq fun same => other (by rw [same])
    · rw [not_exists] at isSequencer
      exact (orderly.fresh h txEnv found isGood isSequencer sender txEnv.tx.getNonce
        (Txi.key_eq_some_iff.mpr ⟨notArchive, isSender, rfl⟩)).1

end TxPool

/-- In every run from `Init` on, without storage faults, the pool is structured between
operations. -/
theorem pool_structured (ovm : Ovm) (dag : Dag) (initial : Sequencer)
    (tagged : initial.txi.TagMatches) (pool : TxPool) (batches : List ConfirmBatch)
    (run : Run (TxPool.Submits ovm) (fun _ input => input.2.TagMatches) (.init dag initial) pool
      batches) : pool.Structured initial := by
  have orderly : pool.Orderly initial := by
    refine Run.invariant (motive := fun state _ => state.Orderly initial)
      (.init dag tagged.tagged) ?_ run
    intro state after outputs new input holds tagMatches submits
    exact holds.step tagMatches.tagged submits
  exact orderly.structured

theorem pool_structured_campaign :
    ∃ pool batch, Run (TxPool.Submits .idle) (fun _ input => input.2.TagMatches) .genesis pool
        [batch] ∧ pool.txLookup.order = [101] ∧ pool.Structured Dag.genesis.latestSequencer := by
  let batch : ConfirmBatch := ⟨.confirming [1], [campaigning 1]⟩
  have opened : Run (TxPool.Submits .idle) (fun _ input => input.2.TagMatches) .genesis .genesis
    [] := .start
  have admitted := TxPool.run_after (campaigning 1) opened rfl rfl
  have run : Run (TxPool.Submits .idle) (fun _ input => input.2.TagMatches) .genesis _ [batch] :=
    TxPool.run_after (Sequencer.confirming [1]).txi admitted rfl rfl
  exact ⟨_, batch, run, rfl, pool_structured .idle Dag.genesis Dag.genesis.latestSequencer rfl _ _ run⟩

end AnnchainOG
