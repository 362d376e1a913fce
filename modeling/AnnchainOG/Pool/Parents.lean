import AnnchainOG.Pool.Structure

/-!
# Parents of pooled transactions

`isBadTx` stops at the first bad parent, so that the parents after it are never looked up.
-/

namespace AnnchainOG

open List Option TxLookUp TxPool Txi.TagMatches

theorem Txi.TagMatches.sequencer_iff {tx : Txi} (tagMatches : tx.TagMatches) :
    tx.getType = .sequencer ↔ ∃ issuer, tx.body = .sequencer issuer := by
  rw [tagMatches]
  cases tx.body with
  | sequencer issuer => exact ⟨fun _ => ⟨issuer, rfl⟩, fun _ => rfl⟩
  | tx | campaign | termChange | archive | action =>
    constructor
    · intro isType
      cases isType
    · rintro ⟨_, isBody⟩
      cases isBody

namespace TxPool

variable {batch : ConfirmBatch} (ovm : Ovm) {txType : TxType} {initial : Sequencer}
variable {txEnv : TxEnvelope} {answer : Except PoolError Unit} (failing : PushStep → Bool)
  {dag : Dag}

def Finds (pool : TxPool) (h : Hash) : Prop :=
  (pool.get h).isSome = true ∨ (pool.dag.getTx h).isSome = true

def Closed (pool : TxPool) : Prop :=
  ∀ h tx, pool.get h = some tx → ∀ parentHash ∈ tx.parents, pool.Finds parentHash

def Reviewed (pool : TxPool) (tx : Txi) : Prop :=
  tx.parents.Pairwise fun earlier later => pool.getStatus earlier = .badTx → pool.Finds later

instance (pool : TxPool) (h : Hash) : Decidable (pool.Finds h) := inferInstanceAs (Decidable (_ ∨ _))

instance (pool : TxPool) (tx : Txi) : Decidable (pool.Reviewed tx) :=
  inferInstanceAs (Decidable (List.Pairwise _ _))

variable {pool next : TxPool} {tx : Txi} {h : Hash}

theorem get_isSome_iff : (pool.get h).isSome = true ↔
    ∃ txEnv, pool.txLookup.getEnvelope h = some txEnv := by
  rw [get, TxLookUp.get, isSome_map, isSome_iff_exists]

theorem Finds.of_envelope (found : pool.txLookup.getEnvelope h = some txEnv) : pool.Finds h :=
  .inl (get_isSome_iff.mpr ⟨txEnv, found⟩)

theorem Finds.of_knows (knows : pool.dag.Knows h) : pool.Finds h :=
  .inr (isSome_iff_exists.mpr knows.getTx)

theorem Finds.mono (finds : pool.Finds h) (sameDag : next.dag = pool.dag)
    (pooled : ∀ txEnv, pool.txLookup.getEnvelope h = some txEnv → next.Finds h) : next.Finds h := by
  rcases finds with inPool | inDag
  · obtain ⟨txEnv, found⟩ := get_isSome_iff.mp inPool
    exact pooled txEnv found
  · exact .inr (sameDag ▸ inDag)

theorem getEnvelope_switchStatus_isSome {lookup : TxLookUp} (other : Hash)
    (status : TxStatus) (found : lookup.getEnvelope h = some txEnv) :
    ∃ switched, (lookup.switchStatus other status).getEnvelope h = some switched := by
  rw [getEnvelope_switchStatus]
  split
  next same =>
    rw [← same, found]
    exact ⟨_, rfl⟩
  · exact ⟨txEnv, found⟩

/-! ## Judging -/

theorem parentsQuality_finds {parents : List Hash} (reviewed : parents.Pairwise fun earlier later =>
      pool.getStatus earlier = .badTx → pool.Finds later)
    (notFatal : pool.parentsQuality parents ≠ .isFatal) :
    ∀ parentHash ∈ parents, pool.Finds parentHash := by
  induction parents with
  | nil => exact fun _ member => absurd member not_mem_nil
  | cons first rest ih =>
    obtain ⟨afterBad, restReviewed⟩ := pairwise_cons.mp reviewed
    rw [parentsQuality] at notFatal
    refine forall_mem_cons.mpr ?_
    split at notFatal
    next inPool =>
      refine ⟨.inl inPool, ?_⟩
      split at notFatal
      next isBad => exact fun later member => afterBad later member isBad
      · exact ih restReviewed notFatal
    · split at notFatal
      · exact absurd rfl notFatal
      next inDag =>
        rw [isNone_iff_eq_none, ← ne_eq, ne_none_iff_isSome] at inDag
        exact ⟨.inr inDag, ih restReviewed notFatal⟩

theorem isBadTx_finds {quality : TxQuality} (reviewed : pool.Reviewed tx)
    (judged : pool.isBadTx tx = .ok quality) (notFatal : quality ≠ .isFatal) :
    ∀ parentHash ∈ tx.parents, pool.Finds parentHash := by
  refine parentsQuality_finds reviewed fun isFatal => notFatal ?_
  rw [isBadTx, isFatal] at judged
  cases judged
  rfl

def SequencersKnown (pool : TxPool) : Prop :=
  ∀ h txEnv, pool.txLookup.getEnvelope h = some txEnv → txEnv.tx.getType = .sequencer →
    pool.dag.Knows h

theorem SequencersKnown.inherits (known : pool.SequencersKnown) (sameDag : next.dag = pool.dag)
    (inherits : Inherits pool next) : next.SequencersKnown := by
  intro h txEnv found isSequencer
  obtain ⟨earlier, before, sameTx, -⟩ := inherits h txEnv found
  rw [sameDag]
  exact known h earlier before (sameTx ▸ isSequencer)

theorem moveParent_finds (filed : pool.Filed) (known : pool.SequencersKnown) (pHash : Hash)
    (finds : pool.Finds h) : (pool.moveParent pHash).Finds h := by
  refine finds.mono (moveParent_moved pool pHash).dag fun txEnv found => ?_
  unfold moveParent
  split
  · exact .of_envelope found
  split
  · exact .of_envelope found
  rename_i parent isTip
  rw [filed.tips] at isTip
  obtain ⟨inPool, -⟩ := withStatus_eq_some_iff.mp isTip
  obtain ⟨parentEnv, inLookup, rfl⟩ := map_eq_some_iff.mp inPool
  split
  next isSequencer =>
    by_cases own : h = pHash
    · have knows : pool.dag.Knows h := own ▸ known pHash parentEnv inLookup isSequencer
      exact .of_knows knows
    have stays : (pool.txLookup.remove pHash .removeFromFront).getEnvelope h = some txEnv := by
      rw [getEnvelope_remove, if_neg own, found]
    exact .of_envelope stays
  · obtain ⟨switched, stays⟩ := getEnvelope_switchStatus_isSome pHash .pending found
    exact .of_envelope stays

theorem moveParents_finds (filed : pool.Filed) (known : pool.SequencersKnown)
    (parents : List Hash) (finds : pool.Finds h) : (parents.foldl moveParent pool).Finds h := by
  induction parents generalizing pool with
  | nil => exact finds
  | cons pHash rest ih =>
    have moved := moveParent_moved pool pHash
    exact ih (filed.moveParent pHash) (known.inherits moved.dag moved.inherits)
      (moveParent_finds filed known pHash finds)

theorem commit_finds (filed : pool.Filed) (known : pool.SequencersKnown) (queued : pool.Queued tx)
    (committed : pool.commit tx = .ok (answer, next)) (different : h ≠ tx.getTxHash)
    (finds : pool.Finds h) : next.Finds h := by
  have sameDag := (commit_judges filed.wellFormed queued committed).dag
  cases commit_cases queued committed with
  | fatal =>
    refine finds.mono sameDag fun txEnv found => ?_
    have stays : (pool.txLookup.remove tx.getTxHash .removeFromEnd).getEnvelope h =
        some txEnv := by
      rw [getEnvelope_remove, if_neg different, found]
    exact .of_envelope stays
  | bad =>
    refine finds.mono sameDag fun txEnv found => ?_
    obtain ⟨switched, stays⟩ := getEnvelope_switchStatus_isSome tx.getTxHash .badTx found
    exact .of_envelope stays
  | good =>
    refine (moveParents_finds filed known tx.parents finds).mono rfl fun txEnv found => ?_
    obtain ⟨switched, stays⟩ := getEnvelope_switchStatus_isSome tx.getTxHash .tip found
    exact .of_envelope stays

structure Rooted (pool : TxPool) : Prop where
  filed : pool.Filed
  noneQueued : pool.NoneQueued
  sequencers : pool.SequencersKnown
  closed : ∀ h txEnv, pool.txLookup.getEnvelope h = some txEnv →
    ∀ parentHash ∈ txEnv.tx.parents, pool.Finds parentHash

/-- What leaves is the transaction itself, before it has a child, or a sequencer of the ledger. -/
theorem Rooted.judge (rooted : pool.Rooted) (queue : TxEnvelope)
    (isQueue : queue.status = .queue) (notSequencer : queue.tx.getType ≠ .sequencer)
    (absent : pool.txLookup.getEnvelope queue.tx.getTxHash = none)
    (reviewed : { pool with txLookup := pool.txLookup.add queue }.Reviewed queue.tx)
    (committed : { pool with txLookup := pool.txLookup.add queue }.commit queue.tx =
      .ok (answer, next)) : next.Rooted := by
  have filed := rooted.filed.add isQueue absent
  have queued := queued_add pool queue isQueue absent
  have judges := commit_judges filed.wellFormed queued committed
  obtain ⟨nextFiled, nextNone⟩ := commit_filed filed queued (rooted.noneQueued.add queue) committed
  have entered : ∀ {h txEnv}, h ≠ queue.tx.getTxHash →
      ((pool.txLookup.add queue).getEnvelope h = some txEnv ↔
        pool.txLookup.getEnvelope h = some txEnv) := by
    intro h txEnv different
    rw [getEnvelope_add, if_neg different]
  have queueOwn : (pool.txLookup.add queue).getEnvelope queue.tx.getTxHash = some queue := by
    rw [getEnvelope_add, if_pos rfl, absent]
    rfl
  have known : { pool with txLookup := pool.txLookup.add queue }.SequencersKnown := by
    intro h txEnv found isSequencer
    by_cases own : h = queue.tx.getTxHash
    · rw [own] at found
      cases queueOwn.symm.trans found
      exact absurd isSequencer notSequencer
    · exact rooted.sequencers h txEnv ((entered own).mp found) isSequencer
  have kept : ∀ {h}, pool.Finds h → next.Finds h := by
    intro h finds
    refine finds.mono judges.dag fun txEnv found => ?_
    have different : h ≠ queue.tx.getTxHash := by
      rintro rfl
      rw [absent] at found
      cases found
    exact commit_finds filed known queued committed different
      (.of_envelope ((entered different).mpr found))
  refine ⟨nextFiled, nextNone, ?_, ?_⟩
  · intro h txEnv found isSequencer
    by_cases own : h = queue.tx.getTxHash
    · rw [(judges.own txEnv (own ▸ found)).1] at isSequencer
      exact absurd isSequencer notSequencer
    obtain ⟨earlier, before, sameTx, -⟩ := judges.others h txEnv own found
    rw [judges.dag]
    exact known h earlier before (sameTx ▸ isSequencer)
  · intro h txEnv found parentHash isParent
    by_cases own : h = queue.tx.getTxHash
    · subst own
      by_cases self : parentHash = queue.tx.getTxHash
      · rw [self]
        exact .of_envelope found
      rw [(judges.own txEnv found).1] at isParent
      obtain ⟨quality, judged, notFatal⟩ := judges.stays txEnv found
      exact commit_finds filed known queued committed self
        (isBadTx_finds reviewed judged notFatal parentHash isParent)
    · obtain ⟨earlier, before, sameTx, -⟩ := judges.others h txEnv own found
      exact kept (rooted.closed h earlier ((entered own).mp before) parentHash (sameTx ▸ isParent))

theorem Rooted.cleared (pool : TxPool) : pool.clearAll.Rooted where
  filed := .cleared
  noneQueued := .cleared pool
  sequencers _ _ found := by cases found
  closed _ _ found := by cases found

theorem Rooted.rejudge {txs : List Txi} (wellFormed : pool.txLookup.WellFormed)
    (reviewed : ∀ call ∈ pool.clearAll.rejudgeCalls (txsInPool (pool.txLookup.withoutBatch txs)),
      call.1.Reviewed call.2)
    (isRejudged : pool.clearAll.rejudge (txsInPool (pool.txLookup.withoutBatch txs)) = .ok next) :
    next.Rooted := by
  refine remaining_keeps wellFormed (fun rooted => rooted.filed.wellFormed) ?_ (.cleared pool)
    isRejudged
  intro state after answer queue rooted remaining called missing committed
  exact rooted.judge queue remaining.isQueue remaining.notSequencer missing (reviewed _ called)
    committed

/-! ## A confirmation -/

theorem Rooted.settle (wellFormed : pool.txLookup.WellFormed)
    (queued : pool.Queued batch.seq.txi) (tagged : batch.seq.base.type = .sequencer)
    (notBatch : ∀ tx ∈ batch.txs, tx.getTxHash ≠ batch.seq.base.hash) (filed : next.Filed)
    (noneQueued : next.NoneQueued) (knows : pool.dag.Knows batch.seq.base.hash)
    (parents : ∀ parentHash ∈ batch.seq.txi.parents, pool.dag.Knows parentHash)
    (reviewed : ∀ call ∈ pool.clearAll.rejudgeCalls
      (txsInPool (pool.txLookup.withoutBatch batch.txs)), call.1.Reviewed call.2)
    (settled : pool.settle batch = .ok next) : next.Rooted := by
  obtain ⟨rejudged, seqEnv, flows, isRejudged, isSeq, -, absent, -, rfl⟩ :=
    settle_cases wellFormed queued tagged notBatch settled
  have remains := rejudge_remains wellFormed isRejudged
  have rooted : rejudged.Rooted := .rejudge wellFormed reviewed isRejudged
  have lookup := getEnvelope_closed isSeq absent flows
  refine ⟨filed, noneQueued, fun h txEnv found isSequencer => ?_,
    fun h txEnv found parentHash isParent => ?_⟩
  · rw [lookup] at found
    split at found
    next own =>
      rw [own]
      exact remains.dag ▸ knows
    · exact absurd isSequencer (remains.origin h txEnv found).2.1
  · rw [lookup] at found
    split at found
    · cases found
      exact .of_knows (remains.dag ▸ parents parentHash (isSeq ▸ isParent))
    · refine (rooted.closed h txEnv found parentHash isParent).mono rfl fun parentEnv present => ?_
      have stays := lookup parentHash
      split at stays
      · exact .of_envelope stays
      · exact .of_envelope (stays.trans present)

/-! ## Runs -/

def confirmCalls (pool : TxPool) (seq : Sequencer) : List (TxPool × Txi) :=
  match pool.batchOf seq with
  | .error _ => []
  | .ok batch =>
    match pool.dag.push ovm failing batch with
    | .done dag =>
      { pool with cached := none, dag := dag }.clearAll.rejudgeCalls
        (txsInPool (pool.txLookup.withoutBatch batch.txs))
    | .crashed _ | .panicked _ _ | .failed _ _ => []

def commitCalls (pool : TxPool) (txType : TxType) (tx : Txi) : List (TxPool × Txi) :=
  if (pool.get tx.getTxHash).isSome then []
  else
    let pool := pool.enqueue txType tx
    match tx.body with
    | .sequencer issuer => pool.confirmCalls ovm failing ⟨tx.base, issuer⟩
    | .tx _ | .campaign _ | .termChange _ | .archive | .action _ => [(pool, tx)]

def Turns (pool : TxPool) (input : (PushStep → Bool) × TxType × Txi) (next : TxPool)
    (confirmed : List ConfirmBatch) : Prop :=
  ∃ answer, pool.submit ovm input.1 input.2.1 input.2.2 = .ok (answer, next) ∧
    confirmed = confirmedBy answer

/-- Nothing is judged with a missing parent after a bad one. -/
def ReviewedInput (pool : TxPool) (input : (PushStep → Bool) × TxType × Txi) : Prop :=
  input.1 = noFault ∧
    (input.2.2.getType = .sequencer ↔ ∃ issuer, input.2.2.body = .sequencer issuer) ∧
    ∀ call ∈ pool.commitCalls ovm input.1 input.2.1 input.2.2, call.1.Reviewed call.2

structure Sheltered (initial : Sequencer) (pool : TxPool) : Prop where
  orderly : pool.Orderly initial
  stored : ∀ {h stored}, pool.dag.Holds h stored → pool.dag.Knows h
  rooted : pool.Rooted

theorem Rooted.closes (rooted : pool.Rooted) : pool.Closed := by
  intro h tx pooled
  obtain ⟨txEnv, found, rfl⟩ := map_eq_some_iff.mp pooled
  exact rooted.closed h txEnv found

theorem Rooted.kept (rooted : pool.Rooted) (filed : next.Filed) (noneQueued : next.NoneQueued)
    (getTx : next.dag.getTx = pool.dag.getTx) (db : next.dag.db = pool.dag.db)
    (lookup : ∀ h, next.txLookup.getEnvelope h = pool.txLookup.getEnvelope h) : next.Rooted := by
  have finds : ∀ {h}, pool.Finds h → next.Finds h := by
    rintro h (inPool | inDag)
    · obtain ⟨txEnv, found⟩ := get_isSome_iff.mp inPool
      exact .of_envelope ((lookup h).trans found)
    · exact .inr (getTx ▸ inDag)
  refine ⟨filed, noneQueued, fun h txEnv found isSequencer => ?_,
    fun h txEnv found parentHash isParent => ?_⟩
  · rw [Dag.Knows, db]
    exact rooted.sequencers h txEnv ((lookup h).symm.trans found) isSequencer
  · exact finds (rooted.closed h txEnv ((lookup h).symm.trans found) parentHash isParent)

theorem Rooted.raiseWeight (rooted : pool.Rooted) (tx : Txi) : (pool.raiseWeight tx).Rooted := by
  unfold TxPool.raiseWeight
  split
  · exact rooted.kept ⟨rooted.filed.wellFormed, rooted.filed.complete, rooted.filed.tips,
      rooted.filed.pendings, rooted.filed.badtxs⟩ rooted.noneQueued rfl rfl fun _ => rfl
  · exact rooted

variable {ovm} {failing}

theorem commitCalls_judged (absent : pool.txLookup.getEnvelope tx.getTxHash = none)
    (notSequencer : ∀ issuer, tx.body ≠ .sequencer issuer) :
    pool.commitCalls ovm failing txType tx = [(pool.enqueue txType tx, tx)] := by
  have notThere : (pool.get tx.getTxHash).isSome = false := by
    rw [get, TxLookUp.get, absent]
    rfl
  rw [commitCalls, notThere, if_neg (by decide)]
  cases isBody : tx.body with
  | sequencer issuer => exact absurd isBody (notSequencer issuer)
  | tx | campaign | termChange | archive | action => rfl

theorem commitCalls_confirmed (cached : pool.cached = none)
    (absent : pool.txLookup.getEnvelope batch.seq.txi.getTxHash = none)
    (accepted : (pool.enqueue txType batch.seq.txi).confirmHelper batch.seq = .ok batch)
    (isPush : pool.dag.push ovm failing batch = .done dag) :
    pool.commitCalls ovm failing txType batch.seq.txi =
      { pool.enqueue txType batch.seq.txi with cached := none, dag := dag }.clearAll.rejudgeCalls
        (txsInPool ((pool.enqueue txType batch.seq.txi).txLookup.withoutBatch batch.txs)) := by
  have notThere : (pool.get batch.seq.txi.getTxHash).isSome = false := by
    rw [get, TxLookUp.get, absent]
    rfl
  have isBatch : (pool.enqueue txType batch.seq.txi).batchOf batch.seq = .ok batch := by
    have stillNone : (pool.enqueue txType batch.seq.txi).cached = none := cached
    rw [batchOf, stillNone]
    exact accepted
  have stillPush : (pool.enqueue txType batch.seq.txi).dag.push ovm failing batch = .done dag :=
    isPush
  rw [commitCalls, notThere, if_neg (by decide)]
  show confirmCalls ovm failing _ batch.seq = _
  simp only [confirmCalls, isBatch, stillPush]

theorem Sheltered.confirmed {txs : List Txi} {statedb last : StateDB}
    (sheltered : pool.Sheltered initial) (tagged : batch.seq.base.type = .sequencer)
    (absent : pool.txLookup.getEnvelope batch.seq.txi.getTxHash = none)
    (accepted : (pool.enqueue txType batch.seq.txi).confirmHelper batch.seq = .ok batch)
    (executed : pool.dag.execute ovm batch = .ok (.ok txs, statedb))
    (isSettled : { pool.enqueue txType batch.seq.txi with
      cached := none, dag := pool.dag.pushed batch.seq txs last }.settle batch = .ok next)
    (reviewed : ∀ call ∈ { pool.enqueue txType batch.seq.txi with
        cached := none, dag := pool.dag.pushed batch.seq txs last }.clearAll.rejudgeCalls
      (txsInPool ((pool.enqueue txType batch.seq.txi).txLookup.withoutBatch batch.txs)),
        call.1.Reviewed call.2) :
    next.Rooted ∧ ∀ {h stored}, next.dag.Holds h stored → next.dag.Knows h := by
  have queued : { pool.enqueue txType batch.seq.txi with
      cached := none
      dag := pool.dag.pushed batch.seq txs last }.Queued batch.seq.txi :=
    enqueue_queued txType absent
  have wellFormed := sheltered.orderly.regular.wellFormed.add ⟨batch.seq.txi, txType, .queue, 1⟩
  have notBatch := sheltered.orderly.regular.notBatch tagged absent accepted
  obtain ⟨filed, noneQueued, -⟩ := sheltered.orderly.confirmed tagged absent accepted isSettled
  have isDag : next.dag = pool.dag.pushed batch.seq txs last :=
    (settle_settles isSettled wellFormed queued tagged notBatch).dag
  have confirmed : ∀ {tx}, tx ∈ batch.txs ++ [batch.seq.txi] →
      (pool.dag.pushed batch.seq txs last).Knows tx.getTxHash :=
    fun member => (pushed_knows_iff executed).mpr (.inr (mem_map.mpr ⟨_, member, rfl⟩))
  have isLast : batch.seq.txi ∈ batch.txs ++ [batch.seq.txi] :=
    mem_append_right _ (mem_singleton_self _)
  refine ⟨.settle wellFormed queued tagged notBatch filed noneQueued (confirmed isLast) ?_ reviewed
    isSettled, ?_⟩
  · intro parentHash isParent
    exact batch_parents_known sheltered.orderly.regular sheltered.stored
      sheltered.rooted.sequencers absent accepted executed isLast isParent
  · intro h stored held
    rw [isDag] at held ⊢
    rcases pushed_records executed held with before | ⟨tx, member, -, rfl⟩
    · exact (pushed_knows_iff executed).mpr (.inl (sheltered.stored before))
    · exact confirmed member

theorem raiseWeight_dag (pool : TxPool) (tx : Txi) : (pool.raiseWeight tx).dag = pool.dag := by
  unfold TxPool.raiseWeight
  split <;> rfl

theorem Sheltered.step {input : (PushStep → Bool) × TxType × Txi} {confirmed : List ConfirmBatch}
    (sheltered : pool.Sheltered initial) (allowed : ReviewedInput ovm pool input)
    (turns : pool.Turns ovm input next confirmed) : next.Sheltered initial := by
  obtain ⟨failing, txType, tx⟩ := input
  obtain ⟨rfl, tagMatches, reviewed⟩ := allowed
  have tagged : tx.Tagged := fun issuer isBody => tagMatches.mpr ⟨issuer, isBody⟩
  have submits : pool.Submits ovm (txType, tx) next confirmed := turns
  have orderly := sheltered.orderly.step tagged submits
  have regular := sheltered.orderly.regular
  have rooted := sheltered.rooted
  obtain ⟨answer, submitted, -⟩ := turns
  cases submit_ends regular.cached submitted with
  | duplicate present => exact sheltered
  | refused error statedb absent ledger =>
    refine ⟨orderly, sheltered.stored, ?_⟩
    exact rooted.kept orderly.filed orderly.noneQueued rfl rfl
      fun h => getEnvelope_withdrawn txType absent h
  | confirmed isTx absent accepted executed processed isSettled isPush =>
    obtain rfl := confirmed_isSeq accepted
    subst isTx
    rw [commitCalls_confirmed regular.cached absent accepted isPush] at reviewed
    obtain ⟨settledRooted, stored⟩ :=
      sheltered.confirmed (tagged _ rfl) absent accepted executed isSettled reviewed
    refine ⟨orderly, ?_, settledRooted.raiseWeight _⟩
    rw [raiseWeight_dag]
    exact stored
  | @judged outcome between notSequencer absent committed =>
    have notTagged : tx.getType ≠ .sequencer := by
      intro isType
      obtain ⟨issuer, isBody⟩ := tagMatches.mp isType
      exact notSequencer issuer isBody
    rw [commitCalls_judged absent notSequencer] at reviewed
    have judged : between.Rooted :=
      rooted.judge ⟨tx, txType, .queue, 1⟩ rfl notTagged absent
        (reviewed _ (mem_singleton_self _)) committed
    have sameDag : between.dag = pool.dag :=
      (commit_judges (regular.wellFormed.add _) (enqueue_queued txType absent) committed).dag
    have stored : ∀ {h stored}, between.dag.Holds h stored → between.dag.Knows h := by
      rw [sameDag]
      exact sheltered.stored
    cases outcome with
    | ok => exact ⟨orderly, (raiseWeight_dag between tx).symm ▸ stored, judged.raiseWeight tx⟩
    | error => exact ⟨orderly, stored, judged⟩

theorem Sheltered.init (tagged : initial.txi.Tagged)
    (indexed : dag.Indexed) (held : dag.Holds initial.base.hash initial.txi) :
    (TxPool.init dag initial).Sheltered initial := by
  have orderly := Orderly.init dag tagged
  refine ⟨orderly, indexed.knows, orderly.filed, orderly.noneQueued, fun h txEnv found _ => ?_,
    fun h txEnv found parentHash isParent => ?_⟩
  · obtain ⟨rfl, -⟩ := getEnvelope_init found
    exact indexed.knows held
  · obtain ⟨-, rfl⟩ := getEnvelope_init found
    have knows : (TxPool.init dag initial).dag.Knows parentHash := indexed.parents held isParent
    exact .of_knows knows

theorem run_turn {allowed : TxPool → (PushStep → Bool) × TxType × Txi → Prop} {start : TxPool}
    {batches : List ConfirmBatch} (tx : Txi) (run : Run (Turns .idle) allowed start pool batches)
    (isAllowed : allowed pool (noFault, .localTx, tx))
    (returns : (pool.submit .idle noFault .localTx tx).isOk = true) :
    Run (Turns .idle) allowed start (pool.after tx) (batches ++ pool.confirms tx) :=
  .next run isAllowed (submits_after returns)

end TxPool

/-- In runs of reviewed inputs, each parent of a pooled transaction is in the pool or in the
ledger. -/
theorem pool_parents_closed (ovm : Ovm) (dag : Dag) (initial : Sequencer)
    (tagged : initial.txi.Tagged) (indexed : dag.Indexed)
    (held : dag.Holds initial.base.hash initial.txi) (pool : TxPool) (batches : List ConfirmBatch)
    (run : Run (TxPool.Turns ovm) (TxPool.ReviewedInput ovm) (.init dag initial) pool batches) :
    pool.Closed := by
  have sheltered : pool.Sheltered initial := by
    refine Run.invariant (motive := fun state _ => state.Sheltered initial)
      (.init tagged indexed held) ?_ run
    intro state after outputs new input holds allowed turns
    exact holds.step allowed turns
  exact sheltered.rooted.closes

def campaignChild (parents : List Hash) : Txi := ⟨⟨.campaign, 3, parents, 2, 0, 0⟩, .campaign 5⟩

/-- Bad campaigns leave the pool when the one whose nonce they have is confirmed. -/
theorem pool_parents_closed_conflict :
    ∃ pool, Run (TxPool.Turns .idle) (TxPool.ReviewedInput .idle) .opened pool
        [⟨.confirming [1], [campaigning 1]⟩] ∧ pool.txLookup.order = [101] ∧ pool.Closed := by
  have opened : Run (TxPool.Turns .idle) (TxPool.ReviewedInput .idle) .opened .opened [] := .start
  have first := run_turn (campaigning 1) opened
    ⟨rfl, sequencer_iff rfl, by decide⟩ rfl
  have second := run_turn (campaigning 2) first
    ⟨rfl, sequencer_iff rfl, by decide⟩ rfl
  have child := run_turn (campaignChild [2, 1]) second
    ⟨rfl, sequencer_iff rfl, by decide⟩ rfl
  have run := run_turn (Sequencer.confirming [1]).txi child
    ⟨rfl, sequencer_iff rfl, by decide⟩ rfl
  exact ⟨_, run, rfl, pool_parents_closed .idle .opened Dag.empty.latestSequencer (fun _ _ => rfl)
    Dag.opened_indexed (.inr rfl) _ _ run⟩

/-- A child is kept as a bad transaction though its second parent does not exist: the first one
is bad. -/
theorem orphan_kept :
    ∃ pool, Run (TxPool.Turns .idle) (fun _ input => input.1 = noFault ∧ input.2.2.TagMatches)
        .opened pool [] ∧ pool.get 3 = some (campaignChild [2, 999]) ∧ ¬ pool.Closed := by
  have opened : Run (TxPool.Turns .idle) (fun _ input => input.1 = noFault ∧
    input.2.2.TagMatches) .opened .opened [] := .start
  have first := run_turn (campaigning 1) opened ⟨rfl, rfl⟩ rfl
  have second := run_turn (campaigning 2) first ⟨rfl, rfl⟩ rfl
  have run := run_turn (campaignChild [2, 999]) second ⟨rfl, rfl⟩ rfl
  refine ⟨_, run, rfl, fun closed => ?_⟩
  rcases closed 3 (campaignChild [2, 999]) rfl 999 (by decide) with inPool | inDag
  · cases inPool
  · cases inDag

end AnnchainOG
