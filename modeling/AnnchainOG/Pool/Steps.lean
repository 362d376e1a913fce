import AnnchainOG.Pool.Runs

/-!
# The steps of the pool

A submission leaves the pool as it was, judges a transaction, or confirms a sequencer and judges
what is left.
-/

namespace AnnchainOG

open List TxLookUp

def Txi.Tagged (tx : Txi) : Prop :=
  ∀ issuer, tx.body = .sequencer issuer → tx.getType = .sequencer

/-! ## What stays in the lookup -/

namespace TxLookUp

variable {txs : List Txi} {lookup : TxLookUp} {h : Hash} {txEnv : TxEnvelope}

def withoutBatch (lookup : TxLookUp) (txs : List Txi) : TxLookUp :=
  txs.foldl (fun lookup tx => lookup.removeTxFromMapOnly tx.getTxHash) lookup

theorem withoutBatch_order (txs : List Txi) (lookup : TxLookUp) :
    (lookup.withoutBatch txs).order = lookup.order := by
  induction txs generalizing lookup with
  | nil => rfl
  | cons tx txs ih => exact ih (lookup.removeTxFromMapOnly tx.getTxHash)

theorem getEnvelope_withoutBatch (found : (lookup.withoutBatch txs).getEnvelope h = some txEnv) :
    lookup.getEnvelope h = some txEnv ∧ ∀ tx ∈ txs, tx.getTxHash ≠ h := by
  induction txs generalizing lookup with
  | nil => exact ⟨found, by simp⟩
  | cons tx txs ih =>
    obtain ⟨present, others⟩ := ih found
    replace present : (lookup.txs.delete tx.getTxHash).get? h = some txEnv := present
    rw [GoMap.get?_delete] at present
    split at present
    · cases present
    rename_i different
    refine ⟨present, ?_⟩
    intro other member
    rcases mem_cons.mp member with rfl | later
    · exact fun same => different same.symm
    · exact others other later

theorem getEnvelope_withoutBatch_of_notMem (notBatch : ∀ tx ∈ txs, tx.getTxHash ≠ h)
    (found : lookup.getEnvelope h = some txEnv) :
    (lookup.withoutBatch txs).getEnvelope h = some txEnv := by
  induction txs generalizing lookup with
  | nil => exact found
  | cons tx txs ih =>
    refine ih (fun other member => notBatch other (mem_cons_of_mem _ member)) ?_
    show (lookup.txs.delete tx.getTxHash).get? h = some txEnv
    rw [GoMap.get?_delete, if_neg (Ne.symm (notBatch tx mem_cons_self))]
    exact found

end TxLookUp

namespace TxPool

variable {pool next rejudged : TxPool} {tx : Txi} {txEnv : TxEnvelope} {batch : ConfirmBatch}
  {ovm : Ovm} {seq : Sequencer} {h : Hash} {fact : Dag → AccountFlows → Txi → Prop} {txs : List Txi}
  {confirmed : List ConfirmBatch} {elders : List Txi}

theorem mem_txsInPool {lookup : TxLookUp} (member : txEnv ∈ txsInPool lookup) :
    (∃ h ∈ lookup.order, lookup.getEnvelope h = some txEnv) ∧ txEnv.tx.getType ≠ .sequencer := by
  obtain ⟨listed, notSequencer⟩ := mem_filter.mp member
  exact ⟨mem_filterMap.mp listed, of_decide_eq_true notSequencer⟩

theorem txsInPool_distinct {lookup : TxLookUp} (distinct : lookup.order.Nodup)
    (hashes : ∀ {h txEnv}, lookup.getEnvelope h = some txEnv → txEnv.tx.getTxHash = h) :
    ((txsInPool lookup).map fun txEnv => txEnv.tx.getTxHash).Nodup := by
  have collected : ∀ order : List Hash, ((order.filterMap lookup.getEnvelope).map
      fun txEnv => txEnv.tx.getTxHash).Sublist order := by
    intro order
    induction order with
    | nil => exact .slnil
    | cons h order ih =>
      cases found : lookup.getEnvelope h with
      | none =>
        rw [filterMap_cons_none found]
        exact ih.cons h
      | some txEnv =>
        rw [filterMap_cons_some found, map_cons, hashes found]
        exact ih.cons_cons h
  exact distinct.sublist ((filter_sublist.map _).trans (collected lookup.order))

/-! ## Settling a confirmed batch -/

/-- An envelope that is judged again: of a transaction of the pool that is neither a sequencer nor
of the batch. -/
structure Remaining (pool : TxPool) (txs : List Txi) (queue : TxEnvelope) : Prop where
  isQueue : queue.status = .queue
  pooled : ∃ earlier, pool.txLookup.getEnvelope queue.tx.getTxHash = some earlier ∧
    earlier.tx = queue.tx
  notSequencer : queue.tx.getType ≠ .sequencer
  notBatch : ∀ tx ∈ txs, tx.getTxHash ≠ queue.tx.getTxHash

theorem remaining_keeps {motive : TxPool → Prop} (wellFormed : pool.txLookup.WellFormed)
    (formed : ∀ {state}, motive state → state.txLookup.WellFormed)
    (judge : ∀ {state after : TxPool} {answer} (queue : TxEnvelope), motive state →
      pool.Remaining txs queue → ({ state with txLookup := state.txLookup.add queue }, queue.tx) ∈
        pool.clearAll.rejudgeCalls (txsInPool (pool.txLookup.withoutBatch txs)) →
      state.txLookup.getEnvelope queue.tx.getTxHash = none →
      { state with txLookup := state.txLookup.add queue }.commit queue.tx = .ok (answer, after) →
        motive after) (start : motive pool.clearAll)
    (isRejudged : pool.clearAll.rejudge (txsInPool (pool.txLookup.withoutBatch txs)) =
      .ok rejudged) : motive rejudged := by
  have distinct : ((txsInPool (pool.txLookup.withoutBatch txs)).map
      fun txEnv => txEnv.tx.getTxHash).Nodup := by
    refine txsInPool_distinct ?_ fun found =>
      wellFormed.hashes (getEnvelope_withoutBatch found).1
    rw [withoutBatch_order]
    exact wellFormed.distinct
  refine rejudge_keeps formed ?_ start distinct (fun _ _ => rfl) isRejudged
  rintro state after answer queue holds ⟨txEnv, member, isTx⟩ called isQueue missing committed
  obtain ⟨⟨h, -, found⟩, notSequencer⟩ := mem_txsInPool member
  obtain ⟨present, notBatch⟩ := getEnvelope_withoutBatch found
  obtain rfl := wellFormed.hashes present
  rw [← isTx] at present notSequencer notBatch
  exact judge queue holds ⟨isQueue, ⟨txEnv, present, isTx.symm⟩, notSequencer, notBatch⟩ called
    missing committed

structure Remains (pool : TxPool) (txs : List Txi) (state : TxPool) : Prop where
  dag : state.dag = pool.dag
  cached : state.cached = pool.cached
  wellFormed : state.txLookup.WellFormed
  origin : ∀ h txEnv, state.txLookup.getEnvelope h = some txEnv →
    (∃ earlier, pool.txLookup.getEnvelope h = some earlier ∧ earlier.tx = txEnv.tx) ∧
      txEnv.tx.getType ≠ .sequencer ∧ ∀ tx ∈ txs, tx.getTxHash ≠ h
  goodHold : ∀ {fact}, Stable fact → GoodHold fact state
  flowsHold : ∀ {entry}, FlowStable entry → FlowsHold entry state

theorem Remains.judge {state : TxPool} {queue : TxEnvelope} (remains : pool.Remains txs state)
    (remaining : pool.Remaining txs queue)
    (absent : state.txLookup.getEnvelope queue.tx.getTxHash = none)
    (judges : { state with txLookup := state.txLookup.add queue }.Judges queue.tx next) :
    pool.Remains txs next where
  dag := judges.dag.trans remains.dag
  cached := judges.cached.trans remains.cached
  wellFormed := judges.wellFormed
  origin h txEnv found := by
    by_cases own : h = queue.tx.getTxHash
    · subst own
      rw [(judges.own txEnv found).1]
      exact ⟨remaining.pooled, remaining.notSequencer, remaining.notBatch⟩
    · obtain ⟨earlier, inQueue, sameTx, -⟩ := judges.others h txEnv own found
      rw [getEnvelope_add, if_neg own] at inQueue
      exact sameTx ▸ remains.origin h earlier inQueue
  goodHold stable :=
    judges.goodHold stable ((remains.goodHold stable).add remaining.isQueue absent)
  flowsHold stable := judges.flowsHold stable (remains.flowsHold stable)

theorem Remains.cleared (pool : TxPool) (txs : List Txi) : pool.Remains txs pool.clearAll where
  dag := rfl
  cached := rfl
  wellFormed := .empty
  origin _ _ found := by cases found
  goodHold _ _ _ found := by cases found
  flowsHold _ _ _ _ found := by cases found

theorem rejudge_remains (wellFormed : pool.txLookup.WellFormed)
    (isRejudged : pool.clearAll.rejudge (txsInPool (pool.txLookup.withoutBatch txs)) =
      .ok rejudged) : pool.Remains txs rejudged := by
  refine remaining_keeps wellFormed (fun remains => remains.wellFormed) ?_ (.cleared pool txs)
    isRejudged
  intro state after answer queue remains remaining _ missing committed
  have queued := queued_add state queue remaining.isQueue missing
  exact remains.judge remaining missing
    (commit_judges (remains.wellFormed.add _) queued committed)

def closed (rejudged : TxPool) (seq : Sequencer) (seqEnv : TxEnvelope) (flows : AccountFlows) :
    TxPool :=
  { rejudged with
    flows := flows
    tips := TxMap.add rejudged.tips seq.txi
    txLookup := (rejudged.txLookup.add seqEnv).switchStatus seq.base.hash .tip }

theorem getEnvelope_closed (isSeq : txEnv.tx = seq.txi)
    (absent : rejudged.txLookup.getEnvelope seq.base.hash = none) (flows : AccountFlows)
    (h : Hash) :
    (rejudged.closed seq txEnv flows).txLookup.getEnvelope h =
      if h = seq.base.hash then some { txEnv with status := .tip }
      else rejudged.txLookup.getEnvelope h := by
  have ownHash : txEnv.tx.getTxHash = seq.base.hash := congrArg Txi.getTxHash isSeq
  refine (getEnvelope_switchStatus _ _ _ _).trans ?_
  split
  · rw [getEnvelope_add, if_pos ownHash.symm, absent]
    rfl
  next different => rw [getEnvelope_add, ownHash, if_neg different]

theorem settle_cases (wellFormed : pool.txLookup.WellFormed) (queued : pool.Queued batch.seq.txi)
    (tagged : batch.seq.base.type = .sequencer)
    (notBatch : ∀ tx ∈ batch.txs, tx.getTxHash ≠ batch.seq.base.hash)
    (settled : pool.settle batch = .ok next) :
    ∃ rejudged seqEnv flows,
      pool.clearAll.rejudge (txsInPool (pool.txLookup.withoutBatch batch.txs)) = .ok rejudged ∧
      seqEnv.tx = batch.seq.txi ∧ seqEnv.status = .queue ∧
      rejudged.txLookup.getEnvelope batch.seq.base.hash = none ∧
      AccountFlows.add rejudged.dag (rejudged.flows.ensureFlow batch.seq.issuer) batch.seq.txi =
        .ok flows ∧ next = rejudged.closed batch.seq seqEnv flows := by
  obtain ⟨solved, isSolved, rest⟩ := bind_ok settled
  obtain ⟨flows, entered, isNext⟩ := bind_ok rest
  obtain ⟨rejudged, isRejudged, isReturned⟩ := bind_ok isSolved
  obtain ⟨seqEnv, inPool, isSeq, isQueue⟩ := queued
  have absent : rejudged.txLookup.getEnvelope batch.seq.base.hash = none := by
    cases found : rejudged.txLookup.getEnvelope batch.seq.base.hash with
    | none => rfl
    | some txEnv =>
      obtain ⟨⟨earlier, present, sameTx⟩, notSequencer, -⟩ :=
        (rejudge_remains wellFormed isRejudged).origin _ txEnv found
      cases inPool.symm.trans present
      rw [← sameTx, isSeq] at notSequencer
      exact absurd tagged notSequencer
  have stays : (pool.txLookup.withoutBatch batch.txs).getEnvelope batch.seq.base.hash =
      some seqEnv := getEnvelope_withoutBatch_of_notMem notBatch inPool
  rw [TxLookUp.withoutBatch] at stays
  simp only [stays] at isReturned
  cases isReturned
  cases isNext
  exact ⟨rejudged, seqEnv, flows, isRejudged, isSeq, isQueue, absent, entered, rfl⟩

/-- What `settle` does: the ledger stays, and whatever is in the pool was there and is not of
the batch. -/
structure Settles (pool : TxPool) (batch : ConfirmBatch) (next : TxPool) : Prop where
  dag : next.dag = pool.dag
  cached : next.cached = pool.cached
  wellFormed : next.txLookup.WellFormed
  origin : ∀ h txEnv, next.txLookup.getEnvelope h = some txEnv →
    (∃ earlier, pool.txLookup.getEnvelope h = some earlier ∧ earlier.tx = txEnv.tx) ∧
      ∀ tx ∈ batch.txs, tx.getTxHash ≠ h
  sequencers : ∀ h txEnv, next.txLookup.getEnvelope h = some txEnv →
    txEnv.tx.getType = .sequencer → txEnv.status ≠ .badTx
  goodHold : ∀ {fact}, Stable fact → GoodHold fact next
  /-- The flows are filled anew; the sequencer comes last. -/
  flowsHold : ∀ {entry : Dag → Address → UInt64 → Txi → Prop}, FlowStable entry →
    entry pool.dag batch.seq.issuer batch.seq.base.accountNonce batch.seq.txi →
      FlowsHold entry next

variable {txType : TxType} {genesis : Sequencer}

theorem settle_settles
    (settled : pool.settle batch = .ok next) (wellFormed : pool.txLookup.WellFormed)
    (queued : pool.Queued batch.seq.txi) (tagged : batch.seq.base.type = .sequencer)
    (notBatch : ∀ tx ∈ batch.txs, tx.getTxHash ≠ batch.seq.base.hash) :
    pool.Settles batch next := by
  obtain ⟨rejudged, seqEnv, flows, isRejudged, isSeq, -, absent, entered, rfl⟩ :=
    settle_cases wellFormed queued tagged notBatch settled
  have remains := rejudge_remains wellFormed isRejudged
  have lookup := getEnvelope_closed isSeq absent flows
  refine ⟨remains.dag, remains.cached, (remains.wellFormed.add _).switchStatus _ _, ?_, ?_, ?_, ?_⟩
  · intro h txEnv found
    rw [lookup] at found
    split at found
    next own =>
      cases found
      obtain ⟨queuedEnv, inPool, isTx, -⟩ := queued
      exact ⟨⟨queuedEnv, own ▸ inPool, isTx.trans isSeq.symm⟩, own ▸ notBatch⟩
    · obtain ⟨pooled, -, others⟩ := remains.origin h txEnv found
      exact ⟨pooled, others⟩
  · intro h txEnv found isSequencer
    rw [lookup] at found
    split at found
    · cases found
      exact nofun
    · exact absurd isSequencer (remains.origin h txEnv found).2.1
  · intro fact stable h txEnv found good
    rw [lookup] at found
    split at found
    · cases found
      rw [isSeq]
      exact stable.sequencers batch.seq
    · exact stable.kept entered (remains.goodHold stable h txEnv found good)
  · intro entry stable ofSeq addr nonce tx found
    rcases flows_add_origin entered found with before | ⟨rfl, isKey⟩
    · rw [getTxByNonce_ensureFlow] at before
      exact remains.flowsHold stable addr nonce tx before
    obtain ⟨-, isSender, rfl⟩ := Txi.key_eq_some_iff.mp isKey
    cases isSender
    exact remains.dag.symm ▸ ofSeq

/-! ## One submission -/

structure Regular (pool : TxPool) : Prop where
  wellFormed : pool.txLookup.WellFormed
  cached : pool.cached = none
  tagged : ∀ h txEnv, pool.txLookup.getEnvelope h = some txEnv → txEnv.tx.Tagged

inductive Step (ovm : Ovm) (pool : TxPool) (tx : Txi) (next : TxPool) : List ConfirmBatch → Prop where
  | kept (statedb : StateDB) (isDag : next.dag = { pool.dag with statedb := statedb })
      (ledger : next.dag.SameLedger pool.dag) (flows : next.flows = pool.flows)
      (lookup : ∀ h, next.txLookup.getEnvelope h = pool.txLookup.getEnvelope h) :
      Step ovm pool tx next []
  | judged (txType : TxType) (notSequencer : ∀ issuer, tx.body ≠ .sequencer issuer)
      (absent : pool.txLookup.getEnvelope tx.getTxHash = none)
      (judges : (pool.enqueue txType tx).Judges tx next) : Step ovm pool tx next []
  | confirmed (txType : TxType) (batch : ConfirmBatch) (txs : List Txi) (statedb last : StateDB)
      (isSeq : batch.seq.txi = tx) (absent : pool.txLookup.getEnvelope tx.getTxHash = none)
      (accepted : (pool.enqueue txType tx).confirmHelper batch.seq = .ok batch)
      (executed : pool.dag.execute ovm batch = .ok (.ok txs, statedb))
      (processed : processTransaction ovm pool.dag.latestSequencer.base.height statedb
        batch.seq.txi = .ok (.ok batch.seq.txi, last))
      (settles : { pool.enqueue txType tx with
        cached := none
        dag := pool.dag.pushed batch.seq txs last }.Settles batch next) :
      Step ovm pool tx next [batch]

def confirmedBy : Except PoolError (Option ConfirmBatch) → List ConfirmBatch
  | .ok (some batch) => [batch]
  | .ok none | .error _ => []

def Submits (ovm : Ovm) (pool : TxPool) (input : TxType × Txi) (next : TxPool)
    (confirmed : List ConfirmBatch) : Prop :=
  ∃ answer, pool.submit ovm noFault input.1 input.2 = .ok (answer, next) ∧
    confirmed = confirmedBy answer

def after (pool : TxPool) (tx : Txi) : TxPool :=
  match pool.submit .idle noFault .localTx tx with
  | .ok (_, next) => next
  | .error _ => pool

def confirms (pool : TxPool) (tx : Txi) : List ConfirmBatch :=
  match pool.submit .idle noFault .localTx tx with
  | .ok (answer, _) => confirmedBy answer
  | .error _ => []

theorem submits_after (returns : (pool.submit .idle noFault .localTx tx).isOk = true) :
    pool.Submits .idle (.localTx, tx) (pool.after tx) (pool.confirms tx) := by
  unfold after confirms
  cases submitted : pool.submit .idle noFault .localTx tx with
  | error panic =>
    rw [submitted] at returns
    cases returns
  | ok result => exact ⟨result.1, submitted, rfl⟩

theorem run_after {allowed : TxPool → TxType × Txi → Prop} {start : TxPool}
    {batches : List ConfirmBatch} (tx : Txi)
    (run : Run (Submits .idle) allowed start pool batches) (isAllowed : allowed pool (.localTx, tx))
    (returns : (pool.submit .idle noFault .localTx tx).isOk = true) :
    Run (Submits .idle) allowed start (pool.after tx) (batches ++ pool.confirms tx) :=
  .next run isAllowed (submits_after returns)

theorem Judges.raiseWeight (judges : pool.Judges tx next) :
    pool.Judges tx (next.raiseWeight tx) := by
  unfold TxPool.raiseWeight
  split
  · exact ⟨judges.dag, judges.cached, judges.wellFormed, judges.flows, judges.own, judges.stays,
      judges.others⟩
  · exact judges

theorem Settles.raiseWeight
    (settles : pool.Settles batch next) (tx : Txi) : pool.Settles batch (next.raiseWeight tx) := by
  unfold TxPool.raiseWeight
  split
  · exact ⟨settles.dag, settles.cached, settles.wellFormed, settles.origin,
      settles.sequencers, settles.goodHold, settles.flowsHold⟩
  · exact settles

theorem enqueue_queued (txType : TxType) (absent : pool.txLookup.getEnvelope tx.getTxHash = none) :
    (pool.enqueue txType tx).Queued tx :=
  queued_add pool ⟨tx, txType, .queue, 1⟩ rfl absent

theorem getEnvelope_withdrawn (txType : TxType)
    (absent : pool.txLookup.getEnvelope tx.getTxHash = none) (h : Hash) :
    ((pool.enqueue txType tx).txLookup.remove tx.getTxHash .removeFromEnd).getEnvelope h =
      pool.txLookup.getEnvelope h := by
  rw [getEnvelope_remove]
  split
  next same => rw [same, absent]
  next different => exact (getEnvelope_add _ _ _).trans (if_neg different)

theorem confirm_cases {answer : Except PoolError ConfirmBatch} (cached : pool.cached = none)
    (confirmed : pool.confirm ovm noFault seq = .ok (answer, next)) :
    (∃ error statedb, answer = .error error ∧
        next = { pool with dag := { pool.dag with statedb := statedb } } ∧
        next.dag.SameLedger pool.dag) ∨
      ∃ batch txs statedb last, answer = .ok batch ∧ pool.confirmHelper seq = .ok batch ∧
        pool.dag.execute ovm batch = .ok (.ok txs, statedb) ∧
        processTransaction ovm pool.dag.latestSequencer.base.height statedb batch.seq.txi =
          .ok (.ok batch.seq.txi, last) ∧
        pool.dag.push ovm noFault batch = .done (pool.dag.pushed batch.seq txs last) ∧
        { pool with cached := none, dag := pool.dag.pushed batch.seq txs last }.settle batch =
          .ok next := by
  unfold confirm batchOf at confirmed
  simp only [cached] at confirmed
  cases accepted : pool.confirmHelper seq with
  | error stop =>
    simp only [accepted] at confirmed
    cases stop with
    | panic panic => cases confirmed
    | error error =>
      cases confirmed
      exact .inl ⟨error, pool.dag.statedb, rfl, rfl, .refl _⟩
  | ok batch =>
    simp only [accepted] at confirmed
    rcases pool.dag.push_cases ovm batch with
      ⟨step, statedb, isPush, same⟩ | ⟨panic, isPush⟩ | ⟨txs, statedb, last, executed, processed, isPush⟩
    · simp only [isPush] at confirmed
      cases confirmed
      refine .inl ⟨.push step, statedb, rfl, ?_, same⟩
      rw [← cached]
    · simp only [isPush] at confirmed
      cases confirmed
    · simp only [isPush] at confirmed
      obtain ⟨settledPool, settled, isNext⟩ := bind_ok confirmed
      cases isNext
      exact .inr ⟨batch, txs, statedb, last, rfl, rfl, executed, processed, isPush, settled⟩

inductive Ends (ovm : Ovm) (pool : TxPool) (txType : TxType) (tx : Txi) :
    Except PoolError (Option ConfirmBatch) → TxPool → Prop where
  | duplicate {txEnv : TxEnvelope} (present : pool.txLookup.getEnvelope tx.getTxHash = some txEnv) :
      Ends ovm pool txType tx (.error .duplicateTx) pool
  | refused (error : PoolError) (statedb : StateDB)
      (absent : pool.txLookup.getEnvelope tx.getTxHash = none)
      (ledger : { pool.dag with statedb := statedb }.SameLedger pool.dag) :
      Ends ovm pool txType tx (.error error) { pool.enqueue txType tx with
        dag := { pool.dag with statedb := statedb }
        txLookup := (pool.enqueue txType tx).txLookup.remove tx.getTxHash .removeFromEnd }
  | confirmed {seq : Sequencer} {batch : ConfirmBatch} {txs : List Txi} {statedb last : StateDB}
      {settled : TxPool} (isTx : tx = seq.txi)
      (absent : pool.txLookup.getEnvelope tx.getTxHash = none)
      (accepted : (pool.enqueue txType tx).confirmHelper seq = .ok batch)
      (executed : pool.dag.execute ovm batch = .ok (.ok txs, statedb))
      (processed : processTransaction ovm pool.dag.latestSequencer.base.height statedb
        batch.seq.txi = .ok (.ok batch.seq.txi, last))
      (isSettled : { pool.enqueue txType tx with
        cached := none
        dag := pool.dag.pushed batch.seq txs last }.settle batch = .ok settled)
      (isPush : pool.dag.push ovm noFault batch = .done (pool.dag.pushed batch.seq txs last)) :
      Ends ovm pool txType tx (.ok (some batch)) (settled.raiseWeight tx)
  | judged {outcome : Except PoolError Unit} {between : TxPool}
      (notSequencer : ∀ issuer, tx.body ≠ .sequencer issuer)
      (absent : pool.txLookup.getEnvelope tx.getTxHash = none)
      (committed : (pool.enqueue txType tx).commit tx = .ok (outcome, between)) :
      Ends ovm pool txType tx (outcome.map fun _ => none)
        (if outcome.isOk then between.raiseWeight tx else between)

theorem submit_ends {answer : Except PoolError (Option ConfirmBatch)} (cached : pool.cached = none)
    (submitted : pool.submit ovm noFault txType tx = .ok (answer, next)) :
    Ends ovm pool txType tx answer next := by
  cases present : pool.txLookup.getEnvelope tx.getTxHash with
  | some txEnv =>
    have there : (pool.get tx.getTxHash).isSome = true := by
      rw [get, TxLookUp.get, present]
      rfl
    rw [submit, if_pos there] at submitted
    cases submitted
    exact .duplicate present
  | none =>
    have notThere : (pool.get tx.getTxHash).isSome = false := by
      rw [get, TxLookUp.get, present]
      rfl
    cases isBody : tx.body with
    | sequencer issuer =>
      simp only [submit, notThere, isBody, Bool.false_eq_true, if_false] at submitted
      obtain ⟨⟨outcome, between⟩, confirmed, rest⟩ := bind_ok submitted
      have stillNone : (pool.enqueue txType tx).cached = none := cached
      rcases confirm_cases stillNone confirmed with ⟨error, statedb, rfl, rfl, same⟩ |
        ⟨batch, txs, statedb, last, rfl, accepted, executed, processed, isPush, settled⟩
      · cases rest
        exact .refused error statedb present same
      cases rest
      have isTx : tx = Sequencer.txi ⟨tx.base, issuer⟩ := by rw [Sequencer.txi, ← isBody]
      exact .confirmed isTx present accepted executed processed settled isPush
    | _ =>
      have notSequencer : ∀ issuer, tx.body ≠ .sequencer issuer := by
        intro issuer isSequencer
        rw [isBody] at isSequencer
        cases isSequencer
      simp only [submit, notThere, isBody, Bool.false_eq_true, if_false] at submitted
      obtain ⟨⟨outcome, between⟩, committed, rest⟩ := bind_ok submitted
      have ends : Ends ovm pool txType tx _ _ := .judged notSequencer present committed
      cases outcome <;> cases rest <;> exact ends

theorem confirmed_isSeq (accepted : pool.confirmHelper seq = .ok batch) : batch.seq = seq := by
  obtain ⟨-, -, elders, -, verified⟩ := confirmHelper_ok accepted
  exact verified.isSeq

theorem getEnvelope_enqueue (absent : pool.txLookup.getEnvelope tx.getTxHash = none)
    (found : (pool.enqueue txType tx).txLookup.getEnvelope h = some txEnv) :
    pool.txLookup.getEnvelope h = some txEnv ∨
      h = tx.getTxHash ∧ txEnv = ⟨tx, txType, .queue, 1⟩ := by
  replace found : (pool.txLookup.add ⟨tx, txType, .queue, 1⟩).getEnvelope h = some txEnv := found
  rw [getEnvelope_add] at found
  split at found
  next same =>
    rw [same, absent] at found
    cases found
    exact .inr ⟨same, rfl⟩
  · exact .inl found

theorem enqueue_hashes (regular : pool.Regular) (hash : Hash) (elder : Txi)
    (pooled : (pool.enqueue txType tx).get hash = some elder) : elder.getTxHash = hash := by
  obtain ⟨txEnv, found, rfl⟩ := Option.map_eq_some_iff.mp pooled
  exact (regular.wellFormed.add _).hashes found

theorem elder_pooled (regular : pool.Regular)
    (absent : pool.txLookup.getEnvelope batch.seq.txi.getTxHash = none)
    (sought : (pool.enqueue txType batch.seq.txi).seekElders batch.seq.txi = .ok elders)
    {elder : Txi} (member : elder ∈ elders) :
    (∃ txEnv, pool.txLookup.getEnvelope elder.getTxHash = some txEnv ∧ txEnv.tx = elder) ∨
      elder = batch.seq.txi := by
  obtain ⟨h, -, pooled⟩ := (seekElders_sound sought).1 elder member
  obtain ⟨txEnv, found, rfl⟩ := Option.map_eq_some_iff.mp pooled
  rcases getEnvelope_enqueue absent found with before | ⟨-, rfl⟩
  · exact .inl ⟨txEnv, by rw [regular.wellFormed.hashes before]; exact before, rfl⟩
  · exact .inr rfl

theorem batch_pooled (regular : pool.Regular) (tagged : batch.seq.txi.getType = .sequencer)
    (absent : pool.txLookup.getEnvelope batch.seq.txi.getTxHash = none)
    (sought : (pool.enqueue txType batch.seq.txi).seekElders batch.seq.txi = .ok elders)
    (verified : (pool.enqueue txType batch.seq.txi).Verified batch.seq elders batch)
    (member : tx ∈ batch.txs) :
    ∃ txEnv, pool.txLookup.getEnvelope tx.getTxHash = some txEnv ∧ txEnv.tx = tx ∧
      tx.getType ≠ .sequencer := by
  rw [verified.isTxs] at member
  obtain ⟨isElder, notSequencer⟩ := mem_filter.mp member
  rcases elder_pooled regular absent sought isElder with ⟨txEnv, found, isTx⟩ | isSeq
  · exact ⟨txEnv, found, isTx, of_decide_eq_true notSequencer⟩
  · rw [isSeq] at notSequencer
    exact absurd tagged (of_decide_eq_true notSequencer)

theorem Regular.notBatch (regular : pool.Regular) (tagged : batch.seq.base.type = .sequencer)
    (absent : pool.txLookup.getEnvelope batch.seq.txi.getTxHash = none)
    (accepted : (pool.enqueue txType batch.seq.txi).confirmHelper batch.seq = .ok batch) :
    ∀ tx ∈ batch.txs, tx.getTxHash ≠ batch.seq.base.hash := by
  obtain ⟨-, -, elders, sought, verified⟩ := confirmHelper_ok accepted
  intro tx member sameHash
  obtain ⟨txEnv, found, -, -⟩ := batch_pooled regular tagged absent sought verified member
  rw [sameHash] at found
  exact absurd (absent.symm.trans found) (by simp)

theorem Step.origin (step : pool.Step ovm tx next confirmed)
    (found : next.txLookup.getEnvelope h = some txEnv) :
    (∃ earlier, pool.txLookup.getEnvelope h = some earlier ∧ earlier.tx = txEnv.tx) ∨
      h = tx.getTxHash ∧ txEnv.tx = tx := by
  cases step with
  | kept _ _ _ _ lookup => exact .inl ⟨txEnv, lookup h ▸ found, rfl⟩
  | judged txType _ absent judges =>
    by_cases own : h = tx.getTxHash
    · exact .inr ⟨own, (judges.own txEnv (own ▸ found)).1⟩
    obtain ⟨earlier, inPool, sameTx, -⟩ := judges.others h txEnv own found
    rcases getEnvelope_enqueue absent inPool with before | ⟨isHash, -⟩
    · exact .inl ⟨earlier, before, sameTx⟩
    · exact absurd isHash own
  | confirmed _ _ _ _ _ _ absent _ _ _ settles =>
    obtain ⟨⟨earlier, inPool, sameTx⟩, -⟩ := settles.origin h txEnv found
    rcases getEnvelope_enqueue absent inPool with before | ⟨isHash, isEnv⟩
    · exact .inl ⟨earlier, before, sameTx⟩
    · exact .inr ⟨isHash, by rw [← sameTx, isEnv]⟩

theorem Submits.step {input : TxType × Txi} (submits : pool.Submits ovm input next confirmed)
    (regular : pool.Regular) (tagged : input.2.Tagged) :
    next.Regular ∧ pool.Step ovm input.2 next confirmed := by
  obtain ⟨answer, submitted, rfl⟩ := submits
  have stepped : next.txLookup.WellFormed ∧ next.cached = none ∧
      pool.Step ovm input.2 next (confirmedBy answer) := by
    have wellFormed := regular.wellFormed.add ⟨input.2, input.1, .queue, 1⟩
    cases submit_ends regular.cached submitted with
    | duplicate present =>
      exact ⟨regular.wellFormed, regular.cached, .kept _ rfl (.refl _) rfl fun _ => rfl⟩
    | refused error statedb absent ledger =>
      exact ⟨wellFormed.remove _ .removeFromEnd (by decide), regular.cached,
        .kept statedb rfl ledger rfl fun h => getEnvelope_withdrawn input.1 absent h⟩
    | confirmed isTx absent accepted executed processed isSettled =>
      obtain rfl := confirmed_isSeq accepted
      have isTagged := tagged _ (congrArg Txi.body isTx)
      rw [isTx] at isTagged
      have queued := enqueue_queued input.1 absent
      have settles := (settle_settles isSettled wellFormed (isTx ▸ queued) isTagged
        (regular.notBatch isTagged (isTx ▸ absent) (isTx ▸ accepted))).raiseWeight input.2
      exact ⟨settles.wellFormed, settles.cached,
        .confirmed input.1 _ _ _ _ isTx.symm absent accepted executed processed settles⟩
    | @judged outcome between notSequencer absent committed =>
      have judges := commit_judges wellFormed (enqueue_queued input.1 absent) committed
      have isNext : (pool.enqueue input.1 input.2).Judges input.2
          (if outcome.isOk then between.raiseWeight input.2 else between) := by
        split
        · exact judges.raiseWeight
        · exact judges
      have nothing : confirmedBy (outcome.map fun _ => none) = [] := by cases outcome <;> rfl
      rw [nothing]
      exact ⟨isNext.wellFormed, isNext.cached.trans regular.cached,
        .judged input.1 notSequencer absent isNext⟩
  obtain ⟨wellFormed, cached, step⟩ := stepped
  refine ⟨⟨wellFormed, cached, fun h txEnv found => ?_⟩, step⟩
  rcases step.origin found with ⟨earlier, inPool, sameTx⟩ | ⟨-, isTx⟩
  · exact sameTx ▸ regular.tagged h earlier inPool
  · rw [isTx]
    exact tagged

theorem Step.goodHold (stable : Stable fact)
    (step : pool.Step ovm tx next confirmed) (holds : GoodHold fact pool) : GoodHold fact next := by
  cases step with
  | kept _ _ ledger flows lookup =>
    intro h txEnv found good
    rw [flows]
    exact stable.undone ledger (holds h txEnv (lookup h ▸ found) good)
  | judged txType _ absent judges =>
    have queued : GoodHold fact (pool.enqueue txType tx) := holds.add rfl absent
    exact judges.goodHold stable queued
  | confirmed _ _ _ _ _ _ _ _ _ _ settles => exact settles.goodHold stable

theorem getEnvelope_init {dag : Dag}
    (found : (init dag genesis).txLookup.getEnvelope h = some txEnv) :
    h = genesis.base.hash ∧ txEnv = ⟨genesis.txi, .genesis, .tip, 1⟩ := by
  replace found : (TxLookUp.empty.add ⟨genesis.txi, .genesis, .tip, 1⟩).getEnvelope h =
    some txEnv := found
  rw [getEnvelope_add] at found
  split at found
  next isHash =>
    cases found
    exact ⟨isHash, rfl⟩
  · cases found

theorem init_regular (dag : Dag) (tagged : genesis.txi.Tagged) : (init dag genesis).Regular where
  wellFormed := TxLookUp.WellFormed.empty.add _
  cached := rfl
  tagged h txEnv found := by
    obtain ⟨-, rfl⟩ := getEnvelope_init found
    exact tagged

theorem init_goodHold (stable : Stable fact) (dag : Dag)
    (genesis : Sequencer) : GoodHold fact (init dag genesis) := by
  intro h txEnv found _
  obtain ⟨-, rfl⟩ := getEnvelope_init found
  exact stable.sequencers genesis

end TxPool

end AnnchainOG
