import AnnchainOG.Pool.Authority

/-!
# Each transaction is confirmed once

A confirmed transaction leaves the pool, which refuses its nonce from then on. An archive has no
nonce and is admitted again.
-/

namespace AnnchainOG

open Dag List TxPool

def ConfirmBatch.hashes (batch : ConfirmBatch) : List Hash :=
  (batch.txs ++ [batch.seq.txi]).map Txi.getTxHash

namespace TxPool

/-- The tag of a sequencer is right, and what the ledger has is submitted again only as it is and if
no archive. -/
def OnceInput (pool : TxPool) (input : TxType × Txi) : Prop :=
  (input.2.getType = .sequencer ↔ ∃ issuer, input.2.body = .sequencer issuer) ∧
    ∀ stored, pool.dag.getTx input.2.getTxHash = some stored →
      input.2.getType ≠ .archive ∧ stored.Records input.2

/-! ## Resubmissions are refused -/

theorem parentsQuality_ne_bad {pool : TxPool} {parents : List Hash}
    (notBad : ∀ parentHash ∈ parents, pool.getStatus parentHash ≠ .badTx) :
    pool.parentsQuality parents ≠ .isBad := by
  induction parents with
  | nil => exact nofun
  | cons parentHash rest ih =>
    have later := ih fun other member => notBad other (mem_cons_of_mem _ member)
    rw [parentsQuality]
    split
    · rw [if_neg (notBad parentHash mem_cons_self)]
      exact later
    split
    · exact nofun
    · exact later

theorem isBadTx_known {pool : TxPool} {tx : Txi} {quality : TxQuality}
    (judged : pool.isBadTx tx = .ok quality) (notArchive : tx.getType ≠ .archive)
    (notBad : ∀ parentHash ∈ tx.parents, pool.getStatus parentHash ≠ .badTx)
    (listed : ∀ key other, tx.key = some key → pool.flows.getTxByNonce key.1 key.2 = some other →
      other.getTxHash = tx.getTxHash)
    (known : ∀ key, tx.key = some key → pool.dag.HasKey key) : quality = .isFatal := by
  unfold isBadTx at judged
  split at judged
  next isBad => exact absurd isBad (parentsQuality_ne_bad notBad)
  · cases judged
    rfl
  · rw [if_neg notArchive] at judged
    obtain ⟨sender, isSender, rest⟩ := bind_ok judged
    have isKey : tx.key = some (sender, tx.getNonce) :=
      Txi.key_eq_some_iff.mpr ⟨notArchive, isSender, rfl⟩
    have fatal : pool.nonceQuality sender tx = .isFatal := by
      unfold nonceQuality
      split
      next other found => rw [if_pos (listed _ other isKey found)]
      · exact if_pos (known _ isKey)
    rw [fatal] at rest
    cases rest
    rfl

/-! ## The invariant -/

/-- Whatever the ledger holds under a sender and nonce has the hash of what is listed there. -/
def OnlyHolder (dag : Dag) (addr : Address) (nonce : UInt64) (tx : Txi) : Prop :=
  dag.Indexed → ∀ h stored, dag.Holds h stored → stored.key = some (addr, nonce) →
    h = tx.getTxHash

theorem onlyHolder_stable : FlowStable OnlyHolder := by
  intro pool tx addr nonce good isKey indexed h stored holds storedKey
  obtain ⟨notArchive, isSender, rfl⟩ := Txi.key_eq_some_iff.mp isKey
  obtain ⟨sender, hasSender, goodNonce, -⟩ := isBadTx_good good notArchive
  rw [isSender] at hasSender
  cases hasSender
  have known := indexed.keys holds storedKey
  rw [Dag.HasKey, (nonceQuality_good goodNonce).2] at known
  cases known

/-- Pooled sequencers are in the ledger, other pooled transactions are not. -/
structure HashesOnce (start : Dag) (pool : TxPool) (hashes : List Hash) : Prop where
  regular : pool.Regular
  indexed : pool.dag.Indexed
  typed : ∀ h txEnv, pool.txLookup.getEnvelope h = some txEnv → txEnv.tx.getType = .sequencer →
    ∃ issuer, txEnv.tx.body = .sequencer issuer
  sequencers : ∀ h txEnv, pool.txLookup.getEnvelope h = some txEnv →
    txEnv.tx.getType = .sequencer → pool.dag.Knows h ∧ txEnv.status ≠ .badTx
  others : ∀ h txEnv, pool.txLookup.getEnvelope h = some txEnv →
    txEnv.tx.getType ≠ .sequencer → ¬ pool.dag.Knows h
  flows : FlowsHold OnlyHolder pool
  once : SeenOnce start.Knows pool.dag.Knows hashes

variable {ovm : Ovm} {start : Dag} {pool next : TxPool} {tx : Txi} {hashes : List Hash}

theorem HashesOnce.refuses {txType : TxType} {txEnv : TxEnvelope}
    (holds : HashesOnce start pool hashes) (allowed : pool.OnceInput (txType, tx))
    (absent : pool.txLookup.getEnvelope tx.getTxHash = none)
    (judges : (pool.enqueue txType tx).Judges tx next)
    (stays : next.txLookup.getEnvelope tx.getTxHash = some txEnv) :
    ¬ pool.dag.Knows tx.getTxHash := by
  intro knows
  obtain ⟨stored, found⟩ := knows.getTx
  obtain ⟨notArchive, records⟩ := allowed.2 stored found
  have held := holds_of_getTx found
  obtain ⟨quality, judged, notFatal⟩ := judges.stays txEnv stays
  refine notFatal (isBadTx_known judged notArchive ?_ ?_ ?_)
  · intro parentHash isParent
    have parentKnown : pool.dag.Knows parentHash :=
      holds.indexed.parents held (records.parents ▸ isParent)
    cases inQueue : (pool.enqueue txType tx).txLookup.getEnvelope parentHash with
    | none =>
      rw [getStatus, TxLookUp.status, inQueue]
      decide
    | some parentEnv =>
      rw [getStatus_eq inQueue]
      rcases getEnvelope_enqueue absent inQueue with before | ⟨-, rfl⟩
      · by_cases isSequencer : parentEnv.tx.getType = .sequencer
        · exact (holds.sequencers parentHash parentEnv before isSequencer).2
        · exact absurd parentKnown (holds.others parentHash parentEnv before isSequencer)
      · change TxStatus.queue ≠ .badTx
        decide
  · intro key other isKey listed
    exact (holds.flows key.1 key.2 other listed holds.indexed _ stored held
      (records.key.trans isKey)).symm
  · intro key isKey
    exact holds.indexed.keys held (records.key.trans isKey)

/-! ## A confirmation -/

section Confirmation

variable {txType : TxType} {batch : ConfirmBatch} {elders txs : List Txi} {statedb last : StateDB}
variable {dag : Dag} {h : Hash}

theorem HashesOnce.batch_unknown (holds : HashesOnce start pool hashes)
    (allowed : pool.OnceInput (txType, batch.seq.txi))
    (absent : pool.txLookup.getEnvelope batch.seq.txi.getTxHash = none)
    (accepted : (pool.enqueue txType batch.seq.txi).confirmHelper batch.seq = .ok batch) :
    batch.hashes.Nodup ∧ ∀ h ∈ batch.hashes, ¬ pool.dag.Knows h := by
  obtain ⟨seqFresh, -, elders, sought, verified⟩ := confirmHelper_ok accepted
  have tagged : batch.seq.txi.getType = .sequencer := allowed.1.mpr ⟨_, rfl⟩
  have pooled : ∀ tx ∈ batch.txs, ∃ txEnv, pool.txLookup.getEnvelope tx.getTxHash = some txEnv ∧
      txEnv.tx = tx ∧ tx.getType ≠ .sequencer :=
    fun tx member => batch_pooled holds.regular tagged absent sought verified member
  have isHashes : batch.hashes = batch.txs.map Txi.getTxHash ++ [batch.seq.txi.getTxHash] := by
    rw [ConfirmBatch.hashes, map_append, map_singleton]
  rw [isHashes]
  refine ⟨nodup_append'.mpr ⟨?_, nodup_singleton _, ?_⟩, ?_⟩
  · rw [verified.isTxs]
    exact (seekElders_sound sought).2.sublist (filter_sublist.map _)
  · intro h inTxs isSeq
    rw [mem_singleton.mp isSeq] at inTxs
    obtain ⟨tx, member, sameHash⟩ := mem_map.mp inTxs
    obtain ⟨txEnv, found, -⟩ := pooled tx member
    rw [sameHash, absent] at found
    cases found
  · intro h member
    rcases mem_append.mp member with inTxs | isSeq
    · obtain ⟨tx, inBatch, rfl⟩ := mem_map.mp inTxs
      obtain ⟨txEnv, found, rfl, notSequencer⟩ := pooled tx inBatch
      exact holds.others _ txEnv found notSequencer
    rw [mem_singleton.mp isSeq]
    intro knows
    obtain ⟨stored, held⟩ := knows.getTx
    obtain ⟨notArchive, records⟩ := allowed.2 stored held
    have known : pool.dag.HasKey (batch.seq.issuer, batch.seq.base.accountNonce) := by
      refine holds.indexed.keys (holds_of_getTx held) (records.key.trans ?_)
      exact Txi.key_eq_some_iff.mpr ⟨notArchive, rfl, rfl⟩
    have unused : pool.dag.getTxByNonce batch.seq.issuer batch.seq.base.accountNonce = none :=
      seqFresh
    rw [Dag.HasKey, unused] at known
    cases known

theorem pushed_records (executed : dag.execute ovm batch = .ok (.ok txs, statedb))
    {stored : Txi} (holds : (dag.pushed batch.seq txs last).Holds h stored) :
    dag.Holds h stored ∨
      ∃ tx ∈ batch.txs ++ [batch.seq.txi], stored.Records tx ∧ tx.getTxHash = h := by
  rcases pushed_holds holds with before | ⟨member, isHash⟩
  · exact .inl before
  refine .inr ?_
  rcases mem_append.mp member with inTxs | isSeq
  · obtain ⟨tx, inBatch, records⟩ := (execute_records executed).1 stored inTxs
    exact ⟨tx, mem_append_left _ inBatch, records, records.getTxHash ▸ isHash⟩
  · exact ⟨stored, mem_append_right _ isSeq, .refl stored, isHash⟩

theorem pushed_knows_iff (executed : dag.execute ovm batch = .ok (.ok txs, statedb)) :
    (dag.pushed batch.seq txs last).Knows h ↔ dag.Knows h ∨ h ∈ batch.hashes := by
  rw [pushed_knows]
  refine or_congr_right ⟨?_, ?_⟩
  · rintro ⟨stored, member, rfl⟩
    rcases mem_append.mp member with inTxs | isSeq
    · obtain ⟨tx, inBatch, records⟩ := (execute_records executed).1 stored inTxs
      exact mem_map.mpr ⟨tx, mem_append_left _ inBatch, records.getTxHash.symm⟩
    · exact mem_map.mpr ⟨stored, mem_append_right _ isSeq, rfl⟩
  · intro member
    obtain ⟨tx, inBatch, rfl⟩ := mem_map.mp member
    rcases mem_append.mp inBatch with inTxs | isSeq
    · obtain ⟨stored, inStored, records⟩ := (execute_records executed).2 tx inTxs
      exact ⟨stored, mem_append_left _ inStored, records.getTxHash⟩
    · exact ⟨tx, mem_append_right _ isSeq, rfl⟩

theorem batch_parents_known (regular : pool.Regular)
    (stored : ∀ {h stored}, pool.dag.Holds h stored → pool.dag.Knows h)
    (sequencers : ∀ h txEnv, pool.txLookup.getEnvelope h = some txEnv →
      txEnv.tx.getType = .sequencer → pool.dag.Knows h)
    (absent : pool.txLookup.getEnvelope batch.seq.txi.getTxHash = none)
    (accepted : (pool.enqueue txType batch.seq.txi).confirmHelper batch.seq = .ok batch)
    (executed : pool.dag.execute ovm batch = .ok (.ok txs, statedb))
    (member : tx ∈ batch.txs ++ [batch.seq.txi]) {parentHash : Hash}
    (isParent : parentHash ∈ tx.parents) :
    (pool.dag.pushed batch.seq txs last).Knows parentHash := by
  obtain ⟨-, -, elders, sought, verified⟩ := confirmHelper_ok accepted
  have grows : ∀ {h}, pool.dag.Knows h → (pool.dag.pushed batch.seq txs last).Knows h :=
    fun knows => (pushed_knows_iff executed).mpr (.inl knows)
  have confirmed : ∀ {h}, h ∈ batch.hashes → (pool.dag.pushed batch.seq txs last).Knows h :=
    fun member => (pushed_knows_iff executed).mpr (.inr member)
  have isTx : tx = batch.seq.txi ∨ tx ∈ elders := by
    rcases mem_append.mp member with inTxs | isSeq
    · rw [verified.isTxs] at inTxs
      exact .inr (mem_of_mem_filter inTxs)
    · exact .inl (mem_singleton.mp isSeq)
  rcases seekElders_closed (enqueue_hashes regular) sought isTx isParent with
    ⟨other, isElder, rfl⟩ | ⟨-, inDag⟩
  · by_cases isSequencer : other.getType = .sequencer
    · rcases elder_pooled regular absent sought isElder with ⟨txEnv, found, rfl⟩ | rfl
      · exact grows (sequencers _ txEnv found isSequencer)
      · exact confirmed (mem_map.mpr
          ⟨_, mem_append_right _ mem_cons_self, rfl⟩)
    · refine confirmed (mem_map.mpr ⟨other, mem_append_left _ ?_, rfl⟩)
      rw [verified.isTxs]
      exact mem_filter.mpr ⟨isElder, decide_eq_true isSequencer⟩
  · obtain ⟨held, found⟩ := Option.isSome_iff_exists.mp inDag
    exact grows (stored (holds_of_getTx found))

theorem HashesOnce.pushed_indexed (holds : HashesOnce start pool hashes)
    (absent : pool.txLookup.getEnvelope batch.seq.txi.getTxHash = none)
    (accepted : (pool.enqueue txType batch.seq.txi).confirmHelper batch.seq = .ok batch)
    (executed : pool.dag.execute ovm batch = .ok (.ok txs, statedb)) :
    (pool.dag.pushed batch.seq txs last).Indexed := by
  have grows : ∀ {h}, pool.dag.Knows h → (pool.dag.pushed batch.seq txs last).Knows h :=
    fun knows => (pushed_knows_iff executed).mpr (.inl knows)
  have confirmed : ∀ {h}, h ∈ batch.hashes → (pool.dag.pushed batch.seq txs last).Knows h :=
    fun member => (pushed_knows_iff executed).mpr (.inr member)
  refine ⟨fun {h stored} held => ?_, fun {h stored key} held isKey => ?_,
    fun {h stored parentHash} held isParent => ?_⟩
  · rcases pushed_records executed held with before | ⟨tx, member, -, isHash⟩
    · exact grows (holds.indexed.knows before)
    · exact confirmed (mem_map.mpr ⟨tx, member, isHash⟩)
  · refine pushed_keys executed ?_
    rcases pushed_records executed held with before | ⟨tx, member, records, -⟩
    · exact .inl (holds.indexed.keys before isKey)
    · exact .inr (mem_filterMap.mpr ⟨tx, member, records.key.symm.trans isKey⟩)
  · rcases pushed_records executed held with before | ⟨tx, member, records, -⟩
    · exact grows (holds.indexed.parents before isParent)
    · exact batch_parents_known holds.regular holds.indexed.knows
        (fun h txEnv found isSequencer => (holds.sequencers h txEnv found isSequencer).1) absent
        accepted executed member (records.parents ▸ isParent)

theorem HashesOnce.seq_onlyHolder (holds : HashesOnce start pool hashes)
    (accepted : (pool.enqueue txType batch.seq.txi).confirmHelper batch.seq = .ok batch)
    (executed : pool.dag.execute ovm batch = .ok (.ok txs, statedb)) :
    OnlyHolder (pool.dag.pushed batch.seq txs last) batch.seq.issuer batch.seq.base.accountNonce
      batch.seq.txi := by
  obtain ⟨seqFresh, -, elders, sought, verified⟩ := confirmHelper_ok accepted
  intro _ h stored held isKey
  rcases pushed_records executed held with before | ⟨tx, member, records, isHash⟩
  · have known := holds.indexed.keys before isKey
    have unused : pool.dag.getTxByNonce batch.seq.issuer batch.seq.base.accountNonce = none :=
      seqFresh
    rw [Dag.HasKey, unused] at known
    cases known
  · rcases mem_append.mp member with inTxs | isSeq
    · obtain ⟨notArchive, isSender, isNonce⟩ :=
        Txi.key_eq_some_iff.mp (records.key.symm.trans isKey)
      rw [verified.isTxs] at inTxs
      rcases verified.passes tx (mem_of_mem_filter inTxs) with archive | ⟨sender, hasSender, differs⟩
      · exact absurd archive notArchive
      rw [isSender] at hasSender
      cases hasSender
      exact absurd ⟨rfl, isNonce⟩ differs
    · rw [← mem_singleton.mp isSeq]
      exact isHash.symm

end Confirmation

/-! ## Runs -/

variable {txType : TxType} {batch : ConfirmBatch} {statedb : StateDB}

theorem HashesOnce.judged (holds : HashesOnce start pool hashes)
    (nextRegular : next.Regular) (allowed : pool.OnceInput (txType, tx))
    (notSequencer : ∀ issuer, tx.body ≠ .sequencer issuer)
    (absent : pool.txLookup.getEnvelope tx.getTxHash = none)
    (judges : (pool.enqueue txType tx).Judges tx next) : HashesOnce start next hashes := by
  have sameDag : next.dag = pool.dag := judges.dag
  have notTagged : tx.getType ≠ .sequencer := by
    intro isType
    obtain ⟨issuer, isBody⟩ := allowed.1.mp isType
    exact notSequencer issuer isBody
  have origin : ∀ h txEnv, next.txLookup.getEnvelope h = some txEnv → h ≠ tx.getTxHash →
      ∃ earlier, pool.txLookup.getEnvelope h = some earlier ∧ earlier.tx = txEnv.tx ∧
        earlier.status.Becomes txEnv.status := by
    intro h txEnv found different
    obtain ⟨earlier, inQueue, sameTx, becomes⟩ := judges.others h txEnv different found
    rcases getEnvelope_enqueue absent inQueue with before | ⟨isHash, -⟩
    · exact ⟨earlier, before, sameTx, becomes⟩
    · exact absurd isHash different
  have own : ∀ h txEnv, next.txLookup.getEnvelope h = some txEnv →
      txEnv.tx.getType = .sequencer → h ≠ tx.getTxHash := by
    rintro h txEnv found isSequencer rfl
    rw [(judges.own txEnv found).1] at isSequencer
    exact notTagged isSequencer
  refine ⟨nextRegular, ?_, ?_, ?_, ?_, judges.flowsHold onlyHolder_stable holds.flows, ?_⟩
  · rw [sameDag]
    exact holds.indexed
  · intro h txEnv found isSequencer
    obtain ⟨earlier, before, sameTx, -⟩ := origin h txEnv found (own h txEnv found isSequencer)
    rw [← sameTx] at isSequencer ⊢
    exact holds.typed h earlier before isSequencer
  · intro h txEnv found isSequencer
    obtain ⟨earlier, before, sameTx, becomes⟩ :=
      origin h txEnv found (own h txEnv found isSequencer)
    obtain ⟨knows, notBad⟩ := holds.sequencers h earlier before (sameTx ▸ isSequencer)
    rw [sameDag]
    exact ⟨knows, fun isBad => notBad (becomes.bad isBad)⟩
  · intro h txEnv found notSeq
    rw [sameDag]
    by_cases isOwn : h = tx.getTxHash
    · subst isOwn
      exact holds.refuses allowed absent judges found
    · obtain ⟨earlier, before, sameTx, -⟩ := origin h txEnv found isOwn
      exact holds.others h earlier before (sameTx ▸ notSeq)
  · rw [sameDag]
    exact holds.once

theorem confirmed_origin {dag : Dag} {cached : Option CachedConfirm}
    (absent : pool.txLookup.getEnvelope batch.seq.txi.getTxHash = none)
    (settles : { pool.enqueue txType batch.seq.txi with cached, dag }.Settles batch next)
    {h : Hash} {txEnv : TxEnvelope} (found : next.txLookup.getEnvelope h = some txEnv) :
    (∃ earlier, pool.txLookup.getEnvelope h = some earlier ∧ earlier.tx = txEnv.tx ∧
      h ∉ batch.hashes) ∨ h = batch.seq.txi.getTxHash ∧ txEnv.tx = batch.seq.txi := by
  obtain ⟨⟨earlier, inQueue, sameTx⟩, notBatch⟩ := settles.origin h txEnv found
  rcases getEnvelope_enqueue absent inQueue with before | ⟨isHash, rfl⟩
  · refine .inl ⟨earlier, before, sameTx, fun member => ?_⟩
    obtain ⟨tx, inBatch, isHash⟩ := mem_map.mp member
    rcases mem_append.mp inBatch with inTxs | isSeq
    · exact notBatch tx inTxs isHash
    · rw [← isHash, mem_singleton.mp isSeq, absent] at before
      cases before
  · exact .inr ⟨isHash, sameTx.symm⟩

theorem HashesOnce.kept (holds : HashesOnce start pool hashes) (nextRegular : next.Regular)
    (isDag : next.dag = { pool.dag with statedb := statedb })
    (flows : next.flows = pool.flows)
    (lookup : ∀ h, next.txLookup.getEnvelope h = pool.txLookup.getEnvelope h) :
    HashesOnce start next hashes := by
  have sameKnows : next.dag.Knows = pool.dag.Knows := by rw [isDag]; rfl
  have sameHolder : ∀ addr nonce tx, OnlyHolder pool.dag addr nonce tx →
      OnlyHolder next.dag addr nonce tx := by
    intro addr nonce tx only indexed
    rw [isDag] at indexed ⊢
    exact only ⟨indexed.knows, indexed.keys, indexed.parents⟩
  refine ⟨nextRegular, ?_, fun h txEnv found => holds.typed h txEnv (lookup h ▸ found),
    fun h txEnv found => ?_, fun h txEnv found => ?_, fun addr nonce tx listed => ?_, ?_⟩
  · rw [isDag]
    exact ⟨holds.indexed.knows, holds.indexed.keys, holds.indexed.parents⟩
  · rw [sameKnows]
    exact holds.sequencers h txEnv (lookup h ▸ found)
  · rw [sameKnows]
    exact holds.others h txEnv (lookup h ▸ found)
  · exact sameHolder addr nonce tx (holds.flows addr nonce tx (flows ▸ listed))
  · rw [sameKnows]
    exact holds.once

theorem HashesOnce.confirmed {txs : List Txi}
    {last : StateDB} (holds : HashesOnce start pool hashes) (nextRegular : next.Regular)
    (allowed : pool.OnceInput (txType, batch.seq.txi))
    (absent : pool.txLookup.getEnvelope batch.seq.txi.getTxHash = none)
    (accepted : (pool.enqueue txType batch.seq.txi).confirmHelper batch.seq = .ok batch)
    (executed : pool.dag.execute ovm batch = .ok (.ok txs, statedb))
    (settles : { pool.enqueue txType batch.seq.txi with
      cached := none, dag := pool.dag.pushed batch.seq txs last }.Settles batch next) :
    HashesOnce start next (hashes ++ batch.hashes) := by
  obtain ⟨distinct, unknown⟩ := holds.batch_unknown allowed absent accepted
  have isDag : next.dag = pool.dag.pushed batch.seq txs last := settles.dag
  have knows : ∀ {h}, next.dag.Knows h ↔ pool.dag.Knows h ∨ h ∈ batch.hashes := by
    rw [isDag]
    exact pushed_knows_iff executed
  have seqKnown : next.dag.Knows batch.seq.txi.getTxHash :=
    knows.mpr (.inr (mem_map.mpr ⟨_, mem_append_right _ mem_cons_self, rfl⟩))
  refine ⟨nextRegular, ?_, fun h txEnv found isSequencer => ?_,
    fun h txEnv found isSequencer => ?_, fun h txEnv found notSequencer => ?_, ?_,
    holds.once.append distinct unknown fun h => knows.mpr⟩
  · rw [isDag]
    exact holds.pushed_indexed absent accepted executed
  · rcases confirmed_origin absent settles found with ⟨earlier, before, sameTx, -⟩ | ⟨-, isTx⟩
    · rw [← sameTx] at isSequencer ⊢
      exact holds.typed h earlier before isSequencer
    · exact ⟨_, by rw [isTx]; rfl⟩
  · refine ⟨?_, settles.sequencers h txEnv found isSequencer⟩
    rcases confirmed_origin absent settles found with ⟨earlier, before, sameTx, -⟩ | ⟨rfl, -⟩
    · exact knows.mpr (.inl (holds.sequencers h earlier before (sameTx ▸ isSequencer)).1)
    · exact seqKnown
  · rcases confirmed_origin absent settles found with ⟨earlier, before, sameTx, notBatch⟩ | ⟨-, isTx⟩
    · intro known
      rcases knows.mp known with wasKnown | inBatch
      · exact holds.others h earlier before (sameTx ▸ notSequencer) wasKnown
      · exact notBatch inBatch
    · rw [isTx] at notSequencer
      exact absurd (allowed.1.mpr ⟨_, rfl⟩) notSequencer
  · exact settles.flowsHold onlyHolder_stable (holds.seq_onlyHolder accepted executed)

theorem HashesOnce.step {input : TxType × Txi} {confirmed : List ConfirmBatch}
    (holds : HashesOnce start pool hashes) (allowed : pool.OnceInput input)
    (submits : pool.Submits ovm input next confirmed) :
    HashesOnce start next (hashes ++ confirmed.flatMap ConfirmBatch.hashes) := by
  obtain ⟨nextRegular, step⟩ := submits.step holds.regular
    fun issuer isBody => allowed.1.mpr ⟨issuer, isBody⟩
  cases step with
  | kept statedb isDag ledger flows lookup =>
    rw [flatMap_nil, append_nil]
    exact holds.kept nextRegular isDag flows lookup
  | judged txType notSequencer absent judges =>
    rw [flatMap_nil, append_nil]
    have allowedTx : pool.OnceInput (txType, input.2) := allowed
    exact holds.judged nextRegular allowedTx notSequencer absent judges
  | confirmed txType batch txs statedb last isSeq absent accepted executed processed settles =>
    rw [← isSeq] at absent accepted settles
    have allowedSeq : pool.OnceInput (txType, batch.seq.txi) := by
      rw [isSeq]
      exact allowed
    rw [flatMap_singleton]
    exact holds.confirmed nextRegular allowedSeq absent accepted executed settles

theorem HashesOnce.init {dag : Dag} {genesis : Sequencer} (tagged : genesis.base.type = .sequencer)
    (indexed : dag.Indexed) (known : dag.Knows genesis.base.hash) :
    HashesOnce dag (TxPool.init dag genesis) [] := by
  refine ⟨init_regular dag fun _ _ => tagged, indexed, ?_, ?_, ?_, fun _ _ _ listed => ?_, .start _⟩
  · intro h txEnv found _
    obtain ⟨-, rfl⟩ := getEnvelope_init found
    exact ⟨_, rfl⟩
  · intro h txEnv found _
    obtain ⟨rfl, rfl⟩ := getEnvelope_init found
    exact ⟨known, nofun⟩
  · intro h txEnv found notSequencer
    obtain ⟨-, rfl⟩ := getEnvelope_init found
    exact absurd tagged notSequencer
  · cases listed

end TxPool

/-- In runs in which archives of the ledger are not submitted again, no hash is confirmed twice. -/
theorem confirmed_hashes_once (ovm : Ovm) (dag : Dag) (genesis : Sequencer)
    (tagged : genesis.base.type = .sequencer) (indexed : dag.Indexed)
    (known : dag.Knows genesis.base.hash) (pool : TxPool) (batches : List ConfirmBatch)
    (run : Run (TxPool.Submits ovm) TxPool.OnceInput (.init dag genesis) pool batches) :
    (batches.flatMap ConfirmBatch.hashes).Nodup ∧
      ∀ h ∈ batches.flatMap ConfirmBatch.hashes, ¬ dag.Knows h := by
  have holds : TxPool.HashesOnce dag pool (batches.flatMap ConfirmBatch.hashes) := by
    refine Run.invariant (motive := fun state outputs =>
      TxPool.HashesOnce dag state (outputs.flatMap ConfirmBatch.hashes))
      (.init tagged indexed known) ?_ run
    intro state after outputs new input earlier allowed submits
    rw [flatMap_append]
    exact earlier.step allowed submits
  exact ⟨holds.once.distinct, holds.once.new⟩

def Dag.opened : Dag :=
  { Dag.empty with db := Database.write ⟨∅, ∅⟩ Dag.empty.latestSequencer.txi.puts }

theorem Dag.opened_holds {h : Hash} {stored : Txi} (holds : Dag.opened.Holds h stored) :
    h = 100 ∧ stored = Dag.empty.latestSequencer.txi := by
  rcases holds with inCache | inStore
  · cases inCache
  rw [opened, Database.readTransaction_puts] at inStore
  split at inStore
  next isHash =>
    cases inStore
    exact ⟨isHash, rfl⟩
  · cases inStore

theorem Dag.opened_indexed : Dag.opened.Indexed where
  knows holds := by
    obtain ⟨rfl, -⟩ := opened_holds holds
    rfl
  keys holds isKey := by
    obtain ⟨-, rfl⟩ := opened_holds holds
    cases isKey
    rfl
  parents holds isParent := by
    obtain ⟨-, rfl⟩ := opened_holds holds
    cases isParent

def archiving : Txi := ⟨⟨.archive, 1, [100], 0, 0, 0⟩, .archive⟩

def TxPool.opened : TxPool := .init .opened Dag.empty.latestSequencer

theorem confirmed_hashes_once_archive :
    ∃ pool batch, Run (TxPool.Submits .idle) TxPool.OnceInput .opened pool [batch] ∧
      batch.hashes = [1, 101] ∧ ([batch].flatMap ConfirmBatch.hashes).Nodup := by
  have opened : Run (TxPool.Submits .idle) TxPool.OnceInput .opened .opened [] := .start
  have newArchive : Dag.opened.getTx 1 = none := rfl
  have newSequencer : (TxPool.opened.after archiving).dag.getTx 101 = none := rfl
  have admitted := run_after archiving opened
    ⟨⟨nofun, nofun⟩, fun _ found => nomatch newArchive.symm.trans found⟩ rfl
  have run : Run (TxPool.Submits .idle) TxPool.OnceInput .opened _
      [⟨.confirming [1], [archiving]⟩] :=
    run_after (Sequencer.confirming [1]).txi admitted
      ⟨⟨fun _ => ⟨_, rfl⟩, fun _ => rfl⟩,
        fun _ found => nomatch newSequencer.symm.trans found⟩ rfl
  exact ⟨_, _, run, rfl, (confirmed_hashes_once .idle .opened Dag.empty.latestSequencer rfl
    opened_indexed (by rfl) _ _ run).1⟩

/-- An archive is confirmed, submitted again and confirmed by the next sequencer too. -/
theorem archive_confirmed_twice :
    ∃ pool first second, Run (TxPool.Submits .idle) (fun _ _ => True) .opened pool [first, second] ∧
      first.seq ≠ second.seq ∧ first.txs = [archiving] ∧ second.txs = [archiving] := by
  have opened : Run (TxPool.Submits .idle) (fun _ _ => True) .opened .opened [] := .start
  have admitted := run_after archiving opened trivial rfl
  have confirmed : Run (TxPool.Submits .idle) (fun _ _ => True) .opened _
      [⟨.confirming [1], [archiving]⟩] :=
    run_after (Sequencer.confirming [1]).txi admitted trivial rfl
  have again : Run (TxPool.Submits .idle) (fun _ _ => True) .opened _
      [⟨.confirming [1], [archiving]⟩] := run_after archiving confirmed trivial rfl
  have run : Run (TxPool.Submits .idle) (fun _ _ => True) .opened _
      [⟨.confirming [1], [archiving]⟩, ⟨.following [1], [archiving]⟩] :=
    run_after (Sequencer.following [1]).txi again trivial rfl
  exact ⟨_, _, _, run, by decide, rfl, rfl⟩

end AnnchainOG
