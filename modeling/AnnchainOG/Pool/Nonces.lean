import AnnchainOG.Pool.Executable
import AnnchainOG.Pool.Steps

/-!
# Each nonce of a sender is confirmed once

A bad transaction may share its nonce with another one, and is confirmed if a sequencer has it among
its ancestors.
-/

namespace AnnchainOG

open List TxPool

def ConfirmBatch.keys (batch : ConfirmBatch) : List (Address × UInt64) :=
  (batch.txs ++ [batch.seq.txi]).filterMap Txi.key

theorem ConfirmBatch.keys_eq {batch : ConfirmBatch}
    (isTagged : batch.seq.txi.getType = .sequencer) :
    batch.keys =
      batch.txs.filterMap Txi.key ++ [(batch.seq.issuer, batch.seq.base.accountNonce)] := by
  have seqKey : batch.seq.txi.key = some (batch.seq.issuer, batch.seq.base.accountNonce) := by
    refine Txi.key_eq_some_iff.mpr ⟨?_, rfl, rfl⟩
    rw [isTagged]
    decide
  rw [keys, filterMap_append, filterMap_cons_some seqKey, filterMap_nil]

namespace TxPool

variable {pool : TxPool} {txType : TxType} {tx : Txi} {batch : ConfirmBatch}
variable {ovm : Ovm}

/-! ## Batches without bad transactions -/

/-- Every transaction of the pool among the ancestors of a sequencer is a tip or pending. -/
def CleanInput (pool : TxPool) (input : TxType × Txi) : Prop :=
  input.2.Tagged ∧ ∀ issuer, input.2.body = .sequencer issuer →
    ∀ h txEnv, pool.Ancestor input.2.parents h → pool.txLookup.getEnvelope h = some txEnv →
      txEnv.status.isGood = true

theorem cleanInput_of_noSequencer
    (notSequencer : ∀ issuer, tx.body ≠ .sequencer issuer) : pool.CleanInput (txType, tx) :=
  ⟨fun issuer isBody => absurd isBody (notSequencer issuer),
    fun issuer isBody => absurd isBody (notSequencer issuer)⟩

theorem cleanInput_of_all_good (tagged : tx.Tagged)
    (allGood : pool.txLookup.txs.any (fun _ txEnv => !txEnv.status.isGood) = false) :
    pool.CleanInput (txType, tx) := by
  refine ⟨tagged, fun _ _ h txEnv _ found => ?_⟩
  simpa using GoMap.any_eq_false_iff.mp allGood h txEnv found

theorem ancestor_enqueue {h : Hash} (absent : pool.txLookup.getEnvelope tx.getTxHash = none)
    (reached : (pool.enqueue txType tx).Ancestor tx.parents h) : pool.Ancestor tx.parents h := by
  induction reached with
  | root member => exact .root member
  | parent _ pooled member ih =>
    obtain ⟨txEnv, found, rfl⟩ := Option.map_eq_some_iff.mp pooled
    rcases getEnvelope_enqueue absent found with before | ⟨-, rfl⟩
    · exact .parent ih (Option.map_eq_some_iff.mpr ⟨txEnv, before, rfl⟩) member
    · exact .root member

theorem batch_good (clean : pool.CleanInput (txType, batch.seq.txi))
    (absent : pool.txLookup.getEnvelope batch.seq.txi.getTxHash = none)
    (accepted : (pool.enqueue txType batch.seq.txi).confirmHelper batch.seq = .ok batch) :
    ∀ tx ∈ batch.txs, ∃ h txEnv, pool.txLookup.getEnvelope h = some txEnv ∧
      txEnv.status.isGood = true ∧ txEnv.tx = tx := by
  intro tx member
  obtain ⟨-, -, elders, sought, verified⟩ := confirmHelper_ok accepted
  rw [verified.isTxs] at member
  obtain ⟨isElder, notSequencer⟩ := mem_filter.mp member
  obtain ⟨h, reached, pooled⟩ := (seekElders_sound sought).1 tx isElder
  obtain ⟨txEnv, found, rfl⟩ := Option.map_eq_some_iff.mp pooled
  rcases getEnvelope_enqueue absent found with before | ⟨-, rfl⟩
  · exact ⟨h, txEnv, before, clean.2 _ rfl h txEnv (ancestor_enqueue absent reached) before, rfl⟩
  · exact absurd (clean.1 _ rfl) (of_decide_eq_true notSequencer)

/-! ## Good transactions have fresh keys -/

/-- Listed under its sender and nonce, which the ledger does not know; sequencers aside. -/
def Fresh (dag : Dag) (flows : AccountFlows) (tx : Txi) : Prop :=
  (∀ issuer, tx.body ≠ .sequencer issuer) → ∀ addr nonce, tx.key = some (addr, nonce) →
    flows.getTxByNonce addr nonce = some tx ∧ dag.getTxByNonce addr nonce = none

theorem fresh_stable : Stable Fresh where
  established := by
    intro pool tx flows admits _ addr nonce isKey
    obtain ⟨notArchive, isSender, rfl⟩ := Txi.key_eq_some_iff.mp isKey
    refine ⟨admits.listed notArchive isSender, ?_⟩
    obtain ⟨judge, isJudge, goodNonce, -⟩ := isBadTx_good admits.1 notArchive
    rw [isSender] at isJudge
    cases isJudge
    exact (nonceQuality_good goodNonce).2
  undone := by
    intro dag after flows tx same fresh notSequencer addr nonce isKey
    obtain ⟨listed, unused⟩ := fresh notSequencer addr nonce isKey
    exact ⟨listed, (same.getTxByNonce addr nonce).trans unused⟩
  kept := by
    intro dag flows next sender tx other entered fresh notSequencer addr nonce isKey
    obtain ⟨listed, unused⟩ := fresh notSequencer addr nonce isKey
    rw [← getTxByNonce_ensureFlow flows sender] at listed
    exact ⟨flows_add_get entered listed, unused⟩
  sequencers := fun seq notSequencer => absurd rfl (notSequencer seq.issuer)

theorem batch_keys (regular : pool.Regular) (fresh : GoodHold Fresh pool)
    (clean : pool.CleanInput (txType, batch.seq.txi))
    (absent : pool.txLookup.getEnvelope batch.seq.txi.getTxHash = none)
    (accepted : (pool.enqueue txType batch.seq.txi).confirmHelper batch.seq = .ok batch) :
    batch.keys.Nodup ∧
      ∀ addr nonce, (addr, nonce) ∈ batch.keys → pool.dag.getTxByNonce addr nonce = none := by
  obtain ⟨seqFresh, -, elders, sought, verified⟩ := confirmHelper_ok accepted
  have listed : ∀ tx ∈ batch.txs, ∀ addr nonce, tx.key = some (addr, nonce) →
      pool.flows.getTxByNonce addr nonce = some tx ∧ pool.dag.getTxByNonce addr nonce = none := by
    intro tx member
    obtain ⟨h, txEnv, found, good, rfl⟩ := batch_good clean absent accepted tx member
    refine fresh h txEnv found good fun issuer isBody => ?_
    rw [verified.isTxs] at member
    exact of_decide_eq_true (mem_filter.mp member).2 (regular.tagged h txEnv found issuer isBody)
  have distinct : batch.txs.Nodup := by
    rw [verified.isTxs]
    exact (seekElders_sound sought).2.of_map.filter _
  rw [ConfirmBatch.keys_eq (clean.1 _ rfl)]
  refine ⟨nodup_append'.mpr ⟨?_, nodup_singleton _, ?_⟩, ?_⟩
  · -- Two transactions with one key are both the one listed under it.
    refine pairwise_filterMap.mpr (distinct.imp_of_mem ?_)
    rintro left right inLeft inRight different ⟨addr, nonce⟩ leftKey other rightKey rfl
    have leftListed := (listed left inLeft addr nonce leftKey).1
    have rightListed := (listed right inRight addr nonce rightKey).1
    exact different (Option.some.inj (leftListed.symm.trans rightListed))
  · intro key inTxs inSeq
    rw [mem_singleton.mp inSeq] at inTxs
    obtain ⟨tx, member, isKey⟩ := mem_filterMap.mp inTxs
    obtain ⟨notArchive, isSender, isNonce⟩ := Txi.key_eq_some_iff.mp isKey
    rw [verified.isTxs] at member
    rcases verified.passes tx (mem_of_mem_filter member) with archive | ⟨sender, hasSender, differs⟩
    · exact notArchive archive
    rw [isSender] at hasSender
    cases hasSender
    exact differs ⟨rfl, isNonce⟩
  · intro addr nonce member
    rcases mem_append.mp member with inTxs | inSeq
    · obtain ⟨tx, inBatch, isKey⟩ := mem_filterMap.mp inTxs
      exact (listed tx inBatch addr nonce isKey).2
    · cases mem_singleton.mp inSeq
      exact seqFresh

/-! ## Runs -/

/-- The keys confirmed so far were each confirmed once, and were new to the ledger the run started
with. -/
structure KeysOnce (start : Dag) (pool : TxPool) (keys : List (Address × UInt64)) : Prop where
  regular : pool.Regular
  fresh : GoodHold Fresh pool
  once : SeenOnce start.HasKey pool.dag.HasKey keys

theorem pushed_keys {dag : Dag} {txs : List Txi}
    {statedb last : StateDB} (executed : dag.execute ovm batch = .ok (.ok txs, statedb))
    {key : Address × UInt64} (known : dag.HasKey key ∨ key ∈ batch.keys) :
    (dag.pushed batch.seq txs last).HasKey key := by
  refine Dag.pushed_getTxByNonce ?_
  rcases known with before | isKey
  · exact .inl before
  obtain ⟨tx, member, isKey⟩ := mem_filterMap.mp isKey
  rcases mem_append.mp member with inTxs | isSeq
  · obtain ⟨stored, inStored, records⟩ := (Dag.execute_records executed).2 tx inTxs
    exact .inr ⟨stored, mem_append_left _ inStored, records.key.trans isKey⟩
  · exact .inr ⟨tx, mem_append_right _ isSeq, isKey⟩

theorem KeysOnce.step {start : Dag} {next : TxPool} {input : TxType × Txi}
    {keys : List (Address × UInt64)} {confirmed : List ConfirmBatch}
    (holds : KeysOnce start pool keys) (clean : pool.CleanInput input)
    (submits : pool.Submits ovm input next confirmed) :
    KeysOnce start next (keys ++ confirmed.flatMap ConfirmBatch.keys) := by
  obtain ⟨nextRegular, step⟩ := submits.step holds.regular clean.1
  have nextFresh := step.goodHold fresh_stable holds.fresh
  cases step with
  | kept _ _ ledger _ _ =>
    rw [flatMap_nil, append_nil]
    refine ⟨nextRegular, nextFresh, holds.once.mono fun key known => ?_⟩
    rw [Dag.HasKey, ledger.getTxByNonce]
    exact known
  | judged txType notSequencer absent judges =>
    rw [flatMap_nil, append_nil]
    refine ⟨nextRegular, nextFresh, ?_⟩
    rw [judges.dag]
    exact holds.once
  | confirmed txType batch txs statedb last isSeq absent accepted executed processed settles =>
    rw [← isSeq] at absent accepted
    have cleanSeq : pool.CleanInput (txType, batch.seq.txi) := by
      rw [isSeq]
      exact clean
    obtain ⟨distinct, unused⟩ := batch_keys holds.regular holds.fresh cleanSeq absent accepted
    rw [flatMap_singleton]
    refine ⟨nextRegular, nextFresh, holds.once.append distinct (fun key member => ?_) ?_⟩
    · rw [Dag.HasKey, unused key.1 key.2 member]
      decide
    · intro key known
      rw [settles.dag]
      exact pushed_keys executed known

theorem KeysOnce.init (dag : Dag) {genesis : Sequencer} (tagged : genesis.txi.Tagged) :
    KeysOnce dag (TxPool.init dag genesis) [] where
  regular := init_regular dag tagged
  fresh := init_goodHold fresh_stable dag genesis
  once := .start _

end TxPool

/-- In runs in which no sequencer has a bad ancestor, a sender and nonce are confirmed at most
once. -/
theorem confirmed_keys_once (ovm : Ovm) (dag : Dag) (genesis : Sequencer)
    (tagged : genesis.txi.Tagged) (pool : TxPool) (batches : List ConfirmBatch)
    (run : Run (TxPool.Submits ovm) TxPool.CleanInput (.init dag genesis) pool batches) :
    (batches.flatMap ConfirmBatch.keys).Nodup ∧
      ∀ addr nonce, (addr, nonce) ∈ batches.flatMap ConfirmBatch.keys →
        dag.getTxByNonce addr nonce = none := by
  have once : TxPool.KeysOnce dag pool (batches.flatMap ConfirmBatch.keys) := by
    refine Run.invariant (motive := fun state outputs =>
      TxPool.KeysOnce dag state (outputs.flatMap ConfirmBatch.keys)) (.init dag tagged) ?_ run
    intro state after outputs new input holds clean submits
    rw [flatMap_append]
    exact holds.step clean submits
  exact ⟨once.once.distinct, fun addr nonce member =>
    Option.not_isSome_iff_eq_none.mp (once.once.new (addr, nonce) member)⟩

def campaigning (hash : Hash) : Txi := ⟨⟨.campaign, hash, [100], 1, 0, 0⟩, .campaign 5⟩

theorem confirmed_keys_once_campaign :
    ∃ pool batch, Run (TxPool.Submits .idle) TxPool.CleanInput .genesis pool [batch] ∧
      batch.keys = [(5, 1), (9, 1)] ∧ ([batch].flatMap ConfirmBatch.keys).Nodup := by
  let batch : ConfirmBatch := ⟨.confirming [1], [campaigning 1]⟩
  have opened : Run (TxPool.Submits .idle) TxPool.CleanInput .genesis .genesis [] := .start
  have admitted := run_after (campaigning 1) opened
    (cleanInput_of_noSequencer nofun) rfl
  have run : Run (TxPool.Submits .idle) TxPool.CleanInput .genesis _ [batch] :=
    run_after (Sequencer.confirming [1]).txi admitted
      (cleanInput_of_all_good (fun _ _ => rfl) rfl) rfl
  exact ⟨_, batch, run, rfl, (confirmed_keys_once .idle _ _ (fun _ _ => rfl) _ _ run).1⟩

/-- Two campaigns with one nonce: the second is bad, and both are confirmed. -/
theorem duplicate_nonce_confirmed :
    ∃ pool batch, Run (TxPool.Submits .idle) (fun _ _ => True) .genesis pool [batch] ∧
      batch.txs = [campaigning 1, campaigning 2] ∧ ¬ batch.keys.Nodup := by
  have opened : Run (TxPool.Submits .idle) (fun _ _ => True) .genesis .genesis [] := .start
  have first := run_after (campaigning 1) opened trivial rfl
  have second := run_after (campaigning 2) first trivial rfl
  have run := run_after (Sequencer.confirming [1, 2]).txi second trivial rfl
  exact ⟨_, ⟨.confirming [1, 2], [campaigning 1, campaigning 2]⟩, run, rfl, by decide⟩

end AnnchainOG
