import AnnchainOG.Ledger.Nonces
import AnnchainOG.Pool.Once

/-!
# Nonces are confirmed without gaps

The nonce of the sequencer is checked against those of the batch only if its issuer has transactions
in it.
-/

namespace AnnchainOG

open List

namespace TxPool

variable {seq : Sequencer} {pool : TxPool}
variable {addr : Address} {batch next : BatchDetails} {elders : List Txi}

/-! ## The order of nonces -/

theorem checkNonceOrder_mem {first : UInt64} {rest : List UInt64}
    (sorted : (first :: rest).Pairwise (· ≤ ·))
    (checked : checkNonceOrder addr (first :: rest) = .ok ()) :
    first.toNat ≤ ((first :: rest).getLastD 0).toNat ∧ ∀ nonce, nonce ∈ first :: rest ↔
        first.toNat ≤ nonce.toNat ∧ nonce.toNat ≤ ((first :: rest).getLastD 0).toNat := by
  induction rest generalizing first with
  | nil =>
    refine ⟨le_refl _, fun nonce => ?_⟩
    rw [mem_singleton, ← UInt64.toNat_inj]
    show _ ↔ first.toNat ≤ nonce.toNat ∧ nonce.toNat ≤ first.toNat
    omega
  | cons second rest ih =>
    rw [checkNonceOrder] at checked
    split at checked
    · cases checked
    rename_i follows
    have isSecond : second = first + 1 := not_not.mp follows
    have ordered : first ≤ second := (pairwise_cons.mp sorted).1 second mem_cons_self
    have next : second.toNat = first.toNat + 1 := by
      have value : second.toNat = (first.toNat + 1) % 2 ^ 64 := by
        rw [isSecond, UInt64.toNat_add]
        rfl
      rw [UInt64.le_iff_toNat_le] at ordered
      omega
    obtain ⟨bound, members⟩ := ih (pairwise_cons.mp sorted).2 checked
    have isLast : (first :: second :: rest).getLastD 0 = (second :: rest).getLastD 0 := rfl
    rw [isLast]
    refine ⟨by omega, fun nonce => ?_⟩
    rw [mem_cons, members nonce, ← UInt64.toNat_inj]
    omega

/-- All from the next one of the ledger to one that the sequencer follows. -/
theorem verifyNonce_spec {nonces : List UInt64}
    (notEmpty : nonces ≠ []) (verified : pool.verifyNonce addr nonces seq = .ok ()) :
    ∃ last : UInt64, (pool.dag.getLatestNonce addr + 1).toNat ≤ last.toNat ∧
      (∀ nonce, nonce ∈ nonces ↔
        (pool.dag.getLatestNonce addr + 1).toNat ≤ nonce.toNat ∧ nonce.toNat ≤ last.toNat) ∧
      (seq.issuer = addr → seq.base.accountNonce = last + 1) := by
  have sorted : (nonces.insertionSort (· ≤ ·)).Pairwise (· ≤ ·) := pairwise_insertionSort _ nonces
  have sameMembers : ∀ nonce, nonce ∈ nonces.insertionSort (· ≤ ·) ↔ nonce ∈ nonces :=
    fun nonce => mem_insertionSort _
  unfold verifyNonce at verified
  cases isSorted : nonces.insertionSort (· ≤ ·) with
  | nil =>
    have same := (perm_insertionSort (· ≤ ·) nonces).length_eq
    rw [isSorted, length_nil] at same
    exact absurd (length_eq_zero_iff.mp same.symm) notEmpty
  | cons first rest =>
    simp only [isSorted] at verified
    split at verified
    · cases verified
    rename_i isFirst
    have isFirst : first = pool.dag.getLatestNonce addr + 1 := not_not.mp isFirst
    obtain ⟨⟨⟩, checked, rest⟩ := bind_ok verified
    rw [isSorted] at sorted
    obtain ⟨bound, members⟩ := checkNonceOrder_mem sorted checked
    rw [isFirst] at bound members
    refine ⟨_, bound, fun nonce => ?_, fun isIssuer => ?_⟩
    · rw [← sameMembers, isSorted, isFirst]
      exact members nonce
    · split at rest
      · cases rest
      next follows =>
        by_contra differs
        rw [isFirst] at follows
        exact follows ⟨isIssuer, differs⟩

/-! ## The nonces of a batch -/

def Tallies (txi : Txi) (addr : Address) (nonce : UInt64) : Prop :=
  (∀ issuer, txi.body ≠ .sequencer issuer) ∧ txi.key = some (addr, nonce)

def BatchDetails.nonces (batch : BatchDetails) (addr : Address) : List UInt64 :=
  ((batch.lookup addr).getD .empty).txList.keys

theorem mem_keys_put (list : TxList) (tx : Txi) (nonce : UInt64) :
    nonce ∈ (list.put tx).keys ↔ nonce ∈ list.keys ∨ nonce = tx.getNonce := by
  cases found : list.get tx.getNonce with
  | some other =>
    rw [TxList.put_of_some found]
    obtain ⟨member, isNonce⟩ := TxList.get_eq_some_iff.mp found
    refine ⟨.inl, fun isKey => ?_⟩
    rcases isKey with before | rfl
    · exact before
    · exact mem_map.mpr ⟨other, member, isNonce⟩
  | none =>
    rw [TxList.keys, TxList.put_of_none found, map_append, mem_append, map_singleton, mem_singleton]
    rfl

private theorem nonces_insert (batch : BatchDetails) (sender : Address) (detail : BatchDetail)
    (addr : Address) :
    BatchDetails.nonces (batch.insert sender detail) addr =
      if addr = sender then detail.txList.keys else BatchDetails.nonces batch addr := by
  unfold BatchDetails.nonces
  split
  next same =>
    rw [same, AList.lookup_insert]
    rfl
  next different => rw [AList.lookup_insert_ne different]

theorem collectElder_nonces {txi : Txi}
    (collected : collectElder seq batch txi = .ok next) (addr : Address) (nonce : UInt64) :
    nonce ∈ BatchDetails.nonces next addr ↔
      nonce ∈ BatchDetails.nonces batch addr ∨ Tallies txi addr nonce := by
  unfold collectElder at collected
  split at collected
  next archive =>
    cases collected
    have noKey : txi.key = none := if_pos archive
    simp [Tallies, noKey]
  next notArchive =>
    obtain ⟨sender, isSender, rest⟩ := bind_ok collected
    have isSender := lift_ok isSender
    have isKey : txi.key = some (addr, nonce) ↔ addr = sender ∧ nonce = txi.getNonce := by
      rw [Txi.key_eq_some_iff, isSender]
      simp [notArchive, eq_comm]
    have entered : ∀ detail : BatchDetail,
        detail.txList = (((batch.lookup sender).getD .empty).txList.put txi) →
        (∀ issuer, txi.body ≠ .sequencer issuer) →
        (nonce ∈ BatchDetails.nonces (batch.insert sender detail) addr ↔
          nonce ∈ BatchDetails.nonces batch addr ∨ Tallies txi addr nonce) := by
      intro detail isList notSequencer
      rw [nonces_insert, Tallies, isKey]
      split
      next same =>
        subst same
        rw [isList, mem_keys_put]
        simp [notSequencer, BatchDetails.nonces]
      next different => simp [different]
    split at rest
    · cases rest
    cases isBody : txi.body with
    | sequencer issuer =>
      simp only [isBody] at rest
      cases rest
      simp [Tallies, isBody]
    | tx tx =>
      simp only [isBody] at rest
      cases rest
      exact entered _ rfl (by simp [isBody])
    | _ =>
      simp only [isBody] at rest
      cases rest
      exact entered _ rfl (by simp [isBody])

theorem collectElders_nonces
    (collected : elders.foldlM (collectElder seq) batch = .ok next) (addr : Address)
    (nonce : UInt64) :
    nonce ∈ BatchDetails.nonces next addr ↔
      nonce ∈ BatchDetails.nonces batch addr ∨ ∃ elder ∈ elders, Tallies elder addr nonce := by
  induction elders generalizing batch with
  | nil =>
    cases collected
    simp
  | cons elder elders ih =>
    obtain ⟨between, first, later⟩ := bind_ok collected
    rw [ih later, collectElder_nonces first, exists_mem_cons_iff, or_assoc]

private theorem verifyDetails_nonces {entries : List (Sigma fun _ : Address => BatchDetail)}
    (verified : pool.verifyDetails seq entries = .ok ()) :
    ∀ entry ∈ entries, entry.2.txList.txflow ≠ [] →
      pool.verifyNonce entry.1 entry.2.txList.keys seq = .ok () := by
  induction entries with
  | nil => simp
  | cons first rest ih =>
    obtain ⟨⟨⟩, -, later⟩ := bind_ok verified
    intro entry member notEmpty
    rcases mem_cons.mp member with rfl | inRest
    · rw [if_pos notEmpty] at later
      obtain ⟨⟨⟩, checked, -⟩ := bind_ok later
      exact checked
    · refine ih ?_ entry inRest notEmpty
      split at later
      · obtain ⟨_, _, last⟩ := bind_ok later
        exact last
      · exact later

/-- None, or all from the next one of the ledger to one that the sequencer follows. -/
theorem confirmHelper_nonces {batch : ConfirmBatch} (sought : pool.seekElders seq.txi = .ok elders)
    (accepted : pool.confirmHelper seq = .ok batch) (addr : Address) :
    (∀ elder ∈ elders, ∀ nonce, ¬ Tallies elder addr nonce) ∨
      ∃ last : UInt64, (pool.dag.getLatestNonce addr + 1).toNat ≤ last.toNat ∧
        (∀ nonce, (∃ elder ∈ elders, Tallies elder addr nonce) ↔
          (pool.dag.getLatestNonce addr + 1).toNat ≤ nonce.toNat ∧ nonce.toNat ≤ last.toNat) ∧
        (seq.issuer = addr → seq.base.accountNonce = last + 1) := by
  obtain ⟨⟨⟩, -, rest⟩ := bind_ok accepted
  obtain ⟨found, isFound, verified⟩ := bind_ok rest
  rw [sought] at isFound
  cases isFound
  obtain ⟨details, collected, afterCollect⟩ := bind_ok verified
  obtain ⟨⟨⟩, checked, -⟩ := bind_ok afterCollect
  have tallied : ∀ nonce, nonce ∈ BatchDetails.nonces details addr ↔
      ∃ elder ∈ elders, Tallies elder addr nonce := by
    intro nonce
    rw [collectElders_nonces collected]
    simp [BatchDetails.nonces, BatchDetail.empty, TxList.empty, TxList.keys]
  cases isDetail : details.lookup addr with
  | none =>
    refine .inl fun elder member nonce tallies => ?_
    have isNonce := (tallied nonce).mpr ⟨elder, member, tallies⟩
    rw [BatchDetails.nonces, isDetail] at isNonce
    cases isNonce
  | some detail =>
    by_cases isEmpty : detail.txList.txflow = []
    · refine .inl fun elder member nonce tallies => ?_
      have isNonce := (tallied nonce).mpr ⟨elder, member, tallies⟩
      rw [BatchDetails.nonces, isDetail, Option.getD_some, TxList.keys, isEmpty] at isNonce
      cases isNonce
    · have inDetails := AList.mem_lookup_iff.mp isDetail
      have isKeys : BatchDetails.nonces details addr = detail.txList.keys := by
        rw [BatchDetails.nonces, isDetail, Option.getD_some]
      have notEmpty : detail.txList.keys ≠ [] := by
        rw [TxList.keys, ne_eq, map_eq_nil_iff]
        exact isEmpty
      obtain ⟨last, bound, members, follows⟩ :=
        verifyNonce_spec notEmpty (verifyDetails_nonces checked _ inDetails isEmpty)
      refine .inr ⟨last, bound, fun nonce => ?_, follows⟩
      rw [← tallied, isKeys]
      exact members nonce

/-! ## The nonces of a confirmation -/

end TxPool

/-- Tagged as a sequencer exactly if it is one, no contract call, and no zero nonce unless an
archive or a sequencer. -/
structure Txi.Plain (tx : Txi) : Prop where
  typed : tx.getType = .sequencer ↔ ∃ issuer, tx.body = .sequencer issuer
  noData : tx.noData = true
  positive : tx.getType ≠ .archive → tx.getType ≠ .sequencer → tx.getNonce ≠ 0

namespace TxPool

def HasElder (pool : TxPool) (roots : List Hash) (addr : Address) : Prop :=
  ∃ hash elder nonce, pool.Ancestor roots hash ∧ pool.get hash = some elder ∧
    Tallies elder addr nonce

/-- A plain transaction; a sequencer has an ancestor of its issuer in the pool, or the next nonce of
the ledger. -/
def ContinuousInput (pool : TxPool) (input : TxType × Txi) : Prop :=
  input.2.Plain ∧ ∀ issuer, input.2.body = .sequencer issuer → input.2.getNonce ≠ 0 ∧
    (pool.HasElder input.2.parents issuer ∨
      input.2.getNonce = pool.dag.getLatestNonce issuer + 1)

def PlainPool (pool : TxPool) : Prop :=
  ∀ h txEnv, pool.txLookup.getEnvelope h = some txEnv → txEnv.tx.Plain

theorem toNat_succ {nonce : UInt64} (noWrap : nonce + 1 ≠ 0) :
    (nonce + 1).toNat = nonce.toNat + 1 := by
  have small := nonce.toNat_lt
  have value : (nonce + 1).toNat = (nonce.toNat + 1) % 2 ^ 64 := by rfl
  have notZero : (nonce + 1).toNat ≠ 0 := fun isZero => noWrap (UInt64.toNat_inj.mp isZero)
  omega

section Confirmation

variable {ovm : Ovm} {pool : TxPool} {txType : TxType} {batch : ConfirmBatch}
  {elders txs : List Txi} {statedb last : StateDB}
variable {tx : Txi} {hash : Hash}

theorem get_enqueue {elder : Txi}
    (absent : pool.txLookup.getEnvelope tx.getTxHash = none) (pooled : pool.get hash = some elder) :
    (pool.enqueue txType tx).get hash = some elder := by
  obtain ⟨txEnv, found, rfl⟩ := Option.map_eq_some_iff.mp pooled
  refine Option.map_eq_some_iff.mpr ⟨txEnv, ?_, rfl⟩
  refine (TxLookUp.getEnvelope_add _ _ _).trans ?_
  rw [if_neg, found]
  rintro rfl
  rw [absent] at found
  cases found

theorem ancestor_of_pool {roots : List Hash}
    (absent : pool.txLookup.getEnvelope tx.getTxHash = none)
    (reached : pool.Ancestor roots hash) : (pool.enqueue txType tx).Ancestor roots hash := by
  induction reached with
  | root member => exact .root member
  | parent _ pooled member ih => exact .parent ih (get_enqueue absent pooled) member

theorem elder_plain (regular : pool.Regular) (plain : pool.PlainPool)
    (seqPlain : batch.seq.txi.Plain)
    (absent : pool.txLookup.getEnvelope batch.seq.txi.getTxHash = none)
    (sought : (pool.enqueue txType batch.seq.txi).seekElders batch.seq.txi = .ok elders) :
    ∀ elder ∈ elders, elder.Plain := by
  intro elder member
  rcases elder_pooled regular absent sought member with ⟨txEnv, found, rfl⟩ | rfl
  · exact plain _ txEnv found
  · exact seqPlain

theorem mem_batch_keys (seqPlain : batch.seq.txi.Plain)
    (eldersPlain : ∀ elder ∈ elders, elder.Plain)
    (isTxs : batch.txs = elders.filter fun txi => txi.getType ≠ .sequencer) (addr : Address)
    (nonce : UInt64) :
    (addr, nonce) ∈ batch.keys ↔ (∃ elder ∈ elders, Tallies elder addr nonce) ∨
      addr = batch.seq.issuer ∧ nonce = batch.seq.base.accountNonce := by
  rw [ConfirmBatch.keys_eq (seqPlain.typed.mpr ⟨_, rfl⟩), mem_append, mem_singleton,
    Prod.mk.injEq, isTxs]
  refine or_congr_left ⟨fun member => ?_, ?_⟩
  · obtain ⟨elder, inFilter, isKey⟩ := mem_filterMap.mp member
    obtain ⟨isElder, notSequencer⟩ := mem_filter.mp inFilter
    refine ⟨elder, isElder, fun issuer isBody => ?_, isKey⟩
    exact of_decide_eq_true notSequencer ((eldersPlain elder isElder).typed.mpr ⟨issuer, isBody⟩)
  · rintro ⟨elder, isElder, notSequencer, isKey⟩
    refine mem_filterMap.mpr ⟨elder, mem_filter.mpr ⟨isElder, decide_eq_true ?_⟩, isKey⟩
    intro isTagged
    obtain ⟨issuer, isBody⟩ := (eldersPlain elder isElder).typed.mp isTagged
    exact notSequencer issuer isBody

theorem batch_range (regular : pool.Regular) (plain : pool.PlainPool)
    (allowed : pool.ContinuousInput (txType, batch.seq.txi))
    (absent : pool.txLookup.getEnvelope batch.seq.txi.getTxHash = none)
    (accepted : (pool.enqueue txType batch.seq.txi).confirmHelper batch.seq = .ok batch)
    (addr : Address) :
    ∃ top : UInt64, (pool.dag.getLatestNonce addr).toNat ≤ top.toNat ∧
      ∀ nonce, (addr, nonce) ∈ batch.keys ↔
        (pool.dag.getLatestNonce addr).toNat < nonce.toNat ∧ nonce.toNat ≤ top.toNat := by
  obtain ⟨-, -, elders, sought, verified⟩ := confirmHelper_ok accepted
  obtain ⟨seqPlain, seqInput⟩ := allowed
  obtain ⟨seqPositive, seqNext⟩ := seqInput _ rfl
  have eldersPlain := elder_plain regular plain seqPlain absent sought
  have keys := mem_batch_keys seqPlain eldersPlain verified.isTxs addr
  have sameDag : (pool.enqueue txType batch.seq.txi).dag = pool.dag := rfl
  rcases confirmHelper_nonces sought accepted addr with none | ⟨last, bound, tallied, follows⟩
  · by_cases isIssuer : addr = batch.seq.issuer
    · -- The issuer has no other key: its sequencer takes the next nonce of the ledger.
      have isNext : batch.seq.base.accountNonce = pool.dag.getLatestNonce addr + 1 := by
        rcases seqNext with ⟨hash, elder, nonce, reached, pooled, tallies⟩ | isNext
        · exact absurd tallies (isIssuer ▸ none elder (seekElders_complete
            (enqueue_hashes regular) sought (ancestor_of_pool absent reached)
            (get_enqueue absent pooled)) nonce)
        · rw [isIssuer]
          exact isNext
      have value : batch.seq.base.accountNonce.toNat =
          (pool.dag.getLatestNonce addr).toNat + 1 := by
        rw [isNext]
        refine toNat_succ ?_
        rw [← isNext]
        exact seqPositive
      refine ⟨batch.seq.base.accountNonce, by omega, fun nonce => ?_⟩
      rw [keys nonce]
      constructor
      · rintro (⟨elder, member, tallies⟩ | ⟨-, rfl⟩)
        · exact absurd tallies (none elder member nonce)
        · omega
      · intro between
        exact .inr ⟨isIssuer, UInt64.toNat_inj.mp (by omega)⟩
    · refine ⟨pool.dag.getLatestNonce addr, le_refl _, fun nonce => ?_⟩
      rw [keys nonce]
      constructor
      · rintro (⟨elder, member, tallies⟩ | ⟨isIssuer', -⟩)
        · exact absurd tallies (none elder member nonce)
        · exact absurd isIssuer' isIssuer
      · intro between
        omega
  · rw [sameDag] at bound tallied
    have noWrap : pool.dag.getLatestNonce addr + 1 ≠ 0 := by
      intro wraps
      rw [wraps] at bound tallied
      obtain ⟨elder, member, notSequencer, isKey⟩ := (tallied 0).mpr ⟨le_refl _, bound⟩
      obtain ⟨notArchive, -, isZero⟩ := Txi.key_eq_some_iff.mp isKey
      refine (eldersPlain elder member).positive notArchive (fun isTagged => ?_) isZero
      obtain ⟨issuer, isBody⟩ := (eldersPlain elder member).typed.mp isTagged
      exact notSequencer issuer isBody
    rw [toNat_succ noWrap] at bound tallied
    by_cases isIssuer : addr = batch.seq.issuer
    · have isNext := follows isIssuer.symm
      have value : batch.seq.base.accountNonce.toNat = last.toNat + 1 := by
        rw [isNext]
        refine toNat_succ ?_
        rw [← isNext]
        exact seqPositive
      refine ⟨batch.seq.base.accountNonce, by omega, fun nonce => ?_⟩
      rw [keys nonce, tallied nonce, and_iff_right isIssuer, ← UInt64.toNat_inj]
      omega
    · refine ⟨last, by omega, fun nonce => ?_⟩
      simp only [keys nonce, tallied nonce, isIssuer, false_and, or_false]
      omega

theorem pushed_getLatestNonce (executed : pool.dag.execute ovm batch = .ok (.ok txs, statedb))
    (processed : processTransaction ovm pool.dag.latestSequencer.base.height statedb
      batch.seq.txi = .ok (.ok batch.seq.txi, last))
    (noData : ∀ tx ∈ batch.txs, tx.noData = true) (addr : Address) (bound : Nat) :
    ((pool.dag.pushed batch.seq txs last).getLatestNonce addr).toNat ≤ bound ↔
      (pool.dag.getLatestNonce addr).toNat ≤ bound ∧
        ∀ nonce, (addr, nonce) ∈ batch.keys → nonce.toNat ≤ bound := by
  have orderNoData : ∀ tx ∈ Dag.executionOrder batch, tx.noData = true := by
    intro tx member
    obtain ⟨original, inBatch, rfl⟩ := Dag.mem_executionOrder member
    exact noData original inBatch
  have orderKeys : ∀ key, key ∈ (Dag.executionOrder batch).filterMap Txi.key ↔
      key ∈ batch.txs.filterMap Txi.key := by
    intro key
    rw [Dag.executionOrder, filterMap_map]
    exact ((sortTxis_perm batch.txs).filterMap Txi.key).mem_iff
  have afterBatch := processAll_getNonce orderNoData executed addr bound
  have afterSeq := processTransaction_getNonce (show batch.seq.txi.noData = true from rfl)
    processed addr
  have atStart : pool.dag.statedb.snapshot.2.getNonce addr = pool.dag.getLatestNonce addr := by
    rw [Dag.getLatestNonce, StateDB.getNonce_eq, StateDB.getNonce_eq]
    rfl
  have isLatest : (pool.dag.pushed batch.seq txs last).getLatestNonce addr = last.getNonce addr :=
    last.getNonce_committed addr
  simp only [orderKeys, atStart] at afterBatch
  have seqNonce : ∀ nonce, batch.seq.txi.key = some (addr, nonce) →
      nonce = batch.seq.txi.getNonce :=
    fun nonce isKey => (Txi.key_eq_some_iff.mp isKey).2.2.symm
  rw [isLatest, afterSeq]
  simp only [ConfirmBatch.keys, filterMap_append, mem_append]
  split
  next isKey =>
    rw [Nat.max_le, afterBatch]
    constructor
    · rintro ⟨⟨before, inBatch⟩, ofSeq⟩
      refine ⟨before, fun nonce member => ?_⟩
      rcases member with inTxs | isSeq
      · exact inBatch nonce inTxs
      obtain ⟨tx, isTx, ownKey⟩ := mem_filterMap.mp isSeq
      rw [mem_singleton.mp isTx] at ownKey
      rw [seqNonce nonce ownKey]
      exact ofSeq
    · rintro ⟨before, all⟩
      exact ⟨⟨before, fun nonce member => all nonce (.inl member)⟩,
        all _ (.inr (mem_filterMap.mpr ⟨_, mem_cons_self, isKey⟩))⟩
  next otherKey =>
    rw [afterBatch]
    refine and_congr_right fun _ => forall_congr' fun nonce => ?_
    refine ⟨fun inBatch member => ?_, fun all member => all (.inl member)⟩
    rcases member with inTxs | isSeq
    · exact inBatch inTxs
    obtain ⟨tx, isTx, ownKey⟩ := mem_filterMap.mp isSeq
    rw [mem_singleton.mp isTx] at ownKey
    rw [seqNonce nonce ownKey] at ownKey
    exact absurd ownKey otherKey

end Confirmation

/-! ## Runs -/

/-- The keys confirmed so far are, for every account, all after its nonce at the start up to its
present one. -/
structure Continuous (start : Dag) (pool : TxPool) (keys : List (Address × UInt64)) : Prop where
  regular : pool.Regular
  plain : pool.PlainPool
  grown : ∀ addr, (start.getLatestNonce addr).toNat ≤ (pool.dag.getLatestNonce addr).toNat
  range : ∀ addr nonce, (addr, nonce) ∈ keys ↔
    (start.getLatestNonce addr).toNat < nonce.toNat ∧
      nonce.toNat ≤ (pool.dag.getLatestNonce addr).toNat

theorem pushed_range {ovm : Ovm} {pool : TxPool} {txType : TxType} {batch : ConfirmBatch}
    {txs : List Txi} {statedb last : StateDB} (regular : pool.Regular) (plain : pool.PlainPool)
    (allowed : pool.ContinuousInput (txType, batch.seq.txi))
    (absent : pool.txLookup.getEnvelope batch.seq.txi.getTxHash = none)
    (accepted : (pool.enqueue txType batch.seq.txi).confirmHelper batch.seq = .ok batch)
    (executed : pool.dag.execute ovm batch = .ok (.ok txs, statedb))
    (processed : processTransaction ovm pool.dag.latestSequencer.base.height statedb
      batch.seq.txi = .ok (.ok batch.seq.txi, last)) :
    (∀ addr, (pool.dag.getLatestNonce addr).toNat ≤
      ((pool.dag.pushed batch.seq txs last).getLatestNonce addr).toNat) ∧
    ∀ addr nonce, (addr, nonce) ∈ batch.keys ↔ (pool.dag.getLatestNonce addr).toNat < nonce.toNat ∧
        nonce.toNat ≤ ((pool.dag.pushed batch.seq txs last).getLatestNonce addr).toNat := by
  obtain ⟨-, -, elders, sought, verified⟩ := confirmHelper_ok accepted
  have noData : ∀ tx ∈ batch.txs, tx.noData = true := by
    intro tx member
    rw [verified.isTxs] at member
    exact (elder_plain regular plain allowed.1 absent sought tx
      (mem_of_mem_filter member)).noData
  have latest := pushed_getLatestNonce executed processed noData
  have grows := fun addr => ((latest addr _).mp (le_refl _)).1
  refine ⟨grows, fun addr => ?_⟩
  obtain ⟨top, bound, keys⟩ := batch_range regular plain allowed absent accepted addr
  have isTop : ((pool.dag.pushed batch.seq txs last).getLatestNonce addr).toNat = top.toNat := by
    refine le_antisymm ((latest addr _).mpr ⟨bound, fun nonce member =>
      ((keys nonce).mp member).2⟩) ?_
    rcases Nat.lt_or_ge (pool.dag.getLatestNonce addr).toNat top.toNat with above | same
    · exact ((latest addr _).mp (le_refl _)).2 top ((keys top).mpr ⟨above, le_refl _⟩)
    · exact same.trans (grows addr)
  rw [isTop]
  exact keys

theorem Continuous.step {ovm : Ovm} {start : Dag} {pool next : TxPool} {input : TxType × Txi}
    {keys : List (Address × UInt64)} {confirmed : List ConfirmBatch}
    (holds : Continuous start pool keys) (allowed : pool.ContinuousInput input)
    (submits : pool.Submits ovm input next confirmed) :
    Continuous start next (keys ++ confirmed.flatMap ConfirmBatch.keys) := by
  obtain ⟨nextRegular, step⟩ := submits.step holds.regular
    fun issuer isBody => allowed.1.typed.mpr ⟨issuer, isBody⟩
  have nextPlain : next.PlainPool := by
    intro h txEnv found
    rcases step.origin found with ⟨earlier, before, sameTx⟩ | ⟨-, isTx⟩
    · exact sameTx ▸ holds.plain h earlier before
    · rw [isTx]
      exact allowed.1
  cases step with
  | kept _ _ ledger _ _ =>
    rw [flatMap_nil, append_nil]
    refine ⟨nextRegular, nextPlain, fun addr => ?_, fun addr nonce => ?_⟩
    · rw [ledger.getLatestNonce]
      exact holds.grown addr
    · rw [ledger.getLatestNonce]
      exact holds.range addr nonce
  | judged txType notSequencer absent judges =>
    rw [flatMap_nil, append_nil]
    have sameDag : next.dag = pool.dag := judges.dag
    exact ⟨nextRegular, nextPlain, by rw [sameDag]; exact holds.grown,
      by rw [sameDag]; exact holds.range⟩
  | confirmed txType batch txs statedb last isSeq absent accepted executed processed settles =>
    rw [← isSeq] at absent accepted
    have allowedSeq : pool.ContinuousInput (txType, batch.seq.txi) := by
      rw [isSeq]
      exact allowed
    have isDag : next.dag = pool.dag.pushed batch.seq txs last := settles.dag
    obtain ⟨grows, batchRange⟩ := pushed_range holds.regular holds.plain allowedSeq absent accepted
      executed processed
    rw [← isDag] at grows batchRange
    rw [flatMap_singleton]
    refine ⟨nextRegular, nextPlain, fun addr => (holds.grown addr).trans (grows addr),
      fun addr nonce => ?_⟩
    have grown := holds.grown addr
    have more := grows addr
    rw [mem_append, holds.range, batchRange]
    omega

theorem Continuous.init (dag : Dag) {genesis : Sequencer}
    (tagged : genesis.base.type = .sequencer) : Continuous dag (TxPool.init dag genesis) [] := by
  refine ⟨init_regular dag fun _ _ => tagged, ?_, fun _ => le_refl _, fun addr nonce => ?_⟩
  · intro h txEnv found
    obtain ⟨-, rfl⟩ := getEnvelope_init found
    exact ⟨⟨fun _ => ⟨_, rfl⟩, fun _ => tagged⟩, rfl, fun _ notSequencer => absurd tagged notSequencer⟩
  · constructor
    · intro member
      cases member
    · rintro ⟨above, below⟩
      exact absurd (Nat.lt_of_lt_of_le above below) (Nat.lt_irrefl _)

end TxPool

/-- In runs of plain submissions in which sequencers without an ancestor of their issuer take its
next nonce, nonces are confirmed without a gap. -/
theorem confirmed_nonces_continuous (ovm : Ovm) (dag : Dag) (genesis : Sequencer)
    (tagged : genesis.base.type = .sequencer) (pool : TxPool) (batches : List ConfirmBatch)
    (run : Run (TxPool.Submits ovm) TxPool.ContinuousInput (.init dag genesis) pool batches)
    (addr : Address) (nonce : UInt64) :
    (addr, nonce) ∈ batches.flatMap ConfirmBatch.keys ↔
      dag.getLatestNonce addr < nonce ∧ nonce ≤ pool.dag.getLatestNonce addr := by
  have holds : TxPool.Continuous dag pool (batches.flatMap ConfirmBatch.keys) := by
    refine Run.invariant (motive := fun state outputs =>
      TxPool.Continuous dag state (outputs.flatMap ConfirmBatch.keys)) (.init dag tagged) ?_ run
    intro state after outputs new input earlier allowed submits
    rw [flatMap_append]
    exact earlier.step allowed submits
  rw [holds.range, UInt64.lt_iff_toNat_lt, UInt64.le_iff_toNat_le]

theorem confirmed_nonces_continuous_campaign :
    ∃ pool batches, Run (TxPool.Submits .idle) TxPool.ContinuousInput .genesis pool batches ∧
      (5, 1) ∈ batches.flatMap ConfirmBatch.keys ∧
      Dag.genesis.getLatestNonce 5 < 1 ∧ 1 ≤ pool.dag.getLatestNonce 5 := by
  have opened : Run (TxPool.Submits .idle) TxPool.ContinuousInput .genesis .genesis [] := .start
  have admitted := TxPool.run_after (campaigning 1) opened
    ⟨⟨⟨nofun, nofun⟩, rfl, by decide⟩, nofun⟩ rfl
  have run : Run (TxPool.Submits .idle) TxPool.ContinuousInput .genesis _
      [⟨.confirming [1], [campaigning 1]⟩] :=
    TxPool.run_after (Sequencer.confirming [1]).txi admitted
      ⟨⟨⟨fun _ => ⟨_, rfl⟩, fun _ => rfl⟩, rfl, by decide⟩,
        fun issuer isBody => ⟨by decide, .inr (by cases isBody; rfl)⟩⟩ rfl
  have isKey : (5, 1) ∈ [⟨.confirming [1], [campaigning 1]⟩].flatMap ConfirmBatch.keys := by decide
  exact ⟨_, _, run, isKey, (confirmed_nonces_continuous .idle .genesis _ rfl _ _ run 5 1).mp isKey⟩

def Sequencer.skipping : Sequencer := ⟨⟨.sequencer, 102, [101], 3, 2, 0⟩, 9⟩

/-- The second sequencer of an issuer without other transactions skips a nonce. -/
theorem sequencer_skips_nonce :
    ∃ pool batches, Run (TxPool.Submits .idle) (fun _ _ => True) .genesis pool batches ∧
      (9, 1) ∈ batches.flatMap ConfirmBatch.keys ∧ (9, 2) ∉ batches.flatMap ConfirmBatch.keys ∧
      (9, 3) ∈ batches.flatMap ConfirmBatch.keys ∧ pool.dag.getLatestNonce 9 = 3 := by
  have opened : Run (TxPool.Submits .idle) (fun _ _ => True) .genesis .genesis [] := .start
  have first : Run (TxPool.Submits .idle) (fun _ _ => True) .genesis _ [⟨.confirming [100], []⟩] :=
    TxPool.run_after (Sequencer.confirming [100]).txi opened trivial rfl
  have run : Run (TxPool.Submits .idle) (fun _ _ => True) .genesis _
      [⟨.confirming [100], []⟩, ⟨.skipping, []⟩] :=
    TxPool.run_after Sequencer.skipping.txi first trivial rfl
  exact ⟨_, _, run, by decide, by decide, by decide, rfl⟩

end AnnchainOG
