import AnnchainOG.Pool.Structure

/-!
# Heights of confirmed transactions

An archive that is confirmed again is stored with the later height, while the earlier one still
lists it.
-/

namespace AnnchainOG

open List

structure HeightIndex where
  txHashs : GoMap UInt64 (List Hash)
  sequencers : GoMap UInt64 Sequencer

namespace HeightIndex

variable (index : HeightIndex) (batch : ConfirmBatch)

def empty : HeightIndex := ⟨∅, ∅⟩

def readIndexedTxHashs (height : UInt64) : Option (List Hash) :=
  index.txHashs.get? height

def writeIndexedTxHashs (height : UInt64) (hashs : List Hash) : HeightIndex :=
  { index with txHashs := index.txHashs.set height hashs }

def readSequencerByHeight (height : UInt64) : Option Sequencer :=
  index.sequencers.get? height

def writeSequencerByHeight (seq : Sequencer) : HeightIndex :=
  { index with sequencers := index.sequencers.set seq.base.height seq }

/-- What a push that is done writes under its height: nothing is listed for an empty batch. -/
def push : HeightIndex :=
  let txhashes := (Dag.executionOrder batch).map Txi.getTxHash
  let index :=
    if txhashes.length > 0 then index.writeIndexedTxHashs batch.seq.base.height txhashes else index
  index.writeSequencerByHeight batch.seq

theorem push_sequencers :
    (index.push batch).sequencers = index.sequencers.set batch.seq.base.height batch.seq := by
  unfold push
  dsimp only
  split <;> rfl

variable {index}

variable {batch} in
theorem push_other {height : UInt64} (different : height ≠ batch.seq.base.height) :
    (index.push batch).readIndexedTxHashs height = index.readIndexedTxHashs height ∧
      (index.push batch).readSequencerByHeight height = index.readSequencerByHeight height := by
  constructor
  · unfold push
    dsimp only
    split
    · exact GoMap.get?_set_of_ne _ _ different
    · rfl
  · rw [readSequencerByHeight, push_sequencers]
    exact GoMap.get?_set_of_ne _ _ different

theorem executionOrder_hashes :
    ((Dag.executionOrder batch).map Txi.getTxHash).Perm (batch.txs.map Txi.getTxHash) := by
  rw [Dag.executionOrder, map_map]
  exact (sortTxis_perm batch.txs).map Txi.getTxHash

variable {batch}

theorem push_own (absent : index.readIndexedTxHashs batch.seq.base.height = none) :
    (((index.push batch).readIndexedTxHashs batch.seq.base.height).getD []).Perm
        (batch.txs.map Txi.getTxHash) ∧
      (index.push batch).readSequencerByHeight batch.seq.base.height = some batch.seq := by
  constructor
  · refine List.Perm.trans (.of_eq ?_) (executionOrder_hashes batch)
    unfold push
    dsimp only
    split
    · show ((index.txHashs.set batch.seq.base.height _).get? _).getD [] = _
      rw [GoMap.get?_set_self]
      rfl
    next isEmpty =>
      show (index.readIndexedTxHashs batch.seq.base.height).getD [] = _
      rw [absent, length_eq_zero_iff.mp (Nat.eq_zero_of_not_pos isEmpty)]
      rfl
  · rw [readSequencerByHeight, push_sequencers, GoMap.get?_set_self]

end HeightIndex

structure HeightLedger where
  pool : TxPool
  index : HeightIndex

namespace HeightLedger

variable {batch : ConfirmBatch} {txs : List Txi} {statedb last : StateDB}

def Submits (ovm : Ovm) (state : HeightLedger) (input : TxType × Txi) (next : HeightLedger)
    (confirmed : List ConfirmBatch) : Prop :=
  state.pool.Submits ovm input next.pool confirmed ∧
    next.index = confirmed.foldl HeightIndex.push state.index

/-- What the ledger has is submitted again only as it is and if no archive; the height has room. -/
def HeightInput (state : HeightLedger) (input : TxType × Txi) : Prop :=
  state.pool.OnceInput input ∧ state.pool.dag.latestSequencer.base.height.toNat + 1 < 2 ^ 64

structure KeepsBatch (state : HeightLedger) (batch : ConfirmBatch) : Prop where
  parents : ∀ tx ∈ batch.txs ++ [batch.seq.txi], ∀ parentHash ∈ tx.parents,
    state.pool.dag.Knows parentHash ∧
      ∀ parent, state.pool.dag.Holds parentHash parent →
        parent.base.height.toNat ≤ batch.seq.base.height.toNat
  carried : ∀ tx ∈ batch.txs ++ [batch.seq.txi], state.pool.dag.Knows tx.getTxHash ∧
    ∀ stored, state.pool.dag.Holds tx.getTxHash stored → stored.base.height = batch.seq.base.height
  listed : ((state.index.readIndexedTxHashs batch.seq.base.height).getD []).Perm
    (batch.txs.map Txi.getTxHash)
  sequencer : state.index.readSequencerByHeight batch.seq.base.height = some batch.seq

/-- What the ledger has of all confirmed batches, and how their heights follow each other. -/
structure Layered (state : HeightLedger) (first : Nat) (batches : List ConfirmBatch) : Prop where
  kept : ∀ batch ∈ batches, state.KeepsBatch batch
  heights : batches.map (fun batch => batch.seq.base.height.toNat) =
    List.range' (first + 1) batches.length

/-! ## One confirmation -/

theorem pushed_height {ovm : Ovm} {dag : Dag}
    (executed : dag.execute ovm batch = .ok (.ok txs, statedb)) {h : Hash}
    {stored : Txi} (holds : (dag.pushed batch.seq txs last).Holds h stored) :
    dag.Holds h stored ∨ h ∈ batch.hashes ∧ stored.base.height = batch.seq.base.height := by
  rcases Dag.pushed_holds holds with before | ⟨member, rfl⟩
  · exact .inl before
  refine .inr ?_
  rcases mem_append.mp member with inTxs | isSeq
  · have headers := (processAll_header executed).1
    rw [Dag.executionOrder, forall₂_map_right_iff] at headers
    obtain ⟨tx, inOrder, same⟩ := exists_of_forall₂_left headers inTxs
    have inBatch := (sortTxis_perm batch.txs).mem_iff.mp inOrder
    refine ⟨mem_map.mpr ⟨tx, mem_append_left _ inBatch, ?_⟩, ?_⟩
    · exact same.records.getTxHash.symm
    · rw [same.base]
      rfl
  · obtain rfl := mem_singleton.mp isSeq
    exact ⟨mem_map.mpr ⟨_, mem_append_right _ mem_cons_self, rfl⟩, rfl⟩

variable {ovm : Ovm} {start : Dag} {first : Nat} {state next : HeightLedger}
  {batches : List ConfirmBatch}

/-- What holds between two submissions: the ledger has nothing above its latest sequencer. -/
structure Rising (start : Dag) (first : Nat) (state : HeightLedger)
    (batches : List ConfirmBatch) : Prop where
  once : TxPool.HashesOnce start state.pool (batches.flatMap ConfirmBatch.hashes)
  layered : state.Layered first batches
  latest : state.pool.dag.latestSequencer.base.height.toNat = first + batches.length
  bounded : ∀ {h stored}, state.pool.dag.Holds h stored →
    stored.base.height.toNat ≤ first + batches.length
  unlisted : ∀ height, first + batches.length < height.toNat →
    state.index.readIndexedTxHashs height = none

theorem KeepsBatch.same (keeps : state.KeepsBatch batch)
    (holds : next.pool.dag.Holds = state.pool.dag.Holds)
    (knows : next.pool.dag.Knows = state.pool.dag.Knows) (index : next.index = state.index) :
    next.KeepsBatch batch := by
  refine ⟨?_, ?_, ?_, ?_⟩
  · rw [holds, knows]
    exact keeps.parents
  · rw [holds, knows]
    exact keeps.carried
  · rw [index]
    exact keeps.listed
  · rw [index]
    exact keeps.sequencer

theorem KeepsBatch.pushed {new : ConfirmBatch} (keeps : state.KeepsBatch batch)
    (executed : state.pool.dag.execute ovm new = .ok (.ok txs, statedb))
    (isDag : next.pool.dag = state.pool.dag.pushed new.seq txs last)
    (unknown : ∀ h ∈ new.hashes, ¬ state.pool.dag.Knows h)
    (different : batch.seq.base.height ≠ new.seq.base.height)
    (index : next.index = state.index.push new) : next.KeepsBatch batch := by
  have grows : ∀ {h}, state.pool.dag.Knows h → next.pool.dag.Knows h := by
    rw [isDag]
    exact fun knows => (TxPool.pushed_knows_iff executed).mpr (.inl knows)
  have before : ∀ {h stored}, state.pool.dag.Knows h → next.pool.dag.Holds h stored →
      state.pool.dag.Holds h stored := by
    intro h stored knows held
    rw [isDag] at held
    rcases pushed_height executed held with before | ⟨isNew, -⟩
    · exact before
    · exact absurd knows (unknown h isNew)
  refine ⟨fun tx member parentHash isParent => ?_, fun tx member => ?_, ?_, ?_⟩
  · obtain ⟨knows, bounded⟩ := keeps.parents tx member parentHash isParent
    exact ⟨grows knows, fun parent held => bounded parent (before knows held)⟩
  · obtain ⟨knows, carried⟩ := keeps.carried tx member
    exact ⟨grows knows, fun stored held => carried stored (before knows held)⟩
  · rw [index, (HeightIndex.push_other different).1]
    exact keeps.listed
  · rw [index, (HeightIndex.push_other different).2]
    exact keeps.sequencer

theorem Rising.same {outputs : List ConfirmBatch} (rising : Rising start first state outputs)
    (once : TxPool.HashesOnce start next.pool (outputs.flatMap ConfirmBatch.hashes))
    (holds : next.pool.dag.Holds = state.pool.dag.Holds)
    (knows : next.pool.dag.Knows = state.pool.dag.Knows)
    (latest : next.pool.dag.latestSequencer = state.pool.dag.latestSequencer)
    (index : next.index = state.index) : Rising start first next outputs where
  once := once
  layered := ⟨fun batch member => (rising.layered.kept batch member).same holds knows index,
    rising.layered.heights⟩
  latest := by rw [latest, rising.latest]
  bounded := by
    rw [holds]
    exact rising.bounded
  unlisted := by
    rw [index]
    exact rising.unlisted

theorem Rising.height_le (rising : Rising start first state batches)
    (member : batch ∈ batches) : batch.seq.base.height.toNat ≤ first + batches.length := by
  have listed : batch.seq.base.height.toNat ∈ List.range' (first + 1) batches.length := by
    rw [← rising.layered.heights]
    exact mem_map.mpr ⟨batch, member, rfl⟩
  have := (mem_range'_1.mp listed).2
  omega

theorem Rising.confirmed {txType : TxType} (rising : Rising start first state batches)
    (allowed : state.HeightInput (txType, batch.seq.txi))
    (once : TxPool.HashesOnce start next.pool ((batches ++ [batch]).flatMap ConfirmBatch.hashes))
    (absent : state.pool.txLookup.getEnvelope batch.seq.txi.getTxHash = none)
    (accepted : (state.pool.enqueue txType batch.seq.txi).confirmHelper batch.seq = .ok batch)
    (executed : state.pool.dag.execute ovm batch = .ok (.ok txs, statedb))
    (isDag : next.pool.dag = state.pool.dag.pushed batch.seq txs last)
    (index : next.index = state.index.push batch) :
    Rising start first next (batches ++ [batch]) := by
  obtain ⟨-, follows, -⟩ := TxPool.confirmHelper_ok accepted
  have height : batch.seq.base.height.toNat = first + batches.length + 1 := by
    have room := allowed.2
    rw [rising.latest] at room
    rw [← follows, UInt64.toNat_add]
    show (state.pool.dag.latestSequencer.base.height.toNat + 1) % 2 ^ 64 = _
    rw [rising.latest, Nat.mod_eq_of_lt room]
  obtain ⟨-, unknown⟩ := rising.once.batch_unknown allowed.1 absent accepted
  have knows : ∀ {h}, next.pool.dag.Knows h ↔ state.pool.dag.Knows h ∨ h ∈ batch.hashes := by
    rw [isDag]
    exact TxPool.pushed_knows_iff executed
  have bounded : ∀ {h stored}, next.pool.dag.Holds h stored →
      stored.base.height.toNat ≤ batch.seq.base.height.toNat := by
    intro h stored held
    rw [isDag] at held
    rcases pushed_height executed held with before | ⟨-, isHeight⟩
    · have := rising.bounded before
      omega
    · rw [isHeight]
  have own : next.KeepsBatch batch := by
    have notListed : state.index.readIndexedTxHashs batch.seq.base.height = none :=
      rising.unlisted _ (by omega)
    refine ⟨fun tx member parentHash isParent => ⟨?_, fun parent => bounded⟩,
      fun tx member => ?_, ?_, ?_⟩
    · rw [isDag]
      exact TxPool.batch_parents_known rising.once.regular rising.once.indexed.knows
        (fun h txEnv found isSequencer => (rising.once.sequencers h txEnv found isSequencer).1)
        absent accepted executed member isParent
    · have inBatch : tx.getTxHash ∈ batch.hashes := mem_map.mpr ⟨tx, member, rfl⟩
      refine ⟨knows.mpr (.inr inBatch), fun stored held => ?_⟩
      rw [isDag] at held
      rcases pushed_height executed held with before | ⟨-, isHeight⟩
      · exact absurd (rising.once.indexed.knows before) (unknown _ inBatch)
      · exact isHeight
    · rw [index]
      exact (HeightIndex.push_own notListed).1
    · rw [index]
      exact (HeightIndex.push_own notListed).2
  have length : (batches ++ [batch]).length = batches.length + 1 := length_append
  refine ⟨once, ⟨fun other member => ?_, ?_⟩, ?_, fun held => ?_, fun above isAbove => ?_⟩
  · rcases mem_append.mp member with earlier | isNew
    · refine (rising.layered.kept other earlier).pushed executed isDag unknown ?_ index
      intro same
      have := rising.height_le earlier
      rw [same] at this
      omega
    · rw [mem_singleton.mp isNew]
      exact own
  · rw [map_append, rising.layered.heights, length, range'_concat, map_singleton,
      height]
    simp only [Nat.one_mul]
    rw [Nat.add_right_comm]
  · rw [isDag, length]
    exact height
  · rw [length, ← Nat.add_assoc, ← height]
    exact bounded held
  · rw [length] at isAbove
    rw [index, (HeightIndex.push_other _).1]
    · exact rising.unlisted above (by omega)
    · rintro rfl
      omega

theorem Rising.step {input : TxType × Txi} {confirmed : List ConfirmBatch}
    (rising : Rising start first state batches) (allowed : state.HeightInput input)
    (submits : state.Submits ovm input next confirmed) :
    Rising start first next (batches ++ confirmed) := by
  obtain ⟨poolSubmits, index⟩ := submits
  have once : TxPool.HashesOnce start next.pool
      ((batches ++ confirmed).flatMap ConfirmBatch.hashes) := by
    rw [flatMap_append]
    exact rising.once.step allowed.1 poolSubmits
  obtain ⟨-, step⟩ := poolSubmits.step rising.once.regular
    fun issuer isBody => allowed.1.1.mpr ⟨issuer, isBody⟩
  cases step with
  | kept statedb isDag ledger flows lookup =>
    rw [append_nil] at once ⊢
    refine rising.same once ?_ ?_ ?_ index <;> rw [isDag] <;> rfl
  | judged txType notSequencer absent judges =>
    rw [append_nil] at once ⊢
    have sameDag : next.pool.dag = state.pool.dag := judges.dag
    refine rising.same once ?_ ?_ ?_ index <;> rw [sameDag]
  | confirmed txType batch txs statedb last isSeq absent accepted executed processed settles =>
    rw [← isSeq] at absent accepted settles
    have allowedSeq : state.HeightInput (txType, batch.seq.txi) := by
      rw [isSeq]
      exact allowed
    exact rising.confirmed allowedSeq once absent accepted executed settles.dag index

def after (state : HeightLedger) (tx : Txi) : HeightLedger :=
  ⟨state.pool.after tx, (state.pool.confirms tx).foldl HeightIndex.push state.index⟩

theorem run_after {allowed : HeightLedger → TxType × Txi → Prop} {opened : HeightLedger}
    (tx : Txi) (run : Run (Submits .idle) allowed opened state batches)
    (isAllowed : allowed state (.localTx, tx))
    (returns : (state.pool.submit .idle noFault .localTx tx).isOk = true) :
    Run (Submits .idle) allowed opened (state.after tx) (batches ++ state.pool.confirms tx) :=
  .next run isAllowed ⟨TxPool.submits_after returns, rfl⟩

def opened : HeightLedger := ⟨.opened, .empty⟩

end HeightLedger

/-- If archives of the ledger are not submitted again and heights do not overflow, parents are in
the ledger and not higher, each height lists its batch, and sequencers go up by one. -/
theorem ledger_layered (ovm : Ovm) (dag : Dag) (genesis : Sequencer) (index : HeightIndex)
    (tagged : genesis.base.type = .sequencer) (indexed : dag.Indexed)
    (known : dag.Knows genesis.base.hash) (bounded : ∀ h stored, dag.Holds h stored →
      stored.base.height.toNat ≤ dag.latestSequencer.base.height.toNat)
    (unlisted : ∀ height : UInt64, dag.latestSequencer.base.height.toNat < height.toNat →
      index.readIndexedTxHashs height = none) (state : HeightLedger) (batches : List ConfirmBatch)
    (run : Run (HeightLedger.Submits ovm) HeightLedger.HeightInput ⟨.init dag genesis, index⟩ state
      batches) : state.Layered dag.latestSequencer.base.height.toNat batches := by
  have rising : HeightLedger.Rising dag dag.latestSequencer.base.height.toNat state batches := by
    refine Run.invariant (motive := fun current outputs =>
      HeightLedger.Rising dag dag.latestSequencer.base.height.toNat current outputs) ?_ ?_ run
    · exact ⟨.init tagged indexed known, ⟨fun _ member => absurd member not_mem_nil, rfl⟩, rfl,
        fun held => bounded _ _ held, unlisted⟩
    · intro current later outputs new input earlier allowed submits
      exact earlier.step allowed submits
  exact rising.layered

theorem ledger_layered_archive :
    ∃ state, Run (HeightLedger.Submits .idle) HeightLedger.HeightInput .opened state
        [⟨.confirming [1], [archiving]⟩] ∧ state.index.readIndexedTxHashs 1 = some [1] ∧
      state.Layered 0 [⟨.confirming [1], [archiving]⟩] := by
  have opened : Run (HeightLedger.Submits .idle) HeightLedger.HeightInput .opened .opened [] :=
    .start
  have newArchive : Dag.opened.getTx 1 = none := rfl
  have newSequencer : (TxPool.opened.after archiving).dag.getTx 101 = none := rfl
  have admitted := HeightLedger.run_after archiving opened
    ⟨⟨⟨nofun, nofun⟩, fun _ found => nomatch newArchive.symm.trans found⟩, by decide⟩ rfl
  have run : Run (HeightLedger.Submits .idle) HeightLedger.HeightInput .opened _
      [⟨.confirming [1], [archiving]⟩] :=
    HeightLedger.run_after (Sequencer.confirming [1]).txi admitted
      ⟨⟨⟨fun _ => ⟨_, rfl⟩, fun _ => rfl⟩,
        fun _ found => nomatch newSequencer.symm.trans found⟩, by decide⟩ rfl
  refine ⟨_, run, rfl, ledger_layered .idle .opened Dag.empty.latestSequencer .empty rfl
    Dag.opened_indexed (by rfl) ?_ (fun _ _ => rfl) _ _ run⟩
  intro h stored held
  obtain ⟨-, rfl⟩ := Dag.opened_holds held
  exact Nat.le_refl _

/-- An archive that is confirmed again gets the later height, and the earlier one still lists it. -/
theorem archive_raised :
    ∃ state stored, Run (HeightLedger.Submits .idle) (fun _ input => input.2.TagMatches) .opened
        state [⟨.confirming [1], [archiving]⟩, ⟨.following [1], [archiving]⟩] ∧
      state.index.readIndexedTxHashs 1 = some [1] ∧
      state.pool.dag.db.readTransaction 1 = some stored ∧ stored.base.height = 2 ∧
      ¬ state.Layered 0 [⟨.confirming [1], [archiving]⟩, ⟨.following [1], [archiving]⟩] := by
  have opened : Run (HeightLedger.Submits .idle) (fun _ input => input.2.TagMatches) .opened
    .opened [] := .start
  have admitted := HeightLedger.run_after archiving opened rfl rfl
  have confirmed : Run (HeightLedger.Submits .idle) (fun _ input => input.2.TagMatches) .opened _
      [⟨.confirming [1], [archiving]⟩] :=
    HeightLedger.run_after (Sequencer.confirming [1]).txi admitted rfl rfl
  have again : Run (HeightLedger.Submits .idle) (fun _ input => input.2.TagMatches) .opened _
      [⟨.confirming [1], [archiving]⟩] := HeightLedger.run_after archiving confirmed rfl rfl
  have run : Run (HeightLedger.Submits .idle) (fun _ input => input.2.TagMatches) .opened _
      [⟨.confirming [1], [archiving]⟩, ⟨.following [1], [archiving]⟩] :=
    HeightLedger.run_after (Sequencer.following [1]).txi again rfl rfl
  refine ⟨_, archiving.setHeight 2, run, rfl, rfl, rfl, fun layered => ?_⟩
  have carried := (layered.kept _ mem_cons_self).carried archiving mem_cons_self
  exact absurd (carried.2 (archiving.setHeight 2) (.inr rfl)) (by decide)

end AnnchainOG
