import AnnchainOG.Ledger.Process

/-!
# What a failed push leaves behind

Up to its first write `push` can go back to the snapshot it took. From then on it cannot: the cache
is filled, the batch stays in the state database, or the commit has cleared the snapshot.
-/

namespace AnnchainOG

open List

/-- The steps at which an error leaves everything as it was. -/
def PushStep.precedesWrites : PushStep → Bool
  | .height | .process | .writeTransaction 0 | .processSequencer => true
  | .writeTransaction (_ + 1) | .writeSequencer | .writeReceipts | .stateCommit | .flushTrie
  | .writeSequencerByHeight | .writeLatestSequencer | .writeBatch => false

/-- The push returns an error at this step, or panics while it reacts to one. -/
def PushOutcome.failsAt (step : PushStep) : PushOutcome → Bool
  | .failed failing _ | .panicked failing _ => failing = step
  | .done _ | .crashed _ => false

namespace Dag

variable {dag : Dag} {step : PushStep} {failing : PushStep → Bool} {snapShotID : Nat}
  {puts : List Put} {seq : Sequencer} {ovm : Ovm}
variable {statedb : StateDB} {txs : List Txi}

structure SameLedger (left right : Dag) : Prop where
  getBalance : ∀ addr tokenID, left.getBalance addr tokenID = right.getBalance addr tokenID
  getLatestNonce : ∀ addr, left.getLatestNonce addr = right.getLatestNonce addr
  getToken : ∀ tokenID, left.getToken tokenID = right.getToken tokenID
  latestTokenID : left.statedb.latestTokenID = right.statedb.latestTokenID
  getTx : ∀ hash, left.getTx hash = right.getTx hash
  getTxByNonce : ∀ addr nonce, left.getTxByNonce addr nonce = right.getTxByNonce addr nonce
  latestSequencer : left.latestSequencer = right.latestSequencer

theorem SameLedger.refl (dag : Dag) : dag.SameLedger dag :=
  ⟨fun _ _ => rfl, fun _ => rfl, fun _ => rfl, rfl, fun _ => rfl, fun _ _ => rfl, rfl⟩

theorem sameLedger_of_sameReads
    (reads : statedb.SameReads dag.statedb) : { dag with statedb := statedb }.SameLedger dag where
  getBalance := reads.getBalance
  getLatestNonce := reads.getNonce
  getToken tokenID := by
    simp only [Dag.getToken, reads.latestTokenID, reads.getToken]
  latestTokenID := reads.latestTokenID
  getTx _ := rfl
  getTxByNonce _ _ := rfl
  latestSequencer := rfl

theorem revert_sameLedger (step : PushStep) (drives : dag.statedb.snapshot.2.Drives statedb) :
    ∃ after, { dag with statedb := statedb }.revert step dag.statedb.snapshot.1 [] =
      .failed step after ∧ after.SameLedger dag := by
  obtain ⟨restored, reverted, reads⟩ := drives.revert
  refine ⟨{ dag with statedb := restored }, ?_, sameLedger_of_sameReads reads⟩
  simp only [revert, reverted, foldl_nil]

theorem revert_failsAt {failing : PushStep}
    (fails : (dag.revert step snapShotID txs).failsAt failing = true) : failing = step := by
  unfold revert at fails
  split at fails <;> exact (of_decide_eq_true fails).symm

theorem writeAll_failsAt {writedTxs : List Txi} {outcome : PushOutcome}
    (ended : dag.writeAll failing snapShotID puts writedTxs txs = .ended outcome)
    (fails : outcome.failsAt step = true) :
    (step = .writeTransaction writedTxs.length ∧ outcome = dag.revert step snapShotID writedTxs) ∨
      ∃ index, writedTxs.length < index ∧ step = .writeTransaction index := by
  induction txs generalizing dag puts writedTxs with
  | nil => cases ended
  | cons tx txs ih =>
    simp only [writeAll] at ended
    split at ended
    · cases ended
      cases fails
    · cases ended
      obtain rfl := revert_failsAt fails
      exact .inl ⟨rfl, rfl⟩
    · have later := ih ended
      simp only [length_append, length_singleton] at later
      rcases later with ⟨isStep, -⟩ | ⟨index, after, isStep⟩
      · exact .inr ⟨_, Nat.lt_succ_self _, isStep⟩
      · exact .inr ⟨index, Nat.lt_of_succ_lt after, isStep⟩

theorem finish_failsAt (fails : (dag.finish failing snapShotID puts seq).failsAt step = true) :
    step.precedesWrites = false := by
  unfold finish at fails
  split at fails
  · obtain rfl := of_decide_eq_true fails
    rfl
  split at fails
  · cases fails
  simp only at fails
  split at fails
  · split at fails <;> (obtain rfl := of_decide_eq_true fails; rfl)
  repeat' split at fails
  all_goals first
    | (obtain rfl := of_decide_eq_true fails; rfl)
    | cases fails

theorem processTransaction_sequencer {sequenceID : UInt64} {sd after : StateDB}
    {answer : Except ProcessError Txi}
    (success : processTransaction ovm sequenceID sd seq.txi = .ok (answer, after)) :
    answer = .ok seq.txi := by
  rcases processTransaction_cases success with ⟨-, isAnswer, -⟩ | ⟨_, -, -, executed⟩
  · exact isAnswer
  rcases executed with ⟨_, -, isBody, -⟩ | ⟨_, -, isBody, -⟩ | ⟨-, -, isAnswer, -⟩
  · cases isBody
  · cases isBody
  · exact isAnswer

theorem pushSequencer_failsAt
    (fails : (dag.pushSequencer ovm failing snapShotID puts seq).failsAt step = true) :
    step.precedesWrites = false := by
  unfold pushSequencer at fails
  split at fails
  · cases fails
  · obtain rfl := of_decide_eq_true fails
    rfl
  · split at fails
    · cases fails
    next processed => cases processTransaction_sequencer processed
    · simp only at fails
      split at fails
      · obtain rfl := of_decide_eq_true fails
        rfl
      · exact finish_failsAt fails

theorem push_sameLedger {batch : ConfirmBatch} (early : step.precedesWrites = true)
    (fails : (dag.push ovm failing batch).failsAt step = true) :
    ∃ after, dag.push ovm failing batch = .failed step after ∧ after.SameLedger dag := by
  unfold push at fails ⊢
  split at fails
  next mismatch =>
    obtain rfl := of_decide_eq_true fails
    exact ⟨dag, if_pos mismatch, .refl dag⟩
  rename_i heightMatches
  rw [if_neg heightMatches]
  simp only at fails ⊢
  split at fails
  · cases fails
  next executed =>
    obtain rfl := revert_failsAt fails
    exact revert_sameLedger .process (processAll_drives executed)
  next executed =>
    split at fails
    next outcome ended =>
      rcases writeAll_failsAt ended fails with ⟨isFirst, isRevert⟩ | ⟨index, later, isStep⟩
      · obtain rfl := isFirst
        rw [isRevert]
        exact revert_sameLedger _ (processAll_drives executed)
      · -- a later transaction is no early step
        subst isStep
        cases index with
        | zero => cases later
        | succ index => cases early
    · rw [pushSequencer_failsAt fails] at early
      cases early

/-! ## The later steps -/

def empty : Dag where
  statedb := newStateDB ∅ .empty
  db := ⟨∅, ∅⟩
  txcached := ⟨10, [], ∅⟩
  latestSequencer := ⟨⟨.sequencer, 100, [], 0, 0, 0⟩, 1⟩

def firstSequencer : Sequencer := ⟨⟨.sequencer, 101, [], 1, 1, 0⟩, 1⟩

def archived : Txi := ⟨⟨.archive, 1, [], 0, 1, 0⟩, .archive⟩

def archives (count : Nat) : ConfirmBatch := ⟨firstSequencer, List.replicate count archived⟩

theorem get_add_self (cache : TxCached) (tx : Txi) :
    ((cache.add tx).get tx.getTxHash).isSome = true := by
  unfold TxCached.add
  split
  next present => exact Option.isSome_iff_exists.mpr (GoMap.contains_iff.mp present)
  · simp [TxCached.get]

private theorem processAll_archives (ovm : Ovm) (sequenceID : UInt64) (sd : StateDB) (count : Nat) :
    processAll ovm sequenceID sd (List.replicate count archived) =
      .ok (.ok (List.replicate count archived), sd) := by
  induction count with
  | zero => rfl
  | succ count ih =>
    show (processAll ovm sequenceID sd (List.replicate count archived) >>= _) = _
    rw [ih]
    rfl

private theorem writeAll_archives {index : Nat}
    (failsThere : ∀ written, failing (.writeTransaction written) = decide (written = index))
    (snapShotID count : Nat) (dag : Dag) (puts : List Put) (writedTxs : List Txi)
    (remaining : writedTxs.length + count = index)
    (cached : writedTxs ≠ [] → (dag.txcached.get archived.getTxHash).isSome = true) :
    ∃ (last : Dag) (txs : List Txi),
      dag.writeAll failing snapShotID puts writedTxs (List.replicate (count + 1) archived) =
        .ended (last.revert (.writeTransaction index) snapShotID txs) ∧ last.statedb = dag.statedb ∧
      (0 < index → (last.txcached.get archived.getTxHash).isSome = true) := by
  induction count generalizing dag puts writedTxs with
  | zero =>
    obtain rfl : writedTxs.length = index := remaining
    refine ⟨dag, writedTxs, ?_, rfl, fun positive => cached (ne_nil_of_length_pos positive)⟩
    simp only [replicate_succ, writeAll, failsThere]
    rfl
  | succ count ih =>
    obtain ⟨last, txs, ended, sameState, stillCached⟩ :=
      ih { dag with txcached := dag.txcached.add archived } (puts ++ [] ++ [.transaction archived])
        (writedTxs ++ [archived]) (by simp; omega) fun _ => get_add_self _ _
    refine ⟨last, txs, ?_, sameState, stillCached⟩
    have notYet : ¬ writedTxs.length = index := by omega
    rw [replicate_succ, writeAll, failsThere, decide_eq_false notYet]
    exact ended

private theorem push_archives (index : Nat) :
    ∃ after, empty.push .idle (· = .writeTransaction (index + 1)) (archives (index + 2)) =
        .failed (.writeTransaction (index + 1)) after ∧
      (after.getTx archived.getTxHash).isSome = true := by
  have sorted : (sortTxis (archives (index + 2)).txs).map
      (·.setHeight firstSequencer.base.height) = List.replicate (index + 2) archived := by
    have same : sortTxis (archives (index + 2)).txs = List.replicate (index + 2) archived :=
      perm_replicate.mp (sortTxis_perm _)
    rw [same, map_replicate]
    rfl
  obtain ⟨last, txs, ended, sameState, cached⟩ :=
    @writeAll_archives (· = .writeTransaction (index + 1)) (index + 1) (by simp)
      empty.statedb.snapshot.1 (index + 1) { empty with statedb := empty.statedb.snapshot.2 } [] []
      (Nat.zero_add _) (fun absurd => (absurd rfl).elim)
  obtain ⟨restored, reverted, -⟩ := (StateDB.Drives.refl empty.statedb.snapshot.2).revert
  have isRevert : last.revert (.writeTransaction (index + 1)) empty.statedb.snapshot.1 txs =
      .failed (.writeTransaction (index + 1)) { last with
        statedb := restored
        db := txs.foldl (fun db tx => db.deleteTransaction tx.getTxHash) last.db } := by
    simp only [revert, sameState, reverted]
  have pushed : empty.push .idle (· = .writeTransaction (index + 1)) (archives (index + 2)) =
      last.revert (.writeTransaction (index + 1)) empty.statedb.snapshot.1 txs := by
    have heightMatches : empty.latestSequencer.base.height + 1 =
        (archives (index + 2)).seq.base.height := rfl
    unfold push
    rw [if_neg (not_not_intro heightMatches)]
    simp only [show (archives (index + 2)).seq = firstSequencer from rfl, sorted,
      processAll_archives, ended]
  refine ⟨_, pushed.trans isRevert, ?_⟩
  simp [getTx, cached (Nat.succ_pos _)]

private theorem late_step_leaves_trace (late : step.precedesWrites = false) :
    ∃ batch, (empty.push .idle (· = step) batch).failsAt step = true ∧
      ∀ after, empty.push .idle (· = step) batch = .failed step after →
        (after.getTx archived.getTxHash).isSome = true := by
  cases step with
  | height | process | processSequencer => cases late
  | writeTransaction index =>
    cases index with
    | zero => cases late
    | succ index =>
      obtain ⟨after, failed, found⟩ := push_archives index
      refine ⟨archives (index + 2), ?_, ?_⟩
      · rw [failed]
        simp [PushOutcome.failsAt]
      · intro other isOther
        rw [failed] at isOther
        cases isOther
        exact found
  | flushTrie => exact ⟨archives 1, rfl, fun after failed => nomatch failed⟩
  | writeSequencer | writeReceipts | stateCommit | writeSequencerByHeight
  | writeLatestSequencer | writeBatch =>
    refine ⟨archives 1, rfl, fun after failed => ?_⟩
    cases failed
    rfl

/-- A failing push neither panics nor changes the ledger exactly if it fails before the writes. -/
theorem push_atomic_iff (step : PushStep) :
    (∀ (ovm : Ovm) (failing : PushStep → Bool) (dag : Dag) (batch : ConfirmBatch),
        (dag.push ovm failing batch).failsAt step = true →
        ∃ after, dag.push ovm failing batch = .failed step after ∧ after.SameLedger dag) ↔
      step.precedesWrites = true := by
  constructor
  · intro atomic
    by_contra late
    obtain ⟨batch, fails, trace⟩ := late_step_leaves_trace (Bool.eq_false_iff.mpr late)
    obtain ⟨after, failed, same⟩ := atomic .idle (· = step) empty batch fails
    have found := trace after failed
    rw [same.getTx] at found
    cases found
  · intro early ovm failing dag batch fails
    exact push_sameLedger early fails

/-- The exit after the trie flush reverts to a snapshot the commit has cleared. -/
theorem push_panics_when_flush_fails :
    empty.push .idle (· = .flushTrie) ⟨firstSequencer, []⟩ =
      .panicked .flushTrie .snapshotNotFound := by
  rfl

end Dag

end AnnchainOG
