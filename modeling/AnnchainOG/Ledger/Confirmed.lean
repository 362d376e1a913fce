import AnnchainOG.Ledger.Push
import AnnchainOG.State.Reads

/-!
# A push without storage faults

Once the batch is executed, only a panic of the sequencer's own execution or of the commit can stop
the push.
-/

namespace AnnchainOG

variable {ovm : Ovm} {sequenceID : UInt64} {sd after : StateDB}
variable {tx processed : Txi}

def noFault : PushStep → Bool := fun _ => false

def Txi.Writable (tx : Txi) : Prop :=
  tx.getType = .archive ∨ ∃ sender, tx.sender = .ok sender

def Txi.flowPut (tx : Txi) : List Put :=
  if tx.getType = .archive then []
  else
    match tx.sender with
    | .error _ => []
    | .ok sender => [.txHashByNonce sender tx.getNonce tx.getTxHash]

def Txi.puts (tx : Txi) : List Put :=
  tx.flowPut ++ [.transaction tx]

/-- Execution may fill in the id of an issued token and changes nothing else of a transaction. -/
structure Txi.SameHeader (left right : Txi) : Prop where
  base : left.base = right.base
  sender : left.sender = right.sender

theorem processTransaction_result
    (success : processTransaction ovm sequenceID sd tx = .ok (.ok processed, after)) :
    processed = tx ∨ ∃ actionTx offering tokenID, tx.body = .action actionTx ∧
      actionTx.action = actionTxActionIPO ∧ actionTx.actionData = .publicOffering offering ∧
      processed = { tx with body := .action { actionTx with
        actionData := .publicOffering { offering with tokenId := tokenID } } } := by
  rcases processTransaction_cases success with ⟨-, isTx, -⟩ | ⟨sender, -, -, executed⟩
  · cases isTx
    exact .inl rfl
  rcases executed with ⟨actionTx, -, isBody, issued⟩ | ⟨normal, -, -, transferred⟩ | ⟨-, -, isTx, -⟩
  · obtain ⟨offering, isData, executed⟩ := processTokenTransaction_cases issued
    rcases executed with ⟨isIPO, answer, -, isAnswer⟩ | ⟨-, answer, -, isAnswer⟩ |
      ⟨-, answer, -, isAnswer⟩ | ⟨isAnswer, -⟩
    · cases answer <;> cases isAnswer
      exact .inr ⟨actionTx, offering, _, isBody, isIPO, isData, rfl⟩
    · cases answer <;> cases isAnswer
      exact .inl rfl
    · cases answer <;> cases isAnswer
      exact .inl rfl
    · cases isAnswer
  · unfold processNormal at transferred
    split at transferred
    · cases transferred
      exact .inl rfl
    obtain ⟨⟨outcome, next⟩, -, rest⟩ := bind_ok transferred
    cases outcome with
    | error => cases rest
    | ok =>
      cases rest
      exact .inl rfl
  · cases isTx
    exact .inl rfl

theorem processTransaction_header
    (success : processTransaction ovm sequenceID sd tx = .ok (.ok processed, after)) :
    processed.SameHeader tx ∧ tx.Writable := by
  have writable : tx.Writable := by
    rcases processTransaction_cases success with ⟨archive, -, -⟩ | ⟨sender, -, isSender, -⟩
    · exact .inl archive
    · exact .inr ⟨sender, isSender⟩
  refine ⟨?_, writable⟩
  rcases processTransaction_result success with rfl | ⟨actionTx, offering, tokenID, isBody, -, -, rfl⟩
  · exact ⟨rfl, rfl⟩
  · exact ⟨rfl, by simp [Txi.sender, isBody]⟩

theorem processAll_header {txs processed : List Txi}
    (success : processAll ovm sequenceID sd txs = .ok (.ok processed, after)) :
    List.Forall₂ Txi.SameHeader processed txs ∧ ∀ tx ∈ processed, tx.Writable := by
  induction txs generalizing sd processed with
  | nil =>
    cases success
    exact ⟨.nil, by simp⟩
  | cons tx txs ih =>
    obtain ⟨first, between, rest, done, later, rfl⟩ := processAll_ok success
    obtain ⟨header, writable⟩ := processTransaction_header done
    obtain ⟨headers, allWritable⟩ := ih later
    refine ⟨.cons header headers, ?_⟩
    intro other member
    rcases List.mem_cons.mp member with rfl | inRest
    · rcases writable with archive | ⟨sender, isSender⟩
      · exact .inl (by rw [Txi.getType, header.base]; exact archive)
      · exact .inr ⟨sender, header.sender.trans isSender⟩
    · exact allWritable other inRest

/-- Tagged otherwise, a sequencer is not executed as an archive, or asserted to be a transfer. -/
theorem processTransaction_seq (ovm : Ovm) (sequenceID : UInt64) (sd : StateDB) (seq : Sequencer) :
    (processTransaction ovm sequenceID sd seq.txi = .error .typeAssertion ∧
        (seq.base.type = .normal ∨ seq.base.type = .action)) ∨
      ∃ last, processTransaction ovm sequenceID sd seq.txi = .ok (.ok seq.txi, last) ∧
        (last = sd ∨ last = updateNonce sd seq.issuer seq.base.accountNonce) := by
  have isType : seq.txi.getType = seq.base.type := rfl
  have isSender : seq.txi.sender = .ok seq.issuer := rfl
  cases tag : seq.base.type with
  | archive => exact .inr ⟨sd, by simp [processTransaction, isType, tag], .inl rfl⟩
  | normal | action =>
    refine .inl ⟨?_, by simp⟩
    simp only [processTransaction, isType, tag, isSender]
    rfl
  | sequencer | campaign | termChange | other =>
    refine .inr ⟨_, ?_, .inr rfl⟩
    simp only [processTransaction, isType, tag, isSender]
    rfl

namespace Dag

variable {txs : List Txi}

theorem writeTransaction_eq (dag : Dag) (puts : List Put) {tx : Txi} (writable : tx.Writable) :
    dag.writeTransaction puts tx false =
      .ok (some ({ dag with txcached := dag.txcached.add tx }, puts ++ tx.puts)) := by
  by_cases archive : tx.getType = .archive
  · simp [writeTransaction, Txi.puts, Txi.flowPut, archive]
    rfl
  · obtain ⟨sender, isSender⟩ := writable.resolve_left archive
    simp [writeTransaction, Txi.puts, Txi.flowPut, archive, isSender]

theorem writeAll_eq (snapShotID : Nat) (writable : ∀ tx ∈ txs, tx.Writable)
    (dag : Dag) (puts : List Put) (writedTxs : List Txi) :
    dag.writeAll noFault snapShotID puts writedTxs txs =
      .ok { dag with txcached := txs.foldl TxCached.add dag.txcached }
        (puts ++ txs.flatMap Txi.puts) := by
  induction txs generalizing dag puts writedTxs with
  | nil => simp [writeAll]
  | cons tx txs ih =>
    have first := dag.writeTransaction_eq puts (writable tx List.mem_cons_self)
    simp only [writeAll, noFault, first]
    exact (ih (fun other member => writable other (List.mem_cons_of_mem _ member)) _ _ _).trans
      (by simp)

def executionOrder (batch : ConfirmBatch) : List Txi :=
  (sortTxis batch.txs).map (·.setHeight batch.seq.base.height)

def execute (ovm : Ovm) (dag : Dag) (batch : ConfirmBatch) :
    Except Panic (Except ProcessError (List Txi) × StateDB) :=
  processAll ovm dag.latestSequencer.base.height dag.statedb.snapshot.2 (executionOrder batch)

def pushed (dag : Dag) (seq : Sequencer) (txs : List Txi) (statedb : StateDB) : Dag where
  statedb := statedb.committed.clearJournalAndRefund
  db := dag.db.write (txs.flatMap Txi.puts ++ seq.txi.puts)
  txcached := (txs.foldl TxCached.add dag.txcached).add seq.txi
  latestSequencer := seq

theorem push_of_executed {ovm : Ovm} {dag : Dag} {batch : ConfirmBatch} {statedb : StateDB}
    (height : dag.latestSequencer.base.height + 1 = batch.seq.base.height)
    (executed : dag.execute ovm batch = .ok (.ok txs, statedb)) :
    dag.push ovm noFault batch =
      match processTransaction ovm dag.latestSequencer.base.height statedb batch.seq.txi with
      | .error panic => .crashed panic | .ok (_, last) => match last.commit with
        | .error panic => .crashed panic | .ok _ => .done (dag.pushed batch.seq txs last) := by
  have writable := (processAll_header executed).2
  have seqWritable : batch.seq.txi.Writable := .inr ⟨batch.seq.issuer, rfl⟩
  unfold push
  rw [if_neg (not_not_intro height)]
  unfold execute executionOrder at executed
  simp only [executed, writeAll_eq _ writable, pushSequencer, noFault,
    writeTransaction_eq _ _ seqWritable]
  cases processed : processTransaction ovm dag.latestSequencer.base.height statedb
      batch.seq.txi with
  | error panic => rfl
  | ok result =>
    obtain ⟨answer, last⟩ := result
    obtain rfl := processTransaction_sequencer processed
    simp only [finish, noFault, Bool.false_eq_true, if_false]
    rcases last.commit_cases with committed | ⟨panicked, -⟩
    · simp only [committed, List.nil_append, pushed]
    · simp only [panicked]

/-- It ends with an error and the ledger as it was, with a panic, or with everything stored. -/
theorem push_cases (ovm : Ovm) (dag : Dag) (batch : ConfirmBatch) :
    (∃ step statedb, dag.push ovm noFault batch = .failed step { dag with statedb := statedb } ∧
        { dag with statedb := statedb }.SameLedger dag) ∨
      (∃ panic, dag.push ovm noFault batch = .crashed panic) ∨
      ∃ txs statedb last, dag.execute ovm batch = .ok (.ok txs, statedb) ∧
        processTransaction ovm dag.latestSequencer.base.height statedb batch.seq.txi =
          .ok (.ok batch.seq.txi, last) ∧
        dag.push ovm noFault batch = .done (dag.pushed batch.seq txs last) := by
  by_cases height : dag.latestSequencer.base.height + 1 = batch.seq.base.height
  · cases executed : dag.execute ovm batch with
    | error panic =>
      refine .inr (.inl ⟨panic, ?_⟩)
      unfold execute executionOrder at executed
      simp only [push, if_neg (not_not_intro height), executed]
    | ok result =>
      obtain ⟨answer, statedb⟩ := result
      cases answer with
      | error error =>
        unfold execute executionOrder at executed
        obtain ⟨restored, reverted, reads⟩ := (processAll_drives executed).revert
        refine .inl ⟨.process, restored, ?_, sameLedger_of_sameReads reads⟩
        simp only [push, if_neg (not_not_intro height), executed, revert, reverted, List.foldl_nil]
      | ok txs =>
        have isPush := push_of_executed height executed
        cases processed : processTransaction ovm dag.latestSequencer.base.height statedb
            batch.seq.txi with
        | error panic =>
          simp only [processed] at isPush
          exact .inr (.inl ⟨panic, isPush⟩)
        | ok result =>
          obtain ⟨answer, last⟩ := result
          obtain rfl := processTransaction_sequencer processed
          simp only [processed] at isPush
          cases committed : last.commit with
          | error panic =>
            simp only [committed] at isPush
            exact .inr (.inl ⟨panic, isPush⟩)
          | ok _ =>
            simp only [committed] at isPush
            exact .inr (.inr ⟨txs, statedb, last, rfl, processed, isPush⟩)
  · refine .inl ⟨.height, dag.statedb, ?_, .refl dag⟩
    rw [push, if_pos height]

end Dag

end AnnchainOG
