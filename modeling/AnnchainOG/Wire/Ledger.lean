import AnnchainOG.Ledger.Confirmed
import AnnchainOG.Wire.Stored

/-!
# The ledger over its records

The sequencer is given the root of the state it leads to after it was stored under its hash and
before it is stored under its height. Only pushes that end well are described here.
-/

namespace AnnchainOG.Wire

open Option

/-!
## What execution sees of a record
-/

def viewType (type : UInt8) : TxBaseType :=
  if type = txBaseTypeNormal then .normal
  else if type = txBaseTypeSequencer then .sequencer
  else if type = txBaseTypeCampaign then .campaign
  else if type = txBaseTypeTermChange then .termChange
  else if type = txBaseTypeArchive then .archive
  else if type = txBaseAction then .action
  else .other type

def TxBase.view (base : TxBase) : AnnchainOG.TxBase :=
  ⟨viewType base.type, base.hash, base.parentsHash, base.accountNonce, base.height, base.weight⟩

/-- What is not an offering fails the type assertion, no data at all like any other. -/
def ActionData.view : Option ActionData → AnnchainOG.ActionData
  | some (.publicOffering offering) =>
    .publicOffering ⟨offering.tokenId, offering.value.getD 0, offering.enableSPO, offering.tokenName⟩
  | some (.requestDomain request) => .requestDomain request.domainName
  | none => .requestDomain []

def Sequencer.view (seq : Sequencer) : AnnchainOG.Sequencer :=
  ⟨seq.base.view, seq.issuer.getD 0⟩

def Txi.view : Txi → AnnchainOG.Txi
  | .tx record => ⟨record.base.view, .tx ⟨record.sender.getD 0, record.toAddress,
      record.value.getD 0, record.tokenId, record.data⟩⟩
  | .sequencer record => record.view.txi
  | .campaign record => ⟨record.base.view, .campaign (record.issuer.getD 0)⟩
  | .termChange record => ⟨record.base.view, .termChange (record.issuer.getD 0)⟩
  | .archive record => ⟨record.base.view, .archive⟩
  | .action record => ⟨record.base.view, .action ⟨record.action, record.sender.getD 0,
      ActionData.view record.actionData⟩⟩

def Txi.hasPointers (tx : Txi) : Bool :=
  tx.getType = txBaseTypeArchive ||
    ((match tx.getSender with
      | .ok sender => sender.isSome
      | .error _ => false) &&
    match tx with
    | .tx record => tx.getType ≠ txBaseTypeNormal || record.value.isSome
    | .action record => tx.getType ≠ txBaseAction ||
        (record.action ≠ actionTxActionIPO && record.action ≠ actionTxActionSPO) ||
        match record.actionData with
        | some (.publicOffering offering) => offering.value.isSome
        | _ => true
    | _ => true)

def Txi.setHeight (height : UInt64) : Txi → Txi
  | .tx record => .tx { record with base := { record.base with height := height } }
  | .sequencer record => .sequencer { record with base := { record.base with height := height } }
  | .campaign record => .campaign { record with base := { record.base with height := height } }
  | .termChange record => .termChange { record with base := { record.base with height := height } }
  | .archive record => .archive { record with base := { record.base with height := height } }
  | .action record => .action { record with base := { record.base with height := height } }

def Txi.writtenBack (processed : AnnchainOG.Txi) : Txi → Txi
  | .action record =>
    match processed.body, record.actionData with
    | .action ⟨_, _, .publicOffering issued⟩, some (.publicOffering offering) =>
      .action { record with
        actionData := some (.publicOffering { offering with tokenId := issued.tokenId }) }
    | _, _ => .action record
  | record => record

/-!
## Execution
-/

section Execution

variable (ovm : Ovm) (sequenceID : UInt64)

def processTransaction (sd : StateDB) (tx : Txi) : Option (Txi × StateDB) :=
  if tx.hasPointers then
    match AnnchainOG.processTransaction ovm sequenceID sd tx.view with
    | .ok (.ok processed, sd) => some (tx.writtenBack processed, sd)
    | _ => none
  else none

def processAll (sd : StateDB) : List Txi → Option (List Txi × StateDB)
  | [] => some ([], sd)
  | tx :: txs => do
      let (tx, sd) ← processTransaction ovm sequenceID sd tx
      let (txs, sd) ← processAll sd txs
      return (tx :: txs, sd)

end Execution

/-!
## The store
-/

/-- The key/value store, with the tries that were flushed to it under their roots. -/
structure Store where
  genesis : Option Bytes
  latestSequencer : Option Bytes
  transactions : GoMap Hash Bytes
  sequencers : GoMap UInt64 Bytes
  txIndex : GoMap UInt64 (List Hash)
  tries : GoMap Hash StateTrie
  codes : CodeStore

def Store.empty : Store := ⟨none, none, ∅, ∅, ∅, ∅, ∅⟩

structure Batch where
  seq : Sequencer
  txs : List Txi
  deriving DecidableEq

structure Dag where
  statedb : StateDB
  store : Store
  genesis : Sequencer
  latestSequencer : Sequencer

section Ledger

variable (msgp : Msgp64) (recover : Bool)

namespace Store

variable (store : Store)

def readTransaction (hash : Hash) : Option Txi :=
  (store.transactions.get? hash).bind (readStored msgp recover)

def readSequencerByHeight (height : UInt64) : Option Sequencer :=
  (store.sequencers.get? height).bind (Sequencer.unmarshalMsg msgp recover)

def readIndexedTxHashs (height : UInt64) : Option (List Hash) :=
  store.txIndex.get? height

def readGenesis : Option Sequencer :=
  store.genesis.bind (Sequencer.unmarshalMsg msgp recover)

def readLatestSequencer : Option Sequencer :=
  store.latestSequencer.bind (Sequencer.unmarshalMsg msgp recover)

def writeTransaction (tx : Txi) : Option Store :=
  (tx.stored msgp recover).toOption.map fun data =>
    { store with transactions := store.transactions.set tx.base.hash data }

def writeAll (store : Store) : List Txi → Option Store
  | [] => some store
  | tx :: txs => do
      let store ← store.writeTransaction msgp recover tx
      store.writeAll txs

def finish (seq : Sequencer) (txs : List Txi) (sd : StateDB) : Store :=
  let data := seq.marshalMsg msgp recover
  { store with
    latestSequencer := some data
    sequencers := store.sequencers.set seq.base.height data
    txIndex := if txs = [] then store.txIndex
      else store.txIndex.set seq.base.height (txs.map fun tx => tx.base.hash)
    tries := store.tries.set seq.stateRoot sd.trie
    codes := sd.codes }

end Store

namespace Dag

variable (ovm : Ovm) (rootHash : StateTrie → Hash)

def executionOrder (batch : Batch) : List Txi :=
  (sortTxis batch.txs).map (·.setHeight batch.seq.base.height)

def executed (dag : Dag) (batch : Batch) : Option (List Txi × StateDB) := do
  let height := dag.latestSequencer.base.height
  let (txs, sd) ← processAll ovm height dag.statedb.snapshot.2 (executionOrder batch)
  let (_, sd) ← processTransaction ovm height sd (.sequencer batch.seq)
  let sd ← sd.commit.toOption
  return (txs, sd)

def rootAfter (dag : Dag) (batch : Batch) : Option Hash :=
  (dag.executed ovm batch).map fun result => rootHash result.2.trie

/-- A push that ends well: the ledger and the records after it. -/
def push (dag : Dag) (batch : Batch) : Option (Dag × Batch) :=
  if dag.latestSequencer.base.height + 1 ≠ batch.seq.base.height then none
  else do
    let (txs, sd) ← dag.executed ovm batch
    let store ← dag.store.writeAll msgp recover (txs ++ [.sequencer batch.seq])
    let root := rootHash sd.trie
    let seq := { batch.seq with stateRoot := root }
    return (⟨sd.clearJournalAndRefund, store.finish msgp recover seq txs sd, dag.genesis, seq⟩,
      ⟨seq, txs⟩)

end Dag

end Ledger

/-!
## What execution does to the records
-/

section Effects

variable {ovm : Ovm} {sequenceID : UInt64}
variable {sd : StateDB}

def ActionTx.withTokenId (tx : ActionTx) (offering : PublicOffering) (tokenID : TokenId) : ActionTx :=
  { tx with actionData := some (.publicOffering { offering with tokenId := tokenID }) }

/-- What execution may make of a record: itself, or an offering that has issued its token. -/
def Txi.Becomes (tx processed : Txi) : Prop :=
  processed = tx ∨ ∃ record offering tokenID, tx = .action record ∧
    record.action = actionTxActionIPO ∧ record.actionData = some (.publicOffering offering) ∧
    processed = .action (record.withTokenId offering tokenID)

theorem writtenBack_view (tx : Txi) : tx.writtenBack tx.view = tx := by
  cases tx with
  | action record =>
    obtain ⟨base, action, sender, actionData⟩ := record
    rcases actionData with _ | offering | request <;> rfl
  | _ => rfl

theorem processTransaction_cases {after : StateDB} {tx processed : Txi}
    (success : processTransaction ovm sequenceID sd tx = some (processed, after)) :
    tx.hasPointers = true ∧
      AnnchainOG.processTransaction ovm sequenceID sd tx.view = .ok (.ok processed.view, after) ∧
      tx.Becomes processed := by
  unfold processTransaction at success
  split at success
  next pointers =>
    split at success
    next viewed last executed =>
      cases success
      refine ⟨pointers, ?_⟩
      rcases AnnchainOG.processTransaction_result executed with rfl |
        ⟨actionTx, offering, tokenID, isBody, isOffering, isData, rfl⟩
      · rw [writtenBack_view]
        exact ⟨executed, .inl rfl⟩
      cases tx with
      | action record =>
        obtain ⟨base, action, sender, actionData⟩ := record
        cases isBody
        rcases actionData with _ | ⟨⟨tokenId, value, enableSPO, tokenName⟩⟩ | request
        · cases isData
        · cases isData
          exact ⟨executed, .inr ⟨_, _, tokenID, rfl, isOffering, rfl, rfl⟩⟩
        · cases isData
      | tx | sequencer | campaign | termChange | archive => cases isBody
    · cases success
  · cases success

theorem processAll_cases {last : StateDB} {txs processed : List Txi}
    (success : processAll ovm sequenceID sd txs = some (processed, last)) :
    List.Forall₂ Txi.Becomes txs processed ∧
      AnnchainOG.processAll ovm sequenceID sd (txs.map Txi.view) =
        .ok (.ok (processed.map Txi.view), last) := by
  induction txs generalizing sd processed with
  | nil =>
    cases success
    exact ⟨.nil, rfl⟩
  | cons tx txs ih =>
    obtain ⟨⟨first, between⟩, done, success⟩ := bind_eq_some_iff.mp success
    obtain ⟨⟨rest, after⟩, later, success⟩ := bind_eq_some_iff.mp success
    cases success
    obtain ⟨-, executed, becomes⟩ := processTransaction_cases done
    obtain ⟨others, executedOthers⟩ := ih later
    refine ⟨.cons becomes others, ?_⟩
    simp only [List.map_cons, AnnchainOG.processAll, executed, executedOthers, bind, Except.bind]
    rfl

end Effects

/-!
## The two ledgers
-/

section Views

variable {msgp : Msgp64} {recover : Bool} {ovm : Ovm} {rootHash : StateTrie → Hash}
variable {dag : Dag} {batch : Batch}
variable {next : Dag} {after : Batch}

def Batch.view (batch : Batch) : ConfirmBatch :=
  ⟨batch.seq.view, batch.txs.map Txi.view⟩

theorem view_setHeight (tx : Txi) (height : UInt64) :
    (tx.setHeight height).view = tx.view.setHeight height := by
  cases tx <;> rfl

theorem view_base (tx : Txi) : tx.view.base = tx.base.view := by
  cases tx <;> rfl

theorem less_view (left right : Txi) : left.view.less right.view = left.less right := by
  simp only [AnnchainOG.Txi.less, Txi.less, AnnchainOG.Txi.getWeight, AnnchainOG.Txi.getNonce,
    AnnchainOG.Txi.getTxHash, view_base, TxBase.view]

theorem sortTxis_view (txs : List Txi) :
    (sortTxis txs).map Txi.view = AnnchainOG.sortTxis (txs.map Txi.view) := by
  refine List.map_insertionSort _ _ _ _ fun left _ right _ => ?_
  rw [less_view]

theorem base_setHeight (tx : Txi) (height : UInt64) :
    (tx.setHeight height).base = { tx.base with height := height } := by
  cases tx <;> rfl

theorem executionOrder_view (batch : Batch) :
    (Dag.executionOrder batch).map Txi.view = AnnchainOG.Dag.executionOrder batch.view := by
  simp only [Dag.executionOrder, AnnchainOG.Dag.executionOrder, Batch.view, List.map_map,
    ← sortTxis_view]
  refine List.map_congr_left fun tx _ => ?_
  exact view_setHeight tx _

theorem executed_spec {txs : List Txi} {sd : StateDB}
    (executed : dag.executed ovm batch = some (txs, sd)) :
    ∃ between last seq, processAll ovm dag.latestSequencer.base.height dag.statedb.snapshot.2
        (Dag.executionOrder batch) = some (txs, between) ∧
      processTransaction ovm dag.latestSequencer.base.height between (.sequencer batch.seq) =
        some (seq, last) ∧ last.commit = .ok sd := by
  obtain ⟨⟨processed, between⟩, ran, executed⟩ := bind_eq_some_iff.mp executed
  obtain ⟨⟨seq, last⟩, seqRan, executed⟩ := bind_eq_some_iff.mp executed
  obtain ⟨committed, commits, executed⟩ := bind_eq_some_iff.mp executed
  cases executed
  exact ⟨between, last, seq, ran, seqRan, ok_of_toOption commits⟩

theorem push_spec (pushed : dag.push msgp recover ovm rootHash batch = some (next, after)) :
    dag.latestSequencer.base.height + 1 = batch.seq.base.height ∧
      ∃ txs sd store, dag.executed ovm batch = some (txs, sd) ∧
        dag.store.writeAll msgp recover (txs ++ [.sequencer batch.seq]) = some store ∧
        after = ⟨{ batch.seq with stateRoot := rootHash sd.trie }, txs⟩ ∧
        next = ⟨sd.clearJournalAndRefund, store.finish msgp recover after.seq txs sd, dag.genesis,
          after.seq⟩ := by
  obtain ⟨height, pushed⟩ := ite_none_left_eq_some.mp pushed
  obtain ⟨⟨txs, sd⟩, executed, pushed⟩ := bind_eq_some_iff.mp pushed
  obtain ⟨store, written, pushed⟩ := bind_eq_some_iff.mp pushed
  cases pushed
  exact ⟨not_not.mp height, txs, sd, store, executed, written, rfl, rfl⟩

theorem push_view (pushed : dag.push msgp recover ovm rootHash batch = some (next, after))
    (ledger : AnnchainOG.Dag) (sameState : ledger.statedb = dag.statedb)
    (sameLatest : ledger.latestSequencer = dag.latestSequencer.view) :
    ∃ done, ledger.push ovm noFault batch.view = .done done ∧ done.statedb = next.statedb ∧
      done.latestSequencer = next.latestSequencer.view := by
  obtain ⟨height, txs, sd, store, executed, -, rfl, rfl⟩ := push_spec pushed
  obtain ⟨between, last, seq, ran, seqRan, commits⟩ := executed_spec executed
  obtain ⟨-, executedTxs⟩ := processAll_cases ran
  obtain ⟨-, executedSeq, -⟩ := processTransaction_cases seqRan
  have sameHeight : ledger.latestSequencer.base.height = dag.latestSequencer.base.height := by
    rw [sameLatest]
    rfl
  have execute : ledger.execute ovm batch.view = .ok (.ok (txs.map Txi.view), between) := by
    rw [AnnchainOG.Dag.execute, sameHeight, sameState, ← executionOrder_view]
    exact executedTxs
  have finished := AnnchainOG.Dag.push_of_executed (sameHeight ▸ height) execute
  have executedView : AnnchainOG.processTransaction ovm ledger.latestSequencer.base.height between
      batch.view.seq.txi = .ok (.ok seq.view, last) := by
    rw [sameHeight]
    exact executedSeq
  simp only [executedView, commits] at finished
  obtain rfl := StateDB.commit_ok commits
  exact ⟨_, finished, rfl, rfl⟩

end Views

end AnnchainOG.Wire
