import AnnchainOG.Ledger.Transaction
import AnnchainOG.State.StateDB

/-!
# The confirmed ledger

Which writes fail is a parameter. So is the virtual machine, which touches no token and reverts only
to snapshots it took itself.
-/

namespace AnnchainOG

/-! ## The key/value store -/

structure Database where
  transactions : GoMap Hash Txi
  txHashFlow : GoMap (Address × UInt64) Hash

/-- The writes of a batch that are read back later. -/
inductive Put where
  | transaction (tx : Txi)
  | txHashByNonce (addr : Address) (nonce : UInt64) (hash : Hash)

variable (db : Database)

namespace Database

def readTransaction (hash : Hash) : Option Txi :=
  db.transactions.get? hash

def readTxByNonce (addr : Address) (nonce : UInt64) : Option Txi :=
  (db.txHashFlow.get? (addr, nonce)).bind db.readTransaction

def put : Put → Database
  | .transaction tx => { db with transactions := db.transactions.set tx.getTxHash tx }
  | .txHashByNonce addr nonce hash =>
    { db with txHashFlow := db.txHashFlow.set (addr, nonce) hash }

def write (puts : List Put) : Database :=
  puts.foldl put db

def deleteTransaction (hash : Hash) : Database :=
  { db with transactions := db.transactions.delete hash }

end Database

structure TxCached where
  maxsize : Nat
  order : List Hash
  txs : GoMap Hash Txi

namespace TxCached

def get (cache : TxCached) (hash : Hash) : Option Txi :=
  cache.txs.get? hash

def add (cache : TxCached) (tx : Txi) : TxCached :=
  if cache.txs.contains tx.getTxHash then cache
  else
    let cache :=
      if cache.order.length ≥ cache.maxsize then
        match cache.order with
        | [] => cache
        | fstHash :: order => { cache with order := order, txs := cache.txs.delete fstHash }
      else cache
    { cache with
      order := cache.order ++ [tx.getTxHash]
      txs := cache.txs.set tx.getTxHash tx }

end TxCached

structure Dag where
  statedb : StateDB
  db : Database
  txcached : TxCached
  latestSequencer : Sequencer

variable (dag : Dag)

namespace Dag

def getTx (hash : Hash) : Option Txi :=
  (dag.txcached.get hash).or (dag.db.readTransaction hash)

def getTxByNonce (addr : Address) (nonce : UInt64) : Option Txi :=
  dag.db.readTxByNonce addr nonce

def getBalance (addr : Address) (tokenID : TokenId) : Int :=
  dag.statedb.getBalance addr tokenID

def getLatestNonce (addr : Address) : UInt64 :=
  dag.statedb.getNonce addr

def getToken (tokenId : TokenId) : Option TokenData :=
  if tokenId > dag.statedb.latestTokenID then none else dag.statedb.getToken tokenId

end Dag

/-! ## The virtual machine -/

structure VmCall where
  caller : Address
  toAddress : Address
  value : Int
  data : Bytes
  sequenceID : UInt64

structure Ovm where
  exec : VmCall → StateDB → Except Panic (Except String Unit × StateDB)
  driven : ∀ {call sd result after}, exec call sd = .ok (result, after) →
    ∃ ops : List Op,
      (∀ op ∈ ops, op.staysAbove sd.journal.snapshotSet.length = true ∧ op.isToken = false) ∧
      sd.run ops = .ok after

def Ovm.idle : Ovm where
  exec _ sd := .ok (.ok (), sd)
  driven ran := by
    cases ran
    exact ⟨[], by simp, rfl⟩

/-! ## Execution -/

inductive ProcessError where
  | token (error : TokenError)
  | unknownAction (action : UInt8)
  | vm (message : String)

def ProcessError.message : ProcessError → String
  | .token error => "process action tx error: " ++ error.message
  | .unknownAction action => s!"process action tx error: unknown tx action: {action}"
  | .vm message => "vm processing error: " ++ message

/-- The data is asserted to be an offering before the action is looked at. -/
def processTokenTransaction (sd : StateDB) (tx : Txi) (actionTx : ActionTx) :
    Except Panic (Except ProcessError Txi × StateDB) :=
  match actionTx.actionData with
  | .requestDomain _ => .error .typeAssertion
  | .publicOffering offering =>
    if actionTx.action = actionTxActionIPO then
      let (issued, sd) := sd.issueToken actionTx.sender offering.tokenName [] offering.enableSPO
        offering.value
      match issued with
      | .error error => .ok (.error (.token error), sd)
      | .ok tokenID =>
        let offering := { offering with tokenId := tokenID }
        .ok (.ok { tx with
          body := .action { actionTx with actionData := .publicOffering offering } }, sd)
    else if actionTx.action = actionTxActionSPO then do
      let (answer, sd) ← sd.reIssueToken offering.tokenId offering.value
      return (match answer with
        | .error error => .error (.token error)
        | .ok () => .ok tx, sd)
    else if actionTx.action = actionTxActionDestroy then do
      let (answer, sd) ← sd.destroyToken offering.tokenId
      return (match answer with
        | .error error => .error (.token error)
        | .ok () => .ok tx, sd)
    else .ok (.error (.unknownAction actionTx.action), sd)

def transfer (sd : StateDB) (tx : Tx) : StateDB :=
  if tx.value ≠ 0 ∧ tx.toAddress ≠ emptyAddress then
    (sd.subBalance tx.sender tx.tokenId tx.value).addBalance tx.toAddress tx.tokenId tx.value
  else sd

def processNormal (ovm : Ovm) (sequenceID : UInt64) (sd : StateDB) (txi : Txi) (tx : Tx) :
    Except Panic (Except ProcessError Txi × StateDB) :=
  let sd := transfer sd tx
  if tx.data = [] then .ok (.ok txi, sd)
  else do
    let (answer, sd) ← ovm.exec ⟨tx.sender, tx.toAddress, tx.value, tx.data, sequenceID⟩ sd
    return (match answer with
      | .error message => .error (.vm message)
      | .ok () => .ok txi, sd)

def updateNonce (sd : StateDB) (sender : Address) (nonce : UInt64) : StateDB :=
  let sd := (sd.getStateObject sender).2
  if !sd.exist sender || nonce > sd.getNonce sender then sd.setNonce sender nonce else sd

def processTransaction (ovm : Ovm) (sequenceID : UInt64) (sd : StateDB) (tx : Txi) :
    Except Panic (Except ProcessError Txi × StateDB) :=
  if tx.getType = .archive then .ok (.ok tx, sd)
  else do
    let sender ← tx.sender
    let sd := updateNonce sd sender tx.getNonce
    match tx.getType, tx.body with
    | .action, .action actionTx => processTokenTransaction sd tx actionTx
    | .action, _ => .error .typeAssertion
    | .normal, .tx normal => processNormal ovm sequenceID sd tx normal
    | .normal, _ => .error .typeAssertion
    | .sequencer, _ | .campaign, _ | .termChange, _ | .archive, _ | .other _, _ => .ok (.ok tx, sd)

def processAll (ovm : Ovm) (sequenceID : UInt64) (sd : StateDB) :
    List Txi → Except Panic (Except ProcessError (List Txi) × StateDB)
  | [] => .ok (.ok [], sd)
  | tx :: txs => do
      let (answer, sd) ← processTransaction ovm sequenceID sd tx
      match answer with
      | .error error => return (.error error, sd)
      | .ok tx =>
        let (rest, sd) ← processAll ovm sequenceID sd txs
        return (rest.map (tx :: ·), sd)

/-! ## Push -/

/-- The places where `push` can return an error. -/
inductive PushStep where
  | height
  | process
  | writeTransaction (index : Nat)
  | writeSequencer
  | processSequencer
  | writeReceipts
  | stateCommit
  | flushTrie
  | writeSequencerByHeight
  | writeLatestSequencer
  | writeBatch
  deriving DecidableEq

/-- Done, an error returned at a step, a panic on the error of a step, or a panic of what is
executed. -/
inductive PushOutcome where
  | done (dag : Dag)
  | failed (step : PushStep) (dag : Dag)
  | panicked (step : PushStep) (panic : Panic)
  | crashed (panic : Panic)

namespace Dag

/-- The writes go to the batch; the cache is filled at once. Nothing of it happens if a write
fails. -/
def writeTransaction (puts : List Put) (tx : Txi) (fails : Bool) :
    Except Panic (Option (Dag × List Put)) := do
  let flow ← if tx.getType = .archive then pure []
    else do
      let sender ← tx.sender
      pure [Put.txHashByNonce sender tx.getNonce tx.getTxHash]
  if fails then return none
  else return some ({ dag with txcached := dag.txcached.add tx },
    puts ++ flow ++ [.transaction tx])

def revert (step : PushStep) (snapShotID : Nat) (txs : List Txi) : PushOutcome :=
  match dag.statedb.revertToSnapshot snapShotID with
  | .error panic => .panicked step panic
  | .ok statedb =>
    .failed step { dag with
      statedb := statedb
      db := txs.foldl (fun db tx => db.deleteTransaction tx.getTxHash) dag.db }

inductive Written where
  | ok (dag : Dag) (puts : List Put)
  | ended (outcome : PushOutcome)

/-- The loop of `push` that writes the transactions; `writedTxs` are those already written. -/
def writeAll (fails : PushStep → Bool) (snapShotID : Nat) (dag : Dag) (puts : List Put)
    (writedTxs : List Txi) : List Txi → Written
  | [] => .ok dag puts
  | tx :: txs =>
    match dag.writeTransaction puts tx (fails (.writeTransaction writedTxs.length)) with
    | .error panic => .ended (.crashed panic)
    | .ok none =>
      .ended (dag.revert (.writeTransaction writedTxs.length) snapShotID writedTxs)
    | .ok (some (dag, puts)) => dag.writeAll fails snapShotID puts (writedTxs ++ [tx]) txs

def finish (fails : PushStep → Bool) (snapShotID : Nat) (dag : Dag) (puts : List Put)
    (seq : Sequencer) : PushOutcome :=
  if fails .stateCommit then .failed .stateCommit dag
  else
    match dag.statedb.commit with
    | .error panic => .crashed panic
    | .ok statedb =>
      let dag := { dag with statedb := statedb.clearJournalAndRefund }
      if fails .flushTrie then
        match dag.statedb.revertToSnapshot snapShotID with
        | .error panic => .panicked .flushTrie panic
        | .ok statedb => .failed .flushTrie { dag with statedb := statedb }
      else if fails .writeSequencerByHeight then .failed .writeSequencerByHeight dag
      else if fails .writeLatestSequencer then .failed .writeLatestSequencer dag
      else if fails .writeBatch then .failed .writeBatch dag
      else .done { dag with db := dag.db.write puts, latestSequencer := seq }

def pushSequencer (ovm : Ovm) (fails : PushStep → Bool) (snapShotID : Nat) (dag : Dag)
    (puts : List Put) (seq : Sequencer) : PushOutcome :=
  match dag.writeTransaction puts seq.txi (fails .writeSequencer) with
  | .error panic => .crashed panic
  | .ok none => .failed .writeSequencer dag
  | .ok (some (dag, puts)) =>
    match processTransaction ovm dag.latestSequencer.base.height dag.statedb seq.txi with
    | .error panic => .crashed panic
    | .ok (.error _, statedb) => .failed .processSequencer { dag with statedb := statedb }
    | .ok (.ok _, statedb) =>
      let dag := { dag with statedb := statedb }
      if fails .writeReceipts then .failed .writeReceipts dag
      else dag.finish fails snapShotID puts seq

def push (ovm : Ovm) (fails : PushStep → Bool) (dag : Dag) (batch : ConfirmBatch) : PushOutcome :=
  if dag.latestSequencer.base.height + 1 ≠ batch.seq.base.height then .failed .height dag
  else
    let txs := (sortTxis batch.txs).map (·.setHeight batch.seq.base.height)
    let (sId, statedb) := dag.statedb.snapshot
    match processAll ovm dag.latestSequencer.base.height statedb txs with
    | .error panic => .crashed panic
    | .ok (.error _, statedb) => { dag with statedb := statedb }.revert .process sId []
    | .ok (.ok txs, statedb) =>
      match { dag with statedb := statedb }.writeAll fails sId [] [] txs with
      | .ended outcome => outcome
      | .ok dag puts => dag.pushSequencer ovm fails sId puts batch.seq

end Dag

end AnnchainOG
