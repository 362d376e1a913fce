import AnnchainOG.Pool.Flows
import Mathlib.Data.List.AList

/-!
# The transaction pool

A sequencer confirms its ancestors among the pooled transactions, and what is left is judged anew.
Where only the error depends on the order of a map, the model takes the order of discovery.
-/

namespace AnnchainOG

inductive TxType where
  | genesis
  | localTx
  | remote
  | rejudge
  deriving DecidableEq

inductive TxStatus where
  | notExist
  | queue
  | tip
  | badTx
  | pending
  deriving DecidableEq

def poolRejudgeThreshold : Nat := 10

structure TxEnvelope where
  tx : Txi
  txType : TxType
  status : TxStatus
  judgeNum : Nat

inductive HashOrderRemoveType where
  | noRemove
  | removeFromFront
  | removeFromEnd
  deriving DecidableEq

structure TxLookUp where
  order : List Hash
  txs : GoMap Hash TxEnvelope

variable (lookup : TxLookUp) (h : Hash)

namespace TxLookUp

def empty : TxLookUp := ⟨[], ∅⟩

def getEnvelope : Option TxEnvelope :=
  lookup.txs.get? h

def get : Option Txi :=
  (lookup.getEnvelope h).map TxEnvelope.tx

def status : TxStatus :=
  ((lookup.getEnvelope h).map TxEnvelope.status).getD .notExist

def add (txEnv : TxEnvelope) : TxLookUp :=
  if lookup.txs.contains txEnv.tx.getTxHash then lookup
  else
    { order := lookup.order ++ [txEnv.tx.getTxHash]
      txs := lookup.txs.set txEnv.tx.getTxHash txEnv }

def remove (removeType : HashOrderRemoveType) : TxLookUp where
  order := match removeType with
    | .noRemove => lookup.order
    | .removeFromFront => lookup.order.erase h
    | .removeFromEnd => (lookup.order.reverse.erase h).reverse
  txs := lookup.txs.delete h

def removeTxFromMapOnly : TxLookUp :=
  { lookup with txs := lookup.txs.delete h }

def switchStatus (status : TxStatus) : TxLookUp :=
  match lookup.getEnvelope h with
  | none => lookup
  | some txEnv => { lookup with txs := lookup.txs.set h { txEnv with status := status } }

end TxLookUp

abbrev TxMap := GoMap Hash Txi

def TxMap.add (map : TxMap) (tx : Txi) : TxMap :=
  if map.contains tx.getTxHash then map else map.set tx.getTxHash tx

/-- What `PreConfirm` would keep. It returns before it gets there. -/
structure CachedConfirm where
  seqHash : Hash
  txs : List Txi

structure TxPool where
  dag : Dag
  tips : TxMap
  badtxs : TxMap
  pendings : TxMap
  flows : AccountFlows
  txLookup : TxLookUp
  cached : Option CachedConfirm
  maxWeight : UInt64

inductive PoolError where
  | duplicateTx
  | surelyIncorrect (hash : Hash)
  | duplicateSeqNonce (existing : Txi)
  | seqHeightMismatch (height oldHeight : UInt64)
  | elderNotFound (hash : Hash)
  | seqNonceConfirmed (nonce : UInt64) (hash : Hash)
  | balanceNotEnough (addr : Address)
  | nonceNotNext (nonce latestNonce : UInt64) (addr : Address)
  | nonceOrderMismatch (addr : Address) (preNonce curNonce : UInt64)
  | seqNonceNotNext (nonce latestNonce : UInt64)
  | push (step : PushStep)
  deriving DecidableEq

inductive Stop where
  | error (error : PoolError)
  | panic (panic : Panic)
  deriving DecidableEq

def Stop.lift {α : Type} : Except Panic α → Except Stop α
  | .ok value => .ok value
  | .error crash => .error (.panic crash)

inductive TxQuality where
  | isBad
  | isGood
  | isFatal
  deriving DecidableEq

variable (pool : TxPool) (seq : Sequencer) (tx : Txi)

namespace TxPool

def init (dag : Dag) (genesis : Sequencer) : TxPool where
  dag := dag
  tips := TxMap.add ∅ genesis.txi
  badtxs := ∅
  pendings := ∅
  flows := ∅
  txLookup := TxLookUp.empty.add ⟨genesis.txi, .genesis, .tip, 1⟩
  cached := none
  maxWeight := 0

def get (hash : Hash) : Option Txi :=
  pool.txLookup.get hash

def getStatus (hash : Hash) : TxStatus :=
  pool.txLookup.status hash

/-! ## Admission -/

/-- The first part of `isBadTx`; `isGood` goes on. -/
def parentsQuality (pool : TxPool) : List Hash → TxQuality
  | [] => .isGood
  | parentHash :: rest =>
    if (pool.get parentHash).isSome then
      if pool.getStatus parentHash = .badTx then .isBad else pool.parentsQuality rest
    else if (pool.dag.getTx parentHash).isNone then .isFatal
    else pool.parentsQuality rest

/-- The second part of `isBadTx`; `isGood` goes on. -/
def nonceQuality (sender : Address) (tx : Txi) : TxQuality :=
  match pool.flows.getTxByNonce sender tx.getNonce with
  | some txinpool => if txinpool.getTxHash = tx.getTxHash then .isFatal else .isBad
  | none =>
    if (pool.dag.getTxByNonce sender tx.getNonce).isSome then .isFatal
    else
      let latestNonce :=
        (pool.flows.getLatestNonce sender).getD (pool.dag.getLatestNonce sender)
      if tx.getNonce ≠ latestNonce + 1 then .isFatal else .isGood

def transferQuality (tx : Tx) : TxQuality :=
  let stateFrom := (pool.flows.getBalanceState tx.sender tx.tokenId).getD
    (newBalanceState (pool.dag.getBalance tx.sender tx.tokenId))
  if tx.value > stateFrom.originBalance then .isFatal
  else if stateFrom.spent + tx.value > stateFrom.originBalance then .isBad
  else .isGood

def spoQuality (sender : Address) (offering : PublicOffering) : TxQuality :=
  if offering.tokenId = ogTokenID then .isFatal
  else
    match pool.dag.getToken offering.tokenId with
    | none => .isFatal
    | some token =>
      if !token.reIssuable then .isFatal
      else if token.destroyed then .isFatal
      else if token.issuer ≠ sender then .isFatal
      else .isGood

def destroyQuality (sender : Address) (offering : PublicOffering) : TxQuality :=
  if offering.tokenId = ogTokenID then .isFatal
  else
    match pool.dag.getToken offering.tokenId with
    | none => .isFatal
    | some token =>
      if token.destroyed then .isFatal
      else if token.issuer ≠ sender then .isFatal
      else .isGood

def actionQuality (actionTx : ActionTx) : Except Panic TxQuality :=
  if actionTx.action = actionTxActionSPO then
    match actionTx.actionData with
    | .publicOffering offering => .ok (pool.spoQuality actionTx.sender offering)
    | .requestDomain _ => .error .typeAssertion
  else if actionTx.action = actionTxActionDestroy then
    match actionTx.actionData with
    | .publicOffering offering => .ok (pool.destroyQuality actionTx.sender offering)
    | .requestDomain _ => .error .typeAssertion
  else .ok .isGood

/-- The third part of `isBadTx`, by concrete kind. -/
def contentQuality : Except Panic TxQuality :=
  match tx.body with
  | .tx tx => .ok (pool.transferQuality tx)
  | .action actionTx => pool.actionQuality actionTx
  | .sequencer _ | .campaign _ | .termChange _ | .archive => .ok .isGood

def isBadTx : Except Panic TxQuality :=
  match pool.parentsQuality tx.parents with
  | .isBad => .ok .isBad
  | .isFatal => .ok .isFatal
  | .isGood =>
    if tx.getType = .archive then .ok .isGood
    else do
      let sender ← tx.sender
      match pool.nonceQuality sender tx with
      | .isBad => .ok .isBad
      | .isFatal => .ok .isFatal
      | .isGood => pool.contentQuality tx

def remove (removeType : HashOrderRemoveType) : Except Panic TxPool := do
  let hash := tx.getTxHash
  let pool ← match pool.getStatus hash with
    | .badTx => .ok { pool with badtxs := pool.badtxs.delete hash }
    | .tip => do
        let flows ← pool.flows.remove tx
        .ok { pool with tips := pool.tips.delete hash, flows := flows }
    | .pending => do
        let flows ← pool.flows.remove tx
        .ok { pool with pendings := pool.pendings.delete hash, flows := flows }
    | .notExist | .queue => .ok pool
  return { pool with txLookup := pool.txLookup.remove hash removeType }

/-- A tip with a child becomes pending; a sequencer leaves the pool instead. -/
def moveParent (pHash : Hash) : TxPool :=
  if pool.getStatus pHash ≠ .tip then pool
  else
    match pool.tips.get? pHash with
    | none => pool
    | some parent =>
      if parent.getType = .sequencer then
        { pool with
          tips := pool.tips.delete pHash
          txLookup := pool.txLookup.remove pHash .removeFromFront }
      else
        { pool with
          tips := pool.tips.delete pHash
          pendings := TxMap.add pool.pendings parent
          txLookup := pool.txLookup.switchStatus pHash .pending }

def addTip : Except Panic TxPool := do
  let flows ← if tx.getType = .archive then .ok pool.flows
    else do
      let sender ← tx.sender
      AccountFlows.add pool.dag (pool.flows.ensureFlow sender) tx
  return { pool with
    flows := flows
    tips := TxMap.add pool.tips tx
    txLookup := pool.txLookup.switchStatus tx.getTxHash .tip }

def commit : Except Panic (Except PoolError Unit × TxPool) := do
  match ← pool.isBadTx tx with
  | .isFatal =>
    let pool ← pool.remove tx .removeFromEnd
    return (.error (.surelyIncorrect tx.getTxHash), pool)
  | .isBad =>
    return (.ok (), { pool with
      badtxs := TxMap.add pool.badtxs tx
      txLookup := pool.txLookup.switchStatus tx.getTxHash .badTx })
  | .isGood =>
    let pool ← (tx.parents.foldl moveParent pool).addTip tx
    return (.ok (), pool)

/-! ## The batch of a sequencer -/

def isBadSeq : Except Stop Unit :=
  match pool.dag.getTxByNonce seq.issuer seq.base.accountNonce with
  | some seqindag => .error (.error (.duplicateSeqNonce seqindag))
  | none =>
    let oldHeight := pool.dag.latestSequencer.base.height
    if oldHeight + 1 ≠ seq.base.height then
      .error (.error (.seqHeightMismatch seq.base.height oldHeight))
    else .ok ()

def queueParents (seekingPool inSeekingPool : List Hash) : List Hash → List Hash × List Hash
  | [] => (seekingPool, inSeekingPool)
  | parentHash :: rest =>
    if parentHash ∈ inSeekingPool then queueParents seekingPool inSeekingPool rest
    else queueParents (seekingPool ++ [parentHash]) (parentHash :: inSeekingPool) rest

/-- The loop of `seekElders`, as far as `fuel` turns go. -/
def seekLoop (pool : TxPool) : Nat → List Hash → List Hash → List Txi →
    Option (Except Stop (List Txi))
  | _, [], _, batch => some (.ok batch)
  | 0, _ :: _, _, _ => none
  | fuel + 1, elderHash :: seekingPool, inSeekingPool, batch =>
    match pool.get elderHash with
    | none =>
      if (pool.dag.getTx elderHash).isNone then
        some (.error (.error (.elderNotFound elderHash)))
      else pool.seekLoop fuel seekingPool inSeekingPool batch
    | some elder =>
      let batch :=
        if batch.any fun other => other.getTxHash == elder.getTxHash then batch
        else batch ++ [elder]
      let (seekingPool, inSeekingPool) := queueParents seekingPool inSeekingPool elder.parents
      pool.seekLoop fuel seekingPool inSeekingPool batch

def seekFuel (baseTx : Txi) : Nat :=
  baseTx.parents.length +
    (pool.txLookup.txs.entries.map fun entry => entry.2.tx.parents.length).sum

def seekElders (baseTx : Txi) : Except Stop (List Txi) :=
  (pool.seekLoop (pool.seekFuel baseTx) baseTx.parents [] []).getD (.ok [])

structure BatchDetail where
  txList : TxList
  neg : AList fun _ : TokenId => Int

namespace BatchDetail

def empty : BatchDetail := ⟨.empty, ∅⟩

def put (detail : BatchDetail) (tx : Txi) : BatchDetail :=
  { detail with txList := detail.txList.put tx }

def addNeg (detail : BatchDetail) (tokenID : TokenId) (amount : Int) : BatchDetail :=
  { detail with
    neg := detail.neg.insert tokenID ((detail.neg.lookup tokenID).getD 0 + amount) }

end BatchDetail

abbrev BatchDetails := AList fun _ : Address => BatchDetail

def collectElder (batch : BatchDetails) (txi : Txi) : Except Stop BatchDetails :=
  if txi.getType = .archive then .ok batch
  else do
    let sender ← Stop.lift txi.sender
    if sender = seq.issuer ∧ txi.getNonce = seq.base.accountNonce then
      .error (.error (.seqNonceConfirmed seq.base.accountNonce txi.getTxHash))
    else
      let batchFrom := (batch.lookup sender).getD .empty
      match txi.body with
      | .sequencer _ => .ok batch
      | .tx tx => .ok (batch.insert sender ((batchFrom.put txi).addNeg tx.tokenId tx.value))
      | .campaign _ | .termChange _ | .archive | .action _ =>
        .ok (batch.insert sender (batchFrom.put txi))

def checkBalances (pool : TxPool) (addr : Address) : List (Sigma fun _ : TokenId => Int) →
    Except Stop Unit
  | [] => .ok ()
  | ⟨tokenID, spent⟩ :: rest =>
    if pool.dag.getBalance addr tokenID < spent then .error (.error (.balanceNotEnough addr))
    else pool.checkBalances addr rest

def checkNonceOrder (addr : Address) : List UInt64 → Except Stop Unit
  | preNonce :: curNonce :: rest =>
    if curNonce ≠ preNonce + 1 then
      .error (.error (.nonceOrderMismatch addr preNonce curNonce))
    else checkNonceOrder addr (curNonce :: rest)
  | _ => .ok ()

/-- `nonces` is not empty. -/
def verifyNonce (addr : Address) (nonces : List UInt64) (seq : Sequencer) : Except Stop Unit := do
  let nonces := nonces.insertionSort (· ≤ ·)
  let latestNonce := pool.dag.getLatestNonce addr
  let first := nonces.headD 0
  let last := nonces.getLastD 0
  if first ≠ latestNonce + 1 then .error (.error (.nonceNotNext first latestNonce addr))
  else do
    checkNonceOrder addr nonces
    if seq.issuer = addr ∧ seq.base.accountNonce ≠ last + 1 then
      .error (.error (.seqNonceNotNext seq.base.accountNonce last))
    else .ok ()

def verifyDetails (pool : TxPool) (seq : Sequencer) : List (Sigma fun _ : Address => BatchDetail) →
    Except Stop Unit
  | [] => .ok ()
  | ⟨addr, detail⟩ :: rest => do
      pool.checkBalances addr detail.neg.entries
      if detail.txList.txflow ≠ [] then pool.verifyNonce addr detail.txList.keys seq
      pool.verifyDetails seq rest

def verifyConfirmBatch (elders : List Txi) : Except Stop ConfirmBatch := do
  let batch ← elders.foldlM (collectElder seq) ∅
  pool.verifyDetails seq batch.entries
  return ⟨seq, elders.filter fun txi => txi.getType ≠ .sequencer⟩

def confirmHelper : Except Stop ConfirmBatch := do
  pool.isBadSeq seq
  let elders ← pool.seekElders seq.txi
  pool.verifyConfirmBatch seq elders

/-! ## Confirmation -/

/-- Judge the remaining transactions again, each at most a fixed number of times. -/
def rejudge (pool : TxPool) : List TxEnvelope → Except Panic TxPool
  | [] => .ok pool
  | txEnv :: rest =>
    if txEnv.judgeNum ≥ poolRejudgeThreshold then pool.rejudge rest
    else do
      let txEnv := { txEnv with
        txType := .rejudge
        status := .queue
        judgeNum := txEnv.judgeNum + 1 }
      let (_, pool) ← { pool with txLookup := pool.txLookup.add txEnv }.commit txEnv.tx
      pool.rejudge rest

def clearAll : TxPool :=
  { pool with badtxs := ∅, tips := ∅, pendings := ∅, flows := ∅, txLookup := .empty }

def txsInPool : List TxEnvelope :=
  (lookup.order.filterMap lookup.getEnvelope).filter fun txEnv => txEnv.tx.getType ≠ .sequencer

def solveConflicts (batch : ConfirmBatch) : Except Panic TxPool := do
  let lookup := batch.txs.foldl (fun lookup tx => lookup.removeTxFromMapOnly tx.getTxHash)
    pool.txLookup
  let pool ← pool.clearAll.rejudge (txsInPool lookup)
  match lookup.getEnvelope batch.seq.base.hash with
  | none => return pool
  | some seqEnv => return { pool with txLookup := pool.txLookup.add seqEnv }

/-- `confirm` after `Push`: the sequencer becomes a tip. -/
def settle (batch : ConfirmBatch) : Except Panic TxPool := do
  let pool ← pool.solveConflicts batch
  let flows := pool.flows.ensureFlow batch.seq.issuer
  let flows ← AccountFlows.add pool.dag flows batch.seq.txi
  return { pool with
    flows := flows
    tips := TxMap.add pool.tips batch.seq.txi
    txLookup := pool.txLookup.switchStatus batch.seq.base.hash .tip }

def batchOf : Except Stop ConfirmBatch :=
  match pool.cached with
  | some cached =>
    if seq.base.hash = cached.seqHash then .ok ⟨seq, cached.txs⟩ else pool.confirmHelper seq
  | none => pool.confirmHelper seq

/-- Returns the batch it confirmed, which the source hands to its subscribers. -/
def confirm (ovm : Ovm) (failing : PushStep → Bool) (pool : TxPool) (seq : Sequencer) :
    Except Panic (Except PoolError ConfirmBatch × TxPool) :=
  match pool.batchOf seq with
  | .error (.panic panic) => .error panic
  | .error (.error error) => .ok (.error error, pool)
  | .ok batch =>
    let pool := { pool with cached := none }
    match pool.dag.push ovm failing batch with
    | .crashed panic | .panicked _ panic => .error panic
    | .failed step dag => .ok (.error (.push step), { pool with dag := dag })
    | .done dag => do
        let pool ← { pool with dag := dag }.settle batch
        return (.ok batch, pool)

def enqueue (txType : TxType) (tx : Txi) : TxPool :=
  { pool with txLookup := pool.txLookup.add ⟨tx, txType, .queue, 1⟩ }

def raiseWeight : TxPool :=
  if pool.maxWeight < tx.getWeight then { pool with maxWeight := tx.getWeight } else pool

/-- One turn of `loop`. A sequencer answers with the batch it confirmed. -/
def submit (ovm : Ovm) (failing : PushStep → Bool) (pool : TxPool) (txType : TxType) (tx : Txi) :
    Except Panic (Except PoolError (Option ConfirmBatch) × TxPool) :=
  if (pool.get tx.getTxHash).isSome then .ok (.error .duplicateTx, pool)
  else
    let pool := pool.enqueue txType tx
    match tx.body with
    | .sequencer issuer => do
        let (answer, pool) ← pool.confirm ovm failing ⟨tx.base, issuer⟩
        match answer with
        | .error error =>
          let lookup := pool.txLookup.remove tx.getTxHash .removeFromEnd
          return (.error error, { pool with txLookup := lookup })
        | .ok batch => return (.ok (some batch), pool.raiseWeight tx)
    | .tx _ | .campaign _ | .termChange _ | .archive | .action _ => do
        let (answer, pool) ← pool.commit tx
        match answer with
        | .error error => return (.error error, pool)
        | .ok () => return (.ok none, pool.raiseWeight tx)

end TxPool

end AnnchainOG
