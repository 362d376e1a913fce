import AnnchainOG.Consensus.Messages
import AnnchainOG.Intake.Routes
import AnnchainOG.Pool.Elders

/-!
# The two buffers

Transactions reach the pool through the transaction buffer, which keeps them until their parents are
there, or in batches through the sync buffer.
-/

namespace AnnchainOG.Wire

open Multiset

/-!
## The consensus module
-/

structure Bls (κ : Type) where
  unmarshalBinaryPointG2 : Bytes → Option κ
  verify : κ → Bytes → Bytes → Bool

/-- The joint public keys of the term and of the one before it; `none` where it is nil. -/
structure Dkg (κ : Type) where
  termId : Int
  partner : Option κ
  formerPartner : Option κ

structure AnnSensus (κ : Type) where
  dkg : Dkg κ
  /-- The term of the agreement that is running. -/
  dkgTermId : Int
  isSenator : Address → Bool
  started : Bool
  verifyCampaign : Campaign → Option Bool
  verifyTermChange : TermChange → Option Bool
  bftStarted : Bool
  partners : List Bytes
  recoverAndVerifySignature : List Bytes → Bytes → Option Bytes

section Consensus

variable {κ : Type} [DecidableEq κ] (bls : Bls κ)

/-- Verifiers answer `none` where they do not come back. -/
def Dkg.verifyBlsSig (d : Dkg κ) (msg sig jointPub : Bytes) (termId : Int) : Option Bool :=
  match bls.unmarshalBinaryPointG2 jointPub with
  | none => some false
  | some pubKey =>
    (if termId < d.termId then d.formerPartner else d.partner).map fun jointPubKey =>
      pubKey = jointPubKey && bls.verify pubKey msg sig

/-- A first sequencer waits on when the term has started: the `break` leaves the `select` only. -/
def AnnSensus.verifySequencer (a : AnnSensus κ) (seq : Sequencer) : Option Bool :=
  match seq.issuer with
  | none => none
  | some sender =>
    if !a.isSenator sender then some false
    else if seq.proposing then some true
    else if !a.started then if seq.base.height > 1 then some false else none
    else a.dkg.verifyBlsSig bls (hashBytes seq.base.hash) seq.blsJointSig seq.blsJointPubKey
      a.dkgTermId

/-- The verifier of the consensus module, which goes by what a transaction is, not by its tag. -/
def AnnSensus.verify (a : AnnSensus κ) : Txi → Option Bool
  | .tx _ | .archive _ | .action _ => some true
  | .sequencer seq => a.verifySequencer bls seq
  | .campaign campaign => a.verifyCampaign campaign
  | .termChange termChange => a.verifyTermChange termChange

end Consensus

/-!
## Proposals
-/

/-- It is the turn of the source, and the key is the source's. -/
def AnnSensus.verifyProposal {κ : Type} (a : AnnSensus κ)
    (request : Bft.MessageProposal Sequencer) (publicKey : Bytes) : Bool :=
  let id := Bft.proposer a.partners.length request.heightRound
  id % 2 ^ 16 = request.sourceId.toNat && 0 ≤ id && a.partners[id.toNat]? = some publicKey

/-- An accepted proposal is handed on as a flagged copy; one without a value is dropped. -/
def AnnSensus.handleConsensusProposal {κ : Type} (crypto : Crypto) (a : AnnSensus κ)
    (request : Option (Bft.MessageProposal Sequencer)) : Option Txi :=
  match request with
  | none => none
  | some request =>
    let seq := request.value
    if !a.bftStarted then none
    else if !crypto.verify seq.base.publicKey request.signature request.signatureTargets then none
    else if !a.verifyProposal request seq.base.publicKey then none
    else some (.sequencer { seq with proposing := true })

/-!
## Verifiers
-/

inductive AddResult where
  | added
  | duplicate
  | refused
  deriving DecidableEq

structure Moment (κ : Type) where
  isLocalHash : Hash → Bool
  verifyGraph : Received → Option Bool
  addRemoteTx : Txi → AddResult
  height : UInt64
  syncEnabled : Bool
  cacheNewTxEnabled : Bool
  annSensus : AnnSensus κ

inductive Verifier where
  | format
  | graph
  | consensus
  deriving DecidableEq

def Verifier.independent : Verifier → Bool
  | .format => true
  | .graph | .consensus => false

structure Setup (κ : Type) where
  crypto : Crypto
  bls : Bls κ
  format : TxFormatVerifier

section Verifiers

variable {κ : Type} [DecidableEq κ] (setup : Setup κ) (now : Moment κ)

def Verifier.verify (t : Received) : Verifier → Option (Bool × Received)
  | .format => (setup.format.verify setup.crypto t).toOption
  | .graph => (now.verifyGraph t).map fun ok =>
    (ok, if ok then { t with verified := t.verified.merge .graph } else t)
  | .consensus => (now.annSensus.verify setup.bls t.tx).map fun ok => (ok, t)

def verifyAll (t : Received) : List Verifier → Option (Bool × Received)
  | [] => some (true, t)
  | verifier :: rest => do
      let (ok, t) ← verifier.verify setup now t
      if ok then verifyAll t rest else return (false, t)

def verifyEvery (t : Received) : List Verifier → Option (Bool × Received)
  | [] => some (true, t)
  | verifier :: rest => do
      let (ok, t) ← verifier.verify setup now t
      let (others, t) ← verifyEvery t rest
      return (ok && others, t)

end Verifiers

/-!
## The transaction buffer
-/

/-- Transactions wait under the hashes of their parents, at most once under each. -/
structure TxBuffer where
  verifiers : List Verifier
  testNoVerify : Bool
  knownCache : GoMap Hash Received
  dependencyCache : GoMap Hash (List Received)

/-- The calls a goroutine of the buffer has to make yet. -/
inductive Call where
  | handleTx
  | buildDependencies
  | niceTx
  | resolve
  | tryResolve
  | release
  deriving DecidableEq

structure Task where
  call : Call
  tx : Received
  deriving DecidableEq

/-- What a call does: the calls it leads to, and what it offers to the pool. -/
structure Turn where
  buffer : TxBuffer
  calls : List Task
  offered : List Txi

def Txi.isProposal (tx : Txi) : Option Bool :=
  if tx.getType = txBaseTypeSequencer then
    match tx with
    | .sequencer seq => some seq.proposing
    | _ => none
  else some false

namespace TxBuffer

variable {κ : Type} [DecidableEq κ] (setup : Setup κ) (now : Moment κ) (b : TxBuffer)

def isBufferedHash (hash : Hash) : Bool :=
  b.knownCache.contains hash

def isKnownHash (hash : Hash) : Bool :=
  b.isBufferedHash hash || now.isLocalHash hash

def updateDependencyMap (parentHash : Hash) (self : Received) : TxBuffer :=
  let waiting := (b.dependencyCache.get? parentHash).getD []
  let others := waiting.filter fun other => other.tx.base.hash ≠ self.tx.base.hash
  { b with dependencyCache := b.dependencyCache.set parentHash (self :: others) }

/-- The verifiers that are independent of the graph, or the others. -/
def check (independent : Bool) (t : Received) : Option (Bool × Received) :=
  if b.testNoVerify then some (true, t)
  else verifyAll setup now t (b.verifiers.filter fun verifier => verifier.independent = independent)

def know (t : Received) : TxBuffer :=
  { b with knownCache := b.knownCache.set t.tx.base.hash t }

def handleTx (t : Received) : Option Turn :=
  if b.isKnownHash now t.tx.base.hash then some ⟨b, [], []⟩
  else (b.check setup now true t).map fun (ok, t) =>
    if ok then ⟨b.know t, [⟨.buildDependencies, t⟩], []⟩ else ⟨b, [], []⟩

def buildDependencies (t : Received) : Option Turn :=
  let missing := t.tx.base.parentsHash.filter fun parentHash => !now.isLocalHash parentHash
  let waiting := missing.foldl (fun b parentHash => b.updateDependencyMap parentHash t) b
  if missing = [] then some ⟨b, [⟨.niceTx, t⟩], []⟩
  else t.tx.isProposal.map fun isProposal =>
    ⟨if isProposal then waiting else waiting.updateDependencyMap t.tx.base.hash t, [], []⟩

def niceTx (t : Received) : Option Turn :=
  let forgotten := { b with knownCache := b.knownCache.delete t.tx.base.hash }
  (b.check setup now false t).map fun (ok, t) =>
    ⟨forgotten, if ok then [⟨.resolve, t⟩] else [], []⟩

/-- In the order in which the range over the map visits those that wait. -/
def resolve (order : List Received) (t : Received) : Option Turn :=
  let others := order.filter fun child => child.tx.base.hash ≠ t.tx.base.hash
  t.tx.isProposal.map fun isProposal =>
    ⟨{ b with dependencyCache := b.dependencyCache.delete t.tx.base.hash },
      others.map (⟨.tryResolve, ·⟩), if isProposal then [] else [t.tx]⟩

def tryResolve (t : Received) : Turn :=
  if t.tx.base.parentsHash.any b.dependencyCache.contains then ⟨b, [], []⟩
  else ⟨b, [⟨.niceTx, t⟩], []⟩

def release (t : Received) : Turn :=
  if !b.isBufferedHash t.tx.base.hash || now.isLocalHash t.tx.base.hash then ⟨b, [], []⟩
  else ⟨b, [⟨.tryResolve, t⟩], []⟩

def ranges (hash : Hash) (order : List Received) : Bool :=
  order.isPerm ((b.dependencyCache.get? hash).getD [])

def run (order : List Received) (task : Task) : Option Turn :=
  match task.call with
  | .handleTx => b.handleTx setup now task.tx
  | .buildDependencies => b.buildDependencies now task.tx
  | .niceTx => b.niceTx setup now task.tx
  | .resolve => b.resolve order task.tx
  | .tryResolve => some (b.tryResolve task.tx)
  | .release => some (b.release now task.tx)

/-- The goroutines run one after the other here. -/
def verifyEach (b : TxBuffer) : List Received → Option (Bool × TxBuffer × List Received)
  | [] => some (true, b, [])
  | t :: rest =>
    if b.isKnownHash now t.tx.base.hash then verifyEach b rest
    else do
      let (ok, t) ← b.check setup now true t
      let (others, b, valid) ← verifyEach (if ok then b.know t else b) rest
      return (ok && others, b, if ok then t :: valid else valid)

/-- One that is refused does not count down the wait group, so the loop goes no further. -/
def handleTxs (txs : List Received) : Option (TxBuffer × Option (List Task)) :=
  (b.verifyEach setup now txs).map fun (done, b, valid) =>
    let sorted := valid.insertionSort fun left right => right.tx.less left.tx = false
    (b, if done then some (sorted.map (⟨.buildDependencies, ·⟩)) else none)

def releaseTx (order : List Received) (hash : Hash) : Turn :=
  let others := order.filter fun child => child.tx.base.hash ≠ hash
  ⟨{ b with knownCache := b.knownCache.delete hash
            dependencyCache := b.dependencyCache.delete hash },
    others.map (⟨.release, ·⟩), []⟩

end TxBuffer

/-!
## The sync buffer
-/

inductive SyncError where
  | nilSequencer
  | tooMuchTxs
  | parentNotFound
  | redundantTxs
  | badTxFormat
  | badSeqFormat
  | pool
  | noAnswer
  deriving DecidableEq

def maxBufferSize : Nat := 4096 * 16

/-- What a batch leads to, with the number of moments it took. -/
structure Synced where
  moments : Nat
  offered : List Txi
  error : Option SyncError

namespace SyncBuffer

/-- The transactions by hash, the first under each, and the hashes in order. -/
def addTxs (txs : GoMap Hash Txi) (txsList : List Hash) :
    List (Option Txi) → Except SyncError (GoMap Hash Txi × List Hash)
  | [] => .ok (txs, txsList)
  | tx :: rest =>
    if txs.size > maxBufferSize then .error .tooMuchTxs
    else
      match tx with
      | none => addTxs txs txsList rest
      | some tx => addTxs (if txs.contains tx.base.hash then txs else txs.set tx.base.hash tx)
          (txsList ++ [tx.base.hash]) rest

/-- The loop of `verifyElders`, as far as `fuel` turns go: the hashes of the batch it meets. -/
def seekLoop (isLocalHash : Hash → Bool) (txs : GoMap Hash Txi) :
    Nat → List Hash → List Hash → List Hash → Option (Except SyncError (List Hash))
  | _, [], _, met => some (.ok met)
  | 0, _ :: _, _, _ => none
  | fuel + 1, elderHash :: seekingPool, inSeekingPool, met =>
    match txs.get? elderHash with
    | none =>
      if isLocalHash elderHash then seekLoop isLocalHash txs fuel seekingPool inSeekingPool met
      else some (.error .parentNotFound)
    | some elder =>
      let (seekingPool, inSeekingPool) :=
        TxPool.queueParents seekingPool inSeekingPool elder.base.parentsHash
      seekLoop isLocalHash txs fuel seekingPool inSeekingPool (elderHash :: met)

def seekFuel (txs : GoMap Hash Txi) (seq : Sequencer) : Nat :=
  seq.base.parentsHash.length + (txs.entries.map fun entry => entry.2.base.parentsHash.length).sum

/-- Every ancestor is in the batch or local, and nothing else is in the batch. -/
def verifyElders (isLocalHash : Hash → Bool) (txs : GoMap Hash Txi) (seq : Sequencer) :
    Except SyncError Unit := do
  let met ← (seekLoop isLocalHash txs (seekFuel txs seq) seq.base.parentsHash [] []).getD (.ok [])
  if txs.any fun hash _ => hash ∉ met then .error .redundantTxs else .ok ()

/-! ### What the search finds -/

def look (isLocalHash : Hash → Bool) (txs : GoMap Hash Txi) (hash : Hash) : Worklist.Look Hash :=
  match txs.get? hash with
  | none => if isLocalHash hash then .skip else .stop
  | some elder => .next elder.base.parentsHash

def batchParents (txs : GoMap Hash Txi) : Finset Hash :=
  (txs.entries.bind fun entry => ↑entry.2.base.parentsHash).toFinset

section Elders

variable (isLocalHash : Hash → Bool) (txs : GoMap Hash Txi)

theorem look_spec (hash : Hash) :
    (look isLocalHash txs hash = .stop ↔ ¬ (txs.contains hash = true ∨ isLocalHash hash = true)) ∧
      ((∃ nodes, look isLocalHash txs hash = .next nodes) ↔ txs.contains hash = true) := by
  unfold look GoMap.contains
  cases txs.get? hash <;> cases isLocalHash hash <;> simp

theorem seekLoop_eq (fuel : Nat) (seekingPool inSeekingPool met : List Hash) :
    seekLoop isLocalHash txs fuel seekingPool inSeekingPool met =
      (Worklist.search (look isLocalHash txs) fuel seekingPool inSeekingPool met).map
        (Except.mapError fun _ => .parentNotFound) := by
  induction fuel generalizing seekingPool inSeekingPool met with
  | zero => cases seekingPool <;> rfl
  | succ fuel ih =>
    cases seekingPool with
    | nil => rfl
    | cons elderHash rest =>
      rw [seekLoop, Worklist.search, look]
      cases txs.get? elderHash with
      | none =>
        dsimp only
        split
        · exact ih _ _ _
        · rfl
      | some elder =>
        dsimp only
        rw [TxPool.queueParents_eq]
        exact ih _ _ _

theorem seekLoop_result (seq : Sequencer) :
    ∃ result, seekLoop isLocalHash txs (seekFuel txs seq) seq.base.parentsHash [] [] =
        some (Except.mapError (fun _ => .parentNotFound) result) ∧
      Worklist.Result (look isLocalHash txs) seq.base.parentsHash result := by
  have finite : ∀ hash nodes, look isLocalHash txs hash = .next nodes →
      ∀ parentHash ∈ nodes, parentHash ∈ batchParents txs := by
    intro hash nodes opens parentHash member
    unfold look at opens
    split at opens
    · split at opens <;> cases opens
    rename_i elder present
    cases opens
    exact mem_toFinset.mpr (mem_bind.mpr
      ⟨⟨hash, elder⟩, GoMap.get?_eq_some_iff.mp present, member⟩)
  have enough : seq.base.parentsHash.length + (batchParents txs).card ≤ seekFuel txs seq := by
    refine Nat.add_le_add_left ((toFinset_card_le _).trans (le_of_eq ?_)) _
    rw [card_bind]
    rfl
  obtain ⟨result, searched, isResult⟩ := Worklist.search_result finite enough
  refine ⟨result, ?_, isResult⟩
  rw [seekLoop_eq, searched]
  rfl

/-- The search ends, and a batch passes exactly if it is what is reached from the parents of the
sequencer and is not local. -/
theorem verifyElders_exact (seq : Sequencer) :
    (seekLoop isLocalHash txs (seekFuel txs seq) seq.base.parentsHash [] []).isSome = true ∧
      (verifyElders isLocalHash txs seq = .ok () ↔ (∀ hash, txs.contains hash = true →
          Worklist.Reaches (look isLocalHash txs) seq.base.parentsHash hash) ∧
        ∀ hash, Worklist.Reaches (look isLocalHash txs) seq.base.parentsHash hash →
          txs.contains hash = true ∨ isLocalHash hash = true) := by
  obtain ⟨result, looped, isResult⟩ := seekLoop_result isLocalHash txs seq
  refine ⟨by rw [looped]; rfl, ?_⟩
  rw [verifyElders, looped]
  cases result with
  | error hash =>
    refine iff_of_false (fun same => by cases same) fun holds => ?_
    exact (look_spec isLocalHash txs hash).1.mp isResult.2 (holds.2 hash isResult.1)
  | ok met =>
    have within : ∀ hash, Worklist.Reaches (look isLocalHash txs) seq.base.parentsHash hash →
        txs.contains hash = true ∨ isLocalHash hash = true := by
      intro hash reached
      by_contra missing
      exact isResult.1 hash reached ((look_spec isLocalHash txs hash).1.mpr missing)
    have all_iff : (txs.any fun hash _ => hash ∉ met) = false ↔ ∀ hash, txs.contains hash = true →
        Worklist.Reaches (look isLocalHash txs) seq.base.parentsHash hash := by
      rw [GoMap.any_eq_false_iff]
      refine forall_congr' fun hash => ?_
      have mem_iff := (isResult.2 hash).trans
        (and_congr_right fun _ => (look_spec isLocalHash txs hash).2)
      simp only [GoMap.contains_iff, decide_eq_false_iff_not, not_not, mem_iff] at mem_iff ⊢
      grind
    rw [and_iff_left within, ← all_iff]
    show (if (txs.any fun hash _ => hash ∉ met) = true then Except.error SyncError.redundantTxs
      else .ok ()) = _ ↔ _
    cases txs.any fun hash _ => hash ∉ met with
    | true => simp
    | false => exact iff_of_true rfl rfl

end Elders

/-! ### A batch -/

variable {κ : Type} [DecidableEq κ] (setup : Setup κ) (world : Nat → Moment κ)
  (verifiers : List Verifier)

def handleTxs (txs : GoMap Hash Txi) : Nat → List Hash → Synced
  | clock, [] => ⟨clock, [], none⟩
  | clock, hash :: rest =>
    if (world clock).isLocalHash hash then handleTxs txs (clock + 1) rest
    else
      match (txs.get? hash).bind fun tx => verifyAll setup (world clock) ⟨tx, .none⟩ verifiers with
      | none => ⟨clock + 1, [], some .noAnswer⟩
      | some (false, _) => ⟨clock + 1, [], some .badTxFormat⟩
      | some (true, t) =>
        match (world clock).addRemoteTx t.tx with
        | .refused => ⟨clock + 1, [t.tx], some .pool⟩
        | .added | .duplicate =>
          let later := handleTxs txs (clock + 1) rest
          { later with offered := t.tx :: later.offered }

def handleSeq (clock : Nat) (seq : Sequencer) : Synced :=
  match verifyEvery setup (world clock) ⟨.sequencer seq, .none⟩ verifiers with
  | none => ⟨clock + 1, [], some .noAnswer⟩
  | some (false, _) => ⟨clock + 1, [], some .badSeqFormat⟩
  | some (true, t) =>
    ⟨clock + 1, [t.tx], if (world clock).addRemoteTx t.tx = .added then none else some .pool⟩

def handle (clock : Nat) (txs : GoMap Hash Txi) (txsList : List Hash) (seq : Sequencer) : Synced :=
  match verifyElders (world clock).isLocalHash txs seq with
  | .error error => ⟨clock + 1, [], some error⟩
  | .ok _ =>
    let handled := handleTxs setup world verifiers txs (clock + 1) txsList
    if handled.error.isSome then handled
    else
      let last := handleSeq setup world verifiers handled.moments seq
      { last with offered := handled.offered ++ last.offered }

/-- `AddTxs`, while no other batch is handled. -/
def addBatch (clock : Nat) (seq : Option Sequencer) (txs : List (Option Txi)) : Synced :=
  match seq with
  | none => ⟨clock + 1, [], some .nilSequencer⟩
  | some seq =>
    if seq.base.height ≠ (world clock).height + 1 then ⟨clock + 1, [], none⟩
    else
      match addTxs ∅ [] txs with
      | .error error => ⟨clock + 1, [], some error⟩
      | .ok (byHash, txsList) => handle setup world verifiers clock byHash txsList seq

end SyncBuffer

end AnnchainOG.Wire
