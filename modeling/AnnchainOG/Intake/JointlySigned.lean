import AnnchainOG.Intake.Buffers
import AnnchainOG.Lib.Runs

/-!
# Jointly signed sequencers

The verifier of the consensus module is appended to those of the transaction buffer after the sync
buffer was given its own. A proposal is kept from the pool where its tag says sequencer.
-/

namespace AnnchainOG.Wire

open Nat

open Option (bind_eq_some_iff map_eq_some_iff)

open List (forall_mem_nil mem_append mem_cons mem_filter mem_map mem_singleton)

/-!
## The node
-/

structure Node where
  clock : Nat
  queue : List Txi
  txBuffer : TxBuffer
  /-- The calls of the two goroutines of the buffer; `none` where one does not come back. -/
  loop : Option (List Task)
  releaser : Option (List Task)

def sharedVerifiers : List Verifier := [.format, .graph]

def newNode (testNoVerify : Bool) : Node where
  clock := 0
  queue := []
  txBuffer := ⟨sharedVerifiers ++ [.consensus], testNoVerify, ∅, ∅⟩
  loop := some []
  releaser := some []

inductive Event where
  | message (message : PeerMessage)
  | proposal (request : Option (Bft.MessageProposal Sequencer))
  /-- The syncer hands the first of its queue to the buffer. -/
  | notify (count : Nat)
  | decision (seq : Sequencer) (sigShares : List Bytes)
  | catchUp (seq : Option Sequencer) (txs : List (Option Txi))
  | added (hash : Hash) (order : List Received)
  | loop (order : List Received)
  | releaser (order : List Received)
  | expire (queued : Txi → Bool) (known waiting : Hash → Bool)

namespace Node

variable {κ : Type} [DecidableEq κ] (setup : Setup κ) (world : Nat → Moment κ) (node : Node)

def tick : Node := { node with clock := node.clock + 1 }

def syncer (now : Moment κ) : IncrementalSyncer :=
  ⟨now.syncEnabled, now.cacheNewTxEnabled, node.txBuffer.isKnownHash now⟩

def turn (now : Moment κ) (order : List Received) : Option (List Task) →
    Option (Option (List Task) × TxBuffer × List Txi)
  | some (task :: rest) =>
    if task.call = .resolve ∧ node.txBuffer.ranges task.tx.tx.base.hash order = false then none
    else
      match node.txBuffer.run setup now order task with
      | none => some (none, node.txBuffer, [])
      | some turn => some (some (turn.calls ++ rest), turn.buffer, turn.offered)
  | some [] | none => none

def step (event : Event) : Option (Node × List Txi) :=
  let now := world node.clock
  match event with
  | .message message =>
    ((node.syncer now).handle setup.crypto message).toOption.map fun txs =>
      ({ node.tick with queue := node.queue ++ txs }, [])
  | .proposal request =>
    let txs := match now.annSensus.handleConsensusProposal setup.crypto request with
      | none => []
      | some tx => (node.syncer now).handleNewTxi tx
    some ({ node.tick with queue := node.queue ++ txs }, [])
  | .notify count =>
    let txs := (node.queue.take count).filter fun tx =>
      !node.txBuffer.isKnownHash now tx.base.hash
    if node.loop ≠ some [] then none
    else (node.txBuffer.handleTxs setup now (txs.map (⟨·, .none⟩))).map fun (txBuffer, loop) =>
      ({ node.tick with queue := node.queue.drop count, txBuffer, loop }, [])
  | .decision seq sigShares =>
    if node.loop ≠ some [] then none
    else
      match now.annSensus.recoverAndVerifySignature sigShares (hashBytes seq.base.hash) with
      | none => some (node.tick, [])
      | some jointSig =>
        let decided := { seq with blsJointSig := jointSig, proposing := false }
        some ({ node.tick with loop := some [⟨.handleTx, ⟨.sequencer decided, .none⟩⟩] }, [])
  | .catchUp seq txs =>
    let synced := SyncBuffer.addBatch setup world sharedVerifiers node.clock seq txs
    some ({ node with clock := synced.moments }, synced.offered)
  | .added hash order =>
    let turn := node.txBuffer.releaseTx order hash
    if node.releaser ≠ some [] ∨ node.txBuffer.ranges hash order = false then none
    else some ({ node.tick with txBuffer := turn.buffer, releaser := some turn.calls },
      turn.offered)
  | .loop order =>
    (node.turn setup now order node.loop).map fun (loop, txBuffer, offered) =>
      ({ node.tick with txBuffer, loop }, offered)
  | .releaser order =>
    (node.turn setup now order node.releaser).map fun (releaser, txBuffer, offered) =>
      ({ node.tick with txBuffer, releaser }, offered)
  | .expire queued known waiting =>
    let keep {ν : Type} (kept : Hash → Bool) (cache : GoMap Hash ν) : GoMap Hash ν :=
      cache.filterMap fun hash value => if kept hash then some value else none
    some ({ node.tick with
      queue := node.queue.filter queued
      txBuffer := { node.txBuffer with
        knownCache := keep known node.txBuffer.knownCache
        dependencyCache := keep waiting node.txBuffer.dependencyCache } }, [])

def Steps (event : Event) (next : Node) (offered : List Txi) : Prop :=
  node.step setup world event = some (next, offered)

end Node

variable {before : Txi}

/-!
## What verifiers leave of a sequencer
-/

/-- The same transaction, up to a sender that was computed for it. -/
def Txi.Resent (before after : Txi) : Prop :=
  after = before ∨ ∃ address, after = before.setSender address

theorem Txi.Resent.trans {first second third : Txi} (left : first.Resent second)
    (right : second.Resent third) : first.Resent third := by
  rcases right with rfl | ⟨address, rfl⟩
  · exact left
  rcases left with rfl | ⟨earlier, rfl⟩
  · exact .inr ⟨address, rfl⟩
  · refine .inr ⟨address, ?_⟩
    cases first <;> rfl

theorem Txi.Resent.sequencer {seq : Sequencer} (resent : before.Resent (.sequencer seq)) :
    ∃ issuer, before = .sequencer { seq with issuer := issuer } := by
  rcases resent with rfl | ⟨address, isSeq⟩
  · exact ⟨seq.issuer, rfl⟩
  cases before with
  | sequencer record =>
    cases isSeq
    exact ⟨record.issuer, rfl⟩
  | tx | campaign | termChange | archive | action => cases isSeq

def Txi.Fair (tx : Txi) : Prop :=
  ∀ seq, tx = .sequencer seq → seq.proposing = true → seq.base.type = txBaseTypeSequencer

theorem Txi.Fair.resent {after : Txi} (fair : before.Fair) (resent : before.Resent after) :
    after.Fair := by
  rintro seq rfl flagged
  obtain ⟨issuer, isBefore⟩ := resent.sequencer
  exact fair { seq with issuer := issuer } isBefore flagged

theorem Txi.Fair.of_unflagged {tx : Txi}
    (unflagged : ∀ seq, tx = .sequencer seq → seq.proposing = false) : tx.Fair := by
  intro seq isSeq flagged
  rw [unflagged seq isSeq] at flagged
  cases flagged

section Verifiers

variable {κ : Type} [DecidableEq κ] {setup : Setup κ} {now : Moment κ}
variable {ok : Bool} {t after : Received} {crypto : Crypto}
variable {tx : Txi} {verifiers : List Verifier}

private theorem verifyRecovered_resent {after : Txi}
    (answer : verifyRecovered crypto tx = .ok (ok, after)) : tx.Resent after := by
  unfold verifyRecovered at answer
  simp only [bind, Except.bind, pure, Except.pure] at answer
  repeat' split at answer
  all_goals first
    | cases answer; exact .inl rfl
    | cases answer; exact .inr ⟨_, rfl⟩
    | cases answer

private theorem verifySignature_resent {after : Txi}
    (answer : TxFormatVerifier.verifySignature crypto tx = .ok (ok, after)) : tx.Resent after := by
  unfold TxFormatVerifier.verifySignature at answer
  split at answer
  · cases answer
    exact .inl rfl
  split at answer
  · obtain ⟨sender, -, answer⟩ := bind_ok answer
    cases sender with
    | none =>
      cases answer
      exact .inl rfl
    | some sender =>
      obtain ⟨targets, -, answer⟩ := bind_ok answer
      cases answer
      exact .inl rfl
  · exact verifyRecovered_resent answer

theorem TxFormatVerifier.verify_resent {v : TxFormatVerifier}
    (answer : v.verify crypto t = .ok (ok, after)) : t.tx.Resent after.tx := by
  unfold TxFormatVerifier.verify at answer
  split at answer
  · cases answer
    exact .inl rfl
  split at answer
  · cases answer
    exact .inl rfl
  split at answer
  · obtain ⟨⟨isSigned, signed⟩, checked, answer⟩ := bind_ok answer
    have resent := verifySignature_resent checked
    cases isSigned with
    | false =>
      obtain ⟨targets, -, answer⟩ := bind_ok answer
      obtain ⟨dumped, -, answer⟩ := bind_ok answer
      cases answer
      exact resent
    | true =>
      cases answer
      exact resent
  · cases answer
    exact .inl rfl

theorem Verifier.verify_resent {verifier : Verifier}
    (answer : verifier.verify setup now t = some (ok, after)) : t.tx.Resent after.tx := by
  cases verifier with
  | format => exact TxFormatVerifier.verify_resent (ok_of_toOption answer)
  | graph =>
    obtain ⟨accepted, -, result⟩ := map_eq_some_iff.mp answer
    cases result
    cases ok <;> exact .inl rfl
  | consensus =>
    obtain ⟨accepted, -, result⟩ := map_eq_some_iff.mp answer
    cases result
    exact .inl rfl

theorem verifyAll_resent
    (answer : verifyAll setup now t verifiers = some (ok, after)) : t.tx.Resent after.tx := by
  induction verifiers generalizing t with
  | nil =>
    cases answer
    exact .inl rfl
  | cons verifier rest ih =>
    obtain ⟨⟨accepted, between⟩, first, answer⟩ := bind_eq_some_iff.mp answer
    have resent := Verifier.verify_resent first
    cases accepted with
    | false =>
      cases answer
      exact resent
    | true => exact resent.trans (ih answer)

theorem verifyEvery_resent
    (answer : verifyEvery setup now t verifiers = some (ok, after)) : t.tx.Resent after.tx := by
  induction verifiers generalizing t ok with
  | nil =>
    cases answer
    exact .inl rfl
  | cons verifier rest ih =>
    obtain ⟨⟨accepted, between⟩, first, answer⟩ := bind_eq_some_iff.mp answer
    obtain ⟨⟨others, last⟩, later, answer⟩ := bind_eq_some_iff.mp answer
    cases answer
    exact (Verifier.verify_resent first).trans (ih later)

end Verifiers

/-!
## What is offered
-/

section Offered

variable {κ : Type} [DecidableEq κ]
variable {bls : Bls κ}
variable {seq : Sequencer}

def JointlySigned (bls : Bls κ) (now : Moment κ) (seq : Sequencer) : Prop :=
  ∃ key, (now.annSensus.dkg.partner = some key ∨ now.annSensus.dkg.formerPartner = some key) ∧
    bls.unmarshalBinaryPointG2 seq.blsJointPubKey = some key ∧
    bls.verify key (hashBytes seq.base.hash) seq.blsJointSig = true

theorem verifyBlsSig_known {d : Dkg κ} {msg sig jointPub : Bytes} {termId : Int}
    (accepted : d.verifyBlsSig bls msg sig jointPub termId = some true) :
    ∃ key, (d.partner = some key ∨ d.formerPartner = some key) ∧
      bls.unmarshalBinaryPointG2 jointPub = some key ∧ bls.verify key msg sig = true := by
  unfold Dkg.verifyBlsSig at accepted
  split at accepted
  · cases accepted
  rename_i pubKey isKey
  obtain ⟨key, known, accepted⟩ := map_eq_some_iff.mp accepted
  obtain ⟨isSame, verified⟩ := (Bool.and_eq_true _ _).mp accepted
  obtain rfl : pubKey = key := of_decide_eq_true isSame
  refine ⟨pubKey, ?_, isKey, verified⟩
  split at known
  · exact .inr known
  · exact .inl known

theorem verifySequencer_jointlySigned {now : Moment κ}
    (accepted : now.annSensus.verifySequencer bls seq = some true)
    (unflagged : seq.proposing = false) : JointlySigned bls now seq := by
  unfold AnnSensus.verifySequencer at accepted
  simp only [unflagged, Bool.false_eq_true, if_false] at accepted
  split at accepted
  · cases accepted
  split_ifs at accepted
  · cases accepted
  · cases accepted
  · exact verifyBlsSig_known accepted

omit [DecidableEq κ] in
theorem JointlySigned.resent {now : Moment κ} {before : Txi}
    (resent : before.Resent (.sequencer seq))
    (signed : ∀ given, before = .sequencer given → JointlySigned bls now given) :
    JointlySigned bls now seq := by
  obtain ⟨issuer, isBefore⟩ := resent.sequencer
  exact signed { seq with issuer := issuer } isBefore

end Offered

/-!
## The invariant
-/

section Guarded

variable {κ : Type} [DecidableEq κ] (setup : Setup κ) (world : Nat → Moment κ)
variable {turn : Turn} {task : Task} {order : List Received}
variable {txs : List Received}

def Vouched (clock : Nat) (tx : Txi) : Prop :=
  ∃ moment < clock, (world moment).annSensus.verify setup.bls tx = some true

structure Task.Guarded (clock : Nat) (task : Task) : Prop where
  fair : task.tx.tx.Fair
  vouched : task.call = .resolve → Vouched setup world clock task.tx.tx

structure TxBuffer.Guarded (b : TxBuffer) : Prop where
  verifiers : b.verifiers = sharedVerifiers ++ [.consensus]
  verifies : b.testNoVerify = false
  waiting : ∀ hash, ∀ child ∈ (b.dependencyCache.get? hash).getD [], child.tx.Fair

structure Node.Guarded (node : Node) : Prop where
  queue : ∀ tx ∈ node.queue, tx.Fair
  txBuffer : node.txBuffer.Guarded
  loop : ∀ tasks, node.loop = some tasks → ∀ task ∈ tasks, task.Guarded setup world node.clock
  releaser : ∀ tasks, node.releaser = some tasks →
    ∀ task ∈ tasks, task.Guarded setup world node.clock

variable {setup world}

theorem Task.Guarded.later {clock later : Nat}
    (guarded : task.Guarded setup world clock) (after : clock ≤ later) :
    task.Guarded setup world later := by
  refine ⟨guarded.fair, fun isResolve => ?_⟩
  obtain ⟨moment, before, accepted⟩ := guarded.vouched isResolve
  exact ⟨moment, before.trans_le after, accepted⟩

variable {b : TxBuffer} {clock : Nat} {t : Received}

theorem Task.Guarded.of_fair {call : Call} (fair : t.tx.Fair) (notResolve : call ≠ .resolve) :
    (⟨call, t⟩ : Task).Guarded setup world clock :=
  ⟨fair, fun isResolve => absurd isResolve notResolve⟩

variable {after : Received} {now : Moment κ}

theorem TxBuffer.Guarded.check_graph (guarded : b.Guarded)
    (passed : b.check setup now false t = some (true, after)) :
    after.tx = t.tx ∧ now.annSensus.verify setup.bls t.tx = some true := by
  have asked : b.check setup now false t = verifyAll setup now t [.graph, .consensus] := by
    rw [TxBuffer.check, guarded.verifies, guarded.verifiers]
    rfl
  rw [asked] at passed
  obtain ⟨⟨first, between⟩, graph, passed⟩ := bind_eq_some_iff.mp passed
  cases first with
  | false => cases passed
  | true =>
    obtain ⟨ok, -, isBetween⟩ := map_eq_some_iff.mp graph
    obtain ⟨⟨second, last⟩, consensus, passed⟩ := bind_eq_some_iff.mp passed
    obtain ⟨accepted, answer, isLast⟩ := map_eq_some_iff.mp consensus
    have sameTx : between.tx = t.tx := by
      cases isBetween
      rfl
    cases isLast
    cases second with
    | false => cases passed
    | true =>
      cases passed
      rw [sameTx] at answer
      exact ⟨sameTx, answer⟩

theorem TxBuffer.check_fair {independent ok : Bool}
    (fair : t.tx.Fair) (checked : b.check setup now independent t = some (ok, after)) :
    after.tx.Fair := by
  unfold TxBuffer.check at checked
  split at checked
  · cases checked
    exact fair
  · exact fair.resent (verifyAll_resent checked)

theorem TxBuffer.Guarded.know (guarded : b.Guarded) (t : Received) : (b.know t).Guarded :=
  ⟨guarded.verifiers, guarded.verifies, guarded.waiting⟩

theorem TxBuffer.Guarded.updateDependencyMap (guarded : b.Guarded) (parentHash : Hash)
    (fair : t.tx.Fair) : (b.updateDependencyMap parentHash t).Guarded := by
  refine ⟨guarded.verifiers, guarded.verifies, fun hash child member => ?_⟩
  simp only [TxBuffer.updateDependencyMap, GoMap.get?_set] at member
  split at member
  · rcases mem_cons.mp member with rfl | member
    · exact fair
    · exact guarded.waiting parentHash child (mem_filter.mp member).1
  · exact guarded.waiting hash child member

theorem TxBuffer.Guarded.updateDependencies (guarded : b.Guarded) (parents : List Hash)
    (fair : t.tx.Fair) :
    (parents.foldl (fun b parentHash => b.updateDependencyMap parentHash t) b).Guarded := by
  induction parents generalizing b with
  | nil => exact guarded
  | cons parentHash rest ih => exact ih (guarded.updateDependencyMap parentHash fair)

theorem TxBuffer.Guarded.forget (guarded : b.Guarded) (knownCache : GoMap Hash Received)
    (hash : Hash) :
    ({ b with knownCache, dependencyCache := b.dependencyCache.delete hash } : TxBuffer).Guarded := by
  refine ⟨guarded.verifiers, guarded.verifies, fun other child member => ?_⟩
  simp only [GoMap.get?_delete] at member
  split at member
  · cases member
  · exact guarded.waiting other child member

theorem TxBuffer.Guarded.expire (guarded : b.Guarded) (knownCache : GoMap Hash Received)
    (kept : Hash → Bool) :
    ({ b with
      knownCache, dependencyCache := b.dependencyCache.filterMap fun hash children =>
        if kept hash then some children else none } : TxBuffer).Guarded := by
  refine ⟨guarded.verifiers, guarded.verifies, fun hash child member => ?_⟩
  refine guarded.waiting hash child ?_
  simp only [GoMap.get?_filterMap] at member
  cases present : b.dependencyCache.get? hash with
  | none =>
    rw [present] at member
    cases member
  | some children =>
    rw [present, Option.bind_some] at member
    split at member
    · exact member
    · cases member

theorem TxBuffer.Guarded.ranges (guarded : b.Guarded) {hash : Hash}
    (inOrder : b.ranges hash order = true) : ∀ child ∈ order, child.tx.Fair := fun child member =>
  guarded.waiting hash child ((List.isPerm_iff.mp inOrder).mem_iff.mp member)

structure Turn.Guarded (setup : Setup κ) (world : Nat → Moment κ) (clock : Nat) (turn : Turn) :
    Prop where
  buffer : turn.buffer.Guarded
  calls : ∀ task ∈ turn.calls, task.Guarded setup world (clock + 1)
  offered : ∀ seq, .sequencer seq ∈ turn.offered →
    ∃ moment < clock + 1, JointlySigned setup.bls (world moment) seq

private theorem Turn.Guarded.quiet (guarded : b.Guarded) :
    (⟨b, [], []⟩ : Turn).Guarded setup world clock :=
  ⟨guarded, by simp, by simp⟩

private theorem Turn.Guarded.single (guarded : b.Guarded)
    (sound : task.Guarded setup world (clock + 1)) :
    (⟨b, [task], []⟩ : Turn).Guarded setup world clock :=
  ⟨guarded, by simpa using sound, by simp⟩

theorem handleTx_guarded (guarded : b.Guarded) (fair : t.tx.Fair)
    (ran : b.handleTx setup (world clock) t = some turn) : turn.Guarded setup world clock := by
  unfold TxBuffer.handleTx at ran
  split at ran
  · cases ran
    exact .quiet guarded
  obtain ⟨⟨ok, after⟩, checked, rfl⟩ := map_eq_some_iff.mp ran
  cases ok with
  | false => exact .quiet guarded
  | true =>
    exact .single (guarded.know after) (.of_fair (TxBuffer.check_fair fair checked) (by decide))

theorem buildDependencies_guarded (guarded : b.Guarded) (fair : t.tx.Fair)
    (ran : b.buildDependencies (world clock) t = some turn) : turn.Guarded setup world clock := by
  simp only [TxBuffer.buildDependencies] at ran
  split at ran
  · cases ran
    exact .single guarded (.of_fair fair (by decide))
  obtain ⟨isProposal, -, rfl⟩ := map_eq_some_iff.mp ran
  have waiting := guarded.updateDependencies (t.tx.base.parentsHash.filter fun parentHash =>
    !(world clock).isLocalHash parentHash) fair
  cases isProposal with
  | true => exact .quiet waiting
  | false => exact .quiet (waiting.updateDependencyMap t.tx.base.hash fair)

theorem niceTx_guarded (guarded : b.Guarded) (fair : t.tx.Fair)
    (ran : b.niceTx setup (world clock) t = some turn) : turn.Guarded setup world clock := by
  obtain ⟨⟨ok, after⟩, checked, rfl⟩ := map_eq_some_iff.mp ran
  have forgotten : ({ b with knownCache := b.knownCache.delete t.tx.base.hash } : TxBuffer).Guarded :=
    ⟨guarded.verifiers, guarded.verifies, guarded.waiting⟩
  cases ok with
  | false => exact .quiet forgotten
  | true =>
    obtain ⟨sameTx, accepted⟩ := guarded.check_graph checked
    refine .single forgotten ⟨?_, fun _ => ⟨clock, lt_succ_self clock, ?_⟩⟩
    · rw [sameTx]
      exact fair
    · rw [sameTx]
      exact accepted

theorem isProposal_unflagged {seq : Sequencer} (fair : (Txi.sequencer seq).Fair)
    (asked : (Txi.sequencer seq).isProposal = some false) : seq.proposing = false := by
  unfold Txi.isProposal at asked
  split at asked
  · exact Option.some.inj asked
  next untagged => exact Bool.eq_false_iff.mpr fun flagged => untagged (fair seq rfl flagged)

theorem resolve_guarded (guarded : b.Guarded)
    (sound : task.Guarded setup world clock) (isResolve : task.call = .resolve)
    (inOrder : b.ranges task.tx.tx.base.hash order = true)
    (ran : b.resolve order task.tx = some turn) : turn.Guarded setup world clock := by
  obtain ⟨isProposal, asked, rfl⟩ := map_eq_some_iff.mp ran
  refine ⟨guarded.forget b.knownCache _, ?_, ?_⟩
  · intro call member
    obtain ⟨child, kept, rfl⟩ := mem_map.mp member
    exact .of_fair (guarded.ranges inOrder child (mem_filter.mp kept).1) (by decide)
  · intro seq member
    cases isProposal with
    | true => cases member
    | false =>
      have isSeq : .sequencer seq = task.tx.tx := mem_singleton.mp member
      obtain ⟨moment, before, accepted⟩ := sound.vouched isResolve
      have fair := sound.fair
      rw [← isSeq] at accepted asked fair
      exact ⟨moment, before.trans (lt_succ_self clock),
        verifySequencer_jointlySigned accepted (isProposal_unflagged fair asked)⟩

theorem tryResolve_guarded (guarded : b.Guarded) (fair : t.tx.Fair) :
    (b.tryResolve t).Guarded setup world clock := by
  unfold TxBuffer.tryResolve
  split
  · exact .quiet guarded
  · exact .single guarded (.of_fair fair (by decide))

theorem release_guarded (guarded : b.Guarded) (fair : t.tx.Fair) (now : Moment κ) :
    (b.release now t).Guarded setup world clock := by
  unfold TxBuffer.release
  split
  · exact .quiet guarded
  · exact .single guarded (.of_fair fair (by decide))

theorem run_guarded (guarded : b.Guarded) (sound : task.Guarded setup world clock)
    (inOrder : task.call = .resolve → b.ranges task.tx.tx.base.hash order = true)
    (ran : b.run setup (world clock) order task = some turn) : turn.Guarded setup world clock := by
  obtain ⟨call, t⟩ := task
  cases call with
  | handleTx => exact handleTx_guarded guarded sound.fair ran
  | buildDependencies => exact buildDependencies_guarded guarded sound.fair ran
  | niceTx => exact niceTx_guarded guarded sound.fair ran
  | resolve => exact resolve_guarded guarded sound rfl (inOrder rfl) ran
  | tryResolve =>
    cases ran
    exact tryResolve_guarded guarded sound.fair
  | release =>
    cases ran
    exact release_guarded guarded sound.fair _

theorem verifyEach_guarded {valid : List Received} {after : TxBuffer}
    {done : Bool} (guarded : b.Guarded) (fair : ∀ t ∈ txs, t.tx.Fair)
    (verified : b.verifyEach setup now txs = some (done, after, valid)) :
    after.Guarded ∧ ∀ t ∈ valid, t.tx.Fair := by
  induction txs generalizing b done valid with
  | nil =>
    cases verified
    exact ⟨guarded, by simp⟩
  | cons t rest ih =>
    have restFair := fun other member => fair other (List.mem_cons_of_mem _ member)
    unfold TxBuffer.verifyEach at verified
    split at verified
    · exact ih guarded restFair verified
    obtain ⟨⟨ok, passed⟩, checked, verified⟩ := bind_eq_some_iff.mp verified
    obtain ⟨⟨others, last, found⟩, later, verified⟩ := bind_eq_some_iff.mp verified
    cases verified
    have passedFair := TxBuffer.check_fair (fair t List.mem_cons_self) checked
    cases ok with
    | false => exact ih guarded restFair later
    | true =>
      obtain ⟨lastGuarded, foundFair⟩ := ih (guarded.know passed) restFair later
      refine ⟨lastGuarded, fun other member => ?_⟩
      rcases mem_cons.mp member with rfl | member
      · exact passedFair
      · exact foundFair other member

theorem handleTxs_guarded {after : TxBuffer}
    {loop : Option (List Task)} (guarded : b.Guarded) (fair : ∀ t ∈ txs, t.tx.Fair)
    (handled : b.handleTxs setup now txs = some (after, loop)) :
    after.Guarded ∧
      ∀ tasks, loop = some tasks → ∀ task ∈ tasks, task.tx.tx.Fair ∧ task.call ≠ .resolve := by
  obtain ⟨⟨done, last, valid⟩, verified, isResult⟩ := map_eq_some_iff.mp handled
  obtain ⟨lastGuarded, validFair⟩ := verifyEach_guarded guarded fair verified
  cases isResult
  refine ⟨lastGuarded, fun tasks isTasks task member => ?_⟩
  obtain ⟨-, isSome⟩ := Option.ite_none_right_eq_some.mp isTasks
  obtain rfl := Option.some.inj isSome
  obtain ⟨t, sorted, rfl⟩ := mem_map.mp member
  exact ⟨validFair t ((List.perm_insertionSort _ valid).mem_iff.mp sorted), nofun⟩

end Guarded

/-!
## Batches
-/

section Batches

variable {κ : Type} [DecidableEq κ] {setup : Setup κ} {world : Nat → Moment κ}
  {verifiers : List Verifier}

namespace SyncBuffer

theorem addTxs_get? {txs byHash : GoMap Hash Txi} {txsList hashes : List Hash}
    {given : List (Option Txi)} (added : addTxs txs txsList given = .ok (byHash, hashes))
    (hash : Hash) : byHash.get? hash =
      (txs.get? hash).or ((given.filterMap id).find? fun tx => tx.base.hash = hash) := by
  induction given generalizing txs txsList with
  | nil =>
    cases added
    simp
  | cons first rest ih =>
    unfold addTxs at added
    split at added
    · cases added
    cases first with
    | none => exact ih added
    | some first =>
      rw [ih added, GoMap.get?_setNew]
      by_cases same : first.base.hash = hash
      · cases txs.get? hash <;> simp [same]
      · simp [same, Ne.symm same]

theorem handleTxs_offered (txs : GoMap Hash Txi) (clock : Nat) (hashes : List Hash) :
    clock ≤ (handleTxs setup world verifiers txs clock hashes).moments ∧
      ∀ tx ∈ (handleTxs setup world verifiers txs clock hashes).offered,
        ∃ hash given, txs.get? hash = some given ∧ given.Resent tx := by
  induction hashes generalizing clock with
  | nil => exact ⟨le_rfl, forall_mem_nil _⟩
  | cons hash rest ih =>
    obtain ⟨later, fromRest⟩ := ih (clock + 1)
    have next : clock ≤ clock + 1 := le_succ clock
    unfold handleTxs
    split
    · exact ⟨next.trans later, fromRest⟩
    split
    · exact ⟨next, forall_mem_nil _⟩
    · exact ⟨next, forall_mem_nil _⟩
    next t verified =>
      obtain ⟨given, present, passed⟩ := bind_eq_some_iff.mp verified
      have isGiven : ∃ hash given, txs.get? hash = some given ∧ given.Resent t.tx :=
        ⟨hash, given, present, verifyAll_resent passed⟩
      split
      · exact ⟨next, List.forall_mem_singleton.mpr isGiven⟩
      · exact ⟨next.trans later, List.forall_mem_cons.mpr ⟨isGiven, fromRest⟩⟩
      · exact ⟨next.trans later, List.forall_mem_cons.mpr ⟨isGiven, fromRest⟩⟩

theorem handleSeq_offered (clock : Nat) (seq : Sequencer) :
    clock < (handleSeq setup world verifiers clock seq).moments ∧
      ∀ tx ∈ (handleSeq setup world verifiers clock seq).offered, (Txi.sequencer seq).Resent tx := by
  unfold handleSeq
  split
  · exact ⟨lt_succ_self clock, forall_mem_nil _⟩
  · exact ⟨lt_succ_self clock, forall_mem_nil _⟩
  next t verified =>
    refine ⟨lt_succ_self clock, fun tx member => ?_⟩
    rw [mem_singleton.mp member]
    exact verifyEvery_resent verified

theorem handle_offered (clock : Nat) (txs : GoMap Hash Txi) (txsList : List Hash)
    (seq : Sequencer) :
    clock < (handle setup world verifiers clock txs txsList seq).moments ∧
      ∀ tx ∈ (handle setup world verifiers clock txs txsList seq).offered,
        (Txi.sequencer seq).Resent tx ∨
          ∃ hash given, txs.get? hash = some given ∧ given.Resent tx := by
  have next : clock < clock + 1 := lt_succ_self clock
  unfold handle
  split
  · exact ⟨next, forall_mem_nil _⟩
  have ofTxs := @handleTxs_offered κ _ setup world verifiers txs (clock + 1) txsList
  have ofSeq := @handleSeq_offered κ _ setup world verifiers
    (handleTxs setup world verifiers txs (clock + 1) txsList).moments seq
  dsimp only
  split
  · exact ⟨next.trans_le ofTxs.1, fun tx member => .inr (ofTxs.2 tx member)⟩
  refine ⟨(next.trans_le ofTxs.1).trans ofSeq.1, fun tx member => ?_⟩
  rcases mem_append.mp member with member | member
  · exact .inr (ofTxs.2 tx member)
  · exact .inl (ofSeq.2 tx member)

theorem addBatch_offered (clock : Nat) (seq : Option Sequencer) (txs : List (Option Txi)) :
    clock < (addBatch setup world verifiers clock seq txs).moments ∧
      ∀ tx ∈ (addBatch setup world verifiers clock seq txs).offered,
        ∃ given : Txi, (seq.map .sequencer = some given ∨ some given ∈ txs) ∧ given.Resent tx := by
  have next : clock < clock + 1 := lt_succ_self clock
  cases seq with
  | none => exact ⟨next, forall_mem_nil _⟩
  | some seq =>
    simp only [addBatch]
    split
    · exact ⟨next, forall_mem_nil _⟩
    split
    · exact ⟨next, forall_mem_nil _⟩
    rename_i byHash txsList added
    obtain ⟨later, offered⟩ := @handle_offered κ _ setup world verifiers clock byHash txsList seq
    refine ⟨later, fun tx member => ?_⟩
    rcases offered tx member with resent | ⟨hash, given, present, resent⟩
    · exact ⟨.sequencer seq, .inl rfl, resent⟩
    rw [addTxs_get? added, GoMap.get?_empty, Option.none_or] at present
    exact ⟨given, .inr (by simpa using List.mem_of_find?_eq_some present), resent⟩

end SyncBuffer

end Batches

/-!
## Runs of the node
-/

section Runs

variable {κ : Type} [DecidableEq κ] {setup : Setup κ} {world : Nat → Moment κ}

/-- Proposals are tagged as sequencers, and those of a batch are accepted by the consensus
module. -/
def Event.Allowed (setup : Setup κ) (world : Nat → Moment κ) (node : Node) : Event → Prop
  | .proposal request =>
    ∀ message, request = some message → message.value.base.type = txBaseTypeSequencer
  | .catchUp seq txs =>
    ∀ given, seq = some given ∨ some (.sequencer given) ∈ txs →
      given.proposing = false ∧
        (world node.clock).annSensus.verifySequencer setup.bls given = some true
  | .message _ | .notify _ | .decision _ _ | .added _ _ | .loop _ | .releaser _ | .expire _ _ _ =>
    True

theorem handle_fair {crypto : Crypto} {m : IncrementalSyncer} {message : PeerMessage}
    {txs : List Txi} (handled : m.handle crypto message = .ok txs) : ∀ tx ∈ txs, tx.Fair := by
  intro tx member
  refine .of_unflagged fun seq isSeq => ?_
  rcases handle_mem handled member with ⟨⟨raw, built⟩, -⟩ | ⟨actionTx, -, isAction⟩ | isArchive
  · cases raw with
    | archive raw =>
      cases built
      cases isSeq
    | sequencer raw =>
      obtain ⟨record, isRecord, rfl⟩ := map_ok built
      obtain ⟨issuer, -, isRecord⟩ := bind_ok isRecord
      cases isRecord
      cases isSeq
      rfl
    | tx raw | campaign raw | termChange raw | action raw =>
      obtain ⟨record, isRecord, rfl⟩ := map_ok built
      cases isSeq
  · rw [isSeq] at isAction
    cases isAction
  · rw [isSeq] at isArchive
    cases isArchive

omit [DecidableEq κ] in
theorem handleConsensusProposal_fair {crypto : Crypto} {a : AnnSensus κ}
    {request : Option (Bft.MessageProposal Sequencer)} {tx : Txi}
    (tagged : ∀ message, request = some message → message.value.base.type = txBaseTypeSequencer)
    (accepted : a.handleConsensusProposal crypto request = some tx) : tx.Fair := by
  unfold AnnSensus.handleConsensusProposal at accepted
  split at accepted
  · cases accepted
  rename_i message
  simp only at accepted
  split_ifs at accepted
  cases accepted
  intro seq isSeq _
  cases isSeq
  exact tagged message rfl

namespace Node

variable {node next : Node} {offered : List Txi}
variable {txBuffer : TxBuffer}

theorem Guarded.advance (guarded : node.Guarded setup world) {later : Nat}
    (after : node.clock ≤ later) : ({ node with clock := later } : Node).Guarded setup world where
  queue := guarded.queue
  txBuffer := guarded.txBuffer
  loop tasks isTasks task member := (guarded.loop tasks isTasks task member).later after
  releaser tasks isTasks task member := (guarded.releaser tasks isTasks task member).later after

theorem Guarded.tick (guarded : node.Guarded setup world) : node.tick.Guarded setup world :=
  guarded.advance (le_succ node.clock)

private theorem nothing_offered {signed : Sequencer → Prop} :
    ∀ seq, Txi.sequencer seq ∈ [] → signed seq := by
  intro seq member
  cases member

theorem turn_guarded (guarded : node.Guarded setup world) {order : List Received}
    {tasks left : Option (List Task)}
    (sound : ∀ calls, tasks = some calls → ∀ task ∈ calls, task.Guarded setup world node.clock)
    (turned : node.turn setup (world node.clock) order tasks = some (left, txBuffer, offered)) :
    txBuffer.Guarded ∧
      (∀ calls, left = some calls → ∀ task ∈ calls, task.Guarded setup world (node.clock + 1)) ∧
      ∀ seq, .sequencer seq ∈ offered →
        ∃ moment < node.clock + 1, JointlySigned setup.bls (world moment) seq := by
  unfold Node.turn at turned
  split at turned
  next task rest =>
    have taskSound := sound (task :: rest) rfl task List.mem_cons_self
    split_ifs at turned with outOfOrder
    split at turned
    · cases turned
      exact ⟨guarded.txBuffer, nofun, nothing_offered⟩
    rename_i turn ran
    have inOrder : task.call = .resolve →
        node.txBuffer.ranges task.tx.tx.base.hash order = true := fun isResolve =>
      Bool.of_not_eq_false fun isFalse => outOfOrder ⟨isResolve, isFalse⟩
    have done := run_guarded guarded.txBuffer taskSound inOrder ran
    cases turned
    refine ⟨done.buffer, fun calls isCalls call member => ?_, done.offered⟩
    cases isCalls
    rcases mem_append.mp member with new | old
    · exact done.calls call new
    · exact (sound (task :: rest) rfl call (List.mem_cons_of_mem _ old)).later
        (le_succ node.clock)
  · cases turned
  · cases turned

theorem Guarded.enqueue (guarded : node.Guarded setup world) {txs : List Txi}
    (fair : ∀ tx ∈ txs, tx.Fair) :
    ({ node.tick with queue := node.queue ++ txs } : Node).Guarded setup world :=
  { guarded.tick with queue := List.forall_mem_append.mpr ⟨guarded.queue, fair⟩ }

theorem Guarded.handOver (guarded : node.Guarded setup world) {count : Nat} {keep : Txi → Bool}
    {now : Moment κ} {loop : Option (List Task)} (handled : node.txBuffer.handleTxs setup now
      (((node.queue.take count).filter keep).map (⟨·, .none⟩)) = some (txBuffer, loop)) :
    ({ node.tick with queue := node.queue.drop count, txBuffer, loop } : Node).Guarded
      setup world := by
  have fair : ∀ t ∈ (((node.queue.take count).filter keep).map (⟨·, .none⟩) : List Received),
      t.tx.Fair := by
    intro t member
    obtain ⟨tx, kept, rfl⟩ := mem_map.mp member
    exact guarded.queue tx (List.mem_of_mem_take (mem_filter.mp kept).1)
  obtain ⟨bufferGuarded, loopFair⟩ := handleTxs_guarded guarded.txBuffer fair handled
  refine { guarded.tick with
    queue := fun tx member => guarded.queue tx (List.mem_of_mem_drop member)
    txBuffer := bufferGuarded
    loop := fun tasks isTasks task member => ?_ }
  obtain ⟨isFair, notResolve⟩ := loopFair tasks isTasks task member
  exact .of_fair isFair notResolve

theorem Guarded.decide (guarded : node.Guarded setup world) {seq : Sequencer}
    (unflagged : seq.proposing = false) :
    ({ node.tick with loop := some [⟨.handleTx, ⟨.sequencer seq, .none⟩⟩] } : Node).Guarded
      setup world := by
  refine { guarded.tick with loop := fun tasks isTasks task member => ?_ }
  cases isTasks
  rw [mem_singleton.mp member]
  refine .of_fair (.of_unflagged fun decided isDecided => ?_) (by decide)
  cases isDecided
  exact unflagged

theorem batch_jointlySigned {seq : Option Sequencer} {txs : List (Option Txi)}
    (isAllowed : Event.Allowed setup world node (.catchUp seq txs)) {offered : Sequencer}
    (member : .sequencer offered ∈
      (SyncBuffer.addBatch setup world sharedVerifiers node.clock seq txs).offered) :
    JointlySigned setup.bls (world node.clock) offered := by
  obtain ⟨-, fromBatch⟩ :=
    @SyncBuffer.addBatch_offered κ _ setup world sharedVerifiers node.clock seq txs
  obtain ⟨tx, isGiven, resent⟩ := fromBatch _ member
  refine .resent resent fun given isSeq => ?_
  subst isSeq
  have asked := isAllowed given <| isGiven.imp_left fun isLast => by
    obtain ⟨last, isLast, same⟩ := map_eq_some_iff.mp isLast
    cases same
    exact isLast
  exact verifySequencer_jointlySigned asked.2 asked.1

theorem step_guarded (guarded : node.Guarded setup world) {event : Event}
    (isAllowed : event.Allowed setup world node)
    (stepped : node.step setup world event = some (next, offered)) :
    next.Guarded setup world ∧ node.clock < next.clock ∧ ∀ seq, .sequencer seq ∈ offered →
        ∃ moment < next.clock, JointlySigned setup.bls (world moment) seq := by
  have later : node.clock < node.clock + 1 := lt_succ_self node.clock
  cases event with
  | message message =>
    obtain ⟨txs, handled, same⟩ := map_eq_some_iff.mp stepped
    cases same
    exact ⟨guarded.enqueue (handle_fair (ok_of_toOption handled)), later, nothing_offered⟩
  | proposal request =>
    cases stepped
    refine ⟨guarded.enqueue fun tx member => ?_, later, nothing_offered⟩
    split at member
    · cases member
    rename_i proposed accepted
    rw [handleNewTxi_mem member]
    exact handleConsensusProposal_fair isAllowed accepted
  | notify count =>
    simp only [Node.step] at stepped
    split_ifs at stepped
    obtain ⟨⟨txBuffer, loop⟩, handled, isNext⟩ := map_eq_some_iff.mp stepped
    cases isNext
    exact ⟨guarded.handOver handled, later, nothing_offered⟩
  | decision seq sigShares =>
    simp only [Node.step] at stepped
    split_ifs at stepped
    split at stepped
    · cases stepped
      exact ⟨guarded.tick, later, nothing_offered⟩
    · cases stepped
      exact ⟨guarded.decide rfl, later, nothing_offered⟩
  | catchUp seq txs =>
    cases stepped
    obtain ⟨after, -⟩ :=
      @SyncBuffer.addBatch_offered κ _ setup world sharedVerifiers node.clock seq txs
    exact ⟨guarded.advance after.le, after, fun offered member =>
      ⟨node.clock, after, batch_jointlySigned isAllowed member⟩⟩
  | added hash order =>
    simp only [Node.step] at stepped
    split_ifs at stepped with busy
    cases stepped
    have inOrder : node.txBuffer.ranges hash order = true :=
      Bool.of_not_eq_false fun isFalse => busy (.inr isFalse)
    refine ⟨{ guarded.tick with
      txBuffer := guarded.txBuffer.forget _ hash
      releaser := fun tasks isTasks task member => ?_ }, later, nothing_offered⟩
    cases isTasks
    obtain ⟨child, kept, rfl⟩ := mem_map.mp member
    exact .of_fair (guarded.txBuffer.ranges inOrder child (mem_filter.mp kept).1) (by decide)
  | loop order =>
    obtain ⟨⟨loop, txBuffer, new⟩, turned, isNext⟩ := map_eq_some_iff.mp stepped
    obtain ⟨bufferGuarded, loopGuarded, signed⟩ := turn_guarded guarded guarded.loop turned
    cases isNext
    exact ⟨{ guarded.tick with txBuffer := bufferGuarded, loop := loopGuarded }, later, signed⟩
  | releaser order =>
    obtain ⟨⟨releaser, txBuffer, new⟩, turned, isNext⟩ := map_eq_some_iff.mp stepped
    obtain ⟨bufferGuarded, releaserGuarded, signed⟩ := turn_guarded guarded guarded.releaser turned
    cases isNext
    exact ⟨{ guarded.tick with txBuffer := bufferGuarded, releaser := releaserGuarded }, later,
      signed⟩
  | expire queued known waiting =>
    cases stepped
    refine ⟨{ guarded.tick with
      queue := fun tx member => guarded.queue tx (mem_filter.mp member).1
      txBuffer := guarded.txBuffer.expire _ waiting }, later, nothing_offered⟩

theorem newNode_guarded : (newNode false).Guarded setup world where
  queue := forall_mem_nil _
  txBuffer := ⟨rfl, rfl, fun _ => forall_mem_nil _⟩
  loop tasks isTasks task member := by
    cases isTasks
    cases member
  releaser tasks isTasks task member := by
    cases isTasks
    cases member

end Node

/-- Where verifiers are asked, proposals are tagged and batches carry accepted sequencers, those
offered were jointly signed for a known term. -/
theorem offered_jointlySigned {node : Node} {offered : List Txi}
    (run : Run (Node.Steps setup world) (Event.Allowed setup world) (newNode false) node offered) :
    ∀ seq, .sequencer seq ∈ offered →
      ∃ moment < node.clock, JointlySigned setup.bls (world moment) seq := by
  refine (run.invariant (motive := fun node offered => node.Guarded setup world ∧
    ∀ seq, .sequencer seq ∈ offered →
      ∃ moment < node.clock, JointlySigned setup.bls (world moment) seq)
    ⟨Node.newNode_guarded, Node.nothing_offered⟩ ?_).2
  rintro before after earlier new event ⟨guarded, signed⟩ isAllowed stepped
  obtain ⟨nextGuarded, later, newSigned⟩ := Node.step_guarded guarded isAllowed stepped
  refine ⟨nextGuarded, fun seq member => ?_⟩
  rcases mem_append.mp member with old | new
  · obtain ⟨moment, isBefore, isSigned⟩ := signed seq old
    exact ⟨moment, isBefore.trans later, isSigned⟩
  · exact newSigned seq new

end Runs

def Bls.plain : Bls Bytes where
  unmarshalBinaryPointG2 := some
  verify key message signature := signature == key ++ message

def Setup.plain : Setup Bytes := ⟨Crypto.plain, Bls.plain, TxFormatVerifier.configured⟩

def Moment.serving : Moment Bytes where
  isLocalHash hash := hash == 5
  verifyGraph _ := some true
  addRemoteTx _ := .added
  height := 0
  syncEnabled := true
  cacheNewTxEnabled := false
  annSensus :=
    { dkg := ⟨0, some [9], none⟩
      dkgTermId := 0
      isSenator := fun _ => true
      started := true
      verifyCampaign := fun _ => some true
      verifyTermChange := fun _ => some true
      bftStarted := true
      partners := [[1]]
      recoverAndVerifySignature := fun _ message => some (9 :: message) }

def RawSequencer.first (jointly : Bytes → Bytes) : RawSequencer :=
  let base : TxBase := ⟨txBaseTypeSequencer, 0, [5], 0, 1, [1], [], 0, 1, 0⟩
  let hash := base.calcTxHash Crypto.plain.sha3 false
  ⟨{ base with hash }, jointly (hashBytes hash), [9], 0, 0⟩

def Sequencer.first (jointly : Bytes → Bytes) : Sequencer :=
  let raw := RawSequencer.first jointly
  ⟨raw.base, some 1, raw.blsJointSig, raw.blsJointPubKey, raw.stateRoot, false, raw.timestamp⟩

namespace Node

variable {κ : Type} [DecidableEq κ] {setup : Setup κ} {world : Nat → Moment κ}
  {allowed : Node → Event → Prop} {start node next : Node} {offered new : List Txi}

private theorem run_after (event : Event) (run : Run (Steps setup world) allowed start node offered)
    (isAllowed : allowed node event) (stepped : node.step setup world event = some (next, new)) :
    Run (Steps setup world) allowed start next (offered ++ new) :=
  .next run isAllowed stepped

end Node

set_option maxRecDepth 4000 in
theorem offered_jointlySigned_first :
    ∃ node, Run (Node.Steps Setup.plain fun _ => Moment.serving)
        (Event.Allowed Setup.plain fun _ => Moment.serving) (newNode false) node
        [.sequencer (.first (9 :: ·))] ∧
      ∃ moment < node.clock, JointlySigned Setup.plain.bls Moment.serving (.first (9 :: ·)) := by
  have idle : Run (Node.Steps Setup.plain fun _ => Moment.serving)
      (Event.Allowed Setup.plain fun _ => Moment.serving) (newNode false) _ [] := .start
  have received := Node.run_after (.message (.newSequencer (some (.first (9 :: ·))))) idle trivial rfl
  have queued := Node.run_after (.notify 1) received trivial rfl
  have checked := Node.run_after (.loop []) queued trivial rfl
  have accepted := Node.run_after (.loop []) checked trivial rfl
  have run := Node.run_after (.loop []) accepted trivial rfl
  exact ⟨_, run, offered_jointlySigned run _ (mem_singleton.mpr rfl)⟩

/-- A batch with a sequencer that nobody has signed jointly. -/
theorem unsigned_batch_offered :
    ∃ node, Run (Node.Steps Setup.plain fun _ => Moment.serving) (fun _ _ => True) (newNode false)
        node [.sequencer (.first fun _ => [])] ∧
      ¬ JointlySigned Setup.plain.bls Moment.serving (.first fun _ => []) := by
  have idle : Run (Node.Steps Setup.plain fun _ => Moment.serving) (fun _ _ => True)
      (newNode false) _ [] := .start
  have run := Node.run_after (.catchUp (some (.first fun _ => [])) []) idle trivial rfl
  refine ⟨_, run, ?_⟩
  rintro ⟨key, known, -, verified⟩
  rcases known with isKey | isKey
  · cases isKey
    cases verified
  · cases isKey

end AnnchainOG.Wire
