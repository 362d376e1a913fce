import AnnchainOG.Intake.Verifier

/-!
# Sealing

A node mines a transaction and connects it to parents. A sequencer is signed after that.
-/

namespace AnnchainOG.Wire

def Txi.mapBase (change : TxBase → TxBase) : Txi → Txi
  | .tx record => .tx { record with base := change record.base }
  | .sequencer record => .sequencer { record with base := change record.base }
  | .campaign record => .campaign { record with base := change record.base }
  | .termChange record => .termChange { record with base := change record.base }
  | .archive record => .archive { record with base := change record.base }
  | .action record => .action { record with base := change record.base }

structure TxCreator where
  maxTxHash : Hash
  maxMinedHash : Hash
  maxConnectingTries : Nat
  noVerifyMindHash : Bool
  noVerifyMaxTxHash : Bool

structure KeyPair where
  publicKey : Bytes
  address : Address
  sign : Bytes → Bytes

/-- The parents an attempt picks, what the graph verifier and the pool answer, and the state
root. -/
structure Attempt where
  quit : Bool
  parents : List Txi
  verified : Bool
  isBadSeq : Bool
  stateRoot : Option Hash

/-- A round of mining, which the timer ends after `turns` nonces. -/
structure Round where
  quit : Bool
  turns : Nat
  attempts : List Attempt

def calculateWeight (parents : List Txi) : UInt64 :=
  parents.foldl (fun weight parent => max weight parent.base.weight) 0 + 1

def TxBase.connect (parents : List Txi) (base : TxBase) : TxBase :=
  { base with weight := calculateWeight parents, parentsHash := parents.map (·.base.hash) }

section Crypto

variable (crypto : Crypto)

def Txi.minedHash (tx : Txi) : Hash := tx.calcMinedHash crypto.sha3 crypto.canRecoverPubFromSig

def Txi.txHash (tx : Txi) : Hash := tx.calcTxHash crypto.sha3 crypto.canRecoverPubFromSig

def Txi.rehash (tx : Txi) : Txi := tx.mapBase ({ · with hash := tx.txHash crypto })

def startMine (targetMax : Hash) : Nat → UInt64 → Txi → Option Txi
  | 0, _, _ => none
  | turns + 1, nonce, tx =>
    let tx := tx.mapBase ({ · with mineNonce := nonce })
    if tx.minedHash crypto < targetMax then some tx else startMine targetMax turns (nonce + 1) tx

namespace TxCreator

variable (creator : TxCreator)

def verifier (noVerifySignatrue : Bool) : TxFormatVerifier :=
  ⟨creator.maxTxHash, creator.maxMinedHash, creator.noVerifyMindHash, creator.noVerifyMaxTxHash,
    noVerifySignatrue⟩

section Seal

variable (key : Option KeyPair)

def tryConnect (tx : Txi) (parents : List Txi) (verified : Bool) : Except Panic (Bool × Txi) :=
  let connected := tx.mapBase (·.connect parents)
  let hashed := connected.rehash crypto
  if creator.noVerifyMaxTxHash || hashed.base.hash < creator.maxTxHash then
    if verified && hashed.getType = txBaseTypeSequencer then do
      let key ← deref key
      let targets ← hashed.signatureTargets crypto.canRecoverPubFromSig
      return (true, (hashed.mapBase ({ · with signature := key.sign targets })).rehash crypto)
    else .ok (verified, hashed)
  else .ok (false, connected)

def connect (tx : Txi) : List Attempt → Except Panic (Option Bool × Txi)
  | [] => .ok (some false, tx)
  | attempt :: rest =>
    if attempt.quit then .ok (none, tx)
    else if attempt.parents = [] then connect tx rest
    else do
      let (ok, tx) ← creator.tryConnect crypto key tx attempt.parents attempt.verified
      if ok then return (some true, tx) else connect tx rest

def mine (turns : Nat) (start : UInt64) (tx : Txi) : Option Txi :=
  if creator.noVerifyMindHash then some (tx.mapBase ({ · with mineNonce := 1 }))
  else startMine crypto creator.maxMinedHash turns start tx

def mineAndConnect (round : Round) (start : UInt64) (tx : Txi) : Except Panic (Option Bool × Txi) :=
  if round.quit then .ok (none, tx)
  else
    match creator.mine crypto round.turns start tx with
    | none => .ok (none, tx)
    | some tx => creator.connect crypto key tx (round.attempts.take creator.maxConnectingTries)

/-- A second round ends with a refusal, even if it connects the transaction. -/
def sealTx (first second : Round) (tx : Txi) : Except Panic (Bool × Txi) := do
  let (done, tx) ← creator.mineAndConnect crypto key first 1 tx
  if done = some false then
    let (_, tx) ← creator.mineAndConnect crypto key second (tx.base.mineNonce + 1) tx
    return (false, tx)
  else return (done = some true, tx)

end Seal

variable (key : KeyPair)

def propose (seq : Sequencer) : List Attempt → Except Panic (Option Sequencer × Bool)
  | [] => .ok (none, false)
  | attempt :: rest =>
    if attempt.quit then .ok (some seq, false)
    else if attempt.parents = [] then propose seq rest
    else
      let seq := { seq with base := seq.base.connect attempt.parents }
      if attempt.verified then
        match attempt.stateRoot with
        | none => .ok (none, false)
        | some root => do
          let seq := { seq with stateRoot := root }
          let targets ← seq.signatureTargets crypto.canRecoverPubFromSig
          let base := { seq.base with signature := key.sign targets }
          let hash := base.calcTxHash crypto.sha3 crypto.canRecoverPubFromSig
          return (some { seq with base := { base with hash := hash } }, false)
      else if attempt.isBadSeq then .ok (none, true)
      else propose seq rest

def generateSequencer (height accountNonce : UInt64) (timestamp : Int64)
    (blsPubKey : Option Bytes) (attempts : List Attempt) : Except Panic (Option Sequencer × Bool) :=
  let base := ⟨txBaseTypeSequencer, 0, [], accountNonce, height, key.publicKey, [], 0, 0, 0⟩
  propose crypto key
    ⟨base, some key.address, [], blsPubKey.getD [], 0, blsPubKey.isSome, timestamp⟩
    (attempts.take creator.maxConnectingTries)

/-- Only a sequencer may exceed the limit. -/
def Mined (tx : Txi) : Prop :=
  tx.getType ≠ txBaseTypeSequencer →
    creator.noVerifyMindHash = true ∨ tx.minedHash crypto < creator.maxMinedHash

structure Sealed (tx : Txi) : Prop where
  mined : creator.Mined crypto tx
  hash : tx.txHash crypto = tx.base.hash
  limit : tx.getType ≠ txBaseTypeSequencer →
    creator.noVerifyMaxTxHash = true ∨ tx.base.hash < creator.maxTxHash

end TxCreator

end Crypto

namespace TxCreator

/-- Whatever is sealed or generated has an accepted hash, with any primitives; `mayQuit` tells
whether the node may quit meanwhile. -/
def Accepted (creator : TxCreator) (mayQuit : Bool) : Prop :=
  (∀ crypto key first second tx after signatures,
      creator.sealTx crypto key first second tx = .ok (true, after) →
        (creator.verifier signatures).verifyHash crypto after = true) ∧
    ∀ crypto key height nonce timestamp blsPubKey attempts seq again signatures,
      (∀ attempt ∈ attempts, attempt.quit = true → mayQuit = true) →
      creator.generateSequencer crypto key height nonce timestamp blsPubKey attempts =
        .ok (some seq, again) →
        (creator.verifier signatures).verifyHash crypto (.sequencer seq) = true

variable {creator : TxCreator} {crypto : Crypto} {key : Option KeyPair} {tx after : Txi}

theorem verifyHash_iff {signatures : Bool} :
    (creator.verifier signatures).verifyHash crypto tx = true ↔
      (creator.noVerifyMindHash = true ∨ tx.minedHash crypto < creator.maxMinedHash) ∧
      tx.txHash crypto = tx.base.hash ∧
      (creator.noVerifyMaxTxHash = true ∨ tx.base.hash < creator.maxTxHash) := by
  rw [TxFormatVerifier.verifyHash, Bool.and_eq_true, Bool.and_eq_true, Bool.or_eq_true,
    Bool.or_eq_true, decide_eq_true_eq, decide_eq_true_eq, decide_eq_true_eq, and_assoc]
  rfl

theorem tryConnect_spec (mined : creator.Mined crypto tx) {parents : List Txi} {verified ok : Bool}
    (tried : creator.tryConnect crypto key tx parents verified = .ok (ok, after)) :
    if ok then creator.Sealed crypto after else creator.Mined crypto after := by
  have stillMined : creator.Mined crypto ((tx.mapBase (·.connect parents)).rehash crypto) := by
    cases tx <;> exact mined
  have rehashed (tx : Txi) : (tx.rehash crypto).txHash crypto = (tx.rehash crypto).base.hash := by
    cases tx <;> rfl
  unfold tryConnect at tried
  dsimp only at tried
  split at tried
  next within =>
    rw [Bool.or_eq_true, decide_eq_true_eq] at within
    split at tried
    next signs =>
      obtain ⟨key, -, tried⟩ := bind_ok tried
      obtain ⟨targets, -, tried⟩ := bind_ok tried
      cases tried
      have isSequencer : ((((tx.mapBase (·.connect parents)).rehash crypto).mapBase
          ({ · with signature := key.sign targets })).rehash crypto).getType =
            txBaseTypeSequencer := by
        cases tx <;> exact decide_eq_true_eq.mp (Bool.and_eq_true_iff.mp signs).2
      exact ⟨(absurd isSequencer ·), rehashed _, (absurd isSequencer ·)⟩
    · cases tried
      split
      · exact ⟨stillMined, rehashed _, fun _ => within⟩
      · exact stillMined
  · cases tried
    cases tx <;> exact mined

theorem connect_sealed {attempts : List Attempt} (mined : creator.Mined crypto tx)
    (connected : creator.connect crypto key tx attempts = .ok (some true, after)) :
    creator.Sealed crypto after := by
  induction attempts generalizing tx with
  | nil => cases connected
  | cons attempt rest ih =>
    unfold connect at connected
    split at connected
    · cases connected
    split at connected
    · exact ih mined connected
    obtain ⟨⟨ok, next⟩, tried, connected⟩ := bind_ok connected
    have spec := tryConnect_spec mined tried
    cases ok with
    | true =>
      cases connected
      exact spec
    | false => exact ih spec connected

theorem startMine_below {targetMax : Hash} {turns : Nat} {start : UInt64}
    (mined : startMine crypto targetMax turns start tx = some after) :
    after.minedHash crypto < targetMax := by
  induction turns generalizing start tx with
  | zero => cases mined
  | succ turns ih =>
    unfold startMine at mined
    dsimp only at mined
    split at mined
    · cases mined
      assumption
    · exact ih mined

theorem sealTx_sealed {first second : Round}
    (isSealed : creator.sealTx crypto key first second tx = .ok (true, after)) :
    creator.maxConnectingTries ≠ 0 ∧ creator.Sealed crypto after := by
  obtain ⟨⟨done, next⟩, connected, isSealed⟩ := bind_ok isSealed
  dsimp only at isSealed
  split at isSealed
  · obtain ⟨_, -, refused⟩ := bind_ok isSealed
    cases refused
  obtain ⟨isDone, rfl⟩ := Prod.mk.inj (Except.ok.inj isSealed)
  rw [decide_eq_true_eq.mp isDone] at connected
  unfold mineAndConnect at connected
  split at connected
  · cases connected
  split at connected
  · cases connected
  rename_i mined isMined
  refine ⟨fun noTries => ?_, connect_sealed (fun _ => ?_) connected⟩
  · rw [noTries] at connected
    cases connected
  · unfold mine at isMined
    split at isMined
    · exact .inl ‹_›
    · exact .inr (startMine_below isMined)

theorem propose_hash {key : KeyPair} {seq start : Sequencer} {again : Bool}
    {attempts : List Attempt} (noQuit : ∀ attempt ∈ attempts, attempt.quit = false)
    (generated : propose crypto key start attempts = .ok (some seq, again)) :
    (Txi.sequencer seq).txHash crypto = seq.base.hash := by
  induction attempts generalizing start with
  | nil => cases generated
  | cons attempt rest ih =>
    have restNoQuit := fun other member => noQuit other (List.mem_cons_of_mem _ member)
    unfold propose at generated
    rw [noQuit attempt List.mem_cons_self, if_neg Bool.false_ne_true] at generated
    split at generated
    · exact ih restNoQuit generated
    dsimp only at generated
    split at generated
    · split at generated
      · cases generated
      obtain ⟨targets, -, generated⟩ := bind_ok generated
      cases generated
      rfl
    split at generated
    · cases generated
    · exact ih restNoQuit generated

def saturated : Crypto :=
  { Crypto.plain with sha3 := fun _ => BitVec.allOnes 256 }

theorem not_below (limit : Hash) : ¬ BitVec.allOnes 256 < limit := by
  rw [BitVec.lt_def, BitVec.toNat_allOnes]
  omega

theorem Accepted.unchecked {mayQuit : Bool} (accepted : creator.Accepted mayQuit)
    (tries : creator.maxConnectingTries ≠ 0) :
    creator.noVerifyMindHash = true ∧ creator.noVerifyMaxTxHash = true ∧ mayQuit = false := by
  obtain ⟨left, isTries⟩ := Nat.exists_eq_succ_of_ne_zero tries
  have answer (quit : Bool) (allowed : quit = true → mayQuit = true) :
      ∃ seq : Sequencer, seq.base.hash = (if quit then 0 else BitVec.allOnes 256) ∧
        (creator.verifier false).verifyHash saturated (.sequencer seq) = true := by
    have accepts := accepted.2 saturated ⟨[], 0, id⟩ 1 1 0 none
      [⟨quit, [.transferSigned []], true, false, some 0⟩]
    simp only [generateSequencer, isTries] at accepts
    cases quit with
    | true => exact ⟨_, rfl, accepts _ _ _ (by simpa using allowed) rfl⟩
    | false => exact ⟨_, rfl, accepts _ _ _ (by simp) rfl⟩
  obtain ⟨seq, isHash, valid⟩ := answer false nofun
  obtain ⟨mined, -, limited⟩ := verifyHash_iff.mp valid
  refine ⟨mined.resolve_right (not_below _), limited.resolve_right ?_,
    Bool.eq_false_iff.mpr fun may => ?_⟩
  · exact isHash ▸ not_below _
  · obtain ⟨unhashed, isZero, valid⟩ := answer true fun _ => may
    have aligned : BitVec.allOnes 256 = unhashed.base.hash := (verifyHash_iff.mp valid).2.1
    exact absurd (aligned.trans isZero) (by decide)

/-- What is sealed is accepted; a sequencer exactly if neither limit is checked and the node
does not quit, or nothing is ever connected. -/
theorem sealed_accepted_iff (creator : TxCreator) (mayQuit : Bool) :
    (∀ crypto key first second tx after signatures,
        creator.sealTx crypto key first second tx = .ok (true, after) →
          after.getType ≠ txBaseTypeSequencer →
            (creator.verifier signatures).verifyHash crypto after = true) ∧
      (creator.Accepted mayQuit ↔ creator.maxConnectingTries = 0 ∨
        creator.noVerifyMindHash = true ∧ creator.noVerifyMaxTxHash = true ∧ mayQuit = false) := by
  refine ⟨fun crypto key first second tx after signatures isSealed notSequencer => ?_,
    fun accepted => Decidable.or_iff_not_imp_left.mpr accepted.unchecked, ?_⟩
  · obtain ⟨mined, hash, limit⟩ := (sealTx_sealed isSealed).2
    exact verifyHash_iff.mpr ⟨mined notSequencer, hash, limit notSequencer⟩
  rintro (noTries | ⟨unmined, unlimited, noQuit⟩)
  · refine ⟨fun crypto key first second tx after signatures isSealed => ?_, ?_⟩
    · exact absurd noTries (sealTx_sealed isSealed).1
    · intro crypto key height nonce timestamp blsPubKey attempts seq again signatures _ generated
      rw [generateSequencer, noTries] at generated
      cases generated
  · refine ⟨fun crypto key first second tx after signatures isSealed => ?_, ?_⟩
    · exact verifyHash_iff.mpr ⟨.inl unmined, (sealTx_sealed isSealed).2.hash, .inl unlimited⟩
    · intro crypto key height nonce timestamp blsPubKey attempts seq again signatures quits generated
      rw [noQuit] at quits
      refine verifyHash_iff.mpr ⟨.inl unmined, propose_hash (fun attempt member => ?_) generated,
        .inl unlimited⟩
      exact Bool.eq_false_iff.mpr fun quit =>
        Bool.false_ne_true (quits attempt (List.mem_of_mem_take member) quit)

theorem unmined_generated :
    let creator : TxCreator := ⟨1, 1, 1, false, false⟩
    ∃ seq, creator.generateSequencer .plain ⟨[1], 1, ([1] ++ ·)⟩ 1 1 0 none
        [⟨false, [.transferSigned []], true, false, some 0⟩] = .ok (some seq, false) ∧
      (creator.verifier false).verifyHash .plain (.sequencer seq) = false :=
  ⟨_, rfl, by decide +kernel⟩

end TxCreator

end AnnchainOG.Wire
