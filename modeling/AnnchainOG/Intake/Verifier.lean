import AnnchainOG.Wire.Binding

/-!
# The format verifier

The primitives of the signature schemes are parameters. A transaction that was accepted is marked
and not looked at again.
-/

namespace AnnchainOG.Wire

structure Crypto where
  canRecoverPubFromSig : Bool
  verify : Bytes → Bytes → Bytes → Bool
  addressFromPubKeyBytes : Bytes → Except Panic Address
  validateSignatureValues : UInt8 → Nat → Nat → Bool
  ecrecover : Bytes → Bytes → Option Bytes
  sha256 : Bytes → Bytes
  keccak256 : Bytes → Hash
  sha3 : Bytes → Hash

inductive VerifiedType where
  | none
  | format
  | graph
  | formatAndGraph
  deriving DecidableEq

def VerifiedType.isFormatVerified : VerifiedType → Bool
  | .format | .formatAndGraph => true
  | .none | .graph => false

def VerifiedType.merge (status mark : VerifiedType) : VerifiedType :=
  match mark with
  | .format => if status = .graph then .formatAndGraph else .format
  | .graph => if status = .format then .formatAndGraph else .graph
  | _ => .none

structure Received where
  tx : Txi
  verified : VerifiedType
  deriving DecidableEq

def Txi.isArchive : Txi → Bool
  | .archive _ => true
  | _ => false

/-- `Dump`, as far as it follows pointers. -/
def Txi.dump : Txi → Except Panic Unit
  | .tx record => do let _ ← deref record.sender
  | .sequencer record => do let _ ← deref record.issuer
  | .campaign _ => .ok ()
  | .termChange record => do let _ ← record.sigSet.mapM deref
  | .archive _ => .ok ()
  | .action record => do let _ ← deref record.sender

structure TxFormatVerifier where
  maxTxHash : Hash
  maxMinedHash : Hash
  noVerifyMindHash : Bool
  noVerifyMaxTxHash : Bool
  noVerifySignatrue : Bool
  deriving DecidableEq

section Verifier

variable (crypto : Crypto)

def TxFormatVerifier.verifyHash (v : TxFormatVerifier) (tx : Txi) : Bool :=
  (v.noVerifyMindHash ||
      decide (tx.calcMinedHash crypto.sha3 crypto.canRecoverPubFromSig < v.maxMinedHash)) &&
    decide (tx.calcTxHash crypto.sha3 crypto.canRecoverPubFromSig = tx.base.hash) &&
    (v.noVerifyMaxTxHash || decide (tx.base.hash < v.maxTxHash))

def Crypto.recoveredAddress (key : Bytes) : Address :=
  (crypto.keccak256 key).setWidth 160

/-- A recovery that fails is logged and followed by `pub[1:]`. -/
def verifyRecovered (tx : Txi) : Except Panic (Bool × Txi) := do
  let signature := tx.base.signature
  if signature.length ≠ 65 then
    return (false, tx)
  let r := ofBigEndian (signature.take 32)
  let s := ofBigEndian ((signature.drop 32).take 32)
  -- 27 is added to a byte and taken from it again, so the length check between never fails
  let v := (signature.getD 64 0 + 27) - 27
  if !crypto.validateSignatureValues v r s then
    return (false, tx)
  let targets ← tx.signatureTargets crypto.canRecoverPubFromSig
  match crypto.ecrecover (crypto.sha256 targets) (bigEndian 32 r ++ bigEndian 32 s ++ [v]) with
  | some (_ :: key) => return (true, tx.setSender (crypto.recoveredAddress key))
  | some [] => .error .sliceBounds
  | none => .error .sliceBounds

def TxFormatVerifier.verifySignature (tx : Txi) : Except Panic (Bool × Txi) := do
  if tx.getType = txBaseTypeArchive then
    return (true, tx)
  if !crypto.canRecoverPubFromSig then
    match ← tx.getSender with
    | none => return (false, tx)
    | some _ =>
      let targets ← tx.signatureTargets crypto.canRecoverPubFromSig
      return (crypto.verify tx.base.publicKey tx.base.signature targets, tx)
  else
    verifyRecovered crypto tx

/-- The signature is looked at only where `NoVerifySignatrue` is set. -/
def TxFormatVerifier.verify (v : TxFormatVerifier) (t : Received) :
    Except Panic (Bool × Received) := do
  if t.verified.isFormatVerified then
    return (true, t)
  if !v.verifyHash crypto t.tx then
    return (false, t)
  if v.noVerifySignatrue then
    let (isSigned, tx) ← TxFormatVerifier.verifySignature crypto t.tx
    if !isSigned then
      let _ ← tx.signatureTargets crypto.canRecoverPubFromSig
      tx.dump
      return (false, { t with tx := tx })
    return (true, ⟨tx, t.verified.merge .format⟩)
  return (true, { t with verified := t.verified.merge .format })

def Signed (tx : Txi) : Prop :=
  ∃ targets, tx.signatureTargets crypto.canRecoverPubFromSig = .ok targets ∧
    if crypto.canRecoverPubFromSig then
      ∃ first key, crypto.ecrecover (crypto.sha256 targets) tx.base.signature = some (first :: key) ∧
        tx.getSender = .ok (some (crypto.recoveredAddress key))
    else crypto.verify tx.base.publicKey tx.base.signature targets = true

/-- What is accepted is an archive, was accepted before, or has the hash of its content and a
signature that covers it. -/
def TxFormatVerifier.Authentic (v : TxFormatVerifier) (t : Received) : Prop :=
  ∃ accepted after, v.verify crypto t = .ok (accepted, after) ∧
    (accepted = true → t.tx.isArchive = true ∨ t.verified.isFormatVerified = true ∨
      (after.tx.calcTxHash crypto.sha3 crypto.canRecoverPubFromSig = after.tx.base.hash ∧
        Signed crypto after.tx))

end Verifier

section Properties

variable {crypto : Crypto} {v : TxFormatVerifier}
variable {tx : Txi}

theorem verifyHash_calcTxHash (valid : v.verifyHash crypto tx = true) :
    tx.calcTxHash crypto.sha3 crypto.canRecoverPubFromSig = tx.base.hash := by
  simp only [TxFormatVerifier.verifyHash, Bool.and_eq_true, decide_eq_true_eq] at valid
  exact valid.1.2

theorem verifySignature_signed (keyed : crypto.canRecoverPubFromSig = false) {after : Txi}
    (answer : TxFormatVerifier.verifySignature crypto tx = .ok (true, after)) :
    after = tx ∧ (tx.getType = txBaseTypeArchive ∨ Signed crypto tx) := by
  unfold TxFormatVerifier.verifySignature at answer
  by_cases isArchive : tx.getType = txBaseTypeArchive
  · rw [if_pos isArchive] at answer
    cases answer
    exact ⟨rfl, .inl isArchive⟩
  rw [if_neg isArchive, keyed] at answer
  obtain ⟨sender, _, answer⟩ := bind_ok answer
  cases sender with
  | none => cases answer
  | some sender =>
    obtain ⟨targets, isTargets, answer⟩ := bind_ok answer
    obtain ⟨verified, rfl⟩ := Prod.mk.inj (Except.ok.inj answer)
    refine ⟨rfl, .inr ⟨targets, ?_, ?_⟩⟩
    · rw [keyed]
      exact isTargets
    · rw [keyed]
      exact verified

theorem verify_active (active : v.noVerifySignatrue = true) {after : Received}
    (passed : v.verify crypto ⟨tx, .none⟩ = .ok (true, after)) :
    v.verifyHash crypto tx = true ∧
      TxFormatVerifier.verifySignature crypto tx = .ok (true, after.tx) := by
  unfold TxFormatVerifier.verify at passed
  rw [active] at passed
  cases valid : v.verifyHash crypto tx with
  | false =>
    simp only [valid] at passed
    cases passed
  | true =>
    simp only [valid] at passed
    obtain ⟨⟨isSigned, signed⟩, answer, passed⟩ := bind_ok passed
    cases isSigned with
    | false =>
      obtain ⟨targets, _, passed⟩ := bind_ok passed
      obtain ⟨dumped, _, passed⟩ := bind_ok passed
      cases passed
    | true =>
      cases passed
      exact ⟨rfl, answer⟩

theorem verify_configured (configured : v.noVerifySignatrue = false) (t : Received) :
    v.verify crypto t = if t.verified.isFormatVerified then .ok (true, t)
      else if v.verifyHash crypto t.tx then
        .ok (true, { t with verified := t.verified.merge .format }) else .ok (false, t) := by
  unfold TxFormatVerifier.verify
  rw [configured]
  cases t.verified.isFormatVerified <;> cases v.verifyHash crypto t.tx <;> rfl

end Properties

/-- A scheme whose signature is the key followed by the message, over a digest that keeps the
last 32 bytes. -/
def Crypto.plain : Crypto where
  canRecoverPubFromSig := false
  verify publicKey signature message := signature == publicKey ++ message
  addressFromPubKeyBytes publicKey := .ok (.ofNat 160 (ofBigEndian publicKey))
  validateSignatureValues _ _ _ := true
  ecrecover _ _ := none
  sha256 := id
  keccak256 bytes := .ofNat 256 (ofBigEndian bytes)
  sha3 bytes := .ofNat 256 (ofBigEndian bytes)

def TxFormatVerifier.configured : TxFormatVerifier where
  maxTxHash := 0
  maxMinedHash := 0
  noVerifyMindHash := true
  noVerifyMaxTxHash := true
  noVerifySignatrue := false

/-- A transfer of 100 units from account 1, whose key is the byte 1, with the hash of its content. -/
def Txi.transferSigned (signature : Bytes) : Txi :=
  let base : TxBase := ⟨txBaseTypeNormal, 0, [5], 3, 0, [1], signature, 0, 1, 0⟩
  .tx { Tx.paying 100 [] with base := { base with hash := base.calcTxHash Crypto.plain.sha3 false } }

end AnnchainOG.Wire
