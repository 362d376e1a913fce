import AnnchainOG.Wire.RoundTrip

/-!
# Records in the database

Transactions are stored in full behind four bytes that say what kind they are. The flag of a
proposal is not stored.
-/

namespace AnnchainOG.Wire

open Codec List

def Txi.kind : Txi → Kind
  | .tx _ => .tx
  | .sequencer _ => .sequencer
  | .campaign _ => .campaign
  | .termChange _ => .termChange
  | .archive _ => .archive
  | .action _ => .action

/-!
## Layouts
-/

section Layouts

variable (msgp : Msgp) (recover : Bool)

theorem two_short : (2 : UInt32) < 16 := by decide

theorem four_short : (4 : UInt32) < 16 := by decide

def senderCodec : Codec (Option Address) :=
  pointer msgp 1 one_short (exactCodec msgp 20)

def txFields : Codec (Option Address × Address × Option Int × TokenId × Bytes) :=
  (senderCodec msgp).andThen ((addressCodec msgp).andThen ((bigIntCodec msgp).andThen
    (msgp.int32.andThen msgp.bytes)))

def txCodec : Codec Tx :=
  (bodyCodec msgp recover 6 (by decide) (txFields msgp)).record
    (fun (base, sender, toAddress, value, tokenId, data) =>
      ⟨base, sender, toAddress, value, tokenId, data⟩)
    (fun tx => (tx.base, tx.sender, tx.toAddress, tx.value, tx.tokenId, tx.data))
    (fun _ => rfl) (fun _ => rfl)

def campaignFields : Codec (Bytes × VrfInfo × Option Address) :=
  msgp.bytes.andThen ((vrfCodec msgp).andThen (senderCodec msgp))

def campaignCodec : Codec Campaign :=
  (bodyCodec msgp recover 4 four_short (campaignFields msgp)).record
    (fun (base, dkgPublicKey, vrf, issuer) => ⟨base, dkgPublicKey, vrf, issuer⟩)
    (fun campaign => (campaign.base, campaign.dkgPublicKey, campaign.vrf, campaign.issuer))
    (fun _ => rfl) (fun _ => rfl)

def termChangeFields : Codec (UInt64 × Bytes × List (Option SigSet) × Option Address) :=
  msgp.uint64.andThen (msgp.bytes.andThen ((sigSetsCodec msgp).andThen (senderCodec msgp)))

def termChangeCodec : Codec TermChange :=
  (bodyCodec msgp recover 5 five_short (termChangeFields msgp)).record
    (fun (base, termID, pkBls, sigSet, issuer) => ⟨base, termID, pkBls, sigSet, issuer⟩)
    (fun termChange => (termChange.base, termChange.termID, termChange.pkBls, termChange.sigSet,
      termChange.issuer))
    (fun _ => rfl) (fun _ => rfl)

theorem archive_eta (archive : Archive) : (⟨archive.base, archive.data⟩ : Archive) = archive := rfl

theorem archive_fields (fields : TxBase × Bytes) : (fields.1, fields.2) = fields := rfl

def archiveCodec : Codec Archive :=
  (bodyCodec msgp recover 2 two_short msgp.bytes).record (fun (base, data) => ⟨base, data⟩)
    (fun archive => (archive.base, archive.data)) archive_eta archive_fields

def actionHeadFields : Codec (UInt8 × Option Address) :=
  msgp.uint8.andThen (senderCodec msgp)

/-- What is read of an action before its data: the common part, the action, the sender. -/
def actionHeadCodec : Codec (TxBase × UInt8 × Option Address) :=
  bodyCodec msgp recover 4 four_short (actionHeadFields msgp)

def isKnownAction (action : UInt8) : Bool :=
  action = actionTxActionDestroy || action = actionTxActionIPO || action = actionTxActionSPO ||
    action = actionRequestDomainName

/-- The data of every action, of a domain name too, is read as an offering. -/
def ActionTx.unmarshalMsg (bts : Bytes) : Except DecodeError (ActionTx × Bytes) :=
  match (actionHeadCodec msgp recover).read bts with
  | none => .error .malformed
  | some ((base, action, sender), bts) =>
    if isKnownAction action then
      match (offeringCodec msgp).read bts with
      | some (offering, bts) => .ok (⟨base, action, sender, some (.publicOffering offering)⟩, bts)
      | none => .error .malformed
    else .error (.unknownAction action)

end Layouts

def sequencerFields (msgp : Msgp64) : Codec (Option Address × Bytes × Bytes × Hash × Int64) :=
  (senderCodec msgp.toMsgp).andThen (msgp.bytes.andThen (msgp.bytes.andThen
    ((hashCodec msgp.toMsgp).andThen msgp.int64)))

def sequencerCodec (msgp : Msgp64) (recover : Bool) : Codec Sequencer :=
  (bodyCodec msgp.toMsgp recover 6 (by decide) (sequencerFields msgp)).via
    (fun (base, issuer, blsJointSig, blsJointPubKey, stateRoot, timestamp) =>
      some ⟨base, issuer, blsJointSig, blsJointPubKey, stateRoot, false, timestamp⟩)
    (fun seq => (seq.base, seq.issuer, seq.blsJointSig, seq.blsJointPubKey, seq.stateRoot,
      seq.timestamp))
    (fun seq => seq.proposing = false) (by
      rintro ⟨base, issuer, blsJointSig, blsJointPubKey, stateRoot, timestamp⟩ seq
      constructor
      · rintro ⟨⟩
        exact ⟨rfl, rfl⟩
      · rintro ⟨⟨⟩, unflagged⟩
        rw [← unflagged])

/-!
## Writing and reading
-/

section Accessor

variable (msgp : Msgp64) (recover : Bool)

def Sequencer.marshalMsg (seq : Sequencer) : Bytes :=
  marshalBody msgp.toMsgp recover 6 (sequencerFields msgp) seq.base
    (seq.issuer, seq.blsJointSig, seq.blsJointPubKey, seq.stateRoot, seq.timestamp) []

/-- `MarshalMsg` of the data of an action, which is not there to call if it is nil. -/
def ActionTx.dataMarshalMsg (tx : ActionTx) : Except Panic Bytes :=
  match tx.actionData with
  | some (.publicOffering offering) => .ok ((offeringCodec msgp.toMsgp).append offering)
  | some (.requestDomain request) => .ok ((domainCodec msgp.toMsgp).append request)
  | none => .error .nilPointer

def Txi.marshalMsg : Txi → Except Panic Bytes
  | .tx record => .ok (marshalBody msgp.toMsgp recover 6 (txFields msgp.toMsgp) record.base
      (record.sender, record.toAddress, record.value, record.tokenId, record.data) [])
  | .sequencer record => .ok (record.marshalMsg msgp recover)
  | .campaign record => .ok (marshalBody msgp.toMsgp recover 4 (campaignFields msgp.toMsgp)
      record.base (record.dkgPublicKey, record.vrf, record.issuer) [])
  | .termChange record => .ok (marshalBody msgp.toMsgp recover 5 (termChangeFields msgp.toMsgp)
      record.base (record.termID, record.pkBls, record.sigSet, record.issuer) [])
  | .archive record => .ok (marshalBody msgp.toMsgp recover 2 msgp.bytes record.base record.data [])
  | .action record => do
      let data ← record.dataMarshalMsg msgp
      return marshalBody msgp.toMsgp recover 4 (actionHeadFields msgp.toMsgp) record.base
        (record.action, record.sender) [] ++ data

def Kind.contentPrefix : Kind → Bytes
  | .tx => [99, 112, 116, 120] -- cptx
  | .sequencer => [99, 112, 115, 113] -- cpsq
  | .campaign => [99, 112, 99, 112] -- cpcp
  | .termChange => [99, 112, 116, 99] -- cptc
  | .archive => [99, 112, 97, 99] -- cpac
  | .action => [99, 112, 97, 120] -- cpax

def Txi.stored (tx : Txi) : Except Panic Bytes := do
  let data ← tx.marshalMsg msgp recover
  return tx.kind.contentPrefix ++ data

def Sequencer.unmarshalMsg (data : Bytes) : Option Sequencer :=
  ((sequencerCodec msgp recover).read data).map Prod.fst

def readContent (kind : Kind) (data : Bytes) : Option Txi :=
  match kind with
  | .tx => ((txCodec msgp.toMsgp recover).read data).map fun read => .tx read.1
  | .sequencer => (Sequencer.unmarshalMsg msgp recover data).map .sequencer
  | .campaign => ((campaignCodec msgp.toMsgp recover).read data).map fun read => .campaign read.1
  | .termChange =>
    ((termChangeCodec msgp.toMsgp recover).read data).map fun read => .termChange read.1
  | .archive => ((archiveCodec msgp.toMsgp recover).read data).map fun read => .archive read.1
  | .action =>
    match ActionTx.unmarshalMsg msgp.toMsgp recover data with
    | .ok (tx, _) => some (.action tx)
    | .error _ => none

def readStored (data : Bytes) : Option Txi := do
  let kind ← [Kind.tx, .sequencer, .campaign, .termChange, .archive, .action].find? fun kind =>
    data.take 4 = kind.contentPrefix
  readContent msgp recover kind (data.drop 4)

end Accessor

/-!
## What is read back
-/

def Txi.Carried (msgp : Msgp) (tx : Txi) : Prop :=
  tx.base.Carried msgp false ∧
    match tx with
    | .tx record => AmountCarried msgp record.value ∧ msgp.bytes.Fits record.data
    | .sequencer record =>
      msgp.bytes.Fits record.blsJointSig ∧ msgp.bytes.Fits record.blsJointPubKey
    | .campaign record => msgp.bytes.Fits record.dkgPublicKey ∧ msgp.bytes.Fits record.vrf.message ∧
        msgp.bytes.Fits record.vrf.proof ∧ msgp.bytes.Fits record.vrf.publicKey ∧
        msgp.bytes.Fits record.vrf.vrf
    | .termChange record => msgp.bytes.Fits record.pkBls ∧ record.sigSet.length < 2 ^ 32 ∧
        ∀ sigSet, some sigSet ∈ record.sigSet →
          msgp.bytes.Fits sigSet.publicKey ∧ msgp.bytes.Fits sigSet.signature
    | .archive record => msgp.bytes.Fits record.data
    | .action record => ∀ data ∈ record.actionData, data.Carried msgp

/-- The reader knows the action and finds the data it expects. -/
def Txi.readable : Txi → Bool
  | .action record => isKnownAction record.action &&
      match record.actionData with
      | some (.publicOffering _) => true
      | _ => false
  | _ => true

def Txi.unflagged : Txi → Txi
  | .sequencer record => .sequencer { record with proposing := false }
  | record => record

section ReadBack

variable {msgp : Msgp64}
variable {seq : Sequencer}
variable {count other : UInt32} {data : Bytes}

theorem readStored_contentPrefix {recover : Bool} (kind : Kind) (data : Bytes) :
    readStored msgp recover (kind.contentPrefix ++ data) = readContent msgp recover kind data := by
  cases kind <;> rfl

theorem senderCodec_fits (sender : Option Address) : (senderCodec msgp.toMsgp).Fits sender :=
  fun address _ => exactCodec_fits 20 (by decide) address

theorem sequencerCodec_fits (carried : (Txi.sequencer seq).Carried msgp.toMsgp) :
    (sequencerCodec msgp false).Fits { seq with proposing := false } := by
  obtain ⟨base, blsJointSig, blsJointPubKey⟩ := carried
  refine ⟨?_, rfl⟩
  simp only [bodyCodec_fits_iff, sequencerFields, andThen_fits]
  exact ⟨base, senderCodec_fits _, blsJointSig, blsJointPubKey, hashCodec_fits _, msgp.int64_fits _⟩

theorem sequencer_read_back (carried : (Txi.sequencer seq).Carried msgp.toMsgp) :
    Sequencer.unmarshalMsg msgp false (seq.marshalMsg msgp false) =
      some { seq with proposing := false } := by
  have written : seq.marshalMsg msgp false =
      (sequencerCodec msgp false).append { seq with proposing := false } :=
    marshalBody_kept _ (by decide) _ _ _ _
  rw [written, Sequencer.unmarshalMsg, read_append_nil _ (sequencerCodec_fits carried)]
  rfl

theorem tuple_read_other {α β : Type} {short : count < 16}
    (otherShort : other < 16) {codec : Codec α} {otherCodec : Codec β} (different : other ≠ count)
    (value : β) (rest : Bytes) :
    (tuple msgp.toMsgp count short codec).read
      ((tuple msgp.toMsgp other otherShort otherCodec).append value ++ rest) = none := by
  have header := msgp.arrayHeader.read_append (otherCodec.append value ++ rest)
    (msgp.arrayHeader_fits other)
  rw [msgp.fixarray otherShort] at header
  show (msgp.arrayHeader.read ([0x90 + other.toUInt8] ++ (otherCodec.append value ++ rest)) >>= _) =
    none
  rw [header]
  exact if_neg different

theorem offeringCodec_domain (request : RequestDomain) :
    (offeringCodec msgp.toMsgp).read ((domainCodec msgp.toMsgp).append request) = none := by
  have different : (1 : UInt32) ≠ 4 := by decide
  have otherTuple : (offeringCodec msgp.toMsgp).read
      ((domainCodec msgp.toMsgp).append request ++ []) = none := by
    unfold offeringCodec domainCodec Codec.record
    exact via_read_none (tuple_read_other (by decide) different _ _)
  rwa [append_nil] at otherTuple

theorem action_read_back {tx : ActionTx} (carried : (Txi.action tx).Carried msgp.toMsgp)
    (marshaled : tx.dataMarshalMsg msgp = .ok data) :
    readContent msgp false .action (marshalBody msgp.toMsgp false 4 (actionHeadFields msgp.toMsgp)
      tx.base (tx.action, tx.sender) [] ++ data) =
      if (Txi.action tx).readable then some (.action tx) else none := by
  obtain ⟨base, action, sender, actionData⟩ := tx
  obtain ⟨baseCarried, dataCarried⟩ := carried
  have headFits : (actionHeadCodec msgp.toMsgp false).Fits (base, action, sender) :=
    bodyCodec_fits_iff.mpr ⟨baseCarried, msgp.uint8_fits _, senderCodec_fits _⟩
  have headRead := (actionHeadCodec msgp.toMsgp false).read_append data headFits
  have written : marshalBody msgp.toMsgp false 4 (actionHeadFields msgp.toMsgp) base
      (action, sender) [] = (actionHeadCodec msgp.toMsgp false).append (base, action, sender) :=
    marshalBody_kept _ (by decide) _ _ _ _
  simp only [written, readContent, ActionTx.unmarshalMsg, headRead, Txi.readable]
  by_cases known : isKnownAction action = true
  · simp only [known, if_true, Bool.true_and]
    cases actionData with
    | none => cases marshaled
    | some actionData =>
      cases actionData with
      | publicOffering offering =>
        cases marshaled
        have offeringFits := offeringCodec_fits_iff.mpr (dataCarried _ rfl)
        simp [read_append_nil _ offeringFits]
      | requestDomain request =>
        cases marshaled
        simp [offeringCodec_domain]
  · simp [known]

theorem readStored_kept {tx : Txi} (carried : tx.Carried msgp.toMsgp)
    (stored : tx.stored msgp false = .ok data) :
    readStored msgp false data = if tx.readable then some tx.unflagged else none := by
  obtain ⟨content, marshaled, stored⟩ := bind_ok stored
  cases stored
  cases tx with
  | tx record =>
    cases marshaled
    have fits : (txCodec msgp.toMsgp false).Fits record :=
      ⟨bodyCodec_fits_iff.mpr ⟨carried.1, senderCodec_fits _, addressCodec_fits _,
        bigIntCodec_fits_iff.mpr carried.2.1, msgp.int32_fits _, carried.2.2⟩, trivial⟩
    have read := read_append_nil _ fits
    rw [marshalBody_kept _ (by decide), nil_append]
    exact congrArg (Option.map fun read => Txi.tx read.1) read
  | sequencer record =>
    cases marshaled
    exact congrArg (Option.map Txi.sequencer) (sequencer_read_back carried)
  | campaign record =>
    cases marshaled
    have fits : (campaignCodec msgp.toMsgp false).Fits record :=
      ⟨bodyCodec_fits_iff.mpr ⟨carried.1, carried.2.1, ⟨carried.2.2, trivial⟩,
        senderCodec_fits _⟩, trivial⟩
    have read := read_append_nil _ fits
    rw [marshalBody_kept _ (by decide), nil_append]
    exact congrArg (Option.map fun read => Txi.campaign read.1) read
  | termChange record =>
    cases marshaled
    have fits : (termChangeCodec msgp.toMsgp false).Fits record :=
      ⟨bodyCodec_fits_iff.mpr ⟨carried.1, msgp.uint64_fits _, carried.2.1,
        sigSetsCodec_fits_iff.mpr carried.2.2, senderCodec_fits _⟩, trivial⟩
    have read := read_append_nil _ fits
    rw [marshalBody_kept _ (by decide), nil_append]
    exact congrArg (Option.map fun read => Txi.termChange read.1) read
  | archive record =>
    cases marshaled
    have fits : (archiveCodec msgp.toMsgp false).Fits record :=
      ⟨bodyCodec_fits_iff.mpr carried, trivial⟩
    have read := read_append_nil _ fits
    rw [marshalBody_kept _ (by decide), nil_append]
    exact congrArg (Option.map fun read => Txi.archive read.1) read
  | action record =>
    obtain ⟨written, dataMarshaled, isContent⟩ := bind_ok marshaled
    cases isContent
    exact action_read_back carried dataMarshaled

theorem bodyCodec_read_lost {ρ σ : Type} {recover : Bool}
    {short : count < 16} {fields : Codec ρ} {otherFields : Codec σ} {base : TxBase} {own : σ}
    (fits : msgp.bytes.Fits base.signature) (rest : Bytes) :
    (bodyCodec msgp.toMsgp recover count short fields).read
      (marshalBody msgp.toMsgp true other otherFields base own [] ++ rest) = none := by
  have starts : ∃ more, marshalBody msgp.toMsgp true other otherFields base own [] ++ rest =
      msgp.bytes.append base.signature ++ more := by
    simp only [marshalBody, TxBase.marshalMsg, publicKeyMarshalMsg, if_true, tailCodec, TxBase.tail,
      Codec.andThen, nil_append, append_assoc]
    exact ⟨_, rfl⟩
  obtain ⟨more, isStart⟩ := starts
  rw [isStart]
  show (msgp.arrayHeader.read (msgp.bytes.append base.signature ++ more) >>= _) = none
  rw [msgp.arrayHeader_bytes fits]
  rfl

theorem sequencer_read_lost (fits : msgp.bytes.Fits seq.base.signature) :
    Sequencer.unmarshalMsg msgp true (seq.marshalMsg msgp true) = none := by
  have lost : (bodyCodec msgp.toMsgp true 6 (by decide) (sequencerFields msgp)).read
      (seq.marshalMsg msgp true ++ []) = none := bodyCodec_read_lost fits []
  rw [append_nil] at lost
  unfold Sequencer.unmarshalMsg sequencerCodec
  rw [via_read_none lost]
  rfl

end ReadBack

end AnnchainOG.Wire
