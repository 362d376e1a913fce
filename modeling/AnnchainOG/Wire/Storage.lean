import AnnchainOG.Wire.Ledger

/-!
# Storing a transaction and reading it back

The reader of a stored action takes the data of every action for an offering, and the writer to a
stream puts an empty offering in its place.
-/

namespace AnnchainOG.Wire

open Option

/-!
## Writing to a stream
-/

def newPublicOffering : PublicOffering := ⟨0, some 0, false, []⟩

structure Encoded where
  written : Bytes
  unknownAction : Option UInt8
  after : Txi

section Encoding

variable (msgp : Msgp64) (recover : Bool)

def ActionTx.encodeMsg (tx : ActionTx) : Encoded :=
  let head := (actionHeadCodec msgp.toMsgp recover).append (tx.base, tx.action, tx.sender)
  if isKnownAction tx.action then
    ⟨head ++ (offeringCodec msgp.toMsgp).append newPublicOffering, none,
      .action { tx with actionData := some (.publicOffering newPublicOffering) }⟩
  else ⟨head, some tx.action, .action tx⟩

def Txi.encodeMsg (tx : Txi) : Encoded :=
  match tx with
  | .tx record => ⟨(txCodec msgp.toMsgp recover).append record, none, tx⟩
  | .sequencer record => ⟨(sequencerCodec msgp recover).append record, none, tx⟩
  | .campaign record => ⟨(campaignCodec msgp.toMsgp recover).append record, none, tx⟩
  | .termChange record => ⟨(termChangeCodec msgp.toMsgp recover).append record, none, tx⟩
  | .archive record => ⟨(archiveCodec msgp.toMsgp recover).append record, none, tx⟩
  | .action record => record.encodeMsg msgp recover

inductive Serializer where
  | encodeMsg
  | marshalMsg
  deriving DecidableEq

/-- The transaction in memory after it was serialized; `MarshalMsg` assigns nothing. -/
def Txi.serialized (tx : Txi) : Serializer → Txi
  | .encodeMsg => (tx.encodeMsg msgp recover).after
  | .marshalMsg => tx

end Encoding

/-!
## What is read back
-/

section ReadBack

variable {msgp : Msgp64} {recover : Bool}
variable {seq : Sequencer} {tx : Txi}

private theorem read_body_iff {α ρ : Type} (codec : Bool → Codec α) (value : α) (build : α → Txi)
    (injective : Function.Injective build) {count : UInt32} (short : count < 16) {fields : Codec ρ}
    {base : TxBase} {own : ρ} (appended : ∀ recover, (codec recover).append value =
      (bodyCodec msgp.toMsgp recover count short fields).append (base, own)) :
    ((codec recover).read (marshalBody msgp.toMsgp recover count fields base own [])).map
        (fun read => build read.1) = some (build value) ↔
      recover = false ∧ (codec false).Fits value := by
  cases recover with
  | false =>
    rw [marshalBody_kept _ short, List.nil_append, ← appended false]
    constructor
    · intro isRead
      obtain ⟨⟨found, rest⟩, read, same⟩ := map_eq_some_iff.mp isRead
      obtain rfl : found = value := injective same
      exact ⟨rfl, (codec false).fits_of_read read⟩
    · rintro ⟨-, fits⟩
      rw [Codec.read_append_nil _ fits]
      rfl
  | true =>
    constructor
    · intro isRead
      obtain ⟨⟨found, rest⟩, read, same⟩ := map_eq_some_iff.mp isRead
      obtain rfl : found = value := injective same
      -- no reading is shorter than what would have been written whole
      have shortest := (codec true).shortest read
      have lost := marshalBody_lost msgp.toMsgp short fields base own []
      rw [appended true] at shortest
      omega
    · rintro ⟨isFalse, -⟩
      cases isFalse

private theorem read_action_iff {tx : ActionTx} {data : Bytes}
    (marshaled : tx.dataMarshalMsg msgp = .ok data) :
    readContent msgp recover .action (marshalBody msgp.toMsgp recover 4
        (actionHeadFields msgp.toMsgp) tx.base (tx.action, tx.sender) [] ++ data) =
      some (.action tx) ↔
    recover = false ∧ (Txi.action tx).Carried msgp.toMsgp ∧ (Txi.action tx).readable = true := by
  constructor
  · intro isRead
    simp only [readContent] at isRead
    split at isRead
    next read rest unmarshaled =>
      obtain rfl : read = tx := Txi.action.inj (Option.some.inj isRead)
      unfold ActionTx.unmarshalMsg at unmarshaled
      split at unmarshaled
      · cases unmarshaled
      rename_i base action sender afterHead headRead
      split at unmarshaled
      next known =>
        split at unmarshaled
        next offering last offeringRead =>
          cases unmarshaled
          cases marshaled
          have headShortest := (actionHeadCodec msgp.toMsgp recover).shortest headRead
          have dataShortest := (offeringCodec msgp.toMsgp).shortest offeringRead
          have headFits := (actionHeadCodec msgp.toMsgp recover).fits_of_read headRead
          cases recover with
          | true =>
            have lost := marshalBody_lost msgp.toMsgp (show (4 : UInt32) < 16 by decide)
              (actionHeadFields msgp.toMsgp) base (action, sender) []
            simp only [actionHeadCodec, List.length_append] at headShortest
            omega
          | false =>
            refine ⟨rfl, ⟨(bodyCodec_fits_iff.mp headFits).1, ?_⟩, ?_⟩
            · rintro _ ⟨⟩
              exact offeringCodec_fits_iff.mp
                ((offeringCodec msgp.toMsgp).fits_of_read offeringRead)
            · simp [Txi.readable, known]
        · cases unmarshaled
      · cases unmarshaled
    · cases isRead
  · rintro ⟨rfl, carried, readable⟩
    rw [action_read_back carried marshaled, if_pos readable]

private theorem sequencerCodec_fits_iff :
    (sequencerCodec msgp false).Fits seq ↔
      (Txi.sequencer seq).Carried msgp.toMsgp ∧ seq.proposing = false := by
  have fields : (sequencerCodec msgp false).Fits seq ↔
      ((bodyCodec msgp.toMsgp false 6 (by decide) (sequencerFields msgp)).Fits
        (seq.base, seq.issuer, seq.blsJointSig, seq.blsJointPubKey, seq.stateRoot, seq.timestamp)) ∧
        seq.proposing = false := Iff.rfl
  simp only [fields, Txi.Carried, Txi.base, sequencerFields, bodyCodec_fits_iff, Codec.andThen_fits,
    senderCodec_fits, hashCodec_fits, msgp.int64_fits, true_and, and_true]

private theorem unflagged_sequencer_iff :
    (Txi.sequencer seq).unflagged = .sequencer seq ↔ seq.proposing = false := by
  constructor
  · intro same
    rw [← Txi.sequencer.inj same]
  · intro unflagged
    rw [Txi.unflagged, ← unflagged]

theorem readContent_iff {content : Bytes} (marshaled : tx.marshalMsg msgp recover = .ok content) :
    readContent msgp recover tx.kind content = some tx ↔
      recover = false ∧ tx.Carried msgp.toMsgp ∧ tx.readable = true ∧ tx.unflagged = tx := by
  cases tx with
  | tx record =>
    cases marshaled
    refine (read_body_iff (txCodec msgp.toMsgp) record Txi.tx (fun _ _ => Txi.tx.inj) (by decide)
      (fun _ => rfl)).trans ?_
    simp [Txi.Carried, Txi.readable, Txi.unflagged, Txi.base, txCodec, txFields,
      bodyCodec_fits_iff, senderCodec_fits, addressCodec_fits, bigIntCodec_fits_iff, msgp.int32_fits]
  | sequencer record =>
    cases marshaled
    have unmarshaled : readContent msgp recover .sequencer (record.marshalMsg msgp recover) =
        ((sequencerCodec msgp recover).read (record.marshalMsg msgp recover)).map
          fun read => Txi.sequencer read.1 := by
      simp only [readContent, Sequencer.unmarshalMsg, map_map]
      rfl
    rw [Txi.kind, unmarshaled]
    refine (read_body_iff (sequencerCodec msgp) record Txi.sequencer
      (fun _ _ => Txi.sequencer.inj) (by decide) (fun _ => rfl)).trans ?_
    rw [unflagged_sequencer_iff, sequencerCodec_fits_iff]
    simp [Txi.readable]
  | campaign record =>
    cases marshaled
    refine (read_body_iff (campaignCodec msgp.toMsgp) record Txi.campaign
      (fun _ _ => Txi.campaign.inj) (by decide) (fun _ => rfl)).trans ?_
    simp [Txi.Carried, Txi.readable, Txi.unflagged, Txi.base, campaignCodec, campaignFields,
      vrfCodec, bodyCodec_fits_iff, senderCodec_fits]
  | termChange record =>
    cases marshaled
    refine (read_body_iff (termChangeCodec msgp.toMsgp) record Txi.termChange
      (fun _ _ => Txi.termChange.inj) (by decide) (fun _ => rfl)).trans ?_
    simp [Txi.Carried, Txi.readable, Txi.unflagged, Txi.base, termChangeCodec, termChangeFields,
      bodyCodec_fits_iff, senderCodec_fits, sigSetsCodec_fits_iff, msgp.uint64_fits]
  | archive record =>
    cases marshaled
    refine (read_body_iff (archiveCodec msgp.toMsgp) record Txi.archive
      (fun _ _ => Txi.archive.inj) (by decide) (fun _ => rfl)).trans ?_
    simp [Txi.Carried, Txi.readable, Txi.unflagged, Txi.base, archiveCodec, bodyCodec_fits_iff]
  | action record =>
    obtain ⟨data, dataMarshaled, isContent⟩ := bind_ok marshaled
    cases isContent
    refine (read_action_iff dataMarshaled).trans ?_
    simp [Txi.unflagged]

/-- The data of an action is what the writer to a stream puts in its place. -/
def Txi.EncodedAsIs : Txi → Prop
  | .action record => isKnownAction record.action = true →
      record.actionData = some (.publicOffering newPublicOffering)
  | _ => True

theorem serialized_iff :
    (∀ serializer, tx.serialized msgp recover serializer = tx) ↔ tx.EncodedAsIs := by
  have onlyEncoded : (∀ serializer, tx.serialized msgp recover serializer = tx) ↔
      (tx.encodeMsg msgp recover).after = tx := by
    constructor
    · exact fun same => same .encodeMsg
    · intro same serializer
      cases serializer with
      | encodeMsg => exact same
      | marshalMsg => rfl
  rw [onlyEncoded]
  cases tx with
  | action record =>
    obtain ⟨base, action, sender, actionData⟩ := record
    simp only [Txi.encodeMsg, ActionTx.encodeMsg, Txi.EncodedAsIs]
    split
    next known => simp [known, eq_comm]
    next unknown => simp [unknown]
  | _ => exact iff_of_true rfl trivial

/-- What is stored is found as it was exactly if its key is kept, its fields are not too long, it is
not flagged and an action has an empty offering. -/
theorem stored_round_trip_iff {store next : Store} {tx : Txi}
    (written : store.writeTransaction msgp recover tx = some next) :
    (next.readTransaction msgp recover tx.base.hash = some tx ∧
        ∀ serializer, tx.serialized msgp recover serializer = tx) ↔
      recover = false ∧ tx.Carried msgp.toMsgp ∧ tx.readable = true ∧ tx.unflagged = tx ∧
        tx.EncodedAsIs := by
  obtain ⟨data, isData, rfl⟩ := map_eq_some_iff.mp written
  obtain ⟨content, marshaled, isContent⟩ := bind_ok (ok_of_toOption isData)
  cases isContent
  rw [serialized_iff, Store.readTransaction, GoMap.get?_set, if_pos rfl, bind_some,
    readStored_contentPrefix, readContent_iff marshaled]
  simp only [and_assoc]

end ReadBack

def Txi.archiveOf (byte : UInt8) : Txi :=
  .archive ⟨⟨txBaseTypeArchive, 7, [5], 0, 0, [1], [], 0, 1, 0⟩, [byte]⟩

theorem stored_round_trip_archive :
    ∃ next, Store.empty.writeTransaction .format false (.archiveOf 65) = some next ∧
      next.readTransaction .format false 7 = some (.archiveOf 65) := by
  have written : Store.empty.writeTransaction .format false (.archiveOf 65) = some _ := rfl
  have carried : (Txi.archiveOf 65).Carried Msgp64.format.toMsgp :=
    ⟨⟨by decide, Msgp64.format.bytes_fits (by decide), Msgp64.format.bytes_fits (by decide)⟩,
      Msgp64.format.bytes_fits (by decide)⟩
  exact ⟨_, written, ((stored_round_trip_iff written).mpr ⟨rfl, carried, rfl, rfl, trivial⟩).1⟩

def Txi.domainOf (domainName : Bytes) : Txi :=
  .action ⟨⟨txBaseAction, 7, [5], 3, 0, [1], [], 0, 1, 0⟩, actionRequestDomainName, some 1,
    some (.requestDomain ⟨domainName⟩)⟩

set_option maxRecDepth 2000 in
/-- It is stored and not found again, and writing it to a stream takes its name away. -/
theorem domain_not_read_back :
    ∃ next, Store.empty.writeTransaction .format false (.domainOf [65]) = some next ∧
      next.readTransaction .format false 7 = none ∧
      (Txi.domainOf [65]).serialized .format false .encodeMsg ≠ .domainOf [65] :=
  ⟨_, rfl, rfl, by decide⟩

end AnnchainOG.Wire
