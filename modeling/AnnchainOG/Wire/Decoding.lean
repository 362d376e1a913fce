import AnnchainOG.Wire.Marshaler

/-!
# What the decoders of raw transactions accept

The kind of the transaction comes from the header, its type tag from a field of the body that
nothing compares with the header.
-/

namespace AnnchainOG.Wire

open Codec Option

section Decoded

variable {msgp : Msgp} {recover : Bool}
variable {rest bts : Bytes} {raw : RawTxi} {α : Type}
variable {count : UInt32} {codec : Codec α} {build : α → RawTxi}

def RawTxi.Fits (msgp : Msgp) (recover : Bool) (raw : RawTxi) : Prop :=
  match raw with
  | .tx raw => (rawTxCodec msgp recover).Fits raw
  | .sequencer raw => (rawSequencerCodec msgp recover).Fits raw
  | .campaign raw => (rawCampaignCodec msgp recover).Fits raw
  | .termChange raw => (rawTermChangeCodec msgp recover).Fits raw
  | .archive raw => (rawArchiveCodec msgp recover).Fits raw
  | .action raw =>
    match raw.actionData with
    | some (.publicOffering offering) =>
      (rawOfferingCodec msgp recover).Fits (raw.base, raw.action, offering)
    | some (.requestDomain request) =>
      (rawDomainCodec msgp recover).Fits (raw.base, raw.action, request)
    | none => False

/-- The type field of the body behind so many array headers. -/
def typeField (msgp : Msgp) : Nat → Bytes → Option UInt16
  | 0, bts => do
      let (tag, _) ← msgp.uint16.read bts
      return tag
  | headers + 1, bts => do
      let (_, bts) ← msgp.arrayHeader.read bts
      typeField msgp headers bts

def Kind.headers : Kind → Nat
  | .archive => 3
  | _ => 2

/-- A body decoder can return it, no bytes that `EncodeMsg` would write are missing, and the tag is
its type field. -/
structure Decoded (msgp : Msgp) (recover : Bool) (raw : RawTxi) (bts rest : Bytes) : Prop where
  fits : raw.Fits msgp recover
  shortest : ∃ body, raw.encodeMsg msgp recover = .ok body ∧ body.length + rest.length ≤ bts.length
  tag : (typeField msgp raw.kind.headers bts).map UInt16.toUInt8 = some raw.getType

theorem typeField_tuple {short : count < 16} {value : α} {headers : Nat} {tag : Option UInt8}
    (read : (tuple msgp count short codec).read bts = some (value, rest))
    (inner : ∀ {bts : Bytes}, codec.read bts = some (value, rest) →
      (typeField msgp headers bts).map UInt16.toUInt8 = tag) :
    (typeField msgp (headers + 1) bts).map UInt16.toUInt8 = tag := by
  obtain ⟨⟨found, last⟩, headerRead, read⟩ := bind_eq_some_iff.mp read
  obtain ⟨_, read⟩ := ite_none_right_eq_some.mp read
  simpa only [typeField, headerRead, bind_eq_bind, bind_some] using inner read

theorem typeField_base {base : TxBase}
    (read : (baseCodec msgp recover).read bts = some (base, rest)) :
    (typeField msgp 1 bts).map UInt16.toUInt8 = some base.type := by
  apply typeField_tuple (record_read read)
  intro inner innerRead
  obtain ⟨_, headRead, _⟩ := andThen_read innerRead
  obtain ⟨_, typeRead, _⟩ := andThen_read headRead
  obtain ⟨tag, tagRead, isType⟩ := spelled_read typeRead
  simp only [typeField, tagRead, bind_eq_bind, bind_some, pure_def, map_some, isType]
  rfl

theorem typeField_body {ρ : Type} {short : count < 16} {fields : Codec ρ} {value : TxBase × ρ}
    (read : (bodyCodec msgp recover count short fields).read bts = some (value, rest)) :
    (typeField msgp 2 bts).map UInt16.toUInt8 = some value.1.type := by
  apply typeField_tuple read
  intro inner innerRead
  obtain ⟨_, baseRead, _⟩ := andThen_read innerRead
  exact typeField_base baseRead

theorem built_ok {read : Option (α × Bytes)} (isBuilt : built build read = .ok (raw, rest)) :
    ∃ value, read = some (value, rest) ∧ raw = build value := by
  cases read with
  | none => cases isBuilt
  | some found =>
    cases isBuilt
    exact ⟨found.1, rfl, rfl⟩

theorem decoded_of_built (isBuilt : built build (codec.read bts) = .ok (raw, rest))
    (fits : ∀ {value}, codec.Fits value → (build value).Fits msgp recover)
    (encode : ∀ value, (build value).encodeMsg msgp recover = .ok (codec.append value))
    (tag : ∀ {value}, codec.read bts = some (value, rest) →
      (typeField msgp (build value).kind.headers bts).map UInt16.toUInt8 =
        some (build value).getType) :
    ∃ value, raw = build value ∧ Decoded msgp recover raw bts rest := by
  obtain ⟨value, isRead, rfl⟩ := built_ok isBuilt
  exact ⟨value, rfl, fits (codec.fits_of_read isRead), ⟨_, encode value, codec.shortest isRead⟩,
    tag isRead⟩

theorem readAction_ok {action : UInt8}
    (read : readAction msgp recover action bts = .ok (raw, rest)) :
    raw.kind = .action ∧ Decoded msgp recover raw bts rest := by
  unfold readAction at read
  split_ifs at read
  · obtain ⟨_, rfl, decoded⟩ := decoded_of_built read id (fun _ => rfl) typeField_body
    exact ⟨rfl, decoded⟩
  · obtain ⟨_, rfl, decoded⟩ := decoded_of_built read id (fun _ => rfl) typeField_body
    exact ⟨rfl, decoded⟩

theorem readBody_ok {kind : Option Kind} {action : Except DecodeError (RawTxi × Bytes)}
    (read : readBody msgp recover kind bts action = .ok (raw, rest)) :
    (kind = some .action ∧ action = .ok (raw, rest)) ∨
      (kind = some raw.kind ∧ raw.kind ≠ .action ∧ Decoded msgp recover raw bts rest) := by
  unfold readBody at read
  split at read
  · obtain ⟨_, rfl, decoded⟩ := decoded_of_built read id (fun _ => rfl)
      fun isRead => typeField_body (record_read isRead)
    exact .inr ⟨rfl, nofun, decoded⟩
  · obtain ⟨_, rfl, decoded⟩ := decoded_of_built read id (fun _ => rfl)
      fun isRead => typeField_body (record_read isRead)
    exact .inr ⟨rfl, nofun, decoded⟩
  · obtain ⟨_, rfl, decoded⟩ := decoded_of_built read id (fun _ => rfl)
      fun isRead => typeField_body (record_read isRead)
    exact .inr ⟨rfl, nofun, decoded⟩
  · obtain ⟨_, rfl, decoded⟩ := decoded_of_built read id (fun _ => rfl)
      fun isRead => typeField_body (via_read isRead)
    exact .inr ⟨rfl, nofun, decoded⟩
  · obtain ⟨_, rfl, decoded⟩ := decoded_of_built read id (fun _ => rfl)
      fun isRead => typeField_tuple (record_read isRead) typeField_body
    exact .inr ⟨rfl, nofun, decoded⟩
  · exact .inl ⟨rfl, read⟩
  · cases read

def Kind.bodyStart : Kind → Nat
  | .action => 3
  | _ => 2

theorem unmarshalMsg_ok
    (accepted : RawTxMarshaler.unmarshalMsg msgp recover bts = .ok (raw, rest)) :
    bts[1]? = some raw.kind.type ∧ 3 < bts.length ∧
      Decoded msgp recover raw (bts.drop raw.kind.bodyStart) rest ∧
      (raw.kind = .action → ∃ action, bts[3]? = some action ∧
        readAction msgp recover action (bts.drop 3) = .ok (raw, rest)) := by
  unfold RawTxMarshaler.unmarshalMsg at accepted
  split at accepted
  · next high low third fourth tail =>
      simp only [header_toUInt8] at accepted
      rcases readBody_ok accepted with ⟨isAction, read⟩ | ⟨isKind, notAction, decoded⟩
      · obtain ⟨kind, decoded⟩ := readAction_ok read
        have isType : raw.kind.type = low := Kind.ofType_eq_some_iff.mp (kind ▸ isAction)
        refine ⟨congrArg some isType.symm, by simp, ?_, fun _ => ⟨fourth, rfl, read⟩⟩
        rw [kind]
        exact decoded
      · have isType : raw.kind.type = low := Kind.ofType_eq_some_iff.mp isKind
        have start : raw.kind.bodyStart = 2 := by
          cases isKind : raw.kind with
          | action => exact absurd isKind notAction
          | _ => rfl
        refine ⟨congrArg some isType.symm, by simp, ?_, fun isAction => absurd isAction notAction⟩
        rw [start]
        exact decoded
  · cases accepted

end Decoded

/-!
## Kind and type tag
-/

/-- The type field of the body, where the decoder for the type in the header reads it. -/
def bodyType (msgp : Msgp) (bts : Bytes) : Option UInt16 := do
  let low ← bts[1]?
  let kind ← Kind.ofType low
  typeField msgp kind.headers (bts.drop kind.bodyStart)

theorem decoded_tag_iff {msgp : Msgp} {recover : Bool} {bts rest : Bytes} {raw : RawTxi}
    (accepted : RawTxMarshaler.unmarshalMsg msgp recover bts = .ok (raw, rest)) :
    raw.getType = raw.kind.type ↔ (bodyType msgp bts).map UInt16.toUInt8 = bts[1]? := by
  obtain ⟨header, _, decoded, _⟩ := unmarshalMsg_ok accepted
  have kind : Kind.ofType raw.kind.type = some raw.kind := Kind.ofType_eq_some_iff.mpr rfl
  have tag : (bodyType msgp bts).map UInt16.toUInt8 = some raw.getType := by
    simp only [bodyType, header, kind, bind_eq_bind, bind_some]
    exact decoded.tag
  rw [tag, header, Option.some.injEq]

def transferBytes (tag : UInt8) : Bytes :=
  [0, 0, 0x95, 0x9a, tag, 0x91, 0xc4, 32] ++ List.replicate 32 0 ++
    [0x90, 0, 0, 0xc4, 0, 0xc4, 0, 0, 0, 0, 0x91, 0xc4, 20] ++ List.replicate 20 0 ++
    [0xc0, 0xc4, 0, 0]

def transferOf (tag : UInt8) : RawTxi :=
  .tx ⟨⟨tag, 0, [], 0, 0, [], [], 0, 0, 0⟩, 0, none, [], 0⟩

theorem decoded_tag_transfer :
    RawTxMarshaler.unmarshalMsg .format false (transferBytes 0) = .ok (transferOf 0, []) ∧
      (transferOf 0).getType = (transferOf 0).kind.type := by
  have accepted : RawTxMarshaler.unmarshalMsg .format false (transferBytes 0) =
      .ok (transferOf 0, []) := rfl
  exact ⟨accepted, (decoded_tag_iff accepted).mpr rfl⟩

/-- A transfer is accepted with the tag of a sequencer. -/
theorem transfer_tagged_sequencer :
    RawTxMarshaler.unmarshalMsg .format false (transferBytes 1) = .ok (transferOf 1, []) ∧
      (transferOf 1).kind = .tx ∧ (transferOf 1).getType = Kind.sequencer.type :=
  ⟨rfl, rfl, rfl⟩

end AnnchainOG.Wire
