import AnnchainOG.Wire.Decoding

/-!
# Round trips of raw transactions

`MarshalMsg` and `EncodeMsg` write the same bytes unless the public key is left out; the two decoders
differ in where they take the action from.
-/

namespace AnnchainOG.Wire

open List

open RawTxMarshaler (decodeMsg encodeMsg unmarshalMsg)

/-!
## What the layouts can carry
-/

section Carried

variable (msgp : Msgp) (recover : Bool)

/-- The list of parents has a length of 32 bits, and where the key is recovered from the
signature there is none. -/
structure TxBase.Carried (base : TxBase) : Prop where
  parentsHash : base.parentsHash.length < 2 ^ 32
  publicKey : if recover then base.publicKey = [] else msgp.bytes.Fits base.publicKey
  signature : msgp.bytes.Fits base.signature

def AmountCarried (value : Option Int) : Prop :=
  ∀ amount ∈ value, msgp.bytes.Fits (bigBytes amount)

def ActionData.Carried : ActionData → Prop
  | .publicOffering offering =>
    AmountCarried msgp offering.value ∧ msgp.string.Fits offering.tokenName
  | .requestDomain request => msgp.string.Fits request.domainName

def RawTxi.Carried (raw : RawTxi) : Prop :=
  raw.base.Carried msgp recover ∧
    match raw with
    | .tx raw => AmountCarried msgp raw.value ∧ msgp.bytes.Fits raw.data
    | .sequencer raw => msgp.bytes.Fits raw.blsJointSig ∧ msgp.bytes.Fits raw.blsJointPubKey
    | .campaign raw => msgp.bytes.Fits raw.dkgPublicKey ∧ msgp.bytes.Fits raw.vrf.message ∧
        msgp.bytes.Fits raw.vrf.proof ∧ msgp.bytes.Fits raw.vrf.publicKey ∧
        msgp.bytes.Fits raw.vrf.vrf
    | .termChange raw => msgp.bytes.Fits raw.pkBls ∧ raw.sigSet.length < 2 ^ 32 ∧
        ∀ sigSet, some sigSet ∈ raw.sigSet →
          msgp.bytes.Fits sigSet.publicKey ∧ msgp.bytes.Fits sigSet.signature
    | .archive raw => msgp.bytes.Fits raw.data
    | .action raw => ∃ data, raw.actionData = some data ∧ data.Carried msgp

end Carried

def RawTxi.Untimed : RawTxi → Prop
  | .sequencer raw => raw.timestamp = 0
  | _ => True

section Fits

variable {msgp : Msgp} {recover : Bool}

theorem exactCodec_fits (size : Nat) (short : size < 256) (word : BitVec (8 * size)) :
    (exactCodec msgp size).Fits word :=
  ⟨msgp.bytes_fits (by rwa [length_bigEndian]), trivial⟩

theorem hashCodec_fits (hash : Hash) : (hashCodec msgp).Fits hash :=
  exactCodec_fits 32 (by decide) hash

theorem addressCodec_fits (address : Address) : (addressCodec msgp).Fits address :=
  exactCodec_fits 20 (by decide) address

theorem hashesCodec_fits_iff {hashes : List Hash} :
    (hashesCodec msgp).Fits hashes ↔ hashes.length < 2 ^ 32 := by
  constructor
  · exact And.left
  · intro short
    exact ⟨short, fun hash _ => hashCodec_fits hash⟩

theorem bigIntCodec_fits_iff {value : Option Int} :
    (bigIntCodec msgp).Fits value ↔ AmountCarried msgp value := by
  constructor
  · intro fits amount member
    exact (fits amount member).2
  · intro carried amount member
    exact ⟨msgp.bool_fits _, carried amount member⟩

theorem sigSetsCodec_fits_iff {sigSets : List (Option SigSet)} :
    (sigSetsCodec msgp).Fits sigSets ↔ sigSets.length < 2 ^ 32 ∧ ∀ sigSet, some sigSet ∈ sigSets →
        msgp.bytes.Fits sigSet.publicKey ∧ msgp.bytes.Fits sigSet.signature := by
  constructor
  · rintro ⟨short, fits⟩
    exact ⟨short, fun sigSet member => (fits _ member sigSet rfl).1⟩
  · rintro ⟨short, carried⟩
    refine ⟨short, fun pointer member sigSet isSome => ?_⟩
    cases isSome
    exact ⟨carried sigSet member, trivial⟩

theorem publicKeyCodec_fits_iff {publicKey : Bytes} :
    (publicKeyCodec msgp recover).Fits publicKey ↔
      if recover then publicKey = [] else msgp.bytes.Fits publicKey := by
  cases recover <;> rfl

theorem baseCodec_fits_iff {base : TxBase} :
    (baseCodec msgp recover).Fits base ↔ base.Carried msgp recover := by
  simp only [baseCodec, headCodec, tailCodec, TxBase.head, TxBase.tail, Codec.record_fits, tuple_fits,
    Codec.andThen_fits, publicKeyCodec_fits_iff, hashesCodec_fits_iff, hashCodec_fits,
    msgp.uint64_fits, msgp.uint8_fits, and_true, true_and]
  constructor
  · rintro ⟨⟨_, parents⟩, publicKey, signature⟩
    exact ⟨parents, publicKey, signature⟩
  · rintro ⟨parents, publicKey, signature⟩
    exact ⟨⟨msgp.uint16_fits _, parents⟩, publicKey, signature⟩

theorem bodyCodec_fits_iff {ρ : Type} {count : UInt32} {short : count < 16} {fields : Codec ρ}
    {body : TxBase × ρ} :
    (bodyCodec msgp recover count short fields).Fits body ↔
      body.1.Carried msgp recover ∧ fields.Fits body.2 := by
  simp only [bodyCodec, tuple_fits, Codec.andThen_fits, baseCodec_fits_iff]

theorem offeringCodec_fits_iff {offering : PublicOffering} :
    (offeringCodec msgp).Fits offering ↔
      AmountCarried msgp offering.value ∧ msgp.string.Fits offering.tokenName := by
  simp only [offeringCodec, Codec.record_fits, tuple_fits, Codec.andThen_fits, msgp.int32_fits,
    bigIntCodec_fits_iff, msgp.bool_fits, true_and]

theorem fits_iff_carried {raw : RawTxi} :
    raw.Fits msgp recover ↔ raw.Carried msgp recover ∧ raw.Untimed := by
  cases raw with
  | tx raw =>
    simp [RawTxi.Fits, RawTxi.Carried, RawTxi.Untimed, RawTxi.base, rawTxCodec, rawTxFields,
      bodyCodec_fits_iff, addressCodec_fits, bigIntCodec_fits_iff, msgp.int32_fits]
  | sequencer raw =>
    simp [RawTxi.Fits, RawTxi.Carried, RawTxi.Untimed, RawTxi.base, rawSequencerCodec,
      rawSequencerFields, Codec.via, bodyCodec_fits_iff, hashCodec_fits]
  | campaign raw =>
    simp [RawTxi.Fits, RawTxi.Carried, RawTxi.Untimed, RawTxi.base, rawCampaignCodec,
      rawCampaignFields, vrfCodec, bodyCodec_fits_iff]
  | termChange raw =>
    simp [RawTxi.Fits, RawTxi.Carried, RawTxi.Untimed, RawTxi.base, rawTermChangeCodec,
      rawTermChangeFields, bodyCodec_fits_iff, sigSetsCodec_fits_iff, msgp.uint64_fits]
  | archive raw =>
    simp [RawTxi.Fits, RawTxi.Carried, RawTxi.Untimed, RawTxi.base, rawArchiveCodec,
      bodyCodec_fits_iff]
  | action raw =>
    obtain ⟨base, action, data⟩ := raw
    cases data with
    | none => simp [RawTxi.Fits, RawTxi.Carried]
    | some data =>
      cases data with
      | publicOffering offering =>
        simp [RawTxi.Fits, RawTxi.Carried, RawTxi.Untimed, RawTxi.base, rawOfferingCodec,
          bodyCodec_fits_iff, ActionData.Carried, offeringCodec_fits_iff, msgp.uint8_fits]
      | requestDomain request =>
        simp [RawTxi.Fits, RawTxi.Carried, RawTxi.Untimed, RawTxi.base, rawDomainCodec,
          bodyCodec_fits_iff, ActionData.Carried, domainCodec, msgp.uint8_fits]

end Fits

/-!
## Bodies
-/

section Bodies

variable {msgp : Msgp} {recover : Bool}
variable {raw : RawTxi}
variable {body : Bytes}

/-- `MarshalMsg` appends what `EncodeMsg` writes where the public key is sent. -/
theorem marshalMsg_kept (raw : RawTxi) (b : Bytes) :
    raw.marshalMsg msgp false b = (raw.encodeMsg msgp false).map (b ++ ·) := by
  cases raw with
  | tx raw | sequencer raw | campaign raw | termChange raw =>
    exact congrArg Except.ok (marshalBody_kept _ (by decide) ..)
  | archive raw =>
    refine congrArg Except.ok ((marshalBody_kept _ (by decide) ..).trans ?_)
    rw [append_assoc]
    rfl
  | action raw =>
    obtain ⟨base, action, data⟩ := raw
    match data with
    | none => rfl
    | some (.publicOffering _) | some (.requestDomain _) =>
      exact congrArg Except.ok (marshalBody_kept _ (by decide) ..)

theorem marshalMsg_lost {b o : Bytes} (marshaled : raw.marshalMsg msgp true b = .ok o) :
    ∃ body, raw.encodeMsg msgp true = .ok body ∧ o.length ≤ body.length := by
  cases raw with
  | tx raw | sequencer raw | campaign raw | termChange raw =>
    cases marshaled
    exact ⟨_, rfl, (marshalBody_lost _ (by decide) ..).le⟩
  | archive raw =>
    cases marshaled
    exact ⟨_, rfl, (marshalBody_lost _ (by decide) ..).le.trans (Nat.le_succ _)⟩
  | action raw =>
    obtain ⟨base, action, data⟩ := raw
    match data with
    | none => cases marshaled
    | some (.publicOffering _) | some (.requestDomain _) =>
      cases marshaled
      exact ⟨_, rfl, (marshalBody_lost _ (by decide) ..).le⟩

theorem encodeMsg_headers (encoded : raw.encodeMsg msgp recover = .ok body) :
    ∃ first second tail, body = first :: second :: tail ∧ (raw.kind = .action → first = 0x93) := by
  cases raw with
  | tx raw | sequencer raw | campaign raw | termChange raw | archive raw =>
    cases encoded
    exact ⟨_, _, _, rfl, nofun⟩
  | action raw =>
    obtain ⟨base, action, data⟩ := raw
    match data with
    | none => cases encoded
    | some (.publicOffering _) | some (.requestDomain _) =>
      cases encoded
      exact ⟨_, _, _, rfl, fun _ => rfl⟩

theorem readBody_encodeMsg (notAction : raw.kind ≠ .action)
    (fits : raw.Fits msgp recover) (encoded : raw.encodeMsg msgp recover = .ok body)
    (rest : Bytes) (action : Except DecodeError (RawTxi × Bytes)) :
    readBody msgp recover (some raw.kind) (body ++ rest) action = .ok (raw, rest) := by
  cases raw with
  | tx raw =>
    cases encoded
    exact congrArg (built RawTxi.tx) ((rawTxCodec msgp recover).read_append rest fits)
  | sequencer raw =>
    cases encoded
    exact congrArg (built RawTxi.sequencer) ((rawSequencerCodec msgp recover).read_append rest fits)
  | campaign raw =>
    cases encoded
    exact congrArg (built RawTxi.campaign) ((rawCampaignCodec msgp recover).read_append rest fits)
  | termChange raw =>
    cases encoded
    exact congrArg (built RawTxi.termChange)
      ((rawTermChangeCodec msgp recover).read_append rest fits)
  | archive raw =>
    cases encoded
    exact congrArg (built RawTxi.archive) ((rawArchiveCodec msgp recover).read_append rest fits)
  | action raw => exact absurd rfl notAction

end Bodies

/-!
## Actions
-/

/-- The action byte stands for the data that comes with it. -/
def RawActionTx.Matched (raw : RawActionTx) : Prop :=
  match raw.actionData with
  | some (.requestDomain _) => raw.action = actionRequestDomainName
  | some (.publicOffering _) => raw.action = actionTxActionIPO ∨ raw.action = actionTxActionSPO ∨
      raw.action = actionTxActionDestroy
  | none => False

def RawTxi.Matched : RawTxi → Prop
  | .action raw => raw.Matched
  | _ => True

section Actions

variable {msgp : Msgp} {recover : Bool}

theorem readAction_matched {raw : RawActionTx} {bts rest : Bytes}
    (read : readAction msgp recover raw.action bts = .ok (.action raw, rest)) : raw.Matched := by
  unfold readAction at read
  split_ifs at read with isDomain isOffering
  · obtain ⟨⟨base, action, request⟩, _, isRaw⟩ := built_ok read
    cases isRaw
    exact isDomain
  · obtain ⟨⟨base, action, offering⟩, _, isRaw⟩ := built_ok read
    cases isRaw
    exact isOffering

theorem readAction_encodeMsg {raw : RawActionTx} {body : Bytes} (isMatched : raw.Matched)
    (fits : (RawTxi.action raw).Fits msgp recover)
    (encoded : (RawTxi.action raw).encodeMsg msgp recover = .ok body) (rest : Bytes) :
    readAction msgp recover raw.action (body ++ rest) = .ok (.action raw, rest) := by
  obtain ⟨base, action, data⟩ := raw
  match data with
  | none => cases encoded
  | some (.publicOffering offering) =>
    cases encoded
    have isOffering : action = actionTxActionIPO ∨ action = actionTxActionSPO ∨
        action = actionTxActionDestroy := isMatched
    have notDomain : action ≠ actionRequestDomainName := by
      rcases isOffering with rfl | rfl | rfl <;> decide
    refine (if_neg notDomain).trans ((if_pos isOffering).trans ?_)
    exact congrArg (built _) ((rawOfferingCodec msgp recover).read_append rest fits)
  | some (.requestDomain request) =>
    cases encoded
    have isDomain : action = actionRequestDomainName := isMatched
    refine (if_pos isDomain).trans ?_
    exact congrArg (built _) ((rawDomainCodec msgp recover).read_append rest fits)

end Actions

/-!
## Envelopes
-/

section Envelopes

variable {msgp : Msgp} {recover : Bool}
variable {bts rest : Bytes}
variable {type : UInt8} {own : RawActionTx}

theorem Kind.type_injective {left right : Kind} (same : left.type = right.type) : left = right :=
  Option.some.inj ((Kind.ofType_eq_some_iff.mpr rfl).symm.trans
    (Kind.ofType_eq_some_iff.mpr same.symm))

def RawTxi.Tagged (raw : RawTxi) : Prop := raw.getType = raw.kind.type

variable {raw : RawTxi}

theorem RawTxi.Tagged.action_iff (tagged : raw.Tagged) :
    raw.getType = txBaseAction ↔ raw.kind = .action := by
  rw [tagged]
  constructor
  · exact fun same => Kind.type_injective same
  · intro isAction
    rw [isAction]
    rfl

theorem RawTxi.Tagged.ofType (tagged : raw.Tagged) : Kind.ofType raw.getType = some raw.kind :=
  Kind.ofType_eq_some_iff.mpr tagged.symm

theorem encoded_of_fits (fits : raw.Fits msgp recover) :
    ∃ body, raw.encodeMsg msgp recover = .ok body := by
  cases raw with
  | action raw =>
    obtain ⟨base, action, data⟩ := raw
    match data with
    | none => cases fits
    | some (.publicOffering _) | some (.requestDomain _) => exact ⟨_, rfl⟩
  | _ => exact ⟨_, rfl⟩

theorem envelope_marshalMsg (marshaled : RawTxMarshaler.marshalMsg msgp false raw [] = .ok bts) :
    ∃ body, raw.encodeMsg msgp false = .ok body ∧
      ((raw.getType ≠ txBaseAction ∧ bts = 0 :: raw.getType :: body) ∨
        (raw.kind = .action ∧ ∃ action, bts = 0 :: raw.getType :: action :: body)) := by
  unfold RawTxMarshaler.marshalMsg at marshaled
  simp only [nil_append, header_bytes, marshalMsg_kept] at marshaled
  split at marshaled
  · split at marshaled
    · obtain ⟨body, encoded, rfl⟩ := map_ok marshaled
      exact ⟨body, encoded, .inr ⟨rfl, _, rfl⟩⟩
    · cases marshaled
  · next notAction =>
      obtain ⟨body, encoded, rfl⟩ := map_ok marshaled
      exact ⟨body, encoded, .inl ⟨notAction, rfl⟩⟩

theorem envelope_marshalMsg_lost {b : Bytes}
    (marshaled : RawTxMarshaler.marshalMsg msgp true raw b = .ok bts) :
    ∃ body, raw.encodeMsg msgp true = .ok body ∧ bts.length ≤ body.length := by
  unfold RawTxMarshaler.marshalMsg at marshaled
  split at marshaled
  · split at marshaled
    · exact marshalMsg_lost marshaled
    · cases marshaled
  · exact marshalMsg_lost marshaled

theorem unmarshalMsg_no_action {action : UInt8} {body : Bytes}
    (isAction : raw.kind = .action) (encoded : raw.encodeMsg msgp recover = .ok body) :
    unmarshalMsg msgp recover ((0 :: type :: action :: body) ++ rest) ≠ .ok (raw, rest) := by
  intro accepted
  obtain ⟨_, _, _, actionRead⟩ := unmarshalMsg_ok accepted
  obtain ⟨found, isFound, read⟩ := actionRead isAction
  obtain ⟨first, second, tail, rfl, isHeader⟩ := encodeMsg_headers encoded
  obtain rfl : first = 0x93 := isHeader isAction
  obtain rfl : 0x93 = found := Option.some.inj isFound
  cases read

theorem Kind.two_le_bodyStart (kind : Kind) : 2 ≤ kind.bodyStart := by
  cases kind <;> decide

theorem marshal_round_trip_iff (raw : RawTxi) (rest : Bytes) :
    (∃ bts, RawTxMarshaler.marshalMsg msgp recover raw [] = .ok bts ∧
      unmarshalMsg msgp recover (bts ++ rest) = .ok (raw, rest)) ↔
      recover = false ∧ raw.kind ≠ .action ∧ raw.Tagged ∧ raw.Fits msgp recover := by
  constructor
  · rintro ⟨bts, marshaled, accepted⟩
    obtain ⟨header, long, decoded, _⟩ := unmarshalMsg_ok accepted
    cases recover with
    | true =>
      -- the bytes in front of the key are lost, so too few are left to read
      obtain ⟨body, encoded, short⟩ := envelope_marshalMsg_lost marshaled
      obtain ⟨other, isOther, shortest⟩ := decoded.shortest
      obtain rfl : body = other := Except.ok.inj (encoded.symm.trans isOther)
      have start := raw.kind.two_le_bodyStart
      rw [length_drop] at shortest
      rw [length_append] at shortest long
      omega
    | false =>
      obtain ⟨body, encoded, written⟩ := envelope_marshalMsg marshaled
      rcases written with ⟨notAction, rfl⟩ | ⟨isAction, action, rfl⟩
      · have tagged : raw.Tagged := Option.some.inj header
        refine ⟨rfl, fun isAction => notAction (tagged.action_iff.mpr isAction), tagged, decoded.fits⟩
      · exact absurd accepted (unmarshalMsg_no_action isAction encoded)
  · rintro ⟨rfl, notAction, tagged, fits⟩
    obtain ⟨body, encoded⟩ := encoded_of_fits fits
    have otherType : raw.getType ≠ txBaseAction := fun isAction =>
      notAction (tagged.action_iff.mp isAction)
    refine ⟨0 :: raw.getType :: body, ?_, ?_⟩
    · simp only [RawTxMarshaler.marshalMsg, if_neg otherType, nil_append, header_bytes,
        marshalMsg_kept, encoded]
      rfl
    · have read := readBody_encodeMsg notAction fits encoded rest
      obtain ⟨first, second, tail, rfl, _⟩ := encodeMsg_headers encoded
      simp only [cons_append, unmarshalMsg, header_toUInt8, tagged.ofType]
      exact read _

theorem envelope_encodeMsg (encoded : encodeMsg msgp recover raw = .ok bts) :
    ∃ body, raw.encodeMsg msgp recover = .ok body ∧
      ((raw.getType ≠ txBaseAction ∧ bts = 0 :: raw.getType :: body) ∨ ∃ own, raw = .action own ∧
          bts = 0 :: raw.getType :: (msgp.uint8.append own.action ++ body)) := by
  unfold encodeMsg at encoded
  simp only [header_bytes] at encoded
  split at encoded
  · split at encoded
    · obtain ⟨body, bodyEncoded, written⟩ := bind_ok encoded
      cases written
      exact ⟨body, bodyEncoded, .inr ⟨_, rfl, rfl⟩⟩
    · cases encoded
  · next notAction =>
      obtain ⟨body, bodyEncoded, written⟩ := bind_ok encoded
      cases written
      exact ⟨body, bodyEncoded, .inl ⟨notAction, rfl⟩⟩

theorem decodeMsg_ok (accepted : decodeMsg msgp recover bts = .ok (raw, rest)) :
    bts[1]? = some raw.kind.type ∧ raw.Fits msgp recover ∧
      (raw.kind = .action → ∃ action, bts[2]? = some action ∧
        readAction msgp recover action (bts.drop 3) = .ok (raw, rest)) := by
  unfold decodeMsg at accepted
  split at accepted
  · next high low body =>
      simp only [header_toUInt8] at accepted
      rcases readBody_ok accepted with ⟨isAction, read⟩ | ⟨isKind, notAction, decoded⟩
      · split at read
        · next action tail =>
            obtain ⟨kind, decoded⟩ := readAction_ok read
            have isType : raw.kind.type = low := Kind.ofType_eq_some_iff.mp (kind ▸ isAction)
            exact ⟨congrArg some isType.symm, decoded.fits, fun _ => ⟨action, rfl, read⟩⟩
        · cases read
      · have isType : raw.kind.type = low := Kind.ofType_eq_some_iff.mp isKind
        exact ⟨congrArg some isType.symm, decoded.fits, fun isAction => absurd isAction notAction⟩
  · cases accepted

theorem decodeMsg_matched {body : Bytes} (accepted : decodeMsg msgp recover
      ((0 :: type :: (msgp.uint8.append own.action ++ body)) ++ rest) = .ok (.action own, rest)) :
    own.Matched := by
  obtain ⟨_, _, actionRead⟩ := decodeMsg_ok accepted
  obtain ⟨found, isFound, read⟩ := actionRead rfl
  by_cases small : own.action < 0x80
  · rw [msgp.uint8_small small] at isFound
    obtain rfl : own.action = found := Option.some.inj isFound
    exact readAction_matched read
  · rw [msgp.uint8_large (UInt8.not_lt.mp small)] at isFound
    obtain rfl : 0xcc = found := Option.some.inj isFound
    cases read

theorem RawActionTx.Matched.small (isMatched : own.Matched) : own.action < 0x80 := by
  unfold RawActionTx.Matched at isMatched
  split at isMatched
  · rw [isMatched]
    decide
  · rcases isMatched with isAction | isAction | isAction <;> rw [isAction] <;> decide
  · cases isMatched

theorem stream_round_trip_iff (raw : RawTxi) (rest : Bytes) :
    (∃ bts, encodeMsg msgp recover raw = .ok bts ∧
      decodeMsg msgp recover (bts ++ rest) = .ok (raw, rest)) ↔
      raw.Matched ∧ raw.Tagged ∧ raw.Fits msgp recover := by
  constructor
  · rintro ⟨bts, encoded, accepted⟩
    obtain ⟨header, fits, _⟩ := decodeMsg_ok accepted
    obtain ⟨body, bodyEncoded, ⟨notAction, rfl⟩ | ⟨own, rfl, rfl⟩⟩ := envelope_encodeMsg encoded
    · have tagged : raw.Tagged := Option.some.inj header
      have isMatched : raw.Matched := by
        cases raw with
        | action own => exact absurd (tagged.action_iff.mpr rfl) notAction
        | _ => trivial
      exact ⟨isMatched, tagged, fits⟩
    · exact ⟨decodeMsg_matched accepted, Option.some.inj header, fits⟩
  · rintro ⟨isMatched, tagged, fits⟩
    obtain ⟨body, bodyEncoded⟩ := encoded_of_fits fits
    by_cases isAction : raw.kind = .action
    · cases raw with
      | action own =>
        have isType := tagged.action_iff.mpr isAction
        refine ⟨0 :: txBaseAction :: own.action :: body, ?_, ?_⟩
        · simp only [encodeMsg, isType, if_true, header_bytes, bodyEncoded,
            msgp.uint8_small isMatched.small]
          rfl
        · have read := readAction_encodeMsg isMatched fits bodyEncoded rest
          exact read
      | _ => cases isAction
    · have otherType : raw.getType ≠ txBaseAction := fun isType =>
        isAction (tagged.action_iff.mp isType)
      refine ⟨0 :: raw.getType :: body, ?_, ?_⟩
      · simp only [encodeMsg, if_neg otherType, header_bytes, bodyEncoded]
        rfl
      · simp only [cons_append, decodeMsg, header_toUInt8, tagged.ofType]
        exact readBody_encodeMsg isAction fits bodyEncoded rest _

end Envelopes

/-- `MarshalMsg` and `UnmarshalMsg` do not agree on an action, nor on anything where the key is left
out. -/
theorem wire_round_trip_iff (msgp stream : Msgp) (recover : Bool) (raw : RawTxi) (rest : Bytes) :
    ((∃ bts, RawTxMarshaler.marshalMsg msgp recover raw [] = .ok bts ∧
        RawTxMarshaler.unmarshalMsg msgp recover (bts ++ rest) = .ok (raw, rest)) ↔
      recover = false ∧ raw.kind ≠ .action ∧ raw.Tagged ∧ raw.Carried msgp recover ∧ raw.Untimed) ∧
    ((∃ bts, RawTxMarshaler.encodeMsg stream recover raw = .ok bts ∧
        RawTxMarshaler.decodeMsg stream recover (bts ++ rest) = .ok (raw, rest)) ↔
      raw.Matched ∧ raw.Tagged ∧ raw.Carried stream recover ∧ raw.Untimed) := by
  simp only [marshal_round_trip_iff, stream_round_trip_iff, fits_iff_carried, and_self]

def offeringOf (action : UInt8) : RawTxi :=
  .action ⟨⟨txBaseAction, 0, [], 0, 0, [], [], 0, 0, 0⟩, action,
    some (.publicOffering ⟨0, some 1, true, []⟩)⟩

/-- The action byte of an offering is looked for in the header of its body. -/
theorem offering_not_unmarshaled :
    ∃ bts, RawTxMarshaler.marshalMsg .format false (offeringOf actionTxActionIPO) [] = .ok bts ∧
      RawTxMarshaler.unmarshalMsg .format false bts = .error (.unknownAction 0x93) :=
  ⟨_, rfl, rfl⟩

end AnnchainOG.Wire
