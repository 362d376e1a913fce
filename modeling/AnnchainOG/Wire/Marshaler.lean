import AnnchainOG.Wire.Layout

/-!
# The hand-written envelope of a raw transaction

Two bytes of type, for an action one byte of action, then the body, which has a type of its own.
-/

namespace AnnchainOG.Wire

inductive RawTxi where
  | tx (raw : RawTx)
  | sequencer (raw : RawSequencer)
  | campaign (raw : RawCampaign)
  | termChange (raw : RawTermChange)
  | archive (raw : Archive)
  | action (raw : RawActionTx)
  deriving DecidableEq

inductive Kind where
  | tx
  | sequencer
  | campaign
  | termChange
  | archive
  | action
  deriving DecidableEq

def Kind.type : Kind → UInt8
  | .tx => txBaseTypeNormal
  | .sequencer => txBaseTypeSequencer
  | .campaign => txBaseTypeCampaign
  | .termChange => txBaseTypeTermChange
  | .archive => txBaseTypeArchive
  | .action => txBaseAction

def Kind.ofType (type : UInt8) : Option Kind :=
  if type = txBaseTypeNormal then some .tx
  else if type = txBaseTypeCampaign then some .campaign
  else if type = txBaseTypeTermChange then some .termChange
  else if type = txBaseTypeSequencer then some .sequencer
  else if type = txBaseTypeArchive then some .archive
  else if type = txBaseAction then some .action
  else none

theorem Kind.ofType_eq_some_iff {type : UInt8} {kind : Kind} :
    Kind.ofType type = some kind ↔ kind.type = type := by
  constructor
  · unfold Kind.ofType
    intro isKind
    split_ifs at isKind with isTx isCampaign isTermChange isSequencer isArchive isAction
    all_goals
      cases isKind
      exact Eq.symm ‹_›
  · rintro rfl
    cases kind <;> rfl

def RawTxi.kind : RawTxi → Kind
  | .tx _ => .tx
  | .sequencer _ => .sequencer
  | .campaign _ => .campaign
  | .termChange _ => .termChange
  | .archive _ => .archive
  | .action _ => .action

def RawTxi.base : RawTxi → TxBase
  | .tx raw => raw.base
  | .sequencer raw => raw.base
  | .campaign raw => raw.base
  | .termChange raw => raw.base
  | .archive raw => raw.base
  | .action raw => raw.base

def RawTxi.getType (raw : RawTxi) : UInt8 := raw.base.type

inductive DecodeError where
  | sizeMismatch
  | endOfInput
  | unknownType
  | unknownAction (action : UInt8)
  | malformed
  deriving DecidableEq

section Envelope

variable (msgp : Msgp) (recover : Bool)

/-!
## Bodies
-/

/-- `MarshalMsg` of the body. An action without data has nothing to call. -/
def RawTxi.marshalMsg (raw : RawTxi) (b : Bytes) : Except Panic Bytes :=
  match raw with
  | .tx raw => .ok (marshalBody msgp recover 5 (rawTxFields msgp) raw.base
      (raw.toAddress, raw.value, raw.data, raw.tokenId) b)
  | .sequencer raw => .ok (marshalBody msgp recover 4 (rawSequencerFields msgp) raw.base
      (raw.blsJointSig, raw.blsJointPubKey, raw.stateRoot) b)
  | .campaign raw => .ok (marshalBody msgp recover 3 (rawCampaignFields msgp) raw.base
      (raw.dkgPublicKey, raw.vrf) b)
  | .termChange raw => .ok (marshalBody msgp recover 4 (rawTermChangeFields msgp) raw.base
      (raw.termId, raw.pkBls, raw.sigSet) b)
  | .archive raw => .ok (marshalBody msgp recover 2 msgp.bytes raw.base raw.data (b ++ [0x91]))
  | .action raw =>
    match raw.actionData with
    | some (.publicOffering offering) => .ok (marshalBody msgp recover 3
        (msgp.uint8.andThen (offeringCodec msgp)) raw.base (raw.action, offering) b)
    | some (.requestDomain request) => .ok (marshalBody msgp recover 3
        (msgp.uint8.andThen (domainCodec msgp)) raw.base (raw.action, request) b)
    | none => .error .nilPointer

def RawTxi.encodeMsg (raw : RawTxi) : Except Panic Bytes :=
  match raw with
  | .tx raw => .ok ((rawTxCodec msgp recover).append raw)
  | .sequencer raw => .ok ((rawSequencerCodec msgp recover).append raw)
  | .campaign raw => .ok ((rawCampaignCodec msgp recover).append raw)
  | .termChange raw => .ok ((rawTermChangeCodec msgp recover).append raw)
  | .archive raw => .ok ((rawArchiveCodec msgp recover).append raw)
  | .action raw =>
    match raw.actionData with
    | some (.publicOffering offering) =>
      .ok ((rawOfferingCodec msgp recover).append (raw.base, raw.action, offering))
    | some (.requestDomain request) =>
      .ok ((rawDomainCodec msgp recover).append (raw.base, raw.action, request))
    | none => .error .nilPointer

def built {α : Type} (build : α → RawTxi) (read : Option (α × Bytes)) :
    Except DecodeError (RawTxi × Bytes) :=
  match read with
  | some (value, bts) => .ok (build value, bts)
  | none => .error .malformed

/-- The body decoder calls the data that the byte in front has chosen. -/
def readAction (action : UInt8) (bts : Bytes) : Except DecodeError (RawTxi × Bytes) :=
  if action = actionRequestDomainName then
    built (fun (base, action, request) => .action ⟨base, action, some (.requestDomain request)⟩)
      ((rawDomainCodec msgp recover).read bts)
  else if action = actionTxActionIPO ∨ action = actionTxActionSPO ∨
      action = actionTxActionDestroy then
    built (fun (base, action, offering) => .action ⟨base, action, some (.publicOffering offering)⟩)
      ((rawOfferingCodec msgp recover).read bts)
  else .error (.unknownAction action)

/-- The body decoder of the kind; the two decoders take the byte of an action from different
places. -/
def readBody (kind : Option Kind) (body : Bytes)
    (action : Except DecodeError (RawTxi × Bytes)) : Except DecodeError (RawTxi × Bytes) :=
  match kind with
  | some .tx => built .tx ((rawTxCodec msgp recover).read body)
  | some .campaign => built .campaign ((rawCampaignCodec msgp recover).read body)
  | some .termChange => built .termChange ((rawTermChangeCodec msgp recover).read body)
  | some .sequencer => built .sequencer ((rawSequencerCodec msgp recover).read body)
  | some .archive => built .archive ((rawArchiveCodec msgp recover).read body)
  | some .action => action
  | none => .error .unknownType

/-!
## The envelope
-/

def RawTxMarshaler.marshalMsg (raw : RawTxi) (b : Bytes) : Except Panic Bytes :=
  let b := b ++ bigEndian 2 raw.getType.toNat
  if raw.getType = txBaseAction then
    match raw with
    | .action own => raw.marshalMsg msgp recover (b ++ [own.action])
    | _ => .error .typeAssertion
  else
    raw.marshalMsg msgp recover b

/-- The action is read one byte behind the byte that `MarshalMsg` writes. -/
def RawTxMarshaler.unmarshalMsg (bts : Bytes) : Except DecodeError (RawTxi × Bytes) :=
  match bts with
  | high :: low :: third :: fourth :: rest =>
    let tp := UInt16.ofNat (ofBigEndian [high, low])
    readBody msgp recover (Kind.ofType tp.toUInt8) (third :: fourth :: rest)
      (readAction msgp recover fourth (fourth :: rest))
  | _ => .error .sizeMismatch

def RawTxMarshaler.encodeMsg (raw : RawTxi) : Except Panic Bytes := do
  let head := bigEndian 2 raw.getType.toNat
  if raw.getType = txBaseAction then
    match raw with
    | .action own =>
      let body ← raw.encodeMsg msgp recover
      return head ++ (msgp.uint8.append own.action ++ body)
    | _ => .error .typeAssertion
  else
    let body ← raw.encodeMsg msgp recover
    return head ++ body

def RawTxMarshaler.decodeMsg (bts : Bytes) : Except DecodeError (RawTxi × Bytes) :=
  match bts with
  | high :: low :: body =>
    let tp := UInt16.ofNat (ofBigEndian [high, low])
    readBody msgp recover (Kind.ofType tp.toUInt8) body
      (match body with
      | action :: rest => readAction msgp recover action rest
      | [] => .error .endOfInput)
  | _ => .error .endOfInput

end Envelope

theorem header_toUInt8 (high low : UInt8) :
    (UInt16.ofNat (ofBigEndian [high, low])).toUInt8 = low := by
  have lowBound := low.toNat_lt
  rw [← UInt8.toNat_inj, UInt16.toNat_toUInt8, UInt16.toNat_ofNat']
  simp only [ofBigEndian, List.length_cons, List.length_nil]
  omega

theorem header_bytes (type : UInt8) : bigEndian 2 type.toNat = [0, type] := by
  have bound := type.toNat_lt
  have high : type.toNat / 256 = 0 := by omega
  simp [bigEndian, high]

end AnnchainOG.Wire
