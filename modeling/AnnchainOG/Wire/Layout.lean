import AnnchainOG.Lib.MessagePack
import AnnchainOG.Wire.Records

/-!
# Layouts of the raw transactions

A tuple is written behind the literal header of a short array and read behind any array header of
the same length.
-/

namespace AnnchainOG.Wire

structure RawTx where
  base : TxBase
  toAddress : Address
  value : Option Int
  data : Bytes
  tokenId : TokenId
  deriving DecidableEq

structure RawActionTx where
  base : TxBase
  action : UInt8
  actionData : Option ActionData
  deriving DecidableEq

structure RawSequencer where
  base : TxBase
  blsJointSig : Bytes
  blsJointPubKey : Bytes
  stateRoot : Hash
  timestamp : Int64
  deriving DecidableEq

structure RawCampaign where
  base : TxBase
  dkgPublicKey : Bytes
  vrf : VrfInfo
  deriving DecidableEq

structure RawTermChange where
  base : TxBase
  termId : UInt64
  pkBls : Bytes
  sigSet : List (Option SigSet)
  deriving DecidableEq

/-!
## Fields
-/

theorem one_short : (1 : UInt32) < 16 := by decide

theorem five_short : (5 : UInt32) < 16 := by decide

section Fields

variable (msgp : Msgp) (recover : Bool)
variable {α ρ : Type} {count : UInt32}
variable {short : count < 16} {codec : Codec α}

def tuple (count : UInt32) (short : count < 16) (codec : Codec α) : Codec α where
  append value := (0x90 + count.toUInt8) :: codec.append value
  read bts := do
    let (found, bts) ← msgp.arrayHeader.read bts
    if found = count then codec.read bts else none
  Fits := codec.Fits
  read_append := by
    intro value rest fits
    have read := (Codec.headed msgp.arrayHeader count (msgp.arrayHeader_fits count) codec).read_append
      rest fits
    simp only [Codec.headed, msgp.fixarray short] at read
    exact read
  fits_of_read :=
    (Codec.headed msgp.arrayHeader count (msgp.arrayHeader_fits count) codec).fits_of_read
  shortest := by
    intro bts value rest read
    have shortest :=
      (Codec.headed msgp.arrayHeader count (msgp.arrayHeader_fits count) codec).shortest read
    simp only [Codec.headed, msgp.fixarray short] at shortest
    exact shortest

@[simp] theorem tuple_fits
    {value : α} : (tuple msgp count short codec).Fits value ↔ codec.Fits value :=
  Iff.rfl

theorem isNil_tuple (value : α)
    (rest : Bytes) : msgp.isNil ((tuple msgp count short codec).append value ++ rest) = false := by
  have notNil := msgp.isNil_fixarray (codec.append value ++ rest) short
  rwa [msgp.fixarray short] at notNil

def pointer (count : UInt32) (short : count < 16) (codec : Codec α) : Codec (Option α) :=
  (msgp.nil).pointer msgp.isNil (tuple msgp count short codec) msgp.nil_fits msgp.isNil_nil
    (isNil_tuple msgp)

/-- `TxBaseType` is sent as sixteen bits, of which the reader keeps the low eight. -/
def typeCodec : Codec UInt8 :=
  msgp.uint16.spelled UInt16.toUInt8 UInt8.toUInt16 UInt8.toUInt8_toUInt16 (by
    intro word _
    refine ⟨msgp.uint16_fits _, msgp.uint16_le ?_⟩
    rw [UInt16.le_iff_toNat_le]
    simp only [UInt8.toNat_toUInt16, UInt16.toNat_toUInt8]
    exact Nat.mod_le _ _)

/-- `ReadExactBytes` into a byte array. -/
def exactCodec (size : Nat) : Codec (BitVec (8 * size)) :=
  msgp.bytes.via
    (fun bytes => if bytes.length = size then some (.ofNat _ (ofBigEndian bytes)) else none)
    (fun word => bigEndian size word.toNat) (fun _ => True) (by
      intro bytes word
      have width : 2 ^ (8 * size) = 256 ^ size := by rw [Nat.pow_mul]
      rw [Option.ite_none_right_eq_some, Option.some.injEq, and_true]
      constructor
      · rintro ⟨isLength, rfl⟩
        have bound := ofBigEndian_lt bytes
        rw [isLength, ← width] at bound
        rw [BitVec.toNat_ofNat, Nat.mod_eq_of_lt bound, bigEndian_ofBigEndian isLength]
      · rintro rfl
        refine ⟨length_bigEndian _ _, BitVec.eq_of_toNat_eq ?_⟩
        rw [BitVec.toNat_ofNat, ofBigEndian_bigEndian, ← width, Nat.mod_mod,
          Nat.mod_eq_of_lt word.isLt])

def hashCodec : Codec Hash := tuple msgp 1 (by decide) (exactCodec msgp 32)

def addressCodec : Codec Address := tuple msgp 1 (by decide) (exactCodec msgp 20)

def hashesCodec : Codec (List Hash) :=
  Codec.slice msgp.arrayHeader msgp.arrayHeader_fits (hashCodec msgp)

/-- The fields of a `BigInt`: whether it is positive, and its absolute value. -/
def bigIntFields : Codec Int :=
  (msgp.bool.andThen msgp.bytes).spelled
    (fun (positive, bytes) => if positive then ofBigEndian bytes else -ofBigEndian bytes)
    (fun value => (decide (value > 0), bigBytes value)) (by
      intro value
      simp only [ofBigEndian_bigBytes, decide_eq_true_eq]
      split <;> omega) (by
      rintro ⟨positive, bytes⟩ ⟨_, bytesFit⟩
      have shorter : (bigBytes (if positive then (ofBigEndian bytes : Int) else
          -ofBigEndian bytes)).length ≤ bytes.length :=
        bigBytes_length_le (by cases positive <;> simp)
      obtain ⟨fits, le⟩ := msgp.bytes_le shorter bytesFit
      refine ⟨⟨msgp.bool_fits _, fits⟩, ?_⟩
      simp only [Codec.andThen, List.length_append, msgp.bool_length]
      exact Nat.add_le_add_left le 1)

def bigIntCodec : Codec (Option Int) := pointer msgp 1 (by decide) (bigIntFields msgp)

def offeringCodec : Codec PublicOffering :=
  (tuple msgp 4 (by decide) (msgp.int32.andThen ((bigIntCodec msgp).andThen
    (msgp.bool.andThen msgp.string)))).record
    (fun (tokenId, value, enableSPO, tokenName) => ⟨tokenId, value, enableSPO, tokenName⟩)
    (fun offering => (offering.tokenId, offering.value, offering.enableSPO, offering.tokenName))
    (fun _ => rfl) (fun _ => rfl)

def domainCodec : Codec RequestDomain :=
  (tuple msgp 1 (by decide) msgp.string).record RequestDomain.mk RequestDomain.domainName
    (fun _ => rfl) (fun _ => rfl)

def vrfCodec : Codec VrfInfo :=
  (tuple msgp 4 (by decide) (msgp.bytes.andThen (msgp.bytes.andThen
    (msgp.bytes.andThen msgp.bytes)))).record
    (fun (message, proof, publicKey, vrf) => ⟨message, proof, publicKey, vrf⟩)
    (fun info => (info.message, info.proof, info.publicKey, info.vrf))
    (fun _ => rfl) (fun _ => rfl)

def sigSetFields : Codec SigSet :=
  (msgp.bytes.andThen msgp.bytes).record (fun (publicKey, signature) => ⟨publicKey, signature⟩)
    (fun sigSet => (sigSet.publicKey, sigSet.signature)) (fun _ => rfl) (fun _ => rfl)

def sigSetsCodec : Codec (List (Option SigSet)) :=
  Codec.slice msgp.arrayHeader msgp.arrayHeader_fits (pointer msgp 2 (by decide) (sigSetFields msgp))

/-!
## The common part
-/

def headCodec : Codec (UInt8 × Hash × List Hash × UInt64 × UInt64) :=
  (typeCodec msgp).andThen ((hashCodec msgp).andThen ((hashesCodec msgp).andThen
    (msgp.uint64.andThen msgp.uint64)))

def tailCodec : Codec (Bytes × UInt64 × UInt64 × UInt8) :=
  msgp.bytes.andThen (msgp.uint64.andThen (msgp.uint64.andThen msgp.uint8))

def TxBase.head (base : TxBase) : UInt8 × Hash × List Hash × UInt64 × UInt64 :=
  (base.type, base.hash, base.parentsHash, base.accountNonce, base.height)

def TxBase.tail (base : TxBase) : Bytes × UInt64 × UInt64 × UInt8 :=
  (base.signature, base.mineNonce, base.weight, base.version)

/-- Where keys are recovered from signatures no key is sent. -/
def publicKeyCodec : Codec Bytes :=
  if recover then .skipped [] else msgp.bytes

def baseCodec : Codec TxBase :=
  (tuple msgp 10 (by decide)
    ((headCodec msgp).andThen ((publicKeyCodec msgp recover).andThen (tailCodec msgp)))).record
    (fun ((type, hash, parentsHash, accountNonce, height), publicKey,
        signature, mineNonce, weight, version) =>
      ⟨type, hash, parentsHash, accountNonce, height, publicKey, signature, mineNonce, weight,
        version⟩)
    (fun base => (base.head, base.publicKey, base.tail)) (fun _ => rfl) (fun _ => rfl)

/-- Where the key is left out, no bytes at all are returned: what was appended before is lost. -/
def publicKeyMarshalMsg (publicKey b : Bytes) : Bytes :=
  if recover then [] else b ++ msgp.bytes.append publicKey

def TxBase.marshalMsg (base : TxBase) (b : Bytes) : Bytes :=
  let o := b ++ 0x9a :: (headCodec msgp).append base.head
  let o := publicKeyMarshalMsg msgp recover base.publicKey o
  o ++ (tailCodec msgp).append base.tail

/-- A transaction is a tuple of the common part and fields of its own. -/
def bodyCodec (count : UInt32) (short : count < 16) (fields : Codec ρ) : Codec (TxBase × ρ) :=
  tuple msgp count short ((baseCodec msgp recover).andThen fields)

def marshalBody (count : UInt32) (fields : Codec ρ) (base : TxBase) (own : ρ) (b : Bytes) : Bytes :=
  base.marshalMsg msgp recover (b ++ [0x90 + count.toUInt8]) ++ fields.append own

theorem marshalBody_kept (short : count < 16) (fields : Codec ρ)
    (base : TxBase) (own : ρ) (b : Bytes) :
    marshalBody msgp false count fields base own b =
      b ++ (bodyCodec msgp false count short fields).append (base, own) := by
  simp [marshalBody, TxBase.marshalMsg, publicKeyMarshalMsg, bodyCodec, tuple, Codec.andThen,
    baseCodec, Codec.record, Codec.via, publicKeyCodec, List.append_assoc]

theorem marshalBody_lost (short : count < 16) (fields : Codec ρ)
    (base : TxBase) (own : ρ) (b : Bytes) :
    (marshalBody msgp true count fields base own b).length <
      ((bodyCodec msgp true count short fields).append (base, own)).length := by
  simp [marshalBody, TxBase.marshalMsg, publicKeyMarshalMsg, bodyCodec, tuple, Codec.andThen,
    baseCodec, Codec.record, Codec.via, publicKeyCodec, Codec.skipped, List.length_append]
  omega

/-!
## The kinds
-/

def rawTxFields : Codec (Address × Option Int × Bytes × TokenId) :=
  (addressCodec msgp).andThen ((bigIntCodec msgp).andThen (msgp.bytes.andThen msgp.int32))

def rawTxCodec : Codec RawTx :=
  (bodyCodec msgp recover 5 (by decide) (rawTxFields msgp)).record
    (fun (base, toAddress, value, data, tokenId) => ⟨base, toAddress, value, data, tokenId⟩)
    (fun raw => (raw.base, raw.toAddress, raw.value, raw.data, raw.tokenId))
    (fun _ => rfl) (fun _ => rfl)

def rawSequencerFields : Codec (Bytes × Bytes × Hash) :=
  msgp.bytes.andThen (msgp.bytes.andThen (hashCodec msgp))

def rawSequencerCodec : Codec RawSequencer :=
  (bodyCodec msgp recover 4 (by decide) (rawSequencerFields msgp)).via
    (fun (base, blsJointSig, blsJointPubKey, stateRoot) =>
      some ⟨base, blsJointSig, blsJointPubKey, stateRoot, 0⟩)
    (fun raw => (raw.base, raw.blsJointSig, raw.blsJointPubKey, raw.stateRoot))
    (fun raw => raw.timestamp = 0) (by
      rintro ⟨base, blsJointSig, blsJointPubKey, stateRoot⟩ raw
      constructor
      · rintro ⟨⟩
        exact ⟨rfl, rfl⟩
      · rintro ⟨⟨⟩, isZero⟩
        rw [← isZero])

def rawCampaignFields : Codec (Bytes × VrfInfo) :=
  msgp.bytes.andThen (vrfCodec msgp)

def rawCampaignCodec : Codec RawCampaign :=
  (bodyCodec msgp recover 3 (by decide) (rawCampaignFields msgp)).record
    (fun (base, dkgPublicKey, vrf) => ⟨base, dkgPublicKey, vrf⟩)
    (fun raw => (raw.base, raw.dkgPublicKey, raw.vrf)) (fun _ => rfl) (fun _ => rfl)

def rawTermChangeFields : Codec (UInt64 × Bytes × List (Option SigSet)) :=
  msgp.uint64.andThen (msgp.bytes.andThen (sigSetsCodec msgp))

def rawTermChangeCodec : Codec RawTermChange :=
  (bodyCodec msgp recover 4 (by decide) (rawTermChangeFields msgp)).record
    (fun (base, termId, pkBls, sigSet) => ⟨base, termId, pkBls, sigSet⟩)
    (fun raw => (raw.base, raw.termId, raw.pkBls, raw.sigSet)) (fun _ => rfl) (fun _ => rfl)

def rawArchiveCodec : Codec Archive :=
  (tuple msgp 1 (by decide) (bodyCodec msgp recover 2 (by decide) msgp.bytes)).record
    (fun (base, data) => ⟨base, data⟩) (fun raw => (raw.base, raw.data))
    (fun _ => rfl) (fun _ => rfl)

def rawOfferingCodec : Codec (TxBase × UInt8 × PublicOffering) :=
  bodyCodec msgp recover 3 (by decide) (msgp.uint8.andThen (offeringCodec msgp))

def rawDomainCodec : Codec (TxBase × UInt8 × RequestDomain) :=
  bodyCodec msgp recover 3 (by decide) (msgp.uint8.andThen (domainCodec msgp))

end Fields

end AnnchainOG.Wire
