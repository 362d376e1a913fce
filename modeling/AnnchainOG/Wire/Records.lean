import AnnchainOG.Ledger.Transaction
import AnnchainOG.State.Encoding

/-!
# Transaction records

Every field that is signed, hashed, sent or stored. `recover` is the global `CanRecoverPubFromSig`;
the digest is a parameter of the hashes.
-/

namespace AnnchainOG.Wire

/-- The ways a call on a record can end in a Go panic. -/
inductive Panic where
  | nilPointer
  | sliceBounds
  | typeAssertion
  | notImplemented
  | unwritable
  deriving DecidableEq

def txBaseTypeNormal : UInt8 := 0

def txBaseTypeSequencer : UInt8 := 1

def txBaseTypeCampaign : UInt8 := 2

def txBaseTypeTermChange : UInt8 := 3

def txBaseTypeArchive : UInt8 := 4

def txBaseAction : UInt8 := 5

structure TxBase where
  type : UInt8
  hash : Hash
  parentsHash : List Hash
  accountNonce : UInt64
  height : UInt64
  publicKey : Bytes
  signature : Bytes
  mineNonce : UInt64
  weight : UInt64
  version : UInt8
  deriving DecidableEq

structure Tx where
  base : TxBase
  sender : Option Address
  toAddress : Address
  value : Option Int
  tokenId : TokenId
  data : Bytes
  deriving DecidableEq

structure Sequencer where
  base : TxBase
  issuer : Option Address
  blsJointSig : Bytes
  blsJointPubKey : Bytes
  stateRoot : Hash
  proposing : Bool
  timestamp : Int64
  deriving DecidableEq

structure VrfInfo where
  message : Bytes
  proof : Bytes
  publicKey : Bytes
  vrf : Bytes
  deriving DecidableEq

structure Campaign where
  base : TxBase
  dkgPublicKey : Bytes
  vrf : VrfInfo
  issuer : Option Address
  deriving DecidableEq

structure SigSet where
  publicKey : Bytes
  signature : Bytes
  deriving DecidableEq

structure TermChange where
  base : TxBase
  termID : UInt64
  pkBls : Bytes
  sigSet : List (Option SigSet)
  issuer : Option Address
  deriving DecidableEq

structure Archive where
  base : TxBase
  data : Bytes
  deriving DecidableEq

structure PublicOffering where
  tokenId : TokenId
  value : Option Int
  enableSPO : Bool
  tokenName : Bytes
  deriving DecidableEq

structure RequestDomain where
  domainName : Bytes
  deriving DecidableEq

inductive ActionData where
  | publicOffering (offering : PublicOffering)
  | requestDomain (request : RequestDomain)
  deriving DecidableEq

structure ActionTx where
  base : TxBase
  action : UInt8
  sender : Option Address
  actionData : Option ActionData
  deriving DecidableEq

inductive Txi where
  | tx (tx : Tx)
  | sequencer (sequencer : Sequencer)
  | campaign (campaign : Campaign)
  | termChange (termChange : TermChange)
  | archive (archive : Archive)
  | action (actionTx : ActionTx)
  deriving DecidableEq

/-!
## The bytes that are signed
-/

def hashBytes (hash : Hash) : Bytes := bigEndian 32 hash.toNat

def addressBytes (address : Address) : Bytes := bigEndian 20 address.toNat

def uint64Bytes (value : UInt64) : Bytes := bigEndian 8 value.toNat

def tokenIdBytes (tokenId : TokenId) : Bytes := bigEndian 4 tokenId.toBitVec.toNat

/-- `GetSigBytes` asks `Int64` whether the amount is zero, which looks at the low 64 bits. -/
def getSigBytes (value : Int) : Bytes :=
  if value.natAbs % 2 ^ 64 = 0 then [0] else bigBytes value

def deref {α : Type} : Option α → Except Panic α
  | some value => .ok value
  | none => .error .nilPointer

variable (recover : Bool)

/-- The sender is a signature target only where the key is not recovered from the signature. -/
def senderTarget (sender : Option Address) : Except Panic Bytes := do
  if recover then
    return []
  else
    return addressBytes (← deref sender)

def Tx.signatureTargets (tx : Tx) : Except Panic Bytes := do
  let sender ← senderTarget recover tx.sender
  let value ← deref tx.value
  return uint64Bytes tx.base.accountNonce ++ sender ++ addressBytes tx.toAddress ++
    getSigBytes value ++ tx.data ++ tokenIdBytes tx.tokenId

def Sequencer.signatureTargets (seq : Sequencer) : Except Panic Bytes := do
  let issuer ← senderTarget recover seq.issuer
  return seq.blsJointPubKey ++ uint64Bytes seq.base.accountNonce ++ issuer ++
    uint64Bytes seq.base.height ++ uint64Bytes seq.base.weight ++ hashBytes seq.stateRoot ++
    seq.base.parentsHash.flatMap hashBytes

def Campaign.signatureTargets (campaign : Campaign) : Except Panic Bytes := do
  let issuer ← senderTarget recover campaign.issuer
  return campaign.dkgPublicKey ++ campaign.vrf.vrf ++ campaign.vrf.publicKey ++
    campaign.vrf.proof ++ campaign.vrf.message ++ uint64Bytes campaign.base.accountNonce ++ issuer

def TermChange.signatureTargets (termChange : TermChange) : Except Panic Bytes := do
  let issuer ← senderTarget recover termChange.issuer
  let signatures ← termChange.sigSet.mapM deref
  return uint64Bytes termChange.base.accountNonce ++ issuer ++ termChange.pkBls ++
    signatures.flatMap fun signature => signature.publicKey ++ signature.signature

def Archive.signatureTargets (_ : Archive) : Except Panic Bytes :=
  .error .notImplemented

def ActionTx.getPublicOffering (tx : ActionTx) : Option PublicOffering :=
  if tx.action = actionTxActionIPO ∨ tx.action = actionTxActionSPO ∨
      tx.action = actionTxActionDestroy then
    match tx.actionData with
    | some (.publicOffering offering) => some offering
    | _ => none
  else none

def ActionTx.getDomainName (tx : ActionTx) : Option RequestDomain :=
  if tx.action = actionRequestDomainName then
    match tx.actionData with
    | some (.requestDomain request) => some request
    | _ => none
  else none

/-- A domain name is handed to the writer as a string, which `binary.Write` refuses. -/
def ActionTx.signatureTargets (tx : ActionTx) : Except Panic Bytes := do
  let sender ← senderTarget recover tx.sender
  let head := uint64Bytes tx.base.accountNonce ++ [tx.action] ++ sender
  if tx.action = actionTxActionIPO ∨ tx.action = actionTxActionSPO ∨
      tx.action = actionTxActionDestroy then
    let offering ← deref tx.getPublicOffering
    let value ← deref offering.value
    let offered := getSigBytes value ++ [if offering.enableSPO then 1 else 0]
    if tx.action = actionTxActionIPO then
      return head ++ offered ++ offering.tokenName
    else
      return head ++ offered ++ tokenIdBytes offering.tokenId
  else if tx.action = actionRequestDomainName then
    let _ ← deref tx.getDomainName
    .error .unwritable
  else
    return head

/-!
## Hashes
-/

section Digest

variable (sha3 : Bytes → Hash)

def TxBase.calcMinedHash (recover : Bool) (base : TxBase) : Hash :=
  sha3 ((if recover then [] else base.publicKey) ++ base.signature ++ uint64Bytes base.mineNonce)

def TxBase.calcTxHash (recover : Bool) (base : TxBase) : Hash :=
  sha3 (base.parentsHash.flatMap hashBytes ++ uint64Bytes base.weight ++
    hashBytes (base.calcMinedHash sha3 recover))

def Archive.calcTxHash (recover : Bool) (archive : Archive) : Hash :=
  sha3 (archive.base.parentsHash.flatMap hashBytes ++ uint64Bytes archive.base.weight ++
    archive.data ++ hashBytes (archive.base.calcMinedHash sha3 recover))

end Digest

namespace Txi

def base : Txi → TxBase
  | .tx record => record.base
  | .sequencer record => record.base
  | .campaign record => record.base
  | .termChange record => record.base
  | .archive record => record.base
  | .action record => record.base

def getType (tx : Txi) : UInt8 := tx.base.type

def getSender : Txi → Except Panic (Option Address)
  | .tx record => .ok record.sender
  | .sequencer record => .ok record.issuer
  | .campaign record => .ok record.issuer
  | .termChange record => .ok record.issuer
  | .archive _ => .error .notImplemented
  | .action record => .ok record.sender

def setSender (address : Address) : Txi → Txi
  | .tx record => .tx { record with sender := some address }
  | .sequencer record => .sequencer { record with issuer := some address }
  | .campaign record => .campaign { record with issuer := some address }
  | .termChange record => .termChange { record with issuer := some address }
  | .archive record => .archive record
  | .action record => .action { record with sender := some address }

def signatureTargets : Txi → Except Panic Bytes
  | .tx record => record.signatureTargets recover
  | .sequencer record => record.signatureTargets recover
  | .campaign record => record.signatureTargets recover
  | .termChange record => record.signatureTargets recover
  | .archive record => record.signatureTargets
  | .action record => record.signatureTargets recover

def calcMinedHash (sha3 : Bytes → Hash) (recover : Bool) (tx : Txi) : Hash :=
  tx.base.calcMinedHash sha3 recover

def calcTxHash (sha3 : Bytes → Hash) (recover : Bool) : Txi → Hash
  | .archive record => record.calcTxHash sha3 recover
  | .tx record => record.base.calcTxHash sha3 recover
  | .sequencer record => record.base.calcTxHash sha3 recover
  | .campaign record => record.base.calcTxHash sha3 recover
  | .termChange record => record.base.calcTxHash sha3 recover
  | .action record => record.base.calcTxHash sha3 recover

def less (left right : Txi) : Bool :=
  if left.base.weight < right.base.weight then true
  else if left.base.weight > right.base.weight then false
  else if left.base.accountNonce < right.base.accountNonce then true
  else if left.base.accountNonce > right.base.accountNonce then false
  else left.base.hash < right.base.hash

end Txi

def sortTxis (txs : List Txi) : List Txi :=
  txs.insertionSort fun left right => right.less left = false

theorem sortTxis_perm (txs : List Txi) : (sortTxis txs).Perm txs := List.perm_insertionSort _ txs

end AnnchainOG.Wire
