import AnnchainOG.Common
import Mathlib.Data.List.Sort

/-!
# Transactions

Nothing ties the type tag of a transaction to its concrete kind, which Go code finds out by type
assertion.
-/

namespace AnnchainOG

inductive TxBaseType where
  | normal
  | sequencer
  | campaign
  | termChange
  | archive
  | action
  | other (code : UInt8)
  deriving DecidableEq

structure TxBase where
  type : TxBaseType
  hash : Hash
  parentsHash : List Hash
  accountNonce : UInt64
  height : UInt64
  weight : UInt64
  deriving DecidableEq

structure Tx where
  sender : Address
  toAddress : Address
  value : Int
  tokenId : TokenId
  data : Bytes
  deriving DecidableEq

structure PublicOffering where
  tokenId : TokenId
  value : Int
  enableSPO : Bool
  tokenName : Bytes
  deriving DecidableEq

inductive ActionData where
  | publicOffering (offering : PublicOffering)
  | requestDomain (domainName : Bytes)
  deriving DecidableEq

def actionTxActionIPO : UInt8 := 0

def actionTxActionDestroy : UInt8 := 1

def actionTxActionSPO : UInt8 := 2

def actionRequestDomainName : UInt8 := 3

structure ActionTx where
  action : UInt8
  sender : Address
  actionData : ActionData
  deriving DecidableEq

inductive TxBody where
  | tx (tx : Tx)
  | sequencer (issuer : Address)
  | campaign (issuer : Address)
  | termChange (issuer : Address)
  | archive
  | action (actionTx : ActionTx)
  deriving DecidableEq

structure Txi where
  base : TxBase
  body : TxBody
  deriving DecidableEq

variable (tx : Txi)

namespace Txi

def getType : TxBaseType := tx.base.type

def getTxHash : Hash := tx.base.hash

def parents : List Hash := tx.base.parentsHash

def getNonce : UInt64 := tx.base.accountNonce

def getWeight : UInt64 := tx.base.weight

def sender : Except Panic Address :=
  match tx.body with
  | .tx tx => .ok tx.sender
  | .sequencer issuer | .campaign issuer | .termChange issuer => .ok issuer
  | .archive => .error .notImplemented
  | .action actionTx => .ok actionTx.sender

def setHeight (height : UInt64) : Txi :=
  { tx with base := { tx.base with height := height } }

def less (left right : Txi) : Bool :=
  if left.getWeight < right.getWeight then true
  else if left.getWeight > right.getWeight then false
  else if left.getNonce < right.getNonce then true
  else if left.getNonce > right.getNonce then false
  else left.getTxHash < right.getTxHash

end Txi

def sortTxis (txs : List Txi) : List Txi :=
  txs.insertionSort fun left right => right.less left = false

theorem sortTxis_perm (txs : List Txi) : (sortTxis txs).Perm txs := List.perm_insertionSort _ txs

structure Sequencer where
  base : TxBase
  issuer : Address
  deriving DecidableEq

def Sequencer.txi (seq : Sequencer) : Txi := ⟨seq.base, .sequencer seq.issuer⟩

structure ConfirmBatch where
  seq : Sequencer
  txs : List Txi

end AnnchainOG
