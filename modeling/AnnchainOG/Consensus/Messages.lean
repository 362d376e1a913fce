import Mathlib.Data.Prod.Lex
import AnnchainOG.Wire.Binding

/-!
# Messages of the agreement

A precommit signs the share of the joint signature alone; proposals and prevotes sign what they
are for.
-/

namespace AnnchainOG.Bft

open List

open Wire (hashBytes uint64Bytes)

/-!
## Heights and rounds
-/

structure HeightRound where
  height : UInt64
  round : Int64
  deriving DecidableEq

namespace HeightRound

variable {left right : HeightRound}

def isAfter (h o : HeightRound) : Bool :=
  h.height > o.height || (h.height = o.height && h.round > o.round)

def isAfterOrEqual (h o : HeightRound) : Bool :=
  h.height > o.height || (h.height = o.height && h.round ≥ o.round)

def isBefore (h o : HeightRound) : Bool :=
  h.height < o.height || (h.height = o.height && h.round < o.round)

def rank (hr : HeightRound) : ℕ ×ₗ ℤ := toLex (hr.height.toNat, hr.round.toInt)

theorem rank_injective : Function.Injective rank := by
  intro left right same
  obtain ⟨heights, rounds⟩ := Prod.mk.inj (toLex.injective same)
  cases left
  cases right
  rw [mk.injEq]
  exact ⟨UInt64.toNat_inj.mp heights, Int64.toInt_inj.mp rounds⟩

instance : LinearOrder HeightRound where
  le left right := left.rank ≤ right.rank
  lt left right := left.rank < right.rank
  le_refl hr := le_refl hr.rank
  le_trans _ _ _ := le_trans
  lt_iff_le_not_ge _ _ := lt_iff_le_not_ge
  le_antisymm _ _ below above := rank_injective (le_antisymm below above)
  le_total left right := le_total left.rank right.rank
  toDecidableLE left right := inferInstanceAs (Decidable (left.rank ≤ right.rank))
  toDecidableEq := instDecidableEqHeightRound

theorem lt_iff : left < right ↔
    left.height < right.height ∨ left.height = right.height ∧ left.round < right.round := by
  show rank left < rank right ↔ _
  rw [rank, rank, Prod.Lex.toLex_lt_toLex, UInt64.lt_iff_toNat_lt, Int64.lt_iff_toInt_lt,
    ← UInt64.toNat_inj]

theorem isAfter_iff : left.isAfter right = true ↔ right < left := by
  rw [lt_iff]
  simp only [isAfter, Bool.or_eq_true, Bool.and_eq_true, decide_eq_true_eq, gt_iff_lt]
  rw [eq_comm]

theorem isBefore_iff : left.isBefore right = true ↔ left < right := by
  rw [lt_iff]
  simp only [isBefore, Bool.or_eq_true, Bool.and_eq_true, decide_eq_true_eq]

theorem isAfterOrEqual_iff : left.isAfterOrEqual right = true ↔ right ≤ left := by
  rw [← not_lt, lt_iff]
  simp only [isAfterOrEqual, Bool.or_eq_true, Bool.and_eq_true, decide_eq_true_eq, gt_iff_lt,
    ge_iff_le, UInt64.lt_iff_toNat_lt, ← UInt64.toNat_inj, Int64.lt_iff_toInt_lt,
    Int64.le_iff_toInt_le]
  omega

end HeightRound

def proposer (count : Nat) (hr : HeightRound) : Int :=
  ((hr.height.toNat % count : Nat) + hr.round.toInt.tmod count).tmod count

/-!
## Messages
-/

/-- Values that can be agreed on. The id is given out as a pointer to a fresh copy. -/
class Proposal (ν : Type) where
  getId : ν → Hash
  equal : ν → ν → Bool

instance : Proposal Wire.Sequencer where
  getId seq := seq.base.hash
  equal left right := left.base.hash = right.base.hash

structure BasicMessage where
  sourceId : UInt16
  heightRound : HeightRound
  deriving DecidableEq

structure MessageProposal (ν : Type) extends BasicMessage where
  value : ν
  validRound : Int64
  signature : Bytes
  deriving DecidableEq

structure MessagePreVote extends BasicMessage where
  idv : Option Hash
  signature : Bytes
  publicKey : Bytes
  deriving DecidableEq

structure MessagePreCommit extends BasicMessage where
  idv : Option Hash
  blsSignature : Bytes
  signature : Bytes
  publicKey : Bytes
  deriving DecidableEq

inductive MessageType where
  | proposal
  | preVote
  | preCommit
  deriving DecidableEq

inductive Message (ν : Type) where
  | proposal (proposal : MessageProposal ν)
  | preVote (vote : MessagePreVote)
  | preCommit (commit : MessagePreCommit)
  deriving DecidableEq

variable {ν : Type}

def Message.type : Message ν → MessageType
  | .proposal _ => .proposal
  | .preVote _ => .preVote
  | .preCommit _ => .preCommit

def Message.basic : Message ν → BasicMessage
  | .proposal message => message.toBasicMessage
  | .preVote vote => vote.toBasicMessage
  | .preCommit commit => commit.toBasicMessage

/-!
## What is signed
-/

def int64Bytes (value : Int64) : Bytes := uint64Bytes value.toUInt64

def uint16Bytes (value : UInt16) : Bytes := bigEndian 2 value.toNat

def idTarget : Option Hash → Bytes
  | some id => hashBytes id
  | none => []

def BasicMessage.target (message : BasicMessage) : Bytes :=
  uint64Bytes message.heightRound.height ++ int64Bytes message.heightRound.round ++
    uint16Bytes message.sourceId

def MessagePreVote.signatureTargets (vote : MessagePreVote) : Bytes :=
  idTarget vote.idv ++ vote.target

def MessagePreCommit.signatureTargets (commit : MessagePreCommit) : Bytes :=
  commit.blsSignature

def MessagePreCommit.blsSignatureTargets (commit : MessagePreCommit) : Bytes :=
  idTarget commit.idv ++ commit.target

section Targets

variable [Proposal ν]

def MessageProposal.signatureTargets (proposal : MessageProposal ν) : Bytes :=
  idTarget (some (Proposal.getId proposal.value)) ++ proposal.target ++
    int64Bytes proposal.validRound

def Message.signatureTargets : Message ν → Bytes
  | .proposal message => message.signatureTargets
  | .preVote vote => vote.signatureTargets
  | .preCommit commit => commit.signatureTargets

def Message.idv : Message ν → Option Hash
  | .proposal message => some (Proposal.getId message.value)
  | .preVote vote => vote.idv
  | .preCommit commit => commit.idv

structure Message.SameVote (left right : Message ν) : Prop where
  height : left.basic.heightRound.height = right.basic.heightRound.height
  round : left.basic.heightRound.round = right.basic.heightRound.round
  sourceId : left.basic.sourceId = right.basic.sourceId
  idv : left.idv = right.idv

end Targets

theorem int64Bytes_injective {left right : Int64} (same : int64Bytes left = int64Bytes right) :
    left = right := by
  cases left
  cases right
  exact congrArg Int64.ofUInt64 (Wire.uint64Bytes_injective same)

theorem uint16Bytes_injective {left right : UInt16} (same : uint16Bytes left = uint16Bytes right) :
    left = right :=
  UInt16.toNat_inj.mp (bigEndian_injective left.toNat_lt right.toNat_lt same)

theorem BasicMessage.length_target (message : BasicMessage) : message.target.length = 18 := by
  simp only [target, int64Bytes, uint64Bytes, uint16Bytes, length_append, length_bigEndian]

theorem BasicMessage.target_injective {left right : BasicMessage}
    (same : left.target = right.target) : left = right := by
  obtain ⟨heightRounds, sources⟩ := append_inj same (by
    simp only [int64Bytes, uint64Bytes, length_append, length_bigEndian])
  obtain ⟨heights, rounds⟩ := append_inj heightRounds (by
    simp only [uint64Bytes, length_bigEndian])
  rw [mk.injEq, HeightRound.mk.injEq]
  exact ⟨uint16Bytes_injective sources, Wire.uint64Bytes_injective heights,
    int64Bytes_injective rounds⟩

theorem idTarget_injective {left right : Option Hash} (same : idTarget left = idTarget right) :
    left = right := by
  have width (id : Hash) : (hashBytes id).length = 32 := length_bigEndian 32 _
  cases left with
  | none =>
    cases right with
    | none => rfl
    | some id =>
      have lengths := congrArg List.length same
      simp only [idTarget, width, length_nil] at lengths
      omega
  | some leftId =>
    cases right with
    | none =>
      have lengths := congrArg List.length same
      simp only [idTarget, width, length_nil] at lengths
      omega
    | some rightId => rw [Wire.hashBytes_injective same]

theorem voteTarget_injective {left right : BasicMessage} {leftId rightId : Option Hash}
    (same : idTarget leftId ++ left.target = idTarget rightId ++ right.target) :
    leftId = rightId ∧ left = right := by
  obtain ⟨ids, targets⟩ := append_inj' same (by
    rw [left.length_target, right.length_target])
  exact ⟨idTarget_injective ids, BasicMessage.target_injective targets⟩

variable [Proposal ν]

theorem sameVote_of_parts {left right : Message ν} (ids : left.idv = right.idv)
    (basics : left.basic = right.basic) : left.SameVote right where
  height := by rw [basics]
  round := by rw [basics]
  sourceId := by rw [basics]
  idv := ids

def MessagePreVote.sample (round : Int64) : MessagePreVote :=
  ⟨⟨1, ⟨1, round⟩⟩, some 7, [], []⟩

def MessagePreCommit.sample (round : Int64) : MessagePreCommit :=
  ⟨⟨1, ⟨1, round⟩⟩, some 7, [9], [], []⟩

end AnnchainOG.Bft
