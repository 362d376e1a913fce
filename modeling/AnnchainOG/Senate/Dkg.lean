import AnnchainOG.Senate.Term

/-!
# The key generation of a term

`Reset` keeps the partner of the round before, because the agreement may still sign with its key.
-/

namespace AnnchainOG.Senate

open Wire (TermChange SigSet)
variable {κ σ γ : Type}

structure PriShare (σ : Type) where
  i : Int
  v : σ
  deriving DecidableEq

structure DistKeyShare (κ σ : Type) where
  commits : List κ
  share : PriShare σ
  privatePoly : List σ
  deriving DecidableEq

/-- A partner, over the points `κ`, the scalars `σ` and the generators `γ` of the library. -/
structure DKGPartner (κ σ γ : Type) where
  id : UInt32
  partPubs : List (Option κ)
  myPartSec : Option σ
  candidatePartSec : List σ
  candidatePublicKey : List Bytes
  addressIndex : GoMap Address Nat
  dkger : Option γ
  dealsIndex : GoMap UInt32 Bool
  threshold : Nat
  nbParticipants : Nat
  jointPubKey : Option κ
  responseNumber : Nat
  keyShare : Option (DistKeyShare κ σ)

def newDKGPartner (nbParticipants threshold : Nat) : DKGPartner κ σ γ where
  id := 0
  partPubs := []
  myPartSec := none
  candidatePartSec := []
  candidatePublicKey := []
  addressIndex := ∅
  dkger := none
  dealsIndex := ∅
  threshold := threshold
  nbParticipants := nbParticipants
  jointPubKey := none
  responseNumber := 0
  keyShare := none

structure Account where
  address : Address
  publicKey : Bytes
  deriving DecidableEq

structure MessageConsensusDkgDeal where
  data : Bytes
  publicKey : Bytes
  deriving DecidableEq

structure MessageConsensusDkgDealResponse where
  data : Bytes
  publicKey : Bytes
  deriving DecidableEq

structure MessageConsensusDkgSigSets where
  pkBls : Bytes
  publicKey : Bytes
  signature : Bytes
  deriving DecidableEq

structure Dkg (κ σ γ : Type) where
  termId : Int
  dkgOn : Bool
  myPublicKey : Bytes
  partner : DKGPartner κ σ γ
  /-- For a round that was reset while the agreement still uses its key. -/
  formerPartner : Option (DKGPartner κ σ γ)
  dealCache : GoMap Address MessageConsensusDkgDeal
  dealResponseCache : GoMap Address (List MessageConsensusDkgDealResponse)
  dealSigSetsCache : GoMap Address MessageConsensusDkgSigSets
  respWaitingCache : GoMap UInt32 (List MessageConsensusDkgDealResponse)
  blsSigSets : GoMap Address SigSet
  ready : Bool
  isValidPartner : Bool

/-- `NewDkg`; a node whose consensus is enabled prepares a first pair of keys. -/
def newDkg (pair : Option (σ × Bytes)) (numParts threshold : Nat) : Dkg κ σ γ where
  termId := 0
  dkgOn := pair.isSome
  myPublicKey := (pair.map Prod.snd).getD []
  partner := { newDKGPartner numParts threshold with
    myPartSec := pair.map Prod.fst
    candidatePartSec := (pair.map Prod.fst).toList
    candidatePublicKey := (pair.map Prod.snd).toList }
  formerPartner := none
  dealCache := ∅
  dealResponseCache := ∅
  dealSigSetsCache := ∅
  respWaitingCache := ∅
  blsSigSets := ∅
  ready := false
  isValidPartner := false

namespace Dkg

variable {κ σ γ : Type}
variable {before d : Dkg κ σ γ} {myCampaign : Option (Campaign κ)}

def getParticipantNumber (d : Dkg κ σ γ) : Nat :=
  d.partner.nbParticipants

def keyIndex (pubKeys : List Bytes) (dkgPublicKey : Bytes) : Option Nat :=
  if dkgPublicKey = [] then none
  else (pubKeys.zipIdx.filter fun entry => entry.1 = dkgPublicKey).getLast?.map Prod.snd

/-- The partner of the next round; the node has prepared a key for each campaign it sent. -/
def freshPartner (d : Dkg κ σ γ) (myCampaign : Option (Campaign κ)) :
    Except Panic (DKGPartner κ σ γ × Bytes) :=
  let p := newDKGPartner d.partner.nbParticipants d.partner.threshold
  match myCampaign with
  | none => .ok (p, d.myPublicKey)
  | some campaign =>
    match keyIndex d.partner.candidatePublicKey campaign.dkgPublicKey with
    | none => .error .keyNotFound
    | some index =>
      match d.partner.candidatePartSec[index]?, d.partner.candidatePublicKey[index]? with
      | some sec, some pubKey =>
        .ok ({ p with
          myPartSec := some sec
          candidatePartSec := d.partner.candidatePartSec.drop index
          candidatePublicKey := d.partner.candidatePublicKey.drop index }, pubKey)
      | _, _ => .error .indexOutOfRange

/-- The caches of deals and responses are kept, and so is `isValidPartner`. -/
def reset (d : Dkg κ σ γ) (myCampaign : Option (Campaign κ)) : Except Panic (Dkg κ σ γ) := do
  let (partner, myPublicKey) ← d.freshPartner myCampaign
  return { d with
    formerPartner := some { d.partner with candidatePartSec := [], candidatePublicKey := [] }
    myPublicKey := myPublicKey
    dkgOn := false
    partner := partner
    termId := d.termId + 1
    dealSigSetsCache := ∅
    blsSigSets := ∅
    ready := false }

theorem reset_eq (isReset : before.reset myCampaign = .ok d) :
    ∃ (sec : Option σ) (secs : List σ) (pubKeys : List Bytes) (myPublicKey : Bytes), d =
      { before with
        formerPartner :=
          some { before.partner with candidatePartSec := [], candidatePublicKey := [] }
        myPublicKey := myPublicKey, dkgOn := false, partner :=
          { newDKGPartner before.partner.nbParticipants before.partner.threshold with
            myPartSec := sec, candidatePartSec := secs, candidatePublicKey := pubKeys }
        termId := before.termId + 1, dealSigSetsCache := ∅, blsSigSets := ∅, ready := false } := by
  obtain ⟨⟨partner, myPublicKey⟩, isFresh, isNext⟩ := bind_ok isReset
  cases isNext
  unfold freshPartner at isFresh
  split at isFresh
  · cases isFresh
    exact ⟨none, [], [], _, rfl⟩
  split at isFresh
  · cases isFresh
  split at isFresh
  · cases isFresh
    exact ⟨_, _, _, _, rfl⟩
  · cases isFresh

theorem reset_fresh (isReset : before.reset myCampaign = .ok d) :
    d.partner.partPubs = [] ∧ d.partner.addressIndex = ∅ := by
  obtain ⟨sec, secs, pubKeys, myPublicKey, rfl⟩ := reset_eq isReset
  exact ⟨rfl, rfl⟩

def addPartner (me : Account) (d : Dkg κ σ γ) (c : Campaign κ) : Dkg κ σ γ :=
  let index := d.partner.partPubs.length
  { d with
    partner := { d.partner with
      partPubs := d.partner.partPubs ++ [c.dkgPoint]
      id := if c.publicKey = me.publicKey then index.toUInt32 else d.partner.id
      addressIndex := d.partner.addressIndex.set c.sender index } }

end Dkg

end AnnchainOG.Senate
