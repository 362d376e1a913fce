import AnnchainOG.Wire.Records

/-!
# Terms

The selection makes some campaigns candidates and drops the map; `ChangeTerm` makes the candidates
senators.
-/

namespace AnnchainOG.Senate

open Wire (TermChange SigSet)

/-- The ways the consensus goroutines can end in a Go panic. -/
inductive Panic where
  | nilMap
  | nilPointer
  | indexOutOfRange
  | keyNotFound
  | programmerError
  deriving DecidableEq

/-- The fields of a campaign that the consensus reads. The point is what `UnmarshalDkgKey`
decoded. -/
structure Campaign (κ : Type) where
  hash : Hash
  accountNonce : UInt64
  weight : UInt64
  publicKey : Bytes
  dkgPublicKey : Bytes
  vrf : Bytes
  sender : Address
  dkgPoint : Option κ
  deriving DecidableEq

structure Senator where
  addr : Address
  pk : Bytes
  blspk : Bytes
  deriving DecidableEq

abbrev Campaigns (κ : Type) := GoMap Address (Campaign κ)

structure Term (κ : Type) where
  id : UInt64
  /-- A term change is on its way. -/
  flag : Bool
  partsNum : Nat
  senators : GoMap Address Senator
  formerSenators : GoMap UInt64 (GoMap Address Senator)
  candidates : Campaigns κ
  publicKeys : List Bytes
  formerPublicKeys : List Bytes
  alsorans : Campaigns κ
  /-- `none` where the map is nil. -/
  campaigns : Option (Campaigns κ)
  startedHeight : UInt64
  termChangeInterval : Nat
  currentTermChange : Option TermChange
  genesisTermChange : Option TermChange
  started : Bool

def newTerm {κ : Type} (id : UInt64) (participantNumber termChangeInterval : Nat) : Term κ where
  id := id
  flag := false
  partsNum := participantNumber
  senators := ∅
  formerSenators := ∅
  candidates := ∅
  publicKeys := []
  formerPublicKeys := []
  alsorans := ∅
  campaigns := some ∅
  startedHeight := 0
  termChangeInterval := termChangeInterval
  currentTermChange := none
  genesisTermChange := none
  started := false

namespace Term

variable {κ : Type} (t : Term κ)

def switchFlag (flag : Bool) : Term κ :=
  { t with flag := flag }

def addCandidate (c : Campaign κ) (publicKey : Bytes) : Term κ :=
  { t with
    candidates := t.candidates.set c.sender c
    publicKeys := t.publicKeys ++ [publicKey] }

def getCampaign (addr : Address) : Option (Campaign κ) :=
  t.campaigns.bind fun campaigns => campaigns.get? addr

theorem getCampaign_eq (addr : Address) : t.getCampaign addr = (t.campaigns.getD ∅).get? addr := by
  unfold getCampaign
  cases t.campaigns <;> rfl

def addCampaign (c : Campaign κ) : Except Panic (Term κ) :=
  match t.campaigns with
  | none => .error .nilMap
  | some campaigns => .ok { t with campaigns := some (campaigns.set c.sender c) }

def hasCampaign (address : Address) : Bool :=
  t.candidates.contains address || (t.getCampaign address).isSome || t.alsorans.contains address

def addAlsorans (camps : List (Campaign κ)) : Term κ :=
  camps.foldl (fun t c =>
    if t.hasCampaign c.sender then t else { t with alsorans := t.alsorans.set c.sender c }) t

def campaignCount : Nat :=
  (t.campaigns.getD ∅).size

def canChange (lastHeight : UInt64) (isGenesis : Bool) : Bool :=
  if t.campaignCount = 0 then false
  else if t.campaignCount < t.partsNum then false
  else if isGenesis then true
  else if lastHeight - t.startedHeight < t.termChangeInterval.toUInt64 then false
  else true

def changeTerm (tc : TermChange) (lastHeight : UInt64) : Term κ :=
  { t with
    formerPublicKeys := t.publicKeys
    genesisTermChange := if t.id = 0 then some tc else t.genesisTermChange
    currentTermChange := some tc
    candidates := ∅
    alsorans := ∅
    campaigns := some ∅
    publicKeys := []
    formerSenators := t.formerSenators.set t.id t.senators
    senators := t.candidates.filterMap fun addr c => some ⟨addr, c.publicKey, tc.pkBls⟩
    started := true
    id := t.id + 1
    startedHeight := lastHeight
    flag := false }

def clearCampaigns : Term κ :=
  { t with campaigns := none }

end Term

end AnnchainOG.Senate
