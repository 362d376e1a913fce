import AnnchainOG.Consensus.Partner
import AnnchainOG.Senate.Dkg

/-!
# The consensus module of a node

The state that the main loop and the term-change loop share.
-/

namespace AnnchainOG.Senate

open Wire (TermChange SigSet)

structure AnnSensus (κ σ γ : Type) where
  disable : Bool
  nbParticipants : Nat
  /-- The public keys, sorted. -/
  genesisAccounts : List Bytes
  myAccount : Account
  genesisBftIsRunning : Bool
  addedGenesisCampaign : Bool
  currentTermChange : Option TermChange
  term : Term κ
  dkg : Dkg κ σ γ

/-- `NewAnnSensus` with the consensus enabled, and `InitAccount`; a genesis partner has the index of
its key. -/
def newAnnSensus {κ σ γ : Type} (termChangeInterval partnerNum : Nat)
    (genesisAccounts : List Bytes) (me : Account) (pair : σ × Bytes) : AnnSensus κ σ γ where
  disable := false
  nbParticipants := partnerNum
  genesisAccounts := genesisAccounts
  myAccount := me
  genesisBftIsRunning := false
  addedGenesisCampaign := false
  currentTermChange := none
  term := newTerm 0 partnerNum termChangeInterval
  dkg :=
    let d := newDkg (some pair) partnerNum (Bft.majorityTwoThird partnerNum)
    { d with partner := { d.partner with id := (genesisAccounts.idxOf me.publicKey).toUInt32 } }

namespace AnnSensus

variable {κ σ γ : Type}

/-- A campaign of a known sender or without a point is dropped, with an error that is only
logged. -/
def addCampaign (as : AnnSensus κ σ γ) (cp : Campaign κ) : Except Panic (AnnSensus κ σ γ) :=
  if as.term.hasCampaign cp.sender then .ok as
  else if cp.dkgPoint.isNone then .ok as
  else (as.term.addCampaign cp).map fun term => { as with term := term }

def canChangeTerm (as : AnnSensus κ σ γ) (latestHeight : UInt64) : Bool :=
  as.term.canChange latestHeight as.genesisBftIsRunning

def genTermChg (as : AnnSensus κ σ γ) (pkbls : Bytes) (sigset : List SigSet) : TermChange where
  base := ⟨Wire.txBaseTypeTermChange, 0, [], 0, 0, [], [], 0, 0, 0⟩
  termID := as.term.id + 1
  pkBls := pkbls
  sigSet := sigset.map some
  issuer := some as.myAccount.address

end AnnSensus

end AnnchainOG.Senate
