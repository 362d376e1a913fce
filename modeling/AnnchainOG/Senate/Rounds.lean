import AnnchainOG.Lib.Runs
import AnnchainOG.Senate.AnnSensus
import AnnchainOG.Senate.Selection

/-!
# Term changes, round after round

Three goroutines share the term and the key generation. The main loop blocks while it sends a start
signal, the gossip loop while it sends a key.
-/

namespace AnnchainOG.Senate

open Wire (TermChange SigSet)

structure Library (κ σ γ : Type) where
  sorter : Sorter
  sha256 : Bytes → Bytes
  marshalBinary : κ → Bytes
  unmarshalBinaryPointG2 : Bytes → Option κ
  distKeyShare : γ → Option (DistKeyShare κ σ)
  commit : DistKeyShare κ σ → κ

inductive Main (κ : Type) where
  | idle
  /-- In `commit`, before the first of these. -/
  | committing (camps : List (Campaign κ))
  /-- Sends a start signal, with these to be committed next. -/
  | starting (camps : List (Campaign κ))

namespace Main

variable {κ : Type}

def isIdle : Main κ → Bool
  | .idle => true
  | .committing _ | .starting _ => false

def isCommitting : Main κ → Bool
  | .committing _ => true
  | .idle | .starting _ => false

def isStarting : Main κ → Bool
  | .starting _ => true
  | .idle | .committing _ => false

end Main

inductive Loop where
  | idle
  | resetting
  | selecting
  /-- After the selection, before it gives up or starts the gossip. -/
  | proceeding
  /-- After it put the flag down. -/
  | finishing (tc : TermChange)
  deriving DecidableEq

def Loop.isFinishing : Loop → Bool
  | .finishing _ => true
  | .idle | .resetting | .selecting | .proceeding => false

structure Node (κ σ γ : Type) where
  as : AnnSensus κ σ γ
  main : Main κ
  loop : Loop
  starts : Nat
  /-- The key that the gossip loop sends. -/
  finished : Option κ
  newTerms : Nat
  /-- The round that the agreement was reset for. -/
  dkgTermId : Int

def newNode {κ σ γ : Type} (as : AnnSensus κ σ γ) : Node κ σ γ :=
  ⟨as, .idle, .idle, 0, none, 0, 0⟩

/-- What is confirmed and when, how maps are ranged over, what the generator does, and which
goroutine goes on. -/
inductive Event (κ γ : Type) where
  | confirmed (tc : Option TermChange) (camps : List (Campaign κ)) (height : UInt64)
  | commitNext (height : UInt64)
  | newLatestSequencer (height : UInt64)
  | newTerm
  | takeStart
  | reset
  | select (order : List (Address × Campaign κ)) (blsJointSig : Bytes)
  | proceed
  | gotKey (sigset : List SigSet)
  | finish (height : UInt64)
  | gossipStart (dkger : Option γ) (dealt : Bool)
  | processed (dkger : γ)
  | recovered
  | shared

def DKGPartner.dks {κ σ γ : Type} (lib : Library κ σ γ) (p : DKGPartner κ σ γ) :
    Option (DistKeyShare κ σ) :=
  p.keyShare.or (p.dkger.bind lib.distKeyShare)

namespace Node

variable {κ σ γ : Type} (node : Node κ σ γ)

def gossips : Bool :=
  node.as.dkg.dkgOn && node.as.dkg.ready && node.finished.isNone

def Enabled : Event κ γ → Prop
  | .confirmed _ _ _ | .newLatestSequencer _ => node.main.isIdle = true
  | .commitNext _ => node.main.isCommitting = true
  | .newTerm => 0 < node.newTerms ∧ node.main.isIdle = true
  | .takeStart => node.main.isStarting = true ∧ node.loop = .idle
  | .reset => node.loop = .resetting
  | .select order _ =>
    node.loop = .selecting ∧ (node.as.term.campaigns.getD ∅).Iterates order
  | .proceed => node.loop = .proceeding
  | .gotKey _ => node.finished.isSome = true ∧ node.loop = .idle
  | .finish _ => node.loop.isFinishing = true
  | .gossipStart _ _ => 0 < node.starts ∧ node.finished.isNone = true
  | .processed _ | .recovered => node.gossips = true
  | .shared => node.gossips = true ∧ node.as.dkg.partner.jointPubKey.isSome = true

instance [DecidableEq κ] : (event : Event κ γ) → Decidable (node.Enabled event)
  | .confirmed _ _ _ | .newLatestSequencer _ | .commitNext _ | .reset | .proceed | .finish _
  | .processed _ | .recovered => inferInstanceAs (Decidable (_ = _))
  | .newTerm | .takeStart | .select _ _ | .gotKey _ | .gossipStart _ _ | .shared =>
    inferInstanceAs (Decidable (_ ∧ _))

def withTerm (term : Term κ) : Node κ σ γ :=
  { node with as := { node.as with term := term } }

def withPartner (partner : DKGPartner κ σ γ) : Node κ σ γ :=
  { node with as := { node.as with dkg := { node.as.dkg with partner := partner } } }

/-! ## The main loop -/

def picks (tc : Option TermChange) : Option TermChange :=
  tc.filter fun tc => tc.termID = node.as.term.id + 1

section Acting

variable (lib : Library κ σ γ) (node : Node κ σ γ)

/-- A node that takes no part learns the key from the term change. If that does not decode, the
campaigns are skipped. -/
def confirmed (tc : Option TermChange) (camps : List (Campaign κ)) (height : UInt64) : Node κ σ γ :=
  match node.picks tc with
  | none => { node with main := .committing camps }
  | some tc =>
    if node.as.term.flag then { node with main := .committing camps }
    else
      let node := node.withTerm (node.as.term.changeTerm tc height)
      if node.as.dkg.isValidPartner then
        { node with newTerms := node.newTerms + 1, main := .committing camps }
      else
        match lib.unmarshalBinaryPointG2 tc.pkBls with
        | none => node
        | some pk =>
          { node.withPartner { node.as.dkg.partner with jointPubKey := some pk } with
            newTerms := node.newTerms + 1
            main := .committing camps }

def commitNext (height : UInt64) : Except Panic (Node κ σ γ) :=
  match node.main with
  | .committing [] => .ok { node with main := .idle }
  | .committing (c :: rest) =>
    if node.as.term.flag then
      .ok { node.withTerm (node.as.term.addAlsorans (c :: rest)) with main := .idle }
    else do
      let as ← node.as.addCampaign c
      if as.canChangeTerm height then
        return { node with
          as := { as with term := as.term.switchFlag true }
          main := .starting rest }
      else return { node with as := as, main := .committing rest }
  | .idle | .starting _ => .ok node

def newLatestSequencer (height : UInt64) : Node κ σ γ :=
  let node := { node with as := { node.as with currentTermChange := none } }
  if !node.as.term.flag && node.as.canChangeTerm height then
    { node.withTerm (node.as.term.switchFlag true) with main := .starting [] }
  else node

def newTerm : Node κ σ γ :=
  { node with newTerms := node.newTerms - 1, dkgTermId := node.as.dkg.termId }

/-! ## The term-change loop -/

def takeStart : Node κ σ γ :=
  match node.main with
  | .starting camps => { node with main := .committing camps, loop := .resetting }
  | .idle | .committing _ => node

def reset : Except Panic (Node κ σ γ) := do
  let d ← node.as.dkg.reset (node.as.term.getCampaign node.as.myAccount.address)
  return { node with as := { node.as with dkg := d }, loop := .selecting }

def select (order : List (Address × Campaign κ)) (blsJointSig : Bytes) :
    Except Panic (Node κ σ γ) := do
  let (term, d) ← node.as.dkg.selectCandidates lib.sorter lib.sha256 node.as.myAccount order
    blsJointSig node.as.term
  return { node with as := { node.as with term := term, dkg := d }, loop := .proceeding }

/-- A node that is no valid partner gives the round up. -/
def proceed : Node κ σ γ :=
  if node.as.dkg.isValidPartner then { node with starts := node.starts + 1, loop := .idle }
  else { node.withTerm (node.as.term.switchFlag false) with loop := .idle }

/-- The gossip loop goes on as well, and the generator is not ready any more. -/
def gotKey (sigset : List SigSet) : Node κ σ γ :=
  match node.finished with
  | none => node
  | some pk =>
    { node with
      as := { node.as with
        term := node.as.term.switchFlag false
        dkg := { node.as.dkg with ready := false } }
      finished := none
      loop := .finishing (node.as.genTermChg (lib.marshalBinary pk) sigset) }

/-- The genesis term is changed at once, a later one when the term change is confirmed. -/
def finish (height : UInt64) : Node κ σ γ :=
  match node.loop with
  | .finishing tc =>
    if node.as.genesisBftIsRunning then
      { node with
        as := { node.as with
          term := node.as.term.changeTerm tc height
          genesisBftIsRunning := false }
        newTerms := node.newTerms + 1
        loop := .idle }
    else { node with as := { node.as with currentTermChange := some tc }, loop := .idle }
  | .idle | .resetting | .selecting | .proceeding => node

/-! ## The gossip loop -/

/-- The generator is created, and may fail to deal. -/
def gossipStart (dkger : Option γ) (dealt : Bool) : Node κ σ γ :=
  let node := { node with starts := node.starts - 1 }
  if node.as.dkg.dkgOn && dkger.isSome then
    { node with as := { node.as with dkg := { node.as.dkg with
      ready := node.as.dkg.ready || dealt
      partner := { node.as.dkg.partner with dkger := dkger, keyShare := none } } } }
  else node

def processed (dkger : γ) : Node κ σ γ :=
  node.withPartner { node.as.dkg.partner with dkger := some dkger }

def recovered : Node κ σ γ :=
  match node.as.dkg.partner.dks lib with
  | none => node
  | some share => node.withPartner { node.as.dkg.partner with jointPubKey := some (lib.commit share) }

def shared : Node κ σ γ :=
  { node.withPartner { node.as.dkg.partner with
      keyShare := node.as.dkg.partner.dkger.bind lib.distKeyShare } with
    finished := node.as.dkg.partner.jointPubKey }

def act : Event κ γ → Except Panic (Node κ σ γ)
  | .confirmed tc camps height => .ok (node.confirmed lib tc camps height)
  | .commitNext height => node.commitNext height
  | .newLatestSequencer height => .ok (node.newLatestSequencer height)
  | .newTerm => .ok node.newTerm
  | .takeStart => .ok node.takeStart
  | .reset => node.reset
  | .select order blsJointSig => node.select lib order blsJointSig
  | .proceed => .ok node.proceed
  | .gotKey sigset => .ok (node.gotKey lib sigset)
  | .finish height => .ok (node.finish height)
  | .gossipStart dkger dealt => .ok (node.gossipStart dkger dealt)
  | .processed dkger => .ok (node.processed dkger)
  | .recovered => .ok (node.recovered lib)
  | .shared => .ok (node.shared lib)

def Reaches (allowed : Node κ σ γ → Event κ γ → Prop) (start node : Node κ σ γ) : Prop :=
  Reach (act lib) (fun node event => node.Enabled event ∧ allowed node event) start node

def replay [DecidableEq κ] (start : Node κ σ γ) (events : List (Event κ γ)) : Option (Node κ σ γ) :=
  AnnchainOG.replay (act lib) (fun node event => decide (node.Enabled event ∧ True)) start events

theorem reaches_of_replay [DecidableEq κ] {start node : Node κ σ γ} {events : List (Event κ γ)}
    (replayed : replay lib start events = some node) : Reaches lib (fun _ _ => True) start node :=
  Reach.of_replay replayed

end Acting

end Node

/-! ## Samples -/

/-- Points, scalars and generators are numbers; a generator is done at once. -/
def Library.plain : Library Nat Nat Nat where
  sorter := .insertion
  sha256 bytes := bytes
  marshalBinary point := [point.toUInt8]
  unmarshalBinaryPointG2 bytes := bytes.head?.map UInt8.toNat
  distKeyShare dkger := some ⟨[dkger], ⟨0, dkger⟩, []⟩
  commit share := share.commits.headD 0

def Account.sample (id : Nat) : Account :=
  ⟨id, [id.toUInt8]⟩

/-- A campaign of the account with this number, which prepared the key of the same number. -/
def Campaign.sample (id : Nat) : Campaign Nat :=
  ⟨id, 0, 0, [id.toUInt8], [id.toUInt8], [id.toUInt8], id, some id⟩

def Node.sample (id : Nat) : Node Nat Nat Nat :=
  newNode (newAnnSensus 1 2 [[1], [2]] (.sample id) (id, [id.toUInt8]))

def sampleTermChange (termID : UInt64) (pkBls : Bytes) : TermChange :=
  ⟨⟨Wire.txBaseTypeTermChange, 0, [], 0, 0, [], [], 0, 0, 0⟩, termID, pkBls, [], none⟩

def Event.campaigning (tc : Option TermChange) (first second : Nat) (height : UInt64) :
    List (Event Nat Nat) :=
  [.confirmed tc [.sample first, .sample second] height, .commitNext (height + 1),
    .commitNext (height + 1), .takeStart, .commitNext (height + 1), .reset]

def Event.selecting (first second : Nat) : Event Nat Nat :=
  .select [(first, .sample first), (second, .sample second)] [7]

def Event.generating (dkger : Nat) : List (Event Nat Nat) :=
  [.gossipStart (some dkger) true, .recovered, .shared, .gotKey [], .finish 0]

def Event.firstRound : List (Event Nat Nat) :=
  campaigning none 1 2 5 ++ [selecting 1 2, .proceed]

end AnnchainOG.Senate
