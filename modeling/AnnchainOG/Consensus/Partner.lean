import AnnchainOG.Consensus.Messages
import AnnchainOG.Lib.Acts
import AnnchainOG.Lib.Quorum

/-!
# A partner of the agreement

`DefaultPartner` keeps one record for each height and round it has heard of.
-/

namespace AnnchainOG.Bft

variable {ν : Type}

inductive StepType where
  | propose
  | preVote
  | preCommit
  deriving DecidableEq

inductive MatchType where
  | any
  | byValue (id : Hash)
  | nil
  deriving DecidableEq

structure TendermintContext where
  heightRound : HeightRound
  stepType : StepType
  deriving DecidableEq

inductive Panic where
  | tooFewParticipants
  | mustExist
  | nilState
  | nilValue
  | indexOutOfRange
  | wrongLogic
  | divideByZero
  deriving DecidableEq

structure HeightRoundState (ν : Type) where
  messageProposal : Option (MessageProposal ν)
  lockedValue : Option ν
  lockedRound : Int64
  validValue : Option ν
  validRound : Int64
  decision : Option ν
  preVotes : List (Option MessagePreVote)
  preCommits : List (Option MessagePreCommit)
  sources : Finset UInt16
  stepTypeEqualPreVoteTriggered : Bool
  stepTypeEqualOrLargerPreVoteTriggered : Bool
  stepTypeEqualPreCommitTriggered : Bool
  step : StepType
  deriving DecidableEq

def newHeightRoundState (total : Nat) : HeightRoundState ν where
  messageProposal := none
  lockedValue := none
  lockedRound := -1
  validValue := none
  validRound := -1
  decision := none
  preVotes := List.replicate total none
  preCommits := List.replicate total none
  sources := ∅
  stepTypeEqualPreVoteTriggered := false
  stepTypeEqualOrLargerPreVoteTriggered := false
  stepTypeEqualPreCommitTriggered := false
  step := .propose

structure Partner (ν : Type) where
  id : Int
  n : Nat
  currentHR : HeightRound
  states : GoMap HeightRound (HeightRoundState ν)

/-- What the start of a round reads from outside. -/
structure Around (ν : Type) where
  /-- `none` where no height function is set. -/
  ledgerHeight : Option UInt64
  /-- `GetValue`, asked at a height and round. -/
  value : HeightRound → ν

/-- What the handling of a message reads: a round may start on catching up and after a decision. -/
structure Setting (ν : Type) where
  catchUp : Around ν
  decision : Around ν
  /-- The decision function returns no error. -/
  accepted : Bool

inductive Output (ν : Type) where
  | send (message : Message ν)
  | wait (context : TendermintContext)
  /-- The record of `heightRound`, the partner being at `current`. -/
  | decided (current heightRound : HeightRound) (state : HeightRoundState ν) (accepted : Bool)
  deriving DecidableEq

abbrev Handler (ν : Type) := Act Panic (Partner ν) (Output ν)

def Around.target (around : Around ν) (height : UInt64) (round : Int64) : HeightRound :=
  match around.ledgerHeight with
  | some ledgerHeight => ⟨if ledgerHeight > height then ledgerHeight else height, round⟩
  | none => ⟨height, round⟩

def majorityTwoThird (n : Nat) : Nat := 2 * n / 3 + 1

def maxByzantine (n : Nat) : Nat := (n - 1) / 3

def majority (n : Nat) : Nat :=
  if n % 3 = 1 then 2 * maxByzantine n + 1 else majorityTwoThird n

def newBFTPartner (nbParticipants : Nat) (id : Int) : Except Panic (Partner ν) :=
  if nbParticipants < 2 then .error .tooFewParticipants
  else .ok ⟨id, nbParticipants, ⟨0, 0⟩, ∅⟩

/-!
## Counting
-/

/-- A vote for a later height or round in the record is a panic. -/
def tally {α : Type} (heightRound : α → HeightRound) (counts : α → Bool) (height : UInt64)
    (validRound : Int64) (votes : List (Option α)) : Except Panic Nat :=
  if votes.any fun slot => slot.any fun vote =>
      (heightRound vote).height > height || (heightRound vote).round > validRound then
    .error .wrongLogic
  else .ok (votes.countP fun slot => slot.any counts)

/-- A prevote matches a value if its id is the very pointer asked for, which is a fresh one. -/
def MessagePreVote.counts (valueIdMatchType : MatchType) (vote : MessagePreVote) : Bool :=
  match valueIdMatchType with
  | .any => true
  | .byValue _ => false
  | .nil => vote.idv.isNone

def MessagePreCommit.counts (valueIdMatchType : MatchType) (commit : MessagePreCommit) : Bool :=
  match valueIdMatchType with
  | .any => true
  | .byValue id => commit.idv = some id
  | .nil => commit.idv.isNone

variable (vote : MessagePreVote) (hr : HeightRound)

namespace Partner

variable {ν : Type}

def f (p : Partner ν) : Nat := maxByzantine p.n

def maj23 (p : Partner ν) : Nat := majority p.n

def count (p : Partner ν) (messageType : MessageType) (height : UInt64) (validRound : Int64)
    (valueIdMatchType : MatchType) : Except Panic Nat :=
  match p.states.get? ⟨height, validRound⟩ with
  | none => .ok 0
  | some state =>
    match messageType with
    | .preVote =>
      tally (·.heightRound) (MessagePreVote.counts valueIdMatchType) height validRound
        state.preVotes
    | .preCommit =>
      tally (·.heightRound) (MessagePreCommit.counts valueIdMatchType) height validRound
        state.preCommits
    | .proposal => .ok 0

def counting (messageType : MessageType) (height : UInt64) (validRound : Int64)
    (valueIdMatchType : MatchType) (body : Nat → Handler ν) : Handler ν := fun p =>
  match p.count messageType height validRound valueIdMatchType with
  | .error panic => .error panic
  | .ok count => body count p

/-!
## Records
-/

def put (p : Partner ν) (hr : HeightRound) (state : HeightRoundState ν) : Partner ν :=
  { p with states := p.states.set hr state }

/-- `States[hr]`, followed by a use that panics on nil. -/
def reading (missing : Panic) (body : HeightRoundState ν → Handler ν) : Handler ν := fun p =>
  match p.states.get? hr with
  | none => .error missing
  | some state => body state p

def modify (missing : Panic) (change : HeightRoundState ν → HeightRoundState ν) : Handler ν :=
  reading hr missing fun state p => .ok (p.put hr (change state), [])

def initHeightRound (p : Partner ν) (hr : HeightRound) : Partner ν :=
  if p.states.contains hr then p else p.put hr (newHeightRoundState p.n)

def wipeOldStates (p : Partner ν) : Partner ν :=
  { p with states := p.states.filterMap fun hr state =>
      if hr.isBefore p.currentHR then none else some state }

/-- The step changes in the record of the current round, whatever round the caller handles. -/
def changeStep (stepType : StepType) : Handler ν := fun p =>
  modify p.currentHR .nilState (fun state => { state with step := stepType }) p

/-- `Reset`: the records stay as they are. -/
def reset (p : Partner ν) (nbParticipants : Nat) (id : Int) : Partner ν :=
  { p with n := nbParticipants, id := id }

/-!
## What is sent
-/

def basicMessage (p : Partner ν) (hr : HeightRound) : BasicMessage where
  sourceId := UInt16.ofInt p.id
  heightRound := hr

variable [Proposal ν]

def broadcastProposal (content : ν) (validRound : Int64) : Handler ν := fun p =>
  .ok (p, [.send (.proposal ⟨p.basicMessage hr, content, validRound, []⟩)])

def broadcastPreVote (content : Option ν) : Handler ν := fun p =>
  .ok (p, [.send (.preVote ⟨p.basicMessage hr, content.map Proposal.getId, [], []⟩)])

def broadcastPreCommit (content : Option ν) : Handler ν := fun p =>
  .ok (p, [.send (.preCommit ⟨p.basicMessage hr, content.map Proposal.getId, [], [], []⟩)])

def waitStepTimeout (stepType : StepType) (hr : HeightRound) : Handler ν := fun p =>
  .ok (p, [.wait ⟨hr, stepType⟩])

/-!
## Rounds
-/

/-- A proposer hands out its valid value, or a new one. -/
def openRound (around : Around ν) : Handler ν := fun p =>
  if p.n = 0 then .error .divideByZero
  else if p.id = proposer p.n p.currentHR then
    reading p.currentHR .nilState (fun currState =>
      broadcastProposal p.currentHR (currState.validValue.getD (around.value p.currentHR))
        currState.validRound) p
  else waitStepTimeout .propose p.currentHR p

def startNewEra (around : Around ν) (height : UInt64) (round : Int64) : Handler ν := fun p =>
  let hr := around.target height round
  let p := wipeOldStates { p.initHeightRound hr with currentHR := hr }
  ((changeStep .propose).andThen (openRound around)) p

/-- Line 55: enough sources ahead of the partner make it catch up. -/
def checkRound (around : Around ν) (message : BasicMessage) : Handler ν := fun p =>
  if message.heightRound.isAfter p.currentHR then
    let p := p.initHeightRound message.heightRound
    ((modify message.heightRound .nilState fun state =>
        { state with sources := insert message.sourceId state.sources }).andThen
      (reading p.currentHR .nilState fun _ =>
        reading message.heightRound .nilState fun state p =>
          if p.f + 1 ≤ state.sources.card then
            startNewEra around message.heightRound.height message.heightRound.round p
          else .ok (p, []))) p
  else .ok (p, [])

/-- What `checkRound` returns: messages of rounds that are over are dropped. -/
def ifNeeded (message : BasicMessage) (body : Handler ν) : Handler ν := fun p =>
  if message.heightRound.isAfterOrEqual p.currentHR then body p else .ok (p, [])

/-!
## Proposals
-/

/-- The value is voted for if nothing is locked that forbids it; every value is `valid`. -/
def preVoteOn (proposal : MessageProposal ν) (free : Bool) (state : HeightRoundState ν) :
    Handler ν :=
  if free then
    (broadcastPreVote proposal.heightRound (some proposal.value)).andThen (changeStep .preVote)
  else
    match state.lockedValue with
    | none => Act.fail .nilValue
    | some lockedValue =>
      (broadcastPreVote proposal.heightRound
        (if Proposal.equal lockedValue proposal.value then some proposal.value else none)).andThen
          (changeStep .preVote)

def rule22 (proposal : MessageProposal ν) : Handler ν :=
  reading proposal.heightRound .mustExist fun state =>
    if state.step = .propose then preVoteOn proposal (state.lockedRound = -1) state
    else Act.skip

def rule28 (proposal : MessageProposal ν) : Handler ν :=
  counting .preVote proposal.heightRound.height proposal.validRound
      (.byValue (Proposal.getId proposal.value)) fun count =>
    reading proposal.heightRound .mustExist fun state p =>
      if p.maj23 ≤ count ∧ state.step = .propose ∧ 0 ≤ proposal.validRound ∧
          proposal.validRound < p.currentHR.round then
        preVoteOn proposal (state.lockedRound ≤ proposal.validRound) state p
      else .ok (p, [])

def handleProposal (proposal : MessageProposal ν) : Handler ν :=
  (modify proposal.heightRound .mustExist fun state =>
      { state with messageProposal := some proposal }).andThen
    ((rule22 proposal).andThen (rule28 proposal))

/-!
## Prevotes
-/

def storePreVote : Handler ν :=
  reading vote.heightRound .nilState fun state p =>
    if vote.sourceId.toNat < state.preVotes.length then
      .ok (p.put vote.heightRound
        { state with preVotes := state.preVotes.set vote.sourceId.toNat (some vote) }, [])
    else .error .indexOutOfRange

def rule34 (count : Nat) : Handler ν :=
  reading vote.heightRound .mustExist fun state p =>
    if p.maj23 ≤ count ∧ state.step = .preVote ∧ state.stepTypeEqualPreVoteTriggered = false then
      ((modify vote.heightRound .mustExist fun state =>
          { state with stepTypeEqualPreVoteTriggered := true }).andThen
        (waitStepTimeout .preVote vote.heightRound)) p
    else .ok (p, [])

def lockOn (value : ν) : Handler ν := fun p =>
  ((modify hr .mustExist fun state =>
      { state with lockedValue := some value, lockedRound := p.currentHR.round }).andThen
    ((broadcastPreCommit hr (some value)).andThen (changeStep .preCommit))) p

def rule36 (count : Nat) : Handler ν :=
  reading vote.heightRound .mustExist fun state p =>
    match state.messageProposal with
    | none => .ok (p, [])
    | some proposal =>
      if p.maj23 ≤ count ∧ state.step ≠ .propose ∧
          state.stepTypeEqualOrLargerPreVoteTriggered = false then
        ((modify vote.heightRound .mustExist fun state =>
            { state with stepTypeEqualOrLargerPreVoteTriggered := true }).andThen
          ((if state.step = .preVote then lockOn vote.heightRound proposal.value
            else Act.skip).andThen
            (modify vote.heightRound .mustExist fun state =>
              { state with
                validValue := some proposal.value, validRound := p.currentHR.round }))) p
      else .ok (p, [])

def rule44 : Handler ν :=
  counting .preVote vote.heightRound.height vote.heightRound.round .nil fun count =>
    reading vote.heightRound .mustExist fun state p =>
      if p.maj23 ≤ count ∧ state.step = .preVote then
        ((broadcastPreCommit vote.heightRound none).andThen (changeStep .preCommit)) p
      else .ok (p, [])

def handlePreVote : Handler ν :=
  counting .preVote vote.heightRound.height vote.heightRound.round .any fun count =>
    (rule34 vote count).andThen ((rule36 vote count).andThen (rule44 vote))

/-!
## Precommits
-/

def storePreCommit (commit : MessagePreCommit) : Handler ν :=
  reading commit.heightRound .nilState fun state p =>
    if commit.sourceId.toNat < state.preCommits.length then
      .ok (p.put commit.heightRound
        { state with preCommits := state.preCommits.set commit.sourceId.toNat (some commit) }, [])
    else .error .indexOutOfRange

def rule47 (commit : MessagePreCommit) : Handler ν :=
  counting .preCommit commit.heightRound.height commit.heightRound.round .any fun count =>
    reading commit.heightRound .nilState fun state p =>
      if p.maj23 ≤ count ∧ state.stepTypeEqualPreCommitTriggered = false then
        ((modify commit.heightRound .nilState fun state =>
            { state with stepTypeEqualPreCommitTriggered := true }).andThen
          (waitStepTimeout .preCommit commit.heightRound)) p
      else .ok (p, [])

/-- The decision function is called, and a round starts after it. -/
def commitDecision (setting : Setting ν) (hr : HeightRound) : Handler ν :=
  (reading hr .nilState fun state p =>
      .ok (p, [.decided p.currentHR hr state setting.accepted])).andThen fun p =>
    if setting.accepted then startNewEra setting.decision (p.currentHR.height + 1) 0 p
    else startNewEra setting.decision p.currentHR.height (p.currentHR.round + 1) p

def rule49 (setting : Setting ν) (commit : MessagePreCommit) : Handler ν :=
  reading commit.heightRound .nilState fun state =>
    match state.messageProposal with
    | none => Act.skip
    | some proposal =>
      counting .preCommit commit.heightRound.height commit.heightRound.round
          (.byValue (Proposal.getId proposal.value)) fun count p =>
        if p.maj23 ≤ count ∧ state.decision.isNone then
          ((modify commit.heightRound .nilState fun state =>
              { state with decision := some proposal.value }).andThen
            (commitDecision setting commit.heightRound)) p
        else .ok (p, [])

def handlePreCommit (setting : Setting ν) (commit : MessagePreCommit) : Handler ν :=
  (rule47 commit).andThen (rule49 setting commit)

/-!
## Messages and timeouts
-/

def handleMessage (setting : Setting ν) : Message ν → Handler ν
  | .proposal msg =>
    (checkRound setting.catchUp msg.toBasicMessage).andThen
      (ifNeeded msg.toBasicMessage (handleProposal msg))
  | .preVote msg =>
    (checkRound setting.catchUp msg.toBasicMessage).andThen
      (ifNeeded msg.toBasicMessage ((storePreVote msg).andThen (handlePreVote msg)))
  | .preCommit msg =>
    (checkRound setting.catchUp msg.toBasicMessage).andThen
      (ifNeeded msg.toBasicMessage ((storePreCommit msg).andThen (handlePreCommit setting msg)))

def onTimeoutPropose (context : TendermintContext) : Handler ν := fun p =>
  if context.heightRound = p.currentHR then
    reading p.currentHR .nilState (fun state =>
      if state.step = .propose then
        (broadcastPreVote p.currentHR none).andThen (changeStep .preVote)
      else Act.skip) p
  else .ok (p, [])

def onTimeoutPreVote (context : TendermintContext) : Handler ν := fun p =>
  if context.heightRound = p.currentHR then
    reading p.currentHR .nilState (fun state =>
      if state.step = .preVote then
        (broadcastPreCommit p.currentHR none).andThen (changeStep .preCommit)
      else Act.skip) p
  else .ok (p, [])

def onTimeoutPreCommit (around : Around ν) (context : TendermintContext) : Handler ν := fun p =>
  if context.heightRound = p.currentHR then
    startNewEra around context.heightRound.height (context.heightRound.round + 1) p
  else .ok (p, [])

/-- The callback that was requested together with the context. -/
def onTimeout (around : Around ν) (context : TendermintContext) : Handler ν :=
  match context.stepType with
  | .propose => onTimeoutPropose context
  | .preVote => onTimeoutPreVote context
  | .preCommit => onTimeoutPreCommit around context

end Partner

end AnnchainOG.Bft
