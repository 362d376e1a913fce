import AnnchainOG.Consensus.Partner

/-!
# What a partner does in a round

A sound partner has a record of its current round, none of an older one, and was in no later one.
-/

namespace AnnchainOG.Bft

/-!
## Slots of votes
-/

section Votes

variable {α : Type} {n : Nat} {basic : α → BasicMessage} {hr : HeightRound}
  {votes : List (Option α)}

structure Filled (n : Nat) (basic : α → BasicMessage) (hr : HeightRound)
    (votes : List (Option α)) : Prop where
  length : votes.length = n
  placed : Placed (fun vote => (basic vote).sourceId) UInt16.toNat 0 votes
  here : ∀ vote, some vote ∈ votes → (basic vote).heightRound = hr

theorem filled_replicate (n : Nat) (basic : α → BasicMessage) (hr : HeightRound) :
    Filled n basic hr (List.replicate n none) where
  length := List.length_replicate
  placed := placed_replicate 0 n
  here vote member := by cases List.eq_of_mem_replicate member

theorem Filled.set (filled : Filled n basic hr votes) {vote : α}
    (isHere : (basic vote).heightRound = hr) :
    Filled n basic hr (votes.set (basic vote).sourceId.toNat (some vote)) where
  length := by rw [List.length_set, filled.length]
  placed := filled.placed.set (by omega)
  here := forall_set filled.here isHere

theorem tally_of_here {heightRound : α → HeightRound}
    (here : ∀ vote, some vote ∈ votes → heightRound vote = hr) (counts : α → Bool) :
    tally heightRound counts hr.height hr.round votes =
      .ok (votes.countP fun slot => slot.any counts) := by
  refine if_neg fun tooLate => ?_
  obtain ⟨slot, member, isLate⟩ := List.any_eq_true.mp tooLate
  cases slot with
  | none => cases isLate
  | some vote => simp [here vote member] at isLate

theorem Filled.tally (filled : Filled n basic hr votes) (counts : α → Bool) :
    tally (fun vote => (basic vote).heightRound) counts hr.height hr.round votes =
      .ok (votes.countP fun slot => slot.any counts) :=
  tally_of_here filled.here counts

theorem Filled.card_voters (filled : Filled n basic hr votes) (counts : α → Bool) :
    (voters (fun vote => (basic vote).sourceId) counts votes).card =
      votes.countP fun slot => slot.any counts :=
  filled.placed.card_voters counts

end Votes

theorem majority_pos (n : Nat) : 0 < majority n := by
  unfold majority majorityTwoThird
  split <;> omega

theorem maxByzantine_lt_majority {n : Nat} (two : 2 ≤ n) : maxByzantine n < majority n := by
  unfold majority majorityTwoThird maxByzantine
  split <;> omega

/-!
## Records
-/

section Records

variable {ν : Type}

structure HeightRoundState.Fits (n : Nat) (hr : HeightRound) (s : HeightRoundState ν) : Prop where
  preVotes : Filled n (·.toBasicMessage) hr s.preVotes
  preCommits : Filled n (·.toBasicMessage) hr s.preCommits

/-- The partner is in the round and has not decided in it. -/
structure HeightRoundState.Active (s : HeightRoundState ν) : Prop where
  undecided : s.decision = none
  unlocked : s.step = .propose → s.lockedRound = -1

/-- The partner has not been in the round: it has only heard of it. -/
structure HeightRoundState.Ahead (s : HeightRoundState ν) : Prop where
  step : s.step = .propose
  lockedRound : s.lockedRound = -1
  lockedValue : s.lockedValue = none
  validValue : s.validValue = none
  undecided : s.decision = none
  notAccepted : s.stepTypeEqualOrLargerPreVoteTriggered = false
  heard : ∀ commit, some commit ∈ s.preCommits → commit.sourceId ∈ s.sources

theorem HeightRoundState.Ahead.active {s : HeightRoundState ν} (ahead : s.Ahead) : s.Active where
  undecided := ahead.undecided
  unlocked _ := ahead.lockedRound

theorem newHeightRoundState_fits (n : Nat) (hr : HeightRound) :
    (newHeightRoundState n : HeightRoundState ν).Fits n hr where
  preVotes := filled_replicate n _ hr
  preCommits := filled_replicate n _ hr

theorem newHeightRoundState_ahead (n : Nat) :
    (newHeightRoundState n : HeightRoundState ν).Ahead where
  step := rfl
  lockedRound := rfl
  lockedValue := rfl
  validValue := rfl
  undecided := rfl
  notAccepted := rfl
  heard commit member := by cases List.eq_of_mem_replicate member

namespace Partner

variable {p : Partner ν} {hr other : HeightRound} {s cur : HeightRoundState ν}

@[simp] theorem put_id : (p.put hr s).id = p.id := rfl

@[simp] theorem put_n : (p.put hr s).n = p.n := rfl

@[simp] theorem put_currentHR : (p.put hr s).currentHR = p.currentHR := rfl

@[simp] theorem put_basicMessage : (p.put hr s).basicMessage = p.basicMessage := rfl

@[simp] theorem put_put (s cur : HeightRoundState ν) : (p.put hr s).put hr cur = p.put hr cur := by
  simp [put]

@[simp] theorem get?_put_self : (p.put hr s).states.get? hr = some s := p.states.get?_set_self hr s

theorem get?_put : (p.put hr s).states.get? other = if other = hr then some s
    else p.states.get? other :=
  p.states.get?_set hr s other

theorem put_eq_self (found : p.states.get? hr = some s) : p.put hr s = p := by
  rw [put, GoMap.set_eq_self found]

def record (p : Partner ν) (hr : HeightRound) : HeightRoundState ν :=
  (p.states.get? hr).getD (newHeightRoundState p.n)

theorem record_of_get? (found : p.states.get? hr = some s) : p.record hr = s := by
  rw [record, found, Option.getD_some]

def entered (p : Partner ν) (hr : HeightRound) : Partner ν :=
  { p with
    currentHR := hr
    states := (p.states.filterMap fun other state =>
      if other.isBefore hr then none else some state).set hr
        { p.record hr with step := .propose } }

@[simp] theorem entered_currentHR : (p.entered hr).currentHR = hr := rfl

@[simp] theorem entered_n : (p.entered hr).n = p.n := rfl

@[simp] theorem entered_id : (p.entered hr).id = p.id := rfl

@[simp] theorem get?_entered_self :
    (p.entered hr).states.get? hr = some { p.record hr with step := .propose } :=
  GoMap.get?_set_self _ hr _

theorem get?_entered : (p.entered hr).states.get? other =
    if other = hr then some { p.record hr with step := .propose }
    else if other < hr then none else p.states.get? other := by
  rw [entered, GoMap.get?_set]
  split
  · rfl
  rw [GoMap.get?_filterMap]
  cases p.states.get? other with
  | none => simp
  | some state => simp [HeightRound.isBefore_iff]

theorem record_put_of_ne (different : other ≠ hr) : (p.put hr s).record other = p.record other := by
  rw [record, record, get?_put, if_neg different, put_n]

theorem entered_put (older : hr < other) : (p.put hr s).entered other = p.entered other := by
  have sameStates : ((p.put hr s).entered other).states = (p.entered other).states := by
    refine GoMap.ext fun key => ?_
    rw [get?_entered, get?_entered, record_put_of_ne older.ne', get?_put]
    split
    · rfl
    split
    · rfl
    rename_i notOlder
    have different : key ≠ hr := fun same => notOlder (same ▸ older)
    rw [if_neg different]
  calc (p.put hr s).entered other
      = { p.entered other with states := ((p.put hr s).entered other).states } := rfl
    _ = p.entered other := by rw [sameStates]

structure Sound (p : Partner ν) : Prop where
  two : 2 ≤ p.n
  current : ∃ s, p.states.get? p.currentHR = some s
  records : ∀ {hr s}, p.states.get? hr = some s →
    p.currentHR ≤ hr ∧ s.Fits p.n hr ∧ (hr = p.currentHR → s.Active) ∧ (p.currentHR < hr → s.Ahead)

theorem Sound.put (sound : p.Sound) (notOlder : p.currentHR ≤ hr) (fits : s.Fits p.n hr)
    (active : hr = p.currentHR → s.Active) (ahead : p.currentHR < hr → s.Ahead) :
    (p.put hr s).Sound where
  two := sound.two
  current := by
    obtain ⟨cur, found⟩ := sound.current
    rw [put_currentHR, get?_put]
    split
    · exact ⟨s, rfl⟩
    · exact ⟨cur, found⟩
  records {other state} found := by
    rw [get?_put] at found
    split at found
    next same =>
      cases found
      rw [same]
      exact ⟨notOlder, fits, active, ahead⟩
    · exact sound.records found

theorem Sound.record_fits (sound : p.Sound) (hr : HeightRound) : (p.record hr).Fits p.n hr := by
  cases found : p.states.get? hr with
  | none =>
    rw [record, found]
    exact newHeightRoundState_fits p.n hr
  | some state =>
    rw [record_of_get? found]
    exact (sound.records found).2.1

theorem Sound.record_ahead (sound : p.Sound) (later : p.currentHR < hr) : (p.record hr).Ahead := by
  cases found : p.states.get? hr with
  | none =>
    rw [record, found]
    exact newHeightRoundState_ahead p.n
  | some state =>
    rw [record_of_get? found]
    exact (sound.records found).2.2.2 later

theorem Sound.entered (sound : p.Sound) (later : p.currentHR < hr) : (p.entered hr).Sound where
  two := sound.two
  current := ⟨_, get?_entered_self⟩
  records {other state} found := by
    rw [get?_entered] at found
    split at found
    next same =>
      cases found
      have fits := sound.record_fits hr
      have active := (sound.record_ahead later).active
      rw [same]
      exact ⟨le_refl hr, ⟨fits.preVotes, fits.preCommits⟩, fun _ => ⟨active.undecided, fun _ =>
        (sound.record_ahead later).lockedRound⟩, fun isLater => absurd isLater (lt_irrefl hr)⟩
    next different =>
      split at found
      · cases found
      rename_i notOlder
      have isLater : hr < other := lt_of_le_of_ne (not_lt.mp notOlder) (Ne.symm different)
      obtain ⟨-, fits, -, ahead⟩ := sound.records found
      exact ⟨le_of_lt isLater, fits, fun same => absurd same different,
        fun _ => ahead (lt_trans later isLater)⟩

end Partner

end Records

/-!
## Reactions
-/

section Reactions

variable {ν : Type}

namespace HeightRoundState

def preVoteCount (s : HeightRoundState ν) (kind : MatchType) : Nat :=
  s.preVotes.countP fun slot => slot.any (MessagePreVote.counts kind)

def preCommitCount (s : HeightRoundState ν) (kind : MatchType) : Nat :=
  s.preCommits.countP fun slot => slot.any (MessagePreCommit.counts kind)

def receive (s : HeightRoundState ν) : Message ν → HeightRoundState ν
  | .proposal msg => { s with messageProposal := some msg }
  | .preVote msg => { s with preVotes := s.preVotes.set msg.sourceId.toNat (some msg) }
  | .preCommit msg => { s with preCommits := s.preCommits.set msg.sourceId.toNat (some msg) }

variable {s : HeightRoundState ν} {msg : Message ν} {n : Nat} {hr : HeightRound}

theorem Fits.receive (fits : s.Fits n hr) (here : msg.basic.heightRound = hr) :
    (s.receive msg).Fits n hr := by
  cases msg with
  | proposal _ => exact ⟨fits.preVotes, fits.preCommits⟩
  | preVote _ => exact ⟨fits.preVotes.set here, fits.preCommits⟩
  | preCommit _ => exact ⟨fits.preVotes, fits.preCommits.set here⟩

theorem Active.receive (active : s.Active) : (s.receive msg).Active := by
  cases msg <;> exact ⟨active.undecided, active.unlocked⟩

theorem Ahead.receive (ahead : s.Ahead) (known : msg.basic.sourceId ∈ s.sources) :
    (s.receive msg).Ahead := by
  cases msg with
  | proposal _ | preVote _ => exact { ahead with }
  | preCommit _ => exact { ahead with heard := forall_set ahead.heard known }

end HeightRoundState

/-- What makes a record react: a message of some type, or a timeout. -/
inductive Cause where
  | message (type : MessageType)
  | timeout
  deriving DecidableEq

variable [Proposal ν]

inductive Reacts (n : Nat) (me : BasicMessage) :
    Cause → HeightRoundState ν → List (Output ν) → HeightRoundState ν → Prop where
  | offer {s proposal} (proposing : s.step = .propose) (proposed : s.messageProposal = some proposal) :
      Reacts n me (.message .proposal) s
        [.send (.preVote ⟨me, some (Proposal.getId proposal.value), [], []⟩)]
        { s with step := .preVote }
  | giveUp {s} (proposing : s.step = .propose) :
      Reacts n me .timeout s [.send (.preVote ⟨me, none, [], []⟩)] { s with step := .preVote }
  | awaitPreVotes {s} (enough : majority n ≤ s.preVoteCount .any) (voting : s.step = .preVote) :
      Reacts n me (.message .preVote) s [.wait ⟨me.heightRound, .preVote⟩]
        { s with stepTypeEqualPreVoteTriggered := true }
  | lock {s proposal} (enough : majority n ≤ s.preVoteCount .any) (voting : s.step = .preVote)
      (first : s.stepTypeEqualOrLargerPreVoteTriggered = false)
      (proposed : s.messageProposal = some proposal) :
      Reacts n me (.message .preVote) s
        [.send (.preCommit ⟨me, some (Proposal.getId proposal.value), [], [], []⟩)]
        { s with
          stepTypeEqualOrLargerPreVoteTriggered := true
          lockedValue := some proposal.value
          lockedRound := me.heightRound.round
          validValue := some proposal.value
          validRound := me.heightRound.round
          step := .preCommit }
  | accept {s proposal} (enough : majority n ≤ s.preVoteCount .any) (committing : s.step = .preCommit)
      (first : s.stepTypeEqualOrLargerPreVoteTriggered = false)
      (proposed : s.messageProposal = some proposal) :
      Reacts n me (.message .preVote) s []
        { s with
          stepTypeEqualOrLargerPreVoteTriggered := true
          validValue := some proposal.value
          validRound := me.heightRound.round }
  | abstain {cause s} (why : cause = .timeout ∨ cause = .message .preVote)
      (voting : s.step = .preVote) :
      Reacts n me cause s [.send (.preCommit ⟨me, none, [], [], []⟩)]
        { s with step := .preCommit }
  | awaitPreCommits {s} (enough : majority n ≤ s.preCommitCount .any) :
      Reacts n me (.message .preCommit) s [.wait ⟨me.heightRound, .preCommit⟩]
        { s with stepTypeEqualPreCommitTriggered := true }

inductive Reacting (n : Nat) (me : BasicMessage) (cause : Cause) :
    HeightRoundState ν → List (Output ν) → HeightRoundState ν → Prop where
  | done {s} : Reacting n me cause s [] s
  | next {s between after out more} (reacts : Reacts n me cause s out between)
      (rest : Reacting n me cause between more after) : Reacting n me cause s (out ++ more) after

variable {n : Nat} {me : BasicMessage} {cause : Cause} {s between after : HeightRoundState ν}
  {out more : List (Output ν)}

theorem Reacts.reacting (reacts : Reacts n me cause s out after) :
    Reacting n me cause s out after := by
  rw [← out.append_nil]
  exact .next reacts .done

theorem Reacting.trans (first : Reacting n me cause s out between)
    (rest : Reacting n me cause between more after) :
    Reacting n me cause s (out ++ more) after := by
  induction first with
  | done => exact rest
  | next reacts _ ih =>
    rw [List.append_assoc]
    exact .next reacts (ih rest)

structure SameMessages (s after : HeightRoundState ν) : Prop where
  messageProposal : after.messageProposal = s.messageProposal
  preVotes : after.preVotes = s.preVotes
  preCommits : after.preCommits = s.preCommits
  decision : after.decision = s.decision

theorem Reacts.sameMessages (reacts : Reacts n me cause s out after) : SameMessages s after := by
  cases reacts <;> exact ⟨rfl, rfl, rfl, rfl⟩

theorem Reacting.sameMessages (reacting : Reacting n me cause s out after) :
    SameMessages s after := by
  induction reacting with
  | done => exact ⟨rfl, rfl, rfl, rfl⟩
  | next reacts _ ih =>
    have first := reacts.sameMessages
    exact ⟨ih.messageProposal.trans first.messageProposal, ih.preVotes.trans first.preVotes,
      ih.preCommits.trans first.preCommits, ih.decision.trans first.decision⟩

theorem Reacts.unlocked (reacts : Reacts n me cause s out after)
    (unlocked : s.step = .propose → s.lockedRound = -1) :
    after.step = .propose → after.lockedRound = -1 := by
  cases reacts with
  | offer _ _ | giveUp _ | lock _ _ _ _ | abstain _ _ => nofun
  | awaitPreVotes _ _ | accept _ _ _ _ | awaitPreCommits _ => exact unlocked

theorem Reacting.active (reacting : Reacting n me cause s out after) (active : s.Active) :
    after.Active where
  undecided := reacting.sameMessages.decision.trans active.undecided
  unlocked := by
    have unlocked := active.unlocked
    induction reacting with
    | done => exact unlocked
    | next reacts _ ih =>
      exact ih ⟨reacts.sameMessages.decision.trans active.undecided, reacts.unlocked unlocked⟩
        (reacts.unlocked unlocked)

omit [Proposal ν] in
theorem SameMessages.fits {hr : HeightRound} (same : SameMessages s after) (fits : s.Fits n hr) :
    after.Fits n hr where
  preVotes := by
    rw [same.preVotes]
    exact fits.preVotes
  preCommits := by
    rw [same.preCommits]
    exact fits.preCommits

end Reactions

end AnnchainOG.Bft
