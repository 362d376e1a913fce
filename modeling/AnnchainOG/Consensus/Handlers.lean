import AnnchainOG.Consensus.Rounds

/-!
# The handlers of a sound partner

Every handler is said in terms of rounds entered and reactions of the current record.
-/

namespace AnnchainOG.Bft

open Act GoMap HeightRound

variable {ν : Type}

theorem Around.le_target (around : Around ν) (height : UInt64) (round : Int64) :
    ⟨height, round⟩ ≤ around.target height round := by
  unfold target
  split
  · split
    next higher => exact le_of_lt (lt_iff.mpr (.inl higher))
    · exact le_refl _
  · exact le_refl _

namespace Partner

variable {p after : Partner ν} {hr : HeightRound} {s cur : HeightRoundState ν}
variable {message : BasicMessage} {vote : MessagePreVote} (around : Around ν)
  {out : List (Output ν)} {proposal : MessageProposal ν}
variable {missing : Panic} {cause : Cause}

theorem reading_of_get? {body : HeightRoundState ν → Handler ν}
    (found : p.states.get? hr = some s) : reading hr missing body p = body s p := by
  rw [reading, found]

theorem modify_of_get? {change : HeightRoundState ν → HeightRoundState ν}
    (found : p.states.get? hr = some s) :
    modify hr missing change p = .ok (p.put hr (change s), []) :=
  reading_of_get? found

theorem changeStep_of_get? {stepType : StepType} (found : p.states.get? p.currentHR = some s) :
    changeStep stepType p = .ok (p.put p.currentHR { s with step := stepType }, []) :=
  modify_of_get? found

theorem counting_of_ok {messageType : MessageType} {height : UInt64} {validRound : Int64}
    {kind : MatchType} {body : Nat → Handler ν} {total : Nat}
    (counted : p.count messageType height validRound kind = .ok total) :
    counting messageType height validRound kind body p = body total p := by
  rw [counting, counted]

theorem count_preVotes (found : p.states.get? hr = some s) (fits : s.Fits p.n hr)
    (kind : MatchType) : p.count .preVote hr.height hr.round kind = .ok (s.preVoteCount kind) := by
  rw [count, found]
  exact fits.preVotes.tally _

theorem count_preCommits (found : p.states.get? hr = some s) (fits : s.Fits p.n hr)
    (kind : MatchType) :
    p.count .preCommit hr.height hr.round kind = .ok (s.preCommitCount kind) := by
  rw [count, found]
  exact fits.preCommits.tally _

theorem Sound.populated (sound : p.Sound) : p.n ≠ 0 := by
  have two := sound.two
  omega

theorem Sound.count_byValue (sound : p.Sound) (height : UInt64) (validRound : Int64) (id : Hash) :
    p.count .preVote height validRound (.byValue id) = .ok 0 := by
  cases found : p.states.get? ⟨height, validRound⟩ with
  | none => rw [count, found]
  | some state =>
    have counted := count_preVotes found (sound.records found).2.1 (.byValue id)
    have nothing : state.preVoteCount (.byValue id) = 0 := by
      refine List.countP_eq_zero.mpr fun slot _ isCounted => ?_
      cases slot with
      | none => cases isCounted
      | some vote => cases isCounted
    rw [nothing] at counted
    exact counted

/-!
## Entering a round
-/

def opening (p : Partner ν) (around : Around ν) (hr : HeightRound) : Output ν :=
  if p.id = proposer p.n hr then
    .send (.proposal ⟨p.basicMessage hr, (p.record hr).validValue.getD (around.value hr),
      (p.record hr).validRound, []⟩)
  else .wait ⟨hr, .propose⟩

theorem get?_initHeightRound (other : HeightRound) :
    (p.initHeightRound hr).states.get? other =
      if other = hr then some (p.record hr) else p.states.get? other := by
  unfold initHeightRound
  split
  next known =>
    obtain ⟨state, found⟩ := contains_iff.mp known
    rw [record_of_get? found]
    split
    next same => rw [same, found]
    · rfl
  next unknown => rw [get?_put, record, get?_eq_none unknown, Option.getD_none]

theorem entered_eq (p : Partner ν) (hr : HeightRound) :
    (wipeOldStates { p.initHeightRound hr with currentHR := hr }).put hr
      { p.record hr with step := .propose } = p.entered hr := by
  have sameId : (p.initHeightRound hr).id = p.id := by
    unfold initHeightRound
    split <;> rfl
  have sameN : (p.initHeightRound hr).n = p.n := by
    unfold initHeightRound
    split <;> rfl
  simp only [put, wipeOldStates, entered, mk.injEq, sameId, sameN, true_and]
  refine GoMap.ext fun other => ?_
  rw [get?_set, get?_set]
  split
  · rfl
  next different => rw [get?_filterMap, get?_filterMap, get?_initHeightRound, if_neg different]

theorem openRound_entered (hr : HeightRound) (populated : p.n ≠ 0) :
    openRound around (p.entered hr) = .ok (p.entered hr, [p.opening around hr]) := by
  rw [openRound, entered_n, if_neg populated, entered_id, entered_currentHR, opening]
  by_cases myTurn : p.id = proposer p.n hr
  · rw [if_pos myTurn, if_pos myTurn, reading_of_get? get?_entered_self]
    rfl
  · rw [if_neg myTurn, if_neg myTurn]
    rfl

theorem startNewEra_eq (height : UInt64) (round : Int64) (populated : p.n ≠ 0) :
    startNewEra around height round p = .ok (p.entered (around.target height round),
        [p.opening around (around.target height round)]) := by
  have found : (wipeOldStates { p.initHeightRound (around.target height round) with
      currentHR := around.target height round }).states.get? (around.target height round) =
        some (p.record (around.target height round)) := by
    rw [wipeOldStates, get?_filterMap, get?_initHeightRound, if_pos rfl, Option.bind_some, if_neg]
    simp [isBefore_iff]
  have entered := p.entered_eq (around.target height round)
  unfold startNewEra
  rw [andThen_of_ok (changeStep_of_get? found)]
  simp only [wipeOldStates] at entered ⊢
  rw [entered, openRound_entered around _ populated]
  rfl

/-!
## The round of a message
-/

def heard (p : Partner ν) (message : BasicMessage) : HeightRoundState ν :=
  { p.record message.heightRound with
    sources := insert message.sourceId (p.record message.heightRound).sources }

theorem Sound.heard (sound : p.Sound) (later : p.currentHR < message.heightRound) :
    (p.put message.heightRound (p.heard message)).Sound := by
  have fits := sound.record_fits message.heightRound
  have ahead := sound.record_ahead later
  refine sound.put (le_of_lt later) ⟨fits.preVotes, fits.preCommits⟩
    (fun same => absurd same later.ne') fun _ => ?_
  exact { ahead with
    heard := fun commit member => Finset.mem_insert_of_mem (ahead.heard commit member) }

/-- Where a partner is when it has looked at the round of a message. -/
inductive Arrives (around : Around ν) (message : BasicMessage) (p : Partner ν) :
    Partner ν → List (Output ν) → Prop where
  | here (reached : message.heightRound ≤ p.currentHR) : Arrives around message p p []
  | ahead (later : p.currentHR < message.heightRound) (few : (p.heard message).sources.card ≤ p.f) :
      Arrives around message p (p.put message.heightRound (p.heard message)) []
  | catchUp (later : p.currentHR < message.heightRound)
      (many : p.f < (p.heard message).sources.card) :
      Arrives around message p
        ((p.put message.heightRound (p.heard message)).entered
          (around.target message.heightRound.height message.heightRound.round))
        [(p.put message.heightRound (p.heard message)).opening around
          (around.target message.heightRound.height message.heightRound.round)]

theorem checkRound_arrives {cur : HeightRoundState ν} (message : BasicMessage)
    (populated : p.n ≠ 0) (found : p.states.get? p.currentHR = some cur) :
    ∃ after out, checkRound around message p = .ok (after, out) ∧
      Arrives around message p after out := by
  unfold checkRound
  split
  next isAfter =>
    have later : p.currentHR < message.heightRound := isAfter_iff.mp isAfter
    have initialised : (p.initHeightRound message.heightRound).states.get? message.heightRound =
        some (p.record message.heightRound) := by
      rw [get?_initHeightRound, if_pos rfl]
    have heardHere : (p.initHeightRound message.heightRound).put message.heightRound
        (p.heard message) = p.put message.heightRound (p.heard message) := by
      unfold initHeightRound
      split
      · rfl
      · rw [put_put]
    have sameCurrent : (p.initHeightRound message.heightRound).currentHR = p.currentHR := by
      unfold initHeightRound
      split <;> rfl
    have stillFound : (p.put message.heightRound (p.heard message)).states.get? p.currentHR =
        some cur := by
      rw [get?_put, if_neg later.ne, found]
    rw [andThen_of_ok (modify_of_get? initialised)]
    change ∃ after out, (reading _ _ _ ((p.initHeightRound message.heightRound).put
      message.heightRound (p.heard message))).map _ = _ ∧ _
    rw [heardHere, sameCurrent, reading_of_get? stillFound, reading_of_get? get?_put_self]
    split
    next many =>
      have stillPopulated : (p.put message.heightRound (p.heard message)).n ≠ 0 := populated
      rw [startNewEra_eq _ _ _ stillPopulated]
      exact ⟨_, _, rfl, .catchUp later many⟩
    next few => exact ⟨_, _, rfl, .ahead later (Nat.le_of_lt_succ (Nat.lt_of_not_le few))⟩
  next notAfter =>
    refine ⟨p, [], rfl, .here (not_lt.mp fun later => ?_)⟩
    exact notAfter (isAfter_iff.mpr later)

theorem checkRound_spec (message : BasicMessage) (sound : p.Sound) :
    ∃ after out, checkRound around message p = .ok (after, out) ∧
      Arrives around message p after out := by
  obtain ⟨cur, found⟩ := sound.current
  exact checkRound_arrives around message sound.populated found

variable {around}

theorem Arrives.sound
    (arrives : Arrives around message p after out) (sound : p.Sound) : after.Sound := by
  cases arrives with
  | here _ => exact sound
  | ahead later _ => exact sound.heard later
  | catchUp later _ =>
    exact (sound.heard later).entered (lt_of_lt_of_le later (around.le_target _ _))

theorem Arrives.currentHR_le
    (arrives : Arrives around message p after out) : p.currentHR ≤ after.currentHR := by
  cases arrives with
  | here _ => exact le_refl _
  | ahead _ _ => exact le_refl p.currentHR
  | catchUp later _ => exact le_of_lt (lt_of_lt_of_le later (around.le_target _ _))

theorem Arrives.same (arrives : Arrives around message p after out) :
    after.n = p.n ∧ after.id = p.id := by
  cases arrives <;> exact ⟨rfl, rfl⟩

variable [Proposal ν]

/-!
## Messages of the current round
-/

theorem castPreVote_of_get? (content : Option ν) (found : p.states.get? p.currentHR = some cur) :
    (broadcastPreVote hr content).andThen (changeStep .preVote) p =
      .ok (p.put p.currentHR { cur with step := .preVote },
        [.send (.preVote ⟨p.basicMessage hr, content.map Proposal.getId, [], []⟩)]) := by
  rw [andThen_of_ok rfl, changeStep_of_get? found]
  rfl

theorem castPreCommit_of_get? (content : Option ν) (found : p.states.get? p.currentHR = some cur) :
    (broadcastPreCommit hr content).andThen (changeStep .preCommit) p =
      .ok (p.put p.currentHR { cur with step := .preCommit },
        [.send (.preCommit ⟨p.basicMessage hr, content.map Proposal.getId, [], [], []⟩)]) := by
  rw [andThen_of_ok rfl, changeStep_of_get? found]
  rfl

def RuleReacts (cause : Cause) (p : Partner ν) (s : HeightRoundState ν)
    (result : Except Panic (Partner ν × List (Output ν))) : Prop :=
  ∃ after out, result = .ok (p.put p.currentHR after, out) ∧
    Reacting p.n (p.basicMessage p.currentHR) cause s out after

theorem RuleReacts.nothing (found : p.states.get? p.currentHR = some s) :
    RuleReacts cause p s (.ok (p, [])) :=
  ⟨s, [], by rw [put_eq_self found], .done⟩

theorem RuleReacts.andThen {first second : Handler ν} (isFirst : RuleReacts cause p s (first p))
    (isSecond : ∀ between, SameMessages s between →
      RuleReacts cause (p.put p.currentHR between) between (second (p.put p.currentHR between))) :
    RuleReacts cause p s (first.andThen second p) := by
  obtain ⟨between, out, firstOk, reacting⟩ := isFirst
  obtain ⟨after, more, secondOk, rest⟩ := isSecond between reacting.sameMessages
  refine ⟨after, out ++ more, ?_, reacting.trans rest⟩
  rw [andThen_of_ok firstOk, secondOk]
  simp [Except.map]

theorem rule34_reacts (here : p.currentHR = vote.heightRound)
    (found : p.states.get? p.currentHR = some s) :
    RuleReacts (.message .preVote) p s (rule34 vote (s.preVoteCount .any) p) := by
  rw [rule34, ← here, reading_of_get? found]
  split
  next triggered =>
    obtain ⟨enough, voting, -⟩ := triggered
    rw [andThen_of_ok (modify_of_get? found)]
    exact ⟨_, _, rfl, (Reacts.awaitPreVotes enough voting).reacting⟩
  · exact .nothing found

theorem lockOn_of_get? (value : ν) (here : p.currentHR = hr) (found : p.states.get? hr = some s) :
    lockOn hr value p = .ok (p.put hr { s with
          lockedValue := some value, lockedRound := hr.round, step := .preCommit },
        [.send (.preCommit ⟨p.basicMessage hr, some (Proposal.getId value), [], [], []⟩)]) := by
  subst here
  have lockedFound : (p.put p.currentHR { s with
      lockedValue := some value, lockedRound := p.currentHR.round }).states.get? p.currentHR =
        some { s with lockedValue := some value, lockedRound := p.currentHR.round } := get?_put_self
  rw [lockOn, andThen_of_ok (modify_of_get? found)]
  rw [castPreCommit_of_get? (some value) lockedFound, put_currentHR, put_put]
  rfl

section

variable (here : p.currentHR = vote.heightRound) (found : p.states.get? p.currentHR = some s)
include here found

theorem rule36_reacts :
    RuleReacts (.message .preVote) p s (rule36 vote (s.preVoteCount .any) p) := by
  rw [rule36, ← here, reading_of_get? found]
  cases proposed : s.messageProposal with
  | none => exact .nothing found
  | some proposal =>
    dsimp only
    split
    next triggered =>
      obtain ⟨enough, voted, first⟩ := triggered
      rw [andThen_of_ok (modify_of_get? found)]
      by_cases voting : s.step = .preVote
      · rw [if_pos voting, andThen_of_ok (lockOn_of_get? _ put_currentHR get?_put_self),
          modify_of_get? get?_put_self]
        simp only [put_put, put_basicMessage]
        exact ⟨_, _, rfl, (Reacts.lock enough voting first proposed).reacting⟩
      · have committing : s.step = .preCommit := by
          cases step : s.step with
          | propose => exact absurd step voted
          | preVote => exact absurd step voting
          | preCommit => rfl
        rw [if_neg voting, andThen_of_ok rfl, modify_of_get? get?_put_self]
        simp only [put_put]
        exact ⟨_, _, rfl, (Reacts.accept enough committing first proposed).reacting⟩
    · exact .nothing found

theorem rule44_reacts (fits : s.Fits p.n p.currentHR) :
    RuleReacts (.message .preVote) p s (rule44 vote p) := by
  rw [rule44, ← here, counting_of_ok (count_preVotes found fits _), reading_of_get? found]
  split
  next triggered =>
    rw [castPreCommit_of_get? none found]
    exact ⟨_, _, rfl, (Reacts.abstain (.inr rfl) triggered.2).reacting⟩
  · exact .nothing found

theorem handlePreVote_reacts (fits : s.Fits p.n p.currentHR) :
    RuleReacts (.message .preVote) p s (handlePreVote vote p) := by
  rw [handlePreVote, ← here, counting_of_ok (count_preVotes found fits _)]
  refine (rule34_reacts here found).andThen fun between same => ?_
  have sameCount : s.preVoteCount .any = between.preVoteCount .any := by
    rw [HeightRoundState.preVoteCount, HeightRoundState.preVoteCount, same.preVotes]
  rw [sameCount]
  refine (rule36_reacts (p := p.put p.currentHR between) here get?_put_self).andThen
    fun after further => ?_
  exact rule44_reacts (p := (p.put p.currentHR between).put p.currentHR after) here get?_put_self
    (further.fits (same.fits fits))

end

theorem rule47_reacts {commit : MessagePreCommit} (here : p.currentHR = commit.heightRound)
    (found : p.states.get? p.currentHR = some s) (fits : s.Fits p.n p.currentHR) :
    RuleReacts (.message .preCommit) p s (rule47 commit p) := by
  rw [rule47, ← here, counting_of_ok (count_preCommits found fits _), reading_of_get? found]
  split
  next triggered =>
    rw [andThen_of_ok (modify_of_get? found)]
    exact ⟨_, _, rfl, (Reacts.awaitPreCommits triggered.1).reacting⟩
  · exact .nothing found

theorem rule22_reacts (here : p.currentHR = proposal.heightRound)
    (found : p.states.get? p.currentHR = some s) (active : s.Active)
    (proposed : s.messageProposal = some proposal) :
    RuleReacts (.message .proposal) p s (rule22 proposal p) := by
  rw [rule22, ← here, reading_of_get? found]
  split
  next proposing =>
    rw [preVoteOn, if_pos (decide_eq_true (active.unlocked proposing)), ← here,
      castPreVote_of_get? _ found]
    exact ⟨_, _, rfl, (Reacts.offer proposing proposed).reacting⟩
  · exact .nothing found

theorem rule28_of_sound (sound : p.Sound) (found : p.states.get? proposal.heightRound = some s) :
    rule28 proposal p = .ok (p, []) := by
  rw [rule28, counting_of_ok (sound.count_byValue _ _ _), reading_of_get? found, if_neg]
  intro enough
  have positive := majority_pos p.n
  have never : p.maj23 ≤ 0 := enough.1
  unfold maj23 at never
  omega

theorem handleProposal_reacts (sound : p.Sound)
    (here : p.currentHR = proposal.heightRound) (found : p.states.get? p.currentHR = some s) :
    RuleReacts (.message .proposal) p (s.receive (.proposal proposal))
      (handleProposal proposal p) := by
  obtain ⟨-, fits, active, -⟩ := sound.records found
  have nextFits : (s.receive (.proposal proposal)).Fits p.n p.currentHR := fits.receive here.symm
  have nextActive : (s.receive (.proposal proposal)).Active := (active rfl).receive
  obtain ⟨after, out, voted, reacting⟩ := rule22_reacts
    (p := p.put p.currentHR (s.receive (.proposal proposal))) here get?_put_self nextActive rfl
  rw [put_currentHR, put_put] at voted
  have reacted : (p.put p.currentHR after).Sound :=
    sound.put (le_refl _) (reacting.sameMessages.fits nextFits)
      (fun _ => reacting.active nextActive) fun later => absurd later (lt_irrefl _)
  have stored : modify proposal.heightRound .mustExist
      (fun state => { state with messageProposal := some proposal }) p =
        .ok (p.put p.currentHR (s.receive (.proposal proposal)), []) := by
    rw [← here]
    exact modify_of_get? found
  have last : rule28 proposal (p.put p.currentHR after) = .ok (p.put p.currentHR after, []) :=
    rule28_of_sound reacted (by rw [← here, get?_put_self])
  refine ⟨after, out, ?_, reacting⟩
  rw [handleProposal, andThen_of_ok stored, andThen_of_ok voted, last]
  simp [Except.map]

/-!
## What is done with a message
-/

end Partner

def Setting.next (setting : Setting ν) (hr : HeightRound) : HeightRound :=
  if setting.accepted then setting.decision.target (hr.height + 1) 0
  else setting.decision.target hr.height (hr.round + 1)

def Message.InRange (n : Nat) (msg : Message ν) : Prop :=
  msg.type ≠ .proposal → msg.basic.sourceId.toNat < n

def HeightRoundState.decide (s : HeightRoundState ν) (value : ν) : HeightRoundState ν :=
  { s with decision := some value }

/-- The value of the record that has enough precommits for a decision. -/
def HeightRoundState.settled [Proposal ν] (n : Nat) (s : HeightRoundState ν) : Option ν :=
  s.messageProposal.bind fun proposal =>
    if majority n ≤ s.preCommitCount (.byValue (Proposal.getId proposal.value)) then
      some proposal.value
    else none

theorem HeightRoundState.settled_eq_some [Proposal ν] {n : Nat} {s : HeightRoundState ν}
    {value : ν} :
    s.settled n = some value ↔ ∃ proposal, s.messageProposal = some proposal ∧
        majority n ≤ s.preCommitCount (.byValue (Proposal.getId proposal.value)) ∧
        proposal.value = value := by
  simp [settled, Option.bind_eq_some_iff]

namespace Partner

section Handled

variable [Proposal ν]

def handleNeeded (setting : Setting ν) : Message ν → Handler ν
  | .proposal msg => handleProposal msg
  | .preVote msg => (storePreVote msg).andThen (handlePreVote msg)
  | .preCommit msg => (storePreCommit msg).andThen (handlePreCommit setting msg)

theorem handleMessage_eq (setting : Setting ν) (msg : Message ν) :
    handleMessage setting msg = (checkRound setting.catchUp msg.basic).andThen
        (ifNeeded msg.basic (handleNeeded setting msg)) := by
  cases msg <;> rfl

inductive Handled (setting : Setting ν) (msg : Message ν) (p : Partner ν) :
    Partner ν → List (Output ν) → Prop where
  | reacted {s after out} (found : p.states.get? p.currentHR = some s)
      (reacting : Reacting p.n (p.basicMessage p.currentHR) (.message msg.type) (s.receive msg)
        out after) :
      Handled setting msg p (p.put p.currentHR after) out
  | decided {s after out proposal} (isCommit : msg.type = .preCommit)
      (found : p.states.get? p.currentHR = some s)
      (reacting : Reacting p.n (p.basicMessage p.currentHR) (.message msg.type) (s.receive msg)
        out after)
      (proposed : after.messageProposal = some proposal)
      (enough : majority p.n ≤
        after.preCommitCount (.byValue (Proposal.getId proposal.value))) :
      Handled setting msg p
        ((p.put p.currentHR (after.decide proposal.value)).entered
          (setting.next p.currentHR))
        (out ++ [.decided p.currentHR p.currentHR (after.decide proposal.value)
            setting.accepted,
          (p.put p.currentHR (after.decide proposal.value)).opening
            setting.decision (setting.next p.currentHR)])

end Handled

variable {p after : Partner ν} {hr : HeightRound} {s cur : HeightRoundState ν}
  (setting : Setting ν) {msg : Message ν} {out : List (Output ν)}
variable {commit : MessagePreCommit}

theorem commitDecision_eq (found : p.states.get? p.currentHR = some s) (populated : p.n ≠ 0) :
    commitDecision setting p.currentHR p = .ok (p.entered (setting.next p.currentHR),
        [.decided p.currentHR p.currentHR s setting.accepted,
          p.opening setting.decision (setting.next p.currentHR)]) := by
  have announced : reading p.currentHR .nilState (fun state now =>
      .ok (now, [.decided now.currentHR p.currentHR state setting.accepted])) p =
        .ok (p, [.decided p.currentHR p.currentHR s setting.accepted]) := reading_of_get? found
  unfold commitDecision Setting.next
  rw [andThen_of_ok announced]
  split <;>
  · rw [startNewEra_eq _ _ _ populated]
    rfl

theorem storePreVote_of_get? {vote : MessagePreVote}
    (found : p.states.get? vote.heightRound = some s)
    (fits : s.Fits p.n hr) (inRange : vote.sourceId.toNat < p.n) :
    storePreVote vote p = .ok (p.put vote.heightRound (s.receive (.preVote vote)), []) := by
  rw [← fits.preVotes.length] at inRange
  rw [storePreVote, reading_of_get? found, if_pos inRange]
  rfl

theorem storePreCommit_of_get?
    (found : p.states.get? commit.heightRound = some s) (fits : s.Fits p.n hr)
    (inRange : commit.sourceId.toNat < p.n) :
    storePreCommit commit p = .ok (p.put commit.heightRound (s.receive (.preCommit commit)), []) := by
  rw [← fits.preCommits.length] at inRange
  rw [storePreCommit, reading_of_get? found, if_pos inRange]
  rfl

theorem preCommitCount_le (ahead : s.Ahead) (fits : s.Fits p.n hr) (kind : MatchType) :
    s.preCommitCount kind ≤ s.sources.card := by
  rw [HeightRoundState.preCommitCount, ← fits.preCommits.card_voters]
  refine Finset.card_le_card fun voter member => ?_
  obtain ⟨commit, stored, -, rfl⟩ := mem_voters.mp member
  exact ahead.heard commit stored

variable [Proposal ν]

theorem rule49_eq (populated : p.n ≠ 0)
    (here : p.currentHR = commit.heightRound) (found : p.states.get? p.currentHR = some s)
    (fits : s.Fits p.n p.currentHR) (undecided : s.decision = none) :
    rule49 setting commit p = match s.settled p.n with
      | none => .ok (p, []) | some value =>
        .ok ((p.put p.currentHR (s.decide value)).entered (setting.next p.currentHR),
          [.decided p.currentHR p.currentHR (s.decide value) setting.accepted,
            (p.put p.currentHR (s.decide value)).opening setting.decision
              (setting.next p.currentHR)]) := by
  rw [rule49, ← here, reading_of_get? found, HeightRoundState.settled]
  cases proposed : s.messageProposal with
  | none => rfl
  | some proposal =>
    dsimp only [Option.bind_some]
    rw [counting_of_ok (count_preCommits found fits _)]
    by_cases enough :
        majority p.n ≤ s.preCommitCount (.byValue (Proposal.getId proposal.value))
    · have decides := commitDecision_eq (p := p.put p.currentHR (s.decide proposal.value))
        setting get?_put_self populated
      rw [put_currentHR] at decides
      have marked : modify p.currentHR .nilState
          (fun state => { state with decision := some proposal.value }) p =
            .ok (p.put p.currentHR (s.decide proposal.value), []) := modify_of_get? found
      have triggered : p.maj23 ≤ s.preCommitCount (.byValue (Proposal.getId proposal.value)) ∧
          s.decision.isNone = true := ⟨enough, by rw [undecided]; rfl⟩
      rw [if_pos triggered, if_pos enough, andThen_of_ok marked, decides]
      rfl
    · rw [if_neg fun triggered => enough triggered.1, if_neg enough]

theorem handlePreCommit_here (sound : p.Sound)
    (here : p.currentHR = commit.heightRound) (inRange : commit.sourceId.toNat < p.n)
    (found : p.states.get? p.currentHR = some s) :
    ∃ after out, Reacting p.n (p.basicMessage p.currentHR) (.message .preCommit)
        (s.receive (.preCommit commit)) out after ∧ handleNeeded setting (.preCommit commit) p =
        match after.settled p.n with
        | none => .ok (p.put p.currentHR after, out) | some value =>
          .ok ((p.put p.currentHR (after.decide value)).entered (setting.next p.currentHR),
            out ++ [.decided p.currentHR p.currentHR (after.decide value) setting.accepted,
              (p.put p.currentHR (after.decide value)).opening setting.decision
                (setting.next p.currentHR)]) := by
  obtain ⟨-, fits, active, -⟩ := sound.records found
  have received : (s.receive (.preCommit commit)).Fits p.n p.currentHR := fits.receive here.symm
  have stored := storePreCommit_of_get? (here ▸ found) fits inRange
  obtain ⟨after, out, waited, reacting⟩ := rule47_reacts
    (p := p.put p.currentHR (s.receive (.preCommit commit))) here get?_put_self received
  rw [put_currentHR, put_put] at waited
  have decides := rule49_eq (p := p.put p.currentHR after) setting sound.populated here
    get?_put_self (reacting.sameMessages.fits received)
    (reacting.active (active rfl).receive).undecided
  simp only [put_n, put_currentHR, put_put] at decides
  refine ⟨after, out, reacting, ?_⟩
  rw [handleNeeded, andThen_of_ok stored, ← here, handlePreCommit, andThen_of_ok waited, decides]
  cases after.settled p.n with
  | none => simp [Except.map]
  | some value => rfl

theorem handleNeeded_here (sound : p.Sound)
    (here : p.currentHR = msg.basic.heightRound) (inRange : msg.InRange p.n) :
    ∃ after out, handleNeeded setting msg p = .ok (after, out) ∧
      Handled setting msg p after out := by
  obtain ⟨s, found⟩ := sound.current
  obtain ⟨-, fits, -, -⟩ := sound.records found
  cases msg with
  | proposal proposal =>
    obtain ⟨after, out, success, reacting⟩ := handleProposal_reacts sound here found
    exact ⟨_, out, success, .reacted found reacting⟩
  | preVote vote =>
    have here : p.currentHR = vote.heightRound := here
    have received : (s.receive (.preVote vote)).Fits p.n p.currentHR := fits.receive here.symm
    have stored := storePreVote_of_get? (here ▸ found) fits (inRange nofun)
    obtain ⟨after, out, success, reacting⟩ := handlePreVote_reacts
      (p := p.put p.currentHR (s.receive (.preVote vote))) here get?_put_self received
    rw [put_currentHR, put_put] at success
    refine ⟨_, out, ?_, .reacted found reacting⟩
    rw [handleNeeded, andThen_of_ok stored, ← here, success]
    rfl
  | preCommit commit =>
    obtain ⟨after, out, reacting, success⟩ :=
      handlePreCommit_here setting sound here (inRange nofun) found
    rw [success]
    cases settled : after.settled p.n with
    | none => exact ⟨_, _, rfl, .reacted found reacting⟩
    | some value =>
      obtain ⟨proposal, proposed, enough, rfl⟩ := HeightRoundState.settled_eq_some.mp settled
      exact ⟨_, _, rfl, .decided rfl found reacting proposed enough⟩

/-!
## Messages ahead of the partner
-/

theorem handlePreVote_ahead {vote : MessagePreVote}
    (found : p.states.get? vote.heightRound = some s)
    (fits : s.Fits p.n vote.heightRound) (proposing : s.step = .propose) :
    handlePreVote vote p = .ok (p, []) := by
  have waits (count : Nat) : rule34 vote count p = .ok (p, []) := by
    rw [rule34, reading_of_get? found, if_neg]
    simp [proposing]
  have locks (count : Nat) : rule36 vote count p = .ok (p, []) := by
    rw [rule36, reading_of_get? found]
    split
    · rfl
    · rw [if_neg]
      simp [proposing]
  have abstains : rule44 vote p = .ok (p, []) := by
    rw [rule44, counting_of_ok (count_preVotes found fits _), reading_of_get? found, if_neg]
    simp [proposing]
  rw [handlePreVote, counting_of_ok (count_preVotes found fits _), andThen_of_ok (waits _),
    andThen_of_ok (locks _), abstains]
  rfl

variable {setting} in
theorem handlePreCommit_ahead (two : 2 ≤ p.n)
    (found : p.states.get? commit.heightRound = some s) (fits : s.Fits p.n commit.heightRound)
    (ahead : s.Ahead) (few : s.sources.card ≤ p.f) :
    handlePreCommit setting commit p = .ok (p, []) := by
  have tooFew (kind : MatchType) : ¬ p.maj23 ≤ s.preCommitCount kind := by
    have counted := preCommitCount_le ahead fits kind
    have fewer : p.f < p.maj23 := maxByzantine_lt_majority two
    omega
  have waits : rule47 commit p = .ok (p, []) := by
    rw [rule47, counting_of_ok (count_preCommits found fits _), reading_of_get? found,
      if_neg fun enough => tooFew _ enough.1]
  have decides : rule49 setting commit p = .ok (p, []) := by
    rw [rule49, reading_of_get? found]
    cases s.messageProposal with
    | none => rfl
    | some proposal =>
      dsimp only
      rw [counting_of_ok (count_preCommits found fits _), if_neg fun enough => tooFew _ enough.1]
  rw [handlePreCommit, andThen_of_ok waits, decides]
  rfl

theorem handleVote_ahead (sound : p.Sound) (later : p.currentHR < msg.basic.heightRound)
    (found : p.states.get? msg.basic.heightRound = some s) (few : s.sources.card ≤ p.f)
    (known : msg.basic.sourceId ∈ s.sources) (isVote : msg.type ≠ .proposal)
    (inRange : msg.InRange p.n) :
    handleNeeded setting msg p = .ok (p.put msg.basic.heightRound (s.receive msg), []) := by
  obtain ⟨-, fits, -, ahead⟩ := sound.records found
  have nextFits := fits.receive (Eq.refl msg.basic.heightRound)
  have nextAhead := (ahead later).receive known
  cases msg with
  | proposal proposal => exact absurd rfl isVote
  | preVote vote =>
    have stored := storePreVote_of_get? found fits (inRange nofun)
    have nothing := handlePreVote_ahead
      (p := p.put vote.heightRound (s.receive (.preVote vote))) get?_put_self nextFits
      nextAhead.step
    rw [handleNeeded, andThen_of_ok stored, nothing]
    rfl
  | preCommit commit =>
    have stored := storePreCommit_of_get? found fits (inRange nofun)
    have nothing : handlePreCommit setting commit
        (p.put commit.heightRound (s.receive (.preCommit commit))) = .ok (_, []) :=
      handlePreCommit_ahead sound.two get?_put_self nextFits nextAhead few
    rw [handleNeeded, andThen_of_ok stored, nothing]
    rfl

theorem handleProposal_ahead {proposal : MessageProposal ν} (sound : p.Sound)
    (later : p.currentHR < proposal.heightRound)
    (found : p.states.get? proposal.heightRound = some s) (known : proposal.sourceId ∈ s.sources)
    (current : p.states.get? p.currentHR = some cur) :
    handleProposal proposal p =
      .ok ((p.put proposal.heightRound (s.receive (.proposal proposal))).put p.currentHR
          { cur with step := .preVote },
        [.send (.preVote ⟨p.basicMessage proposal.heightRound,
          some (Proposal.getId proposal.value), [], []⟩)]) := by
  obtain ⟨-, fits, -, ahead⟩ := sound.records found
  obtain ⟨-, curFits, active, -⟩ := sound.records current
  have nextFits : (s.receive (.proposal proposal)).Fits p.n proposal.heightRound := fits.receive rfl
  have nextAhead : (s.receive (.proposal proposal)).Ahead := (ahead later).receive known
  have received : (p.put proposal.heightRound (s.receive (.proposal proposal))).Sound :=
    sound.put (le_of_lt later) nextFits (fun same => absurd same later.ne') fun _ => nextAhead
  have stillCurrent : (p.put proposal.heightRound
      (s.receive (.proposal proposal))).states.get? p.currentHR = some cur := by
    rw [get?_put, if_neg later.ne, current]
  have voted : rule22 proposal (p.put proposal.heightRound (s.receive (.proposal proposal))) =
      .ok ((p.put proposal.heightRound (s.receive (.proposal proposal))).put p.currentHR
          { cur with step := .preVote },
        [.send (.preVote ⟨p.basicMessage proposal.heightRound,
          some (Proposal.getId proposal.value), [], []⟩)]) := by
    rw [rule22, reading_of_get? get?_put_self, if_pos nextAhead.step, preVoteOn,
      if_pos (decide_eq_true nextAhead.lockedRound)]
    exact castPreVote_of_get? (some proposal.value) stillCurrent
  have stepped : ((p.put proposal.heightRound (s.receive (.proposal proposal))).put p.currentHR
      { cur with step := .preVote }).Sound :=
    received.put (le_refl p.currentHR) ⟨curFits.preVotes, curFits.preCommits⟩
      (fun _ => ⟨(active rfl).undecided, nofun⟩) fun isLater => absurd isLater (lt_irrefl _)
  have last : rule28 proposal ((p.put proposal.heightRound
      (s.receive (.proposal proposal))).put p.currentHR { cur with step := .preVote }) =
        .ok (_, []) :=
    rule28_of_sound stepped (by rw [get?_put, if_neg later.ne', get?_put_self])
  rw [handleProposal, andThen_of_ok (modify_of_get? found)]
  change ((rule22 proposal).andThen (rule28 proposal)
    (p.put proposal.heightRound (s.receive (.proposal proposal)))).map _ = _
  rw [andThen_of_ok voted, last]
  rfl

end Partner

end AnnchainOG.Bft
