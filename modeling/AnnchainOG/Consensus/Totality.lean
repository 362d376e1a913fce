import AnnchainOG.Consensus.Deliveries

/-!
# Handlers that do not panic

A partner handles every message and timeout if the slots of its records reach to the source of each
vote.
-/

namespace AnnchainOG.Bft

variable {ν : Type}
variable {n : Nat} {hr : HeightRound} {s after : HeightRoundState ν}

/-- A slot for each of `n` partners, votes of the one round, and a value wherever there is a lock. -/
structure HeightRoundState.Roomy (n : Nat) (hr : HeightRound) (s : HeightRoundState ν) : Prop where
  preVotes : n ≤ s.preVotes.length
  preCommits : n ≤ s.preCommits.length
  preVotesHere : ∀ vote, some vote ∈ s.preVotes → vote.heightRound = hr
  preCommitsHere : ∀ commit, some commit ∈ s.preCommits → commit.heightRound = hr
  valued : s.lockedRound ≠ -1 → ∃ value, s.lockedValue = some value

theorem HeightRoundState.Roomy.same (roomy : s.Roomy n hr)
    (same : after.preVotes = s.preVotes ∧ after.preCommits = s.preCommits ∧
      after.lockedRound = s.lockedRound ∧ after.lockedValue = s.lockedValue) :
    after.Roomy n hr := by
  obtain ⟨preVotes, preCommits, lockedRound, lockedValue⟩ := same
  constructor
  · exact preVotes ▸ roomy.preVotes
  · exact preCommits ▸ roomy.preCommits
  · exact preVotes ▸ roomy.preVotesHere
  · exact preCommits ▸ roomy.preCommitsHere
  · exact lockedRound ▸ lockedValue ▸ roomy.valued

theorem Reacting.roomy [Proposal ν] {count : Nat} {me : BasicMessage} {cause : Cause}
    {out : List (Output ν)}
    (reacting : Reacting count me cause s out after) (roomy : s.Roomy n hr) : after.Roomy n hr := by
  induction reacting with
  | done => exact roomy
  | next reacts _ ih =>
    refine ih ?_
    cases reacts with
    | lock _ _ _ _ => exact { roomy with valued := fun _ => ⟨_, rfl⟩ }
    | offer _ _ | giveUp _ | awaitPreVotes _ _ | accept _ _ _ _ | abstain _ _
    | awaitPreCommits _ => exact roomy.same ⟨rfl, rfl, rfl, rfl⟩

theorem newHeightRoundState_roomy (n : Nat) (hr : HeightRound) :
    (newHeightRoundState n : HeightRoundState ν).Roomy n hr where
  preVotes := ge_of_eq List.length_replicate
  preCommits := ge_of_eq List.length_replicate
  preVotesHere vote member := by cases List.eq_of_mem_replicate member
  preCommitsHere commit member := by cases List.eq_of_mem_replicate member
  valued locked := absurd rfl locked

namespace Partner

variable {change : HeightRoundState ν → HeightRoundState ν} {msg : Message ν}

structure Roomy (n : Nat) (p : Partner ν) : Prop where
  size : p.n = n
  populated : n ≠ 0
  records : ∀ {hr s}, p.states.get? hr = some s → s.Roomy n hr

structure Opened (n : Nat) (p : Partner ν) : Prop extends p.Roomy n where
  current : ∃ s, p.states.get? p.currentHR = some s

structure OpenedAt (n : Nat) (hr : HeightRound) (p : Partner ν) : Prop extends p.Opened n where
  here : ∃ s, p.states.get? hr = some s

variable {n : Nat} {hr other : HeightRound} {p after : Partner ν} {s : HeightRoundState ν}
  {out : List (Output ν)}

theorem Roomy.put (roomy : p.Roomy n) (fits : s.Roomy n hr) : (p.put hr s).Roomy n where
  size := roomy.size
  populated := roomy.populated
  records found := by
    rw [get?_put] at found
    split at found
    next same =>
      cases found
      rw [same]
      exact fits
    · exact roomy.records found

theorem Roomy.record (roomy : p.Roomy n) (hr : HeightRound) : (p.record hr).Roomy n hr := by
  cases found : p.states.get? hr with
  | none =>
    rw [Partner.record, found, roomy.size]
    exact newHeightRoundState_roomy n hr
  | some s =>
    rw [record_of_get? found]
    exact roomy.records found

theorem exists_get?_put (found : ∃ state, p.states.get? other = some state) :
    ∃ state, (p.put hr s).states.get? other = some state := by
  rw [get?_put]
  split
  · exact ⟨s, rfl⟩
  · exact found

theorem Opened.put (opened : p.Opened n) (fits : s.Roomy n hr) : (p.put hr s).Opened n :=
  ⟨opened.toRoomy.put fits, exists_get?_put opened.current⟩

theorem OpenedAt.put (opened : p.OpenedAt n hr) (fits : s.Roomy n other) :
    (p.put other s).OpenedAt n hr :=
  ⟨opened.toOpened.put fits, exists_get?_put opened.here⟩

theorem Roomy.entered (roomy : p.Roomy n) (hr : HeightRound) : (p.entered hr).Opened n where
  size := roomy.size
  populated := roomy.populated
  records found := by
    rw [get?_entered] at found
    split at found
    next same =>
      cases found
      rw [same]
      exact (roomy.record hr).same ⟨rfl, rfl, rfl, rfl⟩
    · split at found
      · cases found
      · exact roomy.records found
  current := ⟨_, get?_entered_self⟩

/-!
## The parts of the handlers
-/

variable {missing : Panic} {post : Partner ν → Prop}

theorem reading_total {body : HeightRoundState ν → Handler ν}
    (isTotal : ∀ s, s.Roomy n hr → (body s).Total (OpenedAt n hr) post) :
    (reading hr missing body).Total (OpenedAt n hr) post := by
  intro p opened
  obtain ⟨s, found⟩ := opened.here
  rw [reading_of_get? found]
  exact isTotal s (opened.records found) p opened

theorem modify_total (keeps : ∀ s, s.Roomy n hr → (change s).Roomy n hr) :
    (modify hr missing change).Total (OpenedAt n hr) (OpenedAt n hr) :=
  reading_total fun s roomy _ opened => ⟨_, _, rfl, opened.put (keeps s roomy)⟩

theorem modify_keeping
    (same : ∀ s, (change s).preVotes = s.preVotes ∧ (change s).preCommits = s.preCommits ∧
      (change s).lockedRound = s.lockedRound ∧ (change s).lockedValue = s.lockedValue) :
    (modify hr missing change).Total (OpenedAt n hr) (OpenedAt n hr) :=
  modify_total fun s roomy => roomy.same (same s)

theorem changeStep_total (stepType : StepType) :
    (changeStep stepType : Handler ν).Total (OpenedAt n hr) (OpenedAt n hr) := by
  intro p opened
  obtain ⟨s, found⟩ := opened.current
  exact ⟨_, _, changeStep_of_get? found,
    opened.put ((opened.records found).same ⟨rfl, rfl, rfl, rfl⟩)⟩

theorem count_ok (roomy : p.Roomy n) (messageType : MessageType) (height : UInt64) (round : Int64)
    (kind : MatchType) : ∃ count, p.count messageType height round kind = .ok count := by
  unfold count
  cases found : p.states.get? ⟨height, round⟩ with
  | none => exact ⟨0, rfl⟩
  | some s =>
    have fits := roomy.records found
    cases messageType with
    | proposal => exact ⟨0, rfl⟩
    | preVote => exact ⟨_, tally_of_here fits.preVotesHere _⟩
    | preCommit => exact ⟨_, tally_of_here fits.preCommitsHere _⟩

theorem counting_total {messageType : MessageType} {height : UInt64} {round : Int64}
    {kind : MatchType} {body : Nat → Handler ν}
    (isTotal : ∀ count, (body count).Total (OpenedAt n hr) post) :
    (counting messageType height round kind body).Total (OpenedAt n hr) post := by
  intro p opened
  obtain ⟨count, counted⟩ := count_ok opened.toRoomy messageType height round kind
  rw [counting_of_ok counted]
  exact isTotal count p opened

theorem startNewEra_total (around : Around ν) (height : UInt64) (round : Int64) :
    (startNewEra around height round).Total (Roomy n) (Opened n) := by
  intro p roomy
  have populated : p.n ≠ 0 := roomy.size ▸ roomy.populated
  exact ⟨_, _, startNewEra_eq around height round populated, roomy.entered _⟩

theorem Arrives.opened {around : Around ν} {message : BasicMessage}
    (arrives : Arrives around message p after out) (opened : p.Opened n) :
    after.Opened n ∧ (after.currentHR ≤ message.heightRound →
      ∃ s, after.states.get? message.heightRound = some s) := by
  have heard : (p.heard message).Roomy n message.heightRound :=
    (opened.toRoomy.record message.heightRound).same ⟨rfl, rfl, rfl, rfl⟩
  cases arrives with
  | here reached =>
    refine ⟨opened, fun needed => ?_⟩
    rw [le_antisymm reached needed]
    exact opened.current
  | ahead _ _ => exact ⟨opened.put heard, fun _ => ⟨_, get?_put_self⟩⟩
  | catchUp _ _ =>
    refine ⟨(opened.toRoomy.put heard).entered _, fun needed => ?_⟩
    have isCurrent := le_antisymm (around.le_target _ _) needed
    exact ⟨_, by rw [get?_entered, if_pos isCurrent]⟩

theorem waitStepTimeout_total (stepType : StepType) :
    (waitStepTimeout stepType hr : Handler ν).Total post post :=
  fun p holds => ⟨p, _, rfl, holds⟩

variable [Proposal ν]

theorem broadcastPreVote_total (content : Option ν) :
    (broadcastPreVote hr content).Total post post :=
  fun p holds => ⟨p, _, rfl, holds⟩

theorem broadcastPreCommit_total (content : Option ν) :
    (broadcastPreCommit hr content).Total post post :=
  fun p holds => ⟨p, _, rfl, holds⟩

theorem preVoteOn_total {proposal : MessageProposal ν} {free : Bool}
    (valued : free = false → ∃ value, s.lockedValue = some value) :
    (preVoteOn proposal free s).Total (OpenedAt n hr) (OpenedAt n hr) := by
  have casts (content : Option ν) : ((broadcastPreVote proposal.heightRound content).andThen
      (changeStep .preVote)).Total (OpenedAt n hr) (OpenedAt n hr) :=
    (broadcastPreVote_total content).andThen (changeStep_total .preVote)
  unfold preVoteOn
  cases free with
  | true => exact casts _
  | false =>
    obtain ⟨value, isLocked⟩ := valued rfl
    rw [isLocked]
    exact casts _

/-!
## Proposals
-/

variable (proposal : MessageProposal ν)

theorem rule22_total :
    (rule22 proposal).Total (OpenedAt n proposal.heightRound)
    (OpenedAt n proposal.heightRound) := by
  refine reading_total fun s roomy => ?_
  split
  · refine preVoteOn_total fun locked => roomy.valued ?_
    exact of_decide_eq_false locked
  · exact Act.total_skip fun _ opened => opened

theorem rule28_total :
    (rule28 proposal).Total (OpenedAt n proposal.heightRound)
    (OpenedAt n proposal.heightRound) := by
  refine counting_total fun count => reading_total fun s roomy p opened => ?_
  split
  next triggered =>
    refine preVoteOn_total (fun locked => roomy.valued fun unlocked => ?_) p opened
    have later := of_decide_eq_false locked
    rw [unlocked] at later
    exact later (Int64.le_trans (by decide) triggered.2.2.1)
  · exact ⟨p, [], rfl, opened⟩

theorem handleProposal_total :
    (handleProposal proposal).Total (OpenedAt n proposal.heightRound)
      (OpenedAt n proposal.heightRound) := by
  refine Act.Total.andThen (modify_keeping fun s => ?_)
    ((rule22_total proposal).andThen (rule28_total proposal))
  exact ⟨rfl, rfl, rfl, rfl⟩

/-!
## Prevotes
-/

omit [Proposal ν] in
theorem storePreVote_total {vote : MessagePreVote} (inRange : vote.sourceId.toNat < n) :
    (storePreVote vote : Handler ν).Total (OpenedAt n vote.heightRound)
      (OpenedAt n vote.heightRound) := by
  refine reading_total fun s roomy p opened => ?_
  rw [if_pos (lt_of_lt_of_le inRange roomy.preVotes)]
  refine ⟨_, _, rfl, opened.put
    { roomy with preVotes := ?_, preVotesHere := forall_set roomy.preVotesHere rfl }⟩
  rw [List.length_set]
  exact roomy.preVotes

omit [Proposal ν] in
theorem rule34_total (vote : MessagePreVote) (count : Nat) :
    (rule34 vote count : Handler ν).Total (OpenedAt n vote.heightRound)
      (OpenedAt n vote.heightRound) := by
  refine reading_total fun s _ p opened => ?_
  split
  · refine Act.Total.andThen (modify_keeping fun s => ?_) (waitStepTimeout_total .preVote) p opened
    exact ⟨rfl, rfl, rfl, rfl⟩
  · exact ⟨p, [], rfl, opened⟩

theorem lockOn_total (value : ν) : (lockOn hr value).Total (OpenedAt n hr) (OpenedAt n hr) := by
  intro p opened
  refine Act.Total.andThen (modify_total fun _ roomy => ?_)
    ((broadcastPreCommit_total _).andThen (changeStep_total .preCommit)) p opened
  exact { roomy with valued := fun _ => ⟨value, rfl⟩ }

variable (vote : MessagePreVote)

theorem rule36_total (count : Nat) :
    (rule36 vote count : Handler ν).Total (OpenedAt n vote.heightRound)
      (OpenedAt n vote.heightRound) := by
  refine reading_total fun s _ p opened => ?_
  split
  · exact ⟨p, [], rfl, opened⟩
  rename_i proposal _
  split
  · have locks : (if s.step = .preVote then lockOn vote.heightRound proposal.value
        else Act.skip).Total (OpenedAt n vote.heightRound) (OpenedAt n vote.heightRound) := by
      split
      · exact lockOn_total proposal.value
      · exact Act.total_skip fun _ opened => opened
    refine Act.Total.andThen (modify_keeping fun s => ?_)
      (locks.andThen (modify_keeping fun s => ?_)) p opened
    · exact ⟨rfl, rfl, rfl, rfl⟩
    · exact ⟨rfl, rfl, rfl, rfl⟩
  · exact ⟨p, [], rfl, opened⟩

theorem rule44_total :
    (rule44 vote : Handler ν).Total (OpenedAt n vote.heightRound)
    (OpenedAt n vote.heightRound) := by
  refine counting_total fun count => reading_total fun s _ p opened => ?_
  split
  · exact (broadcastPreCommit_total none).andThen (changeStep_total .preCommit) p opened
  · exact ⟨p, [], rfl, opened⟩

theorem handlePreVote_total :
    (handlePreVote vote : Handler ν).Total (OpenedAt n vote.heightRound)
      (OpenedAt n vote.heightRound) :=
  counting_total fun count =>
    (rule34_total vote count).andThen ((rule36_total vote count).andThen (rule44_total vote))

/-!
## Precommits
-/

omit [Proposal ν] in
theorem storePreCommit_total {commit : MessagePreCommit} (inRange : commit.sourceId.toNat < n) :
    (storePreCommit commit : Handler ν).Total (OpenedAt n commit.heightRound)
      (OpenedAt n commit.heightRound) := by
  refine reading_total fun s roomy p opened => ?_
  rw [if_pos (lt_of_lt_of_le inRange roomy.preCommits)]
  refine ⟨_, _, rfl, opened.put
    { roomy with preCommits := ?_, preCommitsHere := forall_set roomy.preCommitsHere rfl }⟩
  rw [List.length_set]
  exact roomy.preCommits

omit [Proposal ν] in
theorem rule47_total (commit : MessagePreCommit) :
    (rule47 commit : Handler ν).Total (OpenedAt n commit.heightRound)
      (OpenedAt n commit.heightRound) := by
  refine counting_total fun count => reading_total fun s _ p opened => ?_
  split
  · refine Act.Total.andThen (modify_keeping fun s => ?_) (waitStepTimeout_total .preCommit) p opened
    exact ⟨rfl, rfl, rfl, rfl⟩
  · exact ⟨p, [], rfl, opened⟩

omit [Proposal ν] in
theorem commitDecision_total (setting : Setting ν) (hr : HeightRound) :
    (commitDecision setting hr).Total (OpenedAt n hr) (Opened n) := by
  have announces : (reading hr .nilState fun state p =>
      .ok (p, [.decided p.currentHR hr state setting.accepted]) : Handler ν).Total (OpenedAt n hr)
        (OpenedAt n hr) :=
    reading_total fun s _ p opened => ⟨p, _, rfl, opened⟩
  refine announces.andThen fun p opened => ?_
  split
  · exact startNewEra_total _ _ _ p opened.toRoomy
  · exact startNewEra_total _ _ _ p opened.toRoomy

variable (setting : Setting ν)

theorem rule49_total (commit : MessagePreCommit) :
    (rule49 setting commit).Total (OpenedAt n commit.heightRound) (Opened n) := by
  refine reading_total fun s _ => ?_
  split
  · exact Act.total_skip fun _ opened => opened.toOpened
  refine counting_total fun count p opened => ?_
  split
  · refine Act.Total.andThen (modify_keeping fun s => ?_)
      (commitDecision_total setting commit.heightRound) p opened
    exact ⟨rfl, rfl, rfl, rfl⟩
  · exact ⟨p, [], rfl, opened.toOpened⟩

/-!
## Messages and timeouts
-/

theorem handleNeeded_total (inRange : msg.InRange n) :
    (handleNeeded setting msg).Total (OpenedAt n msg.basic.heightRound) (Opened n) := by
  cases msg with
  | proposal proposal =>
    intro p opened
    obtain ⟨after, out, done, stillOpened⟩ := handleProposal_total proposal p opened
    exact ⟨after, out, done, stillOpened.toOpened⟩
  | preVote vote =>
    intro p opened
    obtain ⟨after, out, done, stillOpened⟩ :=
      (storePreVote_total (inRange nofun)).andThen (handlePreVote_total vote) p opened
    exact ⟨after, out, done, stillOpened.toOpened⟩
  | preCommit commit =>
    exact (storePreCommit_total (inRange nofun)).andThen
      ((rule47_total commit).andThen (rule49_total setting commit))

theorem handleMessage_total (inRange : msg.InRange n) :
    (handleMessage setting msg).Total (Opened n) (Opened n) := by
  intro p opened
  obtain ⟨cur, found⟩ := opened.current
  have populated : p.n ≠ 0 := opened.size ▸ opened.populated
  obtain ⟨between, earlier, checked, arrives⟩ :=
    checkRound_arrives setting.catchUp msg.basic populated found
  obtain ⟨stillOpened, recorded⟩ := arrives.opened opened
  rw [handleMessage_eq, Act.andThen_of_ok checked]
  obtain late | needed := lt_or_ge msg.basic.heightRound between.currentHR
  · rw [ifNeeded_of_lt late]
    exact ⟨_, _, rfl, stillOpened⟩
  obtain ⟨after, later, handled, finished⟩ :=
    handleNeeded_total setting inRange between ⟨stillOpened, recorded needed⟩
  rw [ifNeeded_of_le needed, handled]
  exact ⟨_, _, rfl, finished⟩

theorem onTimeout_total (around : Around ν) (context : TendermintContext) :
    (onTimeout around context).Total (Opened n) (Opened n) := by
  intro p opened
  obtain ⟨cur, found⟩ := opened.current
  have populated : p.n ≠ 0 := opened.size ▸ opened.populated
  obtain ⟨after, out, done, expired⟩ := onTimeout_expires around context populated found
  refine ⟨after, out, done, ?_⟩
  cases expired with
  | ignored => exact opened
  | reacted found reacting => exact opened.put (reacting.roomy (opened.records found))
  | advanced _ _ => exact opened.toRoomy.entered _

end Partner

end AnnchainOG.Bft
