import AnnchainOG.Consensus.Precommits
import AnnchainOG.Consensus.Votes

/-!
# Locks and valid values

Both are fields of the record of a round, and a round starts with a new record.
-/

namespace AnnchainOG.Bft

open Journal List

variable {ν : Type}
variable {id : Hash} {p : Partner ν} {event : Event ν} {next : Journal ν}

def Output.preVoteFor : Output ν → Option (HeightRound × Hash)
  | .send (.preVote vote) => vote.idv.map fun id => (vote.heightRound, id)
  | _ => none

def Output.proposed : Output ν → Option (MessageProposal ν)
  | .send (.proposal proposal) => some proposal
  | _ => none

def lastValid (entries : List (Entry ν)) (height : UInt64) : Option ν :=
  entries.reverse.findSome? fun entry =>
    if entry.after.currentHR.height = height then
      (entry.after.record entry.after.currentHR).validValue
    else none

variable (j : Journal ν)

/-- Enough prevotes for the id were stored in the valid round, which is between the two. -/
def Journal.Released (locked voted : HeightRound) (id : Hash) : Prop :=
  ∃ entry ∈ j.entries, ∃ proposal ∈ (entry.after.record voted).messageProposal,
    locked.round ≤ proposal.validRound ∧ proposal.validRound < voted.round ∧
      majority entry.after.n ≤
        (entry.after.preVoters ⟨voted.height, proposal.validRound⟩ id).card

/-- After a precommit only its value is prevoted in later rounds of the height. -/
def Journal.LocksKept : Prop :=
  ∀ commit ∈ j.log.filterMap Output.preCommitFor, ∀ vote ∈ j.log.filterMap Output.preVoteFor,
    vote.1.height = commit.1.height → commit.1.round < vote.1.round →
      vote.2 = commit.2 ∨ j.Released commit.1 vote.1 vote.2

instance (j : Journal ν) : Decidable j.LocksKept :=
  inferInstanceAs (Decidable (∀ commit ∈ j.log.filterMap Output.preCommitFor,
    ∀ vote ∈ j.log.filterMap Output.preVoteFor, vote.1.height = commit.1.height →
      commit.1.round < vote.1.round → vote.2 = commit.2 ∨
        ∃ entry ∈ j.entries, ∃ proposal ∈ (entry.after.record vote.1).messageProposal, _ ∧ _ ∧ _))

def Journal.Repeats (hr : HeightRound) (id : Hash) : Prop :=
  ∀ commit ∈ j.log.filterMap Output.preCommitFor,
    hr.height = commit.1.height → commit.1.round < hr.round → id = commit.2

/-- In its turn the partner is given the valid value it has seen. -/
def Around.Repeats [Proposal ν] (around : Around ν) (next : HeightRound) : Prop :=
  j.partner.id = proposer j.partner.n next → ∀ value ∈ lastValid j.entries next.height,
    Proposal.getId (around.value next) = Proposal.getId value

/-- A proposal is what is given as the new value, and it is the valid value that was seen. -/
def Journal.ValidProposed [Proposal ν] : Prop :=
  ∀ i ∈ List.range j.entries.length, ∀ entry ∈ j.entries[i]?,
    ∀ proposal ∈ entry.outputs.filterMap Output.proposed,
      ∀ value ∈ lastValid (j.entries.take i) proposal.heightRound.height,
        Proposal.getId proposal.value = Proposal.getId value

instance [Proposal ν] (j : Journal ν) : Decidable j.ValidProposed :=
  inferInstanceAs (Decidable (∀ i ∈ List.range j.entries.length, ∀ entry ∈ j.entries[i]?,
    ∀ proposal ∈ entry.outputs.filterMap Output.proposed,
      ∀ value ∈ lastValid (j.entries.take i) proposal.heightRound.height, _ = _))

variable [Proposal ν]

def Message.Repeats : Message ν → Prop
  | .proposal msg => j.Repeats msg.heightRound (Proposal.getId msg.value)
  | .preVote _ | .preCommit _ => True

def Event.Repeating : Event ν → Prop
  | .deliver setting msg =>
    msg.Repeats j ∧
      setting.catchUp.Repeats j (setting.catchUp.target msg.basic.heightRound.height
        msg.basic.heightRound.round) ∧
      setting.decision.Repeats j (setting.next msg.basic.heightRound)
  | .timeout around context =>
    around.Repeats j (around.target context.heightRound.height (context.heightRound.round + 1))

/-- Proposals come in time, and what is given repeats what was precommitted or seen valid. -/
structure Event.Loyal (j : Journal ν) (event : Event ν) : Prop extends event.Timely j where
  repeating : event.Repeating j

instance (j : Journal ν) : (msg : Message ν) → Decidable (msg.Repeats j)
  | .proposal msg => inferInstanceAs (Decidable (∀ commit ∈ j.log.filterMap Output.preCommitFor,
      msg.heightRound.height = commit.1.height → commit.1.round < msg.heightRound.round → _ = _))
  | .preVote _ | .preCommit _ => inferInstanceAs (Decidable True)

instance (j : Journal ν) (around : Around ν) (next : HeightRound) :
    Decidable (around.Repeats j next) :=
  inferInstanceAs (Decidable (_ → ∀ value ∈ lastValid j.entries next.height, _ = _))

instance (j : Journal ν) : (event : Event ν) → Decidable (event.Repeating j)
  | .deliver _ _ => inferInstanceAs (Decidable (_ ∧ _ ∧ _))
  | .timeout around _ => inferInstanceAs (Decidable (around.Repeats j _))

instance [DecidableEq ν] (j : Journal ν) (event : Event ν) : Decidable (event.Loyal j) :=
  decidable_of_iff (event.Timely j ∧ event.Repeating j)
    ⟨fun both => ⟨both.1, both.2⟩, fun loyal => ⟨loyal.toTimely, loyal.repeating⟩⟩

/-!
## Prevotes
-/

structure Locked (voter : Voter ν) (log : List (Output ν)) : Prop where
  reached : ∀ vote ∈ log.filterMap Output.preVoteFor, vote.1 ≤ voter.heightRound
  kept : ∀ commit ∈ log.filterMap Output.preCommitFor, ∀ vote ∈ log.filterMap Output.preVoteFor,
    vote.1.height = commit.1.height → commit.1.round < vote.1.round → vote.2 = commit.2

def Guard.repeating : Guard ν where
  offer hr proposal := j.Repeats hr (Proposal.getId proposal.value)
  ahead _ := False
  enter _ _ next around := around.Repeats j next

structure LockedFrom (j : Journal ν) (cause : Cause) (voter : Voter ν) (log : List (Output ν)) :
    Prop extends Locked voter log where
  earlier : cause = .message .proposal →
    log.filterMap Output.preCommitFor = j.log.filterMap Output.preCommitFor

variable {j : Journal ν} {cause : Cause} {voter after : Voter ν} {log out : List (Output ν)}

omit [Proposal ν] in
theorem LockedFrom.silent (locked : LockedFrom j cause voter log)
    (noVote : out.filterMap Output.preVoteFor = [])
    (noCommit : out.filterMap Output.preCommitFor = [])
    (notBefore : voter.heightRound ≤ after.heightRound) : LockedFrom j cause after
    (log ++ out) := by
  constructor
  · constructor
    · rw [filterMap_append, noVote, append_nil]
      exact fun vote member => le_trans (locked.reached vote member) notBefore
    · rw [filterMap_append, filterMap_append, noVote, noCommit, append_nil,
        append_nil]
      exact locked.kept
  · rw [filterMap_append, noCommit, append_nil]
    exact locked.earlier

omit [Proposal ν] in
theorem LockedFrom.vote (locked : LockedFrom j (.message .proposal) voter log)
    (isVote : out.filterMap Output.preVoteFor = [(voter.heightRound, id)])
    (noCommit : out.filterMap Output.preCommitFor = [])
    (repeats : j.Repeats voter.heightRound id) (sameRound : after.heightRound = voter.heightRound) :
    LockedFrom j (.message .proposal) after (log ++ out) := by
  constructor
  · constructor
    · rw [filterMap_append, isVote, sameRound]
      exact forall_mem_append.mpr
        ⟨locked.reached, forall_mem_singleton.mpr (le_refl _)⟩
    · rw [filterMap_append, filterMap_append, isVote, noCommit, append_nil]
      intro commit isCommit
      refine forall_mem_append.mpr ⟨locked.kept commit isCommit, ?_⟩
      rw [locked.earlier rfl] at isCommit
      exact forall_mem_singleton.mpr (repeats commit isCommit)
  · rw [filterMap_append, noCommit, append_nil]
    exact locked.earlier

omit [Proposal ν] in
theorem LockedFrom.commit (locked : LockedFrom j cause voter log)
    (isCommit : out.filterMap Output.preCommitFor = [(voter.heightRound, id)])
    (noVote : out.filterMap Output.preVoteFor = [])
    (sameRound : after.heightRound = voter.heightRound) (notProposal : cause ≠ .message .proposal) :
    LockedFrom j cause after (log ++ out) := by
  refine ⟨⟨?_, ?_⟩, fun isProposal => absurd isProposal notProposal⟩
  · rw [filterMap_append, noVote, append_nil, sameRound]
    exact locked.reached
  · rw [filterMap_append, filterMap_append, isCommit, noVote, append_nil]
    refine forall_mem_append.mpr ⟨locked.kept, forall_mem_singleton.mpr ?_⟩
    intro vote isVote sameHeight laterRound
    -- The voter has not been in a later round.
    have later := HeightRound.lt_iff.mpr (.inr ⟨sameHeight.symm, laterRound⟩)
    exact absurd later (not_lt.mpr (locked.reached vote isVote))

theorem LockedFrom.moves (moves : Moves (Guard.repeating j) p cause voter out after)
    (locked : LockedFrom j cause voter log) : LockedFrom j cause after (log ++ out) := by
  cases moves with
  | receive _ | decide _ _ => exact locked.silent rfl rfl (le_refl _)
  | ahead _ allowed => exact allowed.elim
  | wait later _ _ | propose _ later _ _ _ => exact locked.silent rfl rfl (le_of_lt later)
  | react reacts offered =>
    cases reacts with
    | giveUp _ | awaitPreVotes _ _ | accept _ _ _ _ | abstain _ _ | awaitPreCommits _ =>
      exact locked.silent rfl rfl (le_refl _)
    | offer _ proposed => exact locked.vote rfl rfl (offered rfl _ proposed) rfl
    | lock _ _ _ _ => exact locked.commit rfl rfl rfl nofun

/-!
## Proposals
-/

theorem Moves.proposed (moves : Moves (Guard.repeating j) p cause voter out after)
    (isPartner : p = j.partner) :
    ∀ proposal ∈ out.filterMap Output.proposed,
      ∀ value ∈ lastValid j.entries proposal.heightRound.height,
        Proposal.getId proposal.value = Proposal.getId value := by
  subst isPartner
  cases moves with
  | receive _ | ahead _ _ | decide _ _ | wait _ _ _ => exact forall_mem_nil _
  | propose _ _ allowed _ myTurn => exact forall_mem_singleton.mpr (allowed myTurn)
  | react reacts _ => cases reacts <;> exact forall_mem_nil _

theorem Moving.proposed (moving : Moving (Guard.repeating j) j.partner cause voter out after) :
    ∀ proposal ∈ out.filterMap Output.proposed,
      ∀ value ∈ lastValid j.entries proposal.heightRound.height,
        Proposal.getId proposal.value = Proposal.getId value := by
  induction moving with
  | done => exact forall_mem_nil _
  | next moves _ ih =>
    rw [filterMap_append]
    exact forall_mem_append.mpr ⟨moves.proposed rfl, ih⟩

/-!
## Runs
-/

theorem Event.Loyal.allows (loyal : event.Loyal j) (cur : HeightRoundState ν) :
    (Guard.repeating j).Allows j.partner cur event := by
  have inTime := loyal.toTimely.allows cur
  have repeating := loyal.repeating
  cases event with
  | timeout around context =>
    intro isContext
    subst isContext
    exact repeating
  | deliver setting msg =>
    obtain ⟨offers, catchesUp, decides⟩ := repeating
    refine ⟨fun proposal isProposal => ?_, inTime.ahead, fun _ _ => catchesUp, fun here => ?_,
      fun _ => decides⟩
    · subst isProposal
      exact offers
    · rw [here] at decides
      exact decides

theorem Journal.ValidProposed.extend (valid : j.ValidProposed)
    (extended : next.entries = j.entries ++ [⟨next.partner, out⟩])
    (isNew : ∀ proposal ∈ out.filterMap Output.proposed,
      ∀ value ∈ lastValid j.entries proposal.heightRound.height,
        Proposal.getId proposal.value = Proposal.getId value) : next.ValidProposed := by
  unfold ValidProposed
  rw [extended]
  intro i inRange entry found
  rw [length_append, length_singleton, mem_range] at inRange
  obtain earlier | isLast := Nat.lt_or_eq_of_le (Nat.le_of_lt_succ inRange)
  · rw [getElem?_append_left earlier] at found
    rw [take_append_of_le_length (Nat.le_of_lt earlier)]
    exact valid i (mem_range.mpr earlier) entry found
  · subst isLast
    rw [getElem?_concat_length] at found
    cases found
    rw [take_left']
    · exact isNew
    · rfl

theorem Journal.step_loyal {n : Nat} (kept : j.Kept n)
    (locked : j.Holds Locked) (valid : j.ValidProposed) (loyal : event.Loyal j)
    (stepped : j.step event = .ok (next, out)) : next.Holds Locked ∧ next.ValidProposed := by
  obtain ⟨handled, extended⟩ := step_ok stepped
  obtain ⟨cur, found, now⟩ := locked
  obtain ⟨last, foundLast, moving⟩ := kept.moving loyal.toFair handled found (loyal.allows cur)
  refine ⟨⟨last, foundLast, ?_⟩, valid.extend extended moving.proposed⟩
  rw [log_of_entries extended]
  have from_ : LockedFrom j event.cause ⟨j.partner.currentHR, cur⟩ j.log := ⟨now, fun _ => rfl⟩
  exact (moving.invariant LockedFrom.moves from_).toLocked

/-- Partner 1 locks 7 in round 0 and proposes in round 1, where all it gets is for `hash`. -/
def twoRounds (hash : Hash) : List (Event Wire.Sequencer) :=
  let setting : Setting Wire.Sequencer := ⟨.sample hash, .sample hash, true⟩
  let preVote (source : UInt16) : Event Wire.Sequencer :=
    .deliver setting (.preVote ⟨⟨source, ⟨4, 0⟩⟩, some 7, [], []⟩)
  let preCommit (source : UInt16) : Event Wire.Sequencer :=
    .deliver setting (.preCommit ⟨⟨source, ⟨4, 0⟩⟩, none, [], [], []⟩)
  [.deliver setting (.proposal ⟨⟨0, ⟨4, 0⟩⟩, sampleSequencer 7, -1, []⟩),
    preVote 0, preVote 2, preVote 3, preCommit 0, preCommit 2, preCommit 3,
    .timeout (.sample hash) ⟨⟨4, 0⟩, .preCommit⟩,
    .deliver setting (.proposal ⟨⟨1, ⟨4, 1⟩⟩, sampleSequencer hash, -1, []⟩)]

end AnnchainOG.Bft
