import AnnchainOG.Consensus.Journal

/-!
# Precommits and the prevotes behind them

A value is precommitted when prevotes of any kind come from enough sources.
-/

namespace AnnchainOG.Bft

open List Partner

variable {ν : Type}
variable (p : Partner ν) {out : List (Output ν)}
variable {around : Around ν} {message : BasicMessage} {between : Partner ν} {output : Output ν}
  {s : HeightRoundState ν}

def Partner.preVoters (hr : HeightRound) (id : Hash) : Finset UInt16 :=
  match p.states.get? hr with
  | none => ∅
  | some s => voters (·.sourceId) (fun vote => vote.idv = some id) s.preVotes

def Output.preCommitFor : Output ν → Option (HeightRound × Hash)
  | .send (.preCommit commit) => commit.idv.map fun id => (commit.heightRound, id)
  | _ => none

/-- A precommit for a value is sent with enough prevotes for the value stored. -/
def Partner.Justifies (output : Output ν) : Prop :=
  ∀ vote ∈ output.preCommitFor, majority p.n ≤ (p.preVoters vote.1 vote.2).card

instance (p : Partner ν) (output : Output ν) : Decidable (p.Justifies output) :=
  inferInstanceAs (Decidable (∀ vote ∈ output.preCommitFor, _))

def Journal.PreCommitsJustified (j : Journal ν) : Prop :=
  ∀ entry ∈ j.entries, ∀ output ∈ entry.outputs, entry.after.Justifies output

instance (j : Journal ν) : Decidable j.PreCommitsJustified :=
  inferInstanceAs (Decidable (∀ entry ∈ j.entries, ∀ output ∈ entry.outputs, _))

theorem Partner.preCommitFor_opening (around : Around ν) (hr : HeightRound) :
    (p.opening around hr).preCommitFor = none := by
  unfold opening
  split <;> rfl

variable {p}

theorem Partner.Arrives.noPreCommit (arrives : Arrives around message p between out) :
    ∀ output ∈ out, output.preCommitFor = none := by
  cases arrives with
  | here _ | ahead _ _ => exact forall_mem_nil _
  | catchUp _ _ => exact forall_mem_singleton.mpr (preCommitFor_opening _ _ _)

theorem Partner.justifies_of_none (noCommit : output.preCommitFor = none) : p.Justifies output := by
  intro commit isFor
  cases noCommit.symm.trans isFor

theorem Partner.Arrives.sameMessages (arrives : Arrives around message p between out)
    (here : between.currentHR = message.heightRound)
    (found : between.states.get? between.currentHR = some s) :
    SameMessages (p.record message.heightRound) s := by
  cases arrives with
  | here _ =>
    rw [← here, record_of_get? found]
    exact ⟨rfl, rfl, rfl, rfl⟩
  | ahead later _ => exact absurd here later.ne
  | catchUp later _ =>
    rw [entered_currentHR, get?_entered_self] at found
    rw [entered_currentHR] at here
    cases found
    rw [here, record_of_get? get?_put_self]
    exact ⟨rfl, rfl, rfl, rfl⟩

variable [Proposal ν]

def Event.Matching (j : Journal ν) : Event ν → Prop
  | .deliver _ (.preVote vote) =>
    ∀ proposal ∈ (j.partner.record vote.heightRound).messageProposal,
      let votes := ((j.partner.record vote.heightRound).receive (.preVote vote) :
        HeightRoundState ν).preVotes
      majority j.partner.n ≤ (voters (·.sourceId) (fun _ => true) votes).card →
      majority j.partner.n ≤ (voters (·.sourceId)
        (fun vote => vote.idv = some (Proposal.getId proposal.value)) votes).card
  | _ => True

instance (j : Journal ν) : (event : Event ν) → Decidable (event.Matching j)
  | .deliver _ (.preVote vote) => inferInstanceAs (Decidable (∀ proposal ∈
      (j.partner.record vote.heightRound).messageProposal, _ → _))
  | .deliver _ (.proposal _) | .deliver _ (.preCommit _) | .timeout _ _ =>
    inferInstanceAs (Decidable True)

theorem Reacting.locked {n : Nat} {me : BasicMessage} {cause : Cause} {after : HeightRoundState ν}
    {hr : HeightRound} {id : Hash}
    (reacting : Reacting n me cause s out after) (member : output ∈ out)
    (isFor : output.preCommitFor = some (hr, id)) :
    cause = .message .preVote ∧ hr = me.heightRound ∧ majority n ≤ s.preVoteCount .any ∧
      ∃ proposal, s.messageProposal = some proposal ∧ id = Proposal.getId proposal.value := by
  induction reacting with
  | done => cases member
  | next reacts rest ih =>
    have same := reacts.sameMessages
    cases mem_append.mp member with
    | inr later =>
      obtain ⟨isCause, isHere, enough, proposal, proposed, isId⟩ := ih later
      rw [HeightRoundState.preVoteCount, same.preVotes] at enough
      rw [same.messageProposal] at proposed
      exact ⟨isCause, isHere, enough, proposal, proposed, isId⟩
    | inl now =>
      cases reacts with
      | offer _ _ | giveUp _ | awaitPreVotes _ _ | awaitPreCommits _ | abstain _ _ =>
        cases mem_singleton.mp now
        cases isFor
      | accept _ _ _ _ => cases now
      | @lock _ proposal enough _ _ proposed =>
        cases mem_singleton.mp now
        cases isFor
        exact ⟨rfl, rfl, enough, proposal, proposed, rfl⟩

namespace Partner

variable {p after : Partner ν} {setting : Setting ν} {msg : Message ν} {out : List (Output ν)}
variable {commit : HeightRound × Hash} {j : Journal ν}

structure LocksOn (n : Nat) (s : HeightRoundState ν) (vote : MessagePreVote) (id : Hash) : Prop where
  enough : majority n ≤ (voters (·.sourceId) (fun _ => true)
    (s.receive (.preVote vote) : HeightRoundState ν).preVotes).card
  proposed : ∃ proposal, s.messageProposal = some proposal ∧ id = Proposal.getId proposal.value

theorem LocksOn.of_same {n : Nat} {s before : HeightRoundState ν} {vote : MessagePreVote}
    {id : Hash}
    (locks : LocksOn n s vote id) (same : SameMessages before s) : LocksOn n before vote id := by
  obtain ⟨enough, proposed⟩ := locks
  rw [same.messageProposal] at proposed
  simp only [HeightRoundState.receive, same.preVotes] at enough
  exact ⟨enough, proposed⟩

theorem Handled.locked {output : Output ν}
    (handled : Handled setting msg p after out) (sound : p.Sound)
    (here : p.currentHR = msg.basic.heightRound) (member : output ∈ out)
    (isFor : output.preCommitFor = some commit) :
    ∃ vote s state, msg = .preVote vote ∧ p.states.get? p.currentHR = some s ∧
      after = p.put p.currentHR state ∧ SameMessages (s.receive msg) state ∧
      commit.1 = p.currentHR ∧ LocksOn p.n s vote commit.2 := by
  cases handled with
  | decided isCommit _ reacting _ _ =>
    cases mem_append.mp member with
    | inl reacted =>
      have isVote := (reacting.locked reacted isFor).1
      rw [isCommit] at isVote
      cases isVote
    | inr last =>
      cases mem_pair.mp last with
      | inl isDecision =>
        rw [isDecision] at isFor
        cases isFor
      | inr isOpening =>
        rw [isOpening, preCommitFor_opening] at isFor
        cases isFor
  | @reacted s state _ found reacting =>
    obtain ⟨isVote, isHere, enough, proposal, proposed, isId⟩ := reacting.locked member isFor
    obtain ⟨-, fits, -, -⟩ := sound.records found
    have nextFits := fits.receive here.symm
    cases msg with
    | proposal _ | preCommit _ => cases isVote
    | preVote vote =>
      refine ⟨vote, s, state, rfl, found, rfl, reacting.sameMessages, isHere, ?_, proposal,
        proposed, isId⟩
      exact le_of_le_of_eq enough (nextFits.preVotes.card_voters _).symm

theorem Handled.justified (handled : Handled setting msg p after out)
    (sound : p.Sound) (here : p.currentHR = msg.basic.heightRound) (size : j.partner.n = p.n)
    (same : ∀ s, p.states.get? p.currentHR = some s →
      SameMessages (j.partner.record msg.basic.heightRound) s)
    (matching : Event.Matching j (.deliver setting msg)) :
    ∀ output ∈ out, after.Justifies output := by
  intro output member commit isFor
  obtain ⟨vote, s, state, rfl, found, rfl, stored, isHere, locks⟩ :=
    handled.locked sound here member isFor
  have before := same s found
  obtain ⟨enough, proposal, proposed, isId⟩ := locks.of_same before
  have matched := matching proposal proposed (size ▸ enough)
  have votersOf : (p.put p.currentHR state).preVoters commit.1 commit.2 =
      voters (·.sourceId) (fun vote => vote.idv = some (Proposal.getId proposal.value))
        ((j.partner.record vote.heightRound).receive (.preVote vote) :
          HeightRoundState ν).preVotes := by
    have sameVotes : state.preVotes = ((j.partner.record vote.heightRound).receive
        (.preVote vote) : HeightRoundState ν).preVotes :=
      stored.preVotes.trans
        (congrArg (List.set · vote.sourceId.toNat (some vote)) before.preVotes)
    rw [preVoters, isHere, get?_put_self, isId, ← sameVotes]
  rw [votersOf, put_n, ← size]
  exact matched

theorem Delivered.locked {output : Output ν}
    (delivered : Delivered setting msg p after out) (sound : p.Sound) (member : output ∈ out)
    (isFor : output.preCommitFor = some commit) :
    ∃ vote, msg = .preVote vote ∧ commit.1 = vote.heightRound ∧ p.currentHR ≤ vote.heightRound ∧
      LocksOn p.n (p.record vote.heightRound) vote commit.2 := by
  cases delivered with
  | dropped arrives _ => cases isFor.symm.trans (arrives.noPreCommit output member)
  | vote _ _ _ => cases member
  | proposal _ _ _ _ =>
    cases mem_singleton.mp member
    cases isFor
  | @handled between _ _ _ arrives here handled =>
    cases mem_append.mp member with
    | inl earlier => cases isFor.symm.trans (arrives.noPreCommit output earlier)
    | inr later =>
      obtain ⟨vote, s, state, rfl, found, -, -, isHere, locks⟩ :=
        handled.locked (arrives.sound sound) here later isFor
      rw [arrives.same.1] at locks
      exact ⟨vote, rfl, isHere.trans here, le_of_le_of_eq arrives.currentHR_le here,
        locks.of_same (arrives.sameMessages here found)⟩

theorem Delivered.justified (delivered : Delivered setting msg j.partner after out)
    (sound : j.partner.Sound) (matching : Event.Matching j (.deliver setting msg)) :
    ∀ output ∈ out, after.Justifies output := by
  cases delivered with
  | dropped arrives _ =>
    exact fun output member => justifies_of_none (arrives.noPreCommit output member)
  | vote _ _ _ => exact forall_mem_nil _
  | proposal _ _ _ _ => exact forall_mem_singleton.mpr nofun
  | handled arrives here handled =>
    refine forall_mem_append.mpr
      ⟨fun output member => justifies_of_none (arrives.noPreCommit output member), ?_⟩
    exact handled.justified (arrives.sound sound) here arrives.same.1.symm
      (fun s found => arrives.sameMessages here found) matching

theorem Expired.noPreCommit {around : Around ν} {context : TendermintContext}
    (expired : Expired around context p after out) : ∀ output ∈ out, output.preCommitFor = none := by
  cases expired with
  | ignored => exact forall_mem_nil _
  | advanced _ _ => exact forall_mem_singleton.mpr (preCommitFor_opening _ _ _)
  | reacted _ reacting =>
    intro output member
    cases isFor : output.preCommitFor with
    | none => rfl
    | some commit => cases (reacting.locked member isFor).1

end Partner

structure Event.Matched (j : Journal ν) (event : Event ν) : Prop extends event.Fair j where
  matching : event.Matching j

instance [DecidableEq ν] (j : Journal ν) (event : Event ν) : Decidable (event.Matched j) :=
  decidable_of_iff (event.Fair j ∧ event.Matching j)
    ⟨fun both => ⟨both.1, both.2⟩, fun matched => ⟨matched.toFair, matched.matching⟩⟩

theorem Journal.step_justified {n : Nat} {j next : Journal ν} {event : Event ν}
    {out : List (Output ν)} (kept : j.Kept n) (justified : j.PreCommitsJustified)
    (matched : event.Matched j) (stepped : j.step event = .ok (next, out)) :
    next.PreCommitsJustified := by
  obtain ⟨handled, extended⟩ := step_ok stepped
  unfold PreCommitsJustified
  rw [extended]
  refine forall_mem_append.mpr ⟨justified, forall_mem_singleton.mpr ?_⟩
  cases event with
  | deliver setting msg =>
    exact (handleMessage_cases kept.sound handled).justified kept.sound matched.matching
  | timeout around context =>
    have expired := onTimeout_cases kept.sound handled
    exact fun output member => justifies_of_none (expired.noPreCommit output member)

theorem preCommits_justified {n : Nat} {id : Int} {around : Around ν} {height : UInt64}
    {round : Int64} {start j : Journal ν} {out : List (Output ν)}
    (started : Journal.start n id around height round = .ok start)
    (run : Journal.Reaches Event.Matched start j out) : j.PreCommitsJustified := by
  have atStart : start.PreCommitsJustified := by
    obtain ⟨-, -, entries⟩ := Journal.start_ok started
    unfold Journal.PreCommitsJustified
    rw [entries]
    exact forall_mem_singleton.mpr (forall_mem_singleton.mpr
      (justifies_of_none (preCommitFor_opening _ _ _)))
  have both := (Journal.Kept.start started).run atStart (·.toFair) Journal.step_justified run
  exact both.2

def prevotesFor (idv : Hash) : List (Event Wire.Sequencer) :=
  [sampleProposal 0 ⟨4, 0⟩ 7, samplePreVote 0 ⟨4, 0⟩ (some idv), samplePreVote 1 ⟨4, 0⟩ (some idv),
    samplePreVote 2 ⟨4, 0⟩ (some idv)]

theorem preCommits_justified_proposal :
    ∃ j, Journal.replay Event.Matched 4 3 (.sample 9) 4 0 (prevotesFor 7) = some j ∧
      j.log.filterMap Output.preCommitFor = [(⟨4, 0⟩, 7)] ∧ j.PreCommitsJustified := by
  obtain ⟨j, replayed⟩ : ∃ j,
      Journal.replay Event.Matched 4 3 (.sample 9) 4 0 (prevotesFor 7) = some j :=
    Option.isSome_iff_exists.mp (by decide +kernel)
  obtain ⟨start, out, started, run⟩ := Journal.replay_reaches replayed
  have sent : (Journal.replay Event.Matched 4 3 (.sample 9) 4 0 (prevotesFor 7)).map
      (fun j => j.log.filterMap Output.preCommitFor) = some [(⟨4, 0⟩, 7)] := by
    decide +kernel
  rw [replayed] at sent
  exact ⟨j, replayed, Option.some.inj sent, preCommits_justified started run⟩

/-- Three prevotes for another value make the partner precommit the proposal. -/
theorem unmatched_preCommit :
    ∃ start j out, Journal.start 4 3 (.sample 9) 4 0 = .ok start ∧
      Journal.Reaches Event.Fair start j out ∧ ¬ j.PreCommitsJustified := by
  have unjustified : (Journal.replay Event.Fair 4 3 (.sample 9) 4 0 (prevotesFor 8)).map
      (fun j => decide j.PreCommitsJustified) = some false := by
    decide +kernel
  obtain ⟨j, replayed, isFalse⟩ := Option.map_eq_some_iff.mp unjustified
  obtain ⟨start, out, started, run⟩ := Journal.replay_reaches replayed
  exact ⟨start, j, out, started, run, of_decide_eq_false isFalse⟩

end AnnchainOG.Bft
