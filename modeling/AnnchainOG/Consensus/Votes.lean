import AnnchainOG.Consensus.Voter

/-!
# One vote of each kind in a round

A partner votes for a proposal of a round ahead each time it is delivered.
-/

namespace AnnchainOG.Bft

open List

variable {ν : Type}

def Output.vote : Output ν → Option (MessageType × HeightRound)
  | .send (.preVote vote) => some (.preVote, vote.heightRound)
  | .send (.preCommit commit) => some (.preCommit, commit.heightRound)
  | _ => none

/-- A proposal is not ahead, unless its source makes the partner catch up. -/
def Event.InTime (j : Journal ν) : Event ν → Prop
  | .deliver _ (.proposal msg) =>
    msg.heightRound ≤ j.partner.currentHR ∨
      j.partner.f < (j.partner.heard msg.toBasicMessage).sources.card
  | _ => True

structure Event.Timely (j : Journal ν) (event : Event ν) : Prop extends event.Fair j where
  inTime : event.InTime j

instance (j : Journal ν) : (event : Event ν) → Decidable (event.InTime j)
  | .deliver _ (.proposal _) => inferInstanceAs (Decidable (_ ∨ _))
  | .deliver _ (.preVote _) | .deliver _ (.preCommit _) | .timeout _ _ =>
    inferInstanceAs (Decidable True)

instance [DecidableEq ν] (j : Journal ν) (event : Event ν) : Decidable (event.Timely j) :=
  decidable_of_iff (event.Fair j ∧ event.InTime j)
    ⟨fun both => ⟨both.1, both.2⟩, fun timely => ⟨timely.toFair, timely.inTime⟩⟩

def StepType.Past (step : StepType) : MessageType → Prop
  | .preCommit => step = .preCommit
  | .preVote | .proposal => step ≠ .propose

/-- What a voter has sent: no vote twice, none ahead, and in its round only those of steps that
are over. -/
structure Voted (voter : Voter ν) (log : List (Output ν)) : Prop where
  once : (log.filterMap Output.vote).Nodup
  reached : ∀ vote ∈ log.filterMap Output.vote, vote.2 ≤ voter.heightRound
  past : ∀ vote ∈ log.filterMap Output.vote, vote.2 = voter.heightRound →
    voter.state.step.Past vote.1

namespace Voted

variable {voter after : Voter ν} {log out : List (Output ν)}

theorem silent (voted : Voted voter log) (noVote : out.filterMap Output.vote = [])
    (sameRound : after.heightRound = voter.heightRound)
    (sameStep : after.state.step = voter.state.step) : Voted after (log ++ out) := by
  constructor
  · rw [filterMap_append, noVote, append_nil]
    exact voted.once
  · rw [filterMap_append, noVote, append_nil, sameRound]
    exact voted.reached
  · rw [filterMap_append, noVote, append_nil, sameRound, sameStep]
    exact voted.past

theorem enter (voted : Voted voter log) (noVote : out.filterMap Output.vote = [])
    (later : voter.heightRound < after.heightRound) : Voted after (log ++ out) := by
  constructor
  · rw [filterMap_append, noVote, append_nil]
    exact voted.once
  · rw [filterMap_append, noVote, append_nil]
    exact fun vote member => le_trans (voted.reached vote member) (le_of_lt later)
  · rw [filterMap_append, noVote, append_nil]
    intro vote member isHere
    exact absurd (isHere ▸ voted.reached vote member) (not_le.mpr later)

theorem cast {kind : MessageType} (voted : Voted voter log)
    (isVote : out.filterMap Output.vote = [(kind, voter.heightRound)])
    (notYet : ¬ voter.state.step.Past kind) (sameRound : after.heightRound = voter.heightRound)
    (isPast : after.state.step.Past kind)
    (stays : ∀ other, voter.state.step.Past other → after.state.step.Past other) :
    Voted after (log ++ out) := by
  constructor
  · rw [filterMap_append, isVote]
    refine nodup_append'.mpr ⟨voted.once, nodup_singleton _, fun vote earlier isNew => ?_⟩
    cases mem_singleton.mp isNew
    exact notYet (voted.past _ earlier rfl)
  · rw [filterMap_append, isVote, sameRound]
    exact forall_mem_append.mpr ⟨voted.reached, forall_mem_singleton.mpr (le_refl _)⟩
  · rw [filterMap_append, isVote, sameRound]
    exact forall_mem_append.mpr ⟨fun vote earlier isHere => stays _ (voted.past vote earlier isHere),
      forall_mem_singleton.mpr fun _ => isPast⟩

end Voted

def Guard.inTime : Guard ν where
  offer _ _ := True
  ahead _ := False
  enter _ _ _ _ := True

theorem Event.Timely.allows {j : Journal ν} {event : Event ν} (timely : event.Timely j)
    (cur : HeightRoundState ν) : Guard.inTime.Allows j.partner cur event := by
  cases event with
  | timeout around context => exact fun _ => trivial
  | deliver setting msg =>
    refine ⟨fun _ _ => trivial, fun proposal isProposal later few => ?_, fun _ _ => trivial,
      fun _ => trivial, fun _ => trivial⟩
    subst isProposal
    cases timely.inTime with
    | inl reached => exact absurd later (not_lt.mpr reached)
    | inr many => exact absurd many (not_lt.mpr few)

variable [Proposal ν]

theorem Voted.moves {p : Partner ν} {cause : Cause} {voter after : Voter ν}
    {log out : List (Output ν)} (moves : Moves Guard.inTime p cause voter out after)
    (voted : Voted voter log) : Voted after (log ++ out) := by
  cases moves with
  | receive msg =>
    refine voted.silent rfl rfl ?_
    cases msg <;> rfl
  | ahead _ allowed => exact allowed.elim
  | decide _ _ => exact voted.silent rfl rfl rfl
  | wait later _ _ | propose _ later _ _ _ => exact voted.enter rfl later
  | react reacts _ =>
    cases reacts with
    | offer proposing _ | giveUp proposing =>
      refine voted.cast rfl (fun past => past proposing) rfl nofun fun other past => ?_
      cases other with
      | preCommit => cases proposing.symm.trans past
      | preVote | proposal => exact nofun
    | awaitPreVotes _ _ | accept _ _ _ _ | awaitPreCommits _ => exact voted.silent rfl rfl rfl
    | lock _ voting _ _ | abstain _ voting =>
      refine voted.cast rfl (fun past => nomatch voting.symm.trans past) rfl rfl
        fun other past => ?_
      cases other with
      | preCommit => rfl
      | preVote | proposal => exact nofun

/-- Where proposals come in time a partner sends no two votes of a kind in a round. -/
theorem votes_once {n : Nat} {id : Int} {around : Around ν} {height : UInt64} {round : Int64}
    {start j : Journal ν} {out : List (Output ν)}
    (started : Journal.start n id around height round = .ok start)
    (run : Journal.Reaches Event.Timely start j out) : (j.log.filterMap Output.vote).Nodup := by
  have atStart : start.Holds Voted := Journal.holds_start started
    (fun _ => ⟨nodup_nil, forall_mem_nil _, forall_mem_nil _⟩)
    (fun _ => ⟨nodup_nil, forall_mem_nil _, forall_mem_nil _⟩)
  obtain ⟨-, _, _, voted⟩ := (Journal.Kept.start started).run atStart (·.toFair)
    (fun kept holds timely stepped => holds.step kept timely.toFair stepped
      (fun cur _ => timely.allows cur) Voted.moves) run
  exact voted.once

def votedRound : Option (Journal Wire.Sequencer) :=
  Journal.replay Event.Timely 4 3 (.sample 9) 4 0
    [sampleProposal 0 ⟨4, 0⟩ 7, samplePreVote 0 ⟨4, 0⟩ (some 7), samplePreVote 1 ⟨4, 0⟩ (some 7),
      samplePreVote 2 ⟨4, 0⟩ (some 7)]

theorem votes_once_round :
    ∃ j, votedRound = some j ∧
      j.log.filterMap Output.vote = [(.preVote, ⟨4, 0⟩), (.preCommit, ⟨4, 0⟩)] ∧
      (j.log.filterMap Output.vote).Nodup := by
  have votes : votedRound.map (fun j => j.log.filterMap Output.vote) =
      some [(.preVote, ⟨4, 0⟩), (.preCommit, ⟨4, 0⟩)] := by
    decide +kernel
  obtain ⟨j, replayed, sent⟩ := Option.map_eq_some_iff.mp votes
  obtain ⟨start, out, started, run⟩ := Journal.replay_reaches replayed
  exact ⟨j, replayed, sent, votes_once started run⟩

/-- Two proposals for the next round: the partner votes for both. -/
theorem voted_twice_ahead :
    ∃ start j out, Journal.start 4 3 (.sample 9) 4 0 = .ok start ∧
      Journal.Reaches Event.Fair start j out ∧ ¬ (j.log.filterMap Output.vote).Nodup := by
  have votes : (Journal.replay Event.Fair 4 3 (.sample 9) 4 0
      [sampleProposal 1 ⟨4, 1⟩ 7, sampleProposal 1 ⟨4, 1⟩ 8]).map
        (fun j => j.log.filterMap Output.vote) =
      some [(.preVote, ⟨4, 1⟩), (.preVote, ⟨4, 1⟩)] := by
    decide +kernel
  obtain ⟨j, replayed, sent⟩ := Option.map_eq_some_iff.mp votes
  obtain ⟨start, out, started, run⟩ := Journal.replay_reaches replayed
  refine ⟨start, j, out, started, run, ?_⟩
  rw [sent]
  decide

end AnnchainOG.Bft
