import AnnchainOG.Consensus.Journal

/-!
# Decisions and the order of delivery

A partner evaluates its decision rule when it stores a precommit, not when it gets the proposal.
-/

namespace AnnchainOG.Bft

open Finset HeightRoundState List Option

open Proposal (getId)

variable {ν : Type}

/-!
## The outcome of a record
-/

variable (s : HeightRoundState ν)

namespace HeightRoundState

def committers (id : Hash) : Finset UInt16 :=
  voters (·.sourceId) (MessagePreCommit.counts (.byValue id)) s.preCommits

variable {n : Nat} {hr : HeightRound} {s : HeightRoundState ν} {id other : Hash}

theorem Fits.card_committers (fits : s.Fits n hr) (id : Hash) :
    (s.committers id).card = s.preCommitCount (.byValue id) :=
  fits.preCommits.card_voters _

theorem Fits.mem_committers_receive {commit : MessagePreCommit} {voter : UInt16}
    (fits : s.Fits n hr) (inRange : commit.sourceId.toNat < n) :
    voter ∈ (s.receive (.preCommit commit)).committers id ↔
      if voter = commit.sourceId then commit.idv = some id else voter ∈ s.committers id := by
  have replaced : voter ∈ voters (·.sourceId) (MessagePreCommit.counts (.byValue id))
      (s.preCommits.set commit.sourceId.toNat (some commit)) ↔
        if voter = commit.sourceId then MessagePreCommit.counts (.byValue id) commit = true
        else voter ∈ s.committers id :=
    fits.preCommits.placed.mem_voters_set (fun _ _ => UInt16.toNat_inj.mp)
      (by rwa [fits.preCommits.length])
  simp only [MessagePreCommit.counts, decide_eq_true_eq] at replaced
  exact replaced

end HeightRoundState

structure MessagePreCommit.For (n : Nat) (hr : HeightRound) (id : Hash)
    (commit : MessagePreCommit) : Prop where
  here : commit.heightRound = hr
  idv : commit.idv = some id
  inRange : commit.sourceId.toNat < n

namespace HeightRoundState

variable {held : MessageProposal ν}
variable {after : HeightRoundState ν}

def stored (commits : List MessagePreCommit) : HeightRoundState ν :=
  commits.foldl (fun state commit => state.receive (.preCommit commit)) s

variable {n : Nat} {hr : HeightRound} {s : HeightRoundState ν} {id other : Hash}
  {commit : MessagePreCommit} {commits : List MessagePreCommit}

theorem committers_receive (fits : s.Fits n hr) (isFor : commit.For n hr id) :
    (s.receive (.preCommit commit)).committers id = insert commit.sourceId (s.committers id) := by
  ext voter
  rw [fits.mem_committers_receive isFor.inRange, mem_insert]
  by_cases own : voter = commit.sourceId <;> simp [own, isFor.idv]

theorem committers_receive_other (fits : s.Fits n hr) (isFor : commit.For n hr id)
    (different : other ≠ id) :
    (s.receive (.preCommit commit)).committers other =
      (s.committers other).erase commit.sourceId := by
  ext voter
  rw [fits.mem_committers_receive isFor.inRange, mem_erase]
  by_cases own : voter = commit.sourceId <;> simp [own, isFor.idv, different.symm]

theorem Fits.stored (fits : s.Fits n hr) (allFor : ∀ commit ∈ commits, commit.For n hr id) :
    (s.stored commits).Fits n hr := by
  induction commits generalizing s with
  | nil => exact fits
  | cons commit rest ih =>
    obtain ⟨isFor, restFor⟩ := forall_mem_cons.mp allFor
    exact ih (fits.receive isFor.here) restFor

theorem committers_stored (fits : s.Fits n hr) (allFor : ∀ commit ∈ commits, commit.For n hr id) :
    (s.stored commits).committers id = (commits.map (·.sourceId)).toFinset ∪ s.committers id := by
  induction commits generalizing s with
  | nil => simp [HeightRoundState.stored]
  | cons commit rest ih =>
    obtain ⟨isFor, restFor⟩ := forall_mem_cons.mp allFor
    have received : (s.receive (.preCommit commit)).Fits n hr := fits.receive isFor.here
    have tail := ih received restFor
    rw [committers_receive fits isFor] at tail
    rw [List.map_cons, List.toFinset_cons, Finset.insert_union, ← Finset.union_insert]
    exact tail

variable [Proposal ν]

def outcome (n : Nat) : HeightRoundState ν → List (Message ν) → Option ν
  | _, [] => none
  | s, msg :: rest =>
    (if msg.type = .preCommit then (s.receive msg).settled n else none).or
      (outcome n (s.receive msg) rest)

theorem outcome_preCommit (rest : List (Message ν)) :
    s.outcome n (.preCommit commit :: rest) = ((s.receive (.preCommit commit)).settled n).or
        ((s.receive (.preCommit commit)).outcome n rest) := rfl

theorem outcome_of_ne {msg : Message ν} (notCommit : msg.type ≠ .preCommit)
    (rest : List (Message ν)) : s.outcome n (msg :: rest) = (s.receive msg).outcome n rest := by
  rw [outcome, if_neg notCommit, none_or]

theorem outcome_append (first rest : List (Message ν)) :
    s.outcome n (first ++ rest) =
      (s.outcome n first).or ((first.foldl receive s).outcome n rest) := by
  induction first generalizing s with
  | nil => simp [outcome]
  | cons msg more ih => simp [outcome, ih, Option.or_assoc]

theorem settled_congr (proposal : after.messageProposal = s.messageProposal)
    (preCommits : after.preCommits = s.preCommits) : after.settled n = s.settled n := by
  unfold settled preCommitCount
  rw [proposal, preCommits]

theorem outcome_congr {messages : List (Message ν)}
    (proposal : after.messageProposal = s.messageProposal)
    (preCommits : after.preCommits = s.preCommits) :
    after.outcome n messages = s.outcome n messages := by
  induction messages generalizing s after with
  | nil => rfl
  | cons msg rest ih =>
    have sameProposal : (after.receive msg).messageProposal = (s.receive msg).messageProposal := by
      cases msg <;> simp [receive, proposal]
    have sameCommits : (after.receive msg).preCommits = (s.receive msg).preCommits := by
      cases msg <;> simp [receive, preCommits]
    rw [outcome, outcome, settled_congr sameProposal sameCommits, ih sameProposal sameCommits]

/-!
## Precommits for one value
-/

theorem settled_none_iff (fits : s.Fits n hr) (proposed : s.messageProposal = some held) :
    s.settled n = none ↔ (s.committers (getId held.value)).card < majority n := by
  rw [settled, proposed, bind_some, fits.card_committers]
  split <;> simp <;> omega

theorem outcome_value {value : ν} (settled : s.outcome n (commits.map .preCommit) = some value) :
    ∃ held, s.messageProposal = some held ∧ held.value = value := by
  induction commits generalizing s with
  | nil => cases settled
  | cons commit rest ih =>
    rw [List.map_cons, outcome_preCommit] at settled
    cases now : (s.receive (.preCommit commit)).settled n with
    | none =>
      rw [now] at settled
      exact ih (s := s.receive (.preCommit commit)) settled
    | some first =>
      rw [now] at settled
      cases settled
      obtain ⟨held, proposed, -, isValue⟩ := settled_eq_some.mp now
      exact ⟨held, proposed, isValue⟩

theorem outcome_enough (fits : s.Fits n hr)
    (allFor : ∀ commit ∈ commits, commit.For n hr id) (nonempty : commits ≠ [])
    (proposed : s.messageProposal = some held) (same : getId held.value = id)
    (enough : majority n ≤ ((s.stored commits).committers id).card) :
    s.outcome n (commits.map .preCommit) = some held.value := by
  induction commits generalizing s with
  | nil => exact absurd rfl nonempty
  | cons commit rest ih =>
    obtain ⟨isFor, restFor⟩ := forall_mem_cons.mp allFor
    have received : (s.receive (.preCommit commit)).Fits n hr := fits.receive isFor.here
    rw [List.map_cons, outcome_preCommit]
    cases now : (s.receive (.preCommit commit)).settled n with
    | some value =>
      obtain ⟨_, isHeld, -, rfl⟩ := settled_eq_some.mp now
      cases proposed.symm.trans isHeld
      rfl
    | none =>
      have few := (settled_none_iff received proposed).mp now
      have more : rest ≠ [] := by
        rintro rfl
        rw [same] at few
        exact absurd enough (not_le.mpr few)
      exact ih received restFor more proposed enough

theorem outcome_other (fits : s.Fits n hr) (allFor : ∀ commit ∈ commits, commit.For n hr id)
    (proposed : s.messageProposal = some held) (different : getId held.value ≠ id) :
    s.outcome n (commits.map .preCommit) = none ↔ ∀ first ∈ commits.head?,
        ((s.committers (getId held.value)).erase first.sourceId).card < majority n := by
  induction commits generalizing s with
  | nil => simp [outcome]
  | cons commit rest ih =>
    obtain ⟨isFor, restFor⟩ := forall_mem_cons.mp allFor
    have received : (s.receive (.preCommit commit)).Fits n hr := fits.receive isFor.here
    have unsettled := settled_none_iff received proposed
    rw [committers_receive_other fits isFor different] at unsettled
    have restNone (few : ((s.committers (getId held.value)).erase
        commit.sourceId).card < majority n) :
        (s.receive (.preCommit commit)).outcome n (rest.map .preCommit) = none := by
      refine (ih received restFor proposed).mpr fun next _ => ?_
      rw [committers_receive_other fits isFor different]
      exact lt_of_le_of_lt (card_le_card (erase_subset _ _)) few
    rw [List.map_cons, outcome_preCommit, Option.or_eq_none_iff, unsettled]
    simpa using restNone

/-- The record holds the value, or a precommit is left for after the proposal and those before it
settle nothing else. -/
def Receptive (n : Nat) (s : HeightRoundState ν) (value : ν)
    (before after : List MessagePreCommit) : Prop :=
  (∃ held, s.messageProposal = some held ∧ Proposal.getId held.value = Proposal.getId value) ∨
    after ≠ [] ∧ ∀ held, s.messageProposal = some held → ∀ first ∈ before.head?,
      ((s.committers (Proposal.getId held.value)).erase first.sourceId).card < majority n

section Receptive

variable {value : ν} {before after : List MessagePreCommit}

theorem receptive_of_settled {held : MessageProposal ν} (fits : s.Fits n hr)
    (beforeFor : ∀ commit ∈ before, commit.For n hr (getId value))
    (proposed : s.messageProposal = some held)
    (decided : s.outcome n (before.map .preCommit) = some held.value) :
    s.Receptive n value before after ↔ getId held.value = getId value := by
  constructor
  · intro receptive
    by_contra different
    have unsettled := outcome_other fits beforeFor proposed different
    rw [decided] at unsettled
    cases receptive with
    | inl holds =>
      obtain ⟨_, isHeld, same⟩ := holds
      cases proposed.symm.trans isHeld
      exact different same
    | inr waiting => cases unsettled.mpr (waiting.2 held proposed)
  · intro same
    exact .inl ⟨held, proposed, same⟩

theorem receptive_of_unsettled (fits : s.Fits n hr)
    (beforeFor : ∀ commit ∈ before, commit.For n hr (getId value))
    (enough : majority n ≤ ((before ++ after).map (·.sourceId)).toFinset.card)
    (undecided : s.outcome n (before.map .preCommit) = none) :
    s.Receptive n value before after ↔ after ≠ [] := by
  constructor
  · intro receptive none_
    cases receptive with
    | inr waiting => exact waiting.1 none_
    | inl holds =>
      -- All the precommits came before the proposal, and the last of them decides.
      obtain ⟨held, proposed, same⟩ := holds
      rw [none_, append_nil] at enough
      have nonempty : before ≠ [] := by
        intro noneBefore
        rw [noneBefore] at enough
        exact absurd (majority_pos n) (not_lt.mpr enough)
      have stored : majority n ≤ ((s.stored before).committers (getId value)).card := by
        rw [committers_stored fits beforeFor]
        exact enough.trans (card_le_card subset_union_left)
      have decided := outcome_enough fits beforeFor nonempty proposed same stored
      cases undecided.symm.trans decided
  · intro nonempty
    by_cases holds : ∃ held, s.messageProposal = some held ∧
        getId held.value = getId value
    · exact .inl holds
    refine .inr ⟨nonempty, fun held proposed => ?_⟩
    exact (outcome_other fits beforeFor proposed fun same => holds ⟨held, proposed, same⟩).mp
      undecided

theorem outcome_iff {proposal : MessageProposal ν} (fits : s.Fits n hr)
    (allFor : ∀ commit ∈ before ++ after, commit.For n hr (getId proposal.value))
    (enough : majority n ≤ ((before ++ after).map (·.sourceId)).toFinset.card) :
    (∃ value, s.outcome n (before.map .preCommit ++ .proposal proposal :: after.map .preCommit) =
        some value ∧ getId value = getId proposal.value) ↔
      s.Receptive n proposal.value before after := by
  obtain ⟨beforeFor, afterFor⟩ := forall_mem_append.mp allFor
  have notCommit : (Message.proposal proposal).type ≠ .preCommit := nofun
  have received : (before.map .preCommit).foldl receive s = s.stored before := foldl_map
  rw [outcome_append, outcome_of_ne notCommit, received]
  cases decided : s.outcome n (before.map .preCommit) with
  | some value =>
    obtain ⟨held, proposed, rfl⟩ := outcome_value decided
    rw [receptive_of_settled fits beforeFor proposed decided, some_or]
    simp
  | none =>
    rw [receptive_of_unsettled fits beforeFor enough decided, none_or]
    constructor
    · intro isFor none_
      obtain ⟨_, later, -⟩ := isFor
      rw [none_] at later
      cases later
    · intro nonempty
      have beforeFits := fits.stored beforeFor
      have laterFits : ((s.stored before).receive (.proposal proposal)).Fits n hr :=
        ⟨beforeFits.preVotes, beforeFits.preCommits⟩
      have earlier : ((s.stored before).receive (.proposal proposal)).committers
          (getId proposal.value) = _ := committers_stored fits beforeFor
      rw [map_append, toFinset_append, union_comm] at enough
      refine ⟨_, outcome_enough laterFits afterFor nonempty rfl rfl (enough.trans ?_), rfl⟩
      rw [committers_stored laterFits afterFor, earlier]
      exact card_le_card (union_subset_union_right subset_union_left)

end Receptive

end HeightRoundState

/-!
## The first decision of a partner
-/

def Output.decision : Output ν → Option (HeightRound × ν)
  | .decided _ hr state _ => state.decision.map fun value => (hr, value)
  | _ => none

theorem Reacting.noDecision [Proposal ν] {n : Nat} {me : BasicMessage} {cause : Cause}
    {s after : HeightRoundState ν} {out : List (Output ν)}
    (reacting : Reacting n me cause s out after) : out.findSome? Output.decision = none := by
  induction reacting with
  | done => rfl
  | next reacts _ ih =>
    rw [findSome?_append, ih]
    cases reacts <;> rfl

namespace Partner

variable [Proposal ν]

def firstDecision : Partner ν → List (Setting ν × Message ν) →
    Except Panic (Option (HeightRound × ν))
  | _, [] => .ok none
  | p, (setting, msg) :: rest =>
    match handleMessage setting msg p with
    | .error panic => .error panic
    | .ok (after, out) =>
      match out.findSome? Output.decision with
      | some decision => .ok (some decision)
      | none => after.firstDecision rest

variable {p : Partner ν} {s : HeightRoundState ν}

theorem firstDecision_eq {messages : List (Setting ν × Message ν)} (sound : p.Sound)
    (found : p.states.get? p.currentHR = some s)
    (here : ∀ delivery ∈ messages, p.currentHR = delivery.2.basic.heightRound)
    (inRange : ∀ delivery ∈ messages, delivery.2.InRange p.n) :
    p.firstDecision messages =
      .ok ((s.outcome p.n (messages.map (·.2))).map fun value => (p.currentHR, value)) := by
  induction messages generalizing p s with
  | nil => rfl
  | cons delivery rest ih =>
    obtain ⟨setting, msg⟩ := delivery
    obtain ⟨msgHere, restHere⟩ := forall_mem_cons.mp here
    obtain ⟨msgInRange, restInRange⟩ := forall_mem_cons.mp inRange
    have goOn {after : HeightRoundState ν} {out : List (Output ν)} {cause : Cause}
        (reacting : Reacting p.n (p.basicMessage p.currentHR) cause (s.receive msg) out after) :
        (p.put p.currentHR after).firstDecision rest =
          .ok (((s.receive msg).outcome p.n (rest.map (·.2))).map
            fun value => (p.currentHR, value)) := by
      have same := reacting.sameMessages
      have decided := ih (sound.reacted msgHere found reacting) get?_put_self restHere restInRange
      rw [decided, put_n, outcome_congr same.messageProposal same.preCommits]
      rfl
    rw [firstDecision, handleMessage_current setting sound msgHere, List.map_cons]
    by_cases isCommit : msg.type = .preCommit
    · cases msg with
      | proposal _ | preVote _ => cases isCommit
      | preCommit commit =>
        obtain ⟨after, out, reacting, success⟩ :=
          handlePreCommit_here setting sound msgHere (msgInRange nofun) found
        have same := reacting.sameMessages
        have settledSame := settled_congr (n := p.n) same.messageProposal
          same.preCommits
        rw [success, outcome_preCommit, ← settledSame]
        cases after.settled p.n with
        | none =>
          dsimp only
          rw [reacting.noDecision, goOn reacting]
          rfl
        | some value =>
          dsimp only
          rw [findSome?_append, reacting.noDecision]
          rfl
    · obtain ⟨after, out, success, handled⟩ := handleNeeded_here setting sound msgHere msgInRange
      rw [success, outcome_of_ne isCommit]
      cases handled with
      | decided commits _ _ _ _ => exact absurd commits isCommit
      | reacted foundHere reacting =>
        cases found.symm.trans foundHere
        dsimp only
        rw [reacting.noDecision, goOn reacting]

def delivery (setting : Setting ν) (proposal : MessageProposal ν)
    (before after : List (Setting ν × MessagePreCommit)) : List (Setting ν × Message ν) :=
  before.map (fun given => (given.1, .preCommit given.2)) ++ (setting, .proposal proposal) ::
    after.map fun given => (given.1, .preCommit given.2)

/-- With the proposal of its round and a majority of precommits for it, a partner decides on it
exactly if its record is receptive for their order. -/
theorem decided_first_iff (p : Partner ν) (sound : p.Sound) (setting : Setting ν)
    (proposal : MessageProposal ν) (before after : List (Setting ν × MessagePreCommit))
    (here : proposal.heightRound = p.currentHR) (allFor : ∀ commit ∈ (before ++ after).map (·.2),
      commit.For p.n p.currentHR (Proposal.getId proposal.value))
    (enough : majority p.n ≤ ((before ++ after).map (·.2.sourceId)).toFinset.card) :
    (∃ value, p.firstDecision (delivery setting proposal before after) =
        .ok (some (p.currentHR, value)) ∧ Proposal.getId value = Proposal.getId proposal.value) ↔
      (p.record p.currentHR).Receptive p.n proposal.value (before.map (·.2)) (after.map (·.2)) := by
  obtain ⟨s, found⟩ := sound.current
  obtain ⟨-, fits, -, -⟩ := sound.records found
  have messages : (delivery setting proposal before after).map (·.2) =
      (before.map (·.2)).map .preCommit ++ .proposal proposal ::
        (after.map (·.2)).map .preCommit := by
    simp [delivery, Function.comp_def]
  have inRound : ∀ given ∈ delivery setting proposal before after,
      p.currentHR = given.2.basic.heightRound ∧ given.2.InRange p.n := by
    have commits {given : Setting ν × MessagePreCommit} (member : given ∈ before ++ after) :
        p.currentHR = given.2.heightRound ∧ given.2.sourceId.toNat < p.n := by
      have isFor := allFor given.2 (mem_map_of_mem member)
      exact ⟨isFor.here.symm, isFor.inRange⟩
    intro given member
    simp only [delivery, List.mem_append, List.mem_map, List.mem_cons] at member
    obtain ⟨commit, earlier, rfl⟩ | rfl | ⟨commit, later, rfl⟩ := member
    · obtain ⟨isHere, inRange⟩ := commits (List.mem_append_left _ earlier)
      exact ⟨isHere, fun _ => inRange⟩
    · exact ⟨here.symm, fun isVote => absurd rfl isVote⟩
    · obtain ⟨isHere, inRange⟩ := commits (mem_append_right _ later)
      exact ⟨isHere, fun _ => inRange⟩
  rw [firstDecision_eq sound found (fun given member => (inRound given member).1)
    (fun given member => (inRound given member).2), messages, record_of_get? found]
  rw [map_append] at allFor enough
  rw [← outcome_iff fits allFor (by simpa [Function.comp_def] using enough)]
  simp

def fourth : Partner Wire.Sequencer := entered ⟨3, 4, ⟨0, 0⟩, ∅⟩ ⟨4, 0⟩

def fourthProposal : MessageProposal Wire.Sequencer := ⟨⟨0, ⟨4, 0⟩⟩, sampleSequencer 7, -1, []⟩

def fourthCommits (sources : List UInt16) : List (Setting Wire.Sequencer × MessagePreCommit) :=
  sources.map fun source => (.sample, ⟨⟨source, ⟨4, 0⟩⟩, some 7, [], [], []⟩)

theorem fourthCommits_for (sources : List UInt16) (inRange : sources.all (·.toNat < 4) = true) :
    ∀ commit ∈ (fourthCommits sources).map (·.2), commit.For 4 ⟨4, 0⟩ 7 := by
  intro commit member
  simp only [fourthCommits, List.map_map, List.mem_map, Function.comp_apply] at member
  obtain ⟨source, isSource, rfl⟩ := member
  exact ⟨rfl, rfl, of_decide_eq_true (List.all_eq_true.mp inRange source isSource)⟩

theorem decided_first_fourth :
    ∃ value, fourth.firstDecision
        (delivery .sample fourthProposal (fourthCommits [0, 1]) (fourthCommits [2])) =
        .ok (some (⟨4, 0⟩, value)) ∧ Proposal.getId value = 7 := by
  refine (decided_first_iff fourth (sound_first (by decide) _ _ _) .sample fourthProposal
    (fourthCommits [0, 1]) (fourthCommits [2]) rfl (fourthCommits_for [0, 1, 2] (by decide))
    (by decide +kernel)).mpr (.inr ⟨nofun, ?_⟩)
  intro held proposed
  have nothing : (fourth.record ⟨4, 0⟩).messageProposal = none := by decide +kernel
  cases nothing.symm.trans proposed

theorem undecided_proposal_last :
    (∃ j, Journal.start 4 3 (Around.sample 9) 4 0 = .ok j ∧ j.partner = fourth) ∧
      (∀ commit ∈ (fourthCommits [0, 1, 2]).map (·.2),
        commit.For 4 ⟨4, 0⟩ (Proposal.getId fourthProposal.value)) ∧
      majority 4 ≤ ((fourthCommits [0, 1, 2]).map (·.2.sourceId)).toFinset.card ∧
      fourth.firstDecision (delivery .sample fourthProposal (fourthCommits [0, 1, 2]) []) =
        .ok none := by
  refine ⟨⟨_, rfl, rfl⟩, fourthCommits_for [0, 1, 2] (by decide), by decide +kernel, ?_⟩
  decide +kernel

end Partner

/-!
## The shares of a decision
-/

namespace HeightRoundState

section Shares

variable [Proposal ν] {s : HeightRoundState ν} {sigShares : List Bytes} {id : Hash}

def recoverArguments (s : HeightRoundState ν) : Option (List Bytes × Hash) :=
  s.decision.map fun value =>
    (s.preCommits.reduceOption.map (·.blsSignature), Proposal.getId value)

def sharesFor (s : HeightRoundState ν) (id : Hash) : List Bytes :=
  (s.preCommits.reduceOption.filter (·.idv = some id)).map (·.blsSignature)

theorem shares_matching_iff (decided : s.recoverArguments = some (sigShares, id)) :
    sigShares = s.sharesFor id ↔ ∀ commit, some commit ∈ s.preCommits → commit.idv = some id := by
  obtain ⟨value, -, isHanded⟩ := map_eq_some_iff.mp decided
  cases isHanded
  simp only [← reduceOption_mem_iff]
  constructor
  · intro same commit stored
    have sameLength := congrArg List.length same
    rw [sharesFor, length_map, length_map] at sameLength
    exact of_decide_eq_true (length_filter_eq_length_iff.mp sameLength.symm commit stored)
  · intro allMatch
    rw [sharesFor, filter_eq_self.mpr fun commit stored => decide_eq_true (allMatch commit stored)]

end Shares

end HeightRoundState

def committed (source : UInt16) (idv : Option Hash) : MessagePreCommit :=
  ⟨⟨source, ⟨4, 0⟩⟩, idv, [source.toUInt8], [], []⟩

def decidedShares (j : Journal Wire.Sequencer) : List (List Bytes × List Bytes) :=
  j.log.filterMap fun output =>
    match output with
    | .decided _ _ state _ => state.recoverArguments.map fun handed =>
        (handed.1, state.sharesFor handed.2)
    | .send _ | .wait _ => none

theorem shares_matching_two :
    let s := { newHeightRoundState 2 with
      decision := some (sampleSequencer 7)
      preCommits := [some (committed 0 (some 7)), some (committed 1 (some 7))] }
    s.recoverArguments = some ([[0], [1]], 7) ∧ s.sharesFor 7 = [[0], [1]] := by
  refine ⟨rfl, ((shares_matching_iff rfl).mpr ?_).symm⟩
  simp [committed]

/-- Partner 3 commits to nothing, and its share is handed over as well. -/
theorem shares_of_nil_precommit :
    ∃ start j out, Journal.start 4 3 (.sample 9) 4 0 = .ok start ∧
      Journal.Reaches Event.Fair start j out ∧
      decidedShares j = [([[0], [1], [2], [3]], [[0], [1], [2]])] := by
  have handed : (Journal.replay Event.Fair 4 3 (.sample 9) 4 0
      (sampleProposal 0 ⟨4, 0⟩ 7 :: [committed 3 none, committed 0 (some 7), committed 1 (some 7),
        committed 2 (some 7)].map fun commit => .deliver .sample (.preCommit commit))).map
      decidedShares = some [([[0], [1], [2], [3]], [[0], [1], [2]])] := by
    decide +kernel
  obtain ⟨j, replayed, isHanded⟩ := map_eq_some_iff.mp handed
  obtain ⟨start, out, started, run⟩ := Journal.replay_reaches replayed
  exact ⟨start, j, out, started, run, isHanded⟩

end AnnchainOG.Bft
