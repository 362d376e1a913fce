import AnnchainOG.Consensus.Decisions
import AnnchainOG.Consensus.Locks

/-!
# Agreement

Two decisions of a height share an honest partner, so they agree if no honest partner precommits two
values at it. The lost locks do not ensure that.
-/

namespace AnnchainOG.Bft

open List

variable {ν : Type}

/-!
## Stored precommits
-/

section Stored

variable {P Q : MessagePreCommit → Prop}
variable {n : Nat} {output : Output ν} (P)

def HeightRoundState.Stores (s : HeightRoundState ν) : Prop :=
  ∀ commit, some commit ∈ s.preCommits → P commit

def Partner.Stores (p : Partner ν) : Prop :=
  ∀ hr s, p.states.get? hr = some s → s.Stores P

def Output.Stores (n : Nat) (P : MessagePreCommit → Prop) : Output ν → Prop
  | .decided _ hr s _ => s.Fits n hr ∧ s.Stores P
  | _ => True

variable {P}

theorem Output.Plain.stores (plain : output.Plain) : output.Stores n P := by
  cases output with
  | send _ | wait _ => trivial
  | decided _ _ _ _ => exact plain.elim

theorem Output.Stores.mono (stores : output.Stores n P)
    (implied : ∀ commit, P commit → Q commit) : output.Stores n Q := by
  cases output with
  | send _ | wait _ => trivial
  | decided _ _ _ _ => exact ⟨stores.1, fun commit member => implied commit (stores.2 commit member)⟩

variable (P)

def Message.Provides : Message ν → Prop
  | .preCommit commit => P commit
  | _ => True

variable {P}

namespace HeightRoundState

variable {s after : HeightRoundState ν} {msg : Message ν}

theorem newHeightRoundState_stores (n : Nat) :
    (newHeightRoundState n : HeightRoundState ν).Stores P := by
  intro commit member
  cases eq_of_mem_replicate member

theorem Stores.receive (stores : s.Stores P) (provides : msg.Provides P) :
    (s.receive msg).Stores P := by
  cases msg with
  | proposal _ | preVote _ => exact stores
  | preCommit _ => exact forall_set stores provides

theorem Stores.mono (stores : s.Stores P) (implied : ∀ commit, P commit → Q commit) : s.Stores Q :=
  fun commit member => implied commit (stores commit member)

theorem Stores.same [Proposal ν] (stores : s.Stores P) (same : SameMessages s after) :
    after.Stores P := by
  unfold Stores
  rw [same.preCommits]
  exact stores

end HeightRoundState

namespace Partner

variable {p after : Partner ν} {hr : HeightRound} {s : HeightRoundState ν} {msg : Message ν}
  {out : List (Output ν)}
variable {around : Around ν}

theorem Stores.put (stores : p.Stores P) (here : s.Stores P) : (p.put hr s).Stores P := by
  intro other state found
  rw [get?_put] at found
  split at found
  · cases found
    exact here
  · exact stores other state found

theorem Stores.record (stores : p.Stores P) (hr : HeightRound) : (p.record hr).Stores P := by
  cases found : p.states.get? hr with
  | none =>
    rw [Partner.record, found]
    exact HeightRoundState.newHeightRoundState_stores p.n
  | some s =>
    rw [record_of_get? found]
    exact stores hr s found

theorem Stores.entered (stores : p.Stores P) (hr : HeightRound) : (p.entered hr).Stores P := by
  intro other state found
  rw [get?_entered] at found
  split at found
  · cases found
    exact stores.record hr
  split at found
  · cases found
  · exact stores other state found

theorem Arrives.stores {message : BasicMessage}
    (arrives : Arrives around message p after out) (stores : p.Stores P) : after.Stores P := by
  have heard : (p.heard message).Stores P := stores.record message.heightRound
  cases arrives with
  | here _ => exact stores
  | ahead _ _ => exact stores.put heard
  | catchUp _ _ => exact (stores.put heard).entered _

variable [Proposal ν] {setting : Setting ν}

theorem Handled.stores (handled : Handled setting msg p after out) (sound : p.Sound)
    (here : p.currentHR = msg.basic.heightRound) (bounded : msg.basic.heightRound.Bounded)
    (stores : p.Stores P) (provides : msg.Provides P) :
    after.Stores P ∧ ∀ output ∈ out, output.Stores p.n P := by
  rw [← here] at bounded
  cases handled with
  | @reacted s state _ found reacting =>
    have stored : state.Stores P := ((stores _ _ found).receive provides).same reacting.sameMessages
    exact ⟨stores.put stored, fun output member =>
      (reacting.plain (fun _ => bounded) output member).stores⟩
  | @decided s state quiet proposal _ found reacting _ _ =>
    obtain ⟨-, fits, -, -⟩ := sound.records found
    have stateFits := reacting.sameMessages.fits (fits.receive here.symm)
    have stored : state.Stores P := ((stores _ _ found).receive provides).same reacting.sameMessages
    have decided : (state.decide proposal.value).Stores P := stored
    refine ⟨Stores.entered (stores.put decided) _, forall_mem_append.mpr ⟨?_, ?_⟩⟩
    · exact fun output member => (reacting.plain (fun _ => bounded) output member).stores
    · refine forall_mem_cons.mpr ⟨⟨⟨stateFits.preVotes, stateFits.preCommits⟩, decided⟩, ?_⟩
      exact forall_mem_singleton.mpr (opening_plain _ _ _).stores

theorem Delivered.stores (delivered : Delivered setting msg p after out) (sound : p.Sound)
    (bounded : msg.basic.heightRound.Bounded) (stores : p.Stores P) (provides : msg.Provides P) :
    after.Stores P ∧ ∀ output ∈ out, output.Stores p.n P := by
  have heard : (p.heard msg.basic).Stores P := stores.record msg.basic.heightRound
  cases delivered with
  | dropped arrives _ =>
    exact ⟨arrives.stores stores, fun output member => (arrives.plain output member).stores⟩
  | vote _ _ _ => exact ⟨stores.put (heard.receive provides), forall_mem_nil _⟩
  | @proposal proposal cur isProposal _ _ found =>
    subst isProposal
    have here : cur.Stores P := stores _ _ found
    exact ⟨Stores.put (stores.put (heard.receive provides)) here,
      forall_mem_singleton.mpr trivial⟩
  | handled arrives here handled =>
    have rest := handled.stores (arrives.sound sound) here bounded (arrives.stores stores) provides
    rw [arrives.same.1] at rest
    exact ⟨rest.1, forall_mem_append.mpr
      ⟨fun output member => (arrives.plain output member).stores, rest.2⟩⟩

theorem Expired.stores {context : TendermintContext}
    (expired : Expired around context p after out) (stores : p.Stores P) :
    after.Stores P ∧ ∀ output ∈ out, output.Stores p.n P := by
  cases expired with
  | ignored => exact ⟨stores, forall_mem_nil _⟩
  | @reacted s state _ found reacting =>
    have stored : state.Stores P := (stores _ _ found).same reacting.sameMessages
    exact ⟨stores.put stored, fun output member => (reacting.plain nofun output member).stores⟩
  | advanced _ _ =>
    exact ⟨stores.entered _, forall_mem_singleton.mpr (opening_plain _ _ _).stores⟩

end Partner

end Stored

/-!
## Precommits for values
-/

section Commits

def Journal.Unanimous (j : Journal ν) : Prop :=
  ∀ one ∈ j.log.filterMap Output.preCommitFor, ∀ two ∈ j.log.filterMap Output.preCommitFor,
    one.1.height = two.1.height → one.2 = two.2

/-- The voter has precommitted at most one value in a round. -/
structure Committed (voter : Voter ν) (log : List (Output ν)) : Prop where
  once : ((log.filterMap Output.preCommitFor).map (·.1)).Nodup
  reached : ∀ commit ∈ log.filterMap Output.preCommitFor, commit.1 ≤ voter.heightRound
  accepted : ∀ commit ∈ log.filterMap Output.preCommitFor, commit.1 = voter.heightRound →
    voter.state.stepTypeEqualOrLargerPreVoteTriggered = true

variable {voter after : Voter ν} {log out : List (Output ν)}

theorem Committed.silent (committed : Committed voter log)
    (noCommit : out.filterMap Output.preCommitFor = [])
    (sameRound : after.heightRound = voter.heightRound)
    (stays : voter.state.stepTypeEqualOrLargerPreVoteTriggered = true →
      after.state.stepTypeEqualOrLargerPreVoteTriggered = true) : Committed after (log ++ out) := by
  constructor <;> rw [filterMap_append, noCommit, append_nil]
  · exact committed.once
  · rw [sameRound]
    exact committed.reached
  · rw [sameRound]
    exact fun commit member isHere => stays (committed.accepted commit member isHere)

theorem Committed.enter (committed : Committed voter log)
    (noCommit : out.filterMap Output.preCommitFor = [])
    (later : voter.heightRound < after.heightRound) : Committed after (log ++ out) := by
  constructor <;> rw [filterMap_append, noCommit, append_nil]
  · exact committed.once
  · exact fun commit member => le_trans (committed.reached commit member) (le_of_lt later)
  · intro commit member isHere
    exact absurd (isHere ▸ committed.reached commit member) (not_le.mpr later)

theorem Committed.lock {id : Hash} (committed : Committed voter log)
    (isCommit : out.filterMap Output.preCommitFor = [(voter.heightRound, id)])
    (first : voter.state.stepTypeEqualOrLargerPreVoteTriggered = false)
    (sameRound : after.heightRound = voter.heightRound)
    (accepted : after.state.stepTypeEqualOrLargerPreVoteTriggered = true) :
    Committed after (log ++ out) := by
  constructor <;> rw [filterMap_append, isCommit]
  · rw [map_append]
    refine nodup_append'.mpr ⟨committed.once, nodup_singleton _, fun hr earlier isNew => ?_⟩
    obtain ⟨commit, member, isRound⟩ := mem_map.mp earlier
    have isHere := isRound.trans (mem_singleton.mp isNew)
    cases first.symm.trans (committed.accepted commit member isHere)
  · rw [sameRound]
    exact forall_mem_append.mpr
      ⟨committed.reached, forall_mem_singleton.mpr (le_refl _)⟩
  · exact fun _ _ _ => accepted

def Guard.none : Guard ν where
  offer _ _ := True
  ahead _ := True
  enter _ _ _ _ := True

theorem Guard.none_allows (p : Partner ν) (cur : HeightRoundState ν) (event : Event ν) :
    Guard.none.Allows p cur event := by
  cases event with
  | timeout _ _ => exact fun _ => trivial
  | deliver _ _ =>
    exact ⟨fun _ _ => trivial, fun _ _ _ _ => trivial, fun _ _ => trivial, fun _ => trivial,
      fun _ => trivial⟩

variable [Proposal ν]

theorem Committed.moves {p : Partner ν} {cause : Cause}
    (moves : Moves Guard.none p cause voter out after) (committed : Committed voter log) :
    Committed after (log ++ out) := by
  cases moves with
  | receive msg =>
    refine committed.silent rfl rfl fun isSet => ?_
    cases msg <;> exact isSet
  | ahead _ _ | decide _ _ => exact committed.silent rfl rfl id
  | wait later _ _ | propose _ later _ _ _ => exact committed.enter rfl later
  | react reacts _ =>
    cases reacts with
    | offer _ _ | giveUp _ | awaitPreVotes _ _ | abstain _ _ | awaitPreCommits _ =>
      exact committed.silent rfl rfl id
    | accept _ _ _ _ => exact committed.silent rfl rfl fun _ => rfl
    | lock _ _ first _ => exact committed.lock rfl first rfl rfl

/-- The proposal held with enough prevotes has the id precommitted in earlier rounds. -/
def Event.Keeps (j : Journal ν) : Event ν → Prop
  | .deliver _ (.preVote vote) =>
    ∀ proposal ∈ (j.partner.record vote.heightRound).messageProposal,
      majority j.partner.n ≤ (voters (·.sourceId) (fun _ => true)
        ((j.partner.record vote.heightRound).receive (.preVote vote) :
          HeightRoundState ν).preVotes).card →
      j.Repeats vote.heightRound (Proposal.getId proposal.value)
  | _ => True

instance (j : Journal ν) : (event : Event ν) → Decidable (event.Keeps j)
  | .deliver _ (.preVote vote) => inferInstanceAs (Decidable (∀ proposal ∈
      (j.partner.record vote.heightRound).messageProposal, _ → ∀ commit ∈
        j.log.filterMap Output.preCommitFor, vote.heightRound.height = commit.1.height →
          commit.1.round < vote.heightRound.round → _ = _))
  | .deliver _ (.proposal _) | .deliver _ (.preCommit _) | .timeout _ _ =>
    inferInstanceAs (Decidable True)

variable {n : Nat} {j next : Journal ν} {event : Event ν}

theorem Journal.step_preCommits (kept : j.Kept n) (keeps : event.Keeps j)
    (handled : Partner.handle event j.partner = .ok (next.partner, out)) :
    ∃ hr, ∀ commit ∈ out.filterMap Output.preCommitFor,
      commit.1 = hr ∧ j.partner.currentHR ≤ commit.1 ∧ j.Repeats commit.1 commit.2 := by
  cases event with
  | timeout around context =>
    refine ⟨context.heightRound, fun commit member => ?_⟩
    obtain ⟨output, isOutput, isFor⟩ := mem_filterMap.mp member
    cases (Partner.onTimeout_cases kept.sound handled).noPreCommit output isOutput ▸ isFor
  | deliver setting msg =>
    refine ⟨msg.basic.heightRound, fun commit member => ?_⟩
    obtain ⟨output, isOutput, isFor⟩ := mem_filterMap.mp member
    obtain ⟨vote, rfl, isHere, notBefore, enough, proposal, proposed, isId⟩ :=
      (Partner.handleMessage_cases kept.sound handled).locked kept.sound isOutput isFor
    rw [isHere, isId]
    exact ⟨rfl, notBefore, keeps proposal proposed enough⟩

theorem Journal.Unanimous.step (unanimous : j.Unanimous) (kept : j.Kept n)
    (committed : j.Holds Committed) (after : next.Holds Committed) (keeps : event.Keeps j)
    (stepped : j.step event = .ok (next, out)) : next.Unanimous := by
  obtain ⟨handled, extended⟩ := step_ok stepped
  obtain ⟨hr, isNew⟩ := step_preCommits kept keeps handled
  obtain ⟨_, _, committed⟩ := committed
  obtain ⟨_, _, after⟩ := after
  have once := after.once
  rw [log_of_entries extended, filterMap_append, map_append] at once
  obtain ⟨-, newOnce, apart⟩ := nodup_append'.mp once
  -- A new precommit is in a later round than the earlier ones.
  have oldNew : ∀ one ∈ j.log.filterMap Output.preCommitFor,
      ∀ two ∈ out.filterMap Output.preCommitFor, one.1.height = two.1.height → one.2 = two.2 := by
    intro one earlier two later sameHeight
    obtain ⟨-, notBefore, repeats⟩ := isNew two later
    have different : one.1 ≠ two.1 := fun same =>
      apart (mem_map_of_mem earlier) (same ▸ mem_map_of_mem later)
    have older := lt_of_le_of_ne (le_trans (committed.reached one earlier) notBefore) different
    cases HeightRound.lt_iff.mp older with
    | inl lower => exact absurd sameHeight (UInt64.ne_of_lt lower)
    | inr laterRound => exact (repeats one earlier sameHeight.symm laterRound.2).symm
  unfold Unanimous
  rw [log_of_entries extended, filterMap_append]
  intro one isOne two isTwo sameHeight
  cases mem_append.mp isOne with
  | inl oneOld =>
    cases mem_append.mp isTwo with
    | inl twoOld => exact unanimous one oneOld two twoOld sameHeight
    | inr twoNew => exact oldNew one oneOld two twoNew sameHeight
  | inr oneNew =>
    cases mem_append.mp isTwo with
    | inl twoOld => exact (oldNew two twoOld one oneNew sameHeight.symm).symm
    | inr twoNew =>
      have sameRound : one.1 = two.1 := (isNew one oneNew).1.trans (isNew two twoNew).1.symm
      rw [inj_on_of_nodup_map newOnce oneNew twoNew sameRound]

end Commits

/-!
## The network
-/

/-- The partners by their ids, and the few that are faulty. -/
structure Committee where
  n : Nat
  faulty : Finset Nat
  members : faulty ⊆ Finset.range n
  few : faulty.card ≤ maxByzantine n

theorem majorities_meet {n : Nat} (two : 2 ≤ n) : n + maxByzantine n < majority n + majority n := by
  unfold majority majorityTwoThird maxByzantine
  split <;> omega

variable (c : Committee)

def Committee.honest : Finset Nat := Finset.range c.n \ c.faulty

abbrev Network (ν : Type) := GoMap Nat (Journal ν)

inductive Action (ν : Type) where
  | start (id : Nat) (around : Around ν) (height : UInt64) (round : Int64)
  | event (id : Nat) (event : Event ν)

/-- A message without what its sender signs it with on the way out. -/
def Message.content : Message ν → Message ν
  | .proposal msg => .proposal { msg with signature := [] }
  | .preVote msg => .preVote { msg with signature := [], publicKey := [] }
  | .preCommit msg => .preCommit { msg with blsSignature := [], signature := [], publicKey := [] }

def Output.content : Output ν → Option (Message ν)
  | .send msg => some msg.content
  | _ => none

namespace Committee

/-- A message carries the id of a faulty partner, or an honest partner has sent it. -/
def Authentic (net : Network ν) : Event ν → Prop
  | .deliver _ msg =>
    (∃ id ∈ c.faulty, msg.basic.sourceId = UInt16.ofNat id) ∨
      ∃ id ∈ c.honest, msg.basic.sourceId = UInt16.ofNat id ∧
        ∃ j ∈ net.get? id, some msg.content ∈ j.log.map Output.content
  | .timeout _ _ => True

def Fair (net : Network ν) : Action ν → Prop
  | .start id _ _ _ => id ∈ c.honest
  | .event id event =>
    id ∈ c.honest ∧ c.Authentic net event ∧ ∀ j ∈ net.get? id, event.Fair j

def step [Proposal ν] (net : Network ν) : Action ν → Except Panic (Network ν × List (Output ν))
  | .start id around height round =>
    match net.get? id with
    | some _ => .ok (net, [])
    | none => (Journal.start c.n id around height round).map fun j => (net.set id j, j.log)
  | .event id event =>
    match net.get? id with
    | none => .ok (net, [])
    | some j => (j.step event).map fun result => (net.set id result.1, result.2)

abbrev Reaches [Proposal ν] (allowed : Network ν → Action ν → Prop) :
    Network ν → List (Output ν) → Prop :=
  Run (fun net action after out => c.step net action = .ok (after, out)) allowed ∅

def Agrees [Proposal ν] (net : Network ν) : Prop :=
  ∀ id ∈ c.honest, ∀ other ∈ c.honest, ∀ j ∈ net.get? id, ∀ k ∈ net.get? other,
    ∀ one ∈ j.log.filterMap Output.decision, ∀ two ∈ k.log.filterMap Output.decision,
      one.1.height = two.1.height → Proposal.getId one.2 = Proposal.getId two.2

end Committee

def Action.Keeps [Proposal ν] (net : Network ν) : Action ν → Prop
  | .start _ _ _ _ => True
  | .event id given => ∀ j ∈ net.get? id, given.Keeps j

structure Committee.Steady [Proposal ν] (c : Committee) (net : Network ν) (action : Action ν) : Prop where
  fair : c.Fair net action
  keeps : action.Keeps net

/-!
## What the network keeps
-/

namespace Committee

variable {c : Committee} {net after : Network ν} {j : Journal ν}
variable {id : Nat}

def Sent (c : Committee) (net : Network ν) (commit : MessagePreCommit) : Prop :=
  (∃ id ∈ c.faulty, commit.sourceId = UInt16.ofNat id) ∨
    ∃ id ∈ c.honest, commit.sourceId = UInt16.ofNat id ∧
      ∃ j, net.get? id = some j ∧ ∀ value, commit.idv = some value →
        (commit.heightRound, value) ∈ j.log.filterMap Output.preCommitFor

def Grows (net after : Network ν) : Prop :=
  ∀ id j, net.get? id = some j → ∃ next, after.get? id = some next ∧ j.log ⊆ next.log

theorem Sent.mono {commit : MessagePreCommit} (sent : c.Sent net commit) (grows : Grows net after) :
    c.Sent after commit := by
  refine sent.imp_right fun honest => ?_
  obtain ⟨id, isHonest, source, j, found, isSent⟩ := honest
  obtain ⟨next, foundNext, more⟩ := grows id j found
  refine ⟨id, isHonest, source, next, foundNext, fun value isValue => ?_⟩
  exact filterMap_subset _ more (isSent value isValue)

theorem grows_set (more : ∀ old, net.get? id = some old → old.log ⊆ j.log) :
    Grows net (net.set id j) := by
  intro other old found
  by_cases same : other = id
  · subst same
    exact ⟨j, net.get?_set_self other j, more old found⟩
  · exact ⟨old, (net.get?_set_of_ne j same).trans found, List.Subset.refl _⟩

theorem Authentic.provides {setting : Setting ν} {msg : Message ν}
    (authentic : c.Authentic net (.deliver setting msg)) : msg.Provides (c.Sent net) := by
  cases msg with
  | proposal _ | preVote _ => trivial
  | preCommit commit =>
    refine authentic.imp_right fun honest => ?_
    obtain ⟨id, isHonest, source, j, found, isSent⟩ := honest
    refine ⟨id, isHonest, source, j, found, fun value isValue => ?_⟩
    obtain ⟨output, logged, isContent⟩ := mem_map.mp isSent
    refine mem_filterMap.mpr ⟨output, logged, ?_⟩
    cases output with
    | wait _ | decided _ _ _ _ => cases isContent
    | send sent =>
      cases sent with
      | proposal _ | preVote _ => cases isContent
      | preCommit sent =>
        have same : Message.content (.preCommit sent) = (Message.preCommit commit).content :=
          Option.some.inj isContent
        have fields := MessagePreCommit.mk.inj (Message.preCommit.inj same)
        have sameRound : sent.heightRound = commit.heightRound :=
          congrArg BasicMessage.heightRound fields.1
        have sameId : sent.idv = commit.idv := fields.2.1
        simp only [Output.preCommitFor, sameId, sameRound, isValue, Option.map_some]

variable [Proposal ν]

structure Member (c : Committee) (net : Network ν) (j : Journal ν) : Prop where
  kept : j.Kept c.n
  committed : j.Holds Committed
  unanimous : j.Unanimous
  stores : j.partner.Stores (c.Sent net)
  decided : ∀ output ∈ j.log, output.Stores c.n (c.Sent net)

theorem Member.mono (member : c.Member net j) (grows : Grows net after) : c.Member after j where
  kept := member.kept
  committed := member.committed
  unanimous := member.unanimous
  stores hr s found := (member.stores hr s found).mono fun _ sent => sent.mono grows
  decided output logged := (member.decided output logged).mono fun _ sent => sent.mono grows

theorem members_set (members : ∀ other k, net.get? other = some k → c.Member net k)
    (more : ∀ old, net.get? id = some old → old.log ⊆ j.log) (isMember : c.Member net j) :
    ∀ other k, (net.set id j).get? other = some k → c.Member (net.set id j) k := by
  intro other k found
  rw [GoMap.get?_set] at found
  split at found
  · cases found
    exact isMember.mono (grows_set more)
  · exact (members other k found).mono (grows_set more)

theorem member_start {around : Around ν} {height : UInt64} {round : Int64}
    (net : Network ν) (started : Journal.start c.n id around height round = .ok j) :
    c.Member net j := by
  obtain ⟨-, isFirst, -⟩ := Journal.start_ok started
  have logged := Journal.start_log started
  have noCommit : j.log.filterMap Output.preCommitFor = [] := by
    rw [logged, filterMap_cons, Partner.preCommitFor_opening]
    rfl
  constructor
  · exact Journal.Kept.start started
  · exact Journal.holds_start started
      (fun _ => ⟨nodup_nil, forall_mem_nil _, forall_mem_nil _⟩)
      (fun _ => ⟨nodup_nil, forall_mem_nil _, forall_mem_nil _⟩)
  · unfold Journal.Unanimous
    rw [noCommit]
    exact forall_mem_nil _
  · have empty : (⟨id, c.n, ⟨0, 0⟩, ∅⟩ : Partner ν).Stores (c.Sent net) :=
      nofun
    rw [isFirst]
    exact empty.entered _
  · rw [logged]
    exact forall_mem_singleton.mpr (Partner.opening_plain _ _ _).stores

variable {next : Journal ν} {event : Event ν} {out : List (Output ν)}

theorem Member.step (member : c.Member net j) (authentic : c.Authentic net event)
    (fair : event.Fair j) (keeps : event.Keeps j) (stepped : j.step event = .ok (next, out)) :
    c.Member net next := by
  obtain ⟨handled, extended⟩ := Journal.step_ok stepped
  have committed := member.committed.step member.kept fair stepped
    (fun cur _ => Guard.none_allows j.partner cur event) Committed.moves
  have stored : next.partner.Stores (c.Sent net) ∧ ∀ output ∈ out, output.Stores c.n (c.Sent net) := by
    have sound := member.kept.sound
    rw [← member.kept.size]
    cases event with
    | deliver setting msg =>
      exact (Partner.handleMessage_cases sound handled).stores sound fair.bounded member.stores
        authentic.provides
    | timeout around context => exact (Partner.onTimeout_cases sound handled).stores member.stores
  refine ⟨member.kept.step fair stepped, committed, ?_, stored.1, ?_⟩
  · exact member.unanimous.step member.kept member.committed committed keeps stepped
  · rw [Journal.log_of_entries extended]
    exact forall_mem_append.mpr ⟨member.decided, stored.2⟩

theorem members_step {action : Action ν}
    (members : ∀ id j, net.get? id = some j → c.Member net j) (steady : c.Steady net action)
    (stepped : c.step net action = .ok (after, out)) :
    ∀ id j, after.get? id = some j → c.Member after j := by
  obtain ⟨fair, keeps⟩ := steady
  cases action with
  | start id around height round =>
    rw [step] at stepped
    split at stepped
    · cases stepped
      exact members
    rename_i absent
    obtain ⟨j, started, isAfter⟩ := map_ok stepped
    cases isAfter
    refine members_set members (fun old found => ?_) (member_start net started)
    cases absent.symm.trans found
  | event id given =>
    obtain ⟨-, authentic, fairEvent⟩ := fair
    rw [step] at stepped
    split at stepped
    · cases stepped
      exact members
    rename_i j found
    obtain ⟨result, moved, isAfter⟩ := map_ok stepped
    cases isAfter
    have isMember := (members id j found).step authentic (fairEvent j found) (keeps j found) moved
    refine members_set members (fun old isOld => ?_) isMember
    cases found.symm.trans isOld
    rw [Journal.log_of_entries (Journal.step_ok moved).2]
    exact subset_append_left _ _

/-!
## Decisions
-/

def Cast (net : Network ν) (height : UInt64) (id : Nat) (value : Hash) : Prop :=
  ∃ j hr, net.get? id = some j ∧ hr.height = height ∧
    (hr, value) ∈ j.log.filterMap Output.preCommitFor

theorem toNat_ofNat {n : Nat} (inside : id < n) (wide : n ≤ 65536) : (UInt16.ofNat id).toNat = id :=
  UInt16.toNat_ofNat_of_lt' (lt_of_lt_of_le inside wide)

theorem Member.quorum {decision : HeightRound × ν} (member : c.Member net j) (wide : c.n ≤ 65536)
    (decided : decision ∈ j.log.filterMap Output.decision) :
    ∃ quorum ⊆ Finset.range c.n, majority c.n ≤ quorum.card ∧
      ∀ id ∈ quorum, id ∉ c.faulty → Cast net decision.1.height id (Proposal.getId decision.2) := by
  obtain ⟨output, logged, isDecision⟩ := mem_filterMap.mp decided
  cases output with
  | send _ | wait _ => cases isDecision
  | decided current hr s accepted =>
    obtain ⟨fits, stored⟩ := member.decided _ logged
    obtain ⟨-, value, isValue, enough⟩ := member.kept.backed _ logged
    rw [Output.decision, isValue] at isDecision
    cases isDecision
    refine ⟨(s.committers (Proposal.getId value)).image UInt16.toNat, ?_, ?_, ?_⟩
    · intro id isCommitter
      obtain ⟨source, voted, rfl⟩ := Finset.mem_image.mp isCommitter
      obtain ⟨commit, inSlot, -, rfl⟩ := mem_voters.mp voted
      obtain ⟨i, found⟩ := mem_iff_getElem?.mp inSlot
      obtain ⟨inRange, -⟩ := List.getElem?_eq_some_iff.mp found
      have place : commit.sourceId.toNat = 0 + i := fits.preCommits.placed i commit found
      rw [fits.preCommits.length] at inRange
      exact Finset.mem_range.mpr (by omega)
    · rw [Finset.card_image_of_injective _ fun _ _ => UInt16.toNat_inj.mp]
      exact enough
    · intro id isCommitter notFaulty
      obtain ⟨source, voted, rfl⟩ := Finset.mem_image.mp isCommitter
      obtain ⟨commit, inSlot, counts, rfl⟩ := mem_voters.mp voted
      have isFor : commit.idv = some (Proposal.getId value) := of_decide_eq_true counts
      have isHere := fits.preCommits.here commit inSlot
      cases stored commit inSlot with
      | inl byFaulty =>
        obtain ⟨id, isFaulty, source⟩ := byFaulty
        have inside := Finset.mem_range.mp (c.members isFaulty)
        rw [source, toNat_ofNat inside wide] at notFaulty
        exact absurd isFaulty notFaulty
      | inr byHonest =>
        obtain ⟨id, isHonest, source, j, found, sent⟩ := byHonest
        have inside := Finset.mem_range.mp (Finset.mem_sdiff.mp isHonest).1
        rw [source, toNat_ofNat inside wide]
        exact ⟨j, commit.heightRound, found, congrArg _ isHere, sent _ isFor⟩

/-- If no honest partner is brought to precommit another value in a later round, honest partners
never decide on different values of a height. -/
theorem agreement {out : List (Output ν)} (wide : c.n ≤ 65536)
    (run : c.Reaches c.Steady net out) : c.Agrees net := by
  have noneStarted : ∀ id j, (∅ : Network ν).get? id = some j → c.Member ∅ j := by
    intro id j found
    cases (GoMap.get?_empty id).symm.trans found
  have members := Run.invariant
    (motive := fun net _ => ∀ id j, net.get? id = some j → c.Member net j) noneStarted
    members_step run
  intro id isHonest other otherHonest j found k otherFound one isOne two isTwo sameHeight
  have member := members id j found
  obtain ⟨left, leftAll, leftEnough, leftCast⟩ := member.quorum wide isOne
  obtain ⟨right, rightAll, rightEnough, rightCast⟩ := (members other k otherFound).quorum wide isTwo
  rw [← sameHeight] at rightCast
  have two_le : 2 ≤ c.n := member.kept.size ▸ member.kept.sound.two
  have meet := majorities_meet two_le
  have few := c.few
  refine quorums_agree ?_ leftAll rightAll ?_ leftCast rightCast
  · intro voter _ _ first second castFirst castSecond
    obtain ⟨own, hr, isOwn, atHeight, sent⟩ := castFirst
    obtain ⟨same, later, isSame, laterHeight, sentLater⟩ := castSecond
    cases isOwn.symm.trans isSame
    exact (members voter own isOwn).unanimous _ sent _ sentLater (atHeight.trans laterHeight.symm)
  · rw [Finset.card_range]
    omega

instance [DecidableEq ν] (net : Network ν) : (event : Event ν) → Decidable (c.Authentic net event)
  | .deliver _ _ => inferInstanceAs (Decidable (_ ∨ ∃ id ∈ c.honest, _ ∧ ∃ j ∈ net.get? id, _))
  | .timeout _ _ => inferInstanceAs (Decidable True)

instance [DecidableEq ν] (net : Network ν) : (action : Action ν) → Decidable (c.Fair net action)
  | .start id _ _ _ => inferInstanceAs (Decidable (id ∈ c.honest))
  | .event id _ => inferInstanceAs (Decidable (_ ∧ _ ∧ ∀ j ∈ net.get? id, _))

instance (net : Network ν) : (action : Action ν) → Decidable (action.Keeps net)
  | .start _ _ _ _ => inferInstanceAs (Decidable True)
  | .event id _ => inferInstanceAs (Decidable (∀ j ∈ net.get? id, _))

instance [DecidableEq ν] (net : Network ν) (action : Action ν) : Decidable (c.Steady net action) :=
  decidable_of_iff (c.Fair net action ∧ action.Keeps net)
    ⟨fun both => ⟨both.1, both.2⟩, fun steady => ⟨steady.fair, steady.keeps⟩⟩

instance (net : Network ν) : Decidable (c.Agrees net) :=
  inferInstanceAs (Decidable (∀ id ∈ c.honest, ∀ other ∈ c.honest, ∀ j ∈ net.get? id,
    ∀ k ∈ net.get? other, ∀ one ∈ j.log.filterMap Output.decision,
      ∀ two ∈ k.log.filterMap Output.decision, _ → _))

def four : Committee := ⟨4, {3}, by decide, by decide⟩

section Sample

def toward (id : Nat) (msgs : List (Message Wire.Sequencer)) : List (Action Wire.Sequencer) :=
  msgs.map fun msg => .event id (.deliver .sample msg)

def preVotes (round : Int64) (hash : Hash) (sources : List UInt16) : List (Message Wire.Sequencer) :=
  sources.map fun source => .preVote ⟨⟨source, ⟨4, round⟩⟩, some hash, [], []⟩

def preCommits (round : Int64) (idv : Option Hash) (sources : List UInt16) :
    List (Message Wire.Sequencer) :=
  sources.map fun source => .preCommit ⟨⟨source, ⟨4, round⟩⟩, idv, [], [], []⟩

def firstRound : List (Action Wire.Sequencer) :=
  let proposal : Message Wire.Sequencer := .proposal ⟨⟨0, ⟨4, 0⟩⟩, sampleSequencer 7, -1, []⟩
  let voting (id : Nat) := toward id (proposal :: preVotes 0 7 [3])
  [.start 0 (.sample 7) 4 0, .start 1 (.sample 7) 4 0, .start 2 (.sample 7) 4 0] ++
    voting 0 ++ voting 1 ++ voting 2 ++ toward 0 (preVotes 0 7 [0, 1]) ++
    toward 1 (preVotes 0 7 [0, 1]) ++ toward 2 (preVotes 0 7 [0, 2]) ++
    toward 0 (preCommits 0 (some 7) [0, 1, 3])

/-- Partners 1 and 2 miss it, and precommit 8 in the second round. -/
def secondRound : List (Action Wire.Sequencer) :=
  let proposal : Message Wire.Sequencer := .proposal ⟨⟨1, ⟨4, 1⟩⟩, sampleSequencer 8, -1, []⟩
  let missing (id : Nat) := toward id (preCommits 0 (some 7) [1, 2] ++ preCommits 0 none [3]) ++
    [.event id (.timeout (.sample 8) ⟨⟨4, 0⟩, .preCommit⟩)]
  missing 1 ++ missing 2 ++ toward 1 [proposal] ++ toward 2 [proposal] ++
    toward 1 (preVotes 1 8 [1, 2, 3]) ++ toward 2 (preVotes 1 8 [1, 2, 3]) ++
    toward 1 (preCommits 1 (some 8) [1, 2, 3])

end Sample

def replay (allowed : Network Wire.Sequencer → Action Wire.Sequencer → Prop)
    [∀ net action, Decidable (allowed net action)] (actions : List (Action Wire.Sequencer)) :
    Option (Network Wire.Sequencer) :=
  follow four.step (fun net action => decide (allowed net action)) ∅ actions

theorem replay_reaches {allowed : Network Wire.Sequencer → Action Wire.Sequencer → Prop}
    [∀ net action, Decidable (allowed net action)] {actions : List (Action Wire.Sequencer)}
    {net : Network Wire.Sequencer} (replayed : replay allowed actions = some net) :
    ∃ out, four.Reaches allowed net out :=
  follow_run .start replayed

def decisions (net : Network Wire.Sequencer) (id : Nat) : List (HeightRound × Hash) :=
  ((net.get? id).toList.flatMap fun j => j.log.filterMap Output.decision).map fun decision =>
    (decision.1, Proposal.getId decision.2)

theorem agreement_firstRound :
    ∃ net out, four.Reaches four.Steady net out ∧ decisions net 0 = [(⟨4, 0⟩, 7)] ∧
      decisions net 1 = [(⟨4, 0⟩, 7)] ∧ four.Agrees net := by
  have decided : (replay four.Steady (firstRound ++ toward 1 (preCommits 0 (some 7) [0, 1, 2]))).map
      (fun net => (decisions net 0, decisions net 1)) =
        some ([(⟨4, 0⟩, 7)], [(⟨4, 0⟩, 7)]) := by
    decide +kernel
  obtain ⟨net, replayed, both⟩ := Option.map_eq_some_iff.mp decided
  obtain ⟨out, run⟩ := replay_reaches replayed
  obtain ⟨first, second⟩ := Prod.mk.inj both
  exact ⟨net, out, run, first, second, agreement (by decide) run⟩

/-- Partner 1 forgets its lock on 7 and decides on 8, where partner 0 has decided on 7. -/
theorem decided_apart :
    ∃ (net : Network Wire.Sequencer) (out : List (Output Wire.Sequencer)),
      four.Reaches four.Fair net out ∧ ¬ four.Agrees net := by
  have broken : (replay four.Fair (firstRound ++ secondRound)).map
      (fun net => decide (four.Agrees net)) = some false := by
    decide +kernel
  obtain ⟨net, replayed, apart⟩ := Option.map_eq_some_iff.mp broken
  obtain ⟨out, run⟩ := replay_reaches replayed
  exact ⟨net, out, run, of_decide_eq_false apart⟩

end Committee

end AnnchainOG.Bft
