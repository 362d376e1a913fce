import AnnchainOG.Consensus.Deliveries
import AnnchainOG.Lib.Runs

/-!
# Runs of a partner

The journal keeps what the partner was after each event and what it put out.
-/

namespace AnnchainOG.Bft

open List Partner

structure Entry (ν : Type) where
  after : Partner ν
  outputs : List (Output ν)

structure Journal (ν : Type) where
  partner : Partner ν
  entries : List (Entry ν)

variable {ν : Type}

namespace Journal

def log (j : Journal ν) : List (Output ν) := j.entries.flatMap (·.outputs)

def extend (j : Journal ν) (after : Partner ν) (out : List (Output ν)) : Journal ν :=
  ⟨after, j.entries ++ [⟨after, out⟩]⟩

def start (nbParticipants : Nat) (id : Int) (around : Around ν) (height : UInt64) (round : Int64) :
    Except Panic (Journal ν) :=
  ((newBFTPartner nbParticipants id).bind (Partner.startNewEra around height round)).map
    fun result => ⟨result.1, [⟨result.1, result.2⟩]⟩

def step [Proposal ν] (j : Journal ν) (event : Event ν) :
    Except Panic (Journal ν × List (Output ν)) :=
  (Partner.handle event j.partner).map fun result => (j.extend result.1 result.2, result.2)

abbrev Reaches [Proposal ν] (allowed : Journal ν → Event ν → Prop) (start : Journal ν) :
    Journal ν → List (Output ν) → Prop :=
  Run (fun j event next out => j.step event = .ok (next, out)) allowed start

end Journal

def Event.Armed (j : Journal ν) : Event ν → Prop
  | .deliver _ _ => True
  | .timeout _ context => .wait context ∈ j.log

def Event.Bounded : Event ν → Prop
  | .deliver _ msg => msg.basic.heightRound.Bounded
  | .timeout _ _ => True

structure Event.Fair (j : Journal ν) (event : Event ν) : Prop where
  armed : event.Armed j
  bounded : event.Bounded

instance (hr : HeightRound) : Decidable hr.Bounded :=
  inferInstanceAs (Decidable (_ ∧ _))

instance [DecidableEq ν] (j : Journal ν) : (event : Event ν) → Decidable (event.Armed j)
  | .deliver _ _ => inferInstanceAs (Decidable True)
  | .timeout _ context => inferInstanceAs (Decidable (.wait context ∈ j.log))

instance : (event : Event ν) → Decidable event.Bounded
  | .deliver _ msg => inferInstanceAs (Decidable msg.basic.heightRound.Bounded)
  | .timeout _ _ => inferInstanceAs (Decidable True)

instance [DecidableEq ν] (j : Journal ν) (event : Event ν) : Decidable (event.Fair j) :=
  decidable_of_iff (event.Armed j ∧ event.Bounded)
    ⟨fun both => ⟨both.1, both.2⟩, fun fair => ⟨fair.armed, fair.bounded⟩⟩

def Journal.replay [Proposal ν] (allowed : Journal ν → Event ν → Prop)
    [∀ j event, Decidable (allowed j event)] (nbParticipants : Nat) (id : Int) (around : Around ν)
    (height : UInt64) (round : Int64) (events : List (Event ν)) : Option (Journal ν) :=
  (Journal.start nbParticipants id around height round).toOption.bind fun start =>
    follow Journal.step (fun j event => decide (allowed j event)) start events

/-!
## What is put out
-/

def Output.acceptedHeight : Output ν → Option UInt64
  | .decided _ hr _ true => some hr.height
  | _ => none

def Output.Backed [Proposal ν] (n : Nat) : Output ν → Prop
  | .decided current hr state _ =>
    current = hr ∧ ∃ value, state.decision = some value ∧
      majority n ≤ (voters (·.sourceId)
        (MessagePreCommit.counts (.byValue (Proposal.getId value))) state.preCommits).card
  | _ => True

def Output.Plain : Output ν → Prop
  | .send _ => True
  | .wait context => context.Countable
  | .decided _ _ _ _ => False

theorem accepted_of_plain {out : List (Output ν)} (plain : ∀ output ∈ out, output.Plain) :
    out.filterMap Output.acceptedHeight = [] := by
  refine filterMap_eq_nil_iff.mpr fun output member => ?_
  cases output with
  | send _ | wait _ => rfl
  | decided _ _ _ _ => exact (plain _ member).elim

namespace Partner

theorem opening_plain (p : Partner ν) (around : Around ν) (hr : HeightRound) :
    (p.opening around hr).Plain := by
  unfold opening
  split
  · trivial
  · nofun

theorem Arrives.plain {around : Around ν} {message : BasicMessage} {p after : Partner ν}
    {out : List (Output ν)} (arrives : Arrives around message p after out) :
    ∀ output ∈ out, output.Plain := by
  cases arrives with
  | here _ | ahead _ _ => exact forall_mem_nil _
  | catchUp _ _ => exact forall_mem_singleton.mpr (opening_plain _ _ _)

end Partner

variable [Proposal ν]
variable {n : Nat}
variable {me : BasicMessage} {cause : Cause} {s after : HeightRoundState ν} {out : List (Output ν)}

theorem Output.Plain.backed {output : Output ν} (plain : output.Plain) : output.Backed n := by
  cases output with
  | send _ | wait _ => trivial
  | decided _ _ _ _ => exact plain.elim

theorem Reacts.plain (reacts : Reacts n me cause s out after)
    (bounded : cause = .message .preCommit → me.heightRound.Bounded) :
    ∀ output ∈ out, output.Plain := by
  cases reacts with
  | offer _ _ | giveUp _ | lock _ _ _ _ | abstain _ _ => exact forall_mem_singleton.mpr trivial
  | accept _ _ _ _ => exact forall_mem_nil _
  | awaitPreVotes _ _ => exact forall_mem_singleton.mpr nofun
  | awaitPreCommits _ => exact forall_mem_singleton.mpr fun _ => bounded rfl

theorem Reacting.plain (reacting : Reacting n me cause s out after)
    (bounded : cause = .message .preCommit → me.heightRound.Bounded) :
    ∀ output ∈ out, output.Plain := by
  induction reacting with
  | done => exact forall_mem_nil _
  | next reacts _ ih => exact forall_mem_append.mpr ⟨reacts.plain bounded, ih⟩

namespace Partner

variable {p after : Partner ν} {setting : Setting ν} {msg : Message ν} {out : List (Output ν)}
variable {before current : HeightRound}

/-- Plain things, and backed decisions that lead to a greater height if they are accepted. -/
structure PutsOut (n : Nat) (before current : HeightRound) (out : List (Output ν)) : Prop where
  countable : ∀ context, .wait context ∈ out → context.Countable
  backed : ∀ output ∈ out, output.Backed n
  accepted : out.filterMap Output.acceptedHeight = [] ∨ ∃ height,
    out.filterMap Output.acceptedHeight = [height] ∧ before.height ≤ height ∧
      height < current.height

theorem putsOut_of_plain {n : Nat}
    (plain : ∀ output ∈ out, output.Plain) : PutsOut n before current out where
  countable _ member := plain _ member
  backed output member := (plain output member).backed
  accepted := .inl (accepted_of_plain plain)

theorem PutsOut.after_plain {n : Nat} {between : HeightRound}
    {first : List (Output ν)} (plain : ∀ output ∈ first, output.Plain)
    (rest : PutsOut n between current out) (rises : before ≤ between) :
    PutsOut n before current (first ++ out) where
  countable context member := by
    cases mem_append.mp member with
    | inl earlier => exact plain _ earlier
    | inr later => exact rest.countable context later
  backed := forall_mem_append.mpr ⟨fun output earlier => (plain output earlier).backed,
    rest.backed⟩
  accepted := by
    rw [filterMap_append, accepted_of_plain plain, nil_append]
    refine rest.accepted.imp_right fun once => ?_
    obtain ⟨height, isOnly, notBelow, above⟩ := once
    exact ⟨height, isOnly, UInt64.le_trans (HeightRound.height_le rises) notBelow, above⟩

theorem Handled.putsOut (handled : Handled setting msg p after out) (sound : p.Sound)
    (here : p.currentHR = msg.basic.heightRound) (bounded : msg.basic.heightRound.Bounded) :
    PutsOut p.n p.currentHR after.currentHR out := by
  rw [← here] at bounded
  cases handled with
  | reacted _ reacting => exact putsOut_of_plain (reacting.plain fun _ => bounded)
  | @decided s reacted quiet proposal _ found reacting _ enough =>
    obtain ⟨-, fits, -, -⟩ := sound.records found
    have reactedFits := reacting.sameMessages.fits (fits.receive here.symm)
    have plainOpening := opening_plain (p.put p.currentHR (reacted.decide proposal.value))
      setting.decision (setting.next p.currentHR)
    refine PutsOut.after_plain (reacting.plain fun _ => bounded) ?_ (le_refl p.currentHR)
    constructor
    · intro context member
      cases mem_pair.mp member with
      | inl isDecision => cases isDecision
      | inr isOpening =>
        rw [← isOpening] at plainOpening
        exact plainOpening
    · intro output member
      cases mem_pair.mp member with
      | inl isDecision =>
        rw [isDecision]
        refine ⟨rfl, proposal.value, rfl, le_of_le_of_eq enough ?_⟩
        exact (reactedFits.preCommits.card_voters _).symm
      | inr isOpening =>
        rw [isOpening]
        exact plainOpening.backed
    · have noneOpened := accepted_of_plain (forall_mem_singleton.mpr plainOpening)
      rw [← singleton_append, filterMap_append, noneOpened, append_nil]
      cases isAccepted : setting.accepted with
      | false => exact .inl rfl
      | true =>
        exact .inr ⟨p.currentHR.height, rfl, UInt64.le_refl _,
          setting.height_lt_next bounded isAccepted⟩

theorem Delivered.putsOut (delivered : Delivered setting msg p after out) (sound : p.Sound)
    (bounded : msg.basic.heightRound.Bounded) : PutsOut p.n p.currentHR after.currentHR out := by
  cases delivered with
  | dropped arrives _ => exact putsOut_of_plain arrives.plain
  | vote _ _ _ => exact putsOut_of_plain (forall_mem_nil _)
  | proposal _ _ _ _ => exact putsOut_of_plain (forall_mem_singleton.mpr trivial)
  | handled arrives here handled =>
    have rest := handled.putsOut (arrives.sound sound) here bounded
    rw [arrives.same.1] at rest
    exact rest.after_plain arrives.plain arrives.currentHR_le

theorem Expired.putsOut {around : Around ν} {context : TendermintContext}
    (expired : Expired around context p after out) :
    PutsOut p.n p.currentHR after.currentHR out := by
  refine putsOut_of_plain ?_
  cases expired with
  | ignored => exact forall_mem_nil _
  | reacted _ reacting => exact reacting.plain nofun
  | advanced _ _ => exact forall_mem_singleton.mpr (opening_plain _ _ _)

end Partner

/-!
## Steps and runs
-/

namespace Journal

variable {n : Nat} {j next : Journal ν} {event : Event ν} {out : List (Output ν)}
variable {id : Int} {around : Around ν} {height : UInt64} {round : Int64}

theorem step_ok (stepped : j.step event = .ok (next, out)) :
    Partner.handle event j.partner = .ok (next.partner, out) ∧
      next.entries = j.entries ++ [⟨next.partner, out⟩] := by
  obtain ⟨result, handled, isNext⟩ := map_ok stepped
  cases isNext
  exact ⟨handled, rfl⟩

omit [Proposal ν] in
theorem log_of_entries (extended : next.entries = j.entries ++ [⟨next.partner, out⟩]) :
    next.log = j.log ++ out := by
  rw [log, extended, flatMap_append, flatMap_singleton, log]

structure Kept (n : Nat) (j : Journal ν) : Prop where
  sound : j.partner.Sound
  size : j.partner.n = n
  countable : ∀ context, .wait context ∈ j.log → context.Countable
  rising : (j.entries.map (·.after.currentHR)).Pairwise (· ≤ ·)
  reached : ∀ entry ∈ j.entries, entry.after.currentHR ≤ j.partner.currentHR
  backed : ∀ output ∈ j.log, output.Backed n
  once : (j.log.filterMap Output.acceptedHeight).Nodup
  below : ∀ height ∈ j.log.filterMap Output.acceptedHeight, height < j.partner.currentHR.height

theorem Kept.handled (kept : j.Kept n) (fair : event.Fair j)
    (handled : Partner.handle event j.partner = .ok (next.partner, out)) :
    next.partner.Sound ∧ next.partner.n = n ∧ j.partner.currentHR ≤ next.partner.currentHR ∧
      Partner.PutsOut n j.partner.currentHR next.partner.currentHR out := by
  obtain ⟨armed, bounded⟩ := fair
  have size := kept.size
  subst size
  cases event with
  | deliver setting msg =>
    have delivered := handleMessage_cases kept.sound handled
    exact ⟨delivered.sound kept.sound bounded, delivered.same.1, delivered.currentHR_le bounded,
      delivered.putsOut kept.sound bounded⟩
  | timeout around context =>
    have expired := onTimeout_cases kept.sound handled
    have countable := kept.countable context armed
    exact ⟨expired.sound kept.sound countable, expired.same.1, expired.currentHR_le countable,
      expired.putsOut⟩

theorem Kept.step (kept : j.Kept n) (fair : event.Fair j)
    (stepped : j.step event = .ok (next, out)) : next.Kept n := by
  obtain ⟨handled, extended⟩ := step_ok stepped
  obtain ⟨sound, size, rises, putsOut⟩ := kept.handled fair handled
  have logged := log_of_entries extended
  have belowBefore : ∀ height ∈ j.log.filterMap Output.acceptedHeight,
      height < next.partner.currentHR.height := fun height member =>
    UInt64.lt_of_lt_of_le (kept.below height member) (HeightRound.height_le rises)
  constructor
  · exact sound
  · exact size
  · intro context member
    rw [logged] at member
    cases mem_append.mp member with
    | inl earlier => exact kept.countable context earlier
    | inr isNew => exact putsOut.countable context isNew
  · rw [extended, map_append, pairwise_append]
    refine ⟨kept.rising, pairwise_singleton _ _, fun earlier isEarlier later isLater => ?_⟩
    obtain ⟨entry, member, rfl⟩ := mem_map.mp isEarlier
    cases mem_singleton.mp isLater
    exact le_trans (kept.reached entry member) rises
  · intro entry member
    rw [extended] at member
    cases mem_append.mp member with
    | inl earlier => exact le_trans (kept.reached entry earlier) rises
    | inr isNew =>
      cases mem_singleton.mp isNew
      exact le_refl _
  · rw [logged]
    exact forall_mem_append.mpr ⟨kept.backed, putsOut.backed⟩
  · rw [logged, filterMap_append]
    cases putsOut.accepted with
    | inl nothing =>
      rw [nothing, append_nil]
      exact kept.once
    | inr once =>
      obtain ⟨height, isOnly, notBelow, -⟩ := once
      rw [isOnly]
      refine nodup_append'.mpr ⟨kept.once, nodup_singleton _, fun other earlier isNew => ?_⟩
      cases mem_singleton.mp isNew
      exact absurd (kept.below height earlier) (UInt64.not_lt.mpr notBelow)
  · rw [logged, filterMap_append]
    refine forall_mem_append.mpr ⟨belowBefore, ?_⟩
    cases putsOut.accepted with
    | inl nothing =>
      rw [nothing]
      exact forall_mem_nil _
    | inr once =>
      obtain ⟨height, isOnly, -, above⟩ := once
      rw [isOnly]
      exact forall_mem_singleton.mpr above

omit [Proposal ν] in
theorem start_ok (started : start n id around height round = .ok j) :
    2 ≤ n ∧ j.partner = Partner.entered ⟨id, n, ⟨0, 0⟩, ∅⟩ (around.target height round) ∧
      j.entries = [⟨j.partner,
        [Partner.opening ⟨id, n, ⟨0, 0⟩, ∅⟩ around (around.target height round)]⟩] := by
  unfold start newBFTPartner at started
  split at started
  · cases started
  rename_i notFewer
  have two : 2 ≤ n := not_lt.mp notFewer
  rw [Except.bind, startNewEra_eq _ _ _ (by change n ≠ 0; omega)] at started
  cases started
  exact ⟨two, rfl, rfl⟩

omit [Proposal ν] in
theorem start_log (started : start n id around height round = .ok j) :
    j.log = [Partner.opening ⟨id, n, ⟨0, 0⟩, ∅⟩ around (around.target height round)] := by
  obtain ⟨-, -, entries⟩ := start_ok started
  rw [log, entries, flatMap_singleton]

theorem Kept.start (started : start n id around height round = .ok j) : j.Kept n := by
  obtain ⟨two, isFirst, entries⟩ := start_ok started
  have logged := start_log started
  have plain := opening_plain (⟨id, n, ⟨0, 0⟩, ∅⟩ : Partner ν) around
    (around.target height round)
  have nothing := accepted_of_plain (forall_mem_singleton.mpr plain)
  constructor
  · rw [isFirst]
    exact sound_first two _ _ _
  · rw [isFirst]
    rfl
  · rw [logged]
    intro context member
    rw [← mem_singleton.mp member] at plain
    exact plain
  · rw [entries]
    exact pairwise_singleton _ _
  · rw [entries]
    exact forall_mem_singleton.mpr (le_refl _)
  · rw [logged]
    exact forall_mem_singleton.mpr plain.backed
  · rw [logged, nothing]
    exact nodup_nil
  · rw [logged, nothing]
    exact forall_mem_nil _

theorem Kept.run {allowed : Journal ν → Event ν → Prop} {inv : Journal ν → Prop}
    {start : Journal ν} (kept : start.Kept n) (atStart : inv start)
    (fair : ∀ {j event}, allowed j event → event.Fair j)
    (keeps : ∀ {j next event out}, j.Kept n → inv j → allowed j event →
      j.step event = .ok (next, out) → inv next)
    (run : Reaches allowed start j out) : j.Kept n ∧ inv j :=
  Run.invariant (motive := fun j _ => j.Kept n ∧ inv j) ⟨kept, atStart⟩
    (fun both isAllowed stepped => ⟨both.1.step (fair isAllowed) stepped,
      keeps both.1 both.2 isAllowed stepped⟩)
    run

end Journal

theorem Journal.replay_reaches {allowed : Journal ν → Event ν → Prop}
    [∀ j event, Decidable (allowed j event)] {n : Nat} {id : Int} {around : Around ν}
    {height : UInt64} {round : Int64} {events : List (Event ν)} {j : Journal ν}
    (replayed : Journal.replay allowed n id around height round events = some j) :
    ∃ start out, Journal.start n id around height round = .ok start ∧
      Journal.Reaches allowed start j out :=
  follow_reaches replayed

/-- In every run the current round never goes back and has a record, no older one has, decisions are
backed, and at most one is accepted at each height. -/
theorem rounds_kept {n : Nat} {id : Int} {around : Around ν} {height : UInt64} {round : Int64}
    {start j : Journal ν} {out : List (Output ν)}
    (started : Journal.start n id around height round = .ok start)
    (run : Journal.Reaches Event.Fair start j out) :
    (j.entries.map (·.after.currentHR)).Pairwise (· ≤ ·) ∧
      (∃ s, j.partner.states.get? j.partner.currentHR = some s) ∧
      (∀ hr s, j.partner.states.get? hr = some s → j.partner.currentHR ≤ hr) ∧
      (∀ output ∈ j.log, output.Backed n) ∧ (j.log.filterMap Output.acceptedHeight).Nodup := by
  have kept := Run.invariant (motive := fun j _ => j.Kept n) (Journal.Kept.start started)
    Journal.Kept.step run
  exact ⟨kept.rising, kept.sound.current, fun _ _ found => (kept.sound.records found).1,
    kept.backed, kept.once⟩

def sampleSequencer (hash : Hash) : Wire.Sequencer :=
  ⟨⟨1, hash, [], 0, 1, [], [], 0, 0, 0⟩, none, [], [], 0, true, 0⟩

def Around.sample (hash : Hash) : Around Wire.Sequencer := ⟨none, fun _ => sampleSequencer hash⟩

def Setting.sample : Setting Wire.Sequencer := ⟨.sample 9, .sample 9, true⟩

def sampleProposal (source : UInt16) (hr : HeightRound) (hash : Hash) : Event Wire.Sequencer :=
  .deliver .sample (.proposal ⟨⟨source, hr⟩, sampleSequencer hash, -1, []⟩)

def samplePreVote (source : UInt16) (hr : HeightRound) (idv : Option Hash) : Event Wire.Sequencer :=
  .deliver .sample (.preVote ⟨⟨source, hr⟩, idv, [], []⟩)

def samplePreCommit (source : UInt16) (hr : HeightRound) (idv : Option Hash) :
    Event Wire.Sequencer :=
  .deliver .sample (.preCommit ⟨⟨source, hr⟩, idv, [], [], []⟩)

def Journal.agreed : Option (Journal Wire.Sequencer) :=
  Journal.replay Event.Fair 2 1 (.sample 9) 2 0
    [sampleProposal 0 ⟨2, 0⟩ 7, samplePreCommit 0 ⟨2, 0⟩ (some 7), samplePreCommit 1 ⟨2, 0⟩ (some 7)]

theorem rounds_kept_agreed :
    ∃ j, Journal.agreed = some j ∧ j.log.filterMap Output.acceptedHeight = [2] ∧
      (j.entries.map (·.after.currentHR)).Pairwise (· ≤ ·) := by
  obtain ⟨j, replayed⟩ : ∃ j, Journal.agreed = some j :=
    Option.isSome_iff_exists.mp (by decide +kernel)
  obtain ⟨start, out, started, run⟩ := Journal.replay_reaches replayed
  have heights : Journal.agreed.map (fun j => j.log.filterMap Output.acceptedHeight) =
      some [2] := by
    decide +kernel
  rw [replayed] at heights
  exact ⟨j, replayed, Option.some.inj heights, (rounds_kept started run).1⟩

end AnnchainOG.Bft
