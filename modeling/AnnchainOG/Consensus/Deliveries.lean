import AnnchainOG.Consensus.Handlers

/-!
# Messages and timeouts at a sound partner

Only a vote without a slot makes a partner panic, as long as heights and rounds do not run out.
-/

namespace AnnchainOG.Bft

open HeightRound

variable {hr : HeightRound}

inductive Event (ν : Type) where
  | deliver (setting : Setting ν) (msg : Message ν)
  | timeout (around : Around ν) (context : TendermintContext)

def HeightRound.Bounded (hr : HeightRound) : Prop :=
  hr.height.toNat + 1 < UInt64.size ∧ hr.round < Int64.maxValue

def TendermintContext.Countable (context : TendermintContext) : Prop :=
  context.stepType = .preCommit → context.heightRound.Bounded

variable {ν : Type}

theorem HeightRound.Bounded.lt_round (bounded : hr.Bounded) : hr < ⟨hr.height, hr.round + 1⟩ := by
  refine lt_iff.mpr (.inr ⟨rfl, ?_⟩)
  have below := Int64.lt_iff_toInt_lt.mp bounded.2
  have above := hr.round.le_toInt
  rw [Int64.lt_iff_toInt_lt, Int64.toInt_add]
  have top : Int64.maxValue.toInt = 2 ^ 63 - 1 := rfl
  have one : (1 : Int64).toInt = 1 := rfl
  rw [one, Int.bmod_eq_of_le (by omega) (by omega)]
  omega

theorem HeightRound.Bounded.height_lt (bounded : hr.Bounded) : hr.height < hr.height + 1 := by
  have below := bounded.1
  rw [UInt64.lt_iff_toNat_lt, UInt64.toNat_add]
  have one : (1 : UInt64).toNat = 1 := rfl
  rw [one, Nat.mod_eq_of_lt below]
  omega

theorem Setting.lt_next (setting : Setting ν) (bounded : hr.Bounded) : hr < setting.next hr := by
  unfold next
  split
  · exact lt_of_lt_of_le (lt_iff.mpr (.inl bounded.height_lt)) (setting.decision.le_target _ _)
  · exact lt_of_lt_of_le bounded.lt_round (setting.decision.le_target _ _)

theorem HeightRound.height_le {left right : HeightRound} (below : left ≤ right) :
    left.height ≤ right.height := by
  refine UInt64.not_lt.mp fun higher => ?_
  exact absurd (lt_iff.mpr (.inl higher)) (not_lt.mpr below)

theorem Setting.height_lt_next (setting : Setting ν) (bounded : hr.Bounded)
    (accepted : setting.accepted = true) : hr.height < (setting.next hr).height := by
  rw [next, if_pos accepted]
  exact UInt64.lt_of_lt_of_le bounded.height_lt (height_le (setting.decision.le_target _ _))

namespace Partner

variable {p : Partner ν} {message : BasicMessage} {body : Handler ν}

theorem ifNeeded_of_le
    (needed : p.currentHR ≤ message.heightRound) : ifNeeded message body p = body p :=
  if_pos (isAfterOrEqual_iff.mpr needed)

theorem ifNeeded_of_lt
    (late : message.heightRound < p.currentHR) : ifNeeded message body p = .ok (p, []) :=
  if_neg fun needed => absurd late (not_lt.mpr (isAfterOrEqual_iff.mp needed))

section Relations

variable [Proposal ν]

def handle : Event ν → Handler ν
  | .deliver setting msg => handleMessage setting msg
  | .timeout around context => onTimeout around context

/-!
## Messages
-/

inductive Delivered (setting : Setting ν) (msg : Message ν) (p : Partner ν) :
    Partner ν → List (Output ν) → Prop where
  | dropped {between out} (arrives : Arrives setting.catchUp msg.basic p between out)
      (late : msg.basic.heightRound < between.currentHR) : Delivered setting msg p between out
  | vote (isVote : msg.type ≠ .proposal) (later : p.currentHR < msg.basic.heightRound)
      (few : (p.heard msg.basic).sources.card ≤ p.f) :
      Delivered setting msg p
        (p.put msg.basic.heightRound ((p.heard msg.basic).receive msg)) []
  | proposal {proposal cur} (isProposal : msg = .proposal proposal)
      (later : p.currentHR < proposal.heightRound)
      (few : (p.heard proposal.toBasicMessage).sources.card ≤ p.f)
      (found : p.states.get? p.currentHR = some cur) :
      Delivered setting msg p
        ((p.put proposal.heightRound
            ((p.heard proposal.toBasicMessage).receive (.proposal proposal))).put p.currentHR
          { cur with step := .preVote })
        [.send (.preVote ⟨p.basicMessage proposal.heightRound,
          some (Proposal.getId proposal.value), [], []⟩)]
  | handled {between out after more} (arrives : Arrives setting.catchUp msg.basic p between out)
      (here : between.currentHR = msg.basic.heightRound)
      (handled : Handled setting msg between after more) :
      Delivered setting msg p after (out ++ more)

inductive Expired (around : Around ν) (context : TendermintContext) (p : Partner ν) :
    Partner ν → List (Output ν) → Prop where
  | ignored : Expired around context p p []
  | reacted {s after out} (found : p.states.get? p.currentHR = some s)
      (reacting : Reacting p.n (p.basicMessage p.currentHR) .timeout s out after) :
      Expired around context p (p.put p.currentHR after) out
  | advanced (isPreCommit : context.stepType = .preCommit)
      (here : context.heightRound = p.currentHR) :
      Expired around context p
        (p.entered (around.target p.currentHR.height (p.currentHR.round + 1)))
        [p.opening around (around.target p.currentHR.height (p.currentHR.round + 1))]

end Relations

variable {p after between : Partner ν} {s cur : HeightRoundState ν} (setting : Setting ν)
  {msg : Message ν} {out : List (Output ν)}
variable {around : Around ν} {context : TendermintContext}

theorem Arrives.record (arrives : Arrives around msg.basic p between out)
    (sound : p.Sound) (needed : between.currentHR ≤ msg.basic.heightRound) :
    ∃ s, between.states.get? msg.basic.heightRound = some s := by
  obtain here | ahead := eq_or_lt_of_le needed
  · rw [← here]
    exact (arrives.sound sound).current
  cases arrives with
  | here reached => exact absurd ahead (not_lt.mpr reached)
  | catchUp _ _ => exact absurd ahead (not_lt.mpr (around.le_target _ _))
  | ahead _ _ => exact ⟨_, get?_put_self⟩

variable [Proposal ν]

theorem handleMessage_ahead (sound : p.Sound) (later : p.currentHR < msg.basic.heightRound)
    (few : (p.heard msg.basic).sources.card ≤ p.f) (inRange : msg.InRange p.n) :
    ∃ after out, handleNeeded setting msg (p.put msg.basic.heightRound (p.heard msg.basic)) =
      .ok (after, out) ∧ Delivered setting msg p after out := by
  have heardSound := sound.heard later
  have known : msg.basic.sourceId ∈ (p.heard msg.basic).sources := Finset.mem_insert_self _ _
  obtain ⟨cur, found⟩ := sound.current
  by_cases isVote : msg.type ≠ .proposal
  · have handled := handleVote_ahead setting heardSound later get?_put_self few known isVote inRange
    rw [put_put] at handled
    exact ⟨_, _, handled, .vote isVote later few⟩
  cases msg with
  | preVote _ | preCommit _ => exact absurd nofun isVote
  | proposal proposal =>
    replace later : p.currentHR < proposal.heightRound := later
    replace heardSound : (p.put proposal.heightRound
      (p.heard proposal.toBasicMessage)).Sound := heardSound
    have current : (p.put proposal.heightRound (p.heard proposal.toBasicMessage)).states.get?
        p.currentHR = some cur := by
      rw [get?_put, if_neg later.ne, found]
    have handled := handleProposal_ahead heardSound later get?_put_self known current
    rw [put_put] at handled
    exact ⟨_, _, handled, .proposal rfl later few found⟩

theorem handleMessage_spec (sound : p.Sound) (inRange : msg.InRange p.n) :
    ∃ after out, handleMessage setting msg p = .ok (after, out) ∧
      Delivered setting msg p after out := by
  obtain ⟨between, out, checked, arrives⟩ := checkRound_spec setting.catchUp msg.basic sound
  rw [handleMessage_eq, Act.andThen_of_ok checked]
  obtain late | here | ahead := lt_trichotomy msg.basic.heightRound between.currentHR
  · rw [ifNeeded_of_lt late]
    exact ⟨_, _, rfl, by simpa using .dropped arrives late⟩
  · rw [ifNeeded_of_le here.ge]
    obtain ⟨after, more, handled, spec⟩ := handleNeeded_here setting (arrives.sound sound) here.symm
      (arrives.same.1 ▸ inRange)
    rw [handled]
    exact ⟨_, _, rfl, .handled arrives here.symm spec⟩
  · rw [ifNeeded_of_le ahead.le]
    cases arrives with
    | here reached => exact absurd ahead (not_lt.mpr reached)
    | catchUp _ _ => exact absurd ahead (not_lt.mpr (setting.catchUp.le_target _ _))
    | ahead later few =>
      obtain ⟨after, more, handled, spec⟩ := handleMessage_ahead setting sound later few inRange
      rw [handled]
      exact ⟨_, _, rfl, spec⟩

theorem handleMessage_current (sound : p.Sound) (here : p.currentHR = msg.basic.heightRound) :
    handleMessage setting msg p = handleNeeded setting msg p := by
  obtain ⟨between, out, checked, arrives⟩ := checkRound_spec setting.catchUp msg.basic sound
  cases arrives with
  | ahead later _ | catchUp later _ => exact absurd here later.ne
  | here _ =>
    rw [handleMessage_eq, Act.andThen_of_ok checked, ifNeeded_of_le here.le]
    cases handleNeeded setting msg p <;> rfl

variable {setting}

theorem handleNeeded_outOfRange (sound : p.Sound)
    (found : p.states.get? msg.basic.heightRound = some s) (outOfRange : ¬ msg.InRange p.n) :
    handleNeeded setting msg p = .error .indexOutOfRange := by
  obtain ⟨-, fits, -, -⟩ := sound.records found
  cases msg with
  | proposal _ => exact absurd (fun isVote => absurd rfl isVote) outOfRange
  | preVote vote =>
    have noSlot : ¬ vote.sourceId.toNat < s.preVotes.length := by
      rw [fits.preVotes.length]
      exact fun inRange => outOfRange fun _ => inRange
    have fails : storePreVote vote p = .error .indexOutOfRange :=
      (reading_of_get? found).trans (if_neg noSlot)
    rw [handleNeeded, Act.andThen, fails]
  | preCommit commit =>
    have noSlot : ¬ commit.sourceId.toNat < s.preCommits.length := by
      rw [fits.preCommits.length]
      exact fun inRange => outOfRange fun _ => inRange
    have fails : storePreCommit commit p = .error .indexOutOfRange :=
      (reading_of_get? found).trans (if_neg noSlot)
    rw [handleNeeded, Act.andThen, fails]

theorem handleMessage_cases (sound : p.Sound)
    (success : handleMessage setting msg p = .ok (after, out)) :
    Delivered setting msg p after out := by
  by_cases inRange : msg.InRange p.n
  · obtain ⟨_, _, handled, spec⟩ := handleMessage_spec setting sound inRange
    rw [handled] at success
    cases success
    exact spec
  · obtain ⟨between, earlier, checked, arrives⟩ := checkRound_spec setting.catchUp msg.basic sound
    rw [handleMessage_eq, Act.andThen_of_ok checked] at success
    obtain late | needed := lt_or_ge msg.basic.heightRound between.currentHR
    · rw [ifNeeded_of_lt late] at success
      cases success
      simpa using .dropped arrives late
    · obtain ⟨s, found⟩ := arrives.record sound needed
      rw [ifNeeded_of_le needed, handleNeeded_outOfRange (arrives.sound sound) found
        (arrives.same.1 ▸ inRange)] at success
      cases success

theorem Sound.reacted {state : HeightRoundState ν} {me : BasicMessage} {cause : Cause}
    (sound : p.Sound) (here : p.currentHR = msg.basic.heightRound)
    (found : p.states.get? p.currentHR = some s)
    (reacting : Reacting p.n me cause (s.receive msg) out state) :
    (p.put p.currentHR state).Sound := by
  obtain ⟨-, fits, active, -⟩ := sound.records found
  exact sound.put (le_refl _) (reacting.sameMessages.fits (fits.receive here.symm))
    (fun _ => reacting.active (active rfl).receive) fun later => absurd later (lt_irrefl _)

theorem Handled.sound (handled : Handled setting msg p after out) (sound : p.Sound)
    (here : p.currentHR = msg.basic.heightRound) (bounded : msg.basic.heightRound.Bounded) :
    after.Sound := by
  cases handled with
  | reacted found reacting => exact sound.reacted here found reacting
  | decided _ _ _ _ _ =>
    have later := setting.lt_next bounded
    rw [← here] at later
    rw [entered_put later]
    exact sound.entered later

theorem Handled.currentHR_le (handled : Handled setting msg p after out)
    (here : p.currentHR = msg.basic.heightRound) (bounded : msg.basic.heightRound.Bounded) :
    p.currentHR ≤ after.currentHR := by
  cases handled with
  | reacted _ _ => exact le_refl p.currentHR
  | decided _ _ _ _ _ =>
    rw [← here] at bounded
    exact le_of_lt (setting.lt_next bounded)

theorem Delivered.sound (delivered : Delivered setting msg p after out) (sound : p.Sound)
    (bounded : msg.basic.heightRound.Bounded) : after.Sound := by
  cases delivered with
  | dropped arrives _ => exact arrives.sound sound
  | vote _ later _ =>
    have known : msg.basic.sourceId ∈ (p.heard msg.basic).sources := Finset.mem_insert_self _ _
    obtain ⟨-, fits, -, ahead⟩ := (sound.heard later).records get?_put_self
    exact sound.put (le_of_lt later) (fits.receive rfl) (fun same => absurd same later.ne')
      fun isLater => (ahead isLater).receive known
  | @proposal proposal cur isProposal later _ found =>
    have known : proposal.sourceId ∈ (p.heard proposal.toBasicMessage).sources :=
      Finset.mem_insert_self _ _
    obtain ⟨-, fits, -, ahead⟩ := (sound.heard later).records get?_put_self
    obtain ⟨-, curFits, active, -⟩ := sound.records found
    have nextFits : ((p.heard proposal.toBasicMessage).receive (.proposal proposal)).Fits p.n
        proposal.heightRound := fits.receive rfl
    have received := sound.put (le_of_lt later) nextFits
      (fun same => absurd same later.ne') fun isLater => (ahead isLater).receive known
    exact received.put (le_refl p.currentHR) ⟨curFits.preVotes, curFits.preCommits⟩
      (fun _ => ⟨(active rfl).undecided, nofun⟩) fun isLater => absurd isLater (lt_irrefl _)
  | handled arrives here handled => exact handled.sound (arrives.sound sound) here bounded

theorem Handled.same (handled : Handled setting msg p after out) :
    after.n = p.n ∧ after.id = p.id := by
  cases handled <;> exact ⟨rfl, rfl⟩

theorem Delivered.same (delivered : Delivered setting msg p after out) :
    after.n = p.n ∧ after.id = p.id := by
  cases delivered with
  | dropped arrives _ => exact arrives.same
  | vote _ _ _ | proposal _ _ _ _ => exact ⟨rfl, rfl⟩
  | handled arrives _ handled =>
    exact ⟨handled.same.1.trans arrives.same.1, handled.same.2.trans arrives.same.2⟩

theorem Delivered.currentHR_le (delivered : Delivered setting msg p after out)
    (bounded : msg.basic.heightRound.Bounded) : p.currentHR ≤ after.currentHR := by
  cases delivered with
  | dropped arrives _ => exact arrives.currentHR_le
  | vote _ _ _ | proposal _ _ _ _ => exact le_refl p.currentHR
  | handled arrives here handled =>
    exact le_trans arrives.currentHR_le (handled.currentHR_le here bounded)

/-!
## Timeouts
-/

theorem onTimeout_expires (around : Around ν) (context : TendermintContext) (populated : p.n ≠ 0)
    (found : p.states.get? p.currentHR = some s) :
    ∃ after out, onTimeout around context p = .ok (after, out) ∧
      Expired around context p after out := by
  unfold onTimeout
  cases isStep : context.stepType with
  | propose =>
    dsimp only
    unfold onTimeoutPropose
    split
    · rw [reading_of_get? found]
      split
      next proposing =>
        rw [castPreVote_of_get? none found]
        exact ⟨_, _, rfl, .reacted found (Reacts.giveUp proposing).reacting⟩
      · exact ⟨_, _, rfl, .ignored⟩
    · exact ⟨_, _, rfl, .ignored⟩
  | preVote =>
    dsimp only
    unfold onTimeoutPreVote
    split
    · rw [reading_of_get? found]
      split
      next voting =>
        rw [castPreCommit_of_get? none found]
        exact ⟨_, _, rfl, .reacted found (Reacts.abstain (.inl rfl) voting).reacting⟩
      · exact ⟨_, _, rfl, .ignored⟩
    · exact ⟨_, _, rfl, .ignored⟩
  | preCommit =>
    dsimp only
    unfold onTimeoutPreCommit
    split
    next here =>
      rw [startNewEra_eq _ _ _ populated, here]
      exact ⟨_, _, rfl, .advanced isStep here⟩
    · exact ⟨_, _, rfl, .ignored⟩

theorem onTimeout_spec (around : Around ν) (context : TendermintContext) (sound : p.Sound) :
    ∃ after out, onTimeout around context p = .ok (after, out) ∧
      Expired around context p after out := by
  obtain ⟨s, found⟩ := sound.current
  exact onTimeout_expires around context sound.populated found

theorem onTimeout_cases (sound : p.Sound)
    (success : onTimeout around context p = .ok (after, out)) :
    Expired around context p after out := by
  obtain ⟨_, _, handled, spec⟩ := onTimeout_spec around context sound
  rw [handled] at success
  cases success
  exact spec

theorem Expired.sound (expired : Expired around context p after out) (sound : p.Sound)
    (countable : context.Countable) : after.Sound := by
  cases expired with
  | ignored => exact sound
  | reacted found reacting =>
    obtain ⟨-, fits, active, -⟩ := sound.records found
    exact sound.put (le_refl _) (reacting.sameMessages.fits fits)
      (fun _ => reacting.active (active rfl)) fun later => absurd later (lt_irrefl _)
  | advanced isPreCommit here =>
    have bounded := countable isPreCommit
    rw [here] at bounded
    exact sound.entered (lt_of_lt_of_le bounded.lt_round (around.le_target _ _))

theorem Expired.same (expired : Expired around context p after out) :
    after.n = p.n ∧ after.id = p.id := by
  cases expired <;> exact ⟨rfl, rfl⟩

theorem Expired.currentHR_le
    (expired : Expired around context p after out) (countable : context.Countable) :
    p.currentHR ≤ after.currentHR := by
  cases expired with
  | ignored => exact le_refl _
  | reacted _ _ => exact le_refl p.currentHR
  | advanced isPreCommit here =>
    have bounded := countable isPreCommit
    rw [here] at bounded
    exact le_of_lt (lt_of_lt_of_le bounded.lt_round (around.le_target _ _))

/-!
## The first round
-/

omit [Proposal ν] in
theorem sound_first {n : Nat} (two : 2 ≤ n) (id : Int) (first hr : HeightRound) :
    (entered ⟨id, n, first, ∅⟩ hr : Partner ν).Sound where
  two := two
  current := ⟨_, get?_entered_self⟩
  records {other state} found := by
    rw [get?_entered] at found
    split at found
    next same =>
      cases found
      have fits : (newHeightRoundState n : HeightRoundState ν).Fits n hr :=
        newHeightRoundState_fits n hr
      rw [same]
      exact ⟨le_refl hr, ⟨fits.preVotes, fits.preCommits⟩, fun _ => ⟨rfl, fun _ => rfl⟩,
        fun later => absurd later (lt_irrefl hr)⟩
    · split at found
      · cases found
      · cases found

end Partner

end AnnchainOG.Bft
