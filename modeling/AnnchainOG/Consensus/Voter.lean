import AnnchainOG.Consensus.Journal

/-!
# Voters

A voter is a partner without its rounds ahead. A guard says which proposals it meets and which
rounds it enters.
-/

namespace AnnchainOG.Bft

structure Voter (ν : Type) where
  heightRound : HeightRound
  state : HeightRoundState ν

structure Guard (ν : Type) where
  /-- The proposals that are voted for in a round. -/
  offer : HeightRound → MessageProposal ν → Prop
  /-- The proposals that are voted for ahead of their round. -/
  ahead : MessageProposal ν → Prop
  enter : HeightRound → Option ν → HeightRound → Around ν → Prop

section Machine

variable {ν : Type} [Proposal ν]

inductive Moves (guard : Guard ν) (p : Partner ν) (cause : Cause) :
    Voter ν → List (Output ν) → Voter ν → Prop where
  | receive {hr s} (msg : Message ν) : Moves guard p cause ⟨hr, s⟩ [] ⟨hr, s.receive msg⟩
  | react {hr s out after} (reacts : Reacts p.n (p.basicMessage hr) cause s out after)
      (offered : cause = .message .proposal → ∀ proposal ∈ s.messageProposal,
        guard.offer hr proposal) :
      Moves guard p cause ⟨hr, s⟩ out ⟨hr, after⟩
  | ahead {hr s proposal} (later : hr < proposal.heightRound) (allowed : guard.ahead proposal) :
      Moves guard p cause ⟨hr, s⟩
        [.send (.preVote ⟨p.basicMessage proposal.heightRound,
          some (Proposal.getId proposal.value), [], []⟩)]
        ⟨hr, { s with step := .preVote }⟩
  | decide {hr s} (value : ν) (accepted : Bool) :
      Moves guard p cause ⟨hr, s⟩ [.decided hr hr (s.decide value) accepted] ⟨hr, s.decide value⟩
  | wait {hr s next fresh around} (later : hr < next)
      (allowed : guard.enter hr s.lockedValue next around) (isFresh : fresh.Ahead) :
      Moves guard p cause ⟨hr, s⟩ [.wait ⟨next, .propose⟩] ⟨next, fresh⟩
  | propose {hr s next fresh around} (validRound : Int64) (later : hr < next)
      (allowed : guard.enter hr s.lockedValue next around) (isFresh : fresh.Ahead)
      (myTurn : p.id = proposer p.n next) :
      Moves guard p cause ⟨hr, s⟩
        [.send (.proposal ⟨p.basicMessage next, around.value next, validRound, []⟩)] ⟨next, fresh⟩

inductive Moving (guard : Guard ν) (p : Partner ν) (cause : Cause) :
    Voter ν → List (Output ν) → Voter ν → Prop where
  | done {voter} : Moving guard p cause voter [] voter
  | next {voter between after out more} (moves : Moves guard p cause voter out between)
      (rest : Moving guard p cause between more after) : Moving guard p cause voter (out ++ more) after

variable {guard : Guard ν} {p : Partner ν} {cause : Cause} {voter between after : Voter ν}
  {out more : List (Output ν)}

theorem Moves.moving (moves : Moves guard p cause voter out after) : Moving guard p cause voter out after := by
  rw [← out.append_nil]
  exact .next moves .done

theorem Moving.trans (first : Moving guard p cause voter out between)
    (rest : Moving guard p cause between more after) : Moving guard p cause voter
    (out ++ more) after := by
  induction first with
  | done => exact rest
  | next moves _ ih =>
    rw [List.append_assoc]
    exact .next moves (ih rest)

theorem Moving.invariant {motive : Voter ν → List (Output ν) → Prop}
    (kept : ∀ {voter out after log}, Moves guard p cause voter out after → motive voter log →
      motive after (log ++ out))
    (moving : Moving guard p cause voter out after) {log : List (Output ν)}
    (holds : motive voter log) : motive after (log ++ out) := by
  induction moving generalizing log with
  | done =>
    rw [List.append_nil]
    exact holds
  | next moves _ ih =>
    rw [← List.append_assoc]
    exact ih (kept moves holds)

theorem Reacting.moving {hr : HeightRound} {s reacted : HeightRoundState ν}
    (reacting : Reacting p.n (p.basicMessage hr) cause s out reacted)
    (offered : cause = .message .proposal → ∀ proposal ∈ s.messageProposal,
      guard.offer hr proposal) : Moving guard p cause ⟨hr, s⟩ out ⟨hr, reacted⟩ := by
  induction reacting with
  | done => exact .done
  | next reacts _ ih =>
    refine .next (.react reacts offered) (ih ?_)
    rw [reacts.sameMessages.messageProposal]
    exact offered

end Machine

/-!
## The voter of a partner
-/

section Simulation

variable {ν : Type}

structure Guard.Delivers (guard : Guard ν) (p : Partner ν) (cur : HeightRoundState ν)
    (setting : Setting ν) (msg : Message ν) : Prop where
  offer : ∀ proposal, msg = .proposal proposal → guard.offer proposal.heightRound proposal
  ahead : ∀ proposal, msg = .proposal proposal → p.currentHR < proposal.heightRound →
    (p.heard proposal.toBasicMessage).sources.card ≤ p.f → guard.ahead proposal
  catchUp : p.currentHR < msg.basic.heightRound → p.f < (p.heard msg.basic).sources.card →
    guard.enter p.currentHR cur.lockedValue
      (setting.catchUp.target msg.basic.heightRound.height msg.basic.heightRound.round)
      setting.catchUp
  decide : msg.basic.heightRound = p.currentHR →
    guard.enter p.currentHR cur.lockedValue (setting.next p.currentHR) setting.decision
  decideAhead : p.currentHR < msg.basic.heightRound →
    guard.enter msg.basic.heightRound none (setting.next msg.basic.heightRound) setting.decision

def Guard.Expires (guard : Guard ν) (p : Partner ν) (cur : HeightRoundState ν) (around : Around ν)
    (context : TendermintContext) : Prop :=
  context = ⟨p.currentHR, .preCommit⟩ →
    guard.enter p.currentHR cur.lockedValue
      (around.target p.currentHR.height (p.currentHR.round + 1)) around

theorem HeightRoundState.Ahead.restart {s : HeightRoundState ν} (ahead : s.Ahead) :
    { s with step := .propose : HeightRoundState ν }.Ahead :=
  { ahead with step := rfl }

namespace Partner

variable [Proposal ν] {guard : Guard ν} {p before after : Partner ν} {cur : HeightRoundState ν}
  {setting : Setting ν} {msg : Message ν} {out : List (Output ν)}
variable {s : HeightRoundState ν}

theorem Sound.moves_entered (sound : p.Sound) (before : Partner ν) (cause : Cause)
    {hr next : HeightRound}
    {around : Around ν} (same : p.n = before.n ∧ p.id = before.id) (older : p.currentHR < next)
    (later : hr < next) (allowed : guard.enter hr s.lockedValue next around) :
    Moves guard before cause ⟨hr, s⟩ [p.opening around next]
      ⟨next, { p.record next with step := .propose }⟩ := by
  have ahead := sound.record_ahead older
  have sameMessage : p.basicMessage next = before.basicMessage next := by
    rw [basicMessage, basicMessage, same.2]
  unfold opening
  rw [ahead.validValue, Option.getD_none, same.1, same.2, sameMessage]
  split
  next myTurn => exact .propose _ later allowed ahead.restart myTurn
  · exact .wait later allowed ahead.restart

theorem Arrives.moving (arrives : Arrives setting.catchUp msg.basic p after out) (cause : Cause)
    (sound : p.Sound) (found : p.states.get? p.currentHR = some cur)
    (allowed : guard.Delivers p cur setting msg) :
    ∃ now, after.states.get? after.currentHR = some now ∧
      Moving guard p cause ⟨p.currentHR, cur⟩ out ⟨after.currentHR, now⟩ ∧
      (after.currentHR = p.currentHR ∧ now = cur ∨ p.currentHR < after.currentHR ∧ now.Ahead) := by
  cases arrives with
  | here _ => exact ⟨cur, found, .done, .inl ⟨rfl, rfl⟩⟩
  | ahead later _ =>
    refine ⟨cur, ?_, .done, .inl ⟨rfl, rfl⟩⟩
    rw [put_currentHR, get?_put, if_neg later.ne, found]
  | catchUp later many =>
    have entering := lt_of_lt_of_le later (setting.catchUp.le_target
      msg.basic.heightRound.height msg.basic.heightRound.round)
    have heardSound := sound.heard later
    refine ⟨_, get?_entered_self, ?_, .inr ⟨entering, (heardSound.record_ahead entering).restart⟩⟩
    exact (heardSound.moves_entered p cause ⟨rfl, rfl⟩ entering entering
      (allowed.catchUp later many)).moving

theorem Reacting.lock_of_preCommit {n : Nat} {me : BasicMessage} {reacted : HeightRoundState ν}
    (reacting : Reacting n me (.message .preCommit) s out reacted) :
    reacted.lockedValue = s.lockedValue := by
  induction reacting with
  | done => rfl
  | next reacts _ ih =>
    rw [ih]
    cases reacts with
    | abstain _ _ | awaitPreCommits _ => rfl

omit [Proposal ν] in
theorem opening_put {hr other : HeightRound} (different : other ≠ hr)
    (around : Around ν) : (p.put hr s).opening around other = p.opening around other := by
  rw [opening, opening, record_put_of_ne different, put_id, put_n, put_basicMessage]

theorem Handled.moving {now : HeightRoundState ν} (handled : Handled setting msg p after out)
    (sound : p.Sound) (here : p.currentHR = msg.basic.heightRound)
    (bounded : msg.basic.heightRound.Bounded) (found : p.states.get? p.currentHR = some now)
    (same : p.n = before.n ∧ p.id = before.id)
    (offered : ∀ proposal, msg = .proposal proposal → guard.offer proposal.heightRound proposal)
    (decides : guard.enter p.currentHR now.lockedValue (setting.next p.currentHR)
      setting.decision) :
    ∃ last, after.states.get? after.currentHR = some last ∧
      Moving guard before (.message msg.type) ⟨p.currentHR, now⟩ out ⟨after.currentHR, last⟩ := by
  have sameMessage : p.basicMessage p.currentHR = before.basicMessage p.currentHR := by
    rw [basicMessage, basicMessage, same.2]
  have offeredHere : Cause.message msg.type = .message .proposal →
      ∀ proposal ∈ (now.receive msg).messageProposal, guard.offer p.currentHR proposal := by
    intro isProposal proposal held
    cases msg with
    | preVote _ | preCommit _ => cases isProposal
    | proposal received =>
      cases held
      rw [here]
      exact offered _ rfl
  cases handled with
  | @reacted s final _ foundHere reacting =>
    obtain rfl : now = s := Option.some.inj (found.symm.trans foundHere)
    rw [same.1, sameMessage] at reacting
    exact ⟨final, get?_put_self, .next (.receive msg) (reacting.moving offeredHere)⟩
  | @decided s reacted quiet proposal isCommit foundHere reacting _ _ =>
    obtain rfl : now = s := Option.some.inj (found.symm.trans foundHere)
    have later := setting.lt_next bounded
    rw [← here] at later
    have lockKept : reacted.lockedValue = now.lockedValue := by
      rw [isCommit] at reacting
      rw [Reacting.lock_of_preCommit reacting]
      cases msg <;> rfl
    have allowed : guard.enter p.currentHR (reacted.decide proposal.value).lockedValue
        (setting.next p.currentHR) setting.decision := by
      rw [HeightRoundState.decide, lockKept]
      exact decides
    rw [same.1, sameMessage] at reacting
    rw [entered_put later, opening_put later.ne']
    have received : Moving guard before (.message msg.type) ⟨p.currentHR, now⟩ quiet
        ⟨p.currentHR, reacted⟩ :=
      .next (.receive msg) (reacting.moving offeredHere)
    refine ⟨_, get?_entered_self, received.trans ?_⟩
    exact .next (.decide proposal.value setting.accepted)
      (sound.moves_entered before _ same later later allowed).moving

theorem Delivered.moving (delivered : Delivered setting msg p after out) (sound : p.Sound)
    (bounded : msg.basic.heightRound.Bounded) (found : p.states.get? p.currentHR = some cur)
    (allowed : guard.Delivers p cur setting msg) :
    ∃ last, after.states.get? after.currentHR = some last ∧
      Moving guard p (.message msg.type) ⟨p.currentHR, cur⟩ out ⟨after.currentHR, last⟩ := by
  cases delivered with
  | dropped arrives _ =>
    obtain ⟨now, foundNow, moving, -⟩ := arrives.moving (.message msg.type) sound found allowed
    exact ⟨now, foundNow, moving⟩
  | vote _ later _ =>
    refine ⟨cur, ?_, .done⟩
    rw [put_currentHR, get?_put, if_neg later.ne, found]
  | proposal isProposal later few foundHere =>
    obtain rfl : cur = _ := Option.some.inj (found.symm.trans foundHere)
    exact ⟨_, get?_put_self, (Moves.ahead later (allowed.ahead _ isProposal later few)).moving⟩
  | @handled between _ _ _ arrives here handled =>
    obtain ⟨now, foundNow, moving, where_⟩ := arrives.moving (.message msg.type) sound found allowed
    have decides : guard.enter between.currentHR now.lockedValue
        (setting.next between.currentHR) setting.decision := by
      cases where_ with
      | inl stayed =>
        rw [stayed.1, stayed.2]
        exact allowed.decide (here.symm.trans stayed.1)
      | inr entered =>
        rw [entered.2.lockedValue, here]
        exact allowed.decideAhead (here ▸ entered.1)
    obtain ⟨last, foundLast, rest⟩ := handled.moving (arrives.sound sound) here bounded foundNow
      arrives.same allowed.offer decides
    exact ⟨last, foundLast, moving.trans rest⟩

theorem Expired.moving {around : Around ν} {context : TendermintContext}
    (expired : Expired around context p after out) (sound : p.Sound)
    (countable : context.Countable) (found : p.states.get? p.currentHR = some cur)
    (allowed : guard.Expires p cur around context) :
    ∃ last, after.states.get? after.currentHR = some last ∧
      Moving guard p .timeout ⟨p.currentHR, cur⟩ out ⟨after.currentHR, last⟩ := by
  cases expired with
  | ignored => exact ⟨cur, found, .done⟩
  | @reacted s final _ foundHere reacting =>
    obtain rfl : cur = s := Option.some.inj (found.symm.trans foundHere)
    exact ⟨final, get?_put_self, reacting.moving nofun⟩
  | advanced isPreCommit here =>
    have bounded := countable isPreCommit
    rw [here] at bounded
    have later := lt_of_lt_of_le bounded.lt_round (around.le_target _ _)
    have isContext : context = ⟨p.currentHR, .preCommit⟩ := by rw [← here, ← isPreCommit]
    exact ⟨_, get?_entered_self,
      (sound.moves_entered p _ ⟨rfl, rfl⟩ later later (allowed isContext)).moving⟩

end Partner

def Guard.Allows (guard : Guard ν) (p : Partner ν) (cur : HeightRoundState ν) : Event ν → Prop
  | .deliver setting msg => guard.Delivers p cur setting msg
  | .timeout around context => guard.Expires p cur around context

def Event.cause : Event ν → Cause
  | .deliver _ msg => .message msg.type
  | .timeout _ _ => .timeout

def Journal.Holds (inv : Voter ν → List (Output ν) → Prop) (j : Journal ν) : Prop :=
  ∃ cur, j.partner.states.get? j.partner.currentHR = some cur ∧
    inv ⟨j.partner.currentHR, cur⟩ j.log

variable {inv : Voter ν → List (Output ν) → Prop} {n : Nat} {j next : Journal ν}

theorem Journal.holds_start {id : Int} {around : Around ν} {height : UInt64} {round : Int64}
    (started : Journal.start n id around height round = .ok j)
    (waiting : ∀ {hr fresh}, fresh.Ahead → inv ⟨hr, fresh⟩ [.wait ⟨hr, .propose⟩])
    (proposing : ∀ {hr fresh proposal}, fresh.Ahead → inv ⟨hr, fresh⟩ [.send (.proposal proposal)]) :
    j.Holds inv := by
  obtain ⟨-, isFirst, -⟩ := start_ok started
  have fresh : (Partner.record ⟨id, n, ⟨0, 0⟩, ∅⟩ (around.target height round) :
      HeightRoundState ν).Ahead := newHeightRoundState_ahead n
  refine ⟨_, by rw [isFirst]; exact Partner.get?_entered_self, ?_⟩
  rw [start_log started, isFirst, Partner.opening]
  split
  · exact proposing fresh.restart
  · exact waiting fresh.restart

variable [Proposal ν] {guard : Guard ν} {event : Event ν} {out : List (Output ν)}

theorem Journal.Kept.moving {cur : HeightRoundState ν} (kept : j.Kept n) (fair : event.Fair j)
    (handled : Partner.handle event j.partner = .ok (next.partner, out))
    (found : j.partner.states.get? j.partner.currentHR = some cur)
    (allowed : guard.Allows j.partner cur event) :
    ∃ last, next.partner.states.get? next.partner.currentHR = some last ∧
      Moving guard j.partner event.cause ⟨j.partner.currentHR, cur⟩ out
        ⟨next.partner.currentHR, last⟩ := by
  cases event with
  | deliver setting msg =>
    exact (Partner.handleMessage_cases kept.sound handled).moving kept.sound fair.bounded found
      allowed
  | timeout around context =>
    exact (Partner.onTimeout_cases kept.sound handled).moving kept.sound
      (kept.countable context fair.armed) found allowed

theorem Journal.Holds.step (holds : j.Holds inv) (kept : j.Kept n) (fair : event.Fair j)
    (stepped : j.step event = .ok (next, out))
    (allowed : ∀ cur, j.partner.states.get? j.partner.currentHR = some cur →
      guard.Allows j.partner cur event)
    (keeps : ∀ {voter out after log}, Moves guard j.partner event.cause voter out after →
      inv voter log → inv after (log ++ out)) : next.Holds inv := by
  obtain ⟨handled, extended⟩ := step_ok stepped
  obtain ⟨cur, found, now⟩ := holds
  obtain ⟨last, foundLast, moving⟩ := kept.moving fair handled found (allowed cur found)
  refine ⟨last, foundLast, ?_⟩
  rw [log_of_entries extended]
  exact moving.invariant keeps now

end Simulation

end AnnchainOG.Bft
