import AnnchainOG.Intake.JointlySigned

/-!
# Waiting for the term

The first sequencer is verified in a loop around a `select` with two timers, which are armed again
in every iteration.
-/

namespace AnnchainOG.Wire

open Option

/-- When `Started` answers true and when the node is stopped, in milliseconds. -/
structure Course where
  started : Nat → Bool
  closed : Option Nat

inductive SelectCase where
  | tick
  | close
  | expired

inductive Progress where
  | waiting (now : Nat)
  | returned (ok : Bool)

namespace Course

/-- The cases of a `select` that is entered at `now`, with the time from which each is ready. -/
def cases (course : Course) (now : Nat) : List (Nat × SelectCase) :=
  (now + 50, .tick) :: (now + 2000, .expired) ::
    (course.closed.map fun closed => (max now closed, SelectCase.close)).toList

/-- A `select` takes a case that is ready first. -/
def Takes (course : Course) (now time : Nat) (case : SelectCase) : Prop :=
  (time, case) ∈ course.cases now ∧ ∀ other ∈ course.cases now, time ≤ other.1

def iterate (course : Course) (time : Nat) : SelectCase → Progress
  | .tick => if course.started time then .waiting time else .waiting time
  | .close | .expired => .returned false

/-- Whichever cases are taken, finitely many iterations lead to a return. -/
inductive Returns (course : Course) : Progress → Prop where
  | returned (ok : Bool) : Returns course (.returned ok)
  | waiting (now : Nat) (taken : ∃ time case, course.Takes now time case)
      (iterated : ∀ time case, course.Takes now time case → Returns course (course.iterate time case)) :
      Returns course (.waiting now)

/-- `VerifySequencer` up to its loop; a nil sender and a nil key panic. -/
def verifySequencer {κ : Type} [DecidableEq κ] (bls : Bls κ) (course : Course) (now : Nat)
    (disable : Bool) (a : AnnSensus κ) (seq : Sequencer) : Option Progress :=
  if disable then some (.returned true)
  else
    match seq.issuer with
    | none => none
    | some sender =>
      if !a.isSenator sender then some (.returned false)
      else if seq.proposing then some (.returned true)
      else if !course.started now then
        if seq.base.height > 1 then some (.returned false) else some (.waiting now)
      else (a.dkg.verifyBlsSig bls (hashBytes seq.base.hash) seq.blsJointSig seq.blsJointPubKey
        a.dkgTermId).map .returned

variable {course : Course} {now time : Nat} {case : SelectCase}

theorem iterate_tick : course.iterate time .tick = .waiting time := ite_self _

theorem takes_tick (ready : ∀ closed ∈ course.closed, now + 50 ≤ max now closed) :
    course.Takes now (now + 50) .tick := by
  simpa [Takes, cases] using ready

theorem Returns.closed {progress : Progress} (returns : course.Returns progress)
    (waits : ∃ now, progress = .waiting now) : course.closed ≠ none := by
  induction returns with
  | returned ok =>
    obtain ⟨now, waits⟩ := waits
    cases waits
  | waiting now taken iterated ih =>
    intro runs
    have tick : course.Takes now (now + 50) .tick := takes_tick (by simp [runs])
    exact ih _ _ tick ⟨_, iterate_tick⟩ runs

theorem takes_some (now : Nat) : ∃ time case, course.Takes now time case := by
  by_cases ready : ∀ closed ∈ course.closed, now + 50 ≤ max now closed
  · exact ⟨_, _, takes_tick ready⟩
  simp only [not_forall, not_le] at ready
  obtain ⟨closed, isClosed, sooner⟩ := ready
  refine ⟨max now closed, .close, ?_⟩
  simp [Takes, cases, mem_def.mp isClosed]
  omega

theorem returns_of_closed {closed : Nat} (isClosed : course.closed = some closed) (now : Nat) :
    course.Returns (.waiting now) := by
  induction left : closed - now using Nat.strong_induction_on generalizing now with
  | _ left ih =>
    refine .waiting now (takes_some now) fun time case taken => ?_
    cases case with
    | tick =>
      obtain ⟨isReady, first⟩ := taken
      simp only [cases, isClosed, map_some, toList_some, List.forall_mem_cons] at first
      simp [cases, isClosed] at isReady
      rw [iterate_tick]
      -- a tick is only taken before the node is stopped
      exact ih (closed - time) (by omega) time rfl
    | close | expired => exact .returned false

theorem returns_waiting_iff : course.Returns (.waiting now) ↔ course.closed ≠ none := by
  constructor
  · intro returns
    exact returns.closed ⟨now, rfl⟩
  · intro stops
    obtain ⟨closed, isClosed⟩ := ne_none_iff_exists'.mp stops
    exact returns_of_closed isClosed now

end Course

section Verify

variable {κ : Type} [DecidableEq κ] {bls : Bls κ}

/-- There is a key to compare with, unless the given one is not a key. -/
def Dkg.HasKey (bls : Bls κ) (d : Dkg κ) (jointPub : Bytes) (termId : Int) : Prop :=
  bls.unmarshalBinaryPointG2 jointPub ≠ none →
    (if termId < d.termId then d.formerPartner else d.partner) ≠ none

theorem verifyBlsSig_isSome_iff {d : Dkg κ} {msg sig jointPub : Bytes} {termId : Int} :
    (d.verifyBlsSig bls msg sig jointPub termId).isSome ↔ d.HasKey bls jointPub termId := by
  unfold Dkg.verifyBlsSig Dkg.HasKey
  cases bls.unmarshalBinaryPointG2 jointPub with
  | none => simp
  | some pubKey => simp [isSome_iff_ne_none]

theorem verifySequencer_waits (course : Course) (now : Nat) (a : AnnSensus κ) (seq : Sequencer)
    (isStarted : course.started now = a.started) :
    a.verifySequencer bls seq = (course.verifySequencer bls now false a seq).bind fun
      | .waiting _ => none | .returned ok => some ok := by
  unfold AnnSensus.verifySequencer Course.verifySequencer
  rw [isStarted]
  cases seq.issuer with
  | none => rfl
  | some sender =>
    dsimp only
    split
    · rfl
    split
    · rfl
    split
    · split <;> rfl
    · simp [bind_map]

theorem verifySequencer_returns_iff (course : Course) (now : Nat) (disable : Bool) (a : AnnSensus κ)
    (seq : Sequencer) :
    (∃ progress, course.verifySequencer bls now disable a seq = some progress ∧
        course.Returns progress) ↔ disable = true ∨ ∃ sender, seq.issuer = some sender ∧
        (a.isSenator sender = false ∨ seq.proposing = true ∨
          if course.started now then a.dkg.HasKey bls seq.blsJointPubKey a.dkgTermId
          else seq.base.height > 1 ∨ course.closed ≠ none) := by
  unfold Course.verifySequencer
  cases disable with
  | true => simp [Course.Returns.returned]
  | false =>
    cases seq.issuer with
    | none => simp
    | some sender =>
      cases senator : a.isSenator sender with
      | false => simp [senator, Course.Returns.returned]
      | true =>
        cases seq.proposing with
        | true => simp [senator, Course.Returns.returned]
        | false =>
          cases course.started now with
          | true =>
            have answers := @verifyBlsSig_isSome_iff κ _ bls a.dkg (hashBytes seq.base.hash)
              seq.blsJointSig seq.blsJointPubKey a.dkgTermId
            simp only [senator, ← answers]
            cases a.dkg.verifyBlsSig bls _ _ _ _ with
            | none => simp [senator]
            | some ok => simp [Course.Returns.returned]
          | false =>
            by_cases later : 1 < seq.base.height
            · simp [senator, later, Course.Returns.returned]
            · simp [senator, later, Course.returns_waiting_iff]

/-- Neither a term that starts a second later nor one that never starts ends the verification of a
first sequencer. -/
theorem verifySequencer_stuck :
    (∃ progress, Course.verifySequencer Bls.plain ⟨fun now => decide (1000 ≤ now), none⟩ 0 false
        Moment.serving.annSensus (.first (9 :: ·)) = some progress ∧
      ¬ (⟨fun now => decide (1000 ≤ now), none⟩ : Course).Returns progress) ∧
    ∃ progress, Course.verifySequencer Bls.plain ⟨fun _ => false, none⟩ 0 false
        Moment.serving.annSensus (.first (9 :: ·)) = some progress ∧
      ¬ (⟨fun _ => false, none⟩ : Course).Returns progress :=
  ⟨⟨.waiting 0, rfl, fun returns => returns.closed ⟨0, rfl⟩ rfl⟩,
    .waiting 0, rfl, fun returns => returns.closed ⟨0, rfl⟩ rfl⟩

end Verify

end AnnchainOG.Wire
