import AnnchainOG.Intake.JointlySigned

/-!
# Batches added at once

The downloader and the fetcher both call `AddTxs`. A call is taken apart at each of its accesses to
the sync buffer, so that any number of calls interleave.
-/

namespace AnnchainOG.Wire.SyncBuffer

open Function

/-! ## The buffer and the calls -/

/-- `addTxs`, which keeps what it added where there is too much; the flag tells whether all fit. -/
def fill (txs : GoMap Hash Txi) (txsList : List Hash) :
    List (Option Txi) → GoMap Hash Txi × List Hash × Bool
  | [] => (txs, txsList, true)
  | tx :: rest =>
    if txs.size > maxBufferSize then (txs, txsList, false)
    else
      match tx with
      | none => fill txs txsList rest
      | some tx => fill (if txs.contains tx.base.hash then txs else txs.set tx.base.hash tx)
          (txsList ++ [tx.base.hash]) rest

structure Buffer where
  acceptTxs : Bool
  txs : GoMap Hash Txi
  txsList : List Hash
  seq : Option Sequencer

inductive Phase where
  | called
  /-- It read that no batch is accepted, and did not say yet that one is. -/
  | loaded
  | entered
  | cleaned
  | checked (seq : Sequencer)
  | added
  | verifying (seq : Sequencer)
  | seeking (keysMap : GoMap Hash Txi) (seekingPool inSeekingPool : List Hash)
  | verified
  | handling (txsList : List Hash)
  | leaving
  | returned

structure Call where
  seq : Option Sequencer
  txs : List (Option Txi)
  phase : Phase
  /-- The sequencer `verifyElders` ran on. -/
  sought : Option Sequencer
  /-- What the buffer held each time `verifyElders` looked into it. -/
  seen : List (GoMap Hash Txi)
  offered : Option Sequencer

structure Answers where
  height : UInt64
  quit : Bool
  isLocalHash : Hash → Bool
  /-- The verifiers pass what the step gives them, and a transaction enters the pool or is there. -/
  accepted : Bool

namespace Call

def step (b : Buffer) (answers : Answers) (call : Call) : Except Unit (Buffer × Call) :=
  match call.phase with
  | .called => .ok (b, { call with phase := if b.acceptTxs then .returned else .loaded })
  | .loaded => .ok ({ b with acceptTxs := true }, { call with phase := .entered })
  | .entered => .ok ({ b with txs := ∅, txsList := [] }, { call with phase := .cleaned })
  | .cleaned =>
    match call.seq with
    | none => .ok (b, { call with phase := .leaving })
    | some seq => .ok (b, { call with
        phase := if seq.base.height = answers.height + 1 then .checked seq else .leaving })
  | .checked seq =>
    let (txs, txsList, filled) := fill b.txs b.txsList call.txs
    .ok ({ b with txs, txsList, seq := some seq },
      { call with phase := if filled then .added else .leaving })
  | .added =>
    if answers.quit then .ok (b, { call with phase := .leaving })
    else
      match b.seq with
      | none => .error ()
      | some seq => .ok (b, { call with phase := .verifying seq, sought := some seq })
  | .verifying seq => .ok (b, { call with
      phase := .seeking b.txs seq.base.parentsHash [], seen := b.txs :: call.seen })
  | .seeking keysMap [] _ =>
    .ok (b, { call with phase := if keysMap.size = 0 then .verified else .leaving })
  | .seeking keysMap (elderHash :: seekingPool) inSeekingPool =>
    .ok (b, { call with
      seen := b.txs :: call.seen
      phase :=
        match b.txs.get? elderHash with
        | none =>
          if answers.isLocalHash elderHash then .seeking keysMap seekingPool inSeekingPool
          else .leaving
        | some elder =>
          let (seekingPool, inSeekingPool) :=
            TxPool.queueParents seekingPool inSeekingPool elder.base.parentsHash
          .seeking (keysMap.delete elderHash) seekingPool inSeekingPool })
  | .verified => .ok (b, { call with phase := .handling b.txsList })
  | .handling [] =>
    match b.seq with
    | none => .error ()
    | some seq => .ok (b, { call with
        phase := .leaving, offered := if answers.accepted then some seq else none })
  | .handling (hash :: rest) =>
    -- the source panics where the hash is no longer there
    match b.txs.get? hash with
    | none => .error ()
    | some _ => .ok (b, { call with
        phase := if answers.isLocalHash hash || answers.accepted then .handling rest else .leaving })
  | .leaving => .ok ({ b with acceptTxs := false }, { call with phase := .returned })
  | .returned => .ok (b, call)

def given (call : Call) (hash : Hash) : Option Txi :=
  (call.txs.filterMap id).find? fun tx => tx.base.hash = hash

/-- What the call offers was given to it, and `verifyElders` only ran on what was given with it. -/
def Faithful (call : Call) : Prop :=
  ∀ seq, call.offered = some seq → call.seq = some seq ∧ call.sought = some seq ∧
    call.seen ≠ [] ∧ ∀ txs ∈ call.seen, ∀ hash, txs.get? hash = call.given hash

end Call

structure Shared where
  buffer : Buffer
  calls : Nat → Call

namespace Shared

def start (batches : Nat → Option Sequencer × List (Option Txi)) : Shared :=
  ⟨⟨false, ∅, [], none⟩,
    fun index => ⟨(batches index).1, (batches index).2, .called, none, [], none⟩⟩

def act (s : Shared) (event : Nat × Answers) : Except Unit Shared :=
  ((s.calls event.1).step s.buffer event.2).map fun (buffer, call) =>
    ⟨buffer, Function.update s.calls event.1 call⟩

/-- No call reads that no batch is accepted between another's read of it and that one's write. -/
def Apart (s : Shared) (event : Nat × Answers) : Prop :=
  (s.calls event.1).phase = .called → s.buffer.acceptTxs = false →
    ∀ other, (s.calls other).phase ≠ .loaded

end Shared

/-! ## What a call adds -/

/-- With no other call, the buffer is filled as in `addBatch`. -/
theorem addTxs_eq_fill (txs : GoMap Hash Txi) (txsList : List Hash) (batch : List (Option Txi)) :
    addTxs txs txsList batch = match fill txs txsList batch with
      | (txs, txsList, true) => .ok (txs, txsList) | (_, _, false) => .error .tooMuchTxs := by
  induction batch generalizing txs txsList with
  | nil => rfl
  | cons tx rest ih =>
    unfold addTxs fill
    split
    · rfl
    cases tx with
    | none => exact ih _ _
    | some tx => exact ih _ _

variable {txs after : GoMap Hash Txi} {txsList afterList : List Hash} {batch : List (Option Txi)}

theorem fill_listed (filled : fill txs txsList batch = (after, afterList, true)) {hash : Hash}
    (listed : hash ∈ afterList) :
    hash ∈ txsList ∨ ∃ tx ∈ batch.filterMap id, tx.base.hash = hash := by
  induction batch generalizing txs txsList with
  | nil =>
    cases filled
    exact .inl listed
  | cons tx rest ih =>
    unfold fill at filled
    split at filled
    · cases filled
    cases tx with
    | none => exact ih filled
    | some tx => grind [ih filled]

/-! ## One call at a time -/

def Phase.Inside (phase : Phase) : Prop :=
  phase ≠ .called ∧ phase ≠ .returned

namespace Call

def Owns (b : Buffer) (call : Call) : Prop :=
  b.seq = call.seq ∧ call.seq ≠ none ∧ (∀ hash, b.txs.get? hash = call.given hash) ∧
    ∀ hash ∈ b.txsList, b.txs.get? hash ≠ none

def Holds (b : Buffer) (call : Call) : Phase → Prop
  | .cleaned => b.txs = ∅ ∧ b.txsList = []
  | .checked seq => call.seq = some seq ∧ b.txs = ∅ ∧ b.txsList = []
  | .added => call.Owns b
  | .verifying _ => call.Owns b ∧ call.sought = call.seq
  | .seeking .. | .verified => call.Owns b ∧ call.sought = call.seq ∧ call.seen ≠ []
  | .handling rest => call.Owns b ∧ call.sought = call.seq ∧ call.seen ≠ [] ∧
      ∀ hash ∈ rest, b.txs.get? hash ≠ none
  | _ => True

structure Tidy (b : Buffer) (call : Call) : Prop where
  faithful : call.Faithful
  looked : ∀ txs ∈ call.seen, ∀ hash, txs.get? hash = call.given hash
  holds : call.Holds b call.phase

def Keeps : Except Unit (Buffer × Call) → Prop
  | .error _ => False
  | .ok (b, call) => call.Tidy b

variable {b : Buffer} {answers : Answers} {call : Call}

theorem Holds.orLeaving {phase : Phase} {condition : Prop} [Decidable condition]
    (holds : condition → call.Holds b phase) :
    call.Holds b (if condition then phase else .leaving) := by
  split
  · exact holds ‹_›
  · trivial

theorem Faithful.looked {seen : List (GoMap Hash Txi)} (faithful : call.Faithful)
    (hasLooked : seen ≠ []) (looked : ∀ txs ∈ seen, ∀ hash, txs.get? hash = call.given hash)
    (phase : Phase) : { call with seen, phase }.Faithful := by
  intro seq offered
  obtain ⟨given, run, -⟩ := faithful seq offered
  exact ⟨given, run, hasLooked, looked⟩

theorem Tidy.step (tidy : call.Tidy b) : Keeps (call.step b answers) := by
  obtain ⟨faithful, looked, holds⟩ := tidy
  obtain ⟨seq, txs, phase, sought, seen, offered⟩ := call
  unfold Call.step
  cases phase with
  | loaded | leaving | returned => exact ⟨faithful, looked, trivial⟩
  | entered => exact ⟨faithful, looked, rfl, rfl⟩
  | called =>
    refine ⟨faithful, looked, ?_⟩
    cases b.acceptTxs <;> trivial
  | cleaned =>
    cases seq with
    | none => exact ⟨faithful, looked, trivial⟩
    | some seq => exact ⟨faithful, looked, .orLeaving fun _ => ⟨rfl, holds⟩⟩
  | checked own =>
    obtain ⟨isSeq, empty, unlisted⟩ := holds
    refine ⟨faithful, looked, .orLeaving fun filled => ?_⟩
    have filling : fill b.txs b.txsList txs = (_, _, true) := Prod.ext rfl (Prod.ext rfl filled)
    have added := addTxs_get? (by rw [addTxs_eq_fill, filling])
    have listed := @fill_listed _ _ _ _ _ filling
    simp only [empty, unlisted, GoMap.get?_empty, Option.none_or] at added listed
    cases isSeq
    refine ⟨rfl, by simp, ?_, fun hash member absent => ?_⟩
    · simp only [empty, unlisted]
      exact added
    · grind [List.find?_eq_none]
  | added =>
    obtain ⟨isSeq, present, same⟩ := holds
    obtain ⟨own, rfl⟩ := Option.ne_none_iff_exists'.mp present
    simp only [isSeq]
    split
    · exact ⟨faithful, looked, trivial⟩
    refine ⟨fun offers isOffered => ?_, looked, ⟨isSeq, present, same⟩, rfl⟩
    obtain ⟨given, -, rest⟩ := faithful offers isOffered
    exact ⟨given, given, rest⟩
  | verifying next =>
    have allLooked := List.forall_mem_cons.mpr ⟨holds.1.2.2.1, looked⟩
    exact ⟨faithful.looked (List.cons_ne_nil _ _) allLooked _, allLooked, holds.1, holds.2, by simp⟩
  | seeking keysMap seekingPool inSeekingPool =>
    cases seekingPool with
    | nil => exact ⟨faithful, looked, .orLeaving fun _ => holds⟩
    | cons elderHash seekingPool =>
      have allLooked := List.forall_mem_cons.mpr ⟨holds.1.2.2.1, looked⟩
      refine ⟨faithful.looked (List.cons_ne_nil _ _) allLooked _, allLooked, ?_⟩
      cases b.txs.get? elderHash with
      | none => exact .orLeaving fun _ => ⟨holds.1, holds.2.1, by simp⟩
      | some elder => exact ⟨holds.1, holds.2.1, by simp⟩
  | verified =>
    obtain ⟨owns, run, hasLooked⟩ := holds
    exact ⟨faithful, looked, owns, run, hasLooked, owns.2.2.2⟩
  | handling txsList =>
    obtain ⟨owns, run, hasLooked, there⟩ := holds
    cases txsList with
    | nil =>
      obtain ⟨own, rfl⟩ := Option.ne_none_iff_exists'.mp owns.2.1
      simp only [owns.1]
      refine ⟨fun offers isOffered => ?_, looked, trivial⟩
      have isOwn : some own = some offers := by grind
      exact ⟨isOwn, run.trans isOwn, hasLooked, looked⟩
    | cons hash rest =>
      obtain ⟨tx, found⟩ := Option.ne_none_iff_exists'.mp (there hash (by simp))
      simp only [found]
      refine ⟨faithful, looked, .orLeaving fun _ => ⟨owns, run, hasLooked, ?_⟩⟩
      exact fun hash member => there hash (.tail _ member)

theorem Tidy.outside (tidy : call.Tidy b) (outside : ¬ call.phase.Inside) (other : Buffer) :
    call.Tidy other := by
  refine ⟨tidy.faithful, tidy.looked, ?_⟩
  cases phase : call.phase <;> simp_all [Phase.Inside, Holds]

variable {after : Buffer × Call}

theorem step_batch (stepped : call.step b answers = .ok after) :
    after.2.seq = call.seq ∧ after.2.txs = call.txs := by
  unfold step at stepped
  grind

theorem step_outside (stepped : call.step b answers = .ok after) (outside : ¬ call.phase.Inside) :
    after.1 = b ∧ (after.2.phase.Inside →
      call.phase = .called ∧ b.acceptTxs = false ∧ after.2.phase = .loaded) := by
  unfold step at stepped
  grind [Phase.Inside]

theorem step_inside (stepped : call.step b answers = .ok after) (inside : call.phase.Inside)
    (flagged : call.phase ≠ .loaded → b.acceptTxs = true) (still : after.2.phase.Inside) :
    after.1.acceptTxs = true := by
  unfold step at stepped
  grind [Phase.Inside]

end Call

namespace Shared

variable {batches : Nat → Option Sequencer × List (Option Txi)} {s : Shared}
  {event : Nat × Answers}

structure Orderly (batches : Nat → Option Sequencer × List (Option Txi)) (s : Shared) : Prop where
  batch : ∀ index, ((s.calls index).seq, (s.calls index).txs) = batches index
  tidy : ∀ index, (s.calls index).Tidy s.buffer
  single : ∀ left right, (s.calls left).phase.Inside → (s.calls right).phase.Inside → left = right
  flagged : ∀ index, (s.calls index).phase.Inside → (s.calls index).phase ≠ .loaded →
    s.buffer.acceptTxs = true

theorem Orderly.start : (start batches).Orderly batches where
  batch _ := rfl
  tidy _ := by constructor <;> simp [Shared.start, Call.Faithful, Call.Holds]
  single _ _ inside := (inside.1 rfl).elim
  flagged _ inside := (inside.1 rfl).elim

theorem Orderly.act (orderly : s.Orderly batches) (apart : s.Apart event) :
    ∃ after, s.act event = .ok after ∧ after.Orderly batches := by
  have kept := @Call.Tidy.step _ event.2 _ (orderly.tidy event.1)
  unfold Shared.act
  cases stepped : (s.calls event.1).step s.buffer event.2 with
  | error =>
    rw [stepped] at kept
    exact kept.elim
  | ok after =>
    rw [stepped] at kept
    have outside := Call.step_outside stepped
    -- a step of a call that is not in the buffer, while another is, changes nothing there
    have other : ∀ index, index ≠ event.1 → (s.calls index).phase.Inside →
        after.1 = s.buffer ∧ ¬ after.2.phase.Inside := by
      intro index different inside
      have out := fun within => different (orderly.single _ _ inside within)
      refine ⟨(outside out).1, fun enters => ?_⟩
      obtain ⟨isCalled, closed, -⟩ := (outside out).2 enters
      have flagged := orderly.flagged index inside (apart isCalled closed index)
      simp [closed] at flagged
    refine ⟨⟨after.1, update s.calls event.1 after.2⟩, rfl, ?_, ?_, ?_, ?_⟩
    · have batch := orderly.batch
      grind [update_apply, Call.step_batch stepped]
    · intro index
      by_cases same : index = event.1
      · simp only [same, update_self]
        exact kept
      simp only [update_of_ne same]
      by_cases inside : (s.calls index).phase.Inside
      · exact (other index same inside).1 ▸ orderly.tidy index
      · exact (orderly.tidy index).outside inside _
    · intro left right leftInside rightInside
      have single := orderly.single left right
      grind [update_apply]
    · intro index inside unloaded
      by_cases same : index = event.1
      · simp only [same, update_self] at inside unloaded
        by_cases within : (s.calls event.1).phase.Inside
        · exact Call.step_inside stepped within (orderly.flagged _ within) inside
        · exact (unloaded ((outside within).2 inside).2.2).elim
      · simp only [update_of_ne same] at inside unloaded
        exact (other index same inside).1 ▸ orderly.flagged index inside unloaded

end Shared

def rivals (index : Nat) : Option Sequencer × List (Option Txi) :=
  (some (.first (index.toUInt8 :: ·)), [])

def Answers.all : Answers :=
  ⟨0, false, fun _ => true, true⟩

open Shared

end AnnchainOG.Wire.SyncBuffer
