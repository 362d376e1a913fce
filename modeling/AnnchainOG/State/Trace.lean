import AnnchainOG.State.Lockstep
import AnnchainOG.State.Revert

/-!
# Reverted work and the committed root

Two databases in lockstep commit the same trie, so work that was reverted cleanly leaves no trace
in any later root.
-/

namespace AnnchainOG

open Option

open JournalEntry (heals traceScar)

inductive Event where
  | op (operation : Op)
  | commit

namespace StateDB

def step (sd : StateDB) : Event → Except Panic (Answer × StateDB)
  | .op operation => sd.apply operation
  | .commit => sd.commit.map fun saved => (.done, saved.clearJournalAndRefund)

def live (sd : StateDB) : List Event → Except Panic (List Answer × StateDB)
  | [] => .ok ([], sd)
  | event :: events => do
      let (answer, sd) ← sd.step event
      let (answers, sd) ← sd.live events
      return (answer :: answers, sd)

end StateDB

/-- If the event is a revert, it heals every trace it leaves. -/
def Event.isClean (sd : StateDB) : Event → Bool
  | .op operation => operation.isClean JournalEntry.traceScar sd
  | .commit => true

def StateDB.liveAll (test : StateDB → Event → Bool) (sd : StateDB) : List Event → Bool
  | [] => true
  | event :: events =>
    test sd event &&
      match sd.step event with
      | .error _ => true
      | .ok (_, next) => next.liveAll test events

namespace StateDB

variable {sd : StateDB}
variable {event : Event} {left right after : StateDB} {detached : Set TokenId} {events : List Event}
  {sameIds : Prop}
variable {answers : List Answer} {next : StateDB} {answer : Answer}

theorem live_cons (lived : sd.live (event :: events) = .ok (answers, after)) :
    ∃ answer rest next, sd.step event = .ok (answer, next) ∧
      next.live events = .ok (rest, after) ∧ answers = answer :: rest := by
  obtain ⟨⟨answer, next⟩, stepped, later⟩ := bind_ok lived
  obtain ⟨⟨rest, last⟩, lives, same⟩ := bind_ok later
  cases same
  exact ⟨answer, rest, next, stepped, lives, rfl⟩

theorem liveAll_cons {test : StateDB → Event → Bool}
    (passed : sd.liveAll test (event :: events) = true)
    (stepped : sd.step event = .ok (answer, next)) :
    test sd event = true ∧ next.liveAll test events = true := by
  simpa only [liveAll, stepped, Bool.and_eq_true] using passed

/-- Whatever is cached, a run answers and panics as the run on the abstract state does. -/
theorem abs_live (ops : List Op) :
    (sd.live (ops.map .op)).map (fun lived => (lived.1, lived.2.abs)) =
      ops.mapM (m := StateT FlatDB (Except Panic)) (fun op db => db.apply op) sd.abs := by
  induction ops generalizing sd with
  | nil => rfl
  | cons op ops ih =>
    simp only [List.mapM_cons, bind, StateT.bind, ← abs_apply, List.map_cons, live, step]
    cases sd.apply op with
    | error panic => rfl
    | ok result =>
      simp only [Except.bind, Except.map, ← ih]
      cases result.2.live (ops.map .op) <;> rfl

theorem Sound.step (sound : sd.Sound)
    (stepped : sd.step event = .ok (answer, next)) (clean : event.isClean sd = true) :
    next.Sound := by
  cases event with
  | op operation => exact (sound.apply stepped clean).1
  | commit =>
    simp only [StateDB.step, sound.commit, Except.map, Except.ok.injEq, Prod.mk.injEq] at stepped
    exact stepped.2 ▸ sound.committed_clear

theorem Sound.live (sound : sd.Sound) (lived : sd.live events = .ok (answers, after))
    (clean : sd.liveAll (fun sd event => event.isClean sd) events = true) : after.Sound := by
  induction events generalizing sd answers with
  | nil =>
    cases lived
    exact sound
  | cons event events ih =>
    obtain ⟨answer, rest, next, stepped, restLived, -⟩ := live_cons lived
    obtain ⟨cleanStep, cleanRest⟩ := liveAll_cons clean stepped
    exact ih (sound.step stepped cleanStep) restLived cleanRest

/-! ## Commits of databases in lockstep -/

private theorem committed_codes
    (rightSound : right.Sound) (alike : left.flat.Alike detached right.flat) {code : Bytes}
    (nonempty : code ≠ []) (stored : code ∈ left.committed.codes) :
    code ∈ right.committed.codes := by
  rcases Finset.mem_union.mp stored with old | new
  · exact Finset.mem_union_left _ ((alike.codes code nonempty).mp old)
  obtain ⟨⟨addr, state⟩, member, isCode⟩ :=
    (Multiset.mem_filterMap _ _).mp (Multiset.mem_toFinset.mp new)
  simp only [ite_none_right_eq_some] at isCode
  have present := flat_loaded (GoMap.get?_eq_some_iff.mpr member)
  have sameCode : (state.account left.codes).code = code := by
    simp [StateObject.account, Contract.getCode, isCode.2]
  rcases alike.account_cases addr with ⟨isLeft, -⟩ | ⟨account, suicided, isLeft, isRight⟩
  · rw [isLeft] at present
    cases present
  obtain rfl := Option.some.inj (isLeft.symm.trans present)
  have found := rightSound.code_stored isRight (sameCode ▸ nonempty)
  rwa [show ({ state.account left.codes with suicided := suicided } : Account).code = code
    from sameCode] at found

private theorem cleared_log (sd : StateDB) : sd.clearJournalAndRefund.abs.2 = .empty := rfl

theorem commit_lockstep (leftSound : left.Sound) (rightSound : right.Sound)
    (lockstep : left.abs.Lockstep detached sameIds right.abs) :
    left.committed.trie = right.committed.trie ∧
      left.committed.clearJournalAndRefund.abs.Lockstep detached sameIds
        right.committed.clearJournalAndRefund.abs := by
  have alike : left.flat.Alike detached right.flat := lockstep.flat
  have records : ∀ addr, (left.flat.accounts addr).map Account.record =
      (right.flat.accounts addr).map Account.record := by
    intro addr
    have same := congrArg (Option.map Account.record) (alike.accounts addr)
    rwa [map_map, map_map] at same
  have trie := leftSound.committed_trie rightSound alike.trie records alike.tokens
    alike.latestTokenID alike.latest
  have codes : ∀ code, code ≠ [] →
      (code ∈ left.committed.codes ↔ code ∈ right.committed.codes) := fun code nonempty =>
    ⟨committed_codes rightSound alike nonempty, committed_codes leftSound alike.symm nonempty⟩
  have tokens := left.flat_committed_tokens
  have otherTokens := right.flat_committed_tokens
  refine ⟨trie, ⟨codes, trie, fun addr => ?_, fun tokenID => ?_, fun tokenID outside => ?_,
    alike.latestTokenID, congrArg (latestMark · false) trie, rfl⟩, ?_, ?_, fun _ => ?_⟩
  · refine (leftSound.committed_saved addr).trans (Eq.trans ?_
      (rightSound.committed_saved addr).symm)
    exact Flat.baseAccount_congr codes trie addr
  · exact (congrArg (fun tokens => (tokens tokenID).map TokenObject.data) tokens).trans
      ((alike.tokens tokenID).trans
        (congrArg (fun tokens => (tokens tokenID).map TokenObject.data) otherTokens).symm)
  · exact (congrFun tokens tokenID).trans
      ((alike.attached tokenID outside).trans (congrFun otherTokens tokenID).symm)
  · rw [cleared_log, cleared_log]
  · rw [cleared_log, cleared_log]
  · rw [cleared_log, cleared_log]
    exact ⟨rfl, rfl⟩

/-! ## Lives of databases in lockstep -/

private theorem plain_traceScar (entry : Entry) : entry.plain.traceScar = entry.traceScar := by
  cases entry with
  | balance _ _ prev => cases prev <;> rfl
  | _ => rfl

private theorem plain_heals (entry : Entry) : entry.plain.heals = entry.heals := by
  cases entry <;> rfl

private theorem healsScars_undone {sd : StateDB} {snapshotid : Nat} {undone : List Entry}
    {rest : UndoLog Entry} (found : sd.abs.2.revertTo snapshotid = some (undone, rest)) :
    healsScars traceScar heals (sd.undone snapshotid) =
      healsScars traceScar heals (undone.map Entry.plain) := by
  rw [revertTo_abs found, healsScars_map, healsScars_map]
  simp only [Function.comp_def, plain_traceScar, plain_heals, Change.view_traceScar,
    Change.view_heals]

theorem isClean_lockstep (lockstep : left.abs.Lockstep detached sameIds right.abs)
    (clean : event.isClean left = true) : event.isClean right = true := by
  cases event with
  | commit => rfl
  | op operation =>
    cases operation with
    | revert position =>
      simp only [Event.isClean, Op.isClean] at clean ⊢
      cases otherPresent : right.journal.snapshotSet[position]? with
      | none => rfl
      | some other =>
        have sameShot := congrArg (fun indices => indices[position]?) lockstep.shots
        simp only [List.getElem?_map] at sameShot
        rw [show right.abs.2.snapshotSet[position]? = some other from otherPresent,
          map_some, map_eq_some_iff] at sameShot
        obtain ⟨shot, present, sameIndex⟩ := sameShot
        obtain ⟨undone, rest, found, entries, length, -⟩ := UndoLog.revertTo_position present
        obtain ⟨otherUndone, otherRest, otherFound, otherEntries, otherLength, -⟩ :=
          UndoLog.revertTo_position
            (show right.abs.2.snapshotSet[position]? = some other from otherPresent)
        have joined := lockstep.entries
        rw [entries, otherEntries, List.map_append, List.map_append] at joined
        obtain ⟨sameUndone, -⟩ := List.append_inj' joined (by simp [length, otherLength, sameIndex])
        simp only [show left.journal.snapshotSet[position]? = some shot from present,
          healsScars_undone found, sameUndone] at clean
        simpa only [healsScars_undone otherFound] using clean
    | _ => rfl

def Spares (detached : Set TokenId) (sd : StateDB) : Event → Prop
  | .op operation => operation.Spares detached sd.flat
  | .commit => True

theorem step_lockstep (leftSound : left.Sound) (rightSound : right.Sound)
    (lockstep : left.abs.Lockstep detached sameIds right.abs)
    (spares : left.Spares detached event) :
    (∃ panic, left.step event = .error panic ∧ right.step event = .error panic) ∨
      ∃ answer otherAnswer next otherNext, left.step event = .ok (answer, next) ∧
        right.step event = .ok (otherAnswer, otherNext) ∧ (sameIds → answer = otherAnswer) ∧
        next.abs.Lockstep detached sameIds otherNext.abs := by
  cases event with
  | commit =>
    refine .inr ⟨.done, .done, left.committed.clearJournalAndRefund,
      right.committed.clearJournalAndRefund, ?_, ?_, fun _ => rfl,
      (commit_lockstep leftSound rightSound lockstep).2⟩
    · simp only [StateDB.step, leftSound.commit, Except.map]
    · simp only [StateDB.step, rightSound.commit, Except.map]
  | op operation =>
    have agree := @FlatDB.Lockstep.apply _ _ _ _ lockstep operation spares
    rw [← abs_apply, ← abs_apply] at agree
    simp only [StateDB.step]
    generalize left.apply operation = applied, right.apply operation = otherApplied at agree ⊢
    cases applied with
    | error panic =>
      cases otherApplied with
      | error otherPanic =>
        cases agree
        exact .inl ⟨panic, rfl, rfl⟩
      | ok result => cases agree
    | ok result =>
      cases otherApplied with
      | error otherPanic => cases agree
      | ok otherResult =>
        cases agree with
        | ok answers after => exact .inr ⟨_, _, _, _, rfl, rfl, answers, after⟩

def LiveSpares (detached : Set TokenId) (sd : StateDB) : List Event → Prop
  | [] => True
  | event :: events => sd.Spares detached event ∧
      ∀ answer next, sd.step event = .ok (answer, next) → next.LiveSpares detached events

theorem live_lockstep (leftSound : left.Sound) (rightSound : right.Sound)
    (lockstep : left.abs.Lockstep detached sameIds right.abs)
    (clean : left.liveAll (fun sd event => event.isClean sd) events = true)
    (spares : left.LiveSpares detached events) :
    (∃ panic, left.live events = .error panic ∧ right.live events = .error panic) ∨
      ∃ answers otherAnswers after otherAfter, left.live events = .ok (answers, after) ∧
        right.live events = .ok (otherAnswers, otherAfter) ∧
        (sameIds → answers = otherAnswers) ∧ after.Sound ∧ otherAfter.Sound ∧
        after.abs.Lockstep detached sameIds otherAfter.abs := by
  induction events generalizing left right with
  | nil => exact .inr ⟨[], [], left, right, rfl, rfl, fun _ => rfl, leftSound, rightSound, lockstep⟩
  | cons event events ih =>
    rcases step_lockstep leftSound rightSound lockstep spares.1 with
      ⟨panic, stepped, otherStepped⟩ |
      ⟨answer, otherAnswer, next, otherNext, stepped, otherStepped, sameAnswer, nextLockstep⟩
    · left
      refine ⟨panic, ?_, ?_⟩
      · simp only [live, stepped]
        rfl
      · simp only [live, otherStepped]
        rfl
    · obtain ⟨cleanStep, cleanRest⟩ := liveAll_cons clean stepped
      have nextSound := leftSound.step stepped cleanStep
      have otherSound := rightSound.step otherStepped (isClean_lockstep lockstep cleanStep)
      rcases ih nextSound otherSound nextLockstep cleanRest (spares.2 answer next stepped) with
        ⟨panic, lived, otherLived⟩ |
        ⟨answers, otherAnswers, after, otherAfter, lived, otherLived, sameAnswers, rest⟩
      · left
        refine ⟨panic, ?_, ?_⟩
        · simp only [live, stepped, bind, Except.bind, lived]
        · simp only [live, otherStepped, bind, Except.bind, otherLived]
      · right
        refine ⟨answer :: answers, otherAnswer :: otherAnswers, after, otherAfter, ?_, ?_, ?_, rest⟩
        · simp only [live, stepped, bind, Except.bind, lived]
          rfl
        · simp only [live, otherStepped, bind, Except.bind, otherLived]
          rfl
        · intro same
          rw [sameAnswer same, sameAnswers same]

/-! ## Reverted work -/

private theorem alike_of_same {left right : Flat} (same : traceRollback.same left right) :
    left.Alike ∅ right where
  codes code _ := by rw [show left.codes = right.codes from same.codes]
  trie := same.trie
  accounts addr := by
    have equal := same.accounts addr (Set.notMem_empty _)
    rw [map_id', map_id'] at equal
    rw [equal]
  tokens tokenID := by rw [show left.tokens = right.tokens from same.tokens]
  attached tokenID _ := congrFun same.tokens tokenID
  latestTokenID := same.latestTokenID
  latest := same.latest (Set.notMem_empty _)
  refund := same.refund

private theorem spares_attached (sd : StateDB) (events : List Event) : sd.LiveSpares ∅ events := by
  induction events generalizing sd with
  | nil => trivial
  | cons event events ih =>
    refine ⟨?_, fun _ next _ => ih next⟩
    cases event with
    | commit => trivial
    | op operation =>
      cases operation with
      | reIssueToken | destroyToken => exact nofun
      | _ => trivial

private theorem revert_lockstep {sd : StateDB} {between : List Op} (sound : sd.Sound)
    (ran : sd.snapshot.2.run between = .ok after)
    (cleanBetween : sd.snapshot.2.runIsClean traceScar between = true)
    (live : sd.snapshot.1 ∈ after.journal.snapshotSet.map Shot.shotid)
    (cleanRevert : healsScars traceScar heals (after.undone sd.snapshot.1) = true) :
    ∃ reverted, after.revertToSnapshot sd.snapshot.1 = .ok reverted ∧ reverted.Sound ∧
      reverted.abs.Lockstep ∅ False sd.abs := by
  obtain ⟨snapshotSound, -⟩ := @Sound.apply sd _ .snapshot _ sound rfl rfl
  obtain ⟨afterSound, run⟩ := snapshotSound.run ran cleanBetween
  obtain ⟨reverted, undone, rest, isReverted, found, isUndone, isResult⟩ :=
    revertToSnapshot_flat live
  obtain ⟨shot, member, isId⟩ := List.mem_map.mp live
  obtain ⟨position, present⟩ := List.mem_iff_getElem?.mp member
  have applied : after.apply (.revert position) = .ok (.done, reverted) := by
    simp only [StateDB.apply, present, isId, isReverted, Except.map]
  have clean : (Op.revert position).isClean traceScar after = true := by
    simp only [Op.isClean, present, isId, cleanRevert]
  have cleanUndone : traceRollback.clean undone := by
    rw [isUndone, RollbackSystem.clean, healsScars_map]
    refine (congrArg₂ (healsScars · · (after.undone sd.snapshot.1))
      (funext fun entry => ?_) (funext fun entry => ?_)).trans cleanRevert
    · exact Change.view_traceScar after.codes entry
    · exact Change.view_heals after.codes entry
  have snapshotAbs : sd.snapshot.2.abs = (sd.abs.1, sd.abs.2.snapshot) :=
    Prod.ext rfl (UndoLog.map_snapshot _ _)
  rw [show (sd.snapshot.2 : StateDB).abs = _ from snapshotAbs] at run
  obtain ⟨same, entries, shots⟩ := traceRollback.revert_restores run found cleanUndone
  refine ⟨reverted, isReverted, (afterSound.apply applied clean).1, ?_⟩
  rw [isResult]
  refine ⟨alike_of_same same, ?_, ?_, fun impossible => impossible.elim⟩
  · rw [show rest.entries = sd.abs.2.entries from entries]
  · rw [show rest.snapshotSet = sd.abs.2.snapshotSet from shots]

/-- Work that is reverted cleanly leaves no trace: both runs panic, or commit to the same root. -/
theorem reverted_work_leaves_no_trace {codes : CodeStore} {root : StateTrie} {before : List Event}
    {answers : List Answer} {sd after : StateDB} {between : List Op}
    (lived : (newStateDB codes root).live before = .ok (answers, sd))
    (cleanBefore : (newStateDB codes root).liveAll (fun sd event => event.isClean sd) before = true)
    (ran : sd.snapshot.2.run between = .ok after)
    (cleanBetween : sd.snapshot.2.runIsClean JournalEntry.traceScar between = true)
    (live : sd.snapshot.1 ∈ after.journal.snapshotSet.map Shot.shotid)
    (cleanRevert : healsScars JournalEntry.traceScar JournalEntry.heals
      (after.undone sd.snapshot.1) = true) :
    ∃ reverted, after.revertToSnapshot sd.snapshot.1 = .ok reverted ∧
      ∀ later, reverted.liveAll (fun sd event => event.isClean sd) later = true →
        (∃ panic, reverted.live later = .error panic ∧ sd.live later = .error panic) ∨
          ∃ answers otherAnswers last otherLast saved otherSaved,
            reverted.live later = .ok (answers, last) ∧
            sd.live later = .ok (otherAnswers, otherLast) ∧
            last.commit = .ok saved ∧ otherLast.commit = .ok otherSaved ∧
            saved.trie = otherSaved.trie := by
  have sound := (sound_newStateDB codes root).live lived cleanBefore
  obtain ⟨reverted, isReverted, revertedSound, lockstep⟩ :=
    revert_lockstep sound ran cleanBetween live cleanRevert
  refine ⟨reverted, isReverted, fun later cleanLater => ?_⟩
  rcases live_lockstep revertedSound sound lockstep cleanLater (spares_attached _ later) with
    panics | ⟨answers, otherAnswers, last, otherLast, lived, otherLived, -, lastSound, otherSound,
      lastLockstep⟩
  · exact .inl panics
  exact .inr ⟨answers, otherAnswers, last, otherLast, last.committed, otherLast.committed, lived,
    otherLived, lastSound.commit, otherSound.commit,
    (commit_lockstep lastSound otherSound lastLockstep).1⟩

theorem reverted_new_account_leaves_no_trace :
    ∃ sd after reverted saved otherSaved,
      (newStateDB ∅ .empty).live [.op (.setBalance 1 0 7), .commit] = .ok ([.done, .done], sd) ∧
      sd.snapshot.2.run [.setBalance 1 0 5, .addBalance 2 0 3] = .ok after ∧
      after.revertToSnapshot sd.snapshot.1 = .ok reverted ∧
      reverted.commit = .ok saved ∧ sd.commit = .ok otherSaved ∧ saved.trie = otherSaved.trie := by
  obtain ⟨reverted, isReverted, traceless⟩ :=
    @reverted_work_leaves_no_trace ∅ .empty [.op (.setBalance 1 0 7), .commit] [.done, .done] _ _
      [.setBalance 1 0 5, .addBalance 2 0 3] rfl rfl rfl rfl (by decide +kernel) rfl
  rcases traceless [] rfl with ⟨_, lived, _⟩ | ⟨_, _, _, _, saved, otherSaved, lived, otherLived,
    commits, otherCommits, same⟩
  · cases lived
  cases lived
  cases otherLived
  exact ⟨_, _, reverted, saved, otherSaved, rfl, rfl, isReverted, commits, otherCommits, same⟩

/-- A reverted first balance of account 1 leaves a nil entry, and encoding the account panics. -/
theorem commit_panics_after_reverted_balance :
    ∃ after reverted saved,
      (((newStateDB ∅ .empty).setNonce 1 1).snapshot.2.run [.setBalance 1 0 5]) = .ok after ∧
      after.revertToSnapshot ((newStateDB ∅ .empty).setNonce 1 1).snapshot.1 = .ok reverted ∧
      reverted.commit = .error .nilPointer ∧
      ((newStateDB ∅ .empty).setNonce 1 1).commit = .ok saved :=
  ⟨_, _, _, rfl, rfl, rfl, rfl⟩

end StateDB

end AnnchainOG
