import AnnchainOG.State.Trace

/-!
# Restarting at the committed root

A fresh database lacks the back references of the tokens it loads, and fails where the other one
journals through them.
-/

namespace AnnchainOG

/-- No change of a token that `root` records is journaled: a later token may be altered, a recorded
one only refused. -/
def Event.spares (root : StateTrie) (sd : StateDB) : Event → Bool
  | .op (.reIssueToken tokenID _) => !root.tokens.contains tokenID ||
      (sd.getToken tokenID).all fun data => data.destroyed || !data.reIssuable
  | .op (.destroyToken tokenID) => !root.tokens.contains tokenID
  | _ => true

namespace StateDB

variable {sd : StateDB}

structure SameRecords (left right : StateDB) : Prop where
  getBalance : ∀ addr tokenID, left.getBalance addr tokenID = right.getBalance addr tokenID
  getAllBalance : ∀ addr, left.getAllBalance addr = right.getAllBalance addr
  getNonce : ∀ addr, left.getNonce addr = right.getNonce addr
  exist : ∀ addr, left.exist addr = right.exist addr
  getCodeHash : ∀ addr, left.getCodeHash addr = right.getCodeHash addr
  getCode : ∀ addr, left.getCode addr = right.getCode addr
  getCodeSize : ∀ addr, left.getCodeSize addr = right.getCodeSize addr
  getState : ∀ addr key, left.getState addr key = right.getState addr key
  getCommittedState : ∀ addr key,
    left.getCommittedState addr key = right.getCommittedState addr key
  getRefund : left.refund = right.refund
  getToken : ∀ tokenID, left.getToken tokenID = right.getToken tokenID
  latestTokenID : left.latestTokenID = right.latestTokenID

theorem sameRecords_of_alike {left right : StateDB} {detached : Set TokenId}
    (alike : left.flat.Alike detached right.flat) : left.SameRecords right where
  getBalance addr tokenID := by
    rw [getBalance_eq, getBalance_eq]
    exact read_of_view (alike.accounts addr) (fun account => account.balances.amount tokenID) 0
  getAllBalance addr := by
    rw [getAllBalance_eq, getAllBalance_eq]
    exact read_of_view (alike.accounts addr) Account.balances ∅
  getNonce addr := by
    rw [getNonce_eq, getNonce_eq]
    exact read_of_view (alike.accounts addr) Account.nonce 0
  exist addr := by
    rw [exist_eq, exist_eq]
    exact read_of_view (alike.accounts addr) (fun _ => true) false
  getCodeHash addr := by
    rw [getCodeHash_eq, getCodeHash_eq]
    exact read_of_view (alike.accounts addr) Account.codeHash .zero
  getCode addr := by
    rw [getCode_eq, getCode_eq]
    exact read_of_view (alike.accounts addr) Account.code []
  getCodeSize addr := by
    rw [getCodeSize_eq, getCodeSize_eq]
    exact read_of_view (alike.accounts addr) (fun account => account.code.length) 0
  getState addr key := by
    rw [getState_eq, getState_eq]
    exact read_of_view (alike.accounts addr) (fun account => slot account.storage key) 0
  getCommittedState addr key := by
    rw [getCommittedState_eq, getCommittedState_eq]
    exact read_of_view (alike.accounts addr) (fun account => slot account.committed key) 0
  getRefund := alike.refund
  getToken tokenID := by
    rw [getToken_eq, getToken_eq]
    exact alike.tokens tokenID
  latestTokenID := alike.latestTokenID

/-- The tokens whose objects a database opened at `root` loads without a back reference. -/
def detachedAt (root : StateTrie) : Set TokenId :=
  { tokenID | root.tokens.contains tokenID = true }

private theorem liveSpares {root : StateTrie} {events : List Event}
    (spared : sd.liveAll (fun now event => event.isClean now && event.spares root now) events =
      true) :
    sd.liveAll (fun now event => event.isClean now) events = true ∧
      sd.LiveSpares (detachedAt root) events := by
  induction events generalizing sd with
  | nil => exact ⟨rfl, trivial⟩
  | cons event events ih =>
    have first : event.isClean sd = true ∧ event.spares root sd = true := by
      have both := spared
      simp only [liveAll, Bool.and_eq_true] at both
      exact both.1
    have sparesEvent : sd.Spares (detachedAt root) event := by
      cases event with
      | commit => trivial
      | op operation =>
        cases operation with
        | reIssueToken tokenID amount =>
          intro inside token present
          have refused := first.2
          simp only [Event.spares, show root.tokens.contains tokenID = true from inside,
            Bool.not_true, Bool.false_or, getToken_eq, present, Option.map_some,
            Option.all_some, Bool.or_eq_true, Bool.not_eq_true'] at refused
          exact refused
        | destroyToken tokenID =>
          intro inside
          have refused := first.2
          simp only [Event.spares, show root.tokens.contains tokenID = true from inside,
            Bool.not_true, Bool.false_eq_true] at refused
        | _ => trivial
    refine ⟨?_, sparesEvent, fun answer next stepped => ?_⟩
    · simp only [liveAll, first.1, Bool.true_and]
      cases stepped : sd.step event with
      | error panic => rfl
      | ok result => exact (ih (liveAll_cons spared stepped).2).1
    · exact (ih (liveAll_cons spared stepped).2).2

private theorem restart_lockstep (sound : sd.Sound)
    (countable : sd.tokens.any (fun tokenID _ => tokenID ≤ tokenNotDirtied) = false) :
    sd.committed.clearJournalAndRefund.abs.Lockstep (detachedAt sd.committed.trie) True
      (newStateDB sd.committed.codes sd.committed.trie).abs := by
  have savedSound := sound.committed_clear
  have tokens : ∀ tokenID, (sd.committed.flat.tokens tokenID).map TokenObject.data =
      sd.committed.trie.tokens.get? tokenID := by
    intro tokenID
    cases inMemory : sd.tokens.get? tokenID with
    | none => exact flat_unloadedToken inMemory
    | some token =>
      have isCountable := GoMap.any_eq_false_iff.mp countable tokenID token inMemory
      simp only [decide_eq_false_iff_not, Int32.not_le] at isCountable
      exact savedSound.tidy.savedToken tokenID isCountable nofun
  have freshTokens : ∀ tokenID,
      ((newStateDB sd.committed.codes sd.committed.trie).flat.tokens tokenID).map
        TokenObject.data = sd.committed.trie.tokens.get? tokenID := fun tokenID =>
    flat_unloadedToken rfl
  refine ⟨⟨fun _ _ => Iff.rfl, rfl, fun addr => ?_, fun tokenID => ?_, fun tokenID outside => ?_,
    ?_, rfl, rfl⟩, rfl, rfl, fun _ => ⟨rfl, rfl⟩⟩
  · have saved := sound.committed_saved addr
    have fresh : (newStateDB sd.committed.codes sd.committed.trie).flat.accounts addr =
        sd.committed.flat.baseAccount addr := flat_unloaded rfl
    exact saved.trans ((congrArg _ fresh).trans (baseAccount_plain _ addr)).symm
  · exact (tokens tokenID).trans (freshTokens tokenID).symm
  · have absent : sd.committed.trie.tokens.get? tokenID = none := by
      simpa [detachedAt, GoMap.contains] using outside
    have none := tokens tokenID
    have freshNone := freshTokens tokenID
    rw [absent, Option.map_eq_none_iff] at none freshNone
    exact none.trans freshNone.symm
  · exact savedSound.marked.settled rfl

/-- A restart at the committed root changes no answer to reads or to steps that leave the recorded
tokens alone. -/
theorem restart_answers_alike {codes : CodeStore} {root : StateTrie} {before : List Event}
    {answers : List Answer} {sd : StateDB}
    (lived : (newStateDB codes root).live before = .ok (answers, sd))
    (clean : (newStateDB codes root).liveAll (fun now event => event.isClean now) before = true)
    (countable : sd.tokens.any (fun tokenID _ => tokenID ≤ tokenNotDirtied) = false) :
    ∃ saved, sd.commit = .ok saved ∧
      saved.clearJournalAndRefund.SameRecords (newStateDB saved.codes saved.trie) ∧
      ∀ later, saved.clearJournalAndRefund.liveAll
          (fun now event => event.isClean now && event.spares saved.trie now) later = true →
        (∃ panic, saved.clearJournalAndRefund.live later = .error panic ∧
          (newStateDB saved.codes saved.trie).live later = .error panic) ∨ ∃ answers last otherLast,
          saved.clearJournalAndRefund.live later = .ok (answers, last) ∧
          (newStateDB saved.codes saved.trie).live later = .ok (answers, otherLast) ∧
          last.SameRecords otherLast := by
  have sound := (sound_newStateDB codes root).live lived clean
  have lockstep := restart_lockstep sound countable
  refine ⟨sd.committed, sound.commit, sameRecords_of_alike lockstep.flat, fun later spared => ?_⟩
  obtain ⟨cleanLater, spares⟩ := liveSpares spared
  rcases live_lockstep sound.committed_clear (sound_newStateDB _ _) lockstep cleanLater spares with
    panics | ⟨answers, otherAnswers, last, otherLast, lastLived, otherLived, same, -, -,
      lastLockstep⟩
  · exact .inl panics
  obtain rfl := same trivial
  exact .inr ⟨answers, last, otherLast, lastLived, otherLived,
    sameRecords_of_alike lastLockstep.flat⟩

theorem restart_answers_alike_issued :
    ∃ sd saved, (newStateDB ∅ .empty).live [.op (.issueToken 1 [] [] true 5)] =
        .ok ([.issued (.ok 1)], sd) ∧ sd.commit = .ok saved ∧
      saved.clearJournalAndRefund.SameRecords (newStateDB saved.codes saved.trie) := by
  obtain ⟨saved, commits, same, -⟩ :=
    @restart_answers_alike ∅ .empty [.op (.issueToken 1 [] [] true 5)] _ _ rfl rfl
      (by decide +kernel)
  exact ⟨_, saved, rfl, commits, same⟩

/-- Destroying a recorded token succeeds in the database that issued it and panics after a
restart. -/
theorem restart_destroy_panics :
    ∃ sd saved destroyed, (newStateDB ∅ .empty).apply (.issueToken 1 [] [] true 5) =
        .ok (.issued (.ok 1), sd) ∧ sd.commit = .ok saved ∧
      saved.clearJournalAndRefund.destroyToken 1 = .ok (.ok (), destroyed) ∧
      (newStateDB saved.codes saved.trie).destroyToken 1 = .error .nilPointer :=
  ⟨_, _, _, rfl, rfl, rfl, rfl⟩

end StateDB

end AnnchainOG
