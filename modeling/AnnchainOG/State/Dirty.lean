import AnnchainOG.State.Code
import AnnchainOG.State.Rollback

/-!
# The dirty counters and the objects the journal keeps

Taking a suicide back counts too much, never too little: what an entry mentions is dirty.
-/

namespace AnnchainOG

open GoMap List

section Counters

variable {κ : Type} [DecidableEq κ]

theorem bump_getD (counts : GoMap κ Int) (key other : κ) (amount : Int) :
    ((bump counts key amount).get? other).getD 0 =
      (counts.get? other).getD 0 + if other = key then amount else 0 := by
  unfold bump
  rw [get?_set]
  split
  next same => simp [same]
  · simp

theorem unbump_getD (counts : GoMap κ Int) (key other : κ) :
    ((unbump counts key).get? other).getD 0 =
      (counts.get? other).getD 0 - if other = key then 1 else 0 := by
  unfold unbump
  split
  next last =>
    rw [get?_delete]
    split
    next same =>
      rw [same]
      simpa using last.symm
    · simp
  · rw [bump_getD]
    split <;> omega

theorem contains_bump {counts : GoMap κ Int} {key other : κ} {amount : Int}
    (present : (bump counts key amount).contains other = true) :
    counts.contains other = true ∨ other = key := by
  by_cases same : other = key
  · exact .inr same
  · simpa [GoMap.contains, bump, get?_set, same] using present

theorem contains_unbump {counts : GoMap κ Int} {key other : κ}
    (present : (unbump counts key).contains other = true) :
    counts.contains other = true ∨ other = key := by
  unfold unbump at present
  split at present
  · by_cases same : other = key
    · exact .inr same
    · simpa [GoMap.contains, get?_delete, same] using present
  · exact contains_bump present

end Counters

namespace StateDB

variable {sd after before : StateDB} {entries : List Change} {entry : Change} {tokenID : TokenId}
  {op : Op} {answer : Answer}

/-- The counters count at least the journal entries, and only countable tokens are dirty. -/
structure Counted (entries : List Change) (sd : StateDB) : Prop where
  accounts : ∀ addr, (entries.countP fun entry => entry.dirtied = some addr : Int) ≤
    (sd.dirties.get? addr).getD 0
  tokens : ∀ tokenID, tokenID > tokenNotDirtied →
    (entries.countP fun entry => entry.tokenDirtied = tokenID : Int) ≤
      (sd.tokenDirties.get? tokenID).getD 0
  countable : ∀ tokenID, sd.isDirtyToken tokenID = true → tokenID > tokenNotDirtied

/-- The code of the objects in memory and of those in `entries` is saved or marked. -/
structure CodesSaved (entries : List Change) (sd : StateDB) : Prop where
  states : sd.StatesSaved
  replaced : ∀ addr prev, .resetObject addr prev ∈ entries → prev.CodeSaved sd.codes

structure SameBooks (before after : StateDB) : Prop where
  journal : after.journal = before.journal
  dirties : after.dirties = before.dirties
  tokenDirties : after.tokenDirties = before.tokenDirties
  dirtyTokens : after.dirtyTokens = before.dirtyTokens
  codes : after.codes = before.codes
  states : before.StatesSaved → after.StatesSaved

theorem Counted.sameBooks (counted : Counted entries before) (same : SameBooks before after) :
    Counted entries after where
  accounts := by rw [same.dirties]; exact counted.accounts
  tokens := by rw [same.tokenDirties]; exact counted.tokens
  countable := by
    unfold isDirtyToken
    rw [same.dirtyTokens, same.tokenDirties]
    exact counted.countable

theorem Counted.appendJournal (counted : Counted entries sd)
    (entry : Change) : Counted (entry :: entries) (sd.appendJournal entry) where
  accounts addr := by
    have bound := counted.accounts addr
    rw [countP_cons]
    unfold StateDB.appendJournal
    cases touched : entry.dirtied with
    | none => simpa [touched] using bound
    | some account =>
      by_cases same : addr = account
      · subst same
        simp only [bump_getD, if_true, decide_true]
        push_cast
        omega
      · have other : ¬ (some account = some addr) := fun equal => same (Option.some.inj equal).symm
        simp only [bump_getD, same, other, if_false, decide_false, Bool.false_eq_true]
        push_cast
        omega
  tokens tokenID countable := by
    have bound := counted.tokens tokenID countable
    rw [countP_cons]
    unfold StateDB.appendJournal
    by_cases isToken : entry.tokenDirtied = tokenID
    · subst isToken
      simp only [countable, if_true, bump_getD, decide_true]
      push_cast
      omega
    · have unchanged : ((if entry.tokenDirtied > tokenNotDirtied
          then bump sd.tokenDirties entry.tokenDirtied 1 else sd.tokenDirties).get? tokenID).getD 0 =
          (sd.tokenDirties.get? tokenID).getD 0 := by
        split
        · rw [bump_getD, if_neg (Ne.symm isToken), add_zero]
        · rfl
      simp only [unchanged, isToken, decide_false, Bool.false_eq_true, if_false, Nat.add_zero]
      exact bound
  countable tokenID dirty := by
    unfold isDirtyToken StateDB.appendJournal at dirty
    simp only [Bool.or_eq_true, decide_eq_true_eq] at dirty
    rcases dirty with old | counting
    · exact counted.countable tokenID (by simp [isDirtyToken, old])
    split at counting
    next positive =>
      rcases contains_bump counting with old | rfl
      · exact counted.countable tokenID (by simp [isDirtyToken, old])
      · exact positive
    · exact counted.countable tokenID (by simp [isDirtyToken, counting])

/-! ## Operations append to the journal -/

theorem SameBooks.refl (sd : StateDB) : SameBooks sd sd := ⟨rfl, rfl, rfl, rfl, rfl, id⟩

variable {third first second : StateDB} {state : StateObject} {addr : Address}
  {change : StateObject → StateObject} {undone rest : List Change}

theorem SameBooks.trans (left : SameBooks first second)
    (right : SameBooks second third) : SameBooks first third :=
  ⟨right.journal.trans left.journal, right.dirties.trans left.dirties,
    right.tokenDirties.trans left.tokenDirties, right.dirtyTokens.trans left.dirtyTokens,
    right.codes.trans left.codes, right.states ∘ left.states⟩

theorem SameBooks.putState (sd : StateDB) (addr : Address)
    (saved : sd.StatesSaved → state.CodeSaved sd.codes) : SameBooks sd (sd.putState addr state) :=
  ⟨rfl, rfl, rfl, rfl, rfl, fun statesSaved => statesSaved.putState addr (saved statesSaved)⟩

theorem getStateObject_books (sd : StateDB) (addr : Address) :
    SameBooks sd (sd.getStateObject addr).2 := by
  unfold getStateObject
  split
  · exact .refl sd
  split
  · exact .refl sd
  rename_i loaded
  obtain ⟨data, -, rfl⟩ := Option.map_eq_some_iff.mp loaded
  exact SameBooks.putState sd addr fun _ => StateObject.codeSaved_decode data

variable {loaded : StateDB}

theorem SameBooks.of_getStateObject {object : Option StateObject}
    (found : sd.getStateObject addr = (object, loaded)) : SameBooks sd loaded := by
  have books := sd.getStateObject_books addr
  rwa [found] at books

theorem getStateObject_cached (found : sd.getStateObject addr = (some state, loaded)) :
    loaded.states.get? addr = some state := by
  unfold getStateObject at found
  split at found
  next inMemory =>
    cases found
    exact inMemory
  · split at found
    · cases found
    · cases found
      exact get?_set_self _ _ _

theorem getTokenObject_books (sd : StateDB) (tokenID : TokenId) :
    SameBooks sd (sd.getTokenObject tokenID).2 := by
  unfold getTokenObject
  split
  · exact .refl sd
  split
  · exact .refl sd
  · exact ⟨rfl, rfl, rfl, rfl, rfl, id⟩

theorem SameBooks.of_getTokenObject {object : Option TokenObject}
    (found : sd.getTokenObject tokenID = (object, loaded)) : SameBooks sd loaded := by
  have books := sd.getTokenObject_books tokenID
  rwa [found] at books

inductive Appends : StateDB → StateDB → Prop where
  | books {before after : StateDB} (same : SameBooks before after) : Appends before after
  | append {before between after : StateDB} (entry : Change) (same : SameBooks before between)
      (saved : between.StatesSaved → ∀ addr prev, entry = .resetObject addr prev →
        prev.CodeSaved between.codes)
      (rest : Appends (between.appendJournal entry) after) : Appends before after

theorem Appends.refl (sd : StateDB) : Appends sd sd := .books (.refl sd)

theorem Appends.trans (left : Appends first second)
    (right : Appends second third) : Appends first third := by
  induction left with
  | books same =>
    cases right with
    | books next => exact .books (same.trans next)
    | append entry next saved rest => exact .append entry (same.trans next) saved rest
  | append entry same saved _ ih => exact .append entry same saved (ih right)

theorem Counted.appends (appends : Appends before after)
    (counted : Counted before.journal.entries before) : Counted after.journal.entries after := by
  induction appends with
  | books same =>
    rw [same.journal]
    exact counted.sameBooks same
  | append entry same _ _ ih =>
    refine ih ?_
    have appended := (counted.sameBooks same).appendJournal entry
    rw [← same.journal] at appended
    exact appended

theorem CodesSaved.appends (appends : Appends before after)
    (saved : CodesSaved before.journal.entries before) :
    CodesSaved after.journal.entries after := by
  induction appends with
  | books same =>
    refine ⟨same.states saved.states, ?_⟩
    rw [same.journal, same.codes]
    exact saved.replaced
  | append entry same entrySaved _ ih =>
    refine ih ⟨same.states saved.states, ?_⟩
    intro addr prev member
    rcases mem_cons.mp member with isEntry | older
    · exact entrySaved (same.states saved.states) addr prev isEntry.symm
    rw [same.journal] at older
    exact (congrArg (fun codes => prev.CodeSaved codes) same.codes).mpr
      (saved.replaced addr prev older)

theorem createAccount_appends (sd : StateDB) (addr : Address) :
    Appends sd (sd.createAccount addr) := by
  have put : ∀ between : StateDB, SameBooks between (between.putState addr .new) :=
    fun between => SameBooks.putState between addr fun _ => StateObject.codeSaved_new
  unfold createAccount
  split
  next oldstate loaded found =>
    refine .append (.resetObject addr oldstate) (.of_getStateObject found) ?_ (.books (put _))
    rintro saved other prev isReset
    cases isReset
    exact saved addr oldstate (getStateObject_cached found)
  next found => exact .append (.createObject addr) (.of_getStateObject found) nofun (.books (put _))

theorem getOrCreateStateObject_appends (sd : StateDB) (addr : Address) :
    Appends sd (sd.getOrCreateStateObject addr).2 := by
  unfold getOrCreateStateObject
  split
  next found => exact .books (.of_getStateObject found)
  next found =>
    exact (Appends.books (.of_getStateObject found)).trans (createAccount_appends _ addr)

theorem getOrCreateStateObject_cached (sd : StateDB) (addr : Address) :
    (sd.getOrCreateStateObject addr).2.states.get? addr =
      some (sd.getOrCreateStateObject addr).1 := by
  unfold getOrCreateStateObject
  split
  next found => exact getStateObject_cached found
  · simp only [createAccount]
    split <;> exact get?_set_self _ _ _

theorem mutate_appends (sd : StateDB) (addr : Address) {entry : StateObject → Change}
    (noReset : ∀ state other prev, entry state ≠ .resetObject other prev)
    (saved : ∀ codes state, state.CodeSaved codes → (change state).CodeSaved codes) :
    Appends sd (sd.mutate addr entry change) := by
  have cached := sd.getOrCreateStateObject_cached addr
  refine (sd.getOrCreateStateObject_appends addr).trans ?_
  refine .append (entry (sd.getOrCreateStateObject addr).1) (.refl _)
    (fun _ other prev isReset => absurd isReset (noReset _ other prev)) ?_
  exact .books (SameBooks.putState _ addr fun statesSaved =>
    saved _ _ (statesSaved addr _ cached))

theorem setBalance_appends (sd : StateDB) (addr : Address) (tokenID : TokenId) (balance : Int) :
    Appends sd (sd.setBalance addr tokenID balance) :=
  sd.mutate_appends addr nofun fun _ _ saved => saved

theorem addBalance_appends (sd : StateDB) (addr : Address) (tokenID : TokenId) (increment : Int) :
    Appends sd (sd.addBalance addr tokenID increment) := by
  unfold addBalance
  split
  · exact .refl sd
  · exact (sd.getOrCreateStateObject_appends addr).trans (setBalance_appends _ _ _ _)

theorem subBalance_appends (sd : StateDB) (addr : Address) (tokenID : TokenId) (decrement : Int) :
    Appends sd (sd.subBalance addr tokenID decrement) := by
  unfold subBalance
  split
  · exact .refl sd
  · exact (sd.getOrCreateStateObject_appends addr).trans (setBalance_appends _ _ _ _)

theorem suicide_appends (sd : StateDB) (addr : Address) : Appends sd (sd.suicide addr).2 := by
  unfold suicide
  split
  next found => exact .books (.of_getStateObject found)
  next state loaded found =>
    refine .append (.suicide addr state.suicided state.balances) (.of_getStateObject found) nofun ?_
    have cached := getStateObject_cached found
    exact .books (SameBooks.putState _ addr fun statesSaved => statesSaved addr state cached)

theorem issueToken_appends (sd : StateDB) (issuer : Address) (name symbol : Bytes)
    (reIssuable : Bool) (fstIssue : Int) :
    Appends sd (sd.issueToken issuer name symbol reIssuable fstIssue).2 := by
  unfold issueToken
  dsimp only
  split
  next found => exact .books (.of_getTokenObject found)
  next loaded found =>
    refine .append (.createToken loaded.latestTokenID (sd.latestTokenID + 1))
      (.of_getTokenObject found) nofun ?_
    refine Appends.trans ?_ (setBalance_appends _ issuer (sd.latestTokenID + 1) fstIssue)
    exact .books ⟨rfl, rfl, rfl, rfl, rfl, id⟩

theorem reIssueToken_opened {amount : Int} {answer : Except TokenError Unit}
    (success : sd.reIssueToken tokenID amount = .ok (answer, after)) :
    after = (sd.getTokenObject tokenID).2 ∨ ∃ token loaded,
      sd.getTokenObject tokenID = (some token, loaded) ∧ token.data.destroyed = false ∧
      answer = .ok () ∧ after = ((loaded.appendJournal (.reIssue tokenID)).putToken tokenID
        (token.addIssue amount)).addBalance token.data.issuer tokenID amount := by
  unfold reIssueToken at success
  split at success
  next found =>
    cases success
    exact .inl (by rw [found])
  rename_i token loaded found
  split at success
  · cases success
    exact .inl (by rw [found])
  rename_i alive
  split at success
  · cases success
    exact .inl (by rw [found])
  split at success
  · cases success
  cases success
  exact .inr ⟨token, loaded, found, Bool.eq_false_iff.mpr alive, rfl, rfl⟩

theorem destroyToken_opened {answer : Except TokenError Unit}
    (success : sd.destroyToken tokenID = .ok (answer, after)) :
    after = (sd.getTokenObject tokenID).2 ∨ ∃ token loaded,
      sd.getTokenObject tokenID = (some token, loaded) ∧ answer = .ok () ∧
      after = (loaded.appendJournal (.destroy tokenID token.data.destroyed)).putToken tokenID
        (token.setDestroyed true) := by
  unfold destroyToken at success
  split at success
  next found =>
    cases success
    exact .inl (by rw [found])
  rename_i token loaded found
  split at success
  · cases success
  cases success
  exact .inr ⟨token, loaded, found, rfl, rfl⟩

theorem reIssueToken_appends {amount : Int} {answer : Except TokenError Unit}
    (success : sd.reIssueToken tokenID amount = .ok (answer, after)) : Appends sd after := by
  rcases reIssueToken_opened success with rfl | ⟨token, loaded, found, -, -, rfl⟩
  · exact .books (sd.getTokenObject_books tokenID)
  have put : SameBooks (loaded.appendJournal (.reIssue tokenID))
      ((loaded.appendJournal (.reIssue tokenID)).putToken tokenID (token.addIssue amount)) :=
    ⟨rfl, rfl, rfl, rfl, rfl, id⟩
  exact .append (.reIssue tokenID) (.of_getTokenObject found) nofun
    ((Appends.books put).trans (addBalance_appends _ token.data.issuer tokenID amount))

theorem destroyToken_appends {answer : Except TokenError Unit}
    (success : sd.destroyToken tokenID = .ok (answer, after)) : Appends sd after := by
  rcases destroyToken_opened success with rfl | ⟨token, loaded, found, -, rfl⟩
  · exact .books (sd.getTokenObject_books tokenID)
  exact .append (.destroy tokenID token.data.destroyed) (.of_getTokenObject found) nofun
    (.books ⟨rfl, rfl, rfl, rfl, rfl, id⟩)

theorem alter_books (sd : StateDB) (addr : Address)
    (saved : ∀ state, state.CodeSaved sd.codes → (change state).CodeSaved sd.codes) :
    SameBooks sd (sd.alter addr change) := by
  unfold alter
  split
  next found => exact .of_getStateObject found
  next state loaded found =>
    have books := SameBooks.of_getStateObject found
    refine books.trans (SameBooks.putState _ addr fun statesSaved => ?_)
    have stateSaved := statesSaved addr state (getStateObject_cached found)
    rw [books.codes] at stateSaved ⊢
    exact saved state stateSaved

theorem alterToken_books (sd : StateDB) (tokenID : TokenId) (change : TokenObject → TokenObject) :
    SameBooks sd (sd.alterToken tokenID change) := by
  unfold alterToken
  split
  next found => exact .of_getTokenObject found
  next found => exact (SameBooks.of_getTokenObject found).trans ⟨rfl, rfl, rfl, rfl, rfl, id⟩

/-! ## Undoing counts down -/

private structure Reverts (entry : Change) (before after : StateDB) : Prop where
  journal : after.journal = before.journal
  dirties : ∀ addr, (before.dirties.get? addr).getD 0 ≤ (after.dirties.get? addr).getD 0
  tokenDirties : after.tokenDirties = before.tokenDirties
  dirtyTokens : after.dirtyTokens ⊆ before.dirtyTokens
  codes : after.codes = before.codes
  states : (∀ addr prev, entry = .resetObject addr prev → prev.CodeSaved before.codes) →
    before.StatesSaved → after.StatesSaved

private theorem SameBooks.reverts (same : SameBooks before after)
    (entry : Change) : Reverts entry before after where
  journal := same.journal
  dirties addr := by rw [same.dirties]
  tokenDirties := same.tokenDirties
  dirtyTokens := by rw [same.dirtyTokens]
  codes := same.codes
  states _ := same.states

private theorem revertSuicide_reverts (sd : StateDB) (addr : Address) (prev : Bool)
    (prevbalance : BalanceSet) :
    Reverts (.suicide addr prev prevbalance) sd (sd.revertSuicide addr prev prevbalance) := by
  unfold revertSuicide
  split
  next found => exact (SameBooks.of_getStateObject found).reverts _
  next state loaded found =>
    have books := SameBooks.of_getStateObject found
    refine ⟨books.journal, fun other => ?_, books.tokenDirties, ?_, books.codes, ?_⟩
    · rw [← books.dirties]
      simp only
      split
      · exact Int.le_refl _
      · rw [bump_getD]
        split <;> omega
    · exact books.dirtyTokens ▸ Finset.Subset.refl _
    · intro _ saved
      have loadedSaved := books.states saved
      exact loadedSaved.putState addr (loadedSaved addr state (getStateObject_cached found))

private theorem revertEntry_reverts (sd : StateDB) (entry : Change) :
    Reverts entry sd (sd.revertEntry entry) := by
  cases entry with
  | createObject account =>
    refine ⟨rfl, fun _ => Int.le_refl _, rfl, Finset.Subset.refl _, rfl, ?_⟩
    intro _ saved addr state found
    simp only [revertEntry, get?_delete] at found
    split at found
    · cases found
    · exact saved addr state found
  | resetObject account prev =>
    refine ⟨rfl, fun _ => Int.le_refl _, rfl, Finset.Subset.refl _, rfl, ?_⟩
    intro kept saved
    exact saved.putState account (kept account prev rfl)
  | suicide addr prev prevbalance => exact sd.revertSuicide_reverts addr prev prevbalance
  | balance | nonce | storage =>
    refine SameBooks.reverts (sd.alter_books _ ?_) _
    intro _ saved
    exact saved
  | code =>
    refine SameBooks.reverts (sd.alter_books _ ?_) _
    intro _ _
    exact .inl rfl
  | reIssue | destroy => exact SameBooks.reverts (sd.alterToken_books _ _) _
  | refund =>
    exact ⟨rfl, fun _ => Int.le_refl _, rfl, Finset.Subset.refl _, rfl, fun _ saved => saved⟩
  | createToken =>
    exact ⟨rfl, fun _ => Int.le_refl _, rfl, Finset.erase_subset _ _, rfl, fun _ saved => saved⟩

theorem Counted.undoEntry
    (counted : Counted (entry :: entries) sd) : Counted entries (sd.undoEntry entry) := by
  obtain ⟨-, dirties, tokenDirties, dirtyTokens, -, -⟩ := sd.revertEntry_reverts entry
  refine ⟨fun addr => ?_, fun tokenID countable => ?_, fun tokenID dirty => ?_⟩
  · have bound := counted.accounts addr
    have grown := dirties addr
    rw [countP_cons] at bound
    simp only [StateDB.undoEntry]
    cases touched : entry.dirtied with
    | none =>
      simp only [touched, reduceCtorEq, decide_false, Bool.false_eq_true, if_false,
        Nat.add_zero] at bound
      exact bound.trans grown
    | some account =>
      simp only [unbump_getD]
      by_cases same : addr = account
      · subst same
        simp only [touched, decide_true, if_true] at bound ⊢
        push_cast at bound
        omega
      · have other : ¬ (some account = some addr) := fun equal => same (Option.some.inj equal).symm
        simp only [touched, other, decide_false, Bool.false_eq_true, if_false, Nat.add_zero] at bound
        simp only [same, if_false, sub_zero]
        exact bound.trans grown
  · have bound := counted.tokens tokenID countable
    rw [countP_cons] at bound
    simp only [StateDB.undoEntry, tokenDirties]
    by_cases isToken : entry.tokenDirtied = tokenID
    · subst isToken
      simp only [countable, if_true, unbump_getD, decide_true] at bound ⊢
      push_cast at bound
      omega
    · simp only [isToken, decide_false, Bool.false_eq_true, if_false, Nat.add_zero] at bound
      split
      · rw [unbump_getD, if_neg (Ne.symm isToken), sub_zero]
        exact bound
      · exact bound
  · have known : ∀ {tokenID}, sd.tokenDirties.contains tokenID = true →
        tokenID > tokenNotDirtied := fun present =>
      counted.countable _ (by simp [isDirtyToken, present])
    simp only [isDirtyToken, StateDB.undoEntry, tokenDirties, Bool.or_eq_true,
      decide_eq_true_eq] at dirty
    rcases dirty with old | counting
    · exact counted.countable tokenID (by simp [isDirtyToken, dirtyTokens old])
    split at counting
    next positive =>
      rcases contains_unbump counting with old | rfl
      · exact known old
      · exact positive
    · exact known counting

theorem Counted.undoEntries (counted : Counted (undone ++ rest) sd) : Counted rest
    (undone.foldl StateDB.undoEntry sd) := by
  induction undone generalizing sd with
  | nil => exact counted
  | cons entry undone ih => exact ih counted.undoEntry

theorem CodesSaved.undoEntry
    (saved : CodesSaved (entry :: entries) sd) : CodesSaved entries (sd.undoEntry entry) := by
  obtain ⟨-, -, -, -, codes, states⟩ := sd.revertEntry_reverts entry
  refine ⟨states (fun addr prev isEntry => ?_) saved.states, fun addr prev member => ?_⟩
  · exact saved.replaced addr prev (isEntry ▸ mem_cons_self)
  · rw [codes_undoEntry]
    exact saved.replaced addr prev (mem_cons_of_mem _ member)

theorem CodesSaved.undoEntries (saved : CodesSaved (undone ++ rest) sd) :
    CodesSaved rest (undone.foldl StateDB.undoEntry sd) := by
  induction undone generalizing sd with
  | nil => exact saved
  | cons entry undone ih => exact ih saved.undoEntry

/-! ## Whole operations -/

theorem apply_cases (applied : sd.apply op = .ok (answer, after)) :
    Appends sd after ∨ after = { sd with journal := sd.journal.snapshot } ∨
      ∃ undone rest, sd.journal.entries = undone ++ rest.entries ∧
        after = { undone.foldl undoEntry sd with journal := rest } := by
  cases op with
  | createAccount addr =>
    cases applied
    exact .inl (sd.createAccount_appends addr)
  | setBalance addr tokenID balance =>
    cases applied
    exact .inl (sd.setBalance_appends addr tokenID balance)
  | setNonce | setState =>
    cases applied
    exact .inl (sd.mutate_appends _ nofun fun _ _ saved => saved)
  | setCode =>
    cases applied
    exact .inl (sd.mutate_appends _ nofun fun _ _ _ => .inl rfl)
  | addBalance addr tokenID increment =>
    cases applied
    exact .inl (sd.addBalance_appends addr tokenID increment)
  | subBalance addr tokenID decrement =>
    cases applied
    exact .inl (sd.subBalance_appends addr tokenID decrement)
  | suicide addr =>
    cases applied
    exact .inl (sd.suicide_appends addr)
  | addRefund increment =>
    cases applied
    exact .inl (.append (.refund sd.refund) (.refl sd) nofun
      (.books ⟨rfl, rfl, rfl, rfl, rfl, id⟩))
  | subRefund decrement =>
    simp only [StateDB.apply, subRefund] at applied
    split at applied
    · cases applied
    cases applied
    exact .inl (.append (.refund sd.refund) (.refl sd) nofun
      (.books ⟨rfl, rfl, rfl, rfl, rfl, id⟩))
  | issueToken issuer name symbol reIssuable fstIssue =>
    cases applied
    exact .inl (sd.issueToken_appends issuer name symbol reIssuable fstIssue)
  | reIssueToken tokenID amount =>
    obtain ⟨_, result, same⟩ := map_ok applied
    cases same
    exact .inl (reIssueToken_appends result)
  | destroyToken tokenID =>
    obtain ⟨_, result, same⟩ := map_ok applied
    cases same
    exact .inl (destroyToken_appends result)
  | snapshot =>
    cases applied
    exact .inr (.inl rfl)
  | revert position =>
    simp only [StateDB.apply] at applied
    split at applied
    · cases applied
    obtain ⟨_, reverted, same⟩ := map_ok applied
    cases same
    unfold revertToSnapshot at reverted
    split at reverted
    · cases reverted
    next undone rest found =>
      cases reverted
      obtain ⟨-, -, -, -, -, entries, -⟩ := UndoLog.revertTo_spec found
      exact .inr (.inr ⟨undone, rest, entries, rfl⟩)
  | touch addr =>
    cases applied
    exact .inl (.books (sd.getStateObject_books addr))
  | touchCode addr =>
    cases applied
    exact .inl (.books (sd.alter_books _ fun _ saved => saved.load))
  | touchState addr key =>
    cases applied
    exact .inl (.books (sd.alter_books _ fun _ saved => saved))
  | touchToken tokenID =>
    cases applied
    exact .inl (.books (sd.getTokenObject_books tokenID))

theorem Counted.apply
    (applied : sd.apply op = .ok (answer, after)) (counted : Counted sd.journal.entries sd) :
    Counted after.journal.entries after := by
  rcases apply_cases applied with appends | rfl | ⟨undone, rest, entries, rfl⟩
  · exact counted.appends appends
  · exact ⟨counted.accounts, counted.tokens, counted.countable⟩
  · have restored := (entries ▸ counted : Counted (undone ++ rest.entries) sd).undoEntries
    exact ⟨restored.accounts, restored.tokens, restored.countable⟩

theorem CodesSaved.apply
    (applied : sd.apply op = .ok (answer, after)) (saved : CodesSaved sd.journal.entries sd) :
    CodesSaved after.journal.entries after := by
  rcases apply_cases applied with appends | rfl | ⟨undone, rest, entries, rfl⟩
  · exact saved.appends appends
  · exact ⟨saved.states, saved.replaced⟩
  · have restored := (entries ▸ saved : CodesSaved (undone ++ rest.entries) sd).undoEntries
    exact ⟨restored.states, restored.replaced⟩

theorem Counted.dirty (counted : Counted sd.journal.entries sd)
    (member : entry ∈ sd.journal.entries) (touched : entry.dirtied = some addr) :
    sd.isDirty addr = true := by
  have some : 0 < sd.journal.entries.countP fun entry => entry.dirtied = some addr :=
    countP_pos_iff.mpr ⟨entry, member, by simpa using touched⟩
  have bound := counted.accounts addr
  cases found : sd.dirties.get? addr with
  | none =>
    simp only [found, Option.getD_none] at bound
    omega
  | some count => simp [isDirty, GoMap.contains, found]

theorem Counted.dirtyToken (counted : Counted sd.journal.entries sd)
    (member : entry ∈ sd.journal.entries)
    (touched : entry.tokenDirtied = tokenID) (countable : tokenID > tokenNotDirtied) :
    sd.isDirtyToken tokenID = true := by
  have some : 0 < sd.journal.entries.countP fun entry => entry.tokenDirtied = tokenID :=
    countP_pos_iff.mpr ⟨entry, member, by simpa using touched⟩
  have bound := counted.tokens tokenID countable
  cases found : sd.tokenDirties.get? tokenID with
  | none =>
    simp only [found, Option.getD_none] at bound
    omega
  | some count => simp [isDirtyToken, GoMap.contains, found]

end StateDB

end AnnchainOG
