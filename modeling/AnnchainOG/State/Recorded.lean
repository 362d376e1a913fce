import AnnchainOG.State.Revert
import AnnchainOG.State.Tokens

/-!
# What a commit records

Whole records need clean reverts; single amounts do not, as a nil balance is read as zero.
-/

namespace AnnchainOG

open Option

def Account.holding (account : Account) : (TokenId → Int) × UInt64 :=
  (account.balances.amount, account.nonce)

theorem Account.holding_record (codes : CodeStore) (account : Account) :
    (Account.ofData codes account.record).holding = account.holding := by
  refine Prod.ext (funext fun tokenID => ?_) rfl
  simp only [holding, ofData, record, BalanceSet.amount, BalanceSet.entry, GoMap.get?_filterMap]
  cases account.balances.get? tokenID with
  | none => rfl
  | some balance => cases balance <;> rfl

structure Flat.Recorded (flat : Flat) (entries : List Entry) : Prop where
  accounts : ∀ addr, (∀ entry ∈ entries, entry.dirtied ≠ some addr) →
    (flat.accounts addr).map Account.holding = (flat.baseAccount addr).map Account.holding
  tokens : flat.TokensSaved entries

private theorem recorded_respects (left right : Flat) (entries : List Entry)
    (same : readRollback.same left right) (recorded : left.Recorded entries) :
    right.Recorded entries := by
  have trie : left.trie = right.trie := same.trie
  have tokens : left.tokens = right.tokens := same.tokens
  refine ⟨?_, ?_⟩
  · intro addr unmentioned
    have reads := same.accounts addr (Set.notMem_empty _)
    have holdings : (right.accounts addr).map Account.holding =
        (left.accounts addr).map Account.holding := by
      have mapped := congrArg (Option.map fun reads => (reads.balance, reads.nonce)) reads
      rw [map_map, map_map] at mapped
      exact mapped.symm
    have base : right.baseAccount addr = left.baseAccount addr := by
      rw [Flat.baseAccount, Flat.baseAccount, trie, show left.codes = right.codes from same.codes]
    rw [holdings, base]
    exact recorded.accounts addr unmentioned
  · rw [Flat.TokensSaved, ← tokens, ← trie]
    exact recorded.tokens

private theorem recorded_logged (before : Flat) (entry : Entry) (after : Flat)
    (entries : List Entry) (recorded : before.Recorded entries)
    (changed : readRollback.change before entry after) : after.Recorded (entry :: entries) := by
  obtain ⟨logged, -⟩ := changed
  refine ⟨?_, recorded.tokens.logged logged⟩
  intro addr unmentioned
  have frames := logged.frames
  rw [frames.accounts addr (unmentioned entry List.mem_cons_self), frames.baseAccount]
  exact recorded.accounts addr fun older member => unmentioned older (List.mem_cons_of_mem _ member)

namespace StateDB

variable {sd saved : StateDB}

structure Recorded (sd : StateDB) : Prop where
  counted : Counted sd.journal.entries sd
  marked : sd.abs.Marked
  safe : readRollback.Safe Flat.Recorded sd.abs

theorem recorded_newStateDB (codes : CodeStore) (root : StateTrie) :
    (newStateDB codes root).Recorded where
  counted := (sound_newStateDB codes root).counted
  marked := (sound_newStateDB codes root).marked
  safe := by
    refine ⟨⟨?_, ?_⟩, fun shot member => nomatch member⟩
    · intro addr _
      exact congrArg _ (flat_unloaded rfl)
    · exact (sound_newStateDB codes root).tidy.savedToken

theorem Recorded.apply {next : StateDB} {op : Op} {answer : Answer} (recorded : sd.Recorded)
    (applied : sd.apply op = .ok (answer, next)) : next.Recorded := by
  have simulated : sd.abs.apply op = .ok (answer, next.abs) := by
    rw [← abs_apply, applied]
    rfl
  have ran : sd.run [op] = .ok next := by simp only [run, applied, bind, Except.bind]
  exact ⟨recorded.counted.apply applied, recorded.marked.apply sd.grounded simulated,
    readRollback.safe_run recorded_respects recorded_logged recorded.safe (run_readRollback ran)⟩

theorem Recorded.run {after : StateDB} {ops : List Op} (recorded : sd.Recorded)
    (ran : sd.run ops = .ok after) : after.Recorded := by
  induction ops generalizing sd with
  | nil =>
    cases ran
    exact recorded
  | cons op ops ih =>
    obtain ⟨answer, next, applied, rest⟩ := run_cons ran
    exact ih (recorded.apply applied) rest

/-! ## Commit -/

theorem no_nil_of_commit (commits : sd.commit = .ok saved) {addr : Address}
    {state : StateObject} (inMemory : sd.states.get? addr = some state)
    (dirty : sd.isDirty addr = true) (tokenID : TokenId) :
    state.balances.get? tokenID ≠ some none := by
  intro isNil
  unfold commit at commits
  split at commits
  · cases commits
  rename_i none
  refine none (GoMap.any_eq_true_iff.mpr ⟨addr, state, inMemory, ?_⟩)
  rw [dirty, Bool.true_and]
  exact GoMap.any_eq_true_iff.mpr ⟨tokenID, _, isNil, rfl⟩

theorem Recorded.committed_holding (recorded : sd.Recorded)
    (commits : sd.commit = .ok saved) (addr : Address) :
    (saved.flat.accounts addr).map Account.holding =
      (saved.flat.baseAccount addr).map Account.holding := by
  obtain rfl := commit_ok commits
  cases inMemory : sd.states.get? addr with
  | none =>
    have unloaded : sd.committed.states.get? addr = none := by
      rw [committed_states, inMemory]
      rfl
    rw [flat_unloaded unloaded]
  | some state =>
    have loaded := committed_states sd addr
    rw [inMemory, map_some] at loaded
    have written : sd.committed.trie.accounts.get? addr =
        ((if sd.isDirty addr then state.commit.encode.toOption else none).or
          (sd.trie.accounts.get? addr)) := by
      simp [committed, dirtyRecords, inMemory]
    rw [flat_loaded loaded, map_some, Flat.baseAccount,
      show sd.committed.flat.trie = sd.committed.trie from rfl, written]
    cases dirty : sd.isDirty addr with
    | true =>
      have record := encode_commit sd.codes (no_nil_of_commit commits inMemory dirty)
      simp only [if_true, record, some_or, map_some, Account.holding_record]
      rfl
    | false =>
      have unmentioned : ∀ entry ∈ sd.abs.2.entries, entry.dirtied ≠ some addr := by
        intro entry member touched
        obtain ⟨change, isMember, rfl⟩ := List.mem_map.mp member
        rw [Change.view_dirtied] at touched
        rw [recorded.counted.dirty isMember touched] at dirty
        cases dirty
      have saved := recorded.safe.1.accounts addr unmentioned
      rw [show sd.abs.1 = sd.flat from rfl, flat_loaded inMemory, Flat.baseAccount,
        map_map] at saved
      simp only [Bool.false_eq_true, if_false, none_or, map_map]
      exact saved

theorem Recorded.committed_clear (recorded : sd.Recorded)
    (commits : sd.commit = .ok saved) : saved.clearJournalAndRefund.Recorded := by
  have holdings := recorded.committed_holding commits
  obtain rfl := commit_ok commits
  refine ⟨recorded.counted.committed_clear, marked_committed_clear recorded.marked,
    ⟨fun addr _ => holdings addr, ?_⟩, fun shot member => nomatch member⟩
  intro tokenID countable _
  exact recorded.counted.committed_savedToken recorded.safe.1.tokens countable

/-! ## A database opened at the trie -/

structure SameHoldings (left right : StateDB) : Prop where
  getBalance : ∀ addr tokenID, left.getBalance addr tokenID = right.getBalance addr tokenID
  getNonce : ∀ addr, left.getNonce addr = right.getNonce addr
  getToken : ∀ tokenID, left.getToken tokenID = right.getToken tokenID
  latestTokenID : left.latestTokenID = right.latestTokenID

theorem sameHoldings_of_flat {left right : StateDB}
    (accounts : ∀ addr, (left.flat.accounts addr).map Account.holding =
      (right.flat.accounts addr).map Account.holding)
    (tokens : ∀ tokenID, (left.flat.tokens tokenID).map TokenObject.data =
      (right.flat.tokens tokenID).map TokenObject.data)
    (latestTokenID : left.latestTokenID = right.latestTokenID) : left.SameHoldings right where
  getBalance addr tokenID := by
    rw [getBalance_eq, getBalance_eq]
    exact read_of_view (accounts addr) (fun holding => holding.1 tokenID) 0
  getNonce addr := by
    rw [getNonce_eq, getNonce_eq]
    exact read_of_view (accounts addr) Prod.snd 0
  getToken tokenID := by
    rw [getToken_eq, getToken_eq]
    exact tokens tokenID
  latestTokenID := latestTokenID

theorem Recorded.reopened (recorded : sd.Recorded)
    (written : sd.journal.entries = []) (settled : sd.dirtyLatestTokenID = false)
    (counted : ∀ tokenID, tokenID ≤ tokenNotDirtied → sd.book.tokens tokenID = none) :
    (newStateDB sd.codes sd.trie).SameHoldings sd := by
  have nothing : sd.abs.2.entries = [] := by
    rw [show sd.abs.2.entries = sd.journal.entries.map _ from rfl, written]
    rfl
  refine sameHoldings_of_flat (fun addr => ?_) (fun tokenID => ?_) ?_
  · have saved := recorded.safe.1.accounts addr (by simp [nothing])
    rw [flat_unloaded rfl]
    exact saved.symm
  · rw [flat_unloadedToken rfl]
    by_cases countable : tokenID > tokenNotDirtied
    · exact (recorded.safe.1.tokens tokenID countable (by simp [nothing])).symm
    have absent : sd.flat.tokens tokenID = none := counted tokenID (Int32.not_lt.mp countable)
    have unsaved : sd.trie.tokens.get? tokenID = none := by
      have base := sd.grounded.tokens tokenID absent
      rw [Flat.baseToken, map_eq_none_iff] at base
      exact base
    rw [absent, show (newStateDB sd.codes sd.trie).trie = sd.trie from rfl, unsaved]
    rfl
  · exact (recorded.marked.settled settled).symm

end StateDB

end AnnchainOG
