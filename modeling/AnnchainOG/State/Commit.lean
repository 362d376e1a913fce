import AnnchainOG.State.Dirty

/-!
# What Commit writes

As long as every revert heals the scars it leaves, the trie that `Commit` writes is a function of
the abstract state.
-/

namespace AnnchainOG

open Contract Finset GoMap List Option

open Account (ofData)

namespace JournalEntry

variable {α γ : Type}

/-- Undoing the entry leaves a nil balance, an explicit zero in storage, or (key `none`) the record
of the latest token id. -/
def traceScar : JournalEntry α γ → Option (Option Address)
  | balance account _ none => some (some account)
  | storage account _ prevalue => if prevalue = 0 then some (some account) else none
  | createToken prevLatestTokenID _ => if prevLatestTokenID = 0 then some none else none
  | balance _ _ (some _) | createObject _ | resetObject _ _ | suicide _ _ _ | nonce _ _
  | code _ _ | refund _ | reIssue _ | destroy _ _ => none

end JournalEntry

variable (codes : CodeStore) (entry : Change)

theorem Change.view_traceScar : (Change.view codes entry).traceScar = entry.traceScar := by
  cases entry with
  | balance _ _ prev => cases prev <;> rfl
  | _ => rfl

@[simp] theorem Change.view_dirtied : (Change.view codes entry).dirtied = entry.dirtied := by
  cases entry <;> rfl

@[simp] theorem Change.view_tokenDirtied :
    (Change.view codes entry).tokenDirtied = entry.tokenDirtied := by
  cases entry <;> rfl

/-- The account without its suicided flag, which no record stores. -/
def Account.plain (account : Account) : Account :=
  { account with suicided := false }

def Account.record (account : Account) : AccountData where
  balances := account.balances.filterMap fun _ balance => balance
  nonce := account.nonce
  root := account.storage
  codeHash := account.codeHash

theorem Account.record_ofData (data : AccountData) : (ofData codes data).record = data := by
  have balances : GoMap.filterMap (GoMap.filterMap data.balances fun _ balance =>
      some (some balance)) (fun _ balance => balance) = data.balances :=
    GoMap.ext fun tokenID => by
      simp only [get?_filterMap]
      cases data.balances.get? tokenID <;> rfl
  simp only [record, ofData, balances]

namespace Flat

variable {entry : Entry} {before after : Flat}
variable {flat : Flat}

/-- The latest token id is the recorded one unless it is marked for writing. -/
def Settled (flat : Flat) : Prop :=
  flat.dirtyLatestTokenID = false → flat.latestTokenID = flat.trie.latestTokenID.getD 0

/-- No nil balances, and what no entry mentions is what the trie holds. -/
structure Tidy (flat : Flat) (entries : List Entry) : Prop where
  noNil : ∀ {addr account}, flat.accounts addr = some account →
    ∀ tokenID, account.balances.get? tokenID ≠ some none
  saved : ∀ addr, (∀ entry ∈ entries, entry.dirtied ≠ some addr) →
    (flat.accounts addr).map Account.plain = flat.baseAccount addr
  savedToken : ∀ tokenID, tokenID > tokenNotDirtied →
    (∀ entry ∈ entries, entry.tokenDirtied ≠ tokenID) →
    (flat.tokens tokenID).map TokenObject.data = flat.trie.tokens.get? tokenID

def TokensSaved (flat : Flat) (entries : List Entry) : Prop :=
  ∀ tokenID, tokenID > tokenNotDirtied → (∀ entry ∈ entries, entry.tokenDirtied ≠ tokenID) →
    (flat.tokens tokenID).map TokenObject.data = flat.trie.tokens.get? tokenID

structure Frames (entry : Entry) (before after : Flat) : Prop where
  codes : after.codes = before.codes
  trie : after.trie = before.trie
  accounts : ∀ addr, entry.dirtied ≠ some addr → after.accounts addr = before.accounts addr
  tokens : ∀ tokenID, entry.tokenDirtied ≠ tokenID → after.tokens tokenID = before.tokens tokenID

private theorem frames_setAccount {addr : Address}
    (touched : entry.dirtied = some addr) (account : Option Account) :
    Frames entry flat (flat.setAccount addr account) where
  codes := rfl
  trie := rfl
  accounts other untouched := by
    have different : other ≠ addr := fun same => untouched (same ▸ touched)
    exact Function.update_of_ne different _ _
  tokens _ _ := rfl

private theorem frames_setToken {tokenID : TokenId}
    (touched : entry.tokenDirtied = tokenID) (token : Option TokenObject) :
    Frames entry flat (flat.setToken tokenID token) where
  codes := rfl
  trie := rfl
  accounts _ _ := rfl
  tokens other untouched := by
    have different : other ≠ tokenID := fun same => untouched (same ▸ touched)
    exact Function.update_of_ne different _ _

theorem Logged.frames (logged : before.Logged entry after) : Frames entry before after := by
  cases logged with
  | createObject | resetObject | suicide | balance | nonce | storage | code =>
    exact frames_setAccount rfl _
  | refund => exact ⟨rfl, rfl, fun _ _ => rfl, fun _ _ => rfl⟩
  | @createToken tokenID token =>
    have framed : Frames (.createToken before.latestTokenID tokenID) before
        (before.setToken tokenID (some token)) := frames_setToken rfl _
    exact ⟨rfl, rfl, framed.accounts, framed.tokens⟩
  | reIssue | destroy => exact frames_setToken rfl _

theorem Frames.baseAccount (frames : Frames entry before after)
    (addr : Address) : after.baseAccount addr = before.baseAccount addr := by
  rw [Flat.baseAccount, Flat.baseAccount, frames.codes, frames.trie]

theorem TokensSaved.logged {entries : List Entry}
    (saved : before.TokensSaved entries) (logged : before.Logged entry after) :
    after.TokensSaved (entry :: entries) := by
  intro tokenID countable unmentioned
  have frames := logged.frames
  rw [frames.tokens tokenID (unmentioned entry List.mem_cons_self), frames.trie]
  exact saved tokenID countable fun older member => unmentioned older (mem_cons_of_mem _ member)

end Flat

def latestMark (trie : StateTrie) (dirtyLatestTokenID : Bool) : Bool :=
  trie.latestTokenID.isSome || dirtyLatestTokenID

def traceRollback : RollbackSystem Flat Entry (Option Address) :=
  rollback (fun account => account) latestMark JournalEntry.traceScar Flat.Settled
    (fun entry base left right same => by
      rw [Option.map_id', Option.map_id'] at same
      rw [same])
    (fun scarred touched => by
      cases scarred with
      | balance missing => exact .inl (congrArg some touched)
      | storage missing => exact .inl (congrArg some touched))
    (fun {flat} tokenID settled => by
      by_cases isFirst : flat.latestTokenID = 0
      · exact .inl (if_pos isFirst)
      right
      cases recorded : flat.trie.latestTokenID with
      | some latest => simp [latestMark, recorded]
      | none =>
        cases marked : flat.dirtyLatestTokenID with
        | true => rfl
        | false => exact absurd (by simpa [recorded] using settled marked) isFirst)

private theorem tidy_respects (left right : Flat) (entries : List Entry)
    (same : traceRollback.same left right) (tidy : left.Tidy entries) : right.Tidy entries := by
  have accounts : left.accounts = right.accounts := by
    funext addr
    have equal := same.accounts addr (Set.notMem_empty _)
    rwa [Option.map_id', Option.map_id'] at equal
  have trie : left.trie = right.trie := same.trie
  have tokens : left.tokens = right.tokens := same.tokens
  refine ⟨?_, ?_, ?_⟩
  · rw [← accounts]
    exact tidy.noNil
  · intro addr unmentioned
    have base : right.baseAccount addr = left.baseAccount addr := by
      rw [Flat.baseAccount, Flat.baseAccount, trie, show left.codes = right.codes from same.codes]
    rw [← accounts, base]
    exact tidy.saved addr unmentioned
  · rw [← tokens, ← trie]
    exact tidy.savedToken

private theorem noNil_setAccount {flat : Flat} {entries : List Entry} (tidy : flat.Tidy entries)
    {addr other : Address} {account found : Account}
    (present : (flat.setAccount addr (some account)).accounts other = some found)
    (noNil : ∀ tokenID, account.balances.get? tokenID ≠ some none) :
    ∀ tokenID, found.balances.get? tokenID ≠ some none := by
  by_cases same : other = addr
  · subst same
    obtain rfl : account = found := by simpa [Flat.setAccount] using present
    exact noNil
  · exact tidy.noNil (by simpa [Flat.setAccount, same] using present)

private theorem tidy_logged (before : Flat) (entry : Entry) (after : Flat) (entries : List Entry)
    (tidy : before.Tidy entries) (changed : traceRollback.change before entry after) :
    after.Tidy (entry :: entries) := by
  obtain ⟨logged, -⟩ := changed
  have frames := logged.frames
  have savedToken : before.TokensSaved entries := tidy.savedToken
  refine ⟨?_, ?_, savedToken.logged logged⟩
  · intro other found present
    cases logged with
    | createObject | resetObject => exact noNil_setAccount tidy present (by simp [Account.new])
    | suicide => exact noNil_setAccount tidy present (by simp)
    | balance inMemory =>
      refine noNil_setAccount tidy present fun tokenID => ?_
      rw [get?_set]
      split
      · simp
      · exact tidy.noNil inMemory tokenID
    | nonce inMemory | storage inMemory | code inMemory =>
      have noNil := tidy.noNil inMemory
      exact noNil_setAccount tidy present noNil
    | refund | createToken | reIssue | destroy => exact tidy.noNil present
  · intro addr unmentioned
    rw [frames.accounts addr (unmentioned entry List.mem_cons_self), frames.baseAccount]
    exact tidy.saved addr fun older member => unmentioned older (mem_cons_of_mem _ member)

/-! ## The record of the latest token id -/

/-- A logged issue has marked the latest token id for writing. -/
structure FlatDB.Marked (db : FlatDB) : Prop where
  settled : db.1.Settled
  issued : ∀ prev tokenID, .createToken prev tokenID ∈ db.2.entries →
    db.1.dirtyLatestTokenID = true

namespace FlatDB.Marked

variable {db : FlatDB}

private theorem logged {before after : Flat} {log : UndoLog Entry} {entry : Entry}
    (marked : Marked (before, log)) (change : before.Logged entry after) :
    Marked (after, log.push entry) := by
  cases change with
  | createToken absent unsaved =>
    exact ⟨fun unmarked => Bool.noConfusion unmarked, fun _ _ _ => rfl⟩
  | createObject | resetObject | suicide | balance | nonce | storage | code | refund | reIssue
  | destroy =>
    refine ⟨marked.settled, ?_⟩
    intro prev tokenID member
    simp only [UndoLog.push_entries, List.mem_cons, reduceCtorEq, false_or] at member
    exact marked.issued prev tokenID member

theorem logs {before after : FlatDB} (marked : Marked before) (logs : Logs before after) :
    Marked after := by
  induction logs with
  | refl => exact marked
  | tail _ step ih =>
    obtain ⟨entry, flat, change, rfl⟩ := step
    exact ih.logged change

private theorem undo_latest (flat : Flat) (entries : List Entry) :
    (entries.foldl (fun flat entry => flat.undo entry) flat).trie = flat.trie ∧
      (entries.foldl (fun flat entry => flat.undo entry) flat).dirtyLatestTokenID =
        flat.dirtyLatestTokenID ∧ ((∀ prev tokenID, .createToken prev tokenID ∉ entries) →
        (entries.foldl (fun flat entry => flat.undo entry) flat).latestTokenID =
          flat.latestTokenID) := by
  induction entries generalizing flat with
  | nil => exact ⟨rfl, rfl, fun _ => rfl⟩
  | cons entry entries ih =>
    obtain ⟨trie, flag, latest⟩ := ih (flat.undo entry)
    refine ⟨trie.trans ?_, flag.trans ?_, ?_⟩
    · cases entry <;> rfl
    · cases entry <;> rfl
    · intro none
      refine (latest fun prev tokenID member =>
        none prev tokenID (mem_cons_of_mem _ member)).trans ?_
      cases entry with
      | createToken prev tokenID => exact absurd List.mem_cons_self (none prev tokenID)
      | _ => rfl

theorem revert (marked : Marked db) {id : Nat} {undone : List Entry}
    {rest : UndoLog Entry} (found : db.2.revertTo id = some (undone, rest)) :
    Marked (undone.foldl (fun flat entry => flat.undo entry) db.1, rest) := by
  obtain ⟨-, -, -, -, -, entries, -⟩ := UndoLog.revertTo_spec found
  obtain ⟨trie, flag, latest⟩ := undo_latest db.1 undone
  refine ⟨?_, ?_⟩
  · intro unmarked
    rw [flag] at unmarked
    have unissued : ∀ prev tokenID, .createToken prev tokenID ∉ undone := by
      intro prev tokenID member
      have isMarked := marked.issued prev tokenID (entries ▸ mem_append_left _ member)
      rw [unmarked] at isMarked
      cases isMarked
    rw [latest unissued, trie]
    exact marked.settled unmarked
  · intro prev tokenID member
    rw [flag]
    exact marked.issued prev tokenID (entries ▸ mem_append_right _ member)

theorem apply {after : FlatDB} {op : Op} {answer : Answer} (marked : Marked db)
    (grounded : db.1.Grounded) (applied : db.apply op = .ok (answer, after)) : Marked after := by
  rcases FlatDB.apply_cases grounded applied with logs | ⟨-, rfl⟩ |
    ⟨position, shot, undone, rest, -, -, found, rfl⟩
  · exact marked.logs logs
  · exact ⟨marked.settled, marked.issued⟩
  · exact marked.revert found

end FlatDB.Marked

/-! ## Sound databases -/

theorem Account.record_plain (account : Account) : account.plain.record = account.record := rfl

namespace StateDB

variable {sd : StateDB}
variable {addr : Address} {state : StateObject} {tokenID : TokenId} {account : Account}
variable {balances : BalanceSet} {code : Bytes} {codes newCodes : CodeStore}

theorem flat_unloaded (unloaded : sd.states.get? addr = none) :
    sd.flat.accounts addr = sd.flat.baseAccount addr := by
  simp only [flat, lookup, unloaded, Option.none_or, loadStateObject, Option.map_map,
    Flat.baseAccount]
  cases sd.trie.accounts.get? addr with
  | none => rfl
  | some data => exact congrArg some (StateObject.decode_account sd.codes data)

theorem flat_loaded (inMemory : sd.states.get? addr = some state) :
    sd.flat.accounts addr = some (state.account sd.codes) := by
  simp [flat, lookup, inMemory]

theorem flat_unloadedToken (unloaded : sd.tokens.get? tokenID = none) :
    (sd.flat.tokens tokenID).map TokenObject.data = sd.trie.tokens.get? tokenID := by
  simp only [flat, lookupToken, unloaded, Option.none_or, loadTokenObject, Option.map_map]
  cases sd.trie.tokens.get? tokenID <;> rfl

theorem flat_loadedToken {token : TokenObject}
    (inMemory : sd.tokens.get? tokenID = some token) : sd.flat.tokens tokenID = some token := by
  simp [flat, lookupToken, inMemory]

theorem baseAccount_plain (flat : Flat) (addr : Address) :
    (flat.baseAccount addr).map Account.plain = flat.baseAccount addr := by
  unfold Flat.baseAccount
  cases flat.trie.accounts.get? addr <;> rfl

theorem baseAccount_noNil {flat : Flat}
    (base : flat.baseAccount addr = some account) (tokenID : TokenId) :
    account.balances.get? tokenID ≠ some none := by
  obtain ⟨data, -, rfl⟩ := map_eq_some_iff.mp base
  simp only [ofData, get?_filterMap]
  cases data.balances.get? tokenID <;> simp

structure Sound (sd : StateDB) : Prop where
  counted : Counted sd.journal.entries sd
  codes : CodesSaved sd.journal.entries sd
  marked : sd.abs.Marked
  safe : traceRollback.Safe Flat.Tidy sd.abs

theorem Sound.tidy (sound : sd.Sound) : sd.flat.Tidy sd.abs.2.entries := sound.safe.1

theorem sound_newStateDB (codes : CodeStore) (root : StateTrie) :
    (newStateDB codes root).Sound where
  counted := by
    refine ⟨fun addr => ?_, fun tokenID _ => ?_, fun tokenID dirty => ?_⟩
    · simp [newStateDB, UndoLog.empty]
    · simp [newStateDB, UndoLog.empty]
    · simp [isDirtyToken, newStateDB, GoMap.contains] at dirty
  codes := ⟨fun _ _ found => (nomatch found), nofun⟩
  marked := ⟨fun _ => rfl, nofun⟩
  safe := by
    refine ⟨⟨?_, ?_, ?_⟩, ?_⟩
    · intro addr account present
      exact baseAccount_noNil ((flat_unloaded rfl).symm.trans present)
    · intro addr _
      exact (congrArg _ (flat_unloaded rfl)).trans (baseAccount_plain _ addr)
    · intro tokenID _ _
      exact flat_unloadedToken rfl
    · intro shot member
      cases member

theorem Sound.apply {next : StateDB} {op : Op} {answer : Answer} (sound : sd.Sound)
    (applied : sd.apply op = .ok (answer, next))
    (clean : op.isClean JournalEntry.traceScar sd = true) :
    next.Sound ∧ traceRollback.Run sd.abs next.abs := by
  have simulated : sd.abs.apply op = .ok (answer, next.abs) := by
    rw [← abs_apply, applied]
    rfl
  have run : traceRollback.Run sd.abs next.abs := by
    refine apply_rollback traceRollback Flat.Settled ?_ rfl rfl Change.view_traceScar
      sound.marked.settled applied clean
    intro before entry after settled logged
    have kept := @FlatDB.Marked.logged before after .empty entry
      ⟨settled, nofun⟩ logged
    exact ⟨⟨logged, settled⟩, kept.settled⟩
  exact ⟨⟨sound.counted.apply applied, sound.codes.apply applied,
    sound.marked.apply sd.grounded simulated,
    traceRollback.safe_run tidy_respects tidy_logged sound.safe run⟩, run⟩

theorem Sound.run {after : StateDB} {ops : List Op} (sound : sd.Sound)
    (ran : sd.run ops = .ok after) (clean : sd.runIsClean JournalEntry.traceScar ops = true) :
    after.Sound ∧ traceRollback.Run sd.abs after.abs := by
  induction ops generalizing sd with
  | nil =>
    cases ran
    exact ⟨sound, .refl⟩
  | cons op ops ih =>
    obtain ⟨answer, next, applied, rest⟩ := run_cons ran
    obtain ⟨cleanOp, cleanRest⟩ := runIsClean_cons clean applied
    obtain ⟨nextSound, step⟩ := sound.apply applied cleanOp
    obtain ⟨afterSound, steps⟩ := ih nextSound rest cleanRest
    exact ⟨afterSound, step.trans steps⟩

/-! ## The committed trie -/

private theorem no_nil (noNil : ∀ tokenID, balances.get? tokenID ≠ some none) :
    balances.any (fun _ balance => balance.isNone) = false := by
  refine any_eq_false_iff.mpr fun tokenID balance found => ?_
  cases balance with
  | none => exact absurd found (noNil tokenID)
  | some amount => rfl

theorem Sound.commit (sound : sd.Sound) : sd.commit = .ok sd.committed := by
  unfold StateDB.commit
  rw [if_neg]
  rw [Bool.not_eq_true]
  refine any_eq_false_iff.mpr fun addr state inMemory => ?_
  have noneMissing := no_nil (sound.tidy.noNil (flat_loaded inMemory))
  rw [show state.balances.any _ = false from noneMissing, Bool.and_false]

theorem encode_commit (codes : CodeStore)
    (noNil : ∀ tokenID, state.balances.get? tokenID ≠ some none) :
    state.commit.encode.toOption = some (state.account codes).record := by
  have noneMissing := no_nil noNil
  simp only [StateObject.encode, StateObject.commit, noneMissing, Bool.false_eq_true, if_false]
  rfl

theorem Sound.saved (sound : sd.Sound) (undirty : sd.isDirty addr = false) :
    (sd.flat.accounts addr).map Account.plain = sd.flat.baseAccount addr := by
  refine sound.tidy.saved addr fun entry member touched => ?_
  obtain ⟨change, isMember, rfl⟩ := mem_map.mp member
  rw [Change.view_dirtied] at touched
  rw [sound.counted.dirty isMember touched] at undirty
  cases undirty

private theorem base_record (flat : Flat) (addr : Address) :
    (flat.baseAccount addr).map Account.record = flat.trie.accounts.get? addr := by
  unfold Flat.baseAccount
  cases flat.trie.accounts.get? addr with
  | none => rfl
  | some data => exact congrArg some (Account.record_ofData flat.codes data)

private theorem record_of_plain {account : Option Account} {base : Option Account}
    (same : account.map Account.plain = base) :
    account.map Account.record = base.map Account.record := by
  rw [← same, Option.map_map]
  rfl

theorem Sound.committed_account (sound : sd.Sound) (addr : Address) :
    sd.committed.trie.accounts.get? addr = (sd.flat.accounts addr).map Account.record := by
  simp only [committed, dirtyRecords, get?_overlay, get?_filterMap]
  cases inMemory : sd.states.get? addr with
  | none =>
    rw [flat_unloaded inMemory, base_record]
    rfl
  | some state =>
    simp only [bind_some]
    cases dirty : sd.isDirty addr with
    | true =>
      have present := flat_loaded inMemory
      rw [if_pos rfl, encode_commit sd.codes (sound.tidy.noNil present), present]
      rfl
    | false =>
      rw [record_of_plain (sound.saved dirty), base_record]
      rfl

theorem Counted.committed_token (counted : Counted sd.journal.entries sd)
    (saved : sd.flat.TokensSaved sd.abs.2.entries) (tokenID : TokenId) :
    sd.committed.trie.tokens.get? tokenID =
      if tokenID > tokenNotDirtied then (sd.flat.tokens tokenID).map TokenObject.data
      else sd.trie.tokens.get? tokenID := by
  simp only [committed, dirtyTokenRecords, get?_overlay, get?_filterMap]
  cases inMemory : sd.tokens.get? tokenID with
  | none => simp [flat_unloadedToken inMemory]
  | some token =>
    simp only [bind_some, flat_loadedToken inMemory, map_some]
    cases dirty : sd.isDirtyToken tokenID with
    | true => simp [counted.countable tokenID dirty]
    | false =>
      simp only [Bool.false_eq_true, if_false, Option.none_or]
      split
      next countable =>
        have unmentioned : ∀ entry ∈ sd.abs.2.entries, entry.tokenDirtied ≠ tokenID := by
          intro entry member touched
          obtain ⟨change, isMember, rfl⟩ := mem_map.mp member
          rw [Change.view_tokenDirtied] at touched
          rw [counted.dirtyToken isMember touched countable] at dirty
          cases dirty
        have isSaved := saved tokenID countable unmentioned
        rw [flat_loadedToken inMemory, map_some] at isSaved
        exact isSaved.symm
      · rfl

theorem Sound.committed_trie {left right : StateDB} (leftSound : left.Sound)
    (rightSound : right.Sound) (trie : left.trie = right.trie)
    (accounts : ∀ addr, (left.flat.accounts addr).map Account.record =
      (right.flat.accounts addr).map Account.record)
    (tokens : ∀ tokenID, (left.flat.tokens tokenID).map TokenObject.data =
      (right.flat.tokens tokenID).map TokenObject.data)
    (latestTokenID : left.latestTokenID = right.latestTokenID)
    (latest : latestMark left.trie left.dirtyLatestTokenID =
      latestMark right.trie right.dirtyLatestTokenID) :
    left.committed.trie = right.committed.trie := by
  have sameAccounts : left.committed.trie.accounts = right.committed.trie.accounts :=
    GoMap.ext fun addr => by
      rw [leftSound.committed_account, rightSound.committed_account, accounts]
  have sameTokens : left.committed.trie.tokens = right.committed.trie.tokens :=
    GoMap.ext fun tokenID => by
      rw [leftSound.counted.committed_token leftSound.tidy.savedToken,
        rightSound.counted.committed_token rightSound.tidy.savedToken, tokens, trie]
  have sameLatest : left.committed.trie.latestTokenID = right.committed.trie.latestTokenID := by
    have leftSettled := leftSound.marked.settled
    have rightSettled := rightSound.marked.settled
    simp only [Flat.Settled, abs, flat] at leftSettled rightSettled
    simp only [latestMark, trie] at latest
    simp only [committed]
    rw [trie] at leftSettled ⊢
    rw [latestTokenID] at leftSettled ⊢
    cases recorded : right.trie.latestTokenID with
    | none =>
      simp only [recorded, isSome_none, Bool.false_or] at latest
      rw [latest]
    | some id =>
      simp only [recorded, getD_some] at leftSettled rightSettled
      cases leftDirty : left.dirtyLatestTokenID with
      | true =>
        cases rightDirty : right.dirtyLatestTokenID with
        | true => rfl
        | false => simp [rightSettled rightDirty]
      | false => simp [leftSettled leftDirty]
  rw [show left.committed.trie = ⟨_, _, _⟩ from rfl, show right.committed.trie = ⟨_, _, _⟩ from rfl,
    StateTrie.mk.injEq]
  exact ⟨sameAccounts, sameTokens, sameLatest⟩

/-! ## Committing keeps a database sound -/

theorem committed_states (sd : StateDB) (addr : Address) :
    sd.committed.states.get? addr = (sd.states.get? addr).map fun state =>
      if sd.isDirty addr then state.commit else state := by
  simp only [committed, get?_filterMap]
  cases sd.states.get? addr <;> rfl

theorem flat_committed_tokens (sd : StateDB) : sd.committed.flat.tokens = sd.flat.tokens := by
  funext tokenID
  cases inMemory : sd.tokens.get? tokenID with
  | some token =>
    rw [flat_loadedToken inMemory]
    exact flat_loadedToken inMemory
  | none =>
    have unwritten : sd.committed.trie.tokens.get? tokenID = sd.trie.tokens.get? tokenID := by
      simp [committed, dirtyTokenRecords, inMemory]
    simp only [flat, lookupToken, loadTokenObject, unwritten]
    rfl

private theorem mem_dirtyCodes
    (inMemory : sd.states.get? addr = some state) (dirty : sd.isDirty addr = true)
    (marked : state.dirtycode = true) (found : state.contract.code = some code) :
    code ∈ sd.committed.codes := by
  refine mem_union_right _ (Multiset.mem_toFinset.mpr ((Multiset.mem_filterMap _ _).mpr ?_))
  exact ⟨⟨addr, state⟩, get?_eq_some_iff.mp inMemory, by simp [dirty, marked, found]⟩

private theorem stored_committed
    (saved : CodesSaved sd.journal.entries sd) (inMemory : sd.states.get? addr = some state)
    (dirty : sd.isDirty addr = true) (found : state.contract.code = some code) :
    code = [] ∨ code ∈ sd.committed.codes := by
  rcases saved.states addr state inMemory with marked | stored
  · exact .inr (mem_dirtyCodes inMemory dirty marked found)
  · exact (stored code found).imp id (mem_union_left _)

theorem Sound.code_stored (sound : sd.Sound)
    (present : sd.flat.accounts addr = some account) (nonempty : account.code ≠ []) :
    account.code ∈ sd.committed.codes := by
  cases dirty : sd.isDirty addr with
  | false =>
    have saved := sound.saved dirty
    rw [present, map_some] at saved
    obtain ⟨data, -, isData⟩ := map_eq_some_iff.mp saved.symm
    have code := congrArg Account.code isData
    exact mem_union_left _ (mem_of_getCode_ofHash code nonempty)
  | true =>
    cases inMemory : sd.states.get? addr with
    | none =>
      rw [flat_unloaded inMemory] at present
      obtain ⟨data, -, isData⟩ := map_eq_some_iff.mp present
      have code := congrArg Account.code isData
      exact mem_union_left _ (mem_of_getCode_ofHash code nonempty)
    | some state =>
      rw [flat_loaded inMemory] at present
      obtain rfl := Option.some.inj present
      cases isCode : state.contract.code with
      | some code =>
        have same : (state.account sd.codes).code = code := by
          simp [StateObject.account, Contract.getCode, isCode]
        rw [same] at nonempty ⊢
        exact (stored_committed sound.codes inMemory dirty isCode).resolve_left nonempty
      | none =>
        have code : (state.account sd.codes).code =
            ((Contract.ofHash state.contract.codeHash).getCode sd.codes).getD [] := by
          rw [← eq_ofHash isCode]
          rfl
        exact mem_union_left _ (mem_of_getCode_ofHash code.symm nonempty)

private theorem codeSaved_committed (saved : CodesSaved sd.journal.entries sd) :
    sd.committed.StatesSaved := by
  intro addr state found
  rw [committed_states] at found
  obtain ⟨before, inMemory, rfl⟩ := map_eq_some_iff.mp found
  cases dirty : sd.isDirty addr with
  | true => exact .inr fun code isCode => stored_committed saved inMemory dirty isCode
  | false =>
    refine (saved.states addr before inMemory).imp id fun stored code isCode => ?_
    exact (stored code isCode).imp id (mem_union_left _)

private theorem balances_record (noNil : ∀ tokenID, balances.get? tokenID ≠ some none) :
    GoMap.filterMap (GoMap.filterMap balances fun _ balance => balance)
      (fun _ balance => some (some balance)) = balances := by
  refine GoMap.ext fun tokenID => ?_
  simp only [get?_filterMap]
  cases found : balances.get? tokenID with
  | none => rfl
  | some balance =>
    cases balance with
    | none => exact absurd found (noNil tokenID)
    | some amount => rfl

private theorem commit_account (noNil : ∀ tokenID, state.balances.get? tokenID ≠ some none)
    (stored : ∀ code, state.contract.code = some code → code = [] ∨ code ∈ newCodes) :
    (state.commit.account newCodes).plain = ofData newCodes (state.account codes).record := by
  have code := (state.contract.getCode_ofHash_iff newCodes).mpr stored
  have balances := balances_record noNil
  simp only [Account.plain, ofData, Account.record, StateObject.account,
    StateObject.commit, Storage.commit, empty_overlay, balances, code]

private theorem account_grow {data : AccountData} (grown : codes ⊆ newCodes)
    (saved : (state.account codes).plain = ofData codes data) :
    (state.account newCodes).plain = ofData newCodes data := by
  have codeHash : state.contract.codeHash = data.codeHash := congrArg Account.codeHash saved
  have oldCode : (state.contract.getCode codes).getD [] =
      ((Contract.ofHash data.codeHash).getCode codes).getD [] := congrArg Account.code saved
  rw [← codeHash] at oldCode
  have newCode := (state.contract.getCode_ofHash_iff newCodes).mpr fun code found =>
    ((state.contract.getCode_ofHash_iff codes).mp oldCode code found).imp id fun stored =>
      grown stored
  rw [codeHash] at newCode
  have others : { ofData codes data with
      code := (state.contract.getCode newCodes).getD [] } = (state.account newCodes).plain := by
    rw [← saved]
    rfl
  rw [← others, newCode]
  rfl

theorem Sound.committed_saved (sound : sd.Sound) (addr : Address) :
    (sd.committed.flat.accounts addr).map Account.plain = sd.committed.flat.baseAccount addr := by
  cases inMemory : sd.states.get? addr with
  | none =>
    have unloaded : sd.committed.states.get? addr = none := by
      rw [committed_states, inMemory]
      rfl
    rw [flat_unloaded unloaded, baseAccount_plain]
  | some state =>
    have present := flat_loaded inMemory
    have loaded := committed_states sd addr
    rw [inMemory, map_some] at loaded
    have record : sd.committed.flat.baseAccount addr =
        some (ofData sd.committed.codes (state.account sd.codes).record) := by
      change (sd.committed.trie.accounts.get? addr).map _ = _
      rw [sound.committed_account, present]
      rfl
    rw [flat_loaded loaded, record, map_some]
    refine congrArg some ?_
    cases dirty : sd.isDirty addr with
    | true =>
      exact commit_account (sound.tidy.noNil present) fun code found =>
        stored_committed sound.codes inMemory dirty found
    | false =>
      refine @account_grow state sd.codes _ _ subset_union_left ?_
      have saved := sound.saved dirty
      rw [present, map_some] at saved
      obtain ⟨data, -, isData⟩ := map_eq_some_iff.mp saved.symm
      have sameData : (state.account sd.codes).record = data := by
        rw [← Account.record_plain, ← isData]
        exact Account.record_ofData _ data
      rw [sameData, ← isData]
      rfl

private theorem Sound.committed_noNil (sound : sd.Sound)
    (present : sd.committed.flat.accounts addr = some account) (tokenID : TokenId) :
    account.balances.get? tokenID ≠ some none := by
  have base := sound.committed_saved addr
  rw [present, map_some] at base
  exact baseAccount_noNil base.symm tokenID

theorem Counted.committed_savedToken (counted : Counted sd.journal.entries sd)
    (saved : sd.flat.TokensSaved sd.abs.2.entries) (countable : tokenID > tokenNotDirtied) :
    (sd.committed.flat.tokens tokenID).map TokenObject.data =
      sd.committed.trie.tokens.get? tokenID := by
  cases inMemory : sd.tokens.get? tokenID with
  | none => exact flat_unloadedToken inMemory
  | some token =>
    have loaded : sd.committed.flat.tokens tokenID = some token := flat_loadedToken inMemory
    rw [loaded, counted.committed_token saved, if_pos countable, flat_loadedToken inMemory]

theorem Counted.committed_clear (counted : Counted sd.journal.entries sd) :
    Counted sd.committed.clearJournalAndRefund.journal.entries
      sd.committed.clearJournalAndRefund := by
  refine ⟨fun addr => ?_, fun tokenID _ => ?_, fun tokenID dirty => ?_⟩
  · simp [clearJournalAndRefund, UndoLog.empty]
  · simp [clearJournalAndRefund, UndoLog.empty]
  · refine counted.countable tokenID ?_
    have member : tokenID ∈ sd.committed.dirtyTokens := by
      rcases (Bool.or_eq_true _ _).mp dirty with marked | counted
      · exact of_decide_eq_true marked
      · cases counted
    rcases mem_union.mp (mem_filter.mp member).1 with old | counted
    · simp [isDirtyToken, old]
    have isCounted : sd.tokenDirties.contains tokenID = true :=
      Finmap.lookup_isSome.mpr (Finmap.mem_keys.mp counted)
    simp [isDirtyToken, isCounted]

theorem marked_committed_clear (marked : sd.abs.Marked) :
    sd.committed.clearJournalAndRefund.abs.Marked := by
  refine ⟨fun _ => ?_, nofun⟩
  have settled := marked.settled
  simp only [clearJournalAndRefund, committed]
  cases dirty : sd.dirtyLatestTokenID with
  | true => rfl
  | false => exact settled dirty

theorem Sound.committed_clear (sound : sd.Sound) : sd.committed.clearJournalAndRefund.Sound where
  counted := sound.counted.committed_clear
  codes := ⟨codeSaved_committed sound.codes, nofun⟩
  marked := marked_committed_clear sound.marked
  safe := by
    refine ⟨⟨?_, ?_, ?_⟩, ?_⟩
    · intro addr account present
      exact sound.committed_noNil present
    · intro addr _
      exact sound.committed_saved addr
    · intro tokenID countable _
      exact sound.counted.committed_savedToken sound.tidy.savedToken countable
    · intro shot member
      cases member

end StateDB

end AnnchainOG
