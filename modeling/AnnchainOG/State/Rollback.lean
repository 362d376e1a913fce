import AnnchainOG.State.Refinement

/-!
# What undoing journal entries restores

A first balance comes back as a nil entry and a storage slot as an explicit zero; undoing the
creation or the reset of the account heals both.
-/

namespace AnnchainOG

open Function Option

open Flat (alter alterToken setAccount setToken)

open JournalEntry (dirtied)

namespace JournalEntry

variable {α γ : Type}

/-- The account whose object undoing the entry replaces outright. -/
def heals : JournalEntry α γ → Option (Option Address)
  | createObject account | resetObject account _ => some (some account)
  | suicide _ _ _ | balance _ _ _ | nonce _ _ | storage _ _ _ | code _ _ | refund _
  | createToken _ _ | reIssue _ | destroy _ _ => none

/-- The account at which undoing the entry leaves a nil balance. -/
def nilScar : JournalEntry α γ → Option (Option Address)
  | balance account _ none => some (some account)
  | balance _ _ (some _) | createObject _ | resetObject _ _ | suicide _ _ _ | nonce _ _
  | storage _ _ _ | code _ _ | refund _ | createToken _ _ | reIssue _ | destroy _ _ => none

end JournalEntry

variable {before after : Flat} {entry : Entry}

def Entry.restore (entry : Entry) (base now : Option Account) : Option Account :=
  match entry with
  | .createObject _ => base
  | .resetObject _ prev => some prev
  | .suicide _ prev prevbalance => now.map fun account =>
    { account with suicided := prev, balances := prevbalance.overlay account.balances }
  | .balance _ tokenID prev => now.map fun account =>
    { account with balances := account.balances.set tokenID prev }
  | .nonce _ prev => now.map fun account => { account with nonce := prev }
  | .storage _ key prevalue => now.map fun account =>
    { account with storage := account.storage.set key prevalue }
  | .code _ prev => now.map fun account => { account with codeHash := prev.1, code := prev.2 }
  | .refund _ | .createToken _ _ | .reIssue _ | .destroy _ _ => now

theorem Flat.undo_accounts (flat : Flat) (entry : Entry) (addr : Address) :
    (flat.undo entry).accounts addr =
      if entry.dirtied = some addr then entry.restore (flat.baseAccount addr) (flat.accounts addr)
      else flat.accounts addr := by
  by_cases same : entry.dirtied = some addr
  · rw [if_pos same]
    cases entry with
    | refund | createToken | reIssue | destroy => simp [dirtied] at same
    | createObject | resetObject | suicide | balance | nonce | storage | code =>
      simp only [dirtied, Option.some.injEq] at same
      subst same
      simp [Flat.undo, alter, setAccount, Entry.restore]
  · rw [if_neg same]
    cases entry with
    | refund | createToken | reIssue | destroy => rfl
    | createObject | resetObject | suicide | balance | nonce | storage | code =>
      simp only [dirtied, Option.some.injEq] at same
      simp [Flat.undo, alter, setAccount, update_of_ne (Ne.symm same)]

/-- The two ways in which an account differs after its change was logged and undone. -/
inductive Scarred : Entry → Account → Account → Prop where
  | balance {addr : Address} {account : Account} {tokenID : TokenId}
      (missing : account.balances.entry tokenID = none) :
      Scarred (.balance addr tokenID none) account
        { account with balances := account.balances.set tokenID none }
  | storage {addr : Address} {account : Account} {key : Hash}
      (missing : account.storage.get? key = none) :
      Scarred (.storage addr key 0) account { account with storage := account.storage.set key 0 }

private theorem balance_restored (account : Account) (addr : Address) (tokenID : TokenId) :
    ({ account with balances := account.balances.set tokenID (account.balances.entry tokenID) } :
        Account) = account ∨
      Scarred (.balance addr tokenID (account.balances.entry tokenID)) account { account with
          balances := account.balances.set tokenID (account.balances.entry tokenID) } := by
  cases isEntry : account.balances.entry tokenID with
  | none => exact .inr (.balance isEntry)
  | some balance =>
    left
    have present : account.balances.get? tokenID = some (some balance) := by
      simpa [BalanceSet.entry, join_eq_some_iff] using isEntry
    rw [GoMap.set_eq_self present]

private theorem storage_restored (account : Account) (addr : Address) (key : Hash) :
    ({ account with storage := account.storage.set key (slot account.storage key) } : Account) =
        account ∨ Scarred (.storage addr key (slot account.storage key)) account
        { account with storage := account.storage.set key (slot account.storage key) } := by
  cases found : account.storage.get? key with
  | none =>
    have zero : slot account.storage key = 0 := by simp [slot, found]
    rw [zero]
    exact .inr (.storage found)
  | some stored =>
    left
    have isStored : slot account.storage key = stored := by simp [slot, found]
    rw [isStored, GoMap.set_eq_self found]

theorem Logged.undo_account (logged : before.Logged entry after) (addr : Address) :
    (after.undo entry).accounts addr = before.accounts addr ∨
      ∃ account restored, entry.dirtied = some addr ∧ before.accounts addr = some account ∧
        (after.undo entry).accounts addr = some restored ∧ Scarred entry account restored := by
  by_cases touched : entry.dirtied = some addr
  · rw [Flat.undo_accounts, if_pos touched]
    cases logged with
    | createObject absent unsaved =>
      obtain rfl := Option.some.inj touched
      exact .inl (unsaved.trans absent.symm)
    | resetObject present =>
      obtain rfl := Option.some.inj touched
      exact .inl present.symm
    | suicide present =>
      obtain rfl := Option.some.inj touched
      left
      rw [present]
      simp [setAccount, Entry.restore]
    | @balance _ account tokenID value present =>
      obtain rfl := Option.some.inj touched
      rw [present]
      simp only [setAccount, Entry.restore, update_self, map_some, GoMap.set_set]
      rcases balance_restored account _ tokenID with same | scarred
      · exact .inl (congrArg some same)
      · exact .inr ⟨account, _, touched, rfl, rfl, scarred⟩
    | nonce present | code present =>
      obtain rfl := Option.some.inj touched
      left
      simp [setAccount, Entry.restore, present]
    | @storage _ account key value present =>
      obtain rfl := Option.some.inj touched
      rw [present]
      simp only [setAccount, Entry.restore, update_self, map_some, GoMap.set_set]
      rcases storage_restored account _ key with same | scarred
      · exact .inl (congrArg some same)
      · exact .inr ⟨account, _, touched, rfl, rfl, scarred⟩
    | refund | createToken | reIssue | destroy => simp [dirtied] at touched
  · left
    rw [Flat.undo_accounts, if_neg touched]
    cases logged with
    | refund | createToken | reIssue | destroy => rfl
    | createObject | resetObject | suicide | balance | nonce | storage | code =>
      simp only [dirtied, Option.some.injEq] at touched
      simp [setAccount, update_of_ne (Ne.symm touched)]

private theorem tokens_restored
    (logged : before.Logged entry after) : (after.undo entry).tokens = before.tokens := by
  cases logged with
  | createObject | resetObject | suicide | balance | nonce | storage | code | refund => rfl
  | createToken absent unsaved =>
    have base : before.baseToken _ = before.tokens _ := unsaved.trans absent.symm
    simp only [Flat.undo, setToken, update_idem]
    exact (congrArg _ base).trans (update_eq_self _ _)
  | reIssue present | destroy present =>
    simp only [Flat.undo, alterToken, setToken, update_self, update_idem, map_some]
    refine (congrArg _ ?_).trans (update_eq_self _ _)
    simp [present, TokenObject.dropIssue, TokenObject.addIssue, TokenObject.setDestroyed]

section

variable {β μ : Type} (view : Account → β) (mark : StateTrie → Bool → μ)
variable {left right : Flat}

/-- Agreement in all but the accounts in `keys` and, with `none`, the record of the latest token
id. -/
structure SameBut (keys : Set (Option Address)) (left right : Flat) : Prop where
  codes : left.codes = right.codes
  trie : left.trie = right.trie
  tokens : left.tokens = right.tokens
  latestTokenID : left.latestTokenID = right.latestTokenID
  refund : left.refund = right.refund
  accounts : ∀ addr, some addr ∉ keys →
    (left.accounts addr).map view = (right.accounts addr).map view
  latest : none ∉ keys →
    mark left.trie left.dirtyLatestTokenID = mark right.trie right.dirtyLatestTokenID

variable {view mark}

private theorem sameBut_equivalence (keys : Set (Option Address)) :
    Equivalence (SameBut view mark keys) where
  refl _ := ⟨rfl, rfl, rfl, rfl, rfl, fun _ _ => rfl, fun _ => rfl⟩
  symm same := ⟨same.codes.symm, same.trie.symm, same.tokens.symm, same.latestTokenID.symm,
    same.refund.symm, fun addr outside => (same.accounts addr outside).symm,
    fun outside => (same.latest outside).symm⟩
  trans first second := ⟨first.codes.trans second.codes, first.trie.trans second.trie,
    first.tokens.trans second.tokens, first.latestTokenID.trans second.latestTokenID,
    first.refund.trans second.refund,
    fun addr outside => (first.accounts addr outside).trans (second.accounts addr outside),
    fun outside => (first.latest outside).trans (second.latest outside)⟩

private theorem SameBut.mono {fewer more : Set (Option Address)}
    (subset : fewer ⊆ more) (same : SameBut view mark fewer left right) :
    SameBut view mark more left right :=
  { same with
    accounts := fun addr outside => same.accounts addr fun inside => outside (subset inside)
    latest := fun outside => same.latest fun inside => outside (subset inside) }

private theorem undo_unlogged (flat : Flat) (entry : Entry) :
    (flat.undo entry).codes = flat.codes ∧ (flat.undo entry).trie = flat.trie ∧
      (flat.undo entry).dirtyLatestTokenID = flat.dirtyLatestTokenID := by
  cases entry <;> exact ⟨rfl, rfl, rfl⟩

private theorem undo_tokens (trie : left.trie = right.trie)
    (tokens : left.tokens = right.tokens) (entry : Entry) :
    (left.undo entry).tokens = (right.undo entry).tokens := by
  cases entry <;>
    simp [Flat.undo, alter, setAccount, alterToken, setToken, Flat.baseToken,
      tokens, trie]

private theorem undo_counters (latestTokenID : left.latestTokenID = right.latestTokenID)
    (refund : left.refund = right.refund) (entry : Entry) :
    (left.undo entry).latestTokenID = (right.undo entry).latestTokenID ∧
      (left.undo entry).refund = (right.undo entry).refund := by
  cases entry <;>
    simp [Flat.undo, alter, setAccount, alterToken, setToken, latestTokenID,
      refund]

private theorem SameBut.undo (respects : ∀ (entry : Entry) (base left right : Option Account),
      left.map view = right.map view →
      (entry.restore base left).map view = (entry.restore base right).map view)
    {keys : Set (Option Address)} {entry : Entry} (same : SameBut view mark keys left right) :
    SameBut view mark {key ∈ keys | entry.heals ≠ some key} (left.undo entry)
      (right.undo entry) := by
  obtain ⟨leftCodes, leftTrie, leftMark⟩ := undo_unlogged left entry
  obtain ⟨rightCodes, rightTrie, rightMark⟩ := undo_unlogged right entry
  obtain ⟨sameLatest, sameRefund⟩ := undo_counters same.latestTokenID same.refund entry
  refine ⟨by rw [leftCodes, rightCodes, same.codes], by rw [leftTrie, rightTrie, same.trie],
    undo_tokens same.trie same.tokens entry, sameLatest, sameRefund, ?_, ?_⟩
  · intro addr outside
    have base : left.baseAccount addr = right.baseAccount addr := by
      simp [Flat.baseAccount, same.codes, same.trie]
    rw [Flat.undo_accounts, Flat.undo_accounts, base]
    by_cases inside : some addr ∈ keys
    · have healed : entry.heals = some (some addr) := by
        by_contra unhealed
        exact outside ⟨inside, unhealed⟩
      cases entry with
      | createObject | resetObject =>
        simp only [JournalEntry.heals, Option.some.injEq] at healed
        subst healed
        simp [dirtied, Entry.restore]
      | suicide | balance | nonce | storage | code | refund | createToken | reIssue | destroy =>
        simp [JournalEntry.heals] at healed
    · split
      · exact respects entry _ _ _ (same.accounts addr inside)
      · exact same.accounts addr inside
  · intro outside
    rw [leftTrie, rightTrie, leftMark, rightMark]
    refine same.latest fun inside => outside ⟨inside, ?_⟩
    cases entry <;> simp [JournalEntry.heals]

/-- The rollback of the state database, as far as `view` and `mark` can tell. -/
def rollback (view : Account → β) (mark : StateTrie → Bool → μ)
    (scar : Entry → Option (Option Address)) (settled : Flat → Prop)
    (respects : ∀ (entry : Entry) (base left right : Option Account),
      left.map view = right.map view →
      (entry.restore base left).map view = (entry.restore base right).map view)
    (scars : ∀ {entry : Entry} {account restored : Account} {addr : Address},
      Scarred entry account restored → entry.dirtied = some addr →
      scar entry = some (some addr) ∨ view restored = view account)
    (marks : ∀ {flat : Flat} (tokenID : TokenId), settled flat →
      scar (.createToken flat.latestTokenID tokenID) = some none ∨
        mark flat.trie true = mark flat.trie flat.dirtyLatestTokenID) :
    RollbackSystem Flat Entry (Option Address) where
  change before entry after := before.Logged entry after ∧ settled before
  undo := Flat.undo
  sameOff := SameBut view mark
  scar := scar
  heals := JournalEntry.heals
  equivalence := sameBut_equivalence
  mono := SameBut.mono
  undo_same := SameBut.undo respects
  undo_change := by
    rintro before entry after ⟨logged, ready⟩
    obtain ⟨codes, trie, flag⟩ := undo_unlogged after entry
    refine ⟨codes.trans ?_, trie.trans ?_, tokens_restored logged, ?_, ?_, ?_, ?_⟩
    · cases logged <;> rfl
    · cases logged <;> rfl
    · cases logged <;> rfl
    · cases logged <;> rfl
    · intro addr outside
      rcases Logged.undo_account logged addr with exact | ⟨account, restored, touched, present, now,
        scarred⟩
      · rw [exact]
      rcases scars scarred touched with isScar | same
      · exact absurd isScar outside
      · simp [present, now, same]
    · intro outside
      rw [trie, flag]
      cases logged with
      | @createToken tokenID token absent unsaved =>
        rcases marks tokenID ready with isScar | same
        · exact absurd isScar outside
        · exact same
      | createObject | resetObject | suicide | balance | nonce | storage | code | refund
      | reIssue | destroy => rfl

end

/-! ## Runs of the database -/

theorem StateDB.grounded (sd : StateDB) : sd.flat.Grounded where
  accounts addr absent := by
    have unknown : sd.lookup addr = none := by simpa [flat] using absent
    simp only [lookup, or_eq_none_iff, loadStateObject, map_eq_none_iff] at unknown
    simp [Flat.baseAccount, flat, unknown.2]
  tokens tokenID absent := by
    have unknown : sd.lookupToken tokenID = none := absent
    simp only [lookupToken, or_eq_none_iff, loadTokenObject, map_eq_none_iff]
      at unknown
    simp [Flat.baseToken, flat, unknown.2]

@[simp] theorem Change.view_heals (codes : CodeStore) (entry : Change) :
    (Change.view codes entry).heals = entry.heals := by
  cases entry <;> rfl

def StateDB.undone (sd : StateDB) (snapshotid : Nat) : List Change :=
  ((sd.journal.revertTo snapshotid).map Prod.fst).getD []

def Op.isClean (scar : Change → Option (Option Address)) (sd : StateDB) : Op → Bool
  | .revert position =>
    match sd.journal.snapshotSet[position]? with
    | none => true
    | some shot => healsScars scar JournalEntry.heals (sd.undone shot.shotid)
  | _ => true

def StateDB.runIsClean (scar : Change → Option (Option Address)) (sd : StateDB) : List Op → Bool
  | [] => true
  | op :: ops =>
    op.isClean scar sd &&
      match sd.apply op with
      | .error _ => true
      | .ok (_, next) => next.runIsClean scar ops

namespace StateDB

variable {sd after : StateDB} {scar : Change → Option (Option Address)} {op : Op} {ops : List Op}
variable {answer : Answer}

theorem run_cons (ran : sd.run (op :: ops) = .ok after) :
    ∃ answer next, sd.apply op = .ok (answer, next) ∧ next.run ops = .ok after := by
  obtain ⟨⟨answer, next⟩, applied, rest⟩ := bind_ok ran
  exact ⟨answer, next, applied, rest⟩

theorem runIsClean_cons {next : StateDB} (clean : sd.runIsClean scar (op :: ops) = true)
    (applied : sd.apply op = .ok (answer, next)) :
    op.isClean scar sd = true ∧ next.runIsClean scar ops = true := by
  simpa only [runIsClean, applied, Bool.and_eq_true] using clean

theorem revertTo_abs {snapshotid : Nat} {undone : List Entry} {rest : UndoLog Entry}
    (found : sd.abs.2.revertTo snapshotid = some (undone, rest)) :
    undone = (sd.undone snapshotid).map (Change.view sd.codes) := by
  have mapped : (sd.journal.revertTo snapshotid).map
      (fun result => (result.1.map (Change.view sd.codes), result.2.map (Change.view sd.codes))) =
      some (undone, rest) := (UndoLog.revertTo_map _ sd.journal snapshotid).symm.trans found
  obtain ⟨⟨entries, journal⟩, isResult, same⟩ := map_eq_some_iff.mp mapped
  simp only [StateDB.undone, isResult, map_some, getD_some]
  exact (congrArg Prod.fst same).symm

variable (system : RollbackSystem Flat Entry (Option Address)) (settled : Flat → Prop)

private theorem logs_rollback
    (changes : ∀ {before entry after}, settled before → before.Logged entry after →
      system.change before entry after ∧ settled after)
    {before after : FlatDB} (ready : settled before.1) (logs : FlatDB.Logs before after) :
    system.Run before after ∧ settled after.1 := by
  induction logs with
  | refl => exact ⟨.refl, ready⟩
  | tail _ step ih =>
    obtain ⟨entry, flat, logged, rfl⟩ := step
    obtain ⟨changed, kept⟩ := changes ih.2 logged
    exact ⟨ih.1.tail (.change changed), kept⟩

theorem apply_rollback
    (changes : ∀ {before entry after}, settled before → before.Logged entry after →
      system.change before entry after ∧ settled after)
    (undoes : system.undo = Flat.undo) (heals : system.heals = JournalEntry.heals)
    (scars : ∀ codes entry, system.scar (Change.view codes entry) = scar entry)
    (ready : settled sd.flat)
    (applied : sd.apply op = .ok (answer, after)) (clean : op.isClean scar sd = true) :
    system.Run sd.abs after.abs := by
  have simulated : sd.abs.apply op = .ok (answer, after.abs) := by
    rw [← abs_apply, applied]
    rfl
  rcases FlatDB.apply_cases sd.grounded simulated with logs | ⟨-, isSnapshot⟩ |
    ⟨position, shot, undone, rest, rfl, present, found, reverted⟩
  · exact (logs_rollback system settled changes ready logs).1
  · rw [isSnapshot]
    exact .single .snapshot
  · have isShot : sd.journal.snapshotSet[position]? = some shot := present
    simp only [Op.isClean, isShot] at clean
    have cleanUndone : system.clean undone := by
      rw [revertTo_abs found, RollbackSystem.clean, healsScars_map, heals]
      simpa only [comp_def, scars, Change.view_heals] using clean
    have rewound : undone.foldl (fun flat entry => flat.undo entry) sd.abs.1 =
        system.rewind undone sd.abs.1 := by
      rw [RollbackSystem.rewind, undoes]
    rw [reverted, rewound]
    exact .single (.revert found cleanUndone)

theorem run_rollback (changes : ∀ {before entry after}, before.Logged entry after →
      system.change before entry after)
    (undoes : system.undo = Flat.undo) (heals : system.heals = JournalEntry.heals)
    (scars : ∀ codes entry, system.scar (Change.view codes entry) = scar entry)
    (ran : sd.run ops = .ok after)
    (clean : sd.runIsClean scar ops = true) : system.Run sd.abs after.abs := by
  induction ops generalizing sd with
  | nil =>
    cases ran
    exact .refl
  | cons op ops ih =>
    obtain ⟨answer, next, applied, rest⟩ := run_cons ran
    obtain ⟨cleanOp, cleanRest⟩ := runIsClean_cons clean applied
    have step := apply_rollback system (fun _ => True) (fun _ logged => ⟨changes logged, trivial⟩)
      undoes heals scars trivial applied cleanOp
    exact step.trans (ih rest cleanRest)

theorem runIsClean_of_no_scar
    (unscarred : ∀ entry, scar entry = none) (sd : StateDB) (ops : List Op) :
    sd.runIsClean scar ops = true := by
  induction ops generalizing sd with
  | nil => rfl
  | cons op ops ih =>
    have cleanOp : op.isClean scar sd = true := by
      cases op with
      | revert position =>
        simp only [Op.isClean]
        split
        · rfl
        · exact healsScars_of_no_scar unscarred _
      | _ => rfl
    simp only [runIsClean, cleanOp, Bool.true_and]
    split
    · rfl
    · exact ih _

end StateDB

end AnnchainOG
