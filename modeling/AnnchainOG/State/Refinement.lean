import AnnchainOG.State.Flat

/-!
# The state database refines the abstract state

`StateDB.abs` forgets the caches. Every operation acts on the abstract state as the operation of the
same name does, and panics exactly when that one does.
-/

namespace AnnchainOG

open GoMap Option StateObject

def StateObject.account (state : StateObject) (codes : CodeStore) : Account where
  balances := state.balances
  nonce := state.nonce
  codeHash := state.contract.codeHash
  code := (state.contract.getCode codes).getD []
  storage := state.storage.dirtyStorage.overlay state.storage.root
  committed := state.storage.root
  suicided := state.suicided

def Change.view (codes : CodeStore) : Change → Entry
  | .createObject account => .createObject account
  | .resetObject account prev => .resetObject account (prev.account codes)
  | .suicide account prev prevbalance => .suicide account prev prevbalance
  | .balance account tokenID prev => .balance account tokenID prev
  | .nonce account prev => .nonce account prev
  | .storage account key prevalue => .storage account key prevalue
  | .code account prev => .code account (prev.codeHash, (prev.getCode codes).getD [])
  | .refund prev => .refund prev
  | .createToken prevLatestTokenID tokenID => .createToken prevLatestTokenID tokenID
  | .reIssue tokenID => .reIssue tokenID
  | .destroy tokenID prevDestroyed => .destroy tokenID prevDestroyed

namespace StateDB

def lookup (sd : StateDB) (addr : Address) : Option StateObject :=
  (sd.states.get? addr).or (sd.loadStateObject addr)

def lookupToken (sd : StateDB) (tokenID : TokenId) : Option TokenObject :=
  (sd.tokens.get? tokenID).or (sd.loadTokenObject tokenID)

def flat (sd : StateDB) : Flat where
  codes := sd.codes
  trie := sd.trie
  accounts addr := (sd.lookup addr).map (·.account sd.codes)
  tokens := sd.lookupToken
  latestTokenID := sd.latestTokenID
  dirtyLatestTokenID := sd.dirtyLatestTokenID
  refund := sd.refund

def abs (sd : StateDB) : FlatDB :=
  (sd.flat, sd.journal.map (Change.view sd.codes))

end StateDB

/-! ## Objects -/

namespace StateObject

variable (codes : CodeStore)

@[simp] theorem new_account : new.account codes = Account.new := by
  simp [account, new, Contract.empty, Contract.getCode, Storage.empty, Account.new, emptyStateRoot]

@[simp] theorem decode_account (data : AccountData) :
    (decode data).account codes = Account.ofData codes data := by
  simp [account, decode, Contract.ofHash, Storage.ofRoot, Account.ofData]

variable (state : StateObject)

theorem account_state (key : Hash) :
    slot (state.account codes).storage key = state.storage.getState key := by
  simp only [slot, account, get?_overlay, Storage.getState, Storage.getCommittedState_eq]
  cases state.storage.dirtyStorage.get? key <;> rfl

theorem setState_account (key value : Hash) :
    (state.setState key value).account codes =
      { state.account codes with storage := (state.account codes).storage.set key value } := by
  simp only [account, setState, Storage.setState, Account.mk.injEq, true_and, and_true]
  apply GoMap.ext
  intro other
  simp only [get?_overlay, get?_set]
  split <;> rfl

theorem loadStorage_account (key : Hash) :
    ({ state with storage := state.storage.load key } : StateObject).account codes =
      state.account codes := by
  simp only [account, Storage.load]
  split <;> rfl

theorem loadCode_account :
    ({ state with contract := state.contract.load codes } : StateObject).account codes =
      state.account codes := by
  simp only [account, Contract.getCode_load]
  rfl

end StateObject

/-! ## The abstract view of each building block -/

namespace Flat

variable {flat : Flat}

theorem setAccount_self {addr : Address} {account : Option Account}
    (same : flat.accounts addr = account) : flat.setAccount addr account = flat := by
  subst same
  simp [setAccount]

theorem setToken_self {tokenID : TokenId} {token : Option TokenObject}
    (same : flat.tokens tokenID = token) : flat.setToken tokenID token = flat := by
  subst same
  simp [setToken]

end Flat

namespace StateDB

variable (sd : StateDB) (addr : Address)
variable {change : StateObject → StateObject} {changed : Account → Account}

theorem flat_putState (state : StateObject) :
    (sd.putState addr state).flat = sd.flat.setAccount addr (some (state.account sd.codes)) := by
  simp only [flat, putState, Flat.setAccount, Flat.mk.injEq, true_and, and_true]
  refine ⟨?_, rfl⟩
  funext other
  by_cases same : other = addr
  · subst same
    simp [lookup]
  · simp [lookup, loadStateObject, get?_set, same]

variable (entry : Change) (tokenID : TokenId) (token : TokenObject)

theorem flat_putToken :
    (sd.putToken tokenID token).flat = sd.flat.setToken tokenID (some token) := by
  simp only [flat, putToken, Flat.setToken, Flat.mk.injEq, true_and, and_true]
  refine ⟨rfl, ?_⟩
  funext other
  by_cases same : other = tokenID
  · subst same
    simp [lookupToken]
  · simp [lookupToken, loadTokenObject, get?_set, same]

theorem abs_putState (state : StateObject) :
    (sd.putState addr state).abs =
      (sd.abs.1.setAccount addr (some (state.account sd.codes)), sd.abs.2) :=
  Prod.ext (sd.flat_putState addr state) rfl

theorem abs_putToken :
    (sd.putToken tokenID token).abs = (sd.abs.1.setToken tokenID (some token), sd.abs.2) :=
  Prod.ext (sd.flat_putToken tokenID token) rfl

theorem abs_appendJournal :
    (sd.appendJournal entry).abs = sd.abs.write (Change.view sd.codes entry) sd.abs.1 :=
  rfl

theorem abs_accounts : sd.abs.1.accounts addr = (sd.lookup addr).map (·.account sd.codes) := rfl

theorem abs_tokens : sd.abs.1.tokens tokenID = sd.lookupToken tokenID := rfl

theorem getStateObject_spec :
    ∃ loaded, sd.getStateObject addr = (sd.lookup addr, loaded) ∧ loaded.abs = sd.abs ∧
      loaded.codes = sd.codes := by
  unfold getStateObject lookup
  cases inMemory : sd.states.get? addr with
  | some state => exact ⟨sd, rfl, rfl, rfl⟩
  | none =>
    cases loaded : sd.loadStateObject addr with
    | none => exact ⟨sd, rfl, rfl, rfl⟩
    | some state =>
      refine ⟨_, rfl, ?_, rfl⟩
      refine (sd.abs_putState addr state).trans (Prod.ext (Flat.setAccount_self ?_) rfl)
      simp [abs_accounts, lookup, inMemory, loaded]

theorem getTokenObject_spec :
    ∃ loaded, sd.getTokenObject tokenID = (sd.lookupToken tokenID, loaded) ∧
      loaded.abs = sd.abs ∧ loaded.codes = sd.codes := by
  unfold getTokenObject lookupToken
  cases inMemory : sd.tokens.get? tokenID with
  | some token => exact ⟨sd, rfl, rfl, rfl⟩
  | none =>
    cases loaded : sd.loadTokenObject tokenID with
    | none => exact ⟨sd, rfl, rfl, rfl⟩
    | some token =>
      refine ⟨_, rfl, ?_, rfl⟩
      refine (sd.abs_putToken tokenID token).trans (Prod.ext (Flat.setToken_self ?_) rfl)
      simp [abs_tokens, lookupToken, inMemory, loaded]

theorem abs_write (state : StateObject) :
    ((sd.appendJournal entry).putState addr state).abs = sd.abs.write (Change.view sd.codes entry)
        (sd.abs.1.setAccount addr (some (state.account sd.codes))) := by
  rw [abs_putState, abs_appendJournal]
  rfl

theorem abs_writeToken :
    ((sd.appendJournal entry).putToken tokenID token).abs =
      sd.abs.write (Change.view sd.codes entry) (sd.abs.1.setToken tokenID (some token)) := by
  rw [abs_putToken, abs_appendJournal]
  rfl

theorem abs_createAccount : (sd.createAccount addr).abs = sd.abs.createAccount addr := by
  obtain ⟨loaded, found, sameAbs, sameCodes⟩ := sd.getStateObject_spec addr
  simp only [createAccount, found, FlatDB.createAccount, abs_accounts]
  cases sd.lookup addr with
  | none => simp only [map_none, abs_write, sameAbs, new_account, Change.view]
  | some state => simp only [map_some, abs_write, sameAbs, sameCodes, new_account, Change.view]

theorem codes_createAccount : (sd.createAccount addr).codes = sd.codes := by
  obtain ⟨loaded, found, -, sameCodes⟩ := sd.getStateObject_spec addr
  simp only [createAccount, found]
  cases sd.lookup addr <;> exact sameCodes

theorem getOrCreateStateObject_spec :
    ∃ state loaded, sd.getOrCreateStateObject addr = (state, loaded) ∧
      sd.abs.ensure addr = (state.account sd.codes, loaded.abs) ∧ loaded.codes = sd.codes := by
  obtain ⟨loaded, found, sameAbs, sameCodes⟩ := sd.getStateObject_spec addr
  simp only [getOrCreateStateObject, found, FlatDB.ensure, abs_accounts]
  cases sd.lookup addr with
  | some state => exact ⟨state, loaded, rfl, by simp [sameAbs], sameCodes⟩
  | none =>
    refine ⟨.new, loaded.createAccount addr, rfl, ?_, ?_⟩
    · simp only [map_none, new_account, abs_createAccount, sameAbs]
    · rw [codes_createAccount, sameCodes]

variable {addr} in
theorem abs_mutate {entry : StateObject → Change} {logged : Account → Entry}
    (sameEntry : ∀ state, Change.view sd.codes (entry state) = logged (state.account sd.codes))
    (sameChange : ∀ state, (change state).account sd.codes = changed (state.account sd.codes)) :
    (sd.mutate addr entry change).abs = sd.abs.mutate addr logged changed := by
  obtain ⟨state, loaded, found, ensured, sameCodes⟩ := sd.getOrCreateStateObject_spec addr
  simp only [mutate, FlatDB.mutate, found, ensured, abs_write, sameCodes, sameEntry, sameChange]

theorem abs_setBalance (balance : Int) :
    (sd.setBalance addr tokenID balance).abs = sd.abs.setBalance addr tokenID balance :=
  sd.abs_mutate (fun _ => rfl) (fun _ => rfl)

theorem abs_setNonce (nonce : UInt64) : (sd.setNonce addr nonce).abs = sd.abs.setNonce addr nonce :=
  sd.abs_mutate (fun _ => rfl) (fun _ => rfl)

theorem abs_setCode (code : Bytes) : (sd.setCode addr code).abs = sd.abs.setCode addr code :=
  sd.abs_mutate (fun _ => rfl) (fun _ => rfl)

theorem abs_setState (key value : Hash) :
    (sd.setState addr key value).abs = sd.abs.setState addr key value := by
  refine sd.abs_mutate ?_ ?_
  · intro state
    rw [Change.view, account_state]
  · intro state
    rw [setState_account, loadStorage_account]

theorem abs_addBalance (increment : Int) :
    (sd.addBalance addr tokenID increment).abs = sd.abs.addBalance addr tokenID increment := by
  obtain ⟨state, loaded, found, ensured, sameCodes⟩ := sd.getOrCreateStateObject_spec addr
  simp only [addBalance, FlatDB.addBalance, found, ensured]
  split
  · rfl
  · exact loaded.abs_setBalance addr tokenID _

theorem abs_subBalance (decrement : Int) :
    (sd.subBalance addr tokenID decrement).abs = sd.abs.subBalance addr tokenID decrement := by
  obtain ⟨state, loaded, found, ensured, sameCodes⟩ := sd.getOrCreateStateObject_spec addr
  simp only [subBalance, FlatDB.subBalance, found, ensured]
  split
  · rfl
  · exact loaded.abs_setBalance addr tokenID _

theorem abs_suicide : ((sd.suicide addr).1, (sd.suicide addr).2.abs) = sd.abs.suicide addr := by
  obtain ⟨loaded, found, sameAbs, sameCodes⟩ := sd.getStateObject_spec addr
  simp only [suicide, found, FlatDB.suicide, abs_accounts]
  cases sd.lookup addr with
  | none => simp only [map_none, sameAbs]
  | some state =>
    simp only [map_some, abs_write, sameAbs, sameCodes]
    rfl

private theorem abs_setLatest :
    ({ sd with latestTokenID := tokenID, dirtyLatestTokenID := true } : StateDB).abs =
      ({ sd.abs.1 with latestTokenID := tokenID, dirtyLatestTokenID := true }, sd.abs.2) := rfl

theorem abs_issueToken (issuer : Address) (name symbol : Bytes) (reIssuable : Bool)
    (fstIssue : Int) :
    ((sd.issueToken issuer name symbol reIssuable fstIssue).1,
      (sd.issueToken issuer name symbol reIssuable fstIssue).2.abs) =
      sd.abs.issueToken issuer name symbol reIssuable fstIssue := by
  have sameLatest : sd.abs.1.latestTokenID = sd.latestTokenID := rfl
  obtain ⟨loaded, found, sameAbs, -⟩ := sd.getTokenObject_spec (sd.latestTokenID + 1)
  have loadedLatest : loaded.latestTokenID = sd.latestTokenID :=
    congrArg (fun db : FlatDB => db.1.latestTokenID) sameAbs
  simp only [issueToken, found, FlatDB.issueToken, abs_tokens, sameLatest]
  cases sd.lookupToken (sd.latestTokenID + 1) with
  | some token => simp only [sameAbs]
  | none =>
    simp only [abs_setBalance, loadedLatest, abs_setLatest, abs_writeToken, sameAbs]
    rfl

theorem abs_reIssueToken (amount : Int) :
    (sd.reIssueToken tokenID amount).map (fun result => (result.1, result.2.abs)) =
      sd.abs.reIssueToken tokenID amount := by
  obtain ⟨loaded, found, sameAbs, -⟩ := sd.getTokenObject_spec tokenID
  simp only [reIssueToken, found, FlatDB.reIssueToken, abs_tokens]
  cases sd.lookupToken tokenID with
  | none => simp only [Except.map, sameAbs]
  | some token =>
    cases destroyed : token.data.destroyed with
    | true => simp [destroyed, Except.map, sameAbs]
    | false =>
      cases fixed : token.data.reIssuable with
      | false => simp [destroyed, fixed, Except.map, sameAbs]
      | true =>
        cases attached : token.db with
        | false => simp [destroyed, fixed, attached, Except.map]
        | true =>
          simp only [destroyed, fixed, attached, Bool.not_true, Bool.false_eq_true,
            if_false, Except.map, abs_addBalance, abs_writeToken, sameAbs]
          rfl

theorem abs_destroyToken :
    (sd.destroyToken tokenID).map (fun result => (result.1, result.2.abs)) =
      sd.abs.destroyToken tokenID := by
  obtain ⟨loaded, found, sameAbs, -⟩ := sd.getTokenObject_spec tokenID
  simp only [destroyToken, found, FlatDB.destroyToken, abs_tokens]
  cases sd.lookupToken tokenID with
  | none => simp only [Except.map, sameAbs]
  | some token =>
    cases attached : token.db with
    | false => simp [attached, Except.map]
    | true =>
      simp only [attached, Bool.not_true, Bool.false_eq_true, if_false, Except.map,
        abs_writeToken, sameAbs]
      rfl

/-! ## Undoing -/

variable {addr} in
theorem flat_alter
    (sameChange : ∀ state, (change state).account sd.codes = changed (state.account sd.codes)) :
    (sd.alter addr change).flat = sd.flat.alter addr changed := by
  obtain ⟨loaded, found, sameAbs, sameCodes⟩ := sd.getStateObject_spec addr
  have sameFlat : loaded.flat = sd.flat := congrArg Prod.fst sameAbs
  have accounts : sd.flat.accounts addr = (sd.lookup addr).map (·.account sd.codes) := rfl
  simp only [alter, found, Flat.alter, accounts]
  cases isState : sd.lookup addr with
  | none => exact sameFlat.trans (Flat.setAccount_self (by simp [accounts, isState])).symm
  | some state => simp only [flat_putState, sameFlat, sameCodes, sameChange, map_some]

theorem abs_alter_of_same
    (same : ∀ state, (change state).account sd.codes = state.account sd.codes) :
    (sd.alter addr change).abs = sd.abs := by
  obtain ⟨loaded, found, sameAbs, sameCodes⟩ := sd.getStateObject_spec addr
  simp only [alter, found]
  cases isState : sd.lookup addr with
  | none => exact sameAbs
  | some state =>
    rw [abs_putState, sameAbs, sameCodes, same]
    exact Prod.ext (Flat.setAccount_self (by simp [abs_accounts, isState])) rfl

theorem flat_alterToken (change : TokenObject → TokenObject) :
    (sd.alterToken tokenID change).flat = sd.flat.alterToken tokenID change := by
  obtain ⟨loaded, found, sameAbs, -⟩ := sd.getTokenObject_spec tokenID
  have sameFlat : loaded.flat = sd.flat := congrArg Prod.fst sameAbs
  have tokens : sd.flat.tokens tokenID = sd.lookupToken tokenID := rfl
  simp only [alterToken, found, Flat.alterToken, tokens]
  cases isToken : sd.lookupToken tokenID with
  | none => exact sameFlat.trans (Flat.setToken_self (by simp [tokens, isToken])).symm
  | some token => simp only [flat_putToken, sameFlat, map_some]

private theorem flat_revertSuicide (prev : Bool) (prevbalance : BalanceSet) :
    (sd.revertSuicide addr prev prevbalance).flat = sd.flat.alter addr fun account =>
      { account with suicided := prev, balances := prevbalance.overlay account.balances } := by
  rw [← sd.flat_alter (fun _ => rfl : ∀ state : StateObject,
    ({ state with suicided := prev, balances := prevbalance.overlay state.balances } :
      StateObject).account sd.codes = _)]
  unfold revertSuicide alter
  cases sd.getStateObject addr with
  | mk answer loaded => cases answer <;> rfl

private theorem flat_deleteState :
    ({ sd with states := sd.states.delete addr, dirtyset := sd.dirtyset.erase addr } :
      StateDB).flat = sd.flat.setAccount addr (sd.flat.baseAccount addr) := by
  simp only [flat, Flat.setAccount, Flat.mk.injEq, true_and, and_true]
  refine ⟨?_, rfl⟩
  funext other
  by_cases same : other = addr
  · subst same
    simp [lookup, loadStateObject, get?_delete, Flat.baseAccount, Function.comp_def]
  · simp [lookup, loadStateObject, get?_delete, same]

private theorem flat_deleteToken (prevLatestTokenID tokenID : TokenId) :
    ({ sd with
        latestTokenID := prevLatestTokenID, tokens := sd.tokens.delete tokenID
        dirtyTokens := sd.dirtyTokens.erase tokenID } : StateDB).flat =
      { sd.flat.setToken tokenID (sd.flat.baseToken tokenID) with
        latestTokenID := prevLatestTokenID } := by
  simp only [flat, Flat.setToken, Flat.mk.injEq, true_and, and_true]
  refine ⟨rfl, ?_⟩
  funext other
  by_cases same : other = tokenID
  · subst same
    simp [lookupToken, loadTokenObject, get?_delete, Flat.baseToken]
  · simp [lookupToken, loadTokenObject, get?_delete, same]

theorem flat_undoEntry : (sd.undoEntry entry).flat = sd.flat.undo (Change.view sd.codes entry) := by
  have counted : (sd.undoEntry entry).flat = (sd.revertEntry entry).flat := rfl
  cases entry with
  | createObject addr => exact sd.flat_deleteState addr
  | resetObject addr prev => exact sd.flat_putState addr prev
  | suicide addr prev prevbalance => exact sd.flat_revertSuicide addr prev prevbalance
  | balance addr tokenID prev => exact sd.flat_alter fun _ => rfl
  | nonce addr prev | code addr prev => exact sd.flat_alter fun _ => rfl
  | storage addr key prevalue =>
    exact sd.flat_alter fun state => state.setState_account sd.codes key prevalue
  | refund prev => rfl
  | createToken prevLatestTokenID tokenID => exact sd.flat_deleteToken prevLatestTokenID tokenID
  | reIssue tokenID => exact sd.flat_alterToken tokenID _
  | destroy tokenID prevDestroyed => exact sd.flat_alterToken tokenID _

theorem codes_undoEntry : (sd.undoEntry entry).codes = sd.codes := by
  have undone : (sd.undoEntry entry).codes = (sd.flat.undo (Change.view sd.codes entry)).codes :=
    congrArg Flat.codes (sd.flat_undoEntry entry)
  rw [undone]
  cases entry <;> rfl

theorem codes_undoEntries (entries : List Change) :
    (entries.foldl undoEntry sd).codes = sd.codes := by
  induction entries generalizing sd with
  | nil => rfl
  | cons entry entries ih => rw [List.foldl_cons, ih, codes_undoEntry]

theorem flat_undoEntries (entries : List Change) :
    (entries.foldl undoEntry sd).flat =
      (entries.map (Change.view sd.codes)).foldl (fun flat entry => flat.undo entry) sd.flat := by
  induction entries generalizing sd with
  | nil => rfl
  | cons entry entries ih =>
    simp only [List.foldl_cons, List.map_cons, ih, flat_undoEntry, codes_undoEntry]

theorem abs_revertToSnapshot (snapshotid : Nat) :
    (sd.revertToSnapshot snapshotid).map abs = sd.abs.revertToSnapshot snapshotid := by
  simp only [revertToSnapshot, FlatDB.revertToSnapshot, abs, UndoLog.revertTo_map]
  cases sd.journal.revertTo snapshotid with
  | none => rfl
  | some found =>
    obtain ⟨undone, journal⟩ := found
    refine congrArg Except.ok (Prod.ext (sd.flat_undoEntries undone) ?_)
    exact congrArg (fun codes => journal.map (Change.view codes)) (sd.codes_undoEntries undone)

theorem abs_apply (op : Op) :
    (sd.apply op).map (fun result => (result.1, result.2.abs)) = sd.abs.apply op := by
  cases op with
  | createAccount | setBalance | addBalance | subBalance | setNonce | setCode | setState =>
    simp [apply, FlatDB.apply, Except.map, abs_createAccount, abs_setBalance, abs_addBalance,
      abs_subBalance, abs_setNonce, abs_setCode, abs_setState]
  | suicide addr => simp [apply, FlatDB.apply, Except.map, ← abs_suicide]
  | addRefund increment => rfl
  | subRefund decrement =>
    have sameRefund : sd.abs.1.refund = sd.refund := rfl
    simp only [apply, FlatDB.apply, subRefund, sameRefund]
    split <;> rfl
  | issueToken issuer name symbol reIssuable fstIssue =>
    simp [apply, FlatDB.apply, Except.map, ← abs_issueToken]
  | reIssueToken tokenID amount =>
    simp only [apply, FlatDB.apply, ← abs_reIssueToken]
    cases sd.reIssueToken tokenID amount <;> rfl
  | destroyToken tokenID =>
    simp only [apply, FlatDB.apply, ← abs_destroyToken]
    cases sd.destroyToken tokenID <;> rfl
  | snapshot =>
    refine congrArg Except.ok (Prod.ext rfl (Prod.ext rfl ?_))
    exact UndoLog.map_snapshot _ _
  | revert position =>
    have sameShots : sd.abs.2.snapshotSet = sd.journal.snapshotSet := rfl
    simp only [apply, FlatDB.apply, sameShots]
    cases sd.journal.snapshotSet[position]? with
    | none => rfl
    | some shot =>
      simp only [← abs_revertToSnapshot]
      cases sd.revertToSnapshot shot.shotid <;> rfl
  | touch addr =>
    obtain ⟨loaded, found, sameAbs, -⟩ := sd.getStateObject_spec addr
    simp [apply, FlatDB.apply, Except.map, found, sameAbs]
  | touchCode addr =>
    have same := sd.abs_alter_of_same addr fun state => state.loadCode_account sd.codes
    simp [apply, FlatDB.apply, Except.map, same]
  | touchState addr key =>
    have same := sd.abs_alter_of_same addr fun state =>
      state.loadStorage_account sd.codes key
    simp [apply, FlatDB.apply, Except.map, same]
  | touchToken tokenID =>
    obtain ⟨loaded, found, sameAbs, -⟩ := sd.getTokenObject_spec tokenID
    simp [apply, FlatDB.apply, Except.map, found, sameAbs]

/-! ## Reads -/

variable {addr} in
theorem read_eq {β : Type} {absent : β} {answer : StateObject → β}
    {view : Account → β} (same : ∀ state, answer state = view (state.account sd.codes)) :
    sd.read addr absent answer = ((sd.flat.accounts addr).map view).getD absent := by
  obtain ⟨loaded, found, -, -⟩ := sd.getStateObject_spec addr
  simp only [read, found, flat]
  cases sd.lookup addr with
  | none => rfl
  | some state => exact same state

theorem getBalance_eq :
    sd.getBalance addr tokenID = ((sd.flat.accounts addr).map (·.balances.amount tokenID)).getD 0 :=
  sd.read_eq fun _ => rfl

theorem getAllBalance_eq :
    sd.getAllBalance addr = ((sd.flat.accounts addr).map Account.balances).getD ∅ :=
  sd.read_eq fun _ => rfl

theorem getNonce_eq : sd.getNonce addr = ((sd.flat.accounts addr).map Account.nonce).getD 0 :=
  sd.read_eq fun _ => rfl

theorem exist_eq : sd.exist addr = ((sd.flat.accounts addr).map fun _ => true).getD false :=
  sd.read_eq fun _ => rfl

theorem getCodeHash_eq :
    sd.getCodeHash addr = ((sd.flat.accounts addr).map Account.codeHash).getD .zero :=
  sd.read_eq fun _ => rfl

theorem getCode_eq : sd.getCode addr = ((sd.flat.accounts addr).map Account.code).getD [] :=
  sd.read_eq fun _ => rfl

private theorem contract_getCodeSize (contract : Contract) (codes : CodeStore) :
    contract.getCodeSize codes = ((contract.getCode codes).getD []).length := by
  unfold Contract.getCodeSize Contract.getCode
  cases contract.code with
  | some code => rfl
  | none =>
    by_cases isEmpty : contract.codeHash = emptyCodeHash
    · simp only [isEmpty, emptyCodeHash, CodeStore.contractCode, if_true]
      split <;> rfl
    · simp [isEmpty]

theorem getCodeSize_eq :
    sd.getCodeSize addr = ((sd.flat.accounts addr).map (·.code.length)).getD 0 :=
  sd.read_eq fun state => contract_getCodeSize state.contract sd.codes

theorem getState_eq (key : Hash) :
    sd.getState addr key = ((sd.flat.accounts addr).map fun account => slot account.storage key).getD 0 :=
  sd.read_eq fun state => (state.account_state sd.codes key).symm

theorem getCommittedState_eq (key : Hash) :
    sd.getCommittedState addr key =
      ((sd.flat.accounts addr).map fun account => slot account.committed key).getD 0 :=
  sd.read_eq fun state => state.storage.getCommittedState_eq key

theorem hasSuicided_eq :
    sd.hasSuicided addr = ((sd.flat.accounts addr).map Account.suicided).getD false :=
  sd.read_eq fun _ => rfl

theorem getToken_eq : sd.getToken tokenID = (sd.flat.tokens tokenID).map TokenObject.data := by
  obtain ⟨loaded, found, -, -⟩ := sd.getTokenObject_spec tokenID
  simp only [getToken, found, flat]

end StateDB

end AnnchainOG
