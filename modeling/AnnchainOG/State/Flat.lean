import AnnchainOG.State.StateDB

/-!
# The abstract state

Accounts and tokens as functions of their keys, with no caches and nothing loaded lazily.
`storage` is the content the next commit would write for an account and `committed` that of the
last.
-/

namespace AnnchainOG

def slot (storage : GoMap Hash Hash) (key : Hash) : Hash :=
  (storage.get? key).getD 0

theorem slot_set (storage : GoMap Hash Hash) (key value : Hash) :
    slot (storage.set key value) = Function.update (slot storage) key value := by
  funext other
  by_cases same : other = key
  · subst same
    simp [slot]
  · simp [slot, GoMap.get?_set, same]

structure Account where
  balances : BalanceSet
  nonce : UInt64
  codeHash : CodeHash
  code : Bytes
  storage : GoMap Hash Hash
  committed : GoMap Hash Hash
  suicided : Bool

namespace Account

def new : Account where
  balances := ∅
  nonce := 0
  codeHash := emptyCodeHash
  code := []
  storage := ∅
  committed := ∅
  suicided := false

def ofData (codes : CodeStore) (data : AccountData) : Account where
  balances := data.balances.filterMap fun _ balance => some (some balance)
  nonce := data.nonce
  codeHash := data.codeHash
  code := ((Contract.ofHash data.codeHash).getCode codes).getD []
  storage := data.root
  committed := data.root
  suicided := false

end Account

abbrev Entry := JournalEntry Account (CodeHash × Bytes)

structure Flat where
  codes : CodeStore
  trie : StateTrie
  accounts : Address → Option Account
  tokens : TokenId → Option TokenObject
  latestTokenID : TokenId
  dirtyLatestTokenID : Bool
  refund : UInt64

variable (flat : Flat) (tokenID : TokenId)

namespace Flat

def baseAccount (addr : Address) : Option Account :=
  (flat.trie.accounts.get? addr).map (Account.ofData flat.codes)

def baseToken : Option TokenObject :=
  (flat.trie.tokens.get? tokenID).map TokenObject.decode

def setAccount (addr : Address) (account : Option Account) : Flat :=
  { flat with accounts := Function.update flat.accounts addr account }

def alter (addr : Address) (change : Account → Account) : Flat :=
  flat.setAccount addr ((flat.accounts addr).map change)

def setToken (token : Option TokenObject) : Flat :=
  { flat with tokens := Function.update flat.tokens tokenID token }

def alterToken (change : TokenObject → TokenObject) : Flat :=
  flat.setToken tokenID ((flat.tokens tokenID).map change)

/-- What taking an entry back does. A created object gives way to what the trie holds. -/
def undo : Entry → Flat → Flat
  | .createObject addr, flat => flat.setAccount addr (flat.baseAccount addr)
  | .resetObject addr prev, flat => flat.setAccount addr (some prev)
  | .suicide addr prev prevbalance, flat => flat.alter addr fun account =>
    { account with suicided := prev, balances := prevbalance.overlay account.balances }
  | .balance addr tokenID prev, flat => flat.alter addr fun account =>
    { account with balances := account.balances.set tokenID prev }
  | .nonce addr prev, flat => flat.alter addr fun account => { account with nonce := prev }
  | .storage addr key prevalue, flat => flat.alter addr fun account =>
    { account with storage := account.storage.set key prevalue }
  | .code addr prev, flat => flat.alter addr fun account =>
    { account with codeHash := prev.1, code := prev.2 }
  | .refund prev, flat => { flat with refund := prev }
  | .createToken prevLatestTokenID tokenID, flat =>
    { flat.setToken tokenID (flat.baseToken tokenID) with latestTokenID := prevLatestTokenID }
  | .reIssue tokenID, flat => flat.alterToken tokenID TokenObject.dropIssue
  | .destroy tokenID prevDestroyed, flat => flat.alterToken tokenID fun token =>
    token.setDestroyed prevDestroyed

/-- Every change the database makes, with the entry it logs for it. -/
inductive Logged : Flat → Entry → Flat → Prop where
  | createObject {flat : Flat} {addr : Address} (absent : flat.accounts addr = none)
      (unsaved : flat.baseAccount addr = none) :
      Logged flat (.createObject addr) (flat.setAccount addr (some .new))
  | resetObject {flat : Flat} {addr : Address} {account : Account}
      (present : flat.accounts addr = some account) :
      Logged flat (.resetObject addr account) (flat.setAccount addr (some .new))
  | suicide {flat : Flat} {addr : Address} {account : Account}
      (present : flat.accounts addr = some account) :
      Logged flat (.suicide addr account.suicided account.balances)
        (flat.setAccount addr (some { account with suicided := true, balances := ∅ }))
  | balance {flat : Flat} {addr : Address} {account : Account} {tokenID : TokenId} {value : Int}
      (present : flat.accounts addr = some account) :
      Logged flat (.balance addr tokenID (account.balances.entry tokenID))
        (flat.setAccount addr
          (some { account with balances := account.balances.set tokenID (some value) }))
  | nonce {flat : Flat} {addr : Address} {account : Account} {nonce : UInt64}
      (present : flat.accounts addr = some account) :
      Logged flat (.nonce addr account.nonce)
        (flat.setAccount addr (some { account with nonce := nonce }))
  | storage {flat : Flat} {addr : Address} {account : Account} {key value : Hash}
      (present : flat.accounts addr = some account) :
      Logged flat (.storage addr key (slot account.storage key))
        (flat.setAccount addr (some { account with storage := account.storage.set key value }))
  | code {flat : Flat} {addr : Address} {account : Account} {code : Bytes}
      (present : flat.accounts addr = some account) :
      Logged flat (.code addr (account.codeHash, account.code))
        (flat.setAccount addr (some { account with codeHash := .keccak code, code := code }))
  | refund {flat : Flat} {refund : UInt64} :
      Logged flat (.refund flat.refund) { flat with refund := refund }
  | createToken {flat : Flat} {tokenID : TokenId} {token : TokenObject}
      (absent : flat.tokens tokenID = none) (unsaved : flat.baseToken tokenID = none) :
      Logged flat (.createToken flat.latestTokenID tokenID)
        { flat.setToken tokenID (some token) with
          latestTokenID := tokenID, dirtyLatestTokenID := true }
  | reIssue {flat : Flat} {tokenID : TokenId} {token : TokenObject} {amount : Int}
      (present : flat.tokens tokenID = some token) :
      Logged flat (.reIssue tokenID) (flat.setToken tokenID (some (token.addIssue amount)))
  | destroy {flat : Flat} {tokenID : TokenId} {token : TokenObject}
      (present : flat.tokens tokenID = some token) :
      Logged flat (.destroy tokenID token.data.destroyed)
        (flat.setToken tokenID (some (token.setDestroyed true)))

end Flat

abbrev FlatDB := Flat × UndoLog Entry

variable (db : FlatDB)

namespace FlatDB

def write (entry : Entry) (flat : Flat) : FlatDB :=
  (flat, db.2.push entry)

def createAccount (addr : Address) : FlatDB :=
  match db.1.accounts addr with
  | some account => db.write (.resetObject addr account) (db.1.setAccount addr (some .new))
  | none => db.write (.createObject addr) (db.1.setAccount addr (some .new))

def ensure (addr : Address) : Account × FlatDB :=
  match db.1.accounts addr with
  | some account => (account, db)
  | none => (.new, db.createAccount addr)

def mutate (addr : Address) (entry : Account → Entry) (change : Account → Account) : FlatDB :=
  let (account, db) := db.ensure addr
  db.write (entry account) (db.1.setAccount addr (some (change account)))

def setBalance (addr : Address) (tokenID : TokenId) (balance : Int) : FlatDB :=
  db.mutate addr (fun account => .balance addr tokenID (account.balances.entry tokenID))
    (fun account => { account with balances := account.balances.set tokenID (some balance) })

def addBalance (addr : Address) (tokenID : TokenId) (increment : Int) : FlatDB :=
  if increment = 0 then db
  else
    let (account, db) := db.ensure addr
    db.setBalance addr tokenID (account.balances.preAdd tokenID increment)

def subBalance (addr : Address) (tokenID : TokenId) (decrement : Int) : FlatDB :=
  if decrement = 0 then db
  else
    let (account, db) := db.ensure addr
    db.setBalance addr tokenID (account.balances.preSub tokenID decrement)

def setNonce (addr : Address) (nonce : UInt64) : FlatDB :=
  db.mutate addr (fun account => .nonce addr account.nonce)
    (fun account => { account with nonce := nonce })

def setCode (addr : Address) (code : Bytes) : FlatDB :=
  db.mutate addr (fun account => .code addr (account.codeHash, account.code))
    (fun account => { account with codeHash := .keccak code, code := code })

def setState (addr : Address) (key value : Hash) : FlatDB :=
  db.mutate addr (fun account => .storage addr key (slot account.storage key))
    (fun account => { account with storage := account.storage.set key value })

def setRefund (refund : UInt64) : FlatDB :=
  db.write (.refund db.1.refund) { db.1 with refund := refund }

def suicide (addr : Address) : Bool × FlatDB :=
  match db.1.accounts addr with
  | none => (false, db)
  | some account =>
    (true, db.write (.suicide addr account.suicided account.balances)
      (db.1.setAccount addr (some { account with suicided := true, balances := ∅ })))

def issueToken (issuer : Address) (name symbol : Bytes) (reIssuable : Bool)
    (fstIssue : Int) : Except TokenError TokenId × FlatDB :=
  let tokenID := db.1.latestTokenID + 1
  match db.1.tokens tokenID with
  | some _ => (.error (.alreadyExists tokenID), db)
  | none =>
    let db := db.write (.createToken db.1.latestTokenID tokenID)
      { db.1.setToken tokenID (some (.new issuer name symbol reIssuable fstIssue)) with
        latestTokenID := tokenID, dirtyLatestTokenID := true }
    (.ok tokenID, db.setBalance issuer tokenID fstIssue)

def reIssueToken (tokenID : TokenId) (amount : Int) :
    Except Panic (Except TokenError Unit × FlatDB) :=
  match db.1.tokens tokenID with
  | none => .ok (.error .notExists, db)
  | some token =>
    if token.data.destroyed then .ok (.error .destroyed, db)
    else if !token.data.reIssuable then .ok (.error .notReIssuable, db)
    else if !token.db then .error .nilPointer
    else
      let db := db.write (.reIssue tokenID)
        (db.1.setToken tokenID (some (token.addIssue amount)))
      .ok (.ok (), db.addBalance token.data.issuer tokenID amount)

def destroyToken (tokenID : TokenId) : Except Panic (Except TokenError Unit × FlatDB) :=
  match db.1.tokens tokenID with
  | none => .ok (.error .notExists, db)
  | some token =>
    if !token.db then .error .nilPointer
    else .ok (.ok (), db.write (.destroy tokenID token.data.destroyed)
      (db.1.setToken tokenID (some (token.setDestroyed true))))

def revertToSnapshot (snapshotid : Nat) : Except Panic FlatDB :=
  match db.2.revertTo snapshotid with
  | none => .error .snapshotNotFound
  | some (undone, log) => .ok (undone.foldl (fun flat entry => flat.undo entry) db.1, log)

def apply : Op → Except Panic (Answer × FlatDB)
  | .createAccount addr => .ok (.done, db.createAccount addr)
  | .setBalance addr tokenID balance => .ok (.done, db.setBalance addr tokenID balance)
  | .addBalance addr tokenID increment => .ok (.done, db.addBalance addr tokenID increment)
  | .subBalance addr tokenID decrement => .ok (.done, db.subBalance addr tokenID decrement)
  | .setNonce addr nonce => .ok (.done, db.setNonce addr nonce)
  | .setCode addr code => .ok (.done, db.setCode addr code)
  | .setState addr key value => .ok (.done, db.setState addr key value)
  | .suicide addr => .ok (.existed (db.suicide addr).1, (db.suicide addr).2)
  | .addRefund increment => .ok (.done, db.setRefund (db.1.refund + increment))
  | .subRefund decrement =>
    if decrement > db.1.refund then .error .refundBelowZero
    else .ok (.done, db.setRefund (db.1.refund - decrement))
  | .issueToken issuer name symbol reIssuable fstIssue =>
    let (answer, db) := db.issueToken issuer name symbol reIssuable fstIssue
    .ok (.issued answer, db)
  | .reIssueToken tokenID amount =>
    (db.reIssueToken tokenID amount).map fun result => (.outcome result.1, result.2)
  | .destroyToken tokenID =>
    (db.destroyToken tokenID).map fun result => (.outcome result.1, result.2)
  | .snapshot => .ok (.shot db.2.snapshotID, (db.1, db.2.snapshot))
  | .revert position =>
    match db.2.snapshotSet[position]? with
    | none => .error .snapshotNotFound
    | some shot => (db.revertToSnapshot shot.shotid).map fun db => (.done, db)
  | .touch _ | .touchCode _ | .touchState _ _ | .touchToken _ => .ok (.done, db)

end FlatDB

/-! ## What one operation can do -/

namespace Flat

variable {flat : Flat}

/-- What is absent is absent from the trie as well. -/
structure Grounded (flat : Flat) : Prop where
  accounts : ∀ addr, flat.accounts addr = none → flat.baseAccount addr = none
  tokens : ∀ tokenID, flat.tokens tokenID = none → flat.baseToken tokenID = none

theorem Grounded.setAccount (grounded : flat.Grounded) (addr : Address)
    (account : Account) : (flat.setAccount addr (some account)).Grounded where
  accounts other absent := by
    by_cases same : other = addr
    · simp [Flat.setAccount, same] at absent
    · exact grounded.accounts other (by simpa [Flat.setAccount, same] using absent)
  tokens := grounded.tokens

theorem Grounded.setToken (grounded : flat.Grounded) (tokenID : TokenId)
    (token : TokenObject) : (flat.setToken tokenID (some token)).Grounded where
  accounts := grounded.accounts
  tokens other absent := by
    by_cases same : other = tokenID
    · simp [Flat.setToken, same] at absent
    · exact grounded.tokens other (by simpa [Flat.setToken, same] using absent)

theorem Logged.grounded {before after : Flat} {entry : Entry} (logged : Logged before entry after)
    (grounded : before.Grounded) : after.Grounded := by
  cases logged with
  | createObject | resetObject | suicide | balance | nonce | storage | code =>
    exact grounded.setAccount _ _
  | refund => exact ⟨grounded.accounts, grounded.tokens⟩
  | @createToken tokenID token =>
    have written := grounded.setToken tokenID token
    exact ⟨written.accounts, written.tokens⟩
  | reIssue | destroy => exact grounded.setToken _ _

end Flat

namespace FlatDB

variable {after : FlatDB}

def Logs : FlatDB → FlatDB → Prop :=
  Relation.ReflTransGen fun before after =>
    ∃ entry flat, before.1.Logged entry flat ∧ after = before.write entry flat

theorem Logs.one {db : FlatDB} {entry : Entry} {flat : Flat} (logged : db.1.Logged entry flat) :
    Logs db (db.write entry flat) :=
  .single ⟨entry, flat, logged, rfl⟩

theorem Logs.grounded {before : FlatDB} (logs : Logs before after)
    (grounded : before.1.Grounded) : after.1.Grounded := by
  induction logs with
  | refl => exact grounded
  | tail _ step ih =>
    obtain ⟨entry, flat, logged, rfl⟩ := step
    exact logged.grounded ih

variable {db : FlatDB}

section

variable (grounded : db.1.Grounded) (addr : Address)
include grounded addr

theorem createAccount_logs : Logs db (db.createAccount addr) := by
  unfold createAccount
  cases found : db.1.accounts addr with
  | some account => exact .one (.resetObject found)
  | none => exact .one (.createObject found (grounded.accounts addr found))

theorem ensure_logs :
    Logs db (db.ensure addr).2 ∧ (db.ensure addr).2.1.accounts addr = some (db.ensure addr).1 := by
  unfold ensure
  cases found : db.1.accounts addr with
  | some account => exact ⟨.refl, found⟩
  | none =>
    refine ⟨createAccount_logs grounded addr, ?_⟩
    simp [createAccount, found, write, Flat.setAccount]

theorem mutate_logs {entry : Account → Entry} {change : Account → Account} (logged : ∀ {flat :
    Flat} {account : Account}, flat.accounts addr = some account → flat.Logged (entry account)
    (flat.setAccount addr (some (change account)))) : Logs db (db.mutate addr entry change) := by
  obtain ⟨logs, present⟩ := ensure_logs grounded addr
  exact logs.trans (Logs.one (logged present))

variable (tokenID : TokenId)

theorem setBalance_logs (balance : Int) : Logs db (db.setBalance addr tokenID balance) :=
  mutate_logs grounded addr .balance

theorem addBalance_logs (increment : Int) : Logs db (db.addBalance addr tokenID increment) := by
  unfold addBalance
  split
  · exact .refl
  · obtain ⟨logs, -⟩ := ensure_logs grounded addr
    exact logs.trans (setBalance_logs (logs.grounded grounded) addr tokenID _)

theorem subBalance_logs (decrement : Int) : Logs db (db.subBalance addr tokenID decrement) := by
  unfold subBalance
  split
  · exact .refl
  · obtain ⟨logs, -⟩ := ensure_logs grounded addr
    exact logs.trans (setBalance_logs (logs.grounded grounded) addr tokenID _)

end

variable {tokenID : TokenId} {answer : Except TokenError Unit}

theorem suicide_logs (addr : Address) : Logs db (db.suicide addr).2 := by
  unfold suicide
  cases found : db.1.accounts addr with
  | none => exact .refl
  | some account => exact .one (.suicide found)

theorem issueToken_logs (grounded : db.1.Grounded) (issuer : Address) (name symbol : Bytes)
    (reIssuable : Bool) (fstIssue : Int) :
    Logs db (db.issueToken issuer name symbol reIssuable fstIssue).2 := by
  cases found : db.1.tokens (db.1.latestTokenID + 1) with
  | some token =>
    simp only [issueToken, found]
    exact .refl
  | none =>
    have created := Logs.one (@Flat.Logged.createToken db.1 _
      (.new issuer name symbol reIssuable fstIssue) found (grounded.tokens _ found))
    simp only [issueToken, found]
    exact created.trans (setBalance_logs (created.grounded grounded) issuer _ fstIssue)

theorem reIssueToken_cases {amount : Int}
    (success : db.reIssueToken tokenID amount = .ok (answer, after)) :
    (after = db ∧ answer ≠ .ok ()) ∨ ∃ token, db.1.tokens tokenID = some token ∧
      (!token.data.destroyed && token.data.reIssuable && token.db) = true ∧
      after = (db.write (.reIssue tokenID)
        (db.1.setToken tokenID (some (token.addIssue amount)))).addBalance token.data.issuer
          tokenID amount := by
  unfold reIssueToken at success
  split at success
  · cases success
    exact .inl ⟨rfl, nofun⟩
  rename_i token found
  split at success
  · cases success
    exact .inl ⟨rfl, nofun⟩
  split at success
  · cases success
    exact .inl ⟨rfl, nofun⟩
  split at success
  · cases success
  cases success
  exact .inr ⟨token, found, by simp_all, rfl⟩

theorem destroyToken_cases (success : db.destroyToken tokenID = .ok (answer, after)) :
    (after = db ∧ answer ≠ .ok ()) ∨ ∃ token, db.1.tokens tokenID = some token ∧ token.db = true ∧
      after = db.write (.destroy tokenID token.data.destroyed)
        (db.1.setToken tokenID (some (token.setDestroyed true))) := by
  unfold destroyToken at success
  split at success
  · cases success
    exact .inl ⟨rfl, nofun⟩
  rename_i token found
  split at success
  · cases success
  cases success
  exact .inr ⟨token, found, by simp_all, rfl⟩

theorem reIssueToken_logs (grounded : db.1.Grounded) {amount : Int}
    (success : db.reIssueToken tokenID amount = .ok (answer, after)) : Logs db after := by
  rcases reIssueToken_cases success with ⟨rfl, -⟩ | ⟨token, found, -, rfl⟩
  · exact .refl
  · have issued := Logs.one (@Flat.Logged.reIssue db.1 _ _ amount found)
    exact issued.trans (addBalance_logs (issued.grounded grounded) _ tokenID amount)

theorem destroyToken_logs
    (success : db.destroyToken tokenID = .ok (answer, after)) : Logs db after := by
  rcases destroyToken_cases success with ⟨rfl, -⟩ | ⟨token, found, -, rfl⟩
  · exact .refl
  · exact .one (.destroy found)

theorem revert_ok {position : Nat} {answer : Answer}
    (success : db.apply (.revert position) = .ok (answer, after)) :
    ∃ shot undone rest, db.2.snapshotSet[position]? = some shot ∧
      db.2.revertTo shot.shotid = some (undone, rest) ∧
      after = (undone.foldl (fun flat entry => flat.undo entry) db.1, rest) := by
  simp only [apply] at success
  split at success
  · cases success
  rename_i shot found
  obtain ⟨_, reverted, same⟩ := map_ok success
  cases same
  unfold revertToSnapshot at reverted
  split at reverted
  · cases reverted
  next undone rest isUndone =>
    cases reverted
    exact ⟨shot, undone, rest, found, isUndone, rfl⟩

theorem apply_cases (grounded : db.1.Grounded) {op : Op} {answer : Answer}
    (success : db.apply op = .ok (answer, after)) :
    Logs db after ∨ (op = .snapshot ∧ after = (db.1, db.2.snapshot)) ∨
      ∃ position shot undone rest, op = .revert position ∧ db.2.snapshotSet[position]? = some shot ∧
        db.2.revertTo shot.shotid = some (undone, rest) ∧
        after = (undone.foldl (fun flat entry => flat.undo entry) db.1, rest) := by
  cases op with
  | createAccount addr =>
    cases success
    exact .inl (createAccount_logs grounded addr)
  | setBalance addr tokenID balance =>
    cases success
    exact .inl (setBalance_logs grounded addr tokenID balance)
  | addBalance addr tokenID increment =>
    cases success
    exact .inl (addBalance_logs grounded addr tokenID increment)
  | subBalance addr tokenID decrement =>
    cases success
    exact .inl (subBalance_logs grounded addr tokenID decrement)
  | setNonce addr nonce =>
    cases success
    exact .inl (mutate_logs grounded addr .nonce)
  | setCode addr code =>
    cases success
    exact .inl (mutate_logs grounded addr .code)
  | setState addr key value =>
    cases success
    exact .inl (mutate_logs grounded addr .storage)
  | suicide addr =>
    cases success
    exact .inl (suicide_logs addr)
  | addRefund increment =>
    cases success
    exact .inl (.one .refund)
  | subRefund decrement =>
    simp only [apply] at success
    split at success
    · cases success
    · cases success
      exact .inl (.one .refund)
  | issueToken issuer name symbol reIssuable fstIssue =>
    cases success
    exact .inl (issueToken_logs grounded issuer name symbol reIssuable fstIssue)
  | reIssueToken tokenID amount =>
    obtain ⟨_, result, same⟩ := map_ok success
    cases same
    exact .inl (reIssueToken_logs grounded result)
  | destroyToken tokenID =>
    obtain ⟨_, result, same⟩ := map_ok success
    cases same
    exact .inl (destroyToken_logs result)
  | snapshot =>
    cases success
    exact .inr (.inl ⟨rfl, rfl⟩)
  | revert position =>
    obtain ⟨shot, undone, rest, found, reverted, rfl⟩ := revert_ok success
    exact .inr (.inr ⟨position, shot, undone, rest, rfl, found, reverted, rfl⟩)
  | touch | touchCode | touchState | touchToken =>
    cases success
    exact .inl .refl

end FlatDB

end AnnchainOG
