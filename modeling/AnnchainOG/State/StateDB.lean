import AnnchainOG.Lib.UndoLog
import AnnchainOG.State.Object

/-!
# The state database

Objects are loaded lazily from the trie and kept in memory. Every change appends a journal entry,
newest first here. A Go map that only records membership is a finite set.
-/

namespace AnnchainOG

/-- Journal entries over what a replaced account (`α`) and a replaced code (`γ`) are kept as. -/
inductive JournalEntry (α γ : Type) where
  | createObject (account : Address)
  | resetObject (account : Address) (prev : α)
  | suicide (account : Address) (prev : Bool) (prevbalance : BalanceSet)
  | balance (account : Address) (tokenID : TokenId) (prev : Option Int)
  | nonce (account : Address) (prev : UInt64)
  | storage (account : Address) (key prevalue : Hash)
  | code (account : Address) (prev : γ)
  | refund (prev : UInt64)
  | createToken (prevLatestTokenID tokenID : TokenId)
  | reIssue (tokenID : TokenId)
  | destroy (tokenID : TokenId) (prevDestroyed : Bool)

def tokenNotDirtied : TokenId := -1

namespace JournalEntry

variable {α γ α' γ' : Type}

def dirtied : JournalEntry α γ → Option Address
  | createObject account | resetObject account _ | suicide account _ _ | balance account _ _
  | nonce account _ | storage account _ _ | code account _ => some account
  | refund _ | createToken _ _ | reIssue _ | destroy _ _ => none

def tokenDirtied : JournalEntry α γ → TokenId
  | createToken _ tokenID | reIssue tokenID | destroy tokenID _ => tokenID
  | createObject _ | resetObject _ _ | suicide _ _ _ | balance _ _ _ | nonce _ _
  | storage _ _ _ | code _ _ | refund _ => tokenNotDirtied

end JournalEntry

variable {κ : Type}

abbrev Change := JournalEntry StateObject Contract

structure StateDB where
  codes : CodeStore
  trie : StateTrie
  refund : UInt64
  journal : UndoLog Change
  dirties : GoMap Address Int
  tokenDirties : GoMap TokenId Int
  states : GoMap Address StateObject
  dirtyset : Finset Address
  latestTokenID : TokenId
  dirtyLatestTokenID : Bool
  tokens : GoMap TokenId TokenObject
  dirtyTokens : Finset TokenId

def newStateDB (codes : CodeStore) (root : StateTrie) : StateDB where
  codes := codes
  trie := root
  refund := 0
  journal := .empty
  dirties := ∅
  tokenDirties := ∅
  states := ∅
  dirtyset := ∅
  latestTokenID := root.latestTokenID.getD 0
  dirtyLatestTokenID := false
  tokens := ∅
  dirtyTokens := ∅

/-- `m[k] += n` on a map of counters. -/
def bump [DecidableEq κ] (counts : GoMap κ Int) (key : κ) (amount : Int) : GoMap κ Int :=
  counts.set key ((counts.get? key).getD 0 + amount)

/-- `if m[k]--; m[k] == 0 { delete(m, k) }`. -/
def unbump [DecidableEq κ] (counts : GoMap κ Int) (key : κ) : GoMap κ Int :=
  if (counts.get? key).getD 0 - 1 = 0 then counts.delete key else bump counts key (-1)

variable (sd : StateDB) (addr : Address) (tokenID : TokenId)

namespace StateDB

def appendJournal (entry : Change) : StateDB :=
  { sd with
    journal := sd.journal.push entry
    dirties := match entry.dirtied with
      | some addr => bump sd.dirties addr 1
      | none => sd.dirties
    tokenDirties := if entry.tokenDirtied > tokenNotDirtied
      then bump sd.tokenDirties entry.tokenDirtied 1
      else sd.tokenDirties }

def putState (state : StateObject) : StateDB :=
  { sd with states := sd.states.set addr state }

def putToken (token : TokenObject) : StateDB :=
  { sd with tokens := sd.tokens.set tokenID token }

def loadStateObject : Option StateObject :=
  (sd.trie.accounts.get? addr).map StateObject.decode

def getStateObject : Option StateObject × StateDB :=
  match sd.states.get? addr with
  | some state => (some state, sd)
  | none =>
    match sd.loadStateObject addr with
    | none => (none, sd)
    | some state => (some state, sd.putState addr state)

def createAccount : StateDB :=
  match sd.getStateObject addr with
  | (some oldstate, sd) =>
    (sd.appendJournal (.resetObject addr oldstate)).putState addr .new
  | (none, sd) =>
    (sd.appendJournal (.createObject addr)).putState addr .new

def getOrCreateStateObject : StateObject × StateDB :=
  match sd.getStateObject addr with
  | (some state, sd) => (state, sd)
  | (none, sd) => (.new, sd.createAccount addr)

/-- The shape of every setter: find or create the object, log the old value, change the object. -/
def mutate (entry : StateObject → Change) (change : StateObject → StateObject) : StateDB :=
  let (state, sd) := sd.getOrCreateStateObject addr
  (sd.appendJournal (entry state)).putState addr (change state)

def setBalance (balance : Int) : StateDB :=
  sd.mutate addr (fun state => .balance addr tokenID (state.balances.entry tokenID))
    (fun state => state.setBalance tokenID (some balance))

def addBalance (increment : Int) : StateDB :=
  if increment = 0 then sd
  else
    let (state, sd) := sd.getOrCreateStateObject addr
    sd.setBalance addr tokenID (state.balances.preAdd tokenID increment)

def subBalance (decrement : Int) : StateDB :=
  if decrement = 0 then sd
  else
    let (state, sd) := sd.getOrCreateStateObject addr
    sd.setBalance addr tokenID (state.balances.preSub tokenID decrement)

def setNonce (nonce : UInt64) : StateDB :=
  sd.mutate addr (fun state => .nonce addr state.nonce) (fun state => state.setNonce nonce)

def setCode (code : Bytes) : StateDB :=
  sd.mutate addr (fun state => .code addr state.contract)
    (fun state => state.setCode (.ofCode code))

/-- Reading the old value may fill the cache of committed values. -/
def setState (key value : Hash) : StateDB :=
  sd.mutate addr (fun state => .storage addr key (state.storage.getState key))
    (fun state => { state with storage := state.storage.load key }.setState key value)

def addRefund (increment : UInt64) : StateDB :=
  { sd.appendJournal (.refund sd.refund) with refund := sd.refund + increment }

def subRefund (decrement : UInt64) : Except Panic StateDB :=
  if decrement > sd.refund then .error .refundBelowZero
  else .ok { sd.appendJournal (.refund sd.refund) with refund := sd.refund - decrement }

def suicide : Bool × StateDB :=
  match sd.getStateObject addr with
  | (none, sd) => (false, sd)
  | (some state, sd) =>
    let sd := sd.appendJournal (.suicide addr state.suicided state.balances)
    (true, sd.putState addr { state with suicided := true, balances := ∅ })

/-! ## Tokens -/

def loadTokenObject : Option TokenObject :=
  (sd.trie.tokens.get? tokenID).map TokenObject.decode

def getTokenObject : Option TokenObject × StateDB :=
  match sd.tokens.get? tokenID with
  | some token => (some token, sd)
  | none =>
    match sd.loadTokenObject tokenID with
    | none => (none, sd)
    | some token => (some token, sd.putToken tokenID token)

def issueToken (issuer : Address) (name symbol : Bytes) (reIssuable : Bool)
    (fstIssue : Int) : Except TokenError TokenId × StateDB :=
  let tokenID := sd.latestTokenID + 1
  match sd.getTokenObject tokenID with
  | (some _, sd) => (.error (.alreadyExists tokenID), sd)
  | (none, sd) =>
    let sd := sd.appendJournal (.createToken sd.latestTokenID tokenID)
    let sd := { sd.putToken tokenID (.new issuer name symbol reIssuable fstIssue) with
      latestTokenID := tokenID
      dirtyLatestTokenID := true }
    (.ok tokenID, sd.setBalance issuer tokenID fstIssue)

/-- Journaling goes through the token's own back reference, which is nil in a loaded token. -/
def reIssueToken (amount : Int) : Except Panic (Except TokenError Unit × StateDB) :=
  match sd.getTokenObject tokenID with
  | (none, sd) => .ok (.error .notExists, sd)
  | (some token, sd) =>
    if token.data.destroyed then .ok (.error .destroyed, sd)
    else if !token.data.reIssuable then .ok (.error .notReIssuable, sd)
    else if !token.db then .error .nilPointer
    else
      let sd := sd.appendJournal (.reIssue tokenID)
      let sd := sd.putToken tokenID (token.addIssue amount)
      .ok (.ok (), sd.addBalance token.data.issuer tokenID amount)

def destroyToken : Except Panic (Except TokenError Unit × StateDB) :=
  match sd.getTokenObject tokenID with
  | (none, sd) => .ok (.error .notExists, sd)
  | (some token, sd) =>
    if !token.db then .error .nilPointer
    else
      let sd := sd.appendJournal (.destroy tokenID token.data.destroyed)
      .ok (.ok (), sd.putToken tokenID (token.setDestroyed true))

/-! ## Snapshots -/

def alter (change : StateObject → StateObject) : StateDB :=
  match sd.getStateObject addr with
  | (none, sd) => sd
  | (some state, sd) => sd.putState addr (change state)

def alterToken (change : TokenObject → TokenObject) : StateDB :=
  match sd.getTokenObject tokenID with
  | (none, sd) => sd
  | (some token, sd) => sd.putToken tokenID (change token)

/-- Saved balances are set through `SetBalance`, whose entries are cut off again; their count in
`dirties` remains. -/
def revertSuicide (prev : Bool) (prevbalance : BalanceSet) : StateDB :=
  match sd.getStateObject addr with
  | (none, sd) => sd
  | (some state, sd) =>
    { sd.putState addr
        { state with suicided := prev, balances := prevbalance.overlay state.balances } with
      dirties := if prevbalance.size = 0 then sd.dirties
        else bump sd.dirties addr prevbalance.size }

def revertEntry : Change → StateDB
  | .createObject addr =>
    { sd with states := sd.states.delete addr, dirtyset := sd.dirtyset.erase addr }
  | .resetObject addr prev => sd.putState addr prev
  | .suicide addr prev prevbalance => sd.revertSuicide addr prev prevbalance
  | .balance addr tokenID prev => sd.alter addr fun state => state.setBalance tokenID prev
  | .nonce addr prev => sd.alter addr fun state => state.setNonce prev
  | .storage addr key prevalue => sd.alter addr fun state => state.setState key prevalue
  | .code addr prev => sd.alter addr fun state => state.setCode prev
  | .refund prev => { sd with refund := prev }
  | .createToken prevLatestTokenID tokenID =>
    { sd with
      latestTokenID := prevLatestTokenID
      tokens := sd.tokens.delete tokenID
      dirtyTokens := sd.dirtyTokens.erase tokenID }
  | .reIssue tokenID => sd.alterToken tokenID TokenObject.dropIssue
  | .destroy tokenID prevDestroyed => sd.alterToken tokenID fun token =>
    token.setDestroyed prevDestroyed

def undoEntry (entry : Change) : StateDB :=
  let sd := sd.revertEntry entry
  { sd with
    dirties := match entry.dirtied with
      | some addr => unbump sd.dirties addr
      | none => sd.dirties
    tokenDirties := if entry.tokenDirtied > tokenNotDirtied
      then unbump sd.tokenDirties entry.tokenDirtied
      else sd.tokenDirties }

def snapshot : Nat × StateDB :=
  (sd.journal.snapshotID, { sd with journal := sd.journal.snapshot })

def revertToSnapshot (snapshotid : Nat) : Except Panic StateDB :=
  match sd.journal.revertTo snapshotid with
  | none => .error .snapshotNotFound
  | some (undone, journal) => .ok { undone.foldl undoEntry sd with journal := journal }

def clearJournalAndRefund : StateDB :=
  { sd with journal := .empty, dirties := ∅, tokenDirties := ∅, refund := 0 }

/-! ## Commit -/

def isDirty : Bool :=
  addr ∈ sd.dirtyset || sd.dirties.contains addr

def isDirtyToken : Bool :=
  tokenID ∈ sd.dirtyTokens || sd.tokenDirties.contains tokenID

def dirtyRecords : GoMap Address AccountData :=
  sd.states.filterMap fun addr state =>
    if sd.isDirty addr then state.commit.encode.toOption else none

def dirtyTokenRecords : GoMap TokenId TokenData :=
  sd.tokens.filterMap fun tokenID token =>
    if sd.isDirtyToken tokenID then some token.data else none

def dirtyCodes : Finset Bytes :=
  (sd.states.entries.filterMap fun entry =>
    if sd.isDirty entry.1 && entry.2.dirtycode then entry.2.contract.code else none).toFinset

/-- `Commit` handles each object on its own, so the order of the range does not matter. -/
def committed : StateDB :=
  { sd with
    codes := sd.codes ∪ sd.dirtyCodes
    trie := {
      accounts := sd.dirtyRecords.overlay sd.trie.accounts
      tokens := sd.dirtyTokenRecords.overlay sd.trie.tokens
      latestTokenID := if sd.dirtyLatestTokenID then some sd.latestTokenID
        else sd.trie.latestTokenID }
    states := sd.states.filterMap fun addr state =>
      some (if sd.isDirty addr then state.commit else state)
    dirtyset := (sd.dirtyset ∪ sd.dirties.keys).filter fun addr => !sd.states.contains addr
    dirtyTokens := (sd.dirtyTokens ∪ sd.tokenDirties.keys).filter fun tokenID =>
      !sd.tokens.contains tokenID
    dirtyLatestTokenID := false }

def commit : Except Panic StateDB :=
  if sd.states.any fun addr state =>
      sd.isDirty addr && state.balances.any (fun _ balance => balance.isNone) then
    .error .nilPointer
  else .ok sd.committed

/-! ## Reads -/

/-- The shape of every read of an account: `absent` for an account that does not exist. -/
def read {β : Type} (absent : β) (answer : StateObject → β) : β :=
  match (sd.getStateObject addr).1 with
  | none => absent
  | some state => answer state

def getBalance : Int :=
  sd.read addr 0 fun state => state.balances.amount tokenID

def getAllBalance : BalanceSet :=
  sd.read addr ∅ StateObject.balances

def getNonce : UInt64 :=
  sd.read addr 0 StateObject.nonce

def exist : Bool :=
  sd.read addr false fun _ => true

def getCodeHash : CodeHash :=
  sd.read addr .zero fun state => state.contract.codeHash

/-- The bytes of the code: a nil slice and an empty one are the same bytes. -/
def getCode : Bytes :=
  sd.read addr [] fun state => (state.contract.getCode sd.codes).getD []

def getCodeSize : Nat :=
  sd.read addr 0 fun state => state.contract.getCodeSize sd.codes

def getState (key : Hash) : Hash :=
  sd.read addr 0 fun state => state.storage.getState key

def getCommittedState (key : Hash) : Hash :=
  sd.read addr 0 fun state => state.storage.getCommittedState key

def hasSuicided : Bool :=
  sd.read addr false StateObject.suicided

def getToken : Option TokenData :=
  (sd.getTokenObject tokenID).1.map TokenObject.data

end StateDB

/-! ## Sequences of operations -/

/-- The operations of the state database. The last four are reads, listed because they
load objects into memory. -/
inductive Op where
  | createAccount (addr : Address)
  | setBalance (addr : Address) (tokenID : TokenId) (balance : Int)
  | addBalance (addr : Address) (tokenID : TokenId) (increment : Int)
  | subBalance (addr : Address) (tokenID : TokenId) (decrement : Int)
  | setNonce (addr : Address) (nonce : UInt64)
  | setCode (addr : Address) (code : Bytes)
  | setState (addr : Address) (key value : Hash)
  | suicide (addr : Address)
  | addRefund (increment : UInt64)
  | subRefund (decrement : UInt64)
  | issueToken (issuer : Address) (name symbol : Bytes) (reIssuable : Bool) (fstIssue : Int)
  | reIssueToken (tokenID : TokenId) (amount : Int)
  | destroyToken (tokenID : TokenId)
  | snapshot
  | revert (position : Nat)
  | touch (addr : Address)
  | touchCode (addr : Address)
  | touchState (addr : Address) (key : Hash)
  | touchToken (tokenID : TokenId)

def Op.staysAbove (base : Nat) : Op → Bool
  | .revert position => base ≤ position
  | _ => true

def Op.isToken : Op → Bool
  | .issueToken .. | .reIssueToken .. | .destroyToken .. | .touchToken .. => true
  | _ => false

inductive Answer where
  | done
  | existed (answer : Bool)
  | issued (answer : Except TokenError TokenId)
  | outcome (answer : Except TokenError Unit)
  | shot (id : Nat)

namespace StateDB

def apply : Op → Except Panic (Answer × StateDB)
  | .createAccount addr => .ok (.done, sd.createAccount addr)
  | .setBalance addr tokenID balance => .ok (.done, sd.setBalance addr tokenID balance)
  | .addBalance addr tokenID increment => .ok (.done, sd.addBalance addr tokenID increment)
  | .subBalance addr tokenID decrement => .ok (.done, sd.subBalance addr tokenID decrement)
  | .setNonce addr nonce => .ok (.done, sd.setNonce addr nonce)
  | .setCode addr code => .ok (.done, sd.setCode addr code)
  | .setState addr key value => .ok (.done, sd.setState addr key value)
  | .suicide addr => .ok (.existed (sd.suicide addr).1, (sd.suicide addr).2)
  | .addRefund increment => .ok (.done, sd.addRefund increment)
  | .subRefund decrement => (sd.subRefund decrement).map fun sd => (.done, sd)
  | .issueToken issuer name symbol reIssuable fstIssue =>
    let (answer, sd) := sd.issueToken issuer name symbol reIssuable fstIssue
    .ok (.issued answer, sd)
  | .reIssueToken tokenID amount =>
    (sd.reIssueToken tokenID amount).map fun result => (.outcome result.1, result.2)
  | .destroyToken tokenID =>
    (sd.destroyToken tokenID).map fun result => (.outcome result.1, result.2)
  | .snapshot => .ok (.shot sd.snapshot.1, sd.snapshot.2)
  | .revert position =>
    match sd.journal.snapshotSet[position]? with
    | none => .error .snapshotNotFound
    | some shot => (sd.revertToSnapshot shot.shotid).map fun sd => (.done, sd)
  | .touch addr => .ok (.done, (sd.getStateObject addr).2)
  | .touchCode addr => .ok (.done, sd.alter addr fun state =>
    { state with contract := state.contract.load sd.codes })
  | .touchState addr key => .ok (.done, sd.alter addr fun state =>
    { state with storage := state.storage.load key })
  | .touchToken tokenID => .ok (.done, (sd.getTokenObject tokenID).2)

def run (sd : StateDB) : List Op → Except Panic StateDB
  | [] => .ok sd
  | op :: ops => do
      let (_, sd) ← sd.apply op
      sd.run ops

end StateDB

end AnnchainOG
