import AnnchainOG.Common
import Mathlib.Data.Finset.Basic

/-!
# Accounts and tokens as the state trie stores them and as memory holds them

A trie root is represented by the content that opening it yields.
-/

namespace AnnchainOG

inductive CodeHash where
  | zero
  | keccak (code : Bytes)
  deriving DecidableEq

def emptyCodeHash : CodeHash := .keccak []

abbrev StorageRoot := GoMap Hash Hash

def emptyStateRoot : StorageRoot := ∅

/-- A balance set in memory. A present entry can still be a nil pointer. -/
abbrev BalanceSet := GoMap TokenId (Option Int)

namespace BalanceSet

variable (balances : BalanceSet) (tokenID : TokenId)

/-- `b[tokenID]`, which is nil both for an absent and for a nil entry. -/
def entry : Option Int :=
  (balances.get? tokenID).join

def amount : Int :=
  (balances.entry tokenID).getD 0

theorem amount_set (balance : Option Int) :
    amount (balances.set tokenID balance) =
      Function.update balances.amount tokenID (balance.getD 0) := by
  funext other
  by_cases same : other = tokenID
  · subst same
    simp [amount, entry]
  · simp [amount, entry, GoMap.get?_set, same]

theorem amount_overlay (saved balances : BalanceSet) :
    amount (saved.overlay balances) = fun tokenID =>
      ((saved.get? tokenID).map (·.getD 0)).getD (balances.amount tokenID) := by
  funext tokenID
  simp only [amount, entry, GoMap.get?_overlay]
  cases saved.get? tokenID <;> simp

def preAdd (increment : Int) : Int :=
  bigAdd (balances.amount tokenID) increment

/-- Unlike `preAdd`, a missing entry answers zero whatever the decrement is. -/
def preSub (decrement : Int) : Int :=
  match balances.entry tokenID with
  | none => 0
  | some balance => bigSub balance decrement

end BalanceSet

structure AccountData where
  balances : GoMap TokenId Int
  nonce : UInt64
  root : StorageRoot
  codeHash : CodeHash
  deriving DecidableEq

/-- The code of an account as far as it is in memory, and its hash. -/
structure Contract where
  code : Option Bytes
  codeHash : CodeHash
  digest : ∀ bytes, code = some bytes → codeHash = .keccak bytes

namespace Contract

def empty : Contract where
  code := none
  codeHash := emptyCodeHash
  digest := by simp

def ofHash (codeHash : CodeHash) : Contract where
  code := none
  codeHash := codeHash
  digest := by simp

def ofCode (code : Bytes) : Contract where
  code := some code
  codeHash := .keccak code
  digest := by simp

end Contract

/-- The code store is content addressed, so it is the set of codes inserted. -/
abbrev CodeStore := Finset Bytes

def CodeStore.contractCode (codes : CodeStore) : CodeHash → Option Bytes
  | .zero => none
  | .keccak code => if code ∈ codes then some code else none

namespace Contract

variable (contract : Contract)

def getCode (codes : CodeStore) : Option Bytes :=
  match contract.code with
  | some code => some code
  | none => if contract.codeHash = emptyCodeHash then none else codes.contractCode contract.codeHash

/-- `GetCode` keeps what it loaded. -/
def load (codes : CodeStore) : Contract where
  code := contract.getCode codes
  codeHash := contract.codeHash
  digest := by
    intro bytes found
    unfold getCode at found
    cases inMemory : contract.code with
    | some code =>
      simp only [inMemory, Option.some.injEq] at found
      exact found ▸ contract.digest code inMemory
    | none =>
      simp only [inMemory] at found
      split at found
      · cases found
      cases isHash : contract.codeHash with
      | zero => simp [isHash, CodeStore.contractCode] at found
      | keccak code =>
        simp only [isHash, CodeStore.contractCode, Option.ite_none_right_eq_some,
          Option.some.injEq] at found
        rw [found.2]

theorem getCode_eq (codes : CodeStore) :
    contract.getCode codes = contract.code.or
      (if contract.codeHash = emptyCodeHash then none else codes.contractCode contract.codeHash) := by
  unfold getCode
  cases contract.code <;> rfl

theorem getCode_load (codes : CodeStore) :
    (contract.load codes).getCode codes = contract.getCode codes := by
  rw [getCode_eq (contract.load codes)]
  simp only [load, getCode_eq contract, Option.or_assoc, Option.or_self]

def getCodeSize (codes : CodeStore) : Nat :=
  match contract.code with
  | some code => code.length
  | none => ((codes.contractCode contract.codeHash).getD []).length

end Contract

/-- The storage of an account: the committed root, a cache of it, and the unsaved writes. -/
structure Storage where
  root : StorageRoot
  committedStorage : GoMap Hash Hash
  dirtyStorage : GoMap Hash Hash
  cached : ∀ key value, committedStorage.get? key = some value → (root.get? key).getD 0 = value

namespace Storage

variable (storage : Storage)

def empty : Storage where
  root := emptyStateRoot
  committedStorage := ∅
  dirtyStorage := ∅
  cached := by simp

def ofRoot (root : StorageRoot) : Storage where
  root := root
  committedStorage := ∅
  dirtyStorage := ∅
  cached := by simp

def getCommittedState (key : Hash) : Hash :=
  (storage.committedStorage.get? key).getD ((storage.root.get? key).getD 0)

def getState (key : Hash) : Hash :=
  (storage.dirtyStorage.get? key).getD (storage.getCommittedState key)

theorem getCommittedState_eq (key : Hash) :
    storage.getCommittedState key = (storage.root.get? key).getD 0 := by
  unfold getCommittedState
  cases found : storage.committedStorage.get? key with
  | none => rfl
  | some value => exact (storage.cached key value found).symm

def loadCommitted (key : Hash) : Storage where
  root := storage.root
  committedStorage := storage.committedStorage.set key (storage.getCommittedState key)
  dirtyStorage := storage.dirtyStorage
  cached := by
    intro other value found
    rw [GoMap.get?_set] at found
    split at found
    · cases found
      subst other
      exact (storage.getCommittedState_eq key).symm
    · exact storage.cached other value found

/-- `GetState` consults, and so fills, the cache only when the key has no unsaved write. -/
def load (key : Hash) : Storage :=
  if storage.dirtyStorage.contains key then storage else storage.loadCommitted key

def setState (key value : Hash) : Storage :=
  { storage with dirtyStorage := storage.dirtyStorage.set key value }

/-- `CommitStorage` writes every unsaved value to the trie, zero values included. -/
def commit : Storage where
  root := storage.dirtyStorage.overlay storage.root
  committedStorage := storage.dirtyStorage.overlay storage.committedStorage
  dirtyStorage := ∅
  cached := by
    intro key value found
    rw [GoMap.get?_overlay] at found ⊢
    cases written : storage.dirtyStorage.get? key with
    | some unsaved =>
      simp only [written, Option.some_or, Option.some.injEq] at found
      simp [found]
    | none =>
      simp only [written, Option.none_or] at found ⊢
      exact storage.cached key value found

end Storage

structure StateObject where
  balances : BalanceSet
  nonce : UInt64
  contract : Contract
  storage : Storage
  dirtycode : Bool
  suicided : Bool

namespace StateObject

variable (state : StateObject)

def new : StateObject where
  balances := ∅
  nonce := 0
  contract := .empty
  storage := .empty
  dirtycode := false
  suicided := false

def setBalance (tokenID : TokenId) (balance : Option Int) : StateObject :=
  { state with balances := state.balances.set tokenID balance }

def setNonce (nonce : UInt64) : StateObject :=
  { state with nonce := nonce }

def setCode (contract : Contract) : StateObject :=
  { state with contract := contract, dirtycode := true }

def setState (key value : Hash) : StateObject :=
  { state with storage := state.storage.setState key value }

/-- `Encode` dereferences every balance, so a nil entry makes it panic. -/
def encode : Except Panic AccountData :=
  if state.balances.any (fun _ balance => balance.isNone) then .error .nilPointer
  else .ok {
    balances := state.balances.filterMap fun _ balance => balance
    nonce := state.nonce
    root := state.storage.root
    codeHash := state.contract.codeHash }

def decode (data : AccountData) : StateObject where
  balances := data.balances.filterMap fun _ balance => some (some balance)
  nonce := data.nonce
  contract := .ofHash data.codeHash
  storage := .ofRoot data.root
  dirtycode := false
  suicided := false

def commit : StateObject :=
  { state with
    storage := state.storage.commit
    dirtycode := state.dirtycode && state.contract.code.isNone }

end StateObject

structure TokenData where
  name : Bytes
  symbol : Bytes
  issuer : Address
  reIssuable : Bool
  issues : List Int
  destroyed : Bool
  deriving DecidableEq

/-- A token in memory. `db` says whether it holds the back reference to the state database. -/
structure TokenObject where
  data : TokenData
  db : Bool
  deriving DecidableEq

def maxTokenName : Nat := 20

def maxTokenSymbol : Nat := 5

namespace TokenObject

def new (issuer : Address) (name symbol : Bytes) (reIssuable : Bool) (fstIssue : Int) :
    TokenObject where
  data := {
    name := name.take maxTokenName
    symbol := symbol.take maxTokenSymbol
    issuer := issuer
    reIssuable := reIssuable
    issues := [(fstIssue.natAbs : Int)]
    destroyed := false }
  db := true

/-- Decoding fills the record only: the back reference stays nil. -/
def decode (data : TokenData) : TokenObject where
  data := data
  db := false

def addIssue (token : TokenObject) (amount : Int) : TokenObject :=
  { token with data := { token.data with issues := token.data.issues ++ [amount] } }

def dropIssue (token : TokenObject) : TokenObject :=
  { token with data := { token.data with issues := token.data.issues.dropLast } }

def setDestroyed (token : TokenObject) (destroyed : Bool) : TokenObject :=
  { token with data := { token.data with destroyed := destroyed } }

end TokenObject

inductive TokenError where
  | alreadyExists (tokenID : TokenId)
  | notExists
  | destroyed
  | notReIssuable
  deriving DecidableEq

def TokenError.message : TokenError → String
  | .alreadyExists tokenID => s!"already exist token with tokenID: {tokenID}"
  | .notExists => "token not exists"
  | .destroyed => "token has been destroyed"
  | .notReIssuable => "token is not able to reissue"

structure StateTrie where
  accounts : GoMap Address AccountData
  tokens : GoMap TokenId TokenData
  latestTokenID : Option TokenId

def StateTrie.empty : StateTrie where
  accounts := ∅
  tokens := ∅
  latestTokenID := none

end AnnchainOG
