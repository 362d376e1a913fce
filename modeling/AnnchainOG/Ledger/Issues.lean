import AnnchainOG.Ledger.TokenBook
import AnnchainOG.Ledger.Transfers
import AnnchainOG.Lib.Runs
import Mathlib.Data.FinEnum

/-!
# Supply and recorded issues

A first issue is recorded by its absolute value and credited as it is; for a further one it is the
other way round.
-/

namespace AnnchainOG

open Function StateDB TokenBook List

/-! ## Records and balances -/

namespace TokenBook

variable {tokenID : TokenId} {token : TokenObject}

def issued (book : TokenBook) (tokenID : TokenId) : Int :=
  ((book.tokens tokenID).map fun token => token.data.issues.sum).getD 0

/-- The balances of a token above zero are not negative and add up to its issues. -/
structure Backs (book : TokenBook) (balances : TokenId → Address → Int) : Prop where
  latest : 0 ≤ book.latestTokenID.toInt
  nonneg : ∀ tokenID, 0 < tokenID.toInt → ∀ addr, 0 ≤ balances tokenID addr
  fresh : ∀ tokenID, book.latestTokenID.toInt < tokenID.toInt →
    book.tokens tokenID = none ∧ ∀ addr, balances tokenID addr = 0
  issues : ∀ tokenID, 0 < tokenID.toInt → ∑ addr, balances tokenID addr = book.issued tokenID

variable {book : TokenBook} {balances : TokenId → Address → Int}

theorem Backs.update (backs : book.Backs balances) {next : TokenBook} {held : Address → Int}
    (latest : book.latestTokenID.toInt ≤ next.latestTokenID.toInt)
    (others : ∀ other, other ≠ tokenID → next.tokens other = book.tokens other)
    (nonneg : 0 < tokenID.toInt → ∀ addr, 0 ≤ held addr)
    (fresh : next.latestTokenID.toInt < tokenID.toInt →
      next.tokens tokenID = none ∧ ∀ addr, held addr = 0)
    (issues : 0 < tokenID.toInt → ∑ addr, held addr = next.issued tokenID) :
    next.Backs (Function.update balances tokenID held) := by
  refine ⟨backs.latest.trans latest, fun other => ?_, fun other => ?_, fun other => ?_⟩
  · by_cases same : other = tokenID
    · rwa [same, update_self]
    · rw [update_of_ne same]
      exact backs.nonneg other
  · by_cases same : other = tokenID
    · rwa [same, update_self]
    · rw [update_of_ne same, others other same]
      exact fun beyond => backs.fresh other (latest.trans_lt beyond)
  · by_cases same : other = tokenID
    · rwa [same, update_self]
    · rw [update_of_ne same, issued, others other same]
      exact backs.issues other

theorem Backs.issue (backs : book.Backs balances) (room : book.latestTokenID.toInt + 1 < 2 ^ 31)
    {issuer : Address} {value : Int} (amount : 0 ≤ value) (name symbol : Bytes)
    (reIssuable : Bool) :
    (book.issue (.new issuer name symbol reIssuable value)).Backs
      (Function.update balances book.nextID (Pi.single issuer value)) := by
  have isNext := nextID_toInt backs.latest room
  have isToken : (book.issue (.new issuer name symbol reIssuable value)).tokens book.nextID =
      some (.new issuer name symbol reIssuable value) := update_self _ _ _
  refine backs.update ?_ (fun other different => update_of_ne different _ _)
    (fun _ addr => ?_) (fun beyond => absurd beyond (lt_irrefl _)) fun _ => ?_
  · show book.latestTokenID.toInt ≤ book.nextID.toInt
    omega
  · rw [Pi.single_apply]
    split
    · exact amount
    · exact le_refl 0
  · rw [Finset.sum_pi_single', if_pos (Finset.mem_univ _), issued, isToken]
    simp [TokenObject.new, Int.natAbs_of_nonneg amount]

theorem alter_other {other : TokenId} (different : other ≠ tokenID)
    (change : TokenObject → TokenObject) : (book.alter tokenID change).tokens other =
      book.tokens other :=
  update_of_ne different _ _

theorem alter_self (present : book.tokens tokenID = some token)
    (change : TokenObject → TokenObject) :
    (book.alter tokenID change).tokens tokenID = some (change token) := by
  rw [TokenBook.alter, present]
  exact update_self _ _ _

section

variable (backs : book.Backs balances) (present : book.tokens tokenID = some token)
include backs present

theorem Backs.alter {change : TokenObject → TokenObject} {held : Address → Int} (nonneg : 0 <
    tokenID.toInt → ∀ addr, 0 ≤ held addr) (issues : 0 < tokenID.toInt → ∑ addr, held addr =
    (change token).data.issues.sum) :
    (book.alter tokenID change).Backs (Function.update balances tokenID held) := by
  refine backs.update (le_refl _) (fun other different => alter_other different change) nonneg
    (fun beyond => ?_) fun positive => ?_
  · rw [(backs.fresh tokenID beyond).1] at present
    cases present
  · rw [issues positive, issued, alter_self present]
    rfl

theorem Backs.reIssue {issuer : Address} {value : Int} (amount : 0 ≤ value) :
    (book.alter tokenID (·.addIssue value)).Backs
      (Function.update balances tokenID (balances tokenID + Pi.single issuer value)) := by
  refine backs.alter present (fun positive addr => ?_) fun positive => ?_
  · have before := backs.nonneg tokenID positive addr
    rw [Pi.add_apply, Pi.single_apply]
    split <;> omega
  · have before := backs.issues tokenID positive
    rw [issued, present] at before
    simp only [Pi.add_apply, Finset.sum_add_distrib, before, Finset.sum_pi_single',
      Finset.mem_univ, if_true, TokenObject.addIssue, sum_append, sum_singleton]
    rfl

theorem Backs.destroy : (book.alter tokenID (·.setDestroyed true)).Backs balances := by
  rw [← update_eq_self tokenID balances]
  refine backs.alter present (backs.nonneg tokenID) fun positive => ?_
  rw [backs.issues tokenID positive, issued, present]
  rfl

end

theorem Backs.pay (backs : book.Backs balances) {payment : Payment Address}
    (amount : 0 ≤ payment.amount) (enough : payment.amount ≤ balances tokenID payment.source) :
    book.Backs (Function.update balances tokenID (Payment.move (balances tokenID) payment)) := by
  refine backs.update (le_refl _) (fun _ _ => rfl) (fun positive addr => ?_) (fun beyond => ?_)
    fun positive => ?_
  · have before := backs.nonneg tokenID positive addr
    rw [Payment.move_apply]
    split
    next isSource =>
      rw [isSource] at enough
      split <;> omega
    · split <;> omega
  · obtain ⟨absent, nothing⟩ := backs.fresh tokenID beyond
    rw [nothing] at enough
    rw [Payment.move_zero _ (le_antisymm enough amount)]
    exact ⟨absent, nothing⟩
  · rw [Payment.sum_move]
    exact backs.issues tokenID positive

theorem Backs.ignore (backs : book.Backs balances)
    (notPositive : ¬ 0 < tokenID.toInt) (held : Address → Int) :
    book.Backs (Function.update balances tokenID held) :=
  backs.update (le_refl _) (fun _ _ => rfl) (fun positive => absurd positive notPositive)
    (fun beyond => absurd (backs.latest.trans_lt beyond) notPositive)
    fun positive => absurd positive notPositive

end TokenBook

/-! ## The balances of a database -/

variable (sd : StateDB)

namespace StateDB

variable {addr : Address}

def accounts (tokenID : TokenId) (addr : Address) : Int :=
  sd.getBalance addr tokenID

def supply (tokenID : TokenId) : Int :=
  ∑ addr : Address, sd.getBalance addr tokenID

theorem accounts_congr {left right : StateDB} (states : left.states = right.states)
    (trie : left.trie = right.trie) : left.accounts = right.accounts := by
  funext tokenID addr
  have same : (left.getStateObject addr).1 = (right.getStateObject addr).1 := by
    simp only [getStateObject, loadStateObject, states, trie]
    split
    · rfl
    · split <;> rfl
  simp only [accounts, getBalance, read, same]

variable (sd : StateDB)

theorem getTokenObject_accounts (tokenID : TokenId) :
    (sd.getTokenObject tokenID).2.accounts = sd.accounts := by
  unfold getTokenObject
  split
  · rfl
  split
  · rfl
  · exact accounts_congr rfl rfl

theorem accounts_eq (tokenID : TokenId) (addr : Address) :
    sd.accounts tokenID addr = (sd.getAllBalance addr).amount tokenID :=
  sd.getBalance_eq_amount addr tokenID

theorem accounts_of_set {before after : StateDB} {tokenID : TokenId} {value : Int}
    (sets : ∀ other, after.getAllBalance other =
      if other = addr then (before.getAllBalance addr).set tokenID (some value)
      else before.getAllBalance other) :
    after.accounts = Function.update before.accounts tokenID
        (Function.update (before.accounts tokenID) addr value) := by
  funext other holder
  rw [accounts_eq, sets]
  by_cases sameHolder : holder = addr
  · subst sameHolder
    rw [if_pos rfl, BalanceSet.amount_set]
    by_cases sameToken : other = tokenID
    · simp [sameToken]
    · simp [sameToken, accounts_eq]
  · rw [if_neg sameHolder]
    by_cases sameToken : other = tokenID
    · simp [sameToken, sameHolder, accounts_eq]
    · simp [sameToken, accounts_eq]

theorem setBalance_accounts (addr : Address) (tokenID : TokenId) (value : Int) :
    (sd.setBalance addr tokenID value).accounts =
      Function.update sd.accounts tokenID (Function.update (sd.accounts tokenID) addr value) :=
  accounts_of_set (sd.getAllBalance_setBalance addr tokenID value)

theorem addBalance_only (addr : Address) (tokenID : TokenId) (increment : Int) :
    ∃ held, (sd.addBalance addr tokenID increment).accounts =
      Function.update sd.accounts tokenID held := by
  by_cases nothing : increment = 0
  · rw [addBalance, if_pos nothing]
    exact ⟨_, (update_eq_self tokenID _).symm⟩
  · exact ⟨_, accounts_of_set (sd.getAllBalance_addBalance addr tokenID nothing)⟩

theorem transfer_only (tx : Tx) :
    ∃ held, (transfer sd tx).accounts = Function.update sd.accounts tx.tokenId held := by
  unfold transfer
  split
  next moves =>
    have debited := accounts_of_set (sd.getAllBalance_subBalance tx.sender tx.tokenId moves.1)
    obtain ⟨held, credited⟩ := (sd.subBalance tx.sender tx.tokenId tx.value).addBalance_only
      tx.toAddress tx.tokenId tx.value
    rw [credited, debited, update_idem]
    exact ⟨held, rfl⟩
  · exact ⟨_, (update_eq_self tx.tokenId _).symm⟩

theorem addBalance_accounts {tokenID : TokenId} {increment : Int}
    (amount : 0 ≤ increment) (nonneg : 0 ≤ sd.getBalance addr tokenID) :
    (sd.addBalance addr tokenID increment).accounts =
      Function.update sd.accounts tokenID (sd.accounts tokenID + Pi.single addr increment) := by
  funext other holder
  rcases amount.eq_or_lt with rfl | positive
  · simp [addBalance, update_eq_self]
  simp only [accounts, sd.getBalance_addBalance positive nonneg, update_apply]
  by_cases sameToken : other = tokenID
  · simp [sameToken, Pi.single_apply, accounts]
  · simp [sameToken, accounts]

end StateDB

/-! ## Executing an action -/

def issuedBy : Except ProcessError Txi → List TokenId
  | .ok ⟨_, .action actionTx⟩ =>
    match actionTx.actionData with
    | .publicOffering offering =>
      if actionTx.action = actionTxActionIPO then [offering.tokenId] else []
    | .requestDomain _ => []
  | _ => []

inductive Offers (sd : StateDB) (actionTx : ActionTx) (offering : PublicOffering) :
    StateDB → List TokenId → Prop where
  | nothing {after : StateDB} (book : after.book = sd.book) (accounts : after.accounts = sd.accounts) :
      Offers sd actionTx offering after []
  | issued {after : StateDB} (isIPO : actionTx.action = actionTxActionIPO)
      (book : after.book =
        sd.book.issue (.new actionTx.sender offering.tokenName [] offering.enableSPO offering.value))
      (accounts : after.accounts = Function.update sd.accounts sd.book.nextID
        (Function.update (sd.accounts sd.book.nextID) actionTx.sender offering.value)) :
      Offers sd actionTx offering after [sd.book.nextID]
  | reIssued {between : StateDB} {token : TokenObject} {after : StateDB}
      (isSPO : actionTx.action = actionTxActionSPO)
      (present : sd.book.tokens offering.tokenId = some token)
      (alive : token.data.destroyed = false)
      (book : after.book = sd.book.alter offering.tokenId (·.addIssue offering.value))
      (accounts : between.accounts = sd.accounts)
      (isAfter : after = between.addBalance token.data.issuer offering.tokenId offering.value) :
      Offers sd actionTx offering after []
  | destroyed {token : TokenObject} {after : StateDB}
      (present : sd.book.tokens offering.tokenId = some token)
      (book : after.book = sd.book.alter offering.tokenId (·.setDestroyed true))
      (accounts : after.accounts = sd.accounts) : Offers sd actionTx offering after []

namespace StateDB

variable {sd after : StateDB} {tokenID : TokenId}
variable {answer : Except TokenError Unit}

theorem issueToken_accounts {issuer : Address} {name symbol : Bytes} {reIssuable : Bool}
    {fstIssue : Int} {id : TokenId}
    (issued : sd.issueToken issuer name symbol reIssuable fstIssue = (.ok id, after)) :
    after.accounts = Function.update sd.accounts sd.book.nextID
      (Function.update (sd.accounts sd.book.nextID) issuer fstIssue) := by
  unfold issueToken at issued
  have loaded := sd.getTokenObject_accounts (sd.latestTokenID + 1)
  cases found : sd.getTokenObject (sd.latestTokenID + 1) with
  | mk token between =>
    rw [found] at loaded
    simp only [found] at issued
    cases token with
    | some token => cases issued
    | none =>
      cases issued
      have credited : ∀ booked : StateDB, booked.states = between.states →
          booked.trie = between.trie →
          (booked.setBalance issuer (sd.latestTokenID + 1) fstIssue).accounts =
            update sd.accounts (sd.latestTokenID + 1)
              (update (sd.accounts (sd.latestTokenID + 1)) issuer fstIssue) := by
        intro booked states trie
        rw [setBalance_accounts, (accounts_congr states trie).trans loaded]
      exact credited _ rfl rfl

theorem getTokenObject_opens (tokenID : TokenId) :
    ∃ between, sd.getTokenObject tokenID = (sd.book.tokens tokenID, between) ∧
      between.book = sd.book ∧ between.accounts = sd.accounts := by
  obtain ⟨loaded, found, sameAbs, -⟩ := sd.getTokenObject_spec tokenID
  have sameAccounts := sd.getTokenObject_accounts tokenID
  rw [found] at sameAccounts
  exact ⟨loaded, found, congrArg (fun db : FlatDB => db.1.tokenPart) sameAbs, sameAccounts⟩

theorem reIssueToken_cases {amount : Int}
    (done : sd.reIssueToken tokenID amount = .ok (answer, after)) :
    (after.book = sd.book ∧ after.accounts = sd.accounts) ∨
      ∃ (between : StateDB) (token : TokenObject), sd.book.tokens tokenID = some token ∧
        token.data.destroyed = false ∧ after.book = sd.book.alter tokenID (·.addIssue amount) ∧
        between.accounts = sd.accounts ∧
        after = between.addBalance token.data.issuer tokenID amount := by
  obtain ⟨between, found, unchanged⟩ := sd.getTokenObject_opens tokenID
  rcases reIssueToken_opened done with rfl | ⟨token, loaded, isLoaded, alive, rfl, isAfter⟩
  · rw [found]
    exact .inl unchanged
  obtain ⟨present, rfl⟩ := Prod.mk.inj (found.symm.trans isLoaded)
  have noted : ((between.appendJournal (.reIssue tokenID)).putToken tokenID
      (token.addIssue amount)).accounts = between.accounts :=
    accounts_congr rfl rfl
  exact .inr ⟨_, token, present, alive, (reIssueToken_book done).2, noted.trans unchanged.2, isAfter⟩

theorem destroyToken_cases (done : sd.destroyToken tokenID = .ok (answer, after)) :
    after.accounts = sd.accounts ∧
      (after.book = sd.book ∨ ∃ token, sd.book.tokens tokenID = some token ∧
        after.book = sd.book.alter tokenID (·.setDestroyed true)) := by
  obtain ⟨between, found, sameBook, sameAccounts⟩ := sd.getTokenObject_opens tokenID
  rcases destroyToken_opened done with rfl | ⟨token, loaded, isLoaded, rfl, isAfter⟩
  · rw [found]
    exact ⟨sameAccounts, .inl sameBook⟩
  obtain ⟨present, rfl⟩ := Prod.mk.inj (found.symm.trans isLoaded)
  have noted : after.accounts = between.accounts := by
    rw [isAfter]
    exact accounts_congr rfl rfl
  exact ⟨noted.trans sameAccounts, .inr ⟨token, present, (destroyToken_book done).2⟩⟩

end StateDB

variable {tx : Txi} {actionTx : ActionTx}

theorem issuedBy_other (isBody : tx.body = .action actionTx)
    (notIPO : actionTx.action ≠ actionTxActionIPO) : issuedBy (.ok tx) = [] := by
  obtain ⟨base, body⟩ := tx
  cases isBody
  simp only [issuedBy]
  split
  · rw [if_neg notIPO]
  · rfl

theorem issuedBy_tokenAnswer (isBody : tx.body = .action actionTx)
    (notIPO : actionTx.action ≠ actionTxActionIPO) (outcome : Except TokenError Unit) :
    issuedBy (tokenAnswer tx outcome) = [] := by
  cases outcome with
  | error error => rfl
  | ok => exact issuedBy_other isBody notIPO

theorem processTokenTransaction_offers {sd after : StateDB}
    {offering : PublicOffering} {answer : Except ProcessError Txi}
    (isBody : tx.body = .action actionTx) (isData : actionTx.actionData = .publicOffering offering)
    (free : actionTx.action = actionTxActionIPO → sd.book.tokens sd.book.nextID = none)
    (processed : processTokenTransaction sd tx actionTx = .ok (answer, after)) :
    Offers sd actionTx offering after (issuedBy answer) := by
  obtain ⟨_, sameData, executed⟩ := processTokenTransaction_cases processed
  cases isData.symm.trans sameData
  rcases executed with ⟨isIPO, issued, done, rfl⟩ | ⟨isSPO, outcome, done, rfl⟩ |
    ⟨isDestroy, outcome, done, rfl⟩ | ⟨rfl, rfl⟩
  · rcases sd.issueToken_book actionTx.sender offering.tokenName [] offering.enableSPO
      offering.value with ⟨taken, -⟩ | ⟨-, next, succeeded, isBook⟩
    · rw [free isIPO] at taken
      cases taken
    cases done.symm.trans succeeded
    have isIssued : issuedBy (.ok ⟨tx.base, .action { actionTx with
        actionData := .publicOffering { offering with tokenId := sd.book.nextID } }⟩) =
        [sd.book.nextID] := if_pos isIPO
    rw [isIssued]
    exact .issued isIPO isBook (issueToken_accounts done)
  · rw [issuedBy_tokenAnswer isBody (by rw [isSPO]; decide)]
    rcases reIssueToken_cases done with ⟨sameBook, sameAccounts⟩ |
      ⟨between, token, present, alive, isBook, sameAccounts, isNext⟩
    · exact .nothing sameBook sameAccounts
    · exact .reIssued isSPO present alive isBook sameAccounts isNext
  · rw [issuedBy_tokenAnswer isBody (by rw [isDestroy]; decide)]
    obtain ⟨sameAccounts, sameBook | ⟨token, present, isBook⟩⟩ := destroyToken_cases done
    · exact .nothing sameBook sameAccounts
    · exact .destroyed present isBook sameAccounts
  · exact .nothing rfl rfl

/-! ## Executed transactions -/

namespace StateDB

def Accepts (txi : Txi) : Prop :=
  match txi.getType, txi.body with
  | .action, .action actionTx =>
    (∃ offering, actionTx.actionData = .publicOffering offering) ∧
      (actionTx.action = actionTxActionIPO ∨ actionTx.action = actionTxActionSPO ∨
        actionTx.action = actionTxActionDestroy)
  | .normal, .tx tx => tx.data = [] ∧ tx.value ≤ sd.getBalance tx.sender tx.tokenId
  | _, _ => False

/-- Nothing negative is issued or sent, and the token ids have not run out. -/
def InRange (txi : Txi) : Prop :=
  match txi.body with
  | .action actionTx => ∀ offering, actionTx.actionData = .publicOffering offering →
      (actionTx.action = actionTxActionDestroy ∨ 0 ≤ offering.value) ∧
        (actionTx.action = actionTxActionIPO → sd.latestTokenID.toInt + 1 < 2 ^ 31)
  | .tx tx => 0 ≤ tx.value
  | _ => True

def Executes (ovm : Ovm) (sd : StateDB) (txi : Txi) (after : StateDB) (ids : List TokenId) : Prop :=
  ∃ sequenceID answer, processTransaction ovm sequenceID sd txi = .ok (answer, after) ∧
    ids = issuedBy answer

def Backed : Prop :=
  sd.book.Backs sd.accounts

variable {sd after : StateDB} {txi : Txi} {ids : List TokenId}

theorem updateNonce_accounts (sender : Address) (nonce : UInt64) :
    (updateNonce sd sender nonce).accounts = sd.accounts := by
  funext tokenID addr
  exact getBalance_updateNonce sd sender nonce addr tokenID

theorem Backed.free (backed : sd.Backed) (room : sd.book.latestTokenID.toInt + 1 < 2 ^ 31) :
    sd.book.tokens sd.book.nextID = none ∧ ∀ addr, sd.accounts sd.book.nextID addr = 0 :=
  backed.fresh _ (by rw [nextID_toInt backed.latest room]; omega)

theorem Backed.transfer (backed : sd.Backed) {tx : Tx} (amount : 0 ≤ tx.value)
    (enough : tx.value ≤ sd.getBalance tx.sender tx.tokenId) : (transfer sd tx).Backed := by
  have sameBook := sd.book_transfer tx
  rw [Backed, sameBook]
  by_cases positive : 0 < tx.tokenId.toInt
  · have moved := sd.getBalance_transfer (fun _ => ⟨amount, enough⟩) (backed.nonneg tx.tokenId positive)
    by_cases toAccount : tx.toAddress = emptyAddress
    · have same : (AnnchainOG.transfer sd tx).accounts = sd.accounts := by
        funext tokenID addr
        have unmoved := congrFun (moved tokenID) addr
        rwa [if_neg fun sent => sent.2 toAccount] at unmoved
      rw [same]
      exact backed
    · have isPayment : (AnnchainOG.transfer sd tx).accounts =
          update sd.accounts tx.tokenId
            (Payment.move (sd.accounts tx.tokenId) ⟨tx.sender, tx.toAddress, tx.value⟩) := by
        funext tokenID addr
        have paid := congrFun (moved tokenID) addr
        by_cases sameToken : tx.tokenId = tokenID
        · subst sameToken
          rw [if_pos ⟨rfl, toAccount⟩] at paid
          rw [update_self]
          exact paid
        · rw [if_neg fun sent => sameToken sent.1] at paid
          rw [update_of_ne (Ne.symm sameToken)]
          exact paid
      rw [isPayment]
      exact TokenBook.Backs.pay backed amount enough
  · obtain ⟨held, isHeld⟩ := sd.transfer_only tx
    rw [isHeld]
    exact backed.ignore positive held

theorem Backed.offers (backed : sd.Backed) {actionTx : ActionTx} {offering : PublicOffering}
    (amount : actionTx.action = actionTxActionDestroy ∨ 0 ≤ offering.value)
    (room : actionTx.action = actionTxActionIPO → sd.book.latestTokenID.toInt + 1 < 2 ^ 31)
    (offers : Offers sd actionTx offering after ids) : after.Backed := by
  cases offers with
  | nothing sameBook sameAccounts =>
    rw [Backed, sameBook, sameAccounts]
    exact backed
  | issued isIPO isBook isAccounts =>
    have value : 0 ≤ offering.value := amount.resolve_left (by rw [isIPO]; decide)
    have credited : update (sd.accounts sd.book.nextID) actionTx.sender offering.value =
        Pi.single actionTx.sender offering.value := by
      have nothing : sd.accounts sd.book.nextID = 0 := funext (backed.free (room isIPO)).2
      rw [nothing]
      rfl
    rw [Backed, isBook, isAccounts, credited]
    exact TokenBook.Backs.issue backed (room isIPO) value _ _ _
  | @reIssued between token _ isSPO present alive isBook sameAccounts isAfter =>
    have value : 0 ≤ offering.value := amount.resolve_left (by rw [isSPO]; decide)
    rw [Backed, isBook]
    by_cases positive : 0 < offering.tokenId.toInt
    · have held : 0 ≤ between.getBalance token.data.issuer offering.tokenId := by
        have nonneg := backed.nonneg offering.tokenId positive token.data.issuer
        rwa [← sameAccounts] at nonneg
      rw [isAfter, addBalance_accounts _ value held, sameAccounts]
      exact TokenBook.Backs.reIssue backed present value
    · obtain ⟨held, isHeld⟩ :=
        between.addBalance_only token.data.issuer offering.tokenId offering.value
      rw [isAfter, isHeld, sameAccounts]
      exact TokenBook.Backs.alter backed present (fun isPositive => absurd isPositive positive)
        fun isPositive => absurd isPositive positive
  | destroyed present isBook sameAccounts =>
    rw [Backed, isBook, sameAccounts]
    exact TokenBook.Backs.destroy backed present

end StateDB

variable {offering : PublicOffering}

theorem Offers.destroyed_kept {sd after : StateDB} {actionTx : ActionTx} {ids : List TokenId}
    (free : actionTx.action = actionTxActionIPO → sd.book.tokens sd.book.nextID = none)
    (offers : Offers sd actionTx offering after ids) {tokenID : TokenId} {token : TokenObject}
    (present : sd.book.tokens tokenID = some token) (isDestroyed : token.data.destroyed = true) :
    ∃ later, after.book.tokens tokenID = some later ∧ later.data = token.data := by
  cases offers with
  | nothing sameBook =>
    rw [sameBook]
    exact ⟨token, present, rfl⟩
  | issued isIPO isBook =>
    have different : tokenID ≠ sd.book.nextID := by
      rintro rfl
      rw [free isIPO] at present
      cases present
    rw [isBook]
    exact ⟨token, (update_of_ne different _ _).trans present, rfl⟩
  | @reIssued _ reIssued _ _ isToken alive isBook =>
    have different : tokenID ≠ offering.tokenId := by
      rintro rfl
      rw [isToken] at present
      cases present
      rw [isDestroyed] at alive
      cases alive
    rw [isBook, alter_other different]
    exact ⟨token, present, rfl⟩
  | destroyed isToken isBook =>
    rw [isBook]
    by_cases same : tokenID = offering.tokenId
    · subst same
      refine ⟨token.setDestroyed true, ?_, ?_⟩
      · exact alter_self present _
      · rw [TokenObject.setDestroyed, ← isDestroyed]
    · rw [alter_other same]
      exact ⟨token, present, rfl⟩

/-! ## Runs -/

/-- The tokens have the ids after the first one, one by one. -/
def Consecutive (first : Int) (ids : List TokenId) : Prop :=
  ids.map Int32.toInt = (List.range ids.length).map fun index : Nat => first + 1 + (index : Int)

theorem Consecutive.append {first : Int} {ids : List TokenId} {id : TokenId}
    (consecutive : Consecutive first ids) (isNext : id.toInt = first + ids.length + 1) :
    Consecutive first (ids ++ [id]) := by
  have isLast : id.toInt = first + 1 + ids.length := by omega
  rw [Consecutive, length_append, length_singleton, range_succ, map_append,
    map_append, map_singleton, map_singleton, consecutive, isLast]

structure StateDB.Keeps (sd after : StateDB) (ids : List TokenId) : Prop where
  backed : after.Backed
  issued : ids = [] ∧ after.book.latestTokenID = sd.book.latestTokenID ∨
    ids = [sd.book.nextID] ∧ after.book.latestTokenID = sd.book.nextID ∧
      sd.book.latestTokenID.toInt + 1 < 2 ^ 31
  destroyed : ∀ tokenID token, sd.book.tokens tokenID = some token → token.data.destroyed = true →
    ∃ later, after.book.tokens tokenID = some later ∧ later.data = token.data

theorem Offers.latest {sd after : StateDB} {actionTx : ActionTx}
    {ids : List TokenId} (offers : Offers sd actionTx offering after ids) :
    ids = [] ∧ after.book.latestTokenID = sd.book.latestTokenID ∨
      ids = [sd.book.nextID] ∧ after.book.latestTokenID = sd.book.nextID ∧
        actionTx.action = actionTxActionIPO := by
  cases offers with
  | nothing sameBook => exact .inl ⟨rfl, by rw [sameBook]⟩
  | issued isIPO isBook => exact .inr ⟨rfl, by rw [isBook]; rfl, isIPO⟩
  | reIssued _ _ _ isBook => exact .inl ⟨rfl, by rw [isBook]; rfl⟩
  | destroyed _ isBook => exact .inl ⟨rfl, by rw [isBook]; rfl⟩

theorem StateDB.Executes.keeps {ovm : Ovm} {sd after : StateDB} {txi : Txi} {ids : List TokenId}
    (executes : sd.Executes ovm txi after ids) (backed : sd.Backed) (accepts : sd.Accepts txi)
    (inRange : sd.InRange txi) : sd.Keeps after ids := by
  obtain ⟨sequenceID, answer, processed, rfl⟩ := executes
  have unnoted : ∀ sender, (updateNonce sd sender txi.getNonce).book = sd.book ∧
      (updateNonce sd sender txi.getNonce).Backed := by
    intro sender
    have sameBook := sd.book_updateNonce sender txi.getNonce
    refine ⟨sameBook, ?_⟩
    rw [Backed, sameBook, updateNonce_accounts]
    exact backed
  rcases processTransaction_cases processed with ⟨archive, -⟩ | ⟨sender, -, isSender, executed⟩
  · simp only [Accepts, archive] at accepts
  obtain ⟨sameBook, noted⟩ := unnoted sender
  rcases executed with ⟨actionTx, isType, isBody, isOffer⟩ | ⟨normal, isType, isBody, isNormal⟩ |
    ⟨notAction, notNormal, -⟩
  · simp only [Accepts, isType, isBody] at accepts
    obtain ⟨⟨offering, isData⟩, -⟩ := accepts
    simp only [InRange, isBody] at inRange
    obtain ⟨amount, room⟩ := inRange offering isData
    replace room : actionTx.action = actionTxActionIPO →
        (updateNonce sd sender txi.getNonce).book.latestTokenID.toInt + 1 < 2 ^ 31 := by
      rw [sameBook]
      exact room
    have offers := processTokenTransaction_offers isBody isData
      (fun isIPO => (noted.free (room isIPO)).1) isOffer
    refine ⟨noted.offers amount room offers, ?_, fun tokenID token present isDestroyed => ?_⟩
    · rw [← sameBook]
      rcases offers.latest with unchanged | ⟨isNext, isLatest, isIPO⟩
      · exact .inl unchanged
      · exact .inr ⟨isNext, isLatest, room isIPO⟩
    · rw [← sameBook] at present
      exact offers.destroyed_kept (fun isIPO => (noted.free (room isIPO)).1) present isDestroyed
  · simp only [Accepts, isType, isBody] at accepts
    obtain ⟨noData, enough⟩ := accepts
    simp only [InRange, isBody] at inRange
    rw [processNormal, if_pos noData] at isNormal
    cases isNormal
    have unmoved := (book_transfer _ normal).trans sameBook
    have nothing : issuedBy (.ok txi) = [] := by
      obtain ⟨base, body⟩ := txi
      cases isBody
      rfl
    rw [← getBalance_updateNonce sd sender txi.getNonce] at enough
    refine ⟨noted.transfer inRange enough, .inl ⟨nothing, by rw [unmoved]⟩, ?_⟩
    intro tokenID token present _
    rw [unmoved]
    exact ⟨token, present, rfl⟩
  · unfold Accepts at accepts
    split at accepts
    next isType _ => exact absurd isType notAction
    next isType _ => exact absurd isType notNormal
    · cases accepts

def StateDB.blank : StateDB := newStateDB ∅ .empty

theorem StateDB.blank_backed : StateDB.blank.Backed where
  latest := Int.le_refl 0
  nonneg _ _ _ := Int.le_refl 0
  fresh _ _ := ⟨rfl, fun _ => rfl⟩
  issues _ _ := Finset.sum_eq_zero fun _ _ => rfl

def offeringOf (action : UInt8) (tokenId : TokenId) (value : Int) : Txi :=
  ⟨⟨.action, 1, [], 1, 0, 0⟩, .action ⟨action, 7, .publicOffering ⟨tokenId, value, true, []⟩⟩⟩

def StateDB.after (txi : Txi) : StateDB :=
  match processTransaction .idle 0 sd txi with
  | .ok (_, next) => next
  | .error _ => sd

def StateDB.issues (txi : Txi) : List TokenId :=
  match processTransaction .idle 0 sd txi with
  | .ok (answer, _) => issuedBy answer
  | .error _ => []

theorem StateDB.run_offering {start sd : StateDB} {ids : List TokenId} (action : UInt8)
    (tokenId : TokenId) (value : Int)
    (run : Run (Executes .idle) (fun sd txi => sd.Accepts txi ∧ sd.InRange txi) start sd ids)
    (isAction : action = actionTxActionIPO ∨ action = actionTxActionSPO ∨
      action = actionTxActionDestroy)
    (amount : 0 ≤ value) (room : sd.latestTokenID.toInt + 1 < 2 ^ 31)
    (returns : (processTransaction .idle 0 sd (offeringOf action tokenId value)).isOk = true) :
    Run (Executes .idle) (fun sd txi => sd.Accepts txi ∧ sd.InRange txi) start
      (sd.after (offeringOf action tokenId value))
      (ids ++ sd.issues (offeringOf action tokenId value)) := by
  have accepts : sd.Accepts (offeringOf action tokenId value) := ⟨⟨_, rfl⟩, isAction⟩
  have inRange : sd.InRange (offeringOf action tokenId value) := by
    intro offering isData
    cases isData
    exact ⟨.inr amount, fun _ => room⟩
  refine .next run ⟨accepts, inRange⟩ ?_
  unfold after issues
  cases processed : processTransaction .idle 0 sd (offeringOf action tokenId value) with
  | error panic =>
    rw [processed] at returns
    cases returns
  | ok result => exact ⟨0, result.1, processed, rfl⟩

def StateDB.retired : StateDB :=
  ((StateDB.blank.after (offeringOf actionTxActionIPO 0 50)).after
    (offeringOf actionTxActionSPO 1 5)).after (offeringOf actionTxActionDestroy 1 0)

end AnnchainOG
