import AnnchainOG.Ledger.Process
import AnnchainOG.State.Tokens

/-!
# Execution and the token records

When a transaction can be executed depends, besides its kind, on the token records alone.
-/

namespace AnnchainOG

open FlatDB StateDB

variable (book : TokenBook)

namespace TokenBook

def nextID : TokenId := book.latestTokenID + 1

def issue (token : TokenObject) : TokenBook where
  tokens := Function.update book.tokens book.nextID (some token)
  latestTokenID := book.nextID

def alter (tokenID : TokenId) (change : TokenObject → TokenObject) : TokenBook :=
  { book with
    tokens := Function.update book.tokens tokenID ((book.tokens tokenID).map change) }

/-- A further issue needs a token that was issued since the node started. -/
def canReIssue (tokenID : TokenId) : Bool :=
  match book.tokens tokenID with
  | none => false
  | some token => !token.data.destroyed && token.data.reIssuable && token.db

def canDestroy (tokenID : TokenId) : Bool :=
  match book.tokens tokenID with
  | none => false
  | some token => token.db

def allowsAction (action : UInt8) (offering : PublicOffering) : Bool :=
  if action = actionTxActionIPO then (book.tokens book.nextID).isNone
  else if action = actionTxActionSPO then book.canReIssue offering.tokenId
  else if action = actionTxActionDestroy then book.canDestroy offering.tokenId
  else false

def allows (txi : Txi) : Bool :=
  match txi.getType, txi.body with
  | .action, .action actionTx =>
    match actionTx.actionData with
    | .requestDomain _ => false
    | .publicOffering offering => book.allowsAction actionTx.action offering
  | .action, _ => false
  | .normal, .tx _ => true
  | .normal, _ => false
  | _, _ => true

def afterAction (actionTx : ActionTx) (offering : PublicOffering) : TokenBook :=
  if actionTx.action = actionTxActionIPO then
    book.issue (.new actionTx.sender offering.tokenName [] offering.enableSPO offering.value)
  else if actionTx.action = actionTxActionSPO then
    book.alter offering.tokenId (·.addIssue offering.value)
  else book.alter offering.tokenId (·.setDestroyed true)

def after (txi : Txi) : TokenBook :=
  match txi.getType, txi.body with
  | .action, .action actionTx =>
    match actionTx.actionData with
    | .requestDomain _ => book
    | .publicOffering offering => book.afterAction actionTx offering
  | _, _ => book

def allowsAll (book : TokenBook) : List Txi → Bool
  | [] => true
  | txi :: txs => book.allows txi && (book.after txi).allowsAll txs

end TokenBook

namespace StateDB

variable (sd : StateDB)

theorem book_touch (addr : Address) : (sd.getStateObject addr).2.book = sd.book := by
  obtain ⟨loaded, found, sameAbs, -⟩ := sd.getStateObject_spec addr
  rw [found]
  exact congrArg (fun db : FlatDB => db.1.tokenPart) sameAbs

theorem book_updateNonce (sender : Address) (nonce : UInt64) :
    (updateNonce sd sender nonce).book = sd.book := by
  unfold updateNonce
  simp only
  split
  · refine Eq.trans (book_of_quiet ?_) (sd.book_touch sender)
    rw [abs_setNonce]
    exact setNonce_quiet _ _ _
  · exact sd.book_touch sender

theorem book_transfer (tx : Tx) : (transfer sd tx).book = sd.book := by
  unfold transfer
  split
  · refine book_of_quiet ?_
    rw [abs_addBalance, abs_subBalance]
    exact (subBalance_quiet _ _ _ _).trans (addBalance_quiet _ _ _ _)
  · rfl

theorem issueToken_book (issuer : Address) (name symbol : Bytes) (reIssuable : Bool)
    (fstIssue : Int) :
    ((sd.book.tokens sd.book.nextID).isSome = true ∧
        ∃ error after, sd.issueToken issuer name symbol reIssuable fstIssue = (.error error, after)) ∨
      (sd.book.tokens sd.book.nextID = none ∧ ∃ after,
        sd.issueToken issuer name symbol reIssuable fstIssue = (.ok sd.book.nextID, after) ∧
        after.book = sd.book.issue (.new issuer name symbol reIssuable fstIssue)) := by
  have simulated := sd.abs_issueToken issuer name symbol reIssuable fstIssue
  cases result : sd.issueToken issuer name symbol reIssuable fstIssue with
  | mk answer after =>
    simp only [result, FlatDB.issueToken] at simulated
    split at simulated
    next present =>
      obtain ⟨isAnswer, -⟩ := Prod.ext_iff.mp simulated
      subst isAnswer
      exact .inl ⟨Option.isSome_iff_exists.mpr ⟨_, present⟩, _, after, rfl⟩
    next free =>
      obtain ⟨isAnswer, isAfter⟩ := Prod.ext_iff.mp simulated
      subst isAnswer
      refine .inr ⟨free, after, rfl, ?_⟩
      exact (congrArg (fun db : FlatDB => db.1.tokenPart) isAfter).trans
        (setBalance_quiet _ _ _ _).tokenPart

private theorem token_result {call : Except Panic (Except TokenError Unit × StateDB)}
    {abstract : FlatDB}
    (simulated : call.map (fun result => (result.1, result.2.abs)) = .ok (.ok (), abstract)) :
    ∃ after, call = .ok (.ok (), after) := by
  cases call with
  | error panic => cases simulated
  | ok result =>
    obtain ⟨answer, after⟩ := result
    obtain rfl : answer = .ok () := congrArg Prod.fst (Except.ok.inj simulated)
    exact ⟨after, rfl⟩

section

variable {sd} {after : StateDB} {tokenID : TokenId} {amount : Int}

theorem reIssueToken_book (success : sd.reIssueToken tokenID amount = .ok (.ok (), after)) :
    sd.book.canReIssue tokenID = true ∧ after.book = sd.book.alter tokenID (·.addIssue amount) := by
  have simulated := sd.abs_reIssueToken tokenID amount
  rw [success] at simulated
  rcases reIssueToken_cases simulated.symm with ⟨-, refused⟩ | ⟨token, found, can, isAfter⟩
  · exact absurd rfl refused
  have isToken : sd.book.tokens tokenID = some token := found
  rw [TokenBook.canReIssue, TokenBook.alter, isToken]
  refine ⟨can, (congrArg (fun db : FlatDB => db.1.tokenPart) isAfter).trans ?_⟩
  exact (addBalance_quiet _ _ _ _).tokenPart

theorem reIssueToken_ok (amount : Int) (can : sd.book.canReIssue tokenID = true) :
    ∃ after, sd.reIssueToken tokenID amount = .ok (.ok (), after) := by
  have simulated := sd.abs_reIssueToken tokenID amount
  unfold TokenBook.canReIssue at can
  split at can
  · cases can
  rename_i token found
  replace found : sd.abs.1.tokens tokenID = some token := found
  simp only [Bool.and_eq_true, Bool.not_eq_true'] at can
  simp only [FlatDB.reIssueToken, found, can, Bool.not_true, Bool.false_eq_true, if_false] at simulated
  exact token_result simulated

theorem destroyToken_book (success : sd.destroyToken tokenID = .ok (.ok (), after)) :
    sd.book.canDestroy tokenID = true ∧
      after.book = sd.book.alter tokenID (·.setDestroyed true) := by
  have simulated := sd.abs_destroyToken tokenID
  rw [success] at simulated
  rcases destroyToken_cases simulated.symm with ⟨-, refused⟩ | ⟨token, found, can, isAfter⟩
  · exact absurd rfl refused
  have isToken : sd.book.tokens tokenID = some token := found
  rw [TokenBook.canDestroy, TokenBook.alter, isToken]
  exact ⟨can, congrArg (fun db : FlatDB => db.1.tokenPart) isAfter⟩

theorem destroyToken_ok (can : sd.book.canDestroy tokenID = true) :
    ∃ after, sd.destroyToken tokenID = .ok (.ok (), after) := by
  have simulated := sd.abs_destroyToken tokenID
  unfold TokenBook.canDestroy at can
  split at can
  · cases can
  rename_i token found
  replace found : sd.abs.1.tokens tokenID = some token := found
  simp only [FlatDB.destroyToken, found, can, Bool.not_true, Bool.false_eq_true, if_false] at simulated
  exact token_result simulated

end

end StateDB

/-! ## Execution -/

theorem processTokenTransaction_book {sd after : StateDB} {tx processed : Txi} {actionTx : ActionTx}
    (success : processTokenTransaction sd tx actionTx = .ok (.ok processed, after)) :
    ∃ offering, actionTx.actionData = .publicOffering offering ∧
      sd.book.allowsAction actionTx.action offering = true ∧
      after.book = sd.book.afterAction actionTx offering := by
  obtain ⟨offering, isData, executed⟩ := processTokenTransaction_cases success
  refine ⟨offering, isData, ?_⟩
  unfold TokenBook.allowsAction TokenBook.afterAction
  rcases executed with ⟨isIPO, answer, issued, isAnswer⟩ | ⟨isSPO, answer, done, isAnswer⟩ |
    ⟨isDestroy, answer, done, isAnswer⟩ | ⟨isAnswer, -⟩
  · rw [if_pos isIPO, if_pos isIPO]
    rcases sd.issueToken_book actionTx.sender offering.tokenName [] offering.enableSPO
      offering.value with ⟨-, _, _, failed⟩ | ⟨free, _, succeeded, isBook⟩
    · cases issued.symm.trans failed
      cases isAnswer
    · cases issued.symm.trans succeeded
      exact ⟨by simp [free], isBook⟩
  · cases answer with
    | error => cases isAnswer
    | ok =>
      rw [isSPO]
      exact reIssueToken_book done
  · cases answer with
    | error => cases isAnswer
    | ok =>
      rw [isDestroy]
      exact destroyToken_book done
  · cases isAnswer

theorem processNormal_book {ovm : Ovm} {sequenceID : UInt64} {sd after : StateDB} {txi : Txi}
    {tx : Tx} {answer : Except ProcessError Txi}
    (success : processNormal ovm sequenceID sd txi tx = .ok (answer, after)) :
    after.book = sd.book := by
  unfold processNormal at success
  split at success
  · cases success
    exact sd.book_transfer tx
  obtain ⟨⟨outcome, next⟩, executed, rest⟩ := bind_ok success
  cases rest
  obtain ⟨ops, quiet, ran⟩ := ovm.driven executed
  exact (book_run quiet ran).trans (sd.book_transfer tx)

theorem processTransaction_book {ovm : Ovm} {sequenceID : UInt64} {sd after : StateDB}
    {tx processed : Txi}
    (success : processTransaction ovm sequenceID sd tx = .ok (.ok processed, after)) :
    sd.book.allows tx = true ∧ after.book = sd.book.after tx := by
  unfold TokenBook.allows TokenBook.after
  rcases processTransaction_cases success with ⟨archive, -, rfl⟩ | ⟨sender, -, -, executed⟩
  · simp [archive]
  have noted := sd.book_updateNonce sender tx.getNonce
  rcases executed with ⟨actionTx, isType, isBody, processed⟩ | ⟨normal, isType, isBody, processed⟩ |
    ⟨notAction, notNormal, -, rfl⟩
  · obtain ⟨offering, isData, allowed, isBook⟩ := processTokenTransaction_book processed
    rw [noted] at allowed isBook
    simp only [isType, isBody, isData]
    exact ⟨allowed, isBook⟩
  · simp only [isType, isBody]
    exact ⟨trivial, (processNormal_book processed).trans noted⟩
  · rw [noted]
    cases tag : tx.getType with
    | action => exact absurd tag notAction
    | normal => exact absurd tag notNormal
    | _ => exact ⟨by simp, rfl⟩

theorem processTokenTransaction_ok {sd : StateDB} (tx : Txi) {actionTx : ActionTx}
    {offering : PublicOffering} (isData : actionTx.actionData = .publicOffering offering)
    (allowed : sd.book.allowsAction actionTx.action offering = true) :
    ∃ processed after, processTokenTransaction sd tx actionTx = .ok (.ok processed, after) := by
  unfold TokenBook.allowsAction at allowed
  simp only [processTokenTransaction, isData]
  split at allowed
  next isIPO =>
    rw [if_pos isIPO]
    rcases sd.issueToken_book actionTx.sender offering.tokenName [] offering.enableSPO
      offering.value with ⟨taken, -⟩ | ⟨-, _, issued, -⟩
    · simp [Option.isNone_iff_eq_none.mp allowed] at taken
    · simp only [issued]
      exact ⟨_, _, rfl⟩
  next notIPO =>
    rw [if_neg notIPO]
    split at allowed
    next isSPO =>
      rw [if_pos isSPO]
      obtain ⟨after, done⟩ := reIssueToken_ok offering.value allowed
      simp only [done]
      exact ⟨_, _, rfl⟩
    next notSPO =>
      rw [if_neg notSPO]
      split at allowed
      next isDestroy =>
        rw [if_pos isDestroy]
        obtain ⟨after, done⟩ := destroyToken_ok allowed
        simp only [done]
        exact ⟨_, _, rfl⟩
      · cases allowed

def Txi.noData (txi : Txi) : Bool :=
  match txi.body with
  | .tx tx => tx.data = []
  | _ => true

theorem processTransaction_ok (ovm : Ovm) (sequenceID : UInt64) {sd : StateDB} {tx : Txi}
    (noData : tx.noData = true) (sends : tx.getType = .archive ∨ ∃ sender, tx.sender = .ok sender)
    (allowed : sd.book.allows tx = true) :
    ∃ processed after, processTransaction ovm sequenceID sd tx = .ok (.ok processed, after) := by
  by_cases archive : tx.getType = .archive
  · exact ⟨tx, sd, if_pos archive⟩
  obtain ⟨sender, isSender⟩ := sends.resolve_left archive
  rw [← sd.book_updateNonce sender tx.getNonce] at allowed
  unfold TokenBook.allows at allowed
  simp only [processTransaction, if_neg archive, isSender, bind, Except.bind]
  split at allowed
  next actionTx isType isBody =>
    simp only [isType, isBody]
    split at allowed
    · cases allowed
    next offering isData => exact processTokenTransaction_ok tx isData allowed
  · cases allowed
  next normal isType isBody =>
    simp only [Txi.noData, isBody, decide_eq_true_eq] at noData
    simp only [isType, isBody, processNormal, if_pos noData]
    exact ⟨_, _, rfl⟩
  · cases allowed
  next notAction notNormal _ _ =>
    cases tag : tx.getType with
    | action => exact absurd tag notAction
    | normal => exact absurd tag notNormal
    | _ => exact ⟨_, _, rfl⟩

theorem processAll_ok_iff (ovm : Ovm) (sequenceID : UInt64) {txs : List Txi}
    (noData : ∀ tx ∈ txs, tx.noData = true)
    (sends : ∀ tx ∈ txs, tx.getType = .archive ∨ ∃ sender, tx.sender = .ok sender) (sd : StateDB) :
    (∃ processed after, processAll ovm sequenceID sd txs = .ok (.ok processed, after)) ↔
      sd.book.allowsAll txs = true := by
  induction txs generalizing sd with
  | nil => simp [processAll, TokenBook.allowsAll]
  | cons tx txs earlier =>
    have restIff := earlier (fun tx member => noData tx (.tail _ member))
      (fun tx member => sends tx (.tail _ member))
    rw [TokenBook.allowsAll, Bool.and_eq_true]
    constructor
    · rintro ⟨processed, after, success⟩
      obtain ⟨first, next, rest, executed, succeeded, -⟩ := processAll_ok success
      obtain ⟨allowed, isBook⟩ := processTransaction_book executed
      exact ⟨allowed, isBook ▸ (restIff next).mp ⟨rest, after, succeeded⟩⟩
    · rintro ⟨allowed, allowedRest⟩
      obtain ⟨first, next, executed⟩ := processTransaction_ok ovm sequenceID
        (noData tx (.head _)) (sends tx (.head _)) allowed
      rw [← (processTransaction_book executed).2] at allowedRest
      obtain ⟨rest, after, succeeded⟩ := (restIff next).mpr allowedRest
      refine ⟨first :: rest, after, ?_⟩
      simp [processAll, executed, succeeded, bind, Except.bind, pure, Except.pure, Except.map]

/-! ## Token ids -/

def Txi.issues (txi : Txi) : Bool :=
  match txi.getType, txi.body with
  | .action, .action actionTx =>
    match actionTx.actionData with
    | .requestDomain _ => false
    | .publicOffering _ => actionTx.action = actionTxActionIPO
  | _, _ => false

/-- No token id is among the negative ones, which are never marked for writing. -/
structure TokenBook.Numbered (book : TokenBook) : Prop where
  latest : 0 ≤ book.latestTokenID.toInt
  tokens : ∀ tokenID, tokenID ≤ tokenNotDirtied → book.tokens tokenID = none

namespace TokenBook

variable {book : TokenBook}

theorem after_sequencer (seq : Sequencer) : book.after seq.txi = book := by
  unfold TokenBook.after
  cases seq.txi.getType <;> rfl

theorem nextID_toInt (nonneg : 0 ≤ book.latestTokenID.toInt)
    (room : book.latestTokenID.toInt + 1 < 2 ^ 31) :
    book.nextID.toInt = book.latestTokenID.toInt + 1 := by
  rw [nextID, Int32.toInt_add, show (1 : Int32).toInt = 1 from rfl]
  exact Int.bmod_eq_of_le (by omega) (by omega)

private theorem Numbered.issue (numbered : book.Numbered) (token : TokenObject)
    (room : book.latestTokenID.toInt + 1 < 2 ^ 31) : (book.issue token).Numbered := by
  have next := nextID_toInt numbered.latest room
  have nonneg := numbered.latest
  refine ⟨?_, ?_⟩
  · show 0 ≤ book.nextID.toInt
    omega
  · intro tokenID uncounted
    have different : tokenID ≠ book.nextID := by
      rintro rfl
      have negative : book.nextID.toInt ≤ -1 := Int32.le_iff_toInt_le.mp uncounted
      omega
    exact (Function.update_of_ne different _ _).trans (numbered.tokens tokenID uncounted)

private theorem Numbered.alter (numbered : book.Numbered) (altered : TokenId)
    (change : TokenObject → TokenObject) : (book.alter altered change).Numbered := by
  refine ⟨numbered.latest, ?_⟩
  intro tokenID uncounted
  have absent := numbered.tokens tokenID uncounted
  by_cases same : tokenID = altered
  · subst same
    simp [TokenBook.alter, absent]
  · exact (Function.update_of_ne same _ _).trans absent

private theorem Numbered.afterAction (numbered : book.Numbered) {actionTx : ActionTx}
    {offering : PublicOffering} (room : book.latestTokenID.toInt +
      ((if actionTx.action = actionTxActionIPO then 1 else 0 : Nat) : Int) < 2 ^ 31) :
    (book.afterAction actionTx offering).Numbered ∧
      (book.afterAction actionTx offering).latestTokenID.toInt = book.latestTokenID.toInt +
        ((if actionTx.action = actionTxActionIPO then 1 else 0 : Nat) : Int) := by
  unfold TokenBook.afterAction
  by_cases isIPO : actionTx.action = actionTxActionIPO
  · rw [if_pos isIPO] at room
    rw [if_pos isIPO, if_pos isIPO]
    exact ⟨numbered.issue _ room, nextID_toInt numbered.latest room⟩
  · rw [if_neg isIPO, if_neg isIPO]
    split
    · exact ⟨numbered.alter _ _, (Int.add_zero _).symm⟩
    · exact ⟨numbered.alter _ _, (Int.add_zero _).symm⟩

theorem Numbered.after (numbered : book.Numbered) {txi : Txi}
    (room : book.latestTokenID.toInt + ((if txi.issues then 1 else 0 : Nat) : Int) < 2 ^ 31) :
    (book.after txi).Numbered ∧ (book.after txi).latestTokenID.toInt =
        book.latestTokenID.toInt + ((if txi.issues then 1 else 0 : Nat) : Int) := by
  have unchanged : book.Numbered ∧
      book.latestTokenID.toInt = book.latestTokenID.toInt + ((0 : Nat) : Int) :=
    ⟨numbered, (Int.add_zero _).symm⟩
  unfold TokenBook.after
  unfold Txi.issues at room ⊢
  cases isType : txi.getType with
  | action =>
    cases isBody : txi.body with
    | action actionTx =>
      cases isData : actionTx.actionData with
      | requestDomain =>
        simp only [isData]
        exact unchanged
      | publicOffering offering =>
        simp only [isType, isBody, isData, decide_eq_true_eq] at room ⊢
        exact numbered.afterAction room
    | _ => exact unchanged
  | _ => exact unchanged

end TokenBook

theorem processAll_numbered {ovm : Ovm} {sequenceID : UInt64} {sd after : StateDB}
    {txs processed : List Txi}
    (success : processAll ovm sequenceID sd txs = .ok (.ok processed, after))
    (numbered : sd.book.Numbered)
    (room : sd.book.latestTokenID.toInt + txs.countP Txi.issues < 2 ^ 31) :
    after.book.Numbered := by
  induction txs generalizing sd processed with
  | nil =>
    cases success
    exact numbered
  | cons tx txs ih =>
    rw [List.countP_cons, Int.natCast_add] at room
    obtain ⟨first, next, rest, executed, succeeded, -⟩ := processAll_ok success
    obtain ⟨-, isBook⟩ := processTransaction_book executed
    obtain ⟨nextNumbered, latest⟩ := @TokenBook.Numbered.after _ numbered tx (by omega)
    rw [← isBook] at nextNumbered latest
    exact ih succeeded nextNumbered (by omega)

end AnnchainOG
