import AnnchainOG.Pool.Nonces

/-!
# Who may change a token

Only the pool, when it admits the action, compares the sender of a further issue or of a destruction
with the issuer of the token.
-/

namespace AnnchainOG

open Option TxPool

/-! ## Records keep their issuer -/

namespace TokenBook

variable {book : TokenBook} {tokenID : TokenId}

def issuer (book : TokenBook) (tokenID : TokenId) : Option Address :=
  (book.tokens tokenID).map fun token => token.data.issuer

theorem issuer_alter {change : TokenObject → TokenObject}
    (keeps : ∀ token, (change token).data.issuer = token.data.issuer) (other : TokenId) :
    (book.alter tokenID change).issuer other = book.issuer other := by
  unfold issuer alter
  by_cases same : other = tokenID
  · subst same
    simp only [Function.update_self, map_map]
    congr 1
    exact funext keeps
  · simp only [Function.update_of_ne same]

theorem issuer_after {txi : Txi} (allowed : book.allows txi = true)
    {owner : Address} (isOwner : book.issuer tokenID = some owner) :
    (book.after txi).issuer tokenID = some owner := by
  unfold after
  unfold allows at allowed
  split
  next actionTx isType isBody =>
    simp only [isType, isBody] at allowed
    split
    · exact isOwner
    rename_i offering isData
    simp only [isData] at allowed
    unfold afterAction
    split
    next isIPO =>
      rw [allowsAction, if_pos isIPO] at allowed
      unfold issuer issue
      have different : tokenID ≠ book.nextID := by
        rintro rfl
        rw [issuer, isNone_iff_eq_none.mp allowed] at isOwner
        cases isOwner
      simp only [Function.update_of_ne different]
      exact isOwner
    · split
      · refine (issuer_alter ?_ tokenID).trans isOwner
        exact fun _ => rfl
      · refine (issuer_alter ?_ tokenID).trans isOwner
        exact fun _ => rfl
  · exact isOwner

end TokenBook

theorem processAll_issuer {ovm : Ovm} {sequenceID : UInt64} {txs processed : List Txi}
    {sd after : StateDB} {tokenID : TokenId} {owner : Address}
    (success : processAll ovm sequenceID sd txs = .ok (.ok processed, after))
    (isOwner : sd.book.issuer tokenID = some owner) : after.book.issuer tokenID = some owner := by
  induction txs generalizing sd processed with
  | nil =>
    cases success
    exact isOwner
  | cons tx txs ih =>
    obtain ⟨first, between, rest, done, later, -⟩ := processAll_ok success
    obtain ⟨allowed, isBook⟩ := processTransaction_book done
    refine ih later ?_
    rw [isBook]
    exact TokenBook.issuer_after allowed isOwner

/-! ## What was judged good has the authority -/

def ActionTx.alters (actionTx : ActionTx) : Prop :=
  actionTx.action = actionTxActionSPO ∨ actionTx.action = actionTxActionDestroy

namespace TxPool

variable {pool : TxPool} {sender : Address} {offering : PublicOffering}

def HasAuthority (dag : Dag) (_ : AccountFlows) (tx : Txi) : Prop :=
  tx.getType ≠ .archive → ∀ actionTx, tx.body = .action actionTx → actionTx.alters →
    ∃ offering, actionTx.actionData = .publicOffering offering ∧
      offering.tokenId ≠ ogTokenID ∧
      (dag.getToken offering.tokenId).map TokenData.issuer = some actionTx.sender

theorem spoQuality_good (good : pool.spoQuality sender offering = .isGood) :
    offering.tokenId ≠ ogTokenID ∧
      (pool.dag.getToken offering.tokenId).map TokenData.issuer = some sender := by
  unfold spoQuality at good
  split at good
  · cases good
  rename_i notOg
  split at good
  · cases good
  rename_i token found
  split at good
  · cases good
  split at good
  · cases good
  split at good
  · cases good
  next isIssuer => exact ⟨notOg, by rw [found, map_some, not_not.mp isIssuer]⟩

theorem destroyQuality_good (good : pool.destroyQuality sender offering = .isGood) :
    offering.tokenId ≠ ogTokenID ∧
      (pool.dag.getToken offering.tokenId).map TokenData.issuer = some sender := by
  unfold destroyQuality at good
  split at good
  · cases good
  rename_i notOg
  split at good
  · cases good
  rename_i token found
  split at good
  · cases good
  split at good
  · cases good
  next isIssuer => exact ⟨notOg, by rw [found, map_some, not_not.mp isIssuer]⟩

theorem hasAuthority_stable : Stable HasAuthority where
  established := by
    intro pool tx flows admits notArchive actionTx isBody alters
    obtain ⟨-, -, -, goodContent⟩ := isBadTx_good admits.1 notArchive
    rw [contentQuality, isBody] at goodContent
    simp only [actionQuality] at goodContent
    rcases alters with isSPO | isDestroy
    · rw [if_pos isSPO] at goodContent
      split at goodContent
      next offering isData => exact ⟨offering, isData, spoQuality_good (Except.ok.inj goodContent)⟩
      · cases goodContent
    · have notSPO : ¬ actionTx.action = actionTxActionSPO := by
        rw [isDestroy]
        decide
      rw [if_neg notSPO, if_pos isDestroy] at goodContent
      split at goodContent
      next offering isData =>
        exact ⟨offering, isData, destroyQuality_good (Except.ok.inj goodContent)⟩
      · cases goodContent
  undone := by
    intro dag after flows tx same authority notArchive actionTx isBody alters
    obtain ⟨offering, isData, notOg, isIssuer⟩ := authority notArchive actionTx isBody alters
    exact ⟨offering, isData, notOg, by rw [same.getToken]; exact isIssuer⟩
  kept := fun _ authority => authority
  sequencers := nofun

theorem issuer_of_getToken {dag : Dag} {tokenID : TokenId} {owner : Address}
    (isIssuer : (dag.getToken tokenID).map TokenData.issuer = some owner) :
    dag.statedb.book.issuer tokenID = some owner := by
  unfold Dag.getToken at isIssuer
  split at isIssuer
  · cases isIssuer
  · rw [StateDB.getToken_eq, map_map] at isIssuer
    exact isIssuer

/-- Executed in the state `sd`, with success, while the batch of a submitted sequencer is pushed. -/
def Executes (ovm : Ovm) (pool : TxPool) (txType : TxType) (seq : Sequencer) (tx : Txi)
    (sd : StateDB) : Prop :=
  pool.get seq.base.hash = none ∧ ∃ batch before rest done processed after,
    (pool.enqueue txType seq.txi).confirmHelper seq = .ok batch ∧
    Dag.executionOrder batch = before ++ tx :: rest ∧
    processAll ovm pool.dag.latestSequencer.base.height pool.dag.statedb.snapshot.2 before =
      .ok (.ok done, sd) ∧
    processTransaction ovm pool.dag.latestSequencer.base.height sd tx = .ok (.ok processed, after)

end TxPool

/-- The token was issued by the sender; a further issue needs one that allows it and is not
destroyed. -/
def TokenBook.authorizes (book : TokenBook) (actionTx : ActionTx) : Prop :=
  ∃ offering token, actionTx.actionData = .publicOffering offering ∧
    offering.tokenId ≠ ogTokenID ∧ book.tokens offering.tokenId = some token ∧
    token.data.issuer = actionTx.sender ∧
    (actionTx.action = actionTxActionSPO →
      token.data.reIssuable = true ∧ token.data.destroyed = false)

/-- In every run in which no sequencer has a bad ancestor, executed further issues and destructions
are authorized. -/
theorem executed_actions_authorized (ovm : Ovm) (dag : Dag) (genesis : Sequencer)
    (tagged : genesis.txi.Tagged) (pool : TxPool) (batches : List ConfirmBatch)
    (run : Run (TxPool.Submits ovm) TxPool.CleanInput (.init dag genesis) pool batches)
    (txType : TxType) (seq : Sequencer) (clean : pool.CleanInput (txType, seq.txi))
    (tx : Txi) (sd : StateDB) (executes : pool.Executes ovm txType seq tx sd)
    (actionTx : ActionTx) (isType : tx.getType = .action) (isBody : tx.body = .action actionTx)
    (alters : actionTx.alters) : sd.book.authorizes actionTx := by
  obtain ⟨regular, authority⟩ : pool.Regular ∧ pool.GoodHold TxPool.HasAuthority := by
    refine Run.invariant (motive := fun state _ =>
      state.Regular ∧ state.GoodHold TxPool.HasAuthority)
      ⟨init_regular dag tagged,
        init_goodHold hasAuthority_stable dag genesis⟩ ?_ run
    rintro state after outputs new input ⟨isRegular, hold⟩ isClean submits
    obtain ⟨nextRegular, step⟩ := submits.step isRegular isClean.1
    exact ⟨nextRegular, step.goodHold hasAuthority_stable hold⟩
  obtain ⟨absent, batch, before, rest, done, processed, after, accepted, isOrder, executed,
    succeeded⟩ := executes
  have absent : pool.txLookup.getEnvelope seq.txi.getTxHash = none := map_eq_none_iff.mp absent
  obtain ⟨-, -, elders, -, verified⟩ := confirmHelper_ok accepted
  obtain rfl := verified.isSeq
  -- The executed transaction is one of the batch at its new height, and was judged good.
  obtain ⟨original, inBatch, rfl⟩ : ∃ original ∈ batch.txs,
      tx = original.setHeight batch.seq.base.height := by
    refine Dag.mem_executionOrder ?_
    rw [isOrder]
    exact List.mem_append_right _ List.mem_cons_self
  obtain ⟨h, txEnv, found, good, rfl⟩ := batch_good clean absent accepted original inBatch
  have notArchive : txEnv.tx.getType ≠ .archive := by
    intro archive
    have isAction : txEnv.tx.getType = .action := isType
    rw [archive] at isAction
    cases isAction
  obtain ⟨offering, isData, notOg, isIssuer⟩ :=
    authority h txEnv found good notArchive actionTx isBody alters
  have owned := processAll_issuer executed (issuer_of_getToken isIssuer)
  obtain ⟨allowed, -⟩ := processTransaction_book succeeded
  obtain ⟨token, present, owner⟩ := map_eq_some_iff.mp owned
  refine ⟨offering, token, isData, notOg, present, owner, fun isSPO => ?_⟩
  have canReIssue : sd.book.canReIssue offering.tokenId = true := by
    unfold TokenBook.allows at allowed
    simp only [isType, isBody, isData] at allowed
    have notIPO : ¬ actionTx.action = actionTxActionIPO := by
      rw [isSPO]
      decide
    rwa [TokenBook.allowsAction, if_neg notIPO, if_pos isSPO] at allowed
  rw [TokenBook.canReIssue, present] at canReIssue
  simp only [Bool.and_eq_true, Bool.not_eq_eq_eq_not, Bool.not_true] at canReIssue
  exact ⟨canReIssue.1.2, canReIssue.1.1⟩

def Sequencer.following (parents : List Hash) : Sequencer :=
  ⟨⟨.sequencer, 102, parents, 2, 2, 0⟩, 9⟩

def reissuing (sender : Address) (nonce : UInt64) : Txi :=
  ⟨⟨.action, 3, [101], nonce, 0, 0⟩,
    .action ⟨actionTxActionSPO, sender, .publicOffering ⟨1, 1000, true, []⟩⟩⟩

def TxPool.issued : TxPool :=
  (TxPool.genesis.after issuing).after (Sequencer.confirming [1]).txi

theorem executed_actions_authorized_reissue :
    ∃ pool batches sd, Run (TxPool.Submits .idle) TxPool.CleanInput .genesis pool batches ∧
      pool.Executes .idle .localTx (.following [3]) ((reissuing 7 2).setHeight 2) sd ∧
      sd.book.authorizes ⟨actionTxActionSPO, 7, .publicOffering ⟨1, 1000, true, []⟩⟩ := by
  have opened : Run (TxPool.Submits .idle) TxPool.CleanInput .genesis .genesis [] := .start
  have admitted := run_after issuing opened (cleanInput_of_noSequencer nofun) rfl
  have issued := run_after (Sequencer.confirming [1]).txi admitted
    (cleanInput_of_all_good (fun _ _ => rfl) rfl) rfl
  have run := run_after (reissuing 7 2) issued (cleanInput_of_noSequencer nofun) rfl
  have executes : (TxPool.issued.after (reissuing 7 2)).Executes .idle .localTx (.following [3])
      ((reissuing 7 2).setHeight 2) _ :=
    ⟨rfl, ⟨.following [3], [reissuing 7 2]⟩, [], [], [], _, _, rfl, rfl, rfl, rfl⟩
  exact ⟨_, _, _, run, executes, executed_actions_authorized .idle _ _ (fun _ _ => rfl) _ _ run
    .localTx (.following [3]) (cleanInput_of_all_good (fun _ _ => rfl) rfl) _ _ executes _
    rfl rfl (.inl rfl)⟩

def competing : Txi := ⟨⟨.campaign, 2, [101], 1, 0, 0⟩, .campaign 8⟩

/-- Account 8 issues more of the token of account 7: its action is bad, so its sender is not
compared with the issuer, and it is confirmed. -/
theorem foreign_reissue_executed :
    ∃ pool next batches sd, Run (TxPool.Submits .idle) (fun _ _ => True) .genesis pool batches ∧
      pool.Submits .idle (.localTx, (Sequencer.following [3]).txi) next
        [⟨.following [3], [reissuing 8 1]⟩] ∧
      pool.Executes .idle .localTx (.following [3]) ((reissuing 8 1).setHeight 2) sd ∧
      sd.book.issuer 1 = some 7 ∧
      ¬ sd.book.authorizes ⟨actionTxActionSPO, 8, .publicOffering ⟨1, 1000, true, []⟩⟩ ∧
      pool.dag.getBalance 7 1 = 50 ∧ next.dag.getBalance 7 1 = 1050 := by
  have opened : Run (TxPool.Submits .idle) (fun _ _ => True) .genesis .genesis [] := .start
  have admitted := run_after issuing opened trivial rfl
  have issued := run_after (Sequencer.confirming [1]).txi admitted trivial rfl
  have campaign := run_after competing issued trivial rfl
  have run := run_after (reissuing 8 1) campaign trivial rfl
  refine ⟨_, _, _, _, run, ⟨_, rfl, rfl⟩,
    ⟨rfl, ⟨.following [3], [reissuing 8 1]⟩, [], [], [], _, _, rfl, rfl, rfl, rfl⟩, rfl, ?_, rfl, rfl⟩
  rintro ⟨offering, token, isData, -, present, isIssuer, -⟩
  cases isData
  cases present
  cases isIssuer

end AnnchainOG
