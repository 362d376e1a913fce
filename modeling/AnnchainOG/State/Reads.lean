import AnnchainOG.State.Commit

/-!
# Reads after writes

What single reads answer after the operations that executing transactions is made of, and after a
commit.
-/

namespace AnnchainOG

open Function

namespace Flat

def accountAt (flat : Flat) (addr : Address) : Account :=
  (flat.accounts addr).getD .new

theorem accountAt_setAccount (flat : Flat) (addr : Address) (account : Account) :
    (flat.setAccount addr (some account)).accountAt =
      Function.update flat.accountAt addr account := by
  funext other
  by_cases same : other = addr
  · subst same
    simp [accountAt, setAccount]
  · simp [accountAt, setAccount, same]

end Flat

namespace FlatDB

variable (db : FlatDB)
variable (tokenID : TokenId) {answer : Except TokenError Unit} {after : FlatDB}

variable (addr : Address)

theorem ensure_eq :
    (db.ensure addr).1 = db.1.accountAt addr ∧ (db.ensure addr).2.1.accountAt = db.1.accountAt := by
  unfold ensure
  cases found : db.1.accounts addr with
  | some account => simp [Flat.accountAt, found]
  | none =>
    have absent : db.1.accountAt addr = .new := by simp [Flat.accountAt, found]
    refine ⟨absent.symm, ?_⟩
    simp only [createAccount, found, write, Flat.accountAt_setAccount, ← absent, update_eq_self]

theorem mutate_accountAt (entry : Account → Entry) (change : Account → Account) :
    (db.mutate addr entry change).1.accountAt =
      Function.update db.1.accountAt addr (change (db.1.accountAt addr)) := by
  obtain ⟨isAccount, sameAccounts⟩ := db.ensure_eq addr
  simp only [mutate, write, Flat.accountAt_setAccount, isAccount, sameAccounts]

theorem setBalance_balances (value : Int) (other : Address) :
    ((db.setBalance addr tokenID value).1.accountAt other).balances =
      if other = addr then (db.1.accountAt addr).balances.set tokenID (some value)
      else (db.1.accountAt other).balances := by
  rw [setBalance, mutate_accountAt, update_apply]
  split <;> rfl

def nonces (db : FlatDB) (addr : Address) : UInt64 :=
  (db.1.accountAt addr).nonce

theorem nonces_setBalance (value : Int) :
    (db.setBalance addr tokenID value).nonces = db.nonces := by
  funext other
  rw [nonces, setBalance, mutate_accountAt, update_apply]
  split
  next same =>
    rw [same]
    rfl
  · rfl

theorem nonces_ensure : (db.ensure addr).2.nonces = db.nonces := by
  funext other
  rw [nonces, (db.ensure_eq addr).2]
  rfl

theorem nonces_addBalance (increment : Int) :
    (db.addBalance addr tokenID increment).nonces = db.nonces := by
  unfold addBalance
  split
  · rfl
  · exact (nonces_setBalance _ _ _ _).trans (db.nonces_ensure addr)

theorem nonces_subBalance (decrement : Int) :
    (db.subBalance addr tokenID decrement).nonces = db.nonces := by
  unfold subBalance
  split
  · rfl
  · exact (nonces_setBalance _ _ _ _).trans (db.nonces_ensure addr)

theorem nonces_setNonce (nonce : UInt64) :
    (db.setNonce addr nonce).nonces = Function.update db.nonces addr nonce := by
  funext other
  rw [nonces, setNonce, mutate_accountAt, update_apply, update_apply]
  split <;> rfl

theorem nonces_issueToken (issuer : Address) (name symbol : Bytes) (reIssuable : Bool)
    (fstIssue : Int) :
    (db.issueToken issuer name symbol reIssuable fstIssue).2.nonces = db.nonces := by
  unfold issueToken
  simp only
  split
  · rfl
  · exact nonces_setBalance _ _ _ _

variable {tokenID}

theorem nonces_reIssueToken {amount : Int}
    (reissued : db.reIssueToken tokenID amount = .ok (answer, after)) :
    after.nonces = db.nonces := by
  rcases reIssueToken_cases reissued with ⟨rfl, -⟩ | ⟨token, -, -, rfl⟩
  · rfl
  · exact nonces_addBalance _ _ _ _

theorem nonces_destroyToken (destroyed : db.destroyToken tokenID = .ok (answer, after)) :
    after.nonces = db.nonces := by
  rcases destroyToken_cases destroyed with ⟨rfl, -⟩ | ⟨token, -, -, rfl⟩
  · rfl
  · rfl

end FlatDB

namespace StateDB

variable (sd : StateDB)

variable (addr : Address) (tokenID : TokenId)

theorem getAllBalance_eq_accountAt :
    sd.getAllBalance addr = (sd.abs.1.accountAt addr).balances := by
  rw [getAllBalance_eq]
  show _ = Account.balances ((sd.flat.accounts addr).getD _)
  cases sd.flat.accounts addr <;> rfl

theorem getBalance_eq_amount :
    sd.getBalance addr tokenID = (sd.getAllBalance addr).amount tokenID := by
  simp only [getBalance, getAllBalance, read]
  cases (sd.getStateObject addr).1 <;> rfl

theorem getNonce_eq_nonces : sd.getNonce addr = sd.abs.nonces addr := by
  rw [getNonce_eq]
  show _ = Account.nonce ((sd.flat.accounts addr).getD _)
  cases sd.flat.accounts addr <;> rfl

theorem getAllBalance_setBalance (value : Int) (other : Address) :
    (sd.setBalance addr tokenID value).getAllBalance other =
      if other = addr then (sd.getAllBalance addr).set tokenID (some value)
      else sd.getAllBalance other := by
  simp only [getAllBalance_eq_accountAt, abs_setBalance, FlatDB.setBalance_balances]

theorem getAllBalance_setNonce (nonce : UInt64) (other : Address) :
    (sd.setNonce addr nonce).getAllBalance other = sd.getAllBalance other := by
  simp only [getAllBalance_eq_accountAt, abs_setNonce, FlatDB.setNonce,
    FlatDB.mutate_accountAt, update_apply]
  split
  next same => rw [same]
  · rfl

theorem getAllBalance_touch (addr other : Address) :
    (sd.getStateObject addr).2.getAllBalance other = sd.getAllBalance other := by
  obtain ⟨loaded, found, sameAbs, -⟩ := sd.getStateObject_spec addr
  simp only [getAllBalance_eq_accountAt, found, sameAbs]

theorem getAllBalance_snapshot : sd.snapshot.2.getAllBalance addr = sd.getAllBalance addr := by
  rw [getAllBalance_eq, getAllBalance_eq]
  rfl

private theorem ensured_balances {state : StateObject} {loaded : StateDB}
    (found : sd.getOrCreateStateObject addr = (state, loaded)) :
    state.balances = sd.getAllBalance addr ∧
      ∀ other, loaded.getAllBalance other = sd.getAllBalance other := by
  obtain ⟨object, after, isFound, ensured, -⟩ := sd.getOrCreateStateObject_spec addr
  obtain ⟨rfl, rfl⟩ : object = state ∧ after = loaded := by simpa [isFound] using found
  obtain ⟨isAccount, sameAccounts⟩ := sd.abs.ensure_eq addr
  simp only [ensured] at isAccount sameAccounts
  refine ⟨?_, fun other => ?_⟩
  · rw [getAllBalance_eq_accountAt, ← isAccount]
    rfl
  · rw [getAllBalance_eq_accountAt, getAllBalance_eq_accountAt, sameAccounts]

theorem getAllBalance_addBalance {increment : Int} (changes : increment ≠ 0) (other : Address) :
    (sd.addBalance addr tokenID increment).getAllBalance other =
      if other = addr then (sd.getAllBalance addr).set tokenID
        (some (bigAdd (sd.getBalance addr tokenID) increment)) else sd.getAllBalance other := by
  unfold addBalance
  rw [if_neg changes]
  cases found : sd.getOrCreateStateObject addr with
  | mk state loaded =>
    obtain ⟨isSet, sameSets⟩ := sd.ensured_balances addr found
    simp only [getAllBalance_setBalance, sameSets, isSet, BalanceSet.preAdd, getBalance_eq_amount]

theorem getAllBalance_subBalance {decrement : Int} (changes : decrement ≠ 0) (other : Address) :
    (sd.subBalance addr tokenID decrement).getAllBalance other =
      if other = addr then (sd.getAllBalance addr).set tokenID
        (some ((sd.getAllBalance addr).preSub tokenID decrement)) else sd.getAllBalance other := by
  unfold subBalance
  rw [if_neg changes]
  cases found : sd.getOrCreateStateObject addr with
  | mk state loaded =>
    obtain ⟨isSet, sameSets⟩ := sd.ensured_balances addr found
    simp only [getAllBalance_setBalance, sameSets, isSet]

/-! ## Commit -/

theorem read_committed {β : Type} {absent : β} {answer : StateObject → β}
    (kept : ∀ state : StateObject, answer state.commit = answer state) (addr : Address) :
    sd.committed.clearJournalAndRefund.read addr absent answer = sd.read addr absent answer := by
  have states := sd.committed_states addr
  simp only [read, getStateObject, clearJournalAndRefund]
  cases inMemory : sd.states.get? addr with
  | some state =>
    simp only [states, inMemory, Option.map_some]
    split
    · exact kept state
    · rfl
  | none =>
    have unwritten : sd.committed.trie.accounts.get? addr = sd.trie.accounts.get? addr := by
      simp [committed, dirtyRecords, inMemory]
    simp only [states, inMemory, Option.map_none, loadStateObject, unwritten]
    cases sd.trie.accounts.get? addr <;> rfl

theorem getAllBalance_committed :
    sd.committed.clearJournalAndRefund.getAllBalance addr = sd.getAllBalance addr :=
  sd.read_committed (fun _ => rfl) addr

theorem getNonce_committed : sd.committed.clearJournalAndRefund.getNonce addr = sd.getNonce addr :=
  sd.read_committed (fun _ => rfl) addr

theorem commit_cases :
    sd.commit = .ok sd.committed ∨ sd.commit = .error .nilPointer ∧
        ∃ addr tokenID, (sd.getAllBalance addr).get? tokenID = some none := by
  unfold commit
  split
  next isNil =>
    refine .inr ⟨rfl, ?_⟩
    obtain ⟨addr, state, inMemory, holds⟩ := GoMap.any_eq_true_iff.mp isNil
    obtain ⟨-, someNil⟩ := (Bool.and_eq_true _ _).mp holds
    obtain ⟨tokenID, balance, found, missing⟩ := GoMap.any_eq_true_iff.mp someNil
    obtain rfl : balance = none := Option.isNone_iff_eq_none.mp missing
    refine ⟨addr, tokenID, ?_⟩
    simpa [getAllBalance, read, getStateObject, inMemory] using found
  · exact .inl rfl

variable {sd} in
theorem commit_ok {saved : StateDB} (commits : sd.commit = .ok saved) : saved = sd.committed := by
  rcases sd.commit_cases with committed | ⟨panicked, -⟩
  · exact Except.ok.inj (commits.symm.trans committed)
  · rw [panicked] at commits
    cases commits

end StateDB

end AnnchainOG
