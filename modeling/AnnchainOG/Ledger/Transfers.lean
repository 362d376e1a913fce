import AnnchainOG.Ledger.Confirmed
import AnnchainOG.Lib.Payments

/-!
# Balances and transfers

Every balance is rebuilt from its absolute value when it changes.
-/

namespace AnnchainOG

open BalanceSet StateDB

namespace StateDB

variable (sd : StateDB)
variable {tokenID : TokenId} {addr : Address}
variable {decrement : Int} {tx : Tx}

theorem preSub_of_le {balances : BalanceSet}
    (positive : 0 < decrement) (enough : decrement ≤ balances.amount tokenID) :
    balances.preSub tokenID decrement = balances.amount tokenID - decrement := by
  unfold BalanceSet.preSub
  unfold BalanceSet.amount at enough ⊢
  cases found : balances.entry tokenID with
  | none =>
    simp only [found, Option.getD_none] at enough
    omega
  | some balance =>
    simp only [found, Option.getD_some] at enough ⊢
    exact bigSub_of_le enough

theorem getBalance_subBalance
    (positive : 0 < decrement) (enough : decrement ≤ sd.getBalance addr tokenID)
    (other : Address) (otherID : TokenId) :
    (sd.subBalance addr tokenID decrement).getBalance other otherID =
      sd.getBalance other otherID - if other = addr ∧ otherID = tokenID then decrement else 0 := by
  rw [getBalance_eq_amount] at enough
  simp only [getBalance_eq_amount, sd.getAllBalance_subBalance _ _ (ne_of_gt positive),
    preSub_of_le positive enough]
  by_cases sameAddr : other = addr
  · subst sameAddr
    by_cases sameToken : otherID = tokenID
    · subst sameToken
      simp [amount_set]
    · simp [amount_set, sameToken]
  · simp [sameAddr]

theorem getBalance_addBalance {increment : Int}
    (positive : 0 < increment) (nonneg : 0 ≤ sd.getBalance addr tokenID)
    (other : Address) (otherID : TokenId) :
    (sd.addBalance addr tokenID increment).getBalance other otherID =
      sd.getBalance other otherID + if other = addr ∧ otherID = tokenID then increment else 0 := by
  have sum : bigAdd (sd.getBalance addr tokenID) increment =
      sd.getBalance addr tokenID + increment := bigAdd_of_nonneg (by omega)
  rw [getBalance_eq_amount, sd.getAllBalance_addBalance _ _ (ne_of_gt positive), sum,
    getBalance_eq_amount, getBalance_eq_amount]
  by_cases sameAddr : other = addr
  · subst sameAddr
    by_cases sameToken : otherID = tokenID
    · subst sameToken
      simp [amount_set]
    · simp [amount_set, sameToken]
  · simp [sameAddr]

theorem getBalance_transfer (covered : tx.toAddress ≠ emptyAddress →
      0 ≤ tx.value ∧ tx.value ≤ sd.getBalance tx.sender tx.tokenId)
    (balances : ∀ addr, 0 ≤ sd.getBalance addr tx.tokenId) (tokenID : TokenId) :
    (fun addr => (transfer sd tx).getBalance addr tokenID) =
      if tx.tokenId = tokenID ∧ tx.toAddress ≠ emptyAddress then
        Payment.move (fun addr => sd.getBalance addr tokenID) ⟨tx.sender, tx.toAddress, tx.value⟩
      else fun addr => sd.getBalance addr tokenID := by
  unfold transfer
  by_cases moves : tx.value ≠ 0 ∧ tx.toAddress ≠ emptyAddress
  · obtain ⟨changes, toAccount⟩ := moves
    obtain ⟨nonneg, enough⟩ := covered toAccount
    have positive : 0 < tx.value := lt_of_le_of_ne nonneg (Ne.symm changes)
    have debited := sd.getBalance_subBalance positive enough
    have stillNonneg : 0 ≤ (sd.subBalance tx.sender tx.tokenId tx.value).getBalance tx.toAddress
        tx.tokenId := by
      rw [debited]
      split
      next same =>
        rw [same.1]
        omega
      · rw [sub_zero]
        exact balances _
    rw [if_pos ⟨changes, toAccount⟩]
    funext addr
    rw [getBalance_addBalance _ positive stillNonneg, debited]
    by_cases sameToken : tx.tokenId = tokenID
    · subst sameToken
      simp [toAccount, Payment.move, Pi.single_apply]
    · simp [sameToken, Ne.symm sameToken]
  · rw [if_neg moves]
    split
    next sent =>
      have nothing : tx.value = 0 := by
        by_contra changes
        exact moves ⟨changes, sent.2⟩
      exact (Payment.move_zero _ nothing).symm
    · rfl

/-- Some account holds a nil balance, on which a commit panics. -/
def HoldsNil : Prop :=
  ∃ addr tokenID, (sd.getAllBalance addr).get? tokenID = some none

private theorem holdsNil_of_set {before after : StateDB} {value : Int}
    (sets : ∀ other, after.getAllBalance other =
      if other = addr then (before.getAllBalance addr).set tokenID (some value)
      else before.getAllBalance other) (nil : after.HoldsNil) : before.HoldsNil := by
  obtain ⟨other, otherID, isNil⟩ := nil
  rw [sets] at isNil
  split at isNil
  · rw [GoMap.get?_set] at isNil
    split at isNil
    · simp at isNil
    · exact ⟨addr, otherID, isNil⟩
  · exact ⟨other, otherID, isNil⟩

theorem HoldsNil.of_transfer (nil : (transfer sd tx).HoldsNil) : sd.HoldsNil := by
  unfold transfer at nil
  split at nil
  next moves =>
    exact holdsNil_of_set (sd.getAllBalance_subBalance _ _ moves.1)
      (holdsNil_of_set (getAllBalance_addBalance _ _ _ moves.1) nil)
  · exact nil

end StateDB

theorem getAllBalance_updateNonce (sd : StateDB) (sender : Address) (nonce : UInt64)
    (addr : Address) :
    (updateNonce sd sender nonce).getAllBalance addr = sd.getAllBalance addr := by
  unfold updateNonce
  simp only
  split
  · rw [getAllBalance_setNonce, getAllBalance_touch]
  · rw [getAllBalance_touch]

theorem getBalance_updateNonce (sd : StateDB) (sender : Address) (nonce : UInt64) (addr : Address)
    (tokenID : TokenId) :
    (updateNonce sd sender nonce).getBalance addr tokenID = sd.getBalance addr tokenID := by
  rw [getBalance_eq_amount, getBalance_eq_amount, getAllBalance_updateNonce]

theorem processTransaction_transfer {txi : Txi} {tx : Tx} (ovm : Ovm) (sequenceID : UInt64)
    (sd : StateDB) (isType : txi.getType = .normal) (isBody : txi.body = .tx tx)
    (noData : tx.data = []) :
    processTransaction ovm sequenceID sd txi =
      .ok (.ok txi, transfer (updateNonce sd tx.sender txi.getNonce) tx) := by
  simp [processTransaction, isType, isBody, Txi.sender, processNormal, noData, bind, Except.bind]

end AnnchainOG
