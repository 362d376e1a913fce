import AnnchainOG.Ledger.Transfers

/-!
# Starting a contract

The ledger moves the value of a transfer before it starts the virtual machine, which asks once more
whether the caller can pay it.
-/

namespace AnnchainOG

open Function StateDB

inductive VmError where
  | insufficientBalance
  | contractAddressCollision
  deriving DecidableEq

def VmError.message : VmError → String
  | .insufficientBalance => "insufficient balance for transfer"
  | .contractAddressCollision => "contract address collision"

structure VmContract where
  caller : Address
  address : Address
  value : Int
  input : Bytes

inductive VmStart where
  | refused (error : VmError)
  | returned
  | runs (contract : VmContract) (sd : StateDB)

def canTransfer (sd : StateDB) (addr : Address) (amount : Int) : Bool :=
  sd.getBalance addr ogTokenID ≥ amount

section Start

variable (precompiled : Address → Bool) (createAddress : Address → UInt64 → Address)

/-- `Call` for a transaction, which is at depth zero and has moved the value already. -/
def ovmCall (sd : StateDB) (call : VmCall) : VmStart :=
  let contract : VmContract := ⟨call.caller, call.toAddress, call.value, call.data⟩
  if !canTransfer sd call.caller call.value then .refused .insufficientBalance
  else
    let sd := sd.snapshot.2
    if !sd.exist call.toAddress then
      if !precompiled call.toAddress && call.value = 0 then .returned
      else .runs contract (sd.createAccount call.toAddress)
    else .runs contract sd

def StateDB.collides (sd : StateDB) (address : Address) : Bool :=
  sd.getNonce address ≠ 0 || (sd.getCodeHash address ≠ .zero && sd.getCodeHash address ≠ emptyCodeHash)

def ovmCreate (sd : StateDB) (call : VmCall) : VmStart :=
  let address := createAddress call.caller (sd.getNonce call.caller)
  if !canTransfer sd call.caller call.value then .refused .insufficientBalance
  else if sd.collides address then .refused .contractAddressCollision
  else .runs ⟨call.caller, address, call.value, []⟩
    ((sd.snapshot.2.createAccount address).setNonce address 1)

def vmStart (sd : StateDB) (call : VmCall) : VmStart :=
  if call.toAddress = emptyAddress then ovmCreate createAddress sd call
  else ovmCall precompiled sd call

end Start

def StateDB.native (sd : StateDB) (addr : Address) : Int := sd.getBalance addr ogTokenID

/-- The balance is not refused, and the value the code sees was moved to the contract in the native
token. -/
def VmStart.Pays (before : Address → Int) : VmStart → Prop
  | .refused error => error ≠ .insufficientBalance
  | .returned => True
  | .runs contract sd =>
      sd.native = Payment.move before ⟨contract.caller, contract.address, contract.value⟩

namespace StateDB

variable (sd : StateDB) {addr : Address}

theorem native_snapshot : sd.snapshot.2.native = sd.native := by
  funext addr
  simp only [native, getBalance_eq_amount, getAllBalance_snapshot]

theorem native_createAccount (addr : Address) :
    (sd.createAccount addr).native = Function.update sd.native addr 0 := by
  funext other
  have created : (sd.createAccount addr).abs.1.accountAt =
      update sd.abs.1.accountAt addr .new := by
    rw [abs_createAccount, FlatDB.createAccount]
    split <;> exact Flat.accountAt_setAccount _ _ _
  simp only [native, getBalance_eq_amount, getAllBalance_eq_accountAt, created, update_apply]
  split
  · rfl
  · rfl

theorem native_of_absent (absent : sd.exist addr = false) : sd.native addr = 0 := by
  rw [exist_eq] at absent
  rw [native, getBalance_eq]
  cases found : sd.flat.accounts addr with
  | none => rfl
  | some account => simp [found] at absent

theorem native_setNonce (addr : Address) (nonce : UInt64) :
    (sd.setNonce addr nonce).native = sd.native := by
  funext other
  simp only [native, getBalance_eq_amount, getAllBalance_setNonce]

end StateDB

section Pays

variable {precompiled : Address → Bool} {createAddress : Address → UInt64 → Address}
variable {sd : StateDB} {call : VmCall} {before : Address → Int}

theorem ovmCall_pays_iff (valueless : call.value = 0 → sd.native = before) :
    (ovmCall precompiled sd call).Pays before ↔ call.value ≤ sd.native call.caller ∧
      sd.native = Payment.move before ⟨call.caller, call.toAddress, call.value⟩ := by
  unfold ovmCall canTransfer
  by_cases enough : call.value ≤ sd.native call.caller
  · have covered : sd.getBalance call.caller ogTokenID ≥ call.value := enough
    simp only [covered, decide_true, Bool.not_true, Bool.false_eq_true, if_false, enough, true_and]
    cases present : sd.snapshot.2.exist call.toAddress with
    | true => simp [VmStart.Pays, native_snapshot]
    | false =>
      have nothing := sd.snapshot.2.native_of_absent present
      have same : (sd.snapshot.2.createAccount call.toAddress).native = sd.native := by
        rw [native_createAccount, ← nothing, update_eq_self, native_snapshot]
      simp only [Bool.not_false, if_true]
      split
      next idle =>
        have valueZero : call.value = 0 := by simp_all
        refine iff_of_true trivial ((valueless valueZero).trans ?_)
        exact (Payment.move_zero _ valueZero).symm
      · simp only [VmStart.Pays, same]
  · have short : ¬ sd.getBalance call.caller ogTokenID ≥ call.value := enough
    simp [short, enough, VmStart.Pays]

theorem ovmCreate_pays_iff (nonneg : ∀ addr, 0 ≤ sd.native addr) (valued : 0 ≤ call.value) :
    (ovmCreate createAddress sd call).Pays sd.native ↔ call.value ≤ sd.native call.caller ∧
      (sd.collides (createAddress call.caller (sd.getNonce call.caller)) = true ∨
        call.value = 0 ∧ sd.native (createAddress call.caller (sd.getNonce call.caller)) = 0) := by
  unfold ovmCreate canTransfer
  by_cases enough : call.value ≤ sd.native call.caller
  · have covered : sd.getBalance call.caller ogTokenID ≥ call.value := enough
    simp only [covered, decide_true, Bool.not_true, Bool.false_eq_true, if_false, enough, true_and]
    cases sd.collides (createAddress call.caller (sd.getNonce call.caller)) with
    | true => simp [VmStart.Pays]
    | false =>
      simp only [VmStart.Pays, native_setNonce, native_createAccount,
        native_snapshot, Bool.false_eq_true, if_false, false_or]
      generalize createAddress call.caller (sd.getNonce call.caller) = address
      constructor
      · intro same
        have atCaller := congrFun same call.caller
        have atAddress := congrFun same address
        by_cases isCaller : address = call.caller
        · subst isCaller
          simp [Payment.move] at atCaller
          omega
        · simp [Payment.move, isCaller, Ne.symm isCaller] at atCaller atAddress
          omega
      · rintro ⟨nothing, empty⟩
        rw [Payment.move_zero _ nothing, ← empty, update_eq_self]
  · have short : ¬ sd.getBalance call.caller ogTokenID ≥ call.value := enough
    simp [short, enough, VmStart.Pays]

theorem move_eq_self_iff {source target : Address} {amount : Int} :
    before = Payment.move before ⟨source, target, amount⟩ ↔ amount = 0 ∨ target = source := by
  constructor
  · intro same
    by_cases isSource : target = source
    · exact .inr isSource
    have atTarget := congrFun same target
    simp [Payment.move, isSource] at atTarget
    exact .inl atTarget
  · rintro (rfl | rfl)
    · exact (Payment.move_zero _ rfl).symm
    · simp [Payment.move]

end Pays

section Value

variable {precompiled : Address → Bool} {createAddress : Address → UInt64 → Address}
variable {sd : StateDB} {tx : Tx}

theorem processNormal_refused {ovm : Ovm} {sequenceID : UInt64} {txi : Txi} {error : VmError}
    (starts : ∀ call sd error, vmStart precompiled createAddress sd call = .refused error →
      ovm.exec call sd = .ok (.error error.message, sd))
    (hasData : tx.data ≠ []) (refused : vmStart precompiled createAddress (transfer sd tx)
      ⟨tx.sender, tx.toAddress, tx.value, tx.data, sequenceID⟩ = .refused error) :
    processNormal ovm sequenceID sd txi tx = .ok (.error (.vm error.message), transfer sd tx) := by
  simp only [processNormal, hasData, if_false, starts _ _ _ refused, bind, Except.bind]
  rfl

end Value

def StateDB.funded : StateDB := (newStateDB ∅ .empty).setBalance 1 ogTokenID 100

end AnnchainOG
