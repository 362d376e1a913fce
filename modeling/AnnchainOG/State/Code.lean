import AnnchainOG.State.Refinement

/-!
# Contract code in memory

Code in memory is either in the code store or marked for the next commit to write.
-/

namespace AnnchainOG

open Option

theorem Contract.eq_ofHash {contract : Contract} (unloaded : contract.code = none) :
    contract = ofHash contract.codeHash := by
  cases contract
  cases unloaded
  rfl

theorem Contract.mem_of_getCode_ofHash {codes : CodeStore} {codeHash : CodeHash} {code : Bytes}
    (found : ((ofHash codeHash).getCode codes).getD [] = code) (nonempty : code ≠ []) :
    code ∈ codes := by
  cases loaded : (ofHash codeHash).getCode codes with
  | none =>
    rw [loaded] at found
    exact absurd found.symm nonempty
  | some bytes =>
    obtain rfl : bytes = code := by simpa [loaded] using found
    have stored : (if codeHash = emptyCodeHash then none else codes.contractCode codeHash) =
      some bytes := loaded
    cases codeHash with
    | zero => simp [CodeStore.contractCode] at stored
    | keccak other =>
      simp only [CodeStore.contractCode, ite_none_left_eq_some,
        ite_none_right_eq_some, Option.some.injEq] at stored
      exact stored.2.2 ▸ stored.2.1

theorem Contract.getCode_ofHash_iff (contract : Contract) (codes : CodeStore) :
    (contract.getCode codes).getD [] = ((ofHash contract.codeHash).getCode codes).getD [] ↔
      ∀ code, contract.code = some code → code = [] ∨ code ∈ codes := by
  cases inMemory : contract.code with
  | none => exact iff_of_true (by rw [← eq_ofHash inMemory]) nofun
  | some code =>
    have isHash := contract.digest code inMemory
    simp only [getCode, ofHash, inMemory, isHash, emptyCodeHash, CodeStore.contractCode,
      CodeHash.keccak.injEq, getD_some, Option.some.injEq, forall_eq']
    by_cases isEmpty : code = []
    · simp [isEmpty]
    · by_cases stored : code ∈ codes <;> simp [isEmpty, stored]

def StateObject.CodeSaved (codes : CodeStore) (state : StateObject) : Prop :=
  state.dirtycode = true ∨ ∀ code, state.contract.code = some code → code = [] ∨ code ∈ codes

namespace StateObject

variable {codes : CodeStore}

theorem codeSaved_new : StateObject.new.CodeSaved codes := .inr nofun

theorem codeSaved_decode (data : AccountData) : (StateObject.decode data).CodeSaved codes :=
  .inr nofun

theorem CodeSaved.load {state : StateObject} (saved : state.CodeSaved codes) :
    { state with contract := state.contract.load codes }.CodeSaved codes := by
  rcases saved with marked | stored
  · exact .inl marked
  right
  intro code found
  simp only [Contract.load, Contract.getCode_eq, or_eq_some_iff] at found
  rcases found with inMemory | ⟨-, loaded⟩
  · exact stored code inMemory
  right
  cases isHash : state.contract.codeHash with
  | zero => simp [isHash, emptyCodeHash, CodeStore.contractCode] at loaded
  | keccak bytes =>
    simp only [isHash, CodeStore.contractCode, ite_none_left_eq_some,
      ite_none_right_eq_some, Option.some.injEq] at loaded
    exact loaded.2.2 ▸ loaded.2.1

end StateObject

namespace StateDB

def StatesSaved (sd : StateDB) : Prop :=
  ∀ addr state, sd.states.get? addr = some state → state.CodeSaved sd.codes

theorem StatesSaved.putState {sd : StateDB} (saved : sd.StatesSaved) (addr : Address)
    {state : StateObject} (stateSaved : state.CodeSaved sd.codes) :
    (sd.putState addr state).StatesSaved := by
  intro other found isFound
  simp only [StateDB.putState, GoMap.get?_set] at isFound
  split at isFound
  · exact Option.some.inj isFound ▸ stateSaved
  · exact saved other found isFound

end StateDB

end AnnchainOG
