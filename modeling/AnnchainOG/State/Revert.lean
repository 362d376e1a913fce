import AnnchainOG.State.Rollback

/-!
# RevertToSnapshot

A balance set as a whole is restored when each balance that was undone belongs to an account created
since.
-/

namespace AnnchainOG

open Option

structure AccountReads where
  balance : TokenId → Int
  nonce : UInt64
  codeHash : CodeHash
  code : Bytes
  state : Hash → Hash
  committed : GoMap Hash Hash
  suicided : Bool

def Account.reads (account : Account) : AccountReads where
  balance := account.balances.amount
  nonce := account.nonce
  codeHash := account.codeHash
  code := account.code
  state := slot account.storage
  committed := account.committed
  suicided := account.suicided

private theorem restore_reads (entry : Entry) (base left right : Option Account)
    (same : left.map Account.reads = right.map Account.reads) :
    (entry.restore base left).map Account.reads = (entry.restore base right).map Account.reads := by
  rcases map_eq_cases same with ⟨rfl, rfl⟩ | ⟨left, right, rfl, rfl, reads⟩
  · rfl
  simp only [Account.reads, AccountReads.mk.injEq] at reads
  obtain ⟨balance, nonce, codeHash, code, state, committed, suicided⟩ := reads
  cases entry with
  | createObject | resetObject => rfl
  | suicide | balance | nonce | storage | code | refund | createToken | reIssue | destroy =>
    simp only [Entry.restore, map_some, Account.reads, BalanceSet.amount_overlay,
      BalanceSet.amount_set, slot_set, balance, nonce, codeHash, code, state, committed, suicided]

private theorem scarred_reads {entry : Entry} {account restored : Account}
    (scarred : Scarred entry account restored) : restored.reads = account.reads := by
  cases scarred with
  | @balance _ _ tokenID missing =>
    have zero : account.balances.amount tokenID = 0 := by simp [BalanceSet.amount, missing]
    simp only [Account.reads, BalanceSet.amount_set, getD_none, ← zero, Function.update_eq_self]
  | @storage _ _ key missing =>
    have zero : slot account.storage key = 0 := by simp [slot, missing]
    simp only [Account.reads, slot_set, ← zero, Function.update_eq_self]

def readRollback : RollbackSystem Flat Entry (Option Address) :=
  rollback Account.reads (fun _ _ => ()) (fun _ => none) (fun _ => True) restore_reads
    (fun scarred _ => .inr (scarred_reads scarred)) (fun _ _ => .inr rfl)

/-- The rollback as single reads and whole balance sets see it. -/
def balanceSetRollback : RollbackSystem Flat Entry (Option Address) :=
  rollback (fun account => (account.reads, account.balances)) (fun _ _ => ())
    JournalEntry.nilScar (fun _ => True)
    (by
      intro entry base left right same
      cases left with
      | none =>
        obtain rfl : right = none := by simpa using same.symm
        rfl
      | some left =>
        cases right with
        | none => simp at same
        | some right =>
          simp only [Option.map_some, Option.some.injEq, Prod.mk.injEq] at same
          have reads := restore_reads entry base (some left) (some right)
            (congrArg some same.1)
          cases entry with
          | createObject | resetObject => rfl
          | suicide | balance | nonce | storage | code | refund | createToken | reIssue
          | destroy =>
            simp only [Entry.restore, Option.map_some, Option.some.injEq] at reads ⊢
            exact Prod.ext reads (by simp [same.2]))
    (by
      intro entry account restored addr scarred touched
      have reads := scarred_reads scarred
      cases scarred with
      | balance missing => exact .inl (congrArg some touched)
      | storage missing => exact .inr (Prod.ext reads rfl))
    (fun _ _ => .inr rfl)

namespace StateDB

variable {sd after : StateDB} {ops : List Op}

structure SameReads (left right : StateDB) : Prop where
  getBalance : ∀ addr tokenID, left.getBalance addr tokenID = right.getBalance addr tokenID
  getNonce : ∀ addr, left.getNonce addr = right.getNonce addr
  exist : ∀ addr, left.exist addr = right.exist addr
  getCodeHash : ∀ addr, left.getCodeHash addr = right.getCodeHash addr
  getCode : ∀ addr, left.getCode addr = right.getCode addr
  getCodeSize : ∀ addr, left.getCodeSize addr = right.getCodeSize addr
  getState : ∀ addr key, left.getState addr key = right.getState addr key
  getCommittedState : ∀ addr key,
    left.getCommittedState addr key = right.getCommittedState addr key
  hasSuicided : ∀ addr, left.hasSuicided addr = right.hasSuicided addr
  getRefund : left.refund = right.refund
  getToken : ∀ tokenID, left.getToken tokenID = right.getToken tokenID
  latestTokenID : left.latestTokenID = right.latestTokenID

theorem read_of_view {β ω : Type} {view : Account → β} {left right : Option Account}
    (same : left.map view = right.map view) (answer : β → ω) (absent : ω) :
    (left.map fun account => answer (view account)).getD absent =
      (right.map fun account => answer (view account)).getD absent := by
  have mapped := congrArg (Option.map answer) same
  rw [map_map, map_map] at mapped
  exact congrArg (Option.getD · absent) mapped

theorem sameReads_of_flat {left right : StateDB}
    (same : readRollback.same left.flat right.flat) : left.SameReads right := by
  have reads addr := same.accounts addr (Set.notMem_empty _)
  refine ⟨?_, ?_, ?_, ?_, ?_, ?_, ?_, ?_, ?_, same.refund, ?_, same.latestTokenID⟩
  · intro addr tokenID
    rw [getBalance_eq, getBalance_eq]
    exact read_of_view (reads addr) (fun reads => reads.balance tokenID) 0
  · intro addr
    rw [getNonce_eq, getNonce_eq]
    exact read_of_view (reads addr) AccountReads.nonce 0
  · intro addr
    rw [exist_eq, exist_eq]
    exact read_of_view (reads addr) (fun _ => true) false
  · intro addr
    rw [getCodeHash_eq, getCodeHash_eq]
    exact read_of_view (reads addr) AccountReads.codeHash .zero
  · intro addr
    rw [getCode_eq, getCode_eq]
    exact read_of_view (reads addr) AccountReads.code []
  · intro addr
    rw [getCodeSize_eq, getCodeSize_eq]
    exact read_of_view (reads addr) (fun reads => reads.code.length) 0
  · intro addr key
    rw [getState_eq, getState_eq]
    exact read_of_view (reads addr) (fun reads => reads.state key) 0
  · intro addr key
    rw [getCommittedState_eq, getCommittedState_eq]
    exact read_of_view (reads addr) (fun reads => slot reads.committed key) 0
  · intro addr
    rw [hasSuicided_eq, hasSuicided_eq]
    exact read_of_view (reads addr) AccountReads.suicided false
  · intro tokenID
    rw [getToken_eq, getToken_eq, same.tokens]

theorem run_readRollback (ran : sd.run ops = .ok after) : readRollback.Run sd.abs after.abs :=
  run_rollback readRollback (fun logged => ⟨logged, trivial⟩) rfl rfl (fun _ _ => rfl) ran
    (runIsClean_of_no_scar (fun _ => rfl) sd ops)

theorem view_nilScar (codes : CodeStore) (entry : Change) :
    (Change.view codes entry).nilScar = entry.nilScar := by
  cases entry with
  | balance _ _ prev => cases prev <;> rfl
  | _ => rfl

theorem run_balanceSetRollback (ran : sd.run ops = .ok after)
    (clean : sd.runIsClean JournalEntry.nilScar ops = true) :
    balanceSetRollback.Run sd.abs after.abs :=
  run_rollback balanceSetRollback (fun logged => ⟨logged, trivial⟩) rfl rfl view_nilScar ran clean

theorem revertToSnapshot_flat {snapshotid : Nat}
    (live : snapshotid ∈ sd.journal.snapshotSet.map Shot.shotid) :
    ∃ restored undone rest, sd.revertToSnapshot snapshotid = .ok restored ∧
      sd.abs.2.revertTo snapshotid = some (undone, rest) ∧
      undone = (sd.undone snapshotid).map (Change.view sd.codes) ∧
      restored.abs = (undone.foldl (fun flat entry => flat.undo entry) sd.abs.1, rest) := by
  obtain ⟨shot, member, rfl⟩ := List.mem_map.mp live
  obtain ⟨undone, rest, found⟩ :=
    UndoLog.revertTo_of_mem (show shot ∈ sd.abs.2.snapshotSet from member)
  have simulated := sd.abs_revertToSnapshot shot.shotid
  simp only [FlatDB.revertToSnapshot, found] at simulated
  obtain ⟨restored, result, isFlat⟩ := map_ok simulated
  exact ⟨restored, undone, rest, result, found, revertTo_abs found, isFlat⟩

private theorem abs_snapshot (sd : StateDB) : sd.snapshot.2.abs = (sd.abs.1, sd.abs.2.snapshot) :=
  Prod.ext rfl (UndoLog.map_snapshot _ _)

theorem revertToSnapshot_sameReads {restored : StateDB} (ran : sd.snapshot.2.run ops = .ok after)
    (reverted : after.revertToSnapshot sd.snapshot.1 = .ok restored) : restored.SameReads sd := by
  have live : sd.snapshot.1 ∈ after.journal.snapshotSet.map Shot.shotid := by
    unfold revertToSnapshot at reverted
    cases found : after.journal.revertTo sd.snapshot.1 with
    | none => simp [found] at reverted
    | some result =>
      obtain ⟨shot, newer, shots, isId, -⟩ := UndoLog.revertTo_spec found
      exact List.mem_map.mpr ⟨shot, by simp [shots], isId⟩
  obtain ⟨result, undone, rest, isResult, found, -, isRestored⟩ := revertToSnapshot_flat live
  obtain rfl : restored = result := by
    rw [reverted] at isResult
    exact Except.ok.inj isResult
  have run := run_readRollback ran
  rw [abs_snapshot] at run
  have same := (readRollback.revert_restores run found
    (readRollback.clean_of_no_scar (fun _ => rfl) undone)).1
  have flat : restored.flat = undone.foldl (fun flat entry => flat.undo entry) after.abs.1 :=
    congrArg Prod.fst isRestored
  exact sameReads_of_flat (flat ▸ same)

/-- Reverting to a live snapshot restores every read, and balance sets as a whole if all reverts
since then heal the nil entries they leave. -/
theorem revertToSnapshot_restores {sd after : StateDB} {ops : List Op}
    (ran : sd.snapshot.2.run ops = .ok after)
    (live : sd.snapshot.1 ∈ after.journal.snapshotSet.map Shot.shotid) :
    ∃ restored, after.revertToSnapshot sd.snapshot.1 = .ok restored ∧ restored.SameReads sd ∧
      (sd.snapshot.2.runIsClean JournalEntry.nilScar ops = true →
        healsScars JournalEntry.nilScar JournalEntry.heals (after.undone sd.snapshot.1) = true →
        ∀ addr, restored.getAllBalance addr = sd.getAllBalance addr) := by
  obtain ⟨restored, undone, rest, reverted, found, isUndone, isRestored⟩ :=
    revertToSnapshot_flat live
  have flat : restored.flat = undone.foldl (fun flat entry => flat.undo entry) after.abs.1 :=
    congrArg Prod.fst isRestored
  refine ⟨restored, reverted, revertToSnapshot_sameReads ran reverted, ?_⟩
  intro clean cleanLast addr
  have run := run_balanceSetRollback ran clean
  rw [abs_snapshot] at run
  have cleanUndone : balanceSetRollback.clean undone := by
    rw [isUndone, RollbackSystem.clean, healsScars_map]
    exact (congrArg₂ (healsScars · · (after.undone sd.snapshot.1))
      (funext fun entry => view_nilScar after.codes entry)
      (funext fun entry => Change.view_heals after.codes entry)).trans cleanLast
  have same := (balanceSetRollback.revert_restores run found cleanUndone).1
  rw [getAllBalance_eq, getAllBalance_eq, flat]
  exact read_of_view (same.accounts addr (Set.notMem_empty _)) Prod.snd ∅

theorem revertToSnapshot_restores_overwritten_balance :
    ∃ after restored, (((newStateDB ∅ .empty).setBalance 1 0 7).snapshot.2.run
        [.setBalance 1 0 5, .snapshot, .addBalance 2 0 1, .revert 1]) = .ok after ∧
      after.revertToSnapshot 0 = .ok restored ∧
      restored.SameReads ((newStateDB ∅ .empty).setBalance 1 0 7) ∧
      ∀ addr, restored.getAllBalance addr =
        ((newStateDB ∅ .empty).setBalance 1 0 7).getAllBalance addr := by
  obtain ⟨restored, reverted, reads, balances⟩ :=
    @revertToSnapshot_restores ((newStateDB ∅ .empty).setBalance 1 0 7) _
      [.setBalance 1 0 5, .snapshot, .addBalance 2 0 1, .revert 1] rfl (by decide +kernel)
  exact ⟨_, restored, rfl, reverted, reads, balances rfl rfl⟩

/-- The account exists and has no balance entry; writing one and reverting leaves a nil entry. -/
theorem revertToSnapshot_leaves_nil_entry :
    ∃ after restored,
      (((newStateDB ∅ .empty).setNonce 1 1).snapshot.2.run [.setBalance 1 0 5]) = .ok after ∧
      after.revertToSnapshot ((newStateDB ∅ .empty).setNonce 1 1).snapshot.1 = .ok restored ∧
      ((newStateDB ∅ .empty).setNonce 1 1).getAllBalance 1 = ∅ ∧
      restored.getAllBalance 1 = GoMap.set (∅ : BalanceSet) 0 none ∧
      restored.getAllBalance 1 ≠ ((newStateDB ∅ .empty).setNonce 1 1).getAllBalance 1 := by
  refine ⟨_, _, rfl, rfl, rfl, rfl, ?_⟩
  intro same
  have read : GoMap.get? (GoMap.set (∅ : BalanceSet) 0 none) 0 = GoMap.get? (∅ : BalanceSet) 0 :=
    congrArg (GoMap.get? · 0) same
  simp at read

end StateDB

end AnnchainOG
