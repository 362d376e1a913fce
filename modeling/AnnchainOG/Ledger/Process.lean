import AnnchainOG.Ledger.Dag
import AnnchainOG.State.Revert

/-!
# Execution as operations of the state database

Executing a transaction never reverts below the snapshots it found, so `push` can revert to its own.
-/

namespace AnnchainOG

open List

namespace StateDB

variable {sd after : StateDB}

/-- `after` is reached by operations that revert to newer snapshots only. -/
def Drives (sd after : StateDB) : Prop :=
  ∃ ops : List Op, (∀ op ∈ ops, op.staysAbove sd.journal.snapshotSet.length = true) ∧
    sd.run ops = .ok after

def KeepsShots (shots : List Shot) (sd : StateDB) : Prop :=
  ∃ newer, sd.journal.snapshotSet = shots ++ newer

private theorem logs_snapshotSet {before after : FlatDB} (logs : FlatDB.Logs before after) :
    after.2.snapshotSet = before.2.snapshotSet := by
  induction logs with
  | refl => rfl
  | tail _ step ih =>
    obtain ⟨entry, flat, -, rfl⟩ := step
    exact ih

variable {shots : List Shot} {answer : Answer} {between : StateDB}

theorem KeepsShots.apply {op : Op}
    (keeps : KeepsShots shots sd) (above : op.staysAbove shots.length = true)
    (applied : sd.apply op = .ok (answer, after)) : KeepsShots shots after := by
  have simulated : sd.abs.apply op = .ok (answer, after.abs) := by
    rw [← abs_apply, applied]
    rfl
  obtain ⟨newer, isShots⟩ := keeps
  rcases FlatDB.apply_cases sd.grounded simulated with logs | ⟨-, isSnapshot⟩ |
    ⟨position, shot, undone, rest, rfl, present, found, reverted⟩
  · exact ⟨newer, (logs_snapshotSet logs).trans isShots⟩
  · have taken : after.journal.snapshotSet = sd.journal.snapshotSet ++ _ :=
      congrArg (fun db : FlatDB => db.2.snapshotSet) isSnapshot
    exact ⟨newer ++ _, by rw [taken, isShots, append_assoc]⟩
  · obtain ⟨_, other, again, -, -, kept, -⟩ := UndoLog.revertTo_position present
    obtain ⟨-, rfl⟩ : _ ∧ rest = other := by simpa [found] using again
    have isRest : after.journal.snapshotSet = rest.snapshotSet :=
      congrArg (fun db : FlatDB => db.2.snapshotSet) reverted
    have inside : shots.length ≤ position := by simpa [Op.staysAbove] using above
    have sameShots : sd.abs.2.snapshotSet = shots ++ newer := isShots
    refine ⟨newer.take (position - shots.length), ?_⟩
    rw [isRest, kept, sameShots, take_append, take_of_length_le inside]

theorem KeepsShots.run {ops : List Op}
    (keeps : KeepsShots shots sd) (above : ∀ op ∈ ops, op.staysAbove shots.length = true)
    (ran : sd.run ops = .ok after) : KeepsShots shots after := by
  induction ops generalizing sd with
  | nil =>
    cases ran
    exact keeps
  | cons op ops ih =>
    obtain ⟨answer, next, applied, rest⟩ := run_cons ran
    have keepsNext := keeps.apply (above op mem_cons_self) applied
    exact ih keepsNext (fun op member => above op (mem_cons_of_mem _ member)) rest

theorem Drives.keepsShots (drives : sd.Drives after) : KeepsShots sd.journal.snapshotSet after := by
  obtain ⟨ops, above, ran⟩ := drives
  exact KeepsShots.run ⟨[], (append_nil _).symm⟩ above ran

theorem run_append {first second : List Op}
    (ranFirst : sd.run first = .ok between) (ranSecond : between.run second = .ok after) :
    sd.run (first ++ second) = .ok after := by
  induction first generalizing sd with
  | nil =>
    cases ranFirst
    exact ranSecond
  | cons op ops ih =>
    obtain ⟨answer, next, applied, rest⟩ := run_cons ranFirst
    show (sd.apply op >>= fun result => result.2.run (ops ++ second)) = .ok after
    rw [applied]
    exact ih rest

theorem Drives.refl (sd : StateDB) : sd.Drives sd := ⟨[], by simp, rfl⟩

theorem Drives.trans (first : sd.Drives between)
    (second : between.Drives after) : sd.Drives after := by
  obtain ⟨newer, isShots⟩ := first.keepsShots
  obtain ⟨firstOps, firstAbove, ranFirst⟩ := first
  obtain ⟨secondOps, secondAbove, ranSecond⟩ := second
  refine ⟨firstOps ++ secondOps, ?_, run_append ranFirst ranSecond⟩
  intro op member
  rcases mem_append.mp member with inFirst | inSecond
  · exact firstAbove op inFirst
  have above := secondAbove op inSecond
  cases op with
  | revert position =>
    simp only [Op.staysAbove, isShots, length_append, decide_eq_true_eq] at above ⊢
    omega
  | _ => rfl

theorem Drives.one (op : Op) (above : op.staysAbove sd.journal.snapshotSet.length = true)
    (applied : sd.apply op = .ok (answer, after)) : sd.Drives after := by
  refine ⟨[op], by simpa using above, ?_⟩
  show (sd.apply op >>= fun result => result.2.run []) = .ok after
  rw [applied]
  rfl

theorem Drives.revert (drives : sd.snapshot.2.Drives after) :
    ∃ restored, after.revertToSnapshot sd.snapshot.1 = .ok restored ∧ restored.SameReads sd := by
  obtain ⟨newer, isShots⟩ := drives.keepsShots
  obtain ⟨ops, -, ran⟩ := drives
  have live : sd.snapshot.1 ∈ after.journal.snapshotSet.map Shot.shotid := by
    rw [isShots]
    simp [snapshot]
  obtain ⟨restored, -, -, reverted, -⟩ := revertToSnapshot_flat live
  exact ⟨restored, reverted, revertToSnapshot_sameReads ran reverted⟩

end StateDB

open StateDB
variable {ovm : Ovm} {sequenceID : UInt64} {tx : Txi} {answer : Except ProcessError Txi}

theorem updateNonce_drives (sd : StateDB) (sender : Address) (nonce : UInt64) :
    sd.Drives (updateNonce sd sender nonce) := by
  have touched : sd.Drives (sd.getStateObject sender).2 := .one (.touch sender) rfl rfl
  unfold updateNonce
  simp only
  split
  · exact touched.trans (.one (.setNonce sender nonce) rfl rfl)
  · exact touched

theorem transfer_drives (sd : StateDB) (tx : Tx) : sd.Drives (transfer sd tx) := by
  unfold transfer
  split
  · exact (Drives.one (.subBalance tx.sender tx.tokenId tx.value) rfl rfl).trans
      (.one (.addBalance tx.toAddress tx.tokenId tx.value) rfl rfl)
  · exact .refl sd

variable {sd after : StateDB} {tokenID : TokenId} {txs : List Txi}

theorem reIssueToken_drives {amount : Int} {answer : Except TokenError Unit}
    (success : sd.reIssueToken tokenID amount = .ok (answer, after)) : sd.Drives after := by
  refine @Drives.one _ _ (.outcome answer) (.reIssueToken tokenID amount) rfl ?_
  rw [StateDB.apply, success]
  rfl

theorem destroyToken_drives {answer : Except TokenError Unit}
    (success : sd.destroyToken tokenID = .ok (answer, after)) : sd.Drives after := by
  refine @Drives.one _ _ (.outcome answer) (.destroyToken tokenID) rfl ?_
  rw [StateDB.apply, success]
  rfl

def tokenAnswer (tx : Txi) (outcome : Except TokenError Unit) : Except ProcessError Txi :=
  match outcome with
  | .error error => .error (.token error)
  | .ok () => .ok tx

theorem processTokenTransaction_cases {actionTx : ActionTx}
    (success : processTokenTransaction sd tx actionTx = .ok (answer, after)) :
    ∃ offering, actionTx.actionData = .publicOffering offering ∧
      ((actionTx.action = actionTxActionIPO ∧ ∃ issued,
          sd.issueToken actionTx.sender offering.tokenName [] offering.enableSPO offering.value =
            (issued, after) ∧ answer = match issued with
            | .error error => .error (.token error)
            | .ok tokenID => .ok { tx with body := .action { actionTx with
                actionData := .publicOffering { offering with tokenId := tokenID } } }) ∨
        (actionTx.action = actionTxActionSPO ∧ ∃ outcome,
          sd.reIssueToken offering.tokenId offering.value = .ok (outcome, after) ∧
          answer = tokenAnswer tx outcome) ∨ (actionTx.action = actionTxActionDestroy ∧ ∃ outcome,
          sd.destroyToken offering.tokenId = .ok (outcome, after) ∧
          answer = tokenAnswer tx outcome) ∨
        (answer = .error (.unknownAction actionTx.action) ∧ after = sd)) := by
  unfold processTokenTransaction at success
  split at success
  · cases success
  rename_i offering isData
  refine ⟨offering, isData, ?_⟩
  split at success
  next isIPO =>
    simp only at success
    cases issued : sd.issueToken actionTx.sender offering.tokenName [] offering.enableSPO
      offering.value with
    | mk outcome next =>
      rw [issued] at success
      cases outcome <;> cases success <;> exact .inl ⟨isIPO, _, rfl, rfl⟩
  split at success
  next isSPO =>
    obtain ⟨⟨outcome, next⟩, done, rest⟩ := bind_ok success
    cases rest
    exact .inr (.inl ⟨isSPO, outcome, done, rfl⟩)
  split at success
  next isDestroy =>
    obtain ⟨⟨outcome, next⟩, done, rest⟩ := bind_ok success
    cases rest
    exact .inr (.inr (.inl ⟨isDestroy, outcome, done, rfl⟩))
  · cases success
    exact .inr (.inr (.inr ⟨rfl, rfl⟩))

theorem processTokenTransaction_drives {actionTx : ActionTx}
    (success : processTokenTransaction sd tx actionTx = .ok (answer, after)) : sd.Drives after := by
  obtain ⟨offering, -, executed⟩ := processTokenTransaction_cases success
  rcases executed with ⟨-, issued, done, -⟩ | ⟨-, outcome, done, -⟩ | ⟨-, outcome, done, -⟩ | ⟨-, rfl⟩
  · have applied : sd.Drives (sd.issueToken actionTx.sender offering.tokenName []
        offering.enableSPO offering.value).2 := .one (.issueToken _ _ _ _ _) rfl rfl
    rwa [done] at applied
  · exact reIssueToken_drives done
  · exact destroyToken_drives done
  · exact .refl _

theorem processNormal_drives {txi : Txi} {tx : Tx}
    (success : processNormal ovm sequenceID sd txi tx = .ok (answer, after)) : sd.Drives after := by
  have transferred := transfer_drives sd tx
  unfold processNormal at success
  split at success
  · cases success
    exact transferred
  obtain ⟨⟨outcome, next⟩, executed, rest⟩ := bind_ok success
  cases rest
  obtain ⟨ops, allowed, ran⟩ := ovm.driven executed
  exact transferred.trans ⟨ops, fun op member => (allowed op member).1, ran⟩

theorem processTransaction_cases
    (success : processTransaction ovm sequenceID sd tx = .ok (answer, after)) :
    (tx.getType = .archive ∧ answer = .ok tx ∧ after = sd) ∨
      ∃ sender, tx.getType ≠ .archive ∧ tx.sender = .ok sender ∧
        ((∃ actionTx, tx.getType = .action ∧ tx.body = .action actionTx ∧
            processTokenTransaction (updateNonce sd sender tx.getNonce) tx actionTx =
              .ok (answer, after)) ∨ (∃ normal, tx.getType = .normal ∧ tx.body = .tx normal ∧
            processNormal ovm sequenceID (updateNonce sd sender tx.getNonce) tx normal =
              .ok (answer, after)) ∨
          (tx.getType ≠ .action ∧ tx.getType ≠ .normal ∧ answer = .ok tx ∧
            after = updateNonce sd sender tx.getNonce)) := by
  unfold processTransaction at success
  split at success
  next archive =>
    cases success
    exact .inl ⟨archive, rfl, rfl⟩
  rename_i notArchive
  obtain ⟨sender, isSender, rest⟩ := bind_ok success
  refine .inr ⟨sender, notArchive, isSender, ?_⟩
  split at rest
  next isAction isBody => exact .inl ⟨_, isAction, isBody, rest⟩
  · cases rest
  next isNormal isBody => exact .inr (.inl ⟨_, isNormal, isBody, rest⟩)
  · cases rest
  all_goals
    rename_i isType
    cases rest
    exact .inr (.inr ⟨by simp [isType], by simp [isType], rfl, rfl⟩)

theorem processTransaction_drives
    (success : processTransaction ovm sequenceID sd tx = .ok (answer, after)) :
    sd.Drives after := by
  rcases processTransaction_cases success with ⟨-, -, rfl⟩ | ⟨sender, -, -, executed⟩
  · exact .refl _
  have noted := updateNonce_drives sd sender tx.getNonce
  rcases executed with ⟨actionTx, -, -, processed⟩ | ⟨normal, -, -, processed⟩ | ⟨-, -, -, rfl⟩
  · exact noted.trans (processTokenTransaction_drives processed)
  · exact noted.trans (processNormal_drives processed)
  · exact noted

theorem processAll_cons {answer : Except ProcessError (List Txi)}
    (success : processAll ovm sequenceID sd (tx :: txs) = .ok (answer, after)) :
    (∃ error, processTransaction ovm sequenceID sd tx = .ok (.error error, after) ∧
        answer = .error error) ∨ ∃ processed between rest,
        processTransaction ovm sequenceID sd tx = .ok (.ok processed, between) ∧
        processAll ovm sequenceID between txs = .ok (rest, after) ∧
        answer = rest.map (processed :: ·) := by
  obtain ⟨⟨outcome, between⟩, processed, rest⟩ := bind_ok success
  cases outcome with
  | error error =>
    cases rest
    exact .inl ⟨error, processed, rfl⟩
  | ok processedTx =>
    obtain ⟨⟨outcomes, last⟩, processedRest, isLast⟩ := bind_ok rest
    cases isLast
    exact .inr ⟨processedTx, between, outcomes, processed, processedRest, rfl⟩

theorem processAll_ok {done : List Txi}
    (success : processAll ovm sequenceID sd (tx :: txs) = .ok (.ok done, after)) :
    ∃ processed between rest,
      processTransaction ovm sequenceID sd tx = .ok (.ok processed, between) ∧
      processAll ovm sequenceID between txs = .ok (.ok rest, after) ∧ done = processed :: rest := by
  rcases processAll_cons success with ⟨_, -, failed⟩ | ⟨first, next, answer, executed, later, isAll⟩
  · cases failed
  obtain ⟨rest, rfl, same⟩ := map_ok isAll.symm
  exact ⟨first, next, rest, executed, later, same.symm⟩

theorem processAll_drives {answer : Except ProcessError (List Txi)}
    (success : processAll ovm sequenceID sd txs = .ok (answer, after)) : sd.Drives after := by
  induction txs generalizing sd answer with
  | nil =>
    cases success
    exact .refl _
  | cons tx txs ih =>
    rcases processAll_cons success with ⟨error, failed, -⟩ | ⟨_, _, _, processed, rest, -⟩
    · exact processTransaction_drives failed
    · exact (processTransaction_drives processed).trans (ih rest)

end AnnchainOG
