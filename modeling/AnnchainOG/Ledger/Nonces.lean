import AnnchainOG.Ledger.Index
import AnnchainOG.Ledger.TokenBook

/-!
# Execution and the nonces

Executing a transaction raises the nonce of its sender to its own.
-/

namespace AnnchainOG

open FlatDB

namespace StateDB

variable (sd : StateDB)
variable {after : StateDB}
variable {tokenID : TokenId} {answer : Except TokenError Unit}

theorem getNonce_touch (addr other : Address) :
    (sd.getStateObject addr).2.getNonce other = sd.getNonce other := by
  obtain ⟨loaded, found, sameAbs, -⟩ := sd.getStateObject_spec addr
  simp only [getNonce_eq_nonces, found, sameAbs]

theorem getNonce_of_absent {addr : Address} (absent : sd.exist addr = false) :
    sd.getNonce addr = 0 := by
  rw [exist_eq] at absent
  rw [getNonce_eq]
  cases found : sd.flat.accounts addr with
  | none => rfl
  | some account =>
    rw [found] at absent
    cases absent

theorem getNonce_updateNonce (sender : Address) (nonce : UInt64) (addr : Address) :
    ((updateNonce sd sender nonce).getNonce addr).toNat =
      if addr = sender then max (sd.getNonce addr).toNat nonce.toNat
      else (sd.getNonce addr).toNat := by
  unfold updateNonce
  simp only
  split
  next raises =>
    rw [getNonce_eq_nonces, abs_setNonce, nonces_setNonce, Function.update_apply,
      ← getNonce_eq_nonces, getNonce_touch]
    split
    next same =>
      subst same
      refine (Nat.max_eq_right ?_).symm
      rcases (Bool.or_eq_true _ _).mp raises with absent | larger
      · rw [← getNonce_touch sd addr addr, getNonce_of_absent _ (by simpa using absent)]
        exact Nat.zero_le _
      · rw [getNonce_touch] at larger
        exact (UInt64.lt_iff_toNat_lt.mp (of_decide_eq_true larger)).le
    · rfl
  next keeps =>
    rw [getNonce_touch]
    split
    next same =>
      subst same
      refine (Nat.max_eq_left (Nat.le_of_not_lt fun larger => keeps ?_)).symm
      rw [getNonce_touch]
      exact (Bool.or_eq_true _ _).mpr (.inr (decide_eq_true (UInt64.lt_iff_toNat_lt.mpr larger)))
    · rfl

theorem getNonce_transfer (tx : Tx) (addr : Address) :
    (transfer sd tx).getNonce addr = sd.getNonce addr := by
  unfold transfer
  split
  · rw [getNonce_eq_nonces, getNonce_eq_nonces, abs_addBalance, nonces_addBalance,
      abs_subBalance, nonces_subBalance]
  · rfl

theorem getNonce_issueToken {issuer : Address} {name symbol : Bytes} {reIssuable : Bool}
    {fstIssue : Int} {answer : Except TokenError TokenId}
    (issued : sd.issueToken issuer name symbol reIssuable fstIssue = (answer, after))
    (addr : Address) : after.getNonce addr = sd.getNonce addr := by
  have simulated := congrArg Prod.snd (sd.abs_issueToken issuer name symbol reIssuable fstIssue)
  simp only [issued] at simulated
  rw [getNonce_eq_nonces, getNonce_eq_nonces, simulated, nonces_issueToken]

theorem getNonce_reIssueToken {amount : Int}
    (reissued : sd.reIssueToken tokenID amount = .ok (answer, after))
    (addr : Address) : after.getNonce addr = sd.getNonce addr := by
  have simulated := sd.abs_reIssueToken tokenID amount
  rw [reissued] at simulated
  rw [getNonce_eq_nonces, getNonce_eq_nonces, nonces_reIssueToken _ simulated.symm]

theorem getNonce_destroyToken (destroyed : sd.destroyToken tokenID = .ok (answer, after))
    (addr : Address) : after.getNonce addr = sd.getNonce addr := by
  have simulated := sd.abs_destroyToken tokenID
  rw [destroyed] at simulated
  rw [getNonce_eq_nonces, getNonce_eq_nonces, nonces_destroyToken _ simulated.symm]

end StateDB

variable {tx processed : Txi} {ovm : Ovm} {sequenceID : UInt64}

theorem processTokenTransaction_getNonce {sd after : StateDB} {actionTx : ActionTx}
    (success : processTokenTransaction sd tx actionTx = .ok (.ok processed, after))
    (addr : Address) : after.getNonce addr = sd.getNonce addr := by
  obtain ⟨offering, -, executed⟩ := processTokenTransaction_cases success
  rcases executed with ⟨-, issued, done, -⟩ | ⟨-, outcome, done, -⟩ | ⟨-, outcome, done, -⟩ | ⟨-, rfl⟩
  · exact sd.getNonce_issueToken done addr
  · exact sd.getNonce_reIssueToken done addr
  · exact sd.getNonce_destroyToken done addr
  · rfl

theorem processTransaction_getNonce {sd after : StateDB} (noData : tx.noData = true)
    (success : processTransaction ovm sequenceID sd tx = .ok (.ok processed, after))
    (addr : Address) :
    (after.getNonce addr).toNat =
      if tx.key = some (addr, tx.getNonce) then max (sd.getNonce addr).toNat tx.getNonce.toNat
      else (sd.getNonce addr).toNat := by
  rcases processTransaction_cases success with ⟨archive, -, rfl⟩ | ⟨sender, notArchive, isSender, executed⟩
  · have noKey : tx.key = none := if_pos archive
    rw [if_neg (by rw [noKey]; exact nofun)]
  have raised : after.getNonce addr = (updateNonce sd sender tx.getNonce).getNonce addr := by
    rcases executed with ⟨actionTx, -, -, issued⟩ | ⟨normal, -, isBody, transferred⟩ | ⟨-, -, -, rfl⟩
    · exact processTokenTransaction_getNonce issued addr
    · simp only [Txi.noData, isBody, decide_eq_true_eq] at noData
      simp only [processNormal, if_pos noData] at transferred
      obtain rfl := congrArg Prod.snd (Except.ok.inj transferred)
      exact StateDB.getNonce_transfer _ normal addr
    · rfl
  have isKey : tx.key = some (addr, tx.getNonce) ↔ addr = sender := by
    rw [Txi.key_eq_some_iff, isSender]
    simp [notArchive, eq_comm]
  rw [raised, StateDB.getNonce_updateNonce]
  simp only [isKey]

theorem processAll_getNonce {txs processed : List Txi}
    {sd after : StateDB} (noData : ∀ tx ∈ txs, tx.noData = true)
    (success : processAll ovm sequenceID sd txs = .ok (.ok processed, after)) (addr : Address)
    (bound : Nat) :
    (after.getNonce addr).toNat ≤ bound ↔ (sd.getNonce addr).toNat ≤ bound ∧
      ∀ nonce, (addr, nonce) ∈ txs.filterMap Txi.key → nonce.toNat ≤ bound := by
  induction txs generalizing sd processed with
  | nil =>
    cases success
    simp
  | cons tx txs ih =>
    obtain ⟨first, between, rest, done, later, -⟩ := processAll_ok success
    have stepped := processTransaction_getNonce (noData tx List.mem_cons_self) done addr
    rw [ih (fun other member => noData other (List.mem_cons_of_mem _ member)) later, stepped]
    simp only [List.mem_filterMap, List.exists_mem_cons_iff]
    constructor
    · rintro ⟨atFirst, atRest⟩
      split at atFirst
      · refine ⟨(Nat.max_le.mp atFirst).1, fun nonce isKey => ?_⟩
        rcases isKey with own | other
        · obtain ⟨-, -, rfl⟩ := Txi.key_eq_some_iff.mp own
          exact (Nat.max_le.mp atFirst).2
        · exact atRest nonce other
      next notOwn =>
        refine ⟨atFirst, fun nonce isKey => ?_⟩
        rcases isKey with own | other
        · obtain ⟨-, -, rfl⟩ := Txi.key_eq_some_iff.mp own
          exact absurd own notOwn
        · exact atRest nonce other
    · rintro ⟨before, all⟩
      refine ⟨?_, fun nonce other => all nonce (.inr other)⟩
      split
      next own => exact Nat.max_le.mpr ⟨before, all _ (.inl own)⟩
      · exact before

end AnnchainOG
