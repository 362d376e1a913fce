import AnnchainOG.Pool.Elders
import Mathlib.Algebra.Ring.Int.Defs

/-!
# What a verified batch satisfies
-/

namespace AnnchainOG

def Txi.spends (addr : Address) (tokenID : TokenId) (txi : Txi) : Int :=
  if txi.getType = .archive then 0
  else
    match txi.body with
    | .tx tx => if tx.sender = addr ∧ tx.tokenId = tokenID then tx.value else 0
    | _ => 0

def spentBy (addr : Address) (tokenID : TokenId) (txs : List Txi) : Int :=
  (txs.map (Txi.spends addr tokenID)).sum

namespace TxPool

variable {seq : Sequencer} {pool : TxPool}
variable {batch next : BatchDetails} {elders : List Txi}

variable (batch)

def BatchDetails.spent (addr : Address) (tokenID : TokenId) : Int :=
  ((batch.lookup addr).bind fun detail => detail.neg.lookup tokenID).getD 0

theorem lift_ok {α : Type} {call : Except Panic α} {value : α}
    (success : Stop.lift call = .ok value) : call = .ok value := by
  cases call with
  | ok result =>
    cases success
    rfl
  | error panic => cases success

private theorem spent_insert (sender : Address) (detail : BatchDetail)
    (addr : Address) (tokenID : TokenId) :
    BatchDetails.spent (batch.insert sender detail) addr tokenID =
      if addr = sender then (detail.neg.lookup tokenID).getD 0
      else BatchDetails.spent batch addr tokenID := by
  unfold BatchDetails.spent
  split
  next same =>
    rw [same, AList.lookup_insert]
    rfl
  next different => rw [AList.lookup_insert_ne different]

private theorem spent_lookup (addr : Address) (tokenID : TokenId) :
    ((((batch.lookup addr).getD .empty).neg).lookup tokenID).getD 0 =
      BatchDetails.spent batch addr tokenID := by
  unfold BatchDetails.spent
  cases batch.lookup addr <;> rfl

private theorem addNeg_lookup (detail : BatchDetail) (tokenID : TokenId) (amount : Int)
    (other : TokenId) :
    ((detail.addNeg tokenID amount).neg.lookup other).getD 0 =
      (detail.neg.lookup other).getD 0 + if tokenID = other then amount else 0 := by
  unfold BatchDetail.addNeg
  by_cases same : other = tokenID
  · subst same
    simp
  · simp [AList.lookup_insert_ne same, Ne.symm same]

variable {batch}

theorem collectElder_spec {txi : Txi} (collected : collectElder seq batch txi = .ok next) :
    (txi.getType = .archive ∨ ∃ sender, txi.sender = .ok sender ∧
        ¬ (sender = seq.issuer ∧ txi.getNonce = seq.base.accountNonce)) ∧
      ∀ addr tokenID, BatchDetails.spent next addr tokenID =
        BatchDetails.spent batch addr tokenID + txi.spends addr tokenID := by
  unfold collectElder at collected
  split at collected
  next archive =>
    cases collected
    refine ⟨.inl archive, fun addr tokenID => ?_⟩
    simp [Txi.spends, archive]
  next notArchive =>
    obtain ⟨sender, lifted, rest⟩ := bind_ok collected
    have isSender := lift_ok lifted
    split at rest
    · cases rest
    rename_i different
    refine ⟨.inr ⟨sender, isSender, different⟩, fun addr tokenID => ?_⟩
    split at rest
    next isBody =>
      cases rest
      simp [Txi.spends, isBody]
    next tx isBody =>
      cases rest
      obtain rfl : tx.sender = sender := by simpa [Txi.sender, isBody] using isSender
      simp only [spent_insert, addNeg_lookup, Txi.spends, notArchive, if_false, isBody]
      split
      next same =>
        subst same
        simp [BatchDetail.put, spent_lookup]
      next other => simp [Ne.symm other]
    all_goals
      rename_i isBody
      cases rest
      simp only [spent_insert, Txi.spends, notArchive, if_false, isBody, add_zero]
      split
      next same =>
        subst same
        simp [BatchDetail.put, spent_lookup]
      · rfl

theorem collectElders_spec (collected : elders.foldlM (collectElder seq) batch = .ok next) :
    (∀ txi ∈ elders, txi.getType = .archive ∨ ∃ sender, txi.sender = .ok sender ∧
        ¬ (sender = seq.issuer ∧ txi.getNonce = seq.base.accountNonce)) ∧
      ∀ addr tokenID, BatchDetails.spent next addr tokenID =
        BatchDetails.spent batch addr tokenID + spentBy addr tokenID elders := by
  induction elders generalizing batch with
  | nil =>
    cases collected
    exact ⟨by simp, fun addr tokenID => (add_zero _).symm⟩
  | cons txi rest ih =>
    obtain ⟨between, first, later⟩ := bind_ok collected
    obtain ⟨passes, tallied⟩ := collectElder_spec first
    obtain ⟨restPass, restTallied⟩ := ih later
    refine ⟨?_, fun addr tokenID => ?_⟩
    · intro other member
      rcases List.mem_cons.mp member with rfl | inRest
      · exact passes
      · exact restPass other inRest
    · rw [restTallied, tallied, spentBy, spentBy, List.map_cons, List.sum_cons, add_assoc]

private theorem checkBalances_ok {addr : Address} {entries : List (Sigma fun _ : TokenId => Int)}
    (checked : pool.checkBalances addr entries = .ok ()) :
    ∀ entry ∈ entries, entry.2 ≤ pool.dag.getBalance addr entry.1 := by
  induction entries with
  | nil => simp
  | cons first rest ih =>
    simp only [checkBalances] at checked
    split at checked
    · cases checked
    rename_i enough
    intro entry member
    rcases List.mem_cons.mp member with rfl | inRest
    · exact Int.not_lt.mp enough
    · exact ih checked entry inRest

private theorem verifyDetails_ok {entries : List (Sigma fun _ : Address => BatchDetail)}
    (verified : pool.verifyDetails seq entries = .ok ()) :
    ∀ entry ∈ entries, pool.checkBalances entry.1 entry.2.neg.entries = .ok () := by
  induction entries with
  | nil => simp
  | cons first rest ih =>
    obtain ⟨⟨⟩, checked, later⟩ := bind_ok verified
    intro entry member
    rcases List.mem_cons.mp member with rfl | inRest
    · exact checked
    refine ih ?_ entry inRest
    split at later
    · obtain ⟨_, _, last⟩ := bind_ok later
      exact last
    · exact later

/-- None but an archive shares sender and nonce with the sequencer, and the ledger covers the
spending. -/
structure Verified (pool : TxPool) (seq : Sequencer) (elders : List Txi) (batch : ConfirmBatch) :
    Prop where
  isSeq : batch.seq = seq
  isTxs : batch.txs = elders.filter fun txi => txi.getType ≠ .sequencer
  passes : ∀ txi ∈ elders, txi.getType = .archive ∨ ∃ sender, txi.sender = .ok sender ∧
    ¬ (sender = seq.issuer ∧ txi.getNonce = seq.base.accountNonce)
  covered : ∀ addr tokenID, spentBy addr tokenID elders = 0 ∨
    spentBy addr tokenID elders ≤ pool.dag.getBalance addr tokenID

theorem verifyConfirmBatch_verified
    {batch : ConfirmBatch} (verified : pool.verifyConfirmBatch seq elders = .ok batch) :
    Verified pool seq elders batch := by
  obtain ⟨details, collected, rest⟩ := bind_ok verified
  obtain ⟨⟨⟩, checked, isBatch⟩ := bind_ok rest
  cases isBatch
  obtain ⟨passes, tallied⟩ := collectElders_spec collected
  refine ⟨rfl, rfl, passes, fun addr tokenID => ?_⟩
  have total : BatchDetails.spent details addr tokenID = spentBy addr tokenID elders := by
    rw [tallied]
    exact zero_add _
  rw [← total]
  unfold BatchDetails.spent
  cases isDetail : details.lookup addr with
  | none => exact .inl rfl
  | some detail =>
    cases isSpent : detail.neg.lookup tokenID with
    | none => exact .inl (by simp [isSpent])
    | some spent =>
      have inDetails := AList.mem_lookup_iff.mp isDetail
      have inNeg := AList.mem_lookup_iff.mp isSpent
      have enough := checkBalances_ok (verifyDetails_ok checked _ inDetails) _ inNeg
      exact .inr (by simpa [isSpent] using enough)

theorem confirmHelper_ok {batch : ConfirmBatch} (accepted : pool.confirmHelper seq = .ok batch) :
    pool.dag.getTxByNonce seq.issuer seq.base.accountNonce = none ∧
      pool.dag.latestSequencer.base.height + 1 = seq.base.height ∧
      ∃ elders, pool.seekElders seq.txi = .ok elders ∧ Verified pool seq elders batch := by
  obtain ⟨⟨⟩, goodSeq, rest⟩ := bind_ok accepted
  obtain ⟨elders, found, verified⟩ := bind_ok rest
  unfold isBadSeq at goodSeq
  split at goodSeq
  · cases goodSeq
  rename_i fresh
  simp only at goodSeq
  split at goodSeq
  · cases goodSeq
  next height =>
    exact ⟨fresh, not_not.mp height, elders, found, verifyConfirmBatch_verified verified⟩

end TxPool

end AnnchainOG
