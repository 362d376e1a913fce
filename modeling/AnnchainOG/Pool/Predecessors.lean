import AnnchainOG.Pool.Requests

/-!
# Predecessors

The transaction before one of the same sender, and the sequencer of the height below, are searched
through the parents in the pool.
-/

namespace AnnchainOG

def Txi.Issued (txi : Txi) (sender : Address) (nonce : UInt64) : Prop :=
  txi.getType ≠ .archive ∧ txi.sender = .ok sender ∧ txi.getNonce = nonce

namespace Served

variable {node : Served} {hit : Txi → Except Panic Bool} {ends : Txi → Bool} {roots : List Hash}
  {hash : Hash} {txi : Txi} {sender : Address} {nonce height : UInt64}

/-- With whether it comes from the ledger. -/
def getTxFromAnywhere (node : Served) (hash : Hash) : Option (Txi × Bool) :=
  match node.ledger.pool.get hash with
  | some txi => some (txi, false)
  | none => (node.getTx hash).map fun txi => (txi, true)

def look (node : Served) (hit : Txi → Except Panic Bool) (ends : Txi → Bool) (head : Hash) :
    Worklist.Look Hash :=
  match node.getTxFromAnywhere head with
  | none => .skip
  | some (txi, archived) =>
    match hit txi with
    | .ok false => if archived || ends txi then .skip else .next txi.parents
    | _ => .stop

def search (node : Served) (hit : Txi → Except Panic Bool) (ends : Txi → Bool) (roots : List Hash) :
    Option (Except Hash (List Hash)) :=
  Worklist.search (node.look hit ends) (roots.length + node.ledger.pool.pooledParents.card) roots
    [] []

/-- The test of the transaction at which the search ends. -/
def seek (node : Served) (hit : Txi → Except Panic Bool) (ends : Txi → Bool) (roots : List Hash) :
    Except Panic Bool :=
  match node.search hit ends roots with
  | some (.error head) => (node.getTxFromAnywhere head).elim (.ok false) fun found => hit found.1
  | _ => .ok false

def isPrevious (sender : Address) (nonce : UInt64) (txi : Txi) : Except Panic Bool :=
  if txi.getType = .archive then .ok false
  else txi.sender.map fun other => other == sender && txi.getNonce == nonce - 1

def isPreviousSequencer (height : UInt64) (txi : Txi) : Except Panic Bool :=
  if txi.getType ≠ .sequencer then .ok false
  else
    match txi.asSequencer with
    | none => .error .typeAssertion
    | some seq => .ok (seq.base.height == height - 1)

def getMyPreviousTx (node : Served) (archiveMode : Bool) (txi : Txi) (sender : Address) :
    Except Panic Bool :=
  if txi.getNonce = 1 then .ok true
  else if archiveMode then
    .ok (node.ledger.pool.dag.getTxByNonce sender (txi.getNonce - 1)).isSome
  else
    node.seek (isPrevious sender txi.getNonce) (fun elder => elder.getType = .sequencer) txi.parents

def getPreviousSequencer (node : Served) (seq : Sequencer) : Except Panic Bool :=
  (node.seek (isPreviousSequencer seq.base.height) (fun _ => false) [seq.base.hash]).map fun found =>
    found || (node.getSequencerByHeight (seq.base.height - 1)).isSome

/-- The checks of a nonce above 1, with the latest nonces of the pool and of the ledger. -/
def nonceFollows (node : Served) (archiveMode : Bool) (txi : Txi) (sender : Address) :
    Except Panic Bool :=
  let dagNonce := node.ledger.pool.dag.getLatestNonce sender
  match node.ledger.pool.flows.getLatestNonce sender with
  | none => .ok (dagNonce == txi.getNonce - 1)
  | some nonce =>
    if nonce < txi.getNonce - 1 then .ok false
    else if dagNonce ≠ nonce then node.getMyPreviousTx archiveMode txi sender
    else .ok true

def verifyA3 (node : Served) (archiveMode : Bool) (txi : Txi) : Except Panic Bool :=
  if txi.getType = .archive then .ok true
  else if archiveMode && txi.getType ≠ .sequencer then .ok false
  else if txi.getNonce = 0 then .ok false
  else do
    let sender ← txi.sender
    if txi.getNonce = 1 then
      return (node.ledger.pool.flows.getLatestNonce sender).isNone
    if ← node.nonceFollows archiveMode txi sender then
      if txi.getType = .sequencer then
        match txi.asSequencer with
        | none => .error .typeAssertion
        | some seq => node.getPreviousSequencer seq
      else return true
    else return false

/-! ## What the searches find -/

/-- In the ledger, or reached through parents in the pool. -/
def Behind (node : Served) (roots : List Hash) (txi : Txi) : Prop :=
  ∃ hash, node.getTx hash = some txi ∨
    node.ledger.pool.Ancestor roots hash ∧ node.ledger.pool.get hash = some txi

theorem getTxFromAnywhere_found {archived : Bool}
    (found : node.getTxFromAnywhere hash = some (txi, archived)) :
    if archived then node.getTx hash = some txi else node.ledger.pool.get hash = some txi := by
  unfold getTxFromAnywhere at found
  split at found
  · cases found
    assumption
  · obtain ⟨_, isTx, same⟩ := Option.map_eq_some_iff.mp found
    cases same
    exact isTx

theorem look_next {nodes : List Hash} (opens : node.look hit ends hash = .next nodes) :
    ∃ elder, node.ledger.pool.get hash = some elder ∧ elder.parents = nodes := by
  unfold look at opens
  split at opens
  · cases opens
  rename_i elder archived found
  split at opens
  · split at opens
    · cases opens
    next goesOn =>
      rw [Bool.or_eq_true, not_or, Bool.not_eq_true] at goesOn
      cases goesOn.1
      cases opens
      exact ⟨elder, getTxFromAnywhere_found found, rfl⟩
  · cases opens

theorem search_ends (node : Served) (hit : Txi → Except Panic Bool) (ends : Txi → Bool)
    (roots : List Hash) :
    ∃ result, node.search hit ends roots = some result ∧
      Worklist.Result (node.look hit ends) roots result := by
  refine Worklist.search_result (fun hash nodes opens parentHash member => ?_) le_rfl
  obtain ⟨elder, pooled, rfl⟩ := look_next opens
  exact TxPool.mem_pooledParents pooled member

theorem ancestor_of_reaches (reached : Worklist.Reaches (node.look hit ends) roots hash) :
    node.ledger.pool.Ancestor roots hash := by
  induction reached with
  | root member => exact .root member
  | next _ opens member ih =>
    obtain ⟨elder, pooled, rfl⟩ := look_next opens
    exact .parent ih pooled member

theorem seek_found (found : node.seek hit ends roots = .ok true) :
    ∃ txi, node.Behind roots txi ∧ hit txi = .ok true := by
  obtain ⟨result, searched, isResult⟩ := node.search_ends hit ends roots
  rw [seek, searched] at found
  cases result with
  | ok opened => cases found
  | error head =>
    dsimp only at found
    cases isFound : node.getTxFromAnywhere head with
    | none =>
      rw [isFound] at found
      cases found
    | some pair =>
      rw [isFound] at found
      have source := getTxFromAnywhere_found isFound
      refine ⟨pair.1, ⟨head, ?_⟩, found⟩
      split at source
      · exact .inl source
      · exact .inr ⟨ancestor_of_reaches isResult.1, source⟩

theorem isPrevious_issued (found : isPrevious sender nonce txi = .ok true) :
    txi.Issued sender (nonce - 1) := by
  unfold isPrevious at found
  split at found
  · cases found
  rename_i notArchive
  obtain ⟨other, isSender, same⟩ := map_ok found
  rw [Bool.and_eq_true, beq_iff_eq, beq_iff_eq] at same
  exact ⟨notArchive, same.1 ▸ isSender, same.2⟩

theorem isPreviousSequencer_height (found : isPreviousSequencer height txi = .ok true) :
    ∃ seq, txi.asSequencer = some seq ∧ seq.base.height = height - 1 := by
  unfold isPreviousSequencer at found
  split at found
  · cases found
  split at found
  · cases found
  rename_i seq isSequencer
  exact ⟨seq, isSequencer, beq_iff_eq.mp (Except.ok.inj found)⟩

/-! ## What is accepted -/

def GapFree (node : Served) : Prop :=
  ∀ sender nonce, 0 < nonce → nonce ≤ node.ledger.pool.dag.getLatestNonce sender →
    ∃ hash txi, node.getTx hash = some txi ∧ txi.Issued sender nonce

def HasPrevious (node : Served) (txi : Txi) : Prop :=
  ∃ sender prev, txi.sender = .ok sender ∧ node.Behind txi.parents prev ∧
    prev.Issued sender (txi.getNonce - 1)

def HasSequencer (node : Served) (txi : Txi) : Prop :=
  (∃ prev seq, node.Behind [txi.getTxHash] prev ∧ prev.asSequencer = some seq ∧
      seq.base.height = txi.base.height - 1) ∨
    ∃ seq, node.getSequencerByHeight (txi.base.height - 1) = some seq

theorem nonceFollows_previous (gapFree : node.GapFree) (isSender : txi.sender = .ok sender)
    (above : 1 < txi.getNonce) (follows : node.nonceFollows false txi sender = .ok true) :
    node.HasPrevious txi := by
  have inLedger (upTo : txi.getNonce - 1 ≤ node.ledger.pool.dag.getLatestNonce sender) :
      node.HasPrevious txi := by
    have positive : 0 < txi.getNonce - 1 := by
      rw [UInt64.lt_iff_toNat_lt, UInt64.toNat_sub_of_le _ _ (UInt64.le_of_lt above)]
      exact Nat.sub_pos_of_lt (UInt64.lt_iff_toNat_lt.mp above)
    obtain ⟨hash, prev, isTx, issued⟩ := gapFree sender _ positive upTo
    exact ⟨sender, prev, isSender, ⟨hash, .inl isTx⟩, issued⟩
  unfold nonceFollows at follows
  dsimp only at follows
  split at follows
  · exact inLedger (UInt64.le_of_eq (beq_iff_eq.mp (Except.ok.inj follows)).symm)
  split at follows
  · cases follows
  rename_i notBelow
  split at follows
  · rw [getMyPreviousTx, if_neg (UInt64.ne_of_lt above).symm] at follows
    obtain ⟨prev, behind, isHit⟩ := seek_found follows
    exact ⟨sender, prev, isSender, behind, isPrevious_issued isHit⟩
  next same =>
    rw [← not_not.mp same] at notBelow
    exact inLedger (UInt64.not_lt.mp notBelow)

theorem getPreviousSequencer_hasSequencer {seq : Sequencer} (isSequencer : txi.asSequencer = some seq)
    (found : node.getPreviousSequencer seq = .ok true) : node.HasSequencer txi := by
  have same : seq.base = txi.base := by
    unfold Txi.asSequencer at isSequencer
    split at isSequencer <;> cases isSequencer
    rfl
  rw [getPreviousSequencer, same] at found
  obtain ⟨sought, isSought, either⟩ := map_ok found
  rcases (Bool.or_eq_true _ _).mp either with rfl | byHeight
  · obtain ⟨prev, behind, isHit⟩ := seek_found isSought
    obtain ⟨prevSeq, isPrev, isHeight⟩ := isPreviousSequencer_height isHit
    exact .inl ⟨prev, prevSeq, behind, isPrev, isHeight⟩
  · exact .inr (Option.isSome_iff_exists.mp byHeight)

theorem verifyA3_accepts (gapFree : node.GapFree) (notArchive : txi.getType ≠ .archive)
    (accepted : node.verifyA3 false txi = .ok true) :
    (txi.getNonce = 1 ∧
        ∃ sender, txi.sender = .ok sender ∧ node.ledger.pool.flows.getLatestNonce sender = none) ∨
      node.HasPrevious txi ∧ (txi.getType = .sequencer → node.HasSequencer txi) := by
  rw [verifyA3, if_neg notArchive, Bool.false_and, if_neg Bool.false_ne_true] at accepted
  split at accepted
  · cases accepted
  rename_i notZero
  obtain ⟨sender, isSender, rest⟩ := bind_ok accepted
  split at rest
  next isOne =>
    exact .inl ⟨isOne, sender, isSender, Option.isNone_iff_eq_none.mp (Except.ok.inj rest)⟩
  rename_i notOne
  have above : 1 < txi.getNonce := by
    rw [← UInt64.toNat_inj] at notZero notOne
    rw [UInt64.lt_iff_toNat_lt]
    simp at notZero notOne ⊢
    omega
  obtain ⟨follows, isFollows, rest⟩ := bind_ok rest
  split at rest
  next isTrue =>
    rw [isTrue] at isFollows
    refine .inr ⟨nonceFollows_previous gapFree isSender above isFollows, fun tagged => ?_⟩
    rw [if_pos tagged] at rest
    split at rest
    · cases rest
    · exact getPreviousSequencer_hasSequencer ‹_› rest
  · cases rest

theorem opened_gapFree : opened.GapFree := by
  intro sender nonce positive upTo
  exact absurd positive (UInt64.not_lt.mpr upTo)

end Served

end AnnchainOG
