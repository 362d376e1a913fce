import AnnchainOG.Lib.Runs
import AnnchainOG.Ledger.Index
import AnnchainOG.Pool.Batch

/-!
# Runs of the pool

What a submission can do to the lookup of the pool, to its flows and to the ledger behind it.
-/

namespace AnnchainOG

open GoMap List Option TxLookUp

open AccountFlows (ensureFlow getTxByNonce openBalance resetFlow)

/-! ## The lookup -/

def TxStatus.isGood : TxStatus → Bool
  | .tip | .pending => true
  | .notExist | .queue | .badTx => false

/-- While other transactions are judged, a status stays, or a tip gets a child. -/
def TxStatus.Becomes (old new : TxStatus) : Prop :=
  new = old ∨ old = .tip ∧ new = .pending

namespace TxStatus.Becomes

variable {old new : TxStatus}

theorem refl (status : TxStatus) : status.Becomes status := .inl rfl

theorem trans {first second third : TxStatus} (left : first.Becomes second)
    (right : second.Becomes third) : first.Becomes third := by
  rcases left with rfl | ⟨rfl, rfl⟩
  · exact right
  rcases right with rfl | ⟨isTip, -⟩
  · exact .inr ⟨rfl, rfl⟩
  · cases isTip

theorem good (becomes : old.Becomes new) (isGood : new.isGood = true) : old.isGood = true := by
  rcases becomes with rfl | ⟨rfl, -⟩
  · exact isGood
  · rfl

theorem bad (becomes : old.Becomes new) (isBad : new = .badTx) : old = .badTx := by
  rcases becomes with rfl | ⟨-, rfl⟩
  · exact isBad
  · cases isBad

end TxStatus.Becomes

namespace TxLookUp

theorem getEnvelope_add (lookup : TxLookUp) (txEnv : TxEnvelope) (h : Hash) :
    (lookup.add txEnv).getEnvelope h =
      if h = txEnv.tx.getTxHash then some ((lookup.getEnvelope h).getD txEnv)
      else lookup.getEnvelope h := by
  refine Eq.trans ?_ (lookup.txs.get?_setNew txEnv.tx.getTxHash txEnv h)
  unfold add
  split <;> rfl

theorem getEnvelope_remove (lookup : TxLookUp) (h : Hash) (removeType : HashOrderRemoveType)
    (other : Hash) :
    (lookup.remove h removeType).getEnvelope other =
      if other = h then none else lookup.getEnvelope other :=
  get?_delete _ _ _

theorem getEnvelope_switchStatus (lookup : TxLookUp) (h : Hash) (status : TxStatus) (other : Hash) :
    (lookup.switchStatus h status).getEnvelope other =
      if other = h then (lookup.getEnvelope h).map fun txEnv => { txEnv with status := status }
      else lookup.getEnvelope other := by
  unfold switchStatus
  split
  next absent =>
    split
    next same =>
      rw [same, absent]
      rfl
    · rfl
  next txEnv present =>
    simp only [getEnvelope, get?_set]
    split
    · simp only [getEnvelope] at present
      rw [present]
      rfl
    · rfl

/-- Each hash is listed once, what is listed is there, and is listed under its hash. -/
structure WellFormed (lookup : TxLookUp) : Prop where
  distinct : lookup.order.Nodup
  listed : ∀ h ∈ lookup.order, ∃ txEnv, lookup.getEnvelope h = some txEnv
  hashes : ∀ {h txEnv}, lookup.getEnvelope h = some txEnv → txEnv.tx.getTxHash = h

theorem WellFormed.empty : TxLookUp.empty.WellFormed := ⟨nodup_nil, by simp [TxLookUp.empty], nofun⟩

variable {lookup : TxLookUp}

theorem WellFormed.add (wellFormed : lookup.WellFormed) (txEnv : TxEnvelope) :
    (lookup.add txEnv).WellFormed := by
  by_cases present : lookup.txs.contains txEnv.tx.getTxHash = true
  · rwa [TxLookUp.add, if_pos present]
  have absent : lookup.getEnvelope txEnv.tx.getTxHash = none := get?_eq_none present
  have isOrder : (lookup.add txEnv).order = lookup.order ++ [txEnv.tx.getTxHash] := by
    rw [TxLookUp.add, if_neg present]
  refine ⟨?_, ?_, ?_⟩
  · rw [isOrder]
    refine nodup_append'.mpr ⟨wellFormed.distinct, nodup_singleton _, ?_⟩
    rw [disjoint_singleton]
    intro member
    obtain ⟨other, found⟩ := wellFormed.listed _ member
    rw [absent] at found
    cases found
  · intro h member
    rw [isOrder] at member
    rw [getEnvelope_add]
    split
    · exact ⟨_, rfl⟩
    rename_i different
    rcases mem_append.mp member with earlier | added
    · exact wellFormed.listed h earlier
    · exact absurd (mem_singleton.mp added) different
  · intro h other found
    rw [getEnvelope_add] at found
    split at found
    next same =>
      rw [same, absent] at found
      cases found
      exact same.symm
    · exact wellFormed.hashes found

theorem WellFormed.remove (wellFormed : lookup.WellFormed) (h : Hash)
    (removeType : HashOrderRemoveType) (removes : removeType ≠ .noRemove) :
    (lookup.remove h removeType).WellFormed := by
  have members : ∀ other, other ∈ (lookup.remove h removeType).order →
      other ≠ h ∧ other ∈ lookup.order := by
    intro other member
    cases removeType with
    | noRemove => exact absurd rfl removes
    | removeFromFront => exact wellFormed.distinct.mem_erase_iff.mp member
    | removeFromEnd =>
      have erased := mem_reverse.mp member
      obtain ⟨different, kept⟩ := (nodup_reverse.mpr wellFormed.distinct).mem_erase_iff.mp erased
      exact ⟨different, mem_reverse.mp kept⟩
  refine ⟨?_, ?_, ?_⟩
  · cases removeType with
    | noRemove => exact absurd rfl removes
    | removeFromFront => exact wellFormed.distinct.erase h
    | removeFromEnd => exact nodup_reverse.mpr ((nodup_reverse.mpr wellFormed.distinct).erase h)
  · intro other member
    obtain ⟨different, earlier⟩ := members other member
    rw [getEnvelope_remove, if_neg different]
    exact wellFormed.listed other earlier
  · intro other txEnv found
    rw [getEnvelope_remove] at found
    split at found
    · cases found
    · exact wellFormed.hashes found

theorem WellFormed.switchStatus (wellFormed : lookup.WellFormed) (h : Hash) (status : TxStatus) :
    (lookup.switchStatus h status).WellFormed := by
  have sameOrder : (lookup.switchStatus h status).order = lookup.order := by
    unfold TxLookUp.switchStatus
    split <;> rfl
  refine ⟨sameOrder ▸ wellFormed.distinct, ?_, ?_⟩
  · intro other member
    obtain ⟨txEnv, found⟩ := wellFormed.listed other (sameOrder ▸ member)
    rw [getEnvelope_switchStatus]
    split
    next same => exact ⟨_, by rw [← same, found]; rfl⟩
    · exact ⟨txEnv, found⟩
  · intro other txEnv found
    rw [getEnvelope_switchStatus] at found
    split at found
    next same =>
      obtain ⟨earlier, present, rfl⟩ := map_eq_some_iff.mp found
      exact (wellFormed.hashes present).trans same.symm
    · exact wellFormed.hashes found

end TxLookUp

namespace TxPool

variable {pool next : TxPool} {tx : Txi} {flows : AccountFlows} {dag : Dag} {flow : AccountFlow}
  {sender : Address} {envelopes : List TxEnvelope}
variable {first second third : TxPool} {h : Hash} {txEnv queue : TxEnvelope} {opened : AccountFlow}
  {other : Txi} {addr : Address} {nonce : UInt64}

/-- Every envelope was there before, around the same transaction, in the same status or as a
tip. -/
def Inherits (before after : TxPool) : Prop :=
  ∀ h txEnv, after.txLookup.getEnvelope h = some txEnv →
    ∃ earlier, before.txLookup.getEnvelope h = some earlier ∧ earlier.tx = txEnv.tx ∧
      earlier.status.Becomes txEnv.status

variable (pool)

theorem Inherits.refl : Inherits pool pool :=
  fun _ txEnv found => ⟨txEnv, found, rfl, .refl _⟩

theorem Inherits.trans (left : Inherits first second)
    (right : Inherits second third) : Inherits first third := by
  intro h txEnv found
  obtain ⟨between, inSecond, sameTx, becomes⟩ := right h txEnv found
  obtain ⟨earlier, inFirst, sameEarlier, becameBetween⟩ := left h between inSecond
  exact ⟨earlier, inFirst, sameEarlier.trans sameTx, becameBetween.trans becomes⟩

/-! ## Moving parents -/

structure Moved (pool moved : TxPool) : Prop where
  dag : moved.dag = pool.dag
  flows : moved.flows = pool.flows
  cached : moved.cached = pool.cached
  wellFormed : pool.txLookup.WellFormed → moved.txLookup.WellFormed
  inherits : Inherits pool moved
  /-- Only tips are moved. -/
  others : ∀ h, pool.getStatus h ≠ .tip →
    moved.txLookup.getEnvelope h = pool.txLookup.getEnvelope h

theorem Moved.refl : Moved pool pool :=
  ⟨rfl, rfl, rfl, id, .refl pool, fun _ _ => rfl⟩

variable {pool} in
theorem getStatus_eq
    (found : pool.txLookup.getEnvelope h = some txEnv) : pool.getStatus h = txEnv.status := by
  rw [getStatus, TxLookUp.status, found]
  rfl

theorem Moved.trans (left : Moved first second)
    (right : Moved second third) : Moved first third := by
  refine ⟨right.dag.trans left.dag, right.flows.trans left.flows,
    right.cached.trans left.cached, fun wellFormed => right.wellFormed (left.wellFormed wellFormed),
    Inherits.trans left.inherits right.inherits, fun h notTip => ?_⟩
  have same := left.others h notTip
  refine (right.others h ?_).trans same
  rwa [getStatus, TxLookUp.status, same]

theorem moveParent_moved (pHash : Hash) : Moved pool (pool.moveParent pHash) := by
  unfold moveParent
  split
  · exact .refl pool
  rename_i isTip
  have isTip := not_not.mp isTip
  split
  · exact .refl pool
  split
  · refine ⟨rfl, rfl, rfl, fun wellFormed => wellFormed.remove pHash .removeFromFront (by decide), ?_, ?_⟩
    · intro h txEnv found
      rw [getEnvelope_remove] at found
      split at found
      · cases found
      · exact ⟨txEnv, found, rfl, .refl _⟩
    · intro h notTip
      refine (getEnvelope_remove _ _ _ _).trans (if_neg ?_)
      rintro rfl
      exact notTip isTip
  · refine ⟨rfl, rfl, rfl, fun wellFormed => wellFormed.switchStatus pHash _, ?_, ?_⟩
    · intro h txEnv found
      rw [getEnvelope_switchStatus] at found
      split at found
      next same =>
        obtain ⟨earlier, present, rfl⟩ := map_eq_some_iff.mp found
        exact ⟨earlier, same ▸ present, rfl, .inr ⟨(getStatus_eq present).symm.trans isTip, rfl⟩⟩
      · exact ⟨txEnv, found, rfl, .refl _⟩
    · intro h notTip
      refine (getEnvelope_switchStatus _ _ _ _).trans (if_neg ?_)
      rintro rfl
      exact notTip isTip

theorem moveParents_moved (parents : List Hash) : Moved pool (parents.foldl moveParent pool) := by
  induction parents generalizing pool with
  | nil => exact .refl pool
  | cons pHash rest ih => exact (moveParent_moved pool pHash).trans (ih _)

/-! ## Admission -/

/-- A transaction was judged good and entered the flow of its sender, if it has one. -/
def Admits (tx : Txi) (flows : AccountFlows) : Prop :=
  pool.isBadTx tx = .ok .isGood ∧
    (tx.getType = .archive ∧ flows = pool.flows ∨
      tx.getType ≠ .archive ∧ ∃ sender, tx.sender = .ok sender ∧
        AccountFlows.add pool.dag (pool.flows.ensureFlow sender) tx = .ok flows)

structure Judges (pool : TxPool) (tx : Txi) (next : TxPool) : Prop where
  dag : next.dag = pool.dag
  cached : next.cached = pool.cached
  wellFormed : next.txLookup.WellFormed
  flows : next.flows = pool.flows ∨ pool.Admits tx next.flows
  own : ∀ txEnv, next.txLookup.getEnvelope tx.getTxHash = some txEnv →
    txEnv.tx = tx ∧ (txEnv.status.isGood = true → pool.Admits tx next.flows)
  stays : ∀ txEnv, next.txLookup.getEnvelope tx.getTxHash = some txEnv →
    ∃ quality, pool.isBadTx tx = .ok quality ∧ quality ≠ .isFatal
  others : ∀ h txEnv, h ≠ tx.getTxHash → next.txLookup.getEnvelope h = some txEnv →
    ∃ earlier, pool.txLookup.getEnvelope h = some earlier ∧ earlier.tx = txEnv.tx ∧
      earlier.status.Becomes txEnv.status

def Queued (tx : Txi) : Prop :=
  ∃ txEnv, pool.txLookup.getEnvelope tx.getTxHash = some txEnv ∧ txEnv.tx = tx ∧
    txEnv.status = .queue

variable {pool}

theorem remove_queued {removeType : HashOrderRemoveType}
    (queued : pool.Queued tx) (removed : pool.remove tx removeType = .ok next) :
    next = { pool with txLookup := pool.txLookup.remove tx.getTxHash removeType } := by
  obtain ⟨txEnv, found, -, isQueue⟩ := queued
  simp only [remove, getStatus_eq found, isQueue] at removed
  cases removed
  rfl

theorem addTip_ok (added : pool.addTip tx = .ok next) :
    ∃ flows, next = { pool with
        flows := flows, tips := TxMap.add pool.tips tx
        txLookup := pool.txLookup.switchStatus tx.getTxHash .tip } ∧
      (tx.getType = .archive ∧ flows = pool.flows ∨
        tx.getType ≠ .archive ∧ ∃ sender, tx.sender = .ok sender ∧
          AccountFlows.add pool.dag (pool.flows.ensureFlow sender) tx = .ok flows) := by
  unfold addTip at added
  split at added
  next archive =>
    cases added
    exact ⟨pool.flows, rfl, .inl ⟨archive, rfl⟩⟩
  next notArchive =>
    obtain ⟨sender, isSender, rest⟩ := bind_ok added
    obtain ⟨flows, entered, isNext⟩ := bind_ok rest
    cases isNext
    exact ⟨flows, rfl, .inr ⟨notArchive, sender, isSender, entered⟩⟩

inductive Commits (pool : TxPool) (tx : Txi) : TxPool → Prop where
  | fatal : Commits pool tx
      { pool with txLookup := pool.txLookup.remove tx.getTxHash .removeFromEnd }
  | bad (judged : pool.isBadTx tx = .ok .isBad) : Commits pool tx { pool with
      badtxs := TxMap.add pool.badtxs tx
      txLookup := pool.txLookup.switchStatus tx.getTxHash .badTx }
  | good {flows : AccountFlows} (admits : pool.Admits tx flows) :
    Commits pool tx { tx.parents.foldl moveParent pool with
      flows := flows
      tips := TxMap.add (tx.parents.foldl moveParent pool).tips tx
      txLookup := (tx.parents.foldl moveParent pool).txLookup.switchStatus tx.getTxHash .tip }

theorem commit_cases {answer : Except PoolError Unit} (queued : pool.Queued tx)
    (committed : pool.commit tx = .ok (answer, next)) : pool.Commits tx next := by
  obtain ⟨quality, judged, rest⟩ := bind_ok committed
  cases quality with
  | isFatal =>
    obtain ⟨removed, isRemoved, last⟩ := bind_ok rest
    cases last
    rw [remove_queued queued isRemoved]
    exact .fatal
  | isBad =>
    cases rest
    exact .bad judged
  | isGood =>
    obtain ⟨added, isAdded, last⟩ := bind_ok rest
    cases last
    obtain ⟨flows, rfl, entered⟩ := addTip_ok isAdded
    have moved := moveParents_moved pool tx.parents
    rw [moved.dag, moved.flows] at entered
    exact .good ⟨judged, entered⟩

theorem commit_judges {answer : Except PoolError Unit}
    (wellFormed : pool.txLookup.WellFormed) (queued : pool.Queued tx)
    (committed : pool.commit tx = .ok (answer, next)) : pool.Judges tx next := by
  cases commit_cases queued committed with
  | fatal =>
    have gone : ∀ txEnv, (pool.txLookup.remove tx.getTxHash .removeFromEnd).getEnvelope
        tx.getTxHash ≠ some txEnv := by
      intro txEnv found
      rw [getEnvelope_remove, if_pos rfl] at found
      cases found
    refine ⟨rfl, rfl, wellFormed.remove _ .removeFromEnd (by decide), .inl rfl,
      fun txEnv found => absurd found (gone txEnv),
      fun txEnv found => absurd found (gone txEnv), ?_⟩
    intro h txEnv different found
    rw [getEnvelope_remove, if_neg different] at found
    exact ⟨txEnv, found, rfl, .refl _⟩
  | bad judged =>
    refine ⟨rfl, rfl, wellFormed.switchStatus _ _, .inl rfl, ?_,
      fun _ _ => ⟨.isBad, judged, by decide⟩, ?_⟩
    · intro txEnv found
      obtain ⟨earlier, present, isTx, -⟩ := queued
      rw [getEnvelope_switchStatus, if_pos rfl, present] at found
      cases found
      exact ⟨isTx, nofun⟩
    · intro h txEnv different found
      rw [getEnvelope_switchStatus, if_neg different] at found
      exact ⟨txEnv, found, rfl, .refl _⟩
  | good admits =>
    have moved := moveParents_moved pool tx.parents
    refine ⟨moved.dag, moved.cached, (moved.wellFormed wellFormed).switchStatus _ _,
      .inr admits, ?_, fun _ _ => ⟨.isGood, admits.1, by decide⟩, ?_⟩
    · intro txEnv found
      obtain ⟨earlier, present, isTx, isQueue⟩ := queued
      have notTip : pool.getStatus tx.getTxHash ≠ .tip := by
        rw [getStatus_eq present, isQueue]
        decide
      rw [getEnvelope_switchStatus, if_pos rfl, moved.others _ notTip, present] at found
      cases found
      exact ⟨isTx, fun _ => admits⟩
    · intro h txEnv different found
      rw [getEnvelope_switchStatus, if_neg different] at found
      exact moved.inherits h txEnv found

/-! ## The flows -/

theorem getTxByNonce_ensureFlow (flows : AccountFlows) (addr other : Address) (nonce : UInt64) :
    (flows.ensureFlow addr).getTxByNonce other nonce = flows.getTxByNonce other nonce := by
  simp only [ensureFlow, getTxByNonce, resetFlow,
    get?_setNew]
  split
  · cases flows.get? other <;> rfl
  · rfl

theorem getBalanceState_ensureFlow (flows : AccountFlows) (addr : Address) (tokenID : TokenId) :
    flows.getBalanceState addr tokenID =
      (((flows.ensureFlow addr).get? addr).getD newAccountFlow).balances.get? tokenID := by
  simp only [ensureFlow, AccountFlows.getBalanceState, resetFlow,
    get?_setNew, if_true]
  cases flows.get? addr <;> rfl

theorem flow_add_txlist {next : AccountFlow} {answer : Except FlowError Unit}
    (added : flow.add tx = .ok (answer, next)) :
    next.txlist = flow.txlist ∨ next.txlist = flow.txlist.put tx := by
  unfold AccountFlow.add at added
  split at added
  · cases added
    exact .inl rfl
  split at added
  · cases added
    exact .inr rfl
  split at added
  · split at added
    · cases added
      exact .inr rfl
    · split at added
      · cases added
        exact .inl rfl
      · cases added
        exact .inr rfl
  · cases added

theorem openBalance_txlist (isOpened : openBalance dag flow tx = .ok opened) :
    opened.txlist = flow.txlist := by
  unfold openBalance at isOpened
  split at isOpened
  · split at isOpened
    · split at isOpened <;> cases isOpened <;> rfl
    · cases isOpened
  · cases isOpened
    rfl

theorem flows_add_ok {next : AccountFlows}
    (notArchive : tx.getType ≠ .archive) (entered : AccountFlows.add dag flows tx = .ok next) :
    ∃ sender opened answer flow, tx.sender = .ok sender ∧
      openBalance dag ((flows.get? sender).getD newAccountFlow) tx = .ok opened ∧
      opened.add tx = .ok (answer, flow) ∧ next = flows.set sender flow := by
  rw [AccountFlows.add, if_neg notArchive] at entered
  obtain ⟨sender, isSender, rest⟩ := bind_ok entered
  obtain ⟨opened, isOpened, last⟩ := bind_ok rest
  obtain ⟨⟨answer, flow⟩, added, isNext⟩ := bind_ok last
  cases isNext
  exact ⟨sender, opened, answer, flow, isSender, isOpened, added, rfl⟩

theorem flows_add_get {next : AccountFlows} (entered : AccountFlows.add dag flows tx = .ok next)
    (listed : flows.getTxByNonce addr nonce = some other) :
    next.getTxByNonce addr nonce = some other := by
  by_cases archive : tx.getType = .archive
  · rw [AccountFlows.add, if_pos archive] at entered
    cases entered
    exact listed
  obtain ⟨sender, opened, answer, flow, -, isOpened, added, rfl⟩ := flows_add_ok archive entered
  obtain ⟨earlier, found, inFlow⟩ := bind_eq_some_iff.mp listed
  rw [getTxByNonce, get?_set]
  split
  next same =>
    have inOpened : opened.txlist.get nonce = some other := by
      rw [openBalance_txlist isOpened, ← same, found]
      exact inFlow
    rw [bind_some]
    rcases flow_add_txlist added with isList | isList
    · rw [isList, inOpened]
    · rw [isList, TxList.get_put, inOpened]
      rfl
  · exact listed

theorem flows_add_origin {next : AccountFlows} {listed : Txi}
    (entered : AccountFlows.add dag flows tx = .ok next)
    (found : next.getTxByNonce addr nonce = some listed) :
    flows.getTxByNonce addr nonce = some listed ∨ listed = tx ∧ tx.key = some (addr, nonce) := by
  by_cases archive : tx.getType = .archive
  · rw [AccountFlows.add, if_pos archive] at entered
    cases entered
    exact .inl found
  obtain ⟨sender, opened, answer, flow, isSender, isOpened, added, rfl⟩ :=
    flows_add_ok archive entered
  rw [getTxByNonce, get?_set] at found
  split at found
  next same =>
    subst same
    rw [bind_some] at found
    have before : opened.txlist.get nonce = some listed →
        flows.getTxByNonce addr nonce = some listed := by
      intro inOpened
      rw [openBalance_txlist isOpened] at inOpened
      cases isFlow : flows.get? addr with
      | none =>
        rw [isFlow] at inOpened
        cases inOpened
      | some earlier =>
        rw [isFlow] at inOpened
        rw [getTxByNonce, isFlow]
        exact inOpened
    rcases flow_add_txlist added with isList | isList
    · rw [isList] at found
      exact .inl (before found)
    rw [isList, TxList.get_put] at found
    rcases or_eq_some_iff.mp found with inOpened | ⟨-, isNew⟩
    · exact .inl (before inOpened)
    split at isNew
    next isNonce =>
      cases isNew
      exact .inr ⟨rfl, Txi.key_eq_some_iff.mpr ⟨archive, isSender, isNonce⟩⟩
    · cases isNew
  · exact .inl found

theorem isBadTx_good (judged : pool.isBadTx tx = .ok .isGood) (notArchive : tx.getType ≠ .archive) :
    ∃ sender, tx.sender = .ok sender ∧ pool.nonceQuality sender tx = .isGood ∧
      pool.contentQuality tx = .ok .isGood := by
  unfold isBadTx at judged
  split at judged
  · cases judged
  · cases judged
  · rw [if_neg notArchive] at judged
    obtain ⟨sender, isSender, rest⟩ := bind_ok judged
    split at rest
    · cases rest
    · cases rest
    next goodNonce => exact ⟨sender, isSender, goodNonce, rest⟩

theorem nonceQuality_good (good : pool.nonceQuality sender tx = .isGood) :
    pool.flows.getTxByNonce sender tx.getNonce = none ∧
      pool.dag.getTxByNonce sender tx.getNonce = none := by
  unfold nonceQuality at good
  split at good
  · split at good <;> cases good
  rename_i notInPool
  split at good
  · cases good
  next notInDag => exact ⟨notInPool, not_isSome_iff_eq_none.mp notInDag⟩

theorem openBalance_covers {txi : Txi} {tx : Tx}
    (isBody : txi.body = .tx tx) (normal : txi.getType = .normal)
    (sameState : pool.flows.getBalanceState tx.sender tx.tokenId = flow.balances.get? tx.tokenId)
    (good : pool.transferQuality tx = .isGood)
    (isOpened : openBalance pool.dag flow txi = .ok opened) :
    ∃ state left, opened.balances.get? tx.tokenId = some state ∧
      state.trySubBalance tx.value = .ok left := by
  unfold transferQuality at good
  simp only at good
  split at good
  · cases good
  split at good
  · cases good
  rename_i enough
  rw [openBalance, if_pos normal] at isOpened
  simp only [isBody] at isOpened
  split at isOpened
  next present =>
    cases isOpened
    obtain ⟨state, found⟩ := contains_iff.mp present
    rw [sameState, found, getD_some] at enough
    exact ⟨state, _, found, if_neg enough⟩
  next absent =>
    cases isOpened
    rw [sameState, get?_eq_none absent, getD_none] at enough
    exact ⟨_, _, get?_set_self _ _ _, if_neg enough⟩

theorem Admits.enters (admits : pool.Admits tx flows) (notArchive : tx.getType ≠ .archive)
    (isSender : tx.sender = .ok sender) :
    ∃ opened answer flow, openBalance pool.dag
        (((pool.flows.ensureFlow sender).get? sender).getD newAccountFlow) tx = .ok opened ∧
      opened.txlist.get tx.getNonce = none ∧ opened.add tx = .ok (answer, flow) ∧
      flows = (pool.flows.ensureFlow sender).set sender flow ∧
      pool.contentQuality tx = .ok .isGood := by
  obtain ⟨judged, archive | ⟨-, other, isOther, entered⟩⟩ := admits
  · exact absurd archive.1 notArchive
  obtain ⟨judge, isJudge, goodNonce, goodContent⟩ := isBadTx_good judged notArchive
  rw [isSender] at isOther isJudge
  cases isOther
  cases isJudge
  obtain ⟨notInPool, -⟩ := nonceQuality_good goodNonce
  obtain ⟨payer, opened, answer, flow, isPayer, isOpened, added, rfl⟩ :=
    flows_add_ok notArchive entered
  rw [isSender] at isPayer
  cases isPayer
  rw [← getTxByNonce_ensureFlow pool.flows sender] at notInPool
  refine ⟨opened, answer, flow, isOpened, ?_, added, rfl, goodContent⟩
  rw [openBalance_txlist isOpened]
  cases found : (pool.flows.ensureFlow sender).get? sender with
  | none => rfl
  | some earlier =>
    rw [getTxByNonce, found] at notInPool
    exact notInPool

theorem Admits.listed (admits : pool.Admits tx flows) (notArchive : tx.getType ≠ .archive)
    (isSender : tx.sender = .ok sender) : flows.getTxByNonce sender tx.getNonce = some tx := by
  obtain ⟨opened, answer, flow, isOpened, absent, added, rfl, goodContent⟩ :=
    admits.enters notArchive isSender
  have listed : (opened.put tx).txlist.get tx.getNonce = some tx := by
    rw [AccountFlow.put, TxList.get_put, absent, if_pos rfl]
    rfl
  rw [getTxByNonce, get?_set_self]
  unfold AccountFlow.add at added
  rw [absent] at added
  by_cases normal : tx.getType = .normal
  · simp only [isSome_none, Bool.false_eq_true, if_false, normal, ne_eq,
      not_true_eq_false] at added
    cases isBody : tx.body with
    | tx txnormal =>
      obtain rfl : txnormal.sender = sender := by simpa [Txi.sender, isBody] using isSender
      simp only [contentQuality, isBody, Except.ok.injEq] at goodContent
      obtain ⟨state, left, found, paid⟩ := openBalance_covers isBody normal
        (getBalanceState_ensureFlow _ _ _) goodContent isOpened
      simp only [isBody, found, paid] at added
      cases added
      exact listed
    | _ =>
      simp only [isBody] at added
      cases added
  · simp only [isSome_none, Bool.false_eq_true, if_false, ne_eq, normal,
      not_false_eq_true, if_true] at added
    cases added
    exact listed

/-! ## Facts about what was judged good -/

/-- Holds of whatever is judged good, and says nothing about sequencers. -/
structure Stable (fact : Dag → AccountFlows → Txi → Prop) : Prop where
  established : ∀ {pool : TxPool} {tx flows}, pool.Admits tx flows → fact pool.dag flows tx
  undone : ∀ {dag after flows tx}, after.SameLedger dag → fact dag flows tx → fact after flows tx
  kept : ∀ {dag flows next sender tx other},
    AccountFlows.add dag (flows.ensureFlow sender) tx = .ok next →
      fact dag flows other → fact dag next other
  sequencers : ∀ {dag flows} (seq : Sequencer), fact dag flows seq.txi

def GoodHold (fact : Dag → AccountFlows → Txi → Prop) (pool : TxPool) : Prop :=
  ∀ h txEnv, pool.txLookup.getEnvelope h = some txEnv → txEnv.status.isGood = true →
    fact pool.dag pool.flows txEnv.tx

variable {fact : Dag → AccountFlows → Txi → Prop}

theorem Stable.admits (stable : Stable fact)
    (admits : pool.Admits tx flows) (holds : fact pool.dag pool.flows other) :
    fact pool.dag flows other := by
  obtain ⟨-, ⟨-, rfl⟩ | ⟨-, sender, -, entered⟩⟩ := admits
  · exact holds
  · exact stable.kept entered holds

theorem Judges.goodHold (stable : Stable fact)
    (judges : pool.Judges tx next) (holds : GoodHold fact pool) : GoodHold fact next := by
  intro h txEnv found good
  rw [judges.dag]
  by_cases own : h = tx.getTxHash
  · subst own
    obtain ⟨isTx, admits⟩ := judges.own txEnv found
    rw [isTx]
    exact stable.established (admits good)
  · obtain ⟨earlier, present, sameTx, becomes⟩ := judges.others h txEnv own found
    have earlierHolds := holds h earlier present (becomes.good good)
    rw [sameTx] at earlierHolds
    rcases judges.flows with same | admits
    · rwa [same]
    · exact stable.admits admits earlierHolds

/-- Holds of whatever is judged good and listed under its sender and nonce. -/
def FlowStable (entry : Dag → Address → UInt64 → Txi → Prop) : Prop :=
  ∀ {pool : TxPool} {tx : Txi} {addr : Address} {nonce : UInt64},
    pool.isBadTx tx = .ok .isGood → tx.key = some (addr, nonce) → entry pool.dag addr nonce tx

def FlowsHold (entry : Dag → Address → UInt64 → Txi → Prop) (pool : TxPool) : Prop :=
  ∀ addr nonce tx, pool.flows.getTxByNonce addr nonce = some tx → entry pool.dag addr nonce tx

theorem Judges.flowsHold {entry : Dag → Address → UInt64 → Txi → Prop}
    (stable : FlowStable entry) (judges : pool.Judges tx next)
    (holds : FlowsHold entry pool) : FlowsHold entry next := by
  intro addr nonce listed found
  rw [judges.dag]
  rcases judges.flows with same | ⟨good, ⟨-, same⟩ | ⟨-, sender, -, entered⟩⟩
  · exact holds addr nonce listed (same ▸ found)
  · exact holds addr nonce listed (same ▸ found)
  · rcases flows_add_origin entered found with before | ⟨rfl, isKey⟩
    · rw [getTxByNonce_ensureFlow] at before
      exact holds addr nonce listed before
    · exact stable good isKey

theorem queued_add (pool : TxPool) (txEnv : TxEnvelope) (isQueue : txEnv.status = .queue)
    (absent : pool.txLookup.getEnvelope txEnv.tx.getTxHash = none) :
    { pool with txLookup := pool.txLookup.add txEnv }.Queued txEnv.tx := by
  refine ⟨txEnv, ?_, rfl, isQueue⟩
  rw [getEnvelope_add, if_pos rfl, absent]
  rfl

theorem GoodHold.add (holds : GoodHold fact pool) (isQueue : txEnv.status = .queue)
    (absent : pool.txLookup.getEnvelope txEnv.tx.getTxHash = none) :
    GoodHold fact { pool with txLookup := pool.txLookup.add txEnv } := by
  intro h other found good
  rw [getEnvelope_add] at found
  split at found
  next same =>
    rw [same, absent] at found
    cases found
    rw [getD_none, isQueue] at good
    cases good
  · exact holds h other found good

theorem Judges.absent
    (judges : { pool with txLookup := pool.txLookup.add queue }.Judges queue.tx next)
    (different : h ≠ queue.tx.getTxHash) (absent : pool.txLookup.getEnvelope h = none) :
    next.txLookup.getEnvelope h = none := by
  cases found : next.txLookup.getEnvelope h with
  | none => rfl
  | some present =>
    obtain ⟨earlier, inPool, -⟩ := judges.others _ _ different found
    rw [getEnvelope_add, if_neg different, absent] at inPool
    cases inPool

/-! ## Judging anew -/

def rejudgeCalls (pool : TxPool) : List TxEnvelope → List (TxPool × Txi)
  | [] => []
  | txEnv :: rest =>
    if txEnv.judgeNum ≥ poolRejudgeThreshold then pool.rejudgeCalls rest
    else
      let queued := { pool with
        txLookup := pool.txLookup.add ⟨txEnv.tx, .rejudge, .queue, txEnv.judgeNum + 1⟩ }
      match queued.commit txEnv.tx with
      | .error _ => [(queued, txEnv.tx)]
      | .ok (_, after) => (queued, txEnv.tx) :: after.rejudgeCalls rest

theorem rejudge_keeps {motive : TxPool → Prop}
    (wellFormed : ∀ {state}, motive state → state.txLookup.WellFormed)
    (judge : ∀ {state after : TxPool} {answer} (queue : TxEnvelope), motive state →
      (∃ txEnv ∈ envelopes, queue.tx = txEnv.tx) →
      ({ state with txLookup := state.txLookup.add queue }, queue.tx) ∈
        pool.rejudgeCalls envelopes → queue.status = .queue →
      state.txLookup.getEnvelope queue.tx.getTxHash = none →
      { state with txLookup := state.txLookup.add queue }.commit queue.tx = .ok (answer, after) →
        motive after)
    (start : motive pool) (distinct : (envelopes.map fun txEnv => txEnv.tx.getTxHash).Nodup)
    (absent : ∀ txEnv ∈ envelopes, pool.txLookup.getEnvelope txEnv.tx.getTxHash = none)
    (rejudged : pool.rejudge envelopes = .ok next) : motive next := by
  induction envelopes generalizing pool with
  | nil =>
    cases rejudged
    exact start
  | cons txEnv rest ih =>
    obtain ⟨notInRest, restDistinct⟩ := nodup_cons.mp distinct
    rw [rejudgeCalls] at judge
    have restAbsent : ∀ other ∈ rest,
        pool.txLookup.getEnvelope other.tx.getTxHash = none :=
      fun other member => absent other (mem_cons_of_mem _ member)
    rw [rejudge] at rejudged
    split at rejudged
    next tooOften =>
      rw [if_pos tooOften] at judge
      refine ih ?_ start restDistinct restAbsent rejudged
      rintro state after answer queue holds ⟨other, member, isTx⟩
      exact judge queue holds ⟨other, mem_cons_of_mem _ member, isTx⟩
    next again =>
      obtain ⟨⟨answer, between⟩, committed, later⟩ := bind_ok rejudged
      have missing := absent txEnv mem_cons_self
      let queue : TxEnvelope := ⟨txEnv.tx, .rejudge, .queue, txEnv.judgeNum + 1⟩
      have queued := queued_add pool queue rfl missing
      have judges := commit_judges ((wellFormed start).add _) queued committed
      simp only [if_neg again, committed] at judge
      have kept : motive between :=
        judge queue start ⟨txEnv, mem_cons_self, rfl⟩ mem_cons_self rfl missing
          committed
      refine ih ?_ kept restDistinct ?_ later
      · rintro state after answer queue holds ⟨other, member, isTx⟩ called
        exact judge queue holds ⟨other, mem_cons_of_mem _ member, isTx⟩
          (mem_cons_of_mem _ called)
      intro other member
      have different : other.tx.getTxHash ≠ txEnv.tx.getTxHash := by
        intro same
        exact notInRest (mem_map.mpr ⟨other, member, same⟩)
      exact judges.absent different (restAbsent other member)

end TxPool

end AnnchainOG
