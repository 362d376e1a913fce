import AnnchainOG.Ledger.Push
import AnnchainOG.Lib.Worklist
import AnnchainOG.Pool.TxPool

/-!
# The search for elders
-/

namespace AnnchainOG

open List

namespace TxPool

variable {pool : TxPool} {seekingPool inSeekingPool roots : List Hash} {hash : Hash}
  {elders : List Txi} {elder baseTx : Txi}

/-- The hashes reached from `roots` through parents of pooled transactions. -/
inductive Ancestor (pool : TxPool) (roots : List Hash) : Hash → Prop where
  | root {hash : Hash} (member : hash ∈ roots) : Ancestor pool roots hash
  | parent {hash parentHash : Hash} {elder : Txi} (reached : Ancestor pool roots hash)
      (pooled : pool.get hash = some elder) (member : parentHash ∈ elder.parents) :
      Ancestor pool roots parentHash

def IsElder (pool : TxPool) (roots : List Hash) (elder : Txi) : Prop :=
  ∃ hash, pool.Ancestor roots hash ∧ pool.get hash = some elder

/-! ## The search as a worklist -/

def look (pool : TxPool) (hash : Hash) : Worklist.Look Hash :=
  match pool.get hash with
  | none => if (pool.dag.getTx hash).isNone then .stop else .skip
  | some elder => .next elder.parents

def collect (pool : TxPool) : List Hash → List Txi
  | [] => []
  | hash :: earlier =>
    match pool.get hash with
    | none => pool.collect earlier
    | some elder =>
      if (pool.collect earlier).any fun other => other.getTxHash == elder.getTxHash then
        pool.collect earlier
      else pool.collect earlier ++ [elder]

def answer (pool : TxPool) : Except Hash (List Hash) → Except Stop (List Txi)
  | .error hash => .error (.error (.elderNotFound hash))
  | .ok opened => .ok (pool.collect opened)

theorem look_eq_next_iff {nodes : List Hash} :
    pool.look hash = .next nodes ↔ ∃ elder, pool.get hash = some elder ∧ elder.parents = nodes := by
  unfold look
  cases pool.get hash with
  | none =>
    dsimp only
    split <;> simp
  | some elder => simp

theorem look_eq_stop_iff :
    pool.look hash = .stop ↔ pool.get hash = none ∧ pool.dag.getTx hash = none := by
  unfold look
  cases pool.get hash with
  | none => simp
  | some elder => simp

theorem ancestor_iff : pool.Ancestor roots hash ↔ Worklist.Reaches pool.look roots hash := by
  constructor
  · intro reached
    induction reached with
    | root member => exact .root member
    | parent _ pooled member ih => exact .next ih (look_eq_next_iff.mpr ⟨_, pooled, rfl⟩) member
  · intro reached
    induction reached with
    | root member => exact .root member
    | next _ opens member ih =>
      obtain ⟨elder, pooled, rfl⟩ := look_eq_next_iff.mp opens
      exact .parent ih pooled member

theorem queueParents_eq (parents : List Hash) :
    queueParents seekingPool inSeekingPool parents =
      Worklist.enqueue seekingPool inSeekingPool parents := by
  induction parents generalizing seekingPool inSeekingPool with
  | nil => rfl
  | cons parentHash rest ih =>
    rw [queueParents, Worklist.enqueue]
    split <;> exact ih

theorem seekLoop_eq (pool : TxPool) (fuel : Nat) (seekingPool inSeekingPool opened : List Hash) :
    pool.seekLoop fuel seekingPool inSeekingPool (pool.collect opened) =
      (Worklist.search pool.look fuel seekingPool inSeekingPool opened).map pool.answer := by
  induction fuel generalizing seekingPool inSeekingPool opened with
  | zero => cases seekingPool <;> rfl
  | succ fuel ih =>
    cases seekingPool with
    | nil => rfl
    | cons elderHash rest =>
      rw [seekLoop, Worklist.search, look]
      cases pooled : pool.get elderHash with
      | none =>
        dsimp only
        split
        · rfl
        · exact ih _ _ _
      | some elder =>
        have opens := ih (queueParents rest inSeekingPool elder.parents).1
          (queueParents rest inSeekingPool elder.parents).2 (elderHash :: opened)
        rw [collect, pooled] at opens
        dsimp only
        rw [opens, queueParents_eq]

def pooledParents (pool : TxPool) : Finset Hash :=
  (pool.txLookup.txs.entries.bind fun entry => ↑entry.2.tx.parents).toFinset

theorem mem_pooledParents {parentHash : Hash} (pooled : pool.get hash = some elder)
    (member : parentHash ∈ elder.parents) : parentHash ∈ pool.pooledParents := by
  obtain ⟨txEnv, present, rfl⟩ := Option.map_eq_some_iff.mp pooled
  exact Multiset.mem_toFinset.mpr (Multiset.mem_bind.mpr
    ⟨⟨hash, txEnv⟩, GoMap.get?_eq_some_iff.mp present, member⟩)

theorem seekElders_answer (pool : TxPool) (baseTx : Txi) :
    ∃ result, pool.seekLoop (pool.seekFuel baseTx) baseTx.parents [] [] = some (pool.answer result) ∧
      Worklist.Result pool.look baseTx.parents result := by
  have finite : ∀ hash nodes, pool.look hash = .next nodes →
      ∀ parentHash ∈ nodes, parentHash ∈ pool.pooledParents := by
    intro hash nodes opens parentHash member
    obtain ⟨elder, pooled, rfl⟩ := look_eq_next_iff.mp opens
    exact mem_pooledParents pooled member
  have enough : baseTx.parents.length + pool.pooledParents.card ≤ pool.seekFuel baseTx := by
    refine Nat.add_le_add_left ((Multiset.toFinset_card_le _).trans (le_of_eq ?_)) _
    rw [Multiset.card_bind]
    rfl
  obtain ⟨result, searched, isResult⟩ := Worklist.search_result finite enough
  refine ⟨result, ?_, isResult⟩
  exact (pool.seekLoop_eq _ _ [] []).trans (congrArg (Option.map pool.answer) searched)

theorem seekElders_eq (pool : TxPool) (baseTx : Txi) :
    pool.seekLoop (pool.seekFuel baseTx) baseTx.parents [] [] = some (pool.seekElders baseTx) := by
  obtain ⟨result, looped, -⟩ := pool.seekElders_answer baseTx
  rw [seekElders, looped]
  rfl

theorem seekElders_error_iff (pool : TxPool) (baseTx : Txi) :
    (∃ error, pool.seekElders baseTx = .error error) ↔ ∃ hash,
      pool.Ancestor baseTx.parents hash ∧ pool.get hash = none ∧ pool.dag.getTx hash = none := by
  obtain ⟨result, looped, isResult⟩ := pool.seekElders_answer baseTx
  rw [seekElders, looped]
  simp only [ancestor_iff, ← look_eq_stop_iff]
  cases result with
  | error hash => exact iff_of_true ⟨_, rfl⟩ ⟨hash, isResult⟩
  | ok opened =>
    refine iff_of_false (fun ⟨_, isError⟩ => nomatch isError) ?_
    rintro ⟨hash, reached, stops⟩
    exact isResult.1 hash reached stops

/-! ## What it collects -/

theorem mem_collect {opened : List Hash} (member : elder ∈ pool.collect opened) :
    ∃ hash ∈ opened, pool.get hash = some elder := by
  induction opened with
  | nil => cases member
  | cons hash earlier ih =>
    have before : elder ∈ pool.collect earlier → ∃ other ∈ hash :: earlier,
        pool.get other = some elder := by
      intro collected
      obtain ⟨other, isOpened, pooled⟩ := ih collected
      exact ⟨other, mem_cons_of_mem _ isOpened, pooled⟩
    rw [collect] at member
    split at member
    · exact before member
    rename_i pooled
    split at member
    · exact before member
    rcases mem_append.mp member with collected | isNew
    · exact before collected
    · rw [List.mem_singleton.mp isNew]
      exact ⟨hash, mem_cons_self, pooled⟩

theorem collect_nodup (pool : TxPool) (opened : List Hash) :
    ((pool.collect opened).map Txi.getTxHash).Nodup := by
  induction opened with
  | nil => exact nodup_nil
  | cons hash earlier ih =>
    rw [collect]
    split
    · exact ih
    split
    · exact ih
    rename_i absent
    rw [List.map_append, List.map_singleton]
    refine nodup_append'.mpr ⟨ih, nodup_singleton _, ?_⟩
    simpa using absent

theorem seekElders_sound (found : pool.seekElders baseTx = .ok elders) :
    (∀ elder ∈ elders, pool.IsElder baseTx.parents elder) ∧ (elders.map Txi.getTxHash).Nodup := by
  obtain ⟨result, looped, isResult⟩ := pool.seekElders_answer baseTx
  rw [seekElders, looped] at found
  cases result with
  | error => cases found
  | ok opened =>
    cases found
    refine ⟨fun elder member => ?_, pool.collect_nodup opened⟩
    obtain ⟨hash, isOpened, pooled⟩ := mem_collect member
    exact ⟨hash, ancestor_iff.mpr ((isResult.2 hash).mp isOpened).1, pooled⟩

section

variable (hashes : ∀ hash elder, pool.get hash = some elder → elder.getTxHash = hash)
include hashes

theorem collect_complete {opened : List Hash} (member : hash ∈ opened)
    (pooled : pool.get hash = some elder) : elder ∈ pool.collect opened := by
  induction opened with
  | nil => cases member
  | cons first earlier ih =>
    rw [collect]
    rcases mem_cons.mp member with rfl | before
    · rw [pooled]
      dsimp only
      split
      next present =>
        obtain ⟨other, collected, same⟩ := any_eq_true.mp present
        obtain ⟨key, -, otherPooled⟩ := mem_collect collected
        rw [beq_iff_eq, hashes _ _ pooled, hashes _ _ otherPooled] at same
        rw [same, pooled] at otherPooled
        exact Option.some.inj otherPooled ▸ collected
      · exact mem_append_right _ mem_cons_self
    · have collected := ih before
      split
      · exact collected
      split
      · exact collected
      · exact mem_append_left _ collected

theorem seekElders_complete (found : pool.seekElders baseTx = .ok elders) (reached : pool.Ancestor
    baseTx.parents hash) (pooled : pool.get hash = some elder) : elder ∈ elders := by
  obtain ⟨result, looped, isResult⟩ := pool.seekElders_answer baseTx
  rw [seekElders, looped] at found
  cases result with
  | error => cases found
  | ok opened =>
    cases found
    refine collect_complete hashes ((isResult.2 hash).mpr ⟨ancestor_iff.mp reached, ?_⟩) pooled
    exact ⟨_, look_eq_next_iff.mpr ⟨elder, pooled, rfl⟩⟩

theorem seekElders_closed (found : pool.seekElders baseTx = .ok elders) {tx : Txi} (isTx : tx =
    baseTx ∨ tx ∈ elders) {parentHash : Hash} (isParent : parentHash ∈ tx.parents) :
    (∃ other ∈ elders, other.getTxHash = parentHash) ∨
      pool.get parentHash = none ∧ (pool.dag.getTx parentHash).isSome = true := by
  have reached : pool.Ancestor baseTx.parents parentHash := by
    rcases isTx with rfl | member
    · exact .root isParent
    · obtain ⟨hash, reached, pooled⟩ := (seekElders_sound found).1 tx member
      exact .parent reached pooled isParent
  cases pooled : pool.get parentHash with
  | some elder =>
    exact .inl ⟨elder, seekElders_complete hashes found reached pooled, hashes _ _ pooled⟩
  | none =>
    refine .inr ⟨rfl, Option.isSome_iff_ne_none.mpr fun missing => ?_⟩
    obtain ⟨error, failed⟩ := (pool.seekElders_error_iff baseTx).mpr
      ⟨parentHash, reached, pooled, missing⟩
    cases found.symm.trans failed

end

end TxPool

end AnnchainOG
