import AnnchainOG.Ledger.Confirmed

/-!
# What a push stores

A transaction is found in the ledger by its hash and, unless it is an archive, by its sender and
nonce.
-/

namespace AnnchainOG

open List Option

namespace Txi

variable {tx : Txi}

def key (tx : Txi) : Option (Address × UInt64) :=
  if tx.getType = .archive then none
  else
    match tx.sender with
    | .ok sender => some (sender, tx.getNonce)
    | .error _ => none

theorem key_eq_some_iff {addr : Address} {nonce : UInt64} :
    tx.key = some (addr, nonce) ↔
      tx.getType ≠ .archive ∧ tx.sender = .ok addr ∧ tx.getNonce = nonce := by
  unfold key
  split
  next archive => simp [archive]
  rename_i notArchive
  cases isSender : tx.sender with
  | error panic => simp
  | ok sender => simp [notArchive]

/-- A transaction as the ledger holds it: the height and the id of an issued token are its own. -/
structure Records (stored tx : Txi) : Prop where
  getType : stored.getType = tx.getType
  getTxHash : stored.getTxHash = tx.getTxHash
  parents : stored.parents = tx.parents
  getNonce : stored.getNonce = tx.getNonce
  sender : stored.sender = tx.sender

theorem Records.refl (tx : Txi) : tx.Records tx := ⟨rfl, rfl, rfl, rfl, rfl⟩

theorem Records.key {stored : Txi} (records : stored.Records tx) : stored.key = tx.key := by
  rw [Txi.key, Txi.key, records.getType, records.sender, records.getNonce]

theorem SameHeader.records {processed : Txi} {height : UInt64}
    (same : processed.SameHeader (tx.setHeight height)) : processed.Records tx where
  getType := by rw [Txi.getType, same.base]; rfl
  getTxHash := by rw [Txi.getTxHash, same.base]; rfl
  parents := by rw [Txi.parents, same.base]; rfl
  getNonce := by rw [Txi.getNonce, same.base]; rfl
  sender := same.sender

end Txi

/-! ## The store -/

namespace Database

variable (db : Database) {txs : List Txi}
variable {addr : Address} {nonce : UInt64} {h : Hash}

theorem write_append (first second : List Put) :
    db.write (first ++ second) = (db.write first).write second :=
  foldl_append ..

theorem readTransaction_puts (tx : Txi) (h : Hash) :
    (db.write tx.puts).readTransaction h =
      if h = tx.getTxHash then some tx else db.readTransaction h := by
  have flowOnly : (db.write tx.flowPut).transactions = db.transactions := by
    unfold Txi.flowPut
    split
    · rfl
    · split <;> rfl
  rw [Txi.puts, write_append]
  show ((db.write tx.flowPut).transactions.set tx.getTxHash tx).get? h = _
  rw [flowOnly]
  exact GoMap.get?_set _ _ _ _

theorem txHashFlow_puts (tx : Txi) (addr : Address) (nonce : UInt64) :
    (db.write tx.puts).txHashFlow.get? (addr, nonce) =
      if tx.key = some (addr, nonce) then some tx.getTxHash
      else db.txHashFlow.get? (addr, nonce) := by
  rw [Txi.puts, write_append]
  unfold Txi.flowPut Txi.key
  split
  · rfl
  split
  next isSender =>
    rw [isSender]
    rfl
  next sender isSender =>
    rw [isSender]
    refine (GoMap.get?_set _ _ _ _).trans ?_
    simp only [Option.some.injEq, eq_comm]

variable {db} in
theorem readTxByNonce_puts {tx : Txi}
    (found : (db.readTxByNonce addr nonce).isSome = true ∨ tx.key = some (addr, nonce)) :
    ((db.write tx.puts).readTxByNonce addr nonce).isSome = true := by
  unfold readTxByNonce
  rw [txHashFlow_puts]
  split
  · rw [bind_some, readTransaction_puts, if_pos rfl]
    rfl
  rename_i otherKey
  have present := found.resolve_right otherKey
  unfold readTxByNonce at present
  cases flow : db.txHashFlow.get? (addr, nonce) with
  | none =>
    rw [flow] at present
    cases present
  | some h =>
    rw [flow, bind_some] at present
    rw [bind_some, readTransaction_puts]
    split
    · rfl
    · exact present

def store (txs : List Txi) : Database :=
  db.write (txs.flatMap Txi.puts)

theorem store_cons (tx : Txi) (txs : List Txi) :
    db.store (tx :: txs) = (db.write tx.puts).store txs := by
  rw [store, flatMap_cons, write_append]
  rfl

variable {db}

theorem readTransaction_store_isSome :
    ((db.store txs).readTransaction h).isSome = true ↔
      (db.readTransaction h).isSome = true ∨ ∃ tx ∈ txs, tx.getTxHash = h := by
  induction txs generalizing db with
  | nil => simp [store, write]
  | cons tx txs ih =>
    rw [store_cons, ih, readTransaction_puts]
    by_cases own : h = tx.getTxHash
    · simp [own]
    rw [if_neg own, exists_mem_cons_iff]
    have different : ¬ tx.getTxHash = h := fun same => own same.symm
    simp only [different, false_or]

theorem readTransaction_store_cases {stored : Txi}
    (found : (db.store txs).readTransaction h = some stored) :
    db.readTransaction h = some stored ∨ stored ∈ txs ∧ stored.getTxHash = h := by
  induction txs generalizing db with
  | nil => exact .inl found
  | cons tx txs ih =>
    rw [store_cons] at found
    rcases ih found with earlier | ⟨member, isHash⟩
    · rw [readTransaction_puts] at earlier
      split at earlier
      next own =>
        cases earlier
        exact .inr ⟨mem_cons_self, own.symm⟩
      · exact .inl earlier
    · exact .inr ⟨mem_cons_of_mem _ member, isHash⟩

theorem readTxByNonce_store (found : (db.readTxByNonce addr nonce).isSome = true ∨
      ∃ tx ∈ txs, tx.key = some (addr, nonce)) :
    ((db.store txs).readTxByNonce addr nonce).isSome = true := by
  induction txs generalizing db with
  | nil => simpa [store, write] using found
  | cons tx txs ih =>
    rw [store_cons]
    refine ih ?_
    rcases found with earlier | ⟨other, member, isKey⟩
    · exact .inl (readTxByNonce_puts (.inl earlier))
    rcases mem_cons.mp member with rfl | later
    · exact .inl (readTxByNonce_puts (.inr isKey))
    · exact .inr ⟨other, later, isKey⟩

end Database

variable {cache : TxCached} {stored : Txi}

theorem TxCached.get_add {tx : Txi} {h : Hash} (found : (cache.add tx).get h = some stored) :
    cache.get h = some stored ∨ stored = tx ∧ tx.getTxHash = h := by
  unfold add at found
  split at found
  · exact .inl found
  simp only [get, GoMap.get?_set] at found
  split at found
  next own =>
    cases found
    exact .inr ⟨rfl, own.symm⟩
  refine .inl ?_
  split at found
  · split at found
    · exact found
    · rw [GoMap.get?_delete] at found
      split at found
      · cases found
      · exact found
  · exact found

theorem TxCached.get_addAll {txs : List Txi} {h : Hash}
    (found : (txs.foldl TxCached.add cache).get h = some stored) :
    cache.get h = some stored ∨ stored ∈ txs ∧ stored.getTxHash = h := by
  induction txs generalizing cache with
  | nil => exact .inl found
  | cons tx txs ih =>
    rcases ih found with earlier | ⟨member, isHash⟩
    · rcases get_add earlier with before | ⟨rfl, isHash⟩
      · exact .inl before
      · exact .inr ⟨mem_cons_self, isHash⟩
    · exact .inr ⟨mem_cons_of_mem _ member, isHash⟩

/-! ## The ledger after a push -/

namespace Dag

variable (dag : Dag) {seq : Sequencer} {txs : List Txi} {statedb : StateDB}
variable {h : Hash}

theorem pushed_db (seq : Sequencer) (txs : List Txi) (statedb : StateDB) :
    (dag.pushed seq txs statedb).db = dag.db.store (txs ++ [seq.txi]) := by
  simp [pushed, Database.store]

def HasKey (key : Address × UInt64) : Prop :=
  (dag.getTxByNonce key.1 key.2).isSome = true

def Holds (h : Hash) (stored : Txi) : Prop :=
  dag.txcached.get h = some stored ∨ dag.db.readTransaction h = some stored

def Knows (h : Hash) : Prop :=
  (dag.db.readTransaction h).isSome = true

/-- What the ledger holds is in the store, is found by its sender and nonce, and has its parents
in the store. -/
structure Indexed (dag : Dag) : Prop where
  knows : ∀ {h stored}, dag.Holds h stored → dag.Knows h
  keys : ∀ {h stored key}, dag.Holds h stored → stored.key = some key → dag.HasKey key
  parents : ∀ {h stored parentHash}, dag.Holds h stored → parentHash ∈ stored.parents →
    dag.Knows parentHash

variable {dag}

theorem Knows.getTx (knows : dag.Knows h) : ∃ stored, dag.getTx h = some stored := by
  rw [← isSome_iff_exists, Dag.getTx, isSome_or]
  simp [show (dag.db.readTransaction h).isSome = true from knows]

theorem holds_of_getTx {stored : Txi} (found : dag.getTx h = some stored) : dag.Holds h stored := by
  rcases or_eq_some_iff.mp found with inCache | ⟨-, inStore⟩
  · exact .inl inCache
  · exact .inr inStore

theorem pushed_holds {stored : Txi} (holds : (dag.pushed seq txs statedb).Holds h stored) :
    dag.Holds h stored ∨ stored ∈ txs ++ [seq.txi] ∧ stored.getTxHash = h := by
  have isCache : (dag.pushed seq txs statedb).txcached =
      (txs ++ [seq.txi]).foldl TxCached.add dag.txcached := by
    rw [foldl_append]
    rfl
  rcases holds with inCache | inStore
  · rw [isCache] at inCache
    rcases TxCached.get_addAll inCache with before | new
    · exact .inl (.inl before)
    · exact .inr new
  · rw [pushed_db] at inStore
    rcases Database.readTransaction_store_cases inStore with before | new
    · exact .inl (.inr before)
    · exact .inr new

theorem pushed_knows :
    (dag.pushed seq txs statedb).Knows h ↔
      dag.Knows h ∨ ∃ tx ∈ txs ++ [seq.txi], tx.getTxHash = h := by
  rw [Knows, pushed_db]
  exact Database.readTransaction_store_isSome

theorem pushed_getTxByNonce {addr : Address} {nonce : UInt64}
    (found : (dag.getTxByNonce addr nonce).isSome = true ∨
      ∃ tx ∈ txs ++ [seq.txi], tx.key = some (addr, nonce)) :
    ((dag.pushed seq txs statedb).getTxByNonce addr nonce).isSome = true := by
  rw [getTxByNonce, pushed_db]
  exact Database.readTxByNonce_store found

theorem execute_records {ovm : Ovm} {batch : ConfirmBatch}
    (executed : dag.execute ovm batch = .ok (.ok txs, statedb)) :
    (∀ stored ∈ txs, ∃ tx ∈ batch.txs, stored.Records tx) ∧
      ∀ tx ∈ batch.txs, ∃ stored ∈ txs, stored.Records tx := by
  have headers := (processAll_header executed).1
  rw [executionOrder, forall₂_map_right_iff] at headers
  constructor
  · intro stored member
    obtain ⟨tx, inOrder, same⟩ := exists_of_forall₂_left headers member
    exact ⟨tx, (sortTxis_perm batch.txs).mem_iff.mp inOrder, same.records⟩
  · intro tx member
    obtain ⟨stored, inTxs, same⟩ :=
      exists_of_forall₂_right headers ((sortTxis_perm batch.txs).mem_iff.mpr member)
    exact ⟨stored, inTxs, same.records⟩

end Dag

end AnnchainOG
