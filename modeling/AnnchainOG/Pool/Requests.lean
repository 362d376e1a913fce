import AnnchainOG.Pool.Heights

/-!
# What other nodes are sent

A node that catches up asks for the transactions that are not in its bloom filter, or for headers
along the sequencers.
-/

namespace AnnchainOG

open List Option

structure Served where
  ledger : HeightLedger
  genesis : Sequencer

def Txi.asSequencer (tx : Txi) : Option Sequencer :=
  match tx.body with
  | .sequencer issuer => some ⟨tx.base, issuer⟩
  | _ => none

variable (node : Served)

namespace Served

def latestHeight : UInt64 :=
  node.ledger.pool.dag.latestSequencer.base.height

def getTx (hash : Hash) : Option Txi :=
  node.ledger.pool.dag.getTx hash

def getSequencerByHash (hash : Hash) : Option Sequencer :=
  (node.getTx hash).bind Txi.asSequencer

def getSequencerByHeight (height : UInt64) : Option Sequencer :=
  if height = 0 then some node.genesis
  else if height > node.latestHeight then none
  else node.ledger.index.readSequencerByHeight height

def getTxsHashesByNumber (height : UInt64) : Option (List Hash) :=
  if height > node.latestHeight then none else node.ledger.index.readIndexedTxHashs height

def getTxisByNumber (height : UInt64) : List Txi :=
  ((node.getTxsHashesByNumber height).getD []).filterMap node.getTx

/-- There is a sequencer at every height, and what is read by hash and by height belongs
together. -/
structure Consistent (node : Served) : Prop where
  genesis : node.genesis.base.height = 0
  stored : ∀ height, height ≠ 0 → height ≤ node.latestHeight →
    ∃ seq, node.ledger.index.readSequencerByHeight height = some seq
  byHeight : ∀ height seq, node.getSequencerByHeight height = some seq → seq.base.height = height ∧
    ∃ other, node.getSequencerByHash seq.base.hash = some other ∧ other.base.height = height
  byHash : ∀ hash seq, node.getSequencerByHash hash = some seq → ∃ other,
    node.getSequencerByHeight seq.base.height = some other ∧ other.base.hash = hash

theorem Consistent.height_iff {node : Served} (consistent : node.Consistent) (height : UInt64) :
    (∃ seq, node.getSequencerByHeight height = some seq) ↔ height ≤ node.latestHeight := by
  unfold getSequencerByHeight
  by_cases isGenesis : height = 0
  · simp [isGenesis]
  by_cases above : height > node.latestHeight
  · simp [isGenesis, above]
  simp only [isGenesis, above, if_false]
  have within := UInt64.not_lt.mp above
  simp [within, consistent.stored height isGenesis within]

end Served

/-!
## Bloom filters
-/

/-- `none` stands for an error. -/
structure BloomFilter where
  decode : Bool
  lookUpItem : Hash → Option Bool

namespace Served

/-- What a request with a filter is answered with; the sequencer of a height must not be nil. -/
def handleFetchByFilter (filter : BloomFilter) (height : Option UInt64) : Except Panic (List Txi) :=
  if !filter.decode then .ok []
  else
    match height with
    | none => .ok []
    | some height =>
      let ourHeight := node.latestHeight
      if height < ourHeight then .ok []
      else
        let filterHashes :=
          if height = ourHeight then node.ledger.pool.txLookup.order
          else if height < ourHeight then
            (node.getTxsHashesByNumber (height + 1)).getD [] ++
              [node.ledger.pool.dag.latestSequencer.base.hash]
          else []
        let txs := filterHashes.filterMap fun hash =>
          if filter.lookUpItem hash = some false then
            (node.ledger.pool.txLookup.get hash).or (node.getTx hash)
          else none
        if height + 2 ≤ ourHeight then
          match node.getSequencerByHeight (height + 2) with
          | none => .error .nilPointer
          | some seq => .ok (txs ++ node.getTxisByNumber (height + 2) ++ [seq.txi])
        else .ok txs

/-- The transactions that the filter does not have, of the pool or of the next height, and the
batch after that. -/
structure Completes (node : Served) (filter : BloomFilter) (height : UInt64) (sent : List Txi) :
    Prop where
  pooled : height = node.latestHeight → ∀ hash tx, node.ledger.pool.txLookup.get hash = some tx →
    filter.lookUpItem hash = some false → tx ∈ sent
  confirmed : height < node.latestHeight →
    ∀ hash ∈ (node.getTxsHashesByNumber (height + 1)).getD [], ∀ tx, node.getTx hash = some tx →
      filter.lookUpItem hash = some false → tx ∈ sent
  following : height.toNat + 2 ≤ node.latestHeight.toNat →
    (∀ tx ∈ node.getTxisByNumber (height + 2), tx ∈ sent) ∧
      ∀ seq, node.getSequencerByHeight (height + 2) = some seq → seq.txi ∈ sent

section Filter

variable {node : Served} {filter : BloomFilter} {height : UInt64}

theorem fetchByFilter_behind (behind : height < node.latestHeight) :
    node.handleFetchByFilter filter (some height) = .ok [] := by
  simp [handleFetchByFilter, behind]

theorem fetchByFilter_current (decodes : filter.decode = true)
    (complete : node.ledger.pool.txLookup.Complete) (consistent : node.Consistent) :
    ∃ sent, node.handleFetchByFilter filter (some node.latestHeight) = .ok sent ∧
      node.Completes filter node.latestHeight sent := by
  have completes : ∀ more, node.Completes filter node.latestHeight
      (node.ledger.pool.txLookup.order.filterMap (fun hash =>
        if filter.lookUpItem hash = some false then
          (node.ledger.pool.txLookup.get hash).or (node.getTx hash)
        else none) ++ more) := by
    intro more
    refine ⟨fun _ hash tx found missing => ?_, fun behind => ?_, fun behind => ?_⟩
    · obtain ⟨txEnv, isFound, -⟩ := map_eq_some_iff.mp found
      refine mem_append_left _ (mem_filterMap.mpr ⟨hash, complete hash txEnv isFound, ?_⟩)
      simp [missing, found]
    · exact absurd behind (UInt64.lt_irrefl _)
    · omega
  simp only [handleFetchByFilter, decodes, UInt64.lt_irrefl, Bool.not_true, if_true, if_false,
    Bool.false_eq_true]
  split
  next wraps =>
    obtain ⟨seq, isSeq⟩ := (consistent.height_iff _).mpr wraps
    rw [isSeq]
    refine ⟨_, rfl, ?_⟩
    rw [append_assoc]
    exact completes _
  · refine ⟨_, rfl, ?_⟩
    have sent := completes []
    rwa [append_nil] at sent

end Filter

def opened : Served := ⟨.opened, Dag.empty.latestSequencer⟩

theorem opened_byHash {hash : Hash} {seq : Sequencer}
    (found : opened.getSequencerByHash hash = some seq) :
    hash = 100 ∧ seq = Dag.empty.latestSequencer := by
  obtain ⟨tx, isTx, isSeq⟩ := bind_eq_some_iff.mp found
  obtain ⟨rfl, rfl⟩ := Dag.opened_holds (.inr isTx)
  cases isSeq
  exact ⟨rfl, rfl⟩

theorem opened_byHeight {height : UInt64} {seq : Sequencer}
    (found : opened.getSequencerByHeight height = some seq) :
    height = 0 ∧ seq = Dag.empty.latestSequencer := by
  unfold getSequencerByHeight at found
  split at found
  · cases found
    exact ⟨by assumption, rfl⟩
  · cases (ite_none_left_eq_some.mp found).2

theorem opened_consistent : opened.Consistent where
  genesis := rfl
  stored height notGenesis within := absurd (UInt64.le_zero_iff.mp within) notGenesis
  byHeight height seq found := by
    obtain ⟨rfl, rfl⟩ := opened_byHeight found
    exact ⟨rfl, _, rfl, rfl⟩
  byHash hash seq found := by
    obtain ⟨rfl, rfl⟩ := opened_byHash found
    exact ⟨_, rfl, rfl⟩

end Served

/-!
## Hash prefixes
-/

abbrev HashTerminat := BitVec 32

def terminat (hash : Hash) : HashTerminat :=
  hash.extractLsb' 224 32

def positions (allhashs : List Hash) : GoMap HashTerminat Nat :=
  GoMap.setAll ∅ (allhashs.zipIdx.map fun entry => (terminat entry.1, entry.2))

theorem position_spec {allhashs : List Hash} {hashTerminat : HashTerminat} {position : Nat}
    (found : (positions allhashs).get? hashTerminat = some position) :
    ∃ hash, allhashs[position]? = some hash ∧ terminat hash = hashTerminat := by
  rcases GoMap.get?_setAll ∅ (allhashs.zipIdx.map fun entry => (terminat entry.1, entry.2))
    hashTerminat with ⟨other, member, isOther⟩ | ⟨-, isNone⟩
  · obtain ⟨⟨hash, _⟩, inOrder, same⟩ := mem_map.mp member
    cases same
    cases isOther.symm.trans found
    exact ⟨hash, mk_mem_zipIdx_iff_getElem?.mp inOrder, rfl⟩
  · cases isNone.symm.trans found

theorem position_of_mem {allhashs : List Hash} {hash : Hash} (member : hash ∈ allhashs) :
    ∃ position, (positions allhashs).get? (terminat hash) = some position := by
  rcases GoMap.get?_setAll ∅ (allhashs.zipIdx.map fun entry => (terminat entry.1, entry.2))
    (terminat hash) with ⟨position, -, found⟩ | ⟨absent, -⟩
  · exact ⟨position, found⟩
  · obtain ⟨position, isHash⟩ := getElem?_of_mem member
    exact absurd (mem_map.mpr ⟨_, mk_mem_zipIdx_iff_getElem?.mpr isHash, rfl⟩)
      (absent position)

namespace TxPool

/-- The positions of the hashes to be sent, for a request that lists prefixes. -/
def hashMap (pool : TxPool) (hashTerminats : List HashTerminat) : GoMap HashTerminat Nat :=
  hashTerminats.foldl GoMap.delete (positions pool.txLookup.order)

def getAnywhere (pool : TxPool) (hash : Hash) : Option Txi :=
  (pool.get hash).or (pool.dag.getTx hash)

/-- `range` are the entries of the map in the order in which they are ranged over. -/
def handleFetchByTerminats (pool : TxPool) (hashTerminats : List HashTerminat)
    (range : List (HashTerminat × Nat)) : List Txi :=
  let allhashs := pool.txLookup.order
  if 0 < hashTerminats.length then
    range.filterMap fun entry => allhashs[entry.2]?.bind pool.getAnywhere
  else allhashs.filterMap pool.getAnywhere

/-- Just the pooled transactions are sent whose prefix is not listed. -/
structure SendsMissing (pool : TxPool) (hashTerminats : List HashTerminat) (sent : List Txi) :
    Prop where
  missing : ∀ hash tx, pool.get hash = some tx → terminat hash ∉ hashTerminats → tx ∈ sent
  known : ∀ hash tx, pool.get hash = some tx → terminat hash ∈ hashTerminats → tx ∉ sent

section Terminats

variable {pool : TxPool} {hashTerminats : List HashTerminat} {range : List (HashTerminat × Nat)}
variable (iterates : (pool.hashMap hashTerminats).Iterates range)
include iterates

theorem mem_range_iff {hashTerminat : HashTerminat} {position : Nat} :
    (hashTerminat, position) ∈ range ↔ hashTerminat ∉ hashTerminats ∧
      (positions pool.txLookup.order).get? hashTerminat = some position := by
  rw [iterates.mem_iff, hashMap]
  generalize positions pool.txLookup.order = map
  clear iterates
  induction hashTerminats generalizing map with
  | nil => simp
  | cons first rest ih =>
    rw [foldl_cons, ih, GoMap.get?_delete]
    by_cases same : hashTerminat = first <;> simp [same]

theorem mem_fetched_iff (wellFormed : pool.txLookup.WellFormed) (listed : hashTerminats ≠ [])
    {hash : Hash} {tx : Txi} (found : pool.get hash = some tx) :
    tx ∈ pool.handleFetchByTerminats hashTerminats range ↔ terminat hash ∉ hashTerminats ∧
      ∃ position, (positions pool.txLookup.order).get? (terminat hash) = some position ∧
        pool.txLookup.order[position]? = some hash := by
  simp only [handleFetchByTerminats, length_pos_iff.mpr listed, if_true, mem_filterMap,
    Prod.exists, mem_range_iff iterates, bind_eq_some_iff]
  constructor
  · rintro ⟨hashTerminat, position, ⟨notListed, isPosition⟩, other, isOther, isTx⟩
    obtain ⟨_, isHash, rfl⟩ := position_spec isPosition
    cases isHash.symm.trans isOther
    obtain ⟨txEnv, isPooled⟩ := wellFormed.listed other (mem_of_getElem? isOther)
    obtain ⟨otherEnv, otherPooled, rfl⟩ := map_eq_some_iff.mp found
    have same : txEnv.tx = otherEnv.tx := by
      simpa [getAnywhere, get, TxLookUp.get, isPooled] using isTx
    have isHash := wellFormed.hashes otherPooled
    rw [← same, wellFormed.hashes isPooled] at isHash
    subst isHash
    exact ⟨notListed, position, isPosition, isOther⟩
  · rintro ⟨notListed, position, isPosition, isHash⟩
    exact ⟨_, position, ⟨notListed, isPosition⟩, hash, isHash, by simp [getAnywhere, found]⟩

end Terminats

def archivingNext : Txi := ⟨⟨.archive, 2, [1], 0, 0, 0⟩, .archive⟩

end TxPool

end AnnchainOG
