import AnnchainOG.Wire.Confirmed
import AnnchainOG.Wire.Restart

/-!
# The transaction cache

The cache holds the confirmed objects, the store what they were when they were written.
-/

namespace AnnchainOG.Wire

open List Option

structure TxCached where
  maxsize : Nat
  order : List Hash
  txs : GoMap Hash Txi

def newTxcached (maxsize : Nat) : TxCached := ⟨maxsize, [], ∅⟩

namespace TxCached

variable {cache : TxCached} {found : Txi} {hash : Hash}

def get (cache : TxCached) (hash : Hash) : Option Txi :=
  cache.txs.get? hash

/-- The oldest entry leaves a full cache, which is never empty. -/
def evict (cache : TxCached) : TxCached :=
  match cache.order with
  | [] => cache
  | fstHash :: order => { cache with order := order, txs := cache.txs.delete fstHash }

def add (cache : TxCached) (tx : Txi) : TxCached :=
  if cache.txs.contains tx.base.hash then cache
  else
    let cache := if cache.order.length ≥ cache.maxsize then cache.evict else cache
    { cache with
      order := cache.order ++ [tx.base.hash]
      txs := cache.txs.set tx.base.hash tx }

theorem get_evict (isFound : cache.evict.get hash = some found) : cache.get hash = some found := by
  unfold evict at isFound
  split at isFound
  · exact isFound
  simp only [get, GoMap.get?_delete] at isFound
  split at isFound
  · cases isFound
  · exact isFound

theorem get_addAll {txs : List Txi} (isFound : (txs.foldl add cache).get hash = some found) :
    cache.get hash = some found ∨ found ∈ txs ∧ found.base.hash = hash := by
  induction txs generalizing cache with
  | nil => exact .inl isFound
  | cons tx txs ih =>
    rcases ih isFound with earlier | ⟨member, isHash⟩
    · unfold add at earlier
      split at earlier
      · exact .inl earlier
      simp only [get, GoMap.get?_set] at earlier
      split at earlier
      next own =>
        cases earlier
        exact .inr ⟨mem_cons_self, own.symm⟩
      · split at earlier
        · exact .inl (get_evict earlier)
        · exact .inl earlier
    · exact .inr ⟨mem_cons_of_mem _ member, isHash⟩

end TxCached

/-!
## The ledger and its cache
-/

structure CachedDag where
  dag : Dag
  txcached : TxCached

inductive DagEvent where
  | push (batch : Batch)
  | restart (genesis : Sequencer) (genesisBalance : List (Address × Int))

section Reading

variable (msgp : Msgp64) (ovm : Ovm) (rootHash : StateTrie → Hash)

namespace CachedDag

variable (cached : CachedDag)

def getTx (hash : Hash) : Option Txi :=
  (cached.txcached.get hash).or (cached.dag.store.readTransaction msgp false hash)

def getSequencerByHash (hash : Hash) : Option Sequencer :=
  match cached.getTx msgp hash with
  | some (.sequencer seq) => some seq
  | _ => none

def getSequencerByHeight (height : UInt64) : Option Sequencer :=
  if height = 0 then some cached.dag.genesis
  else if height > cached.dag.latestSequencer.base.height then none
  else cached.dag.store.readSequencerByHeight msgp false height

/-- `NewDag` starts with an empty cache, to which only a genesis that it writes is added. -/
def newDag (store : Store) (genesis : Sequencer) (genesisBalance : List (Address × Int)) :
    Option CachedDag :=
  (Wire.newDag msgp false store genesis genesisBalance).map fun dag =>
    ⟨dag, match store.loadLastState msgp false with
      | some _ => newTxcached 10000
      | none => (newTxcached 10000).add (.sequencer genesis)⟩

/-- A push caches the objects it was given, in which it has set heights, token ids and the root. -/
def act : DagEvent → Option (CachedDag × List Txi)
  | .push batch => (cached.dag.push msgp false ovm rootHash batch).map fun (next, after) =>
      let confirmed := after.txs ++ [.sequencer after.seq]
      (⟨next, confirmed.foldl TxCached.add cached.txcached⟩, confirmed)
  | .restart genesis genesisBalance =>
      (newDag msgp cached.dag.store genesis genesisBalance).map fun again => (again, [])

def Acts (cached : CachedDag) (event : DagEvent) (next : CachedDag) (confirmed : List Txi) : Prop :=
  cached.act msgp ovm rootHash event = some (next, confirmed)

structure Agrees (cached : CachedDag) (confirmed : List Txi) : Prop where
  sequencers : ∀ height seq, cached.getSequencerByHeight msgp height = some seq →
    cached.getSequencerByHash msgp seq.base.hash = some seq
  records : ∀ tx ∈ confirmed, ∃ record,
    cached.dag.store.readTransaction msgp false tx.base.hash = some record ∧
      cached.getTx msgp tx.base.hash = some record

end CachedDag

def Dag.Holds (dag : Dag) (seq : Sequencer) : Prop :=
  seq = dag.genesis ∨ ∃ height, dag.store.readSequencerByHeight msgp false height = some seq

structure Txi.Kept (tx : Txi) : Prop where
  carried : tx.Carried msgp.toMsgp
  readable : tx.readable = true
  unflagged : tx.unflagged = tx

/-- Its sequencer carries the root it leads to, and its hashes are neither cached nor of
sequencers. -/
structure Batch.Faithful (cached : CachedDag) (batch : Batch) : Prop where
  kept : ∀ tx ∈ Txi.sequencer batch.seq :: batch.txs, tx.Kept msgp
  root : cached.dag.rootAfter ovm rootHash batch = some batch.seq.stateRoot
  distinct : batch.hashes.Nodup
  uncached : ∀ hash ∈ batch.hashes, cached.txcached.get hash = none
  unheld : ∀ seq, cached.dag.Holds msgp seq → seq.base.hash ∉ batch.hashes

def DagEvent.Faithful (cached : CachedDag) : DagEvent → Prop
  | .push batch => batch.Faithful msgp ovm rootHash cached
  | .restart _ _ => True

structure CachedDag.Sound (cached : CachedDag) (confirmed : List Txi) : Prop where
  genesis : cached.dag.store.readGenesis msgp false = some cached.dag.genesis
  sequencers : ∀ seq, cached.dag.Holds msgp seq →
    cached.dag.store.readTransaction msgp false seq.base.hash = some (.sequencer seq)
  inCache : ∀ hash tx, cached.txcached.get hash = some tx →
    cached.dag.store.readTransaction msgp false hash = some tx
  confirmed : ∀ tx ∈ confirmed, ∃ record,
    cached.dag.store.readTransaction msgp false tx.base.hash = some record

end Reading

section Kept

variable {msgp : Msgp64} {ovm : Ovm} {rootHash : StateTrie → Hash}
variable {tx processed : Txi}

theorem Txi.Kept.becomes {height : UInt64} (kept : tx.Kept msgp)
    (becomes : (tx.setHeight height).Becomes processed) : processed.Kept msgp where
  carried := becomes.carried (kept.carried.setHeight height)
  readable := (becomes.readable.trans (readable_setHeight tx height)).trans kept.readable
  unflagged := by
    obtain ⟨-, -, unflagged⟩ := kept
    rcases becomes with rfl | ⟨record, offering, tokenID, -, -, -, rfl⟩
    · cases tx with
      | sequencer record =>
        have decided := congrArg Sequencer.proposing (Txi.sequencer.inj unflagged)
        simp [Txi.unflagged, Txi.setHeight, ← decided]
      | tx | campaign | termChange | archive | action => rfl
    · rfl

theorem Txi.Kept.read {store : Store} {data : Bytes} (kept : tx.Kept msgp)
    (stored : tx.stored msgp false = .ok data)
    (found : store.transactions.get? tx.base.hash = some data) :
    store.readTransaction msgp false tx.base.hash = some tx := by
  simp [Store.readTransaction, found, readStored_kept kept.carried stored, kept.readable,
    kept.unflagged]

theorem Txi.Kept.sequencer {seq : Sequencer} (kept : (Txi.sequencer seq).Kept msgp) :
    Sequencer.unmarshalMsg msgp false (seq.marshalMsg msgp false) = some seq :=
  (sequencer_read_back kept.carried).trans (congrArg some (Txi.sequencer.inj kept.unflagged))

end Kept

section Agreement

variable {msgp : Msgp64} {ovm : Ovm} {rootHash : StateTrie → Hash}
variable {cached next : CachedDag} {confirmed new : List Txi}

theorem CachedDag.Sound.getTx (sound : cached.Sound msgp confirmed) (hash : Hash) :
    cached.getTx msgp hash = cached.dag.store.readTransaction msgp false hash := by
  unfold CachedDag.getTx
  cases inCache : cached.txcached.get hash with
  | none => rfl
  | some tx => exact (sound.inCache hash tx inCache).symm

theorem CachedDag.Sound.agrees (sound : cached.Sound msgp confirmed) :
    cached.Agrees msgp confirmed where
  sequencers height seq byHeight := by
    have held : cached.dag.Holds msgp seq := by
      unfold CachedDag.getSequencerByHeight at byHeight
      split at byHeight
      · exact .inl (Option.some.inj byHeight).symm
      · exact .inr ⟨height, (ite_none_left_eq_some.mp byHeight).2⟩
    simp [CachedDag.getSequencerByHash, sound.getTx, sound.sequencers seq held]
  records tx member := by
    obtain ⟨record, read⟩ := sound.confirmed tx member
    exact ⟨record, read, (sound.getTx _).trans read⟩

variable {dag after : Dag} {batch confirmedBatch : Batch}

theorem Batch.Faithful.push (faithful : batch.Faithful msgp ovm rootHash cached)
    (pushed : cached.dag.push msgp false ovm rootHash batch = some (after, confirmedBatch)) :
    confirmedBatch.seq = batch.seq ∧
      (∀ hash ∈ batch.hashes, ∃ tx ∈ confirmedBatch.txs ++ [.sequencer batch.seq],
        tx.base.hash = hash) ∧ (∀ tx ∈ confirmedBatch.txs ++ [.sequencer batch.seq],
        after.store.readTransaction msgp false tx.base.hash = some tx) ∧
      ∀ hash ∉ batch.hashes, after.store.readTransaction msgp false hash =
        cached.dag.store.readTransaction msgp false hash := by
  obtain ⟨executed, stored⟩ := push_stored pushed faithful.distinct
  obtain ⟨root, isRoot, isSeq, -⟩ := push_root pushed
  have sameRoot : batch.seq.stateRoot = root := Option.some.inj (faithful.root.symm.trans isRoot)
  have hashes : ((confirmedBatch.txs ++ [Txi.sequencer batch.seq]).map fun tx => tx.base.hash).Perm
      batch.hashes := by
    rw [map_append]
    exact perm_append_comm.trans (List.Perm.cons _ executed.hashes)
  refine ⟨isSeq.trans (by rw [← sameRoot]), fun hash member => ?_, fun tx member => ?_,
    fun hash absent => ?_⟩
  · exact mem_map.mp (hashes.mem_iff.mpr member)
  · obtain ⟨data, isStored, found⟩ := stored tx member
    refine Txi.Kept.read ?_ isStored found
    rcases mem_append.mp member with inTxs | isSequencer
    · obtain ⟨index, bound, rfl⟩ := getElem_of_mem inTxs
      have before : index < (sortTxis batch.txs).length := executed.length_eq ▸ bound
      have given : (sortTxis batch.txs)[index] ∈ batch.txs :=
        (sortTxis_perm batch.txs).mem_iff.mp (getElem_mem before)
      exact (faithful.kept _ (mem_cons_of_mem _ given)).becomes (executed.get before bound)
    · cases mem_singleton.mp isSequencer
      exact faithful.kept _ mem_cons_self
  · obtain ⟨-, txs, sd, store, -, written, rfl, rfl⟩ := push_spec pushed
    have same := writeAll_other written (fun member => absent (hashes.mem_iff.mp member))
    exact congrArg (Option.bind · (readStored msgp false)) same

theorem Dag.Holds.of_push {seq : Sequencer} (kept : (Txi.sequencer batch.seq).Kept msgp)
    (pushed : dag.push msgp false ovm rootHash batch = some (after, confirmedBatch))
    (isSeq : confirmedBatch.seq = batch.seq) (held : after.Holds msgp seq) :
    dag.Holds msgp seq ∨ seq = batch.seq := by
  obtain ⟨-, txs, sd, store, -, written, -, rfl⟩ := push_spec pushed
  rcases held with isGenesis | ⟨height, read⟩
  · exact .inl (.inl isGenesis)
  simp only [Store.readSequencerByHeight, Store.finish, GoMap.get?_set] at read
  split at read
  · rw [bind_some, isSeq, kept.sequencer] at read
    exact .inr (Option.some.inj read).symm
  · rw [writeAll_only written] at read
    exact .inl (.inr ⟨height, read⟩)

theorem CachedDag.Sound.push (sound : cached.Sound msgp confirmed)
    (faithful : batch.Faithful msgp ovm rootHash cached)
    (acted : cached.act msgp ovm rootHash (.push batch) = some (next, new)) :
    next.Sound msgp (confirmed ++ new) := by
  obtain ⟨⟨after, confirmedBatch⟩, pushed, acted⟩ := map_eq_some_iff.mp acted
  cases acted
  obtain ⟨isSeq, listed, read, others⟩ := faithful.push pushed
  simp only [isSeq]
  constructor
  · obtain ⟨-, txs, sd, store, -, written, -, rfl⟩ := push_spec pushed
    have same : store.genesis = cached.dag.store.genesis := by rw [writeAll_only written]
    exact (congrArg (Option.bind · (Sequencer.unmarshalMsg msgp false)) same).trans sound.genesis
  · intro seq held
    rcases held.of_push (faithful.kept _ mem_cons_self) pushed isSeq with held | rfl
    · exact (others _ (faithful.unheld seq held)).trans (sound.sequencers seq held)
    · exact read (.sequencer batch.seq) (by simp)
  · intro hash tx inCache
    rcases TxCached.get_addAll inCache with before | ⟨member, rfl⟩
    · have absent : hash ∉ batch.hashes := by
        intro member
        cases (faithful.uncached hash member).symm.trans before
      exact (others hash absent).trans (sound.inCache hash tx before)
    · exact read tx member
  · intro tx member
    rcases mem_append.mp member with earlier | isNew
    · by_cases inBatch : tx.base.hash ∈ batch.hashes
      · obtain ⟨stored, listed, isHash⟩ := listed tx.base.hash inBatch
        exact ⟨stored, isHash ▸ (read stored listed)⟩
      · obtain ⟨record, isRecord⟩ := sound.confirmed tx earlier
        exact ⟨record, (others _ inBatch).trans isRecord⟩
    · exact ⟨tx, read tx isNew⟩

theorem CachedDag.Sound.restart {genesis : Sequencer} {genesisBalance : List (Address × Int)}
    (sound : cached.Sound msgp confirmed)
    (acted : cached.act msgp ovm rootHash (.restart genesis genesisBalance) = some (next, new)) :
    next.Sound msgp (confirmed ++ new) := by
  obtain ⟨again, opened, acted⟩ := map_eq_some_iff.mp acted
  cases acted
  obtain ⟨dag, isDag, rfl⟩ := map_eq_some_iff.mp opened
  have loaded : cached.dag.store.loadLastState msgp false = some (cached.dag.genesis,
      (cached.dag.store.readLatestSequencer msgp false).getD cached.dag.genesis) := by
    rw [Store.loadLastState, sound.genesis, map_some]
  simp only [Wire.newDag, loaded] at isDag
  obtain ⟨trie, -, isDag⟩ := bind_eq_some_iff.mp isDag
  obtain ⟨-, isDag⟩ := ite_none_left_eq_some.mp isDag
  cases isDag
  simp only [loaded, append_nil]
  exact ⟨sound.genesis, sound.sequencers, (fun _ _ found => by cases found), sound.confirmed⟩

section Fresh

variable {genesis : Sequencer} {genesisBalance : List (Address × Int)}
variable (kept : (Txi.sequencer genesis).Kept msgp)
  (opened : CachedDag.newDag msgp .empty genesis genesisBalance = some cached)
include kept opened

theorem newDag_holds {seq : Sequencer} (held : cached.dag.Holds msgp seq) : seq = genesis := by
  obtain ⟨dag, isDag, rfl⟩ := map_eq_some_iff.mp opened
  obtain ⟨-, opened⟩ := ite_none_left_eq_some.mp isDag
  obtain ⟨store, written, opened⟩ := bind_eq_some_iff.mp opened
  cases opened
  cases (ite_none_right_eq_some.mp written).2
  rcases held with isGenesis | ⟨height, read⟩
  · exact isGenesis
  simp only [Store.readSequencerByHeight, GoMap.get?_set] at read
  split at read
  · exact Option.some.inj (read.symm.trans kept.sequencer)
  · cases read

theorem newDag_sound : cached.Sound msgp [] := by
  have holds := @newDag_holds _ _ _ _ kept opened
  obtain ⟨dag, isDag, rfl⟩ := map_eq_some_iff.mp opened
  obtain ⟨-, opened⟩ := ite_none_left_eq_some.mp isDag
  obtain ⟨store, written, opened⟩ := bind_eq_some_iff.mp opened
  cases opened
  cases (ite_none_right_eq_some.mp written).2
  have found : (Store.readTransaction msgp false { Store.empty with
      transactions := Store.empty.transactions.set genesis.base.hash _ } genesis.base.hash) =
        some (.sequencer genesis) :=
    kept.read rfl (GoMap.get?_set_self _ _ _)
  refine ⟨kept.sequencer, ?_, ?_, by simp⟩
  · intro seq held
    cases holds held
    exact found
  · intro hash tx inCache
    have added : ([.sequencer genesis].foldl TxCached.add (newTxcached 10000)).get hash = some tx :=
      inCache
    rcases TxCached.get_addAll added with before | ⟨member, rfl⟩
    · cases before
    · cases mem_singleton.mp member
      exact found

end Fresh

/-- Over pushes of such batches and restarts, sequencers are read alike by height and by hash. -/
theorem reads_agree {genesis : Sequencer} {genesisBalance : List (Address × Int)}
    {first : CachedDag} (kept : (Txi.sequencer genesis).Kept msgp)
    (opened : CachedDag.newDag msgp .empty genesis genesisBalance = some first)
    (run : Run (CachedDag.Acts msgp ovm rootHash) (DagEvent.Faithful msgp ovm rootHash) first cached
      confirmed) : cached.Agrees msgp confirmed := by
  refine CachedDag.Sound.agrees ?_
  refine Run.invariant (motive := fun cached confirmed => cached.Sound msgp confirmed)
    (newDag_sound kept opened) ?_ run
  intro state after outputs new event sound faithful acted
  cases event with
  | push batch => exact sound.push faithful acted
  | restart => exact sound.restart acted

end Agreement

def Batch.rooted : Batch :=
  ⟨{ Batch.bare.seq with stateRoot := 7 }, []⟩

theorem kept_sequencer {seq : Sequencer} (hashes : seq.base.parentsHash.length < 2 ^ 32)
    (decided : seq.proposing = false)
    (short : ∀ bytes ∈ [seq.base.publicKey, seq.base.signature, seq.blsJointSig, seq.blsJointPubKey],
      bytes.length < 256) : (Txi.sequencer seq).Kept .format where
  carried := by
    have fits : ∀ bytes ∈ _, Msgp64.format.bytes.Fits bytes := fun bytes member =>
      Msgp64.format.bytes_fits (short bytes member)
    simp only [forall_mem_cons] at fits
    exact ⟨⟨hashes, fits.1, fits.2.1⟩, fits.2.2.1, fits.2.2.2.1⟩
  readable := rfl
  unflagged := by
    rw [Txi.unflagged, ← decided]

set_option maxRecDepth 4000 in
theorem reads_agree_rooted :
    ∃ first pushed again confirmed,
      CachedDag.newDag .format .empty .unrooted [(1, 100)] = some first ∧
      first.act .format .idle (fun _ => 7) (.push .rooted) = some (pushed, [confirmed]) ∧
      pushed.act .format .idle (fun _ => 7) (.restart .unrooted []) = some (again, []) ∧
      again.Agrees .format [confirmed] := by
  have kept := @kept_sequencer Sequencer.unrooted (by decide) rfl (by decide)
  obtain ⟨first, opened⟩ : ∃ first, CachedDag.newDag .format .empty .unrooted [(1, 100)] = some first :=
    ⟨_, rfl⟩
  have pushes : DagEvent.Faithful .format .idle (fun _ => 7) first (.push .rooted) := by
    have holds := @newDag_holds _ _ _ _ kept opened
    cases opened
    refine ⟨?_, rfl, by decide, fun hash member => ?_, fun seq held => ?_⟩
    · simpa [Batch.rooted] using kept_sequencer (by decide) rfl (by decide)
    · cases mem_singleton.mp member
      rfl
    · rw [holds held]
      decide
  have restarts : ∀ pushed,
      DagEvent.Faithful .format .idle (fun _ => 7) pushed (.restart .unrooted []) := fun _ => trivial
  have run : ∀ pushed confirmed again,
      CachedDag.Acts .format .idle (fun _ => 7) first (.push .rooted) pushed confirmed →
      CachedDag.Acts .format .idle (fun _ => 7) pushed (.restart .unrooted []) again [] →
      again.Agrees .format (([] ++ confirmed) ++ []) := fun pushed confirmed again acted restarted =>
    reads_agree kept opened (.next (.next .start pushes acted) (restarts pushed) restarted)
  cases opened
  exact ⟨_, _, _, _, rfl, rfl, rfl, run _ _ _ rfl rfl⟩

set_option maxRecDepth 4000 in
/-- A push stores the sequencer under its hash before it has set the state root. -/
theorem root_read_apart :
    ∃ first pushed again confirmed byHeight byHash,
      CachedDag.newDag .format .empty .unrooted [(1, 100)] = some first ∧
      first.act .format .idle (fun _ => 7) (.push .bare) = some (pushed, [confirmed]) ∧
      pushed.act .format .idle (fun _ => 7) (.restart .unrooted []) = some (again, []) ∧
      again.getSequencerByHeight .format 1 = some byHeight ∧ byHeight.stateRoot = 7 ∧
      again.getSequencerByHash .format byHeight.base.hash = some byHash ∧ byHash.stateRoot = 0 ∧
      pushed.getTx .format confirmed.base.hash ≠
        pushed.dag.store.readTransaction .format false confirmed.base.hash := by
  refine ⟨_, _, _, _, _, _, rfl, rfl, rfl, rfl, rfl, rfl, rfl, ?_⟩
  decide

end AnnchainOG.Wire
