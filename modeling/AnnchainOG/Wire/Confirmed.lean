import AnnchainOG.Wire.Ledger
import AnnchainOG.Wire.Binding

/-!
# Confirmed records and what was signed

The state root is written into a sequencer that signs it, after it was stored under its hash.
-/

namespace AnnchainOG.Wire

open List Option

section SameSigned

variable (sha3 : Bytes → Hash) (recover : Bool)

/-- The signature of one record covers the other, and they have the same hash. -/
structure SameSigned (before after : Txi) : Prop where
  signatureTargets : after.signatureTargets recover = before.signatureTargets recover
  calcTxHash : after.calcTxHash sha3 recover = before.calcTxHash sha3 recover

variable {sha3 recover}

theorem SameSigned.refl (tx : Txi) : SameSigned sha3 recover tx tx := ⟨rfl, rfl⟩

theorem SameSigned.symm {before after : Txi} (same : SameSigned sha3 recover before after) :
    SameSigned sha3 recover after before :=
  ⟨same.signatureTargets.symm, same.calcTxHash.symm⟩

theorem SameSigned.trans {first second third : Txi} (left : SameSigned sha3 recover first second)
    (right : SameSigned sha3 recover second third) : SameSigned sha3 recover first third :=
  ⟨right.signatureTargets.trans left.signatureTargets, right.calcTxHash.trans left.calcTxHash⟩

theorem sameSigned_unflagged (tx : Txi) : SameSigned sha3 recover tx tx.unflagged := by
  cases tx <;> exact ⟨rfl, rfl⟩

theorem Txi.Becomes.sameSigned {tx processed : Txi} (becomes : tx.Becomes processed) :
    SameSigned sha3 recover tx processed := by
  rcases becomes with rfl | ⟨record, offering, tokenID, rfl, isOffering, isData, rfl⟩
  · exact .refl _
  refine ⟨?_, rfl⟩
  simp only [Txi.signatureTargets, ActionTx.signatureTargets, ActionTx.getPublicOffering,
    ActionTx.withTokenId, isOffering, isData]
  rfl

theorem sequencer_sameSigned_iff (seq : Sequencer) (height : UInt64) (root : Hash) :
    SameSigned sha3 false (.sequencer seq) (.sequencer { seq with
        base := { seq.base with height := height }
        stateRoot := root }) ↔
      seq.issuer = none ∨ (seq.base.height = height ∧ seq.stateRoot = root) := by
  constructor
  · intro same
    cases isIssuer : seq.issuer with
    | none => exact .inl rfl
    | some issuer =>
      have targets := same.signatureTargets
      simp only [Txi.signatureTargets, Sequencer.signatureTargets, isIssuer] at targets
      have bytes := Except.ok.inj targets
      simp only [append_assoc, append_cancel_left_eq] at bytes
      have lengths : (uint64Bytes height).length = (uint64Bytes seq.base.height).length := by
        simp [uint64Bytes]
      obtain ⟨heights, rest⟩ := append_inj bytes lengths
      have roots := append_cancel_right (append_cancel_left rest)
      exact .inr ⟨(uint64Bytes_injective heights).symm, (hashBytes_injective roots).symm⟩
  · rintro (noIssuer | ⟨rfl, rfl⟩)
    · refine ⟨?_, rfl⟩
      simp only [Txi.signatureTargets, Sequencer.signatureTargets, noIssuer]
      rfl
    · exact .refl _

end SameSigned

variable {tx processed : Txi}
variable {msgp : Msgp}

/-- A sequencer among the transactions already has the height it is given. -/
def Txi.KeepsHeight (height : UInt64) : Txi → Prop
  | .sequencer record => record.issuer = none ∨ record.base.height = height
  | _ => True

theorem setHeight_sameSigned_iff {sha3 : Bytes → Hash} (tx : Txi) (height : UInt64) :
    SameSigned sha3 false tx (tx.setHeight height) ↔ tx.KeepsHeight height := by
  cases tx with
  | sequencer record =>
    have signed := @sequencer_sameSigned_iff sha3 record height record.stateRoot
    simpa [Txi.KeepsHeight, Txi.setHeight] using signed
  | tx | campaign | termChange | archive | action => exact iff_of_true ⟨rfl, rfl⟩ trivial

/-!
## The stored records
-/

theorem Txi.Becomes.base (becomes : tx.Becomes processed) : processed.base = tx.base := by
  rcases becomes with rfl | ⟨record, offering, tokenID, rfl, -, -, rfl⟩ <;> rfl

theorem Txi.Becomes.readable (becomes : tx.Becomes processed) :
    processed.readable = tx.readable := by
  rcases becomes with rfl | ⟨record, offering, tokenID, rfl, -, isData, rfl⟩
  · rfl
  · simp only [Txi.readable, ActionTx.withTokenId, isData]

theorem Txi.Becomes.carried (becomes : tx.Becomes processed)
    (carried : tx.Carried msgp) : processed.Carried msgp := by
  rcases becomes with rfl | ⟨record, offering, tokenID, rfl, -, isData, rfl⟩
  · exact carried
  refine ⟨carried.1, ?_⟩
  intro data isSome
  obtain rfl := Option.some.inj isSome
  have issuedCarried : (ActionData.publicOffering offering).Carried msgp := carried.2 _ isData
  exact issuedCarried

theorem readable_setHeight (tx : Txi) (height : UInt64) :
    (tx.setHeight height).readable = tx.readable := by
  cases tx <;> rfl

theorem Txi.Carried.setHeight (carried : tx.Carried msgp)
    (height : UInt64) : (tx.setHeight height).Carried msgp := by
  obtain ⟨⟨parentsHash, publicKey, signature⟩, own⟩ := carried
  cases tx <;> exact ⟨⟨parentsHash, publicKey, signature⟩, own⟩

section Written

variable {msgp : Msgp64} {recover : Bool}
variable {store written : Store} {txs : List Txi}

theorem writeAll_other {hash : Hash} (success : store.writeAll msgp recover txs = some written)
    (absent : hash ∉ txs.map fun tx => tx.base.hash) :
    written.transactions.get? hash = store.transactions.get? hash := by
  induction txs generalizing store with
  | nil =>
    cases success
    rfl
  | cons tx txs ih =>
    obtain ⟨between, first, rest⟩ := bind_eq_some_iff.mp success
    obtain ⟨data, -, rfl⟩ := map_eq_some_iff.mp first
    simp only [map_cons, mem_cons, not_or] at absent
    rw [ih rest absent.2]
    exact GoMap.get?_set_of_ne _ _ absent.1

theorem writeAll_stored (success : store.writeAll msgp recover txs = some written)
    (distinct : (txs.map fun tx => tx.base.hash).Nodup) {tx : Txi} (member : tx ∈ txs) :
    ∃ data, tx.stored msgp recover = .ok data ∧
      written.transactions.get? tx.base.hash = some data := by
  induction txs generalizing store with
  | nil => cases member
  | cons first txs ih =>
    obtain ⟨between, stored, rest⟩ := bind_eq_some_iff.mp success
    obtain ⟨fresh, distinct⟩ := nodup_cons.mp distinct
    rcases mem_cons.mp member with rfl | member
    · obtain ⟨data, isData, rfl⟩ := map_eq_some_iff.mp stored
      refine ⟨data, ok_of_toOption isData, ?_⟩
      rw [writeAll_other rest fresh]
      exact GoMap.get?_set_self _ _ _
    · exact ih rest distinct member

end Written

/-!
## Confirmed content
-/

section Confirmed

variable (msgp : Msgp64) (recover : Bool) (sha3 : Bytes → Hash)

def Store.Serves (store : Store) (tx : Txi) : Prop :=
  ∃ record, store.readTransaction msgp recover tx.base.hash = some record ∧
    SameSigned sha3 recover tx record

/-- What was signed is what is in memory after the push, and what is read by hash and by height. -/
structure StaysSigned (batch after : Batch) (store : Store) : Prop where
  txs : List.Forall₂ (SameSigned sha3 recover) (sortTxis batch.txs) after.txs
  seq : SameSigned sha3 recover (.sequencer batch.seq) (.sequencer after.seq)
  byHash : ∀ tx ∈ batch.txs, store.Serves msgp recover sha3 tx
  seqByHash : store.Serves msgp recover sha3 (.sequencer batch.seq)
  byHeight : ∀ tx ∈ batch.txs, ∃ hashes,
    store.readIndexedTxHashs batch.seq.base.height = some hashes ∧ tx.base.hash ∈ hashes
  seqByHeight : ∃ record,
    store.readSequencerByHeight msgp recover batch.seq.base.height = some record ∧
    SameSigned sha3 recover (.sequencer batch.seq) (.sequencer record)

end Confirmed

section Main

variable {msgp : Msgp64} {sha3 : Bytes → Hash}
variable {txs : List Txi}

theorem serves_iff {store : Store} {tx processed : Txi} {height : UInt64} {data : Bytes}
    (becomes : (tx.setHeight height).Becomes processed) (carried : tx.Carried msgp.toMsgp)
    (stored : processed.stored msgp false = .ok data)
    (found : store.transactions.get? processed.base.hash = some data) :
    store.Serves msgp false sha3 tx ↔ tx.readable = true ∧ tx.KeepsHeight height := by
  have sameHash : processed.base.hash = tx.base.hash := by rw [becomes.base, base_setHeight]
  have read : store.readTransaction msgp false tx.base.hash =
      if tx.readable then some processed.unflagged else none := by
    rw [Store.readTransaction, ← sameHash, found, bind_some,
      readStored_kept (becomes.carried (carried.setHeight height)) stored, becomes.readable,
      readable_setHeight]
  have signed : SameSigned sha3 false tx processed.unflagged ↔ tx.KeepsHeight height := by
    rw [← @setHeight_sameSigned_iff sha3]
    have fromHeight : SameSigned sha3 false (tx.setHeight height) processed.unflagged :=
      becomes.sameSigned.trans (sameSigned_unflagged processed)
    exact ⟨fun same => same.trans fromHeight.symm, fun same => same.trans fromHeight⟩
  unfold Store.Serves
  rw [read]
  cases tx.readable with
  | false => simp
  | true => simp [signed]

variable {recover : Bool} {ovm : Ovm} {rootHash : StateTrie → Hash} {dag next : Dag}
  {batch after : Batch}

def Batch.hashes (batch : Batch) : List Hash :=
  batch.seq.base.hash :: batch.txs.map fun tx => tx.base.hash

def Executed (batch : Batch) (txs : List Txi) : Prop :=
  List.Forall₂ (fun tx processed => (tx.setHeight batch.seq.base.height).Becomes processed)
    (sortTxis batch.txs) txs

theorem Executed.hashes (executed : Executed batch txs) :
    (txs.map fun tx => tx.base.hash).Perm (batch.txs.map fun tx => tx.base.hash) := by
  have same : ((sortTxis batch.txs).map fun tx => tx.base.hash) = txs.map fun tx => tx.base.hash := by
    rw [← forall₂_eq_eq_eq, forall₂_map_left_iff, forall₂_map_right_iff]
    refine executed.imp fun tx processed becomes => ?_
    rw [becomes.base, base_setHeight]
  rw [← same]
  exact (sortTxis_perm batch.txs).map _

theorem Executed.of_executed {sd : StateDB}
    (executed : dag.executed ovm batch = some (txs, sd)) : Executed batch txs := by
  obtain ⟨between, last, seq, ran, -, -⟩ := executed_spec executed
  exact forall₂_map_left_iff.mp (processAll_cases ran).1

theorem push_stored (pushed : dag.push msgp recover ovm rootHash batch = some (next, after))
    (distinct : batch.hashes.Nodup) :
    Executed batch after.txs ∧
      ∀ tx ∈ after.txs ++ [.sequencer batch.seq], ∃ data, tx.stored msgp recover = .ok data ∧
        next.store.transactions.get? tx.base.hash = some data := by
  obtain ⟨-, txs, sd, store, executed, written, rfl, rfl⟩ := push_spec pushed
  have becomes := Executed.of_executed executed
  refine ⟨becomes, fun tx member => ?_⟩
  have sameHashes : ((txs ++ [Txi.sequencer batch.seq]).map fun tx => tx.base.hash).Perm
      batch.hashes := by
    rw [map_append]
    exact perm_append_comm.trans (List.Perm.cons _ becomes.hashes)
  exact writeAll_stored written (sameHashes.nodup_iff.mpr distinct) member

theorem staysSigned_keyed (pushed : dag.push msgp recover ovm rootHash batch = some (next, after))
    (distinct : batch.hashes.Nodup) (carried : (Txi.sequencer batch.seq).Carried msgp.toMsgp)
    (stays : StaysSigned msgp recover sha3 batch after next.store) : recover = false := by
  cases recover with
  | false => rfl
  | true =>
    obtain ⟨data, stored, found⟩ := (push_stored pushed distinct).2 (.sequencer batch.seq)
      (mem_append_right _ mem_cons_self)
    cases stored
    obtain ⟨record, read, -⟩ := stays.seqByHash
    have lost : readContent msgp true .sequencer (batch.seq.marshalMsg msgp true) = none :=
      congrArg (Option.map Txi.sequencer) (sequencer_read_lost carried.1.signature)
    rw [Store.readTransaction, found, bind_some, readStored_contentPrefix] at read
    cases lost.symm.trans read

theorem Executed.sameSigned_iff (executed : Executed batch txs) :
    List.Forall₂ (SameSigned sha3 false) (sortTxis batch.txs) txs ↔
      ∀ tx ∈ batch.txs, tx.KeepsHeight batch.seq.base.height := by
  have pointwise : ∀ tx processed, (tx.setHeight batch.seq.base.height).Becomes processed →
      (SameSigned sha3 false tx processed ↔ tx.KeepsHeight batch.seq.base.height) := by
    intro tx processed becomes
    rw [← @setHeight_sameSigned_iff sha3]
    have fromHeight := @Txi.Becomes.sameSigned sha3 false _ _ becomes
    exact ⟨fun same => same.trans fromHeight.symm, fun same => same.trans fromHeight⟩
  refine (forall₂_iff_of_related executed pointwise).trans ?_
  exact forall_congr' fun tx => imp_congr_left (sortTxis_perm batch.txs).mem_iff

theorem push_root (pushed : dag.push msgp recover ovm rootHash batch = some (next, after)) :
    ∃ root, dag.rootAfter ovm rootHash batch = some root ∧
      after.seq = { batch.seq with stateRoot := root } ∧
      next.store.readSequencerByHeight msgp recover batch.seq.base.height =
        Sequencer.unmarshalMsg msgp recover (after.seq.marshalMsg msgp recover) := by
  obtain ⟨-, txs, sd, store, executed, -, rfl, rfl⟩ := push_spec pushed
  refine ⟨rootHash sd.trie, ?_, rfl, ?_⟩
  · rw [Dag.rootAfter, executed]
    rfl
  · simp only [Store.readSequencerByHeight, Store.finish, GoMap.get?_set_self, bind_some]

theorem push_indexed (pushed : dag.push msgp recover ovm rootHash batch = some (next, after))
    {tx : Txi} (member : tx ∈ batch.txs) :
    ∃ hashes, next.store.readIndexedTxHashs batch.seq.base.height = some hashes ∧
      tx.base.hash ∈ hashes := by
  obtain ⟨-, txs, sd, store, executed, -, rfl, rfl⟩ := push_spec pushed
  have becomes := Executed.of_executed executed
  have inHashes : tx.base.hash ∈ txs.map fun tx => tx.base.hash :=
    becomes.hashes.mem_iff.mpr (mem_map_of_mem member)
  have nonempty : txs ≠ [] := by
    rintro rfl
    cases inHashes
  refine ⟨_, ?_, inHashes⟩
  simp only [Store.readIndexedTxHashs, Store.finish, if_neg nonempty, GoMap.get?_set_self]

/-- What was signed stays signed exactly where keys are sent, the sequencer carries the root its
batch leads to, and all can be read back. -/
theorem stays_signed_iff (pushed : dag.push msgp recover ovm rootHash batch = some (next, after))
    (distinct : batch.hashes.Nodup)
    (carried : ∀ tx ∈ Txi.sequencer batch.seq :: batch.txs, tx.Carried msgp.toMsgp) :
    StaysSigned msgp recover sha3 batch after next.store ↔ recover = false ∧
        (∀ tx ∈ batch.txs, tx.readable = true ∧ tx.KeepsHeight batch.seq.base.height) ∧
        (batch.seq.issuer = none ∨ dag.rootAfter ovm rootHash batch = some batch.seq.stateRoot) := by
  have carriedSeq := carried _ mem_cons_self
  have carriedTxs : ∀ tx ∈ batch.txs, tx.Carried msgp.toMsgp := fun tx member =>
    carried tx (mem_cons_of_mem _ member)
  obtain ⟨executed, stored⟩ := push_stored pushed distinct
  cases recover with
  | true =>
    refine iff_of_false (fun stays => ?_) (fun keyed => Bool.noConfusion keyed.1)
    exact Bool.noConfusion (staysSigned_keyed pushed distinct carriedSeq stays)
  | false =>
    have serves : ∀ tx ∈ batch.txs, next.store.Serves msgp false sha3 tx ↔
        tx.readable = true ∧ tx.KeepsHeight batch.seq.base.height := by
      intro tx member
      obtain ⟨processed, inAfter, becomes⟩ :=
        exists_of_forall₂_left executed ((sortTxis_perm batch.txs).mem_iff.mpr member)
      obtain ⟨data, isStored, found⟩ := stored processed (mem_append_left _ inAfter)
      exact serves_iff becomes (carriedTxs tx member) isStored found
    have seqServes : next.store.Serves msgp false sha3 (.sequencer batch.seq) := by
      obtain ⟨data, isStored, found⟩ := stored (.sequencer batch.seq)
        (mem_append_right _ mem_cons_self)
      have unchanged : ((Txi.sequencer batch.seq).setHeight batch.seq.base.height).Becomes
          (.sequencer batch.seq) := .inl rfl
      exact (serves_iff unchanged carriedSeq isStored found).mpr ⟨rfl, .inr rfl⟩
    obtain ⟨root, isRoot, isSeq, byHeight⟩ := push_root pushed
    have signsRoot : SameSigned sha3 false (.sequencer batch.seq) (.sequencer after.seq) ↔
        batch.seq.issuer = none ∨
          dag.rootAfter ovm rootHash batch = some batch.seq.stateRoot := by
      have signed := @sequencer_sameSigned_iff sha3 batch.seq batch.seq.base.height root
      rw [isSeq, isRoot, Option.some.injEq]
      exact signed.trans (or_congr_right
        ⟨fun both => both.2.symm, fun same => ⟨rfl, same.symm⟩⟩)
    have carriedAfter : (Txi.sequencer after.seq).Carried msgp.toMsgp := by
      rw [isSeq]
      exact carriedSeq
    rw [sequencer_read_back carriedAfter] at byHeight
    constructor
    · intro stays
      exact ⟨rfl, fun tx member => (serves tx member).mp (stays.byHash tx member),
        signsRoot.mp stays.seq⟩
    · rintro ⟨-, kept, hasRoot⟩
      have sameSeq := signsRoot.mpr hasRoot
      exact {
        txs := executed.sameSigned_iff.mpr fun tx member => (kept tx member).2
        seq := sameSeq
        byHash := fun tx member => (serves tx member).mpr (kept tx member)
        seqByHash := seqServes
        byHeight := fun tx member => push_indexed pushed member
        seqByHeight := ⟨_, byHeight, sameSeq.trans (sameSigned_unflagged (.sequencer after.seq))⟩ }

end Main

def Dag.opened : Dag :=
  let genesis : Sequencer :=
    ⟨⟨txBaseTypeSequencer, 100, [], 0, 0, [], [], 0, 0, 0⟩, some 0, [], [], 0, false, 0⟩
  ⟨newStateDB ∅ .empty, .empty, genesis, genesis⟩

def ActionTx.offered : ActionTx :=
  ⟨⟨txBaseAction, 1, [100], 0, 0, [1], [], 0, 1, 0⟩, actionTxActionIPO, some 1,
    some (.publicOffering ⟨0, some 5, false, []⟩)⟩

def Batch.offering (root : Hash) : Batch :=
  ⟨⟨⟨txBaseTypeSequencer, 101, [1], 0, 1, [2], [], 0, 2, 0⟩, some 2, [], [], root, false, 0⟩,
    [.action .offered]⟩

theorem offering_carried :
    ∀ tx ∈ Txi.sequencer (Batch.offering 7).seq :: (Batch.offering 7).txs,
      tx.Carried Msgp64.format.toMsgp := by
  have short : ∀ bytes : Bytes, bytes.length < 256 → Msgp64.format.bytes.Fits bytes :=
    fun _ => Msgp64.format.bytes_fits
  intro tx member
  rcases mem_cons.mp member with rfl | member
  · exact ⟨⟨by decide, short _ (by decide), short _ (by decide)⟩, short _ (by decide),
      short _ (by decide)⟩
  obtain rfl := mem_singleton.mp member
  refine ⟨⟨by decide, short _ (by decide), short _ (by decide)⟩, ?_⟩
  intro data isSome
  obtain rfl := Option.some.inj isSome
  refine ⟨?_, show Msgp.strLeads.append 0 ≠ [] by decide⟩
  intro amount isAmount
  obtain rfl := Option.some.inj isAmount
  exact short _ (by decide)

theorem stays_signed_offering :
    ∃ next after, Dag.opened.push .format false .idle (fun _ => 7) (.offering 7) =
        some (next, after) ∧
      StaysSigned .format false (fun _ => 0) (.offering 7) after next.store := by
  have pushed : Dag.opened.push .format false .idle (fun _ => 7) (.offering 7) = some (_, _) := rfl
  refine ⟨_, _, pushed, (stays_signed_iff pushed (by decide) offering_carried).mpr ⟨rfl, ?_, .inr rfl⟩⟩
  intro tx member
  obtain rfl := mem_singleton.mp member
  exact ⟨rfl, trivial⟩

set_option maxRecDepth 4000 in
/-- A sequencer without a root is given one that its signature does not cover. -/
theorem root_not_signed :
    ∃ next after record, Dag.opened.push .format false .idle (fun _ => 7) (.offering 0) =
        some (next, after) ∧ next.store.readSequencerByHeight .format false 1 = some record ∧
      record.signatureTargets false ≠ (Batch.offering 0).seq.signatureTargets false ∧
      ¬ StaysSigned .format false (fun _ => 0) (.offering 0) after next.store := by
  have different : ∀ other : Sequencer, (other.signatureTargets false).toOption ≠
      ((Batch.offering 0).seq.signatureTargets false).toOption →
      other.signatureTargets false ≠ (Batch.offering 0).seq.signatureTargets false :=
    fun other apart same => apart (congrArg Except.toOption same)
  refine ⟨_, _, _, rfl, rfl, different _ (by decide), fun stays => ?_⟩
  exact different _ (by decide) stays.seq.signatureTargets

end AnnchainOG.Wire
