import AnnchainOG.Ledger.TokenBook
import AnnchainOG.Lib.Runs
import AnnchainOG.State.Recorded
import AnnchainOG.Wire.Ledger

/-!
# Restarting the ledger

`NewDag` opens the state at the root of the latest stored sequencer. The genesis balances are set in
memory only.
-/

namespace AnnchainOG.Wire

open Option StateDB

/-!
## Opening a store
-/

section Opening

variable (msgp : Msgp64) (recover : Bool)

/-- The zero hash opens an empty trie, any other hash what was flushed under it. -/
def Store.openTrie (store : Store) (root : Hash) : Option StateTrie :=
  if root = 0 then some .empty else store.tries.get? root

def Store.loadLastState (store : Store) : Option (Sequencer × Sequencer) :=
  (store.readGenesis msgp recover).map fun genesis =>
    (genesis, (store.readLatestSequencer msgp recover).getD genesis)

/-- Written as the genesis, as the latest sequencer, under its height and as a transaction. -/
def Store.writeGenesis (store : Store) (genesis : Sequencer) : Option Store :=
  let data := genesis.marshalMsg msgp recover
  let written : Store := { store with
    genesis := some data
    latestSequencer := some data
    sequencers := store.sequencers.set genesis.base.height data }
  if (Txi.sequencer genesis).hasPointers then written.writeTransaction msgp recover (.sequencer genesis)
  else none

def setGenesisBalances (sd : StateDB) (genesisBalance : List (Address × Int)) : StateDB :=
  genesisBalance.foldl (fun sd entry => sd.setBalance entry.1 ogTokenID entry.2) sd

def Dag.init (sd : StateDB) (store : Store) (genesis : Sequencer)
    (genesisBalance : List (Address × Int)) : Option Dag :=
  if genesis.base.height ≠ 0 then none
  else do
    let store ← store.writeGenesis msgp recover genesis
    return ⟨setGenesisBalances sd genesisBalance, store, genesis, genesis⟩

/-- `NewDag` with what `DefaultGenesis` answers. -/
def newDag (store : Store) (genesis : Sequencer) (genesisBalance : List (Address × Int)) :
    Option Dag :=
  match store.loadLastState msgp recover with
  | some (stored, latest) => do
      let trie ← store.openTrie latest.stateRoot
      -- a state that was committed has a root
      if latest.base.height > 0 ∧ latest.stateRoot = 0 then none
      else return ⟨newStateDB store.codes trie, store, stored, latest⟩
  | none => do
      let trie ← store.openTrie 0
      Dag.init msgp recover (newStateDB store.codes trie) store genesis genesisBalance

end Opening

namespace Dag

def getBalance (dag : Dag) (addr : Address) (tokenID : TokenId) : Int :=
  dag.statedb.getBalance addr tokenID

def getLatestNonce (dag : Dag) (addr : Address) : UInt64 :=
  dag.statedb.getNonce addr

def getToken (dag : Dag) (tokenID : TokenId) : Option TokenData :=
  if tokenID > dag.statedb.latestTokenID then none else dag.statedb.getToken tokenID

/-- The ledgers cannot be told apart by their latest sequencer, balances, nonces and tokens. -/
structure SameLedger (left right : Dag) : Prop where
  latestSequencer : left.latestSequencer = right.latestSequencer
  getBalance : ∀ addr tokenID, left.getBalance addr tokenID = right.getBalance addr tokenID
  getLatestNonce : ∀ addr, left.getLatestNonce addr = right.getLatestNonce addr
  getToken : ∀ tokenID, left.getToken tokenID = right.getToken tokenID

theorem sameLedger_of_holdings {left right : Dag}
    (latest : left.latestSequencer = right.latestSequencer)
    (same : left.statedb.SameHoldings right.statedb) : left.SameLedger right where
  latestSequencer := latest
  getBalance := same.getBalance
  getLatestNonce := same.getNonce
  getToken tokenID := by
    rw [getToken, getToken, same.latestTokenID, same.getToken]

end Dag

/-!
## Genesis balances
-/

section Genesis

variable {sd : StateDB} {genesisBalance : List (Address × Int)}
variable {addr : Address}

theorem setGenesisBalances_book (sd : StateDB) (genesisBalance : List (Address × Int)) :
    (setGenesisBalances sd genesisBalance).book = sd.book := by
  induction genesisBalance generalizing sd with
  | nil => rfl
  | cons entry rest ih =>
    refine (ih _).trans (book_of_quiet ?_)
    rw [abs_setBalance]
    exact FlatDB.setBalance_quiet _ _ _ _

theorem setGenesisBalances_nonce (sd : StateDB) (genesisBalance : List (Address × Int))
    (addr : Address) : (setGenesisBalances sd genesisBalance).getNonce addr = sd.getNonce addr := by
  induction genesisBalance generalizing sd with
  | nil => rfl
  | cons entry rest ih =>
    refine (ih _).trans ?_
    rw [getNonce_eq_nonces, getNonce_eq_nonces, abs_setBalance, FlatDB.nonces_setBalance]

theorem setGenesisBalances_recorded (recorded : sd.Recorded) :
    (setGenesisBalances sd genesisBalance).Recorded := by
  induction genesisBalance generalizing sd with
  | nil => exact recorded
  | cons entry rest ih =>
    exact ih (recorded.apply (show sd.apply (.setBalance entry.1 ogTokenID entry.2) = _ from rfl))

theorem getBalance_setBalance (sd : StateDB) (addr : Address) (tokenID : TokenId) (value : Int)
    (other : Address) (otherID : TokenId) :
    (sd.setBalance addr tokenID value).getBalance other otherID =
      if other = addr ∧ otherID = tokenID then value else sd.getBalance other otherID := by
  simp only [getBalance_eq_amount, getAllBalance_setBalance]
  by_cases same : other = addr
  · subst same
    simp only [if_true, BalanceSet.amount_set, Function.update_apply, getD_some, true_and]
  · simp only [same, false_and, if_false]

theorem setGenesisBalances_other {tokenID : TokenId}
    (other : tokenID = ogTokenID → addr ∉ genesisBalance.map Prod.fst) :
    (setGenesisBalances sd genesisBalance).getBalance addr tokenID = sd.getBalance addr tokenID := by
  induction genesisBalance generalizing sd with
  | nil => rfl
  | cons entry rest ih =>
    have restOther : tokenID = ogTokenID → addr ∉ rest.map Prod.fst := fun isOG member =>
      other isOG (List.mem_cons_of_mem _ member)
    refine (ih restOther).trans ?_
    rw [getBalance_setBalance, if_neg]
    rintro ⟨rfl, isOG⟩
    exact other isOG List.mem_cons_self

theorem setGenesisBalances_set (distinct : (genesisBalance.map Prod.fst).Nodup)
    {value : Int} (member : (addr, value) ∈ genesisBalance) :
    (setGenesisBalances sd genesisBalance).getBalance addr ogTokenID = value := by
  induction genesisBalance generalizing sd with
  | nil => cases member
  | cons entry rest ih =>
    obtain ⟨fresh, distinct⟩ := List.nodup_cons.mp distinct
    rcases List.mem_cons.mp member with rfl | member
    · refine (setGenesisBalances_other fun _ => fresh).trans ?_
      rw [getBalance_setBalance, if_pos ⟨rfl, rfl⟩]
    · exact ih distinct member

end Genesis

/-!
## Runs
-/

section Runs

variable (msgp : Msgp64) (ovm : Ovm) (rootHash : StateTrie → Hash)
variable {dag : Dag}
variable {txs : List Txi} {batch : Batch} {genesis : Sequencer}

def Batch.offerings (batch : Batch) : Nat :=
  batch.txs.countP fun tx => tx.view.issues

structure Batch.Recordable (dag : Dag) (batch : Batch) : Prop where
  carried : (Txi.sequencer batch.seq).Carried msgp.toMsgp
  decided : batch.seq.proposing = false
  tokenIDs : dag.statedb.latestTokenID.toInt + batch.offerings < 2 ^ 31

def Dag.Pushes (dag : Dag) (batch : Batch) (next : Dag) (confirmed : List Batch) : Prop :=
  ∃ after, dag.push msgp false ovm rootHash batch = some (next, after) ∧ confirmed = [after]

structure Dag.Kept (genesis : Sequencer) (dag : Dag) : Prop where
  genesis : dag.store.genesis = some (genesis.marshalMsg msgp false)
  recorded : dag.statedb.Recorded
  numbered : dag.statedb.book.Numbered

structure Dag.Saved (dag : Dag) : Prop where
  latestSequencer : dag.store.readLatestSequencer msgp false = some dag.latestSequencer
  hasRoot : dag.latestSequencer.stateRoot ≠ 0
  trie : dag.store.tries.get? dag.latestSequencer.stateRoot = some dag.statedb.trie
  codes : dag.store.codes = dag.statedb.codes
  written : dag.statedb.journal.entries = []
  settled : dag.statedb.dirtyLatestTokenID = false

variable {msgp ovm rootHash}

theorem writeAll_only {recover : Bool} {store written : Store}
    (success : store.writeAll msgp recover txs = some written) :
    written = { store with transactions := written.transactions } := by
  induction txs generalizing store with
  | nil =>
    cases success
    rfl
  | cons tx txs ih =>
    obtain ⟨between, first, rest⟩ := bind_eq_some_iff.mp success
    obtain ⟨data, -, rfl⟩ := map_eq_some_iff.mp first
    have kept := ih rest
    exact kept

theorem issues_setHeight (tx : AnnchainOG.Txi) (height : UInt64) :
    (tx.setHeight height).issues = tx.issues := rfl

theorem offerings_executionOrder (batch : Batch) :
    ((Dag.executionOrder batch).map Txi.view).countP AnnchainOG.Txi.issues = batch.offerings := by
  simp only [Dag.executionOrder, List.map_map, List.countP_map]
  rw [Batch.offerings, ← (sortTxis_perm batch.txs).countP_eq]
  refine List.countP_congr fun tx _ => ?_
  simp only [Function.comp_apply, view_setHeight, issues_setHeight]

theorem executed_kept {sd : StateDB}
    (executed : dag.executed ovm batch = some (txs, sd)) (recorded : dag.statedb.Recorded)
    (numbered : dag.statedb.book.Numbered)
    (tokenIDs : dag.statedb.latestTokenID.toInt + batch.offerings < 2 ^ 31) :
    sd.clearJournalAndRefund.Recorded ∧ sd.clearJournalAndRefund.book.Numbered ∧
      sd.dirtyLatestTokenID = false := by
  obtain ⟨between, last, seq, ran, seqRan, commits⟩ := executed_spec executed
  obtain ⟨-, executedTxs⟩ := processAll_cases ran
  obtain ⟨-, executedSeq, -⟩ := processTransaction_cases seqRan
  have snapshot : dag.statedb.snapshot.2.Recorded :=
    recorded.apply (show dag.statedb.apply .snapshot = _ from rfl)
  obtain ⟨ops, -, ranTxs⟩ := processAll_drives executedTxs
  obtain ⟨seqOps, -, ranSeq⟩ := processTransaction_drives executedSeq
  have lastRecorded : last.Recorded := (snapshot.run ranTxs).run ranSeq
  have betweenNumbered : between.book.Numbered := by
    refine processAll_numbered executedTxs numbered ?_
    rw [offerings_executionOrder]
    exact tokenIDs
  have sameBook : last.book = between.book :=
    (processTransaction_book executedSeq).2.trans (TokenBook.after_sequencer batch.seq.view)
  refine ⟨lastRecorded.committed_clear commits, ?_, ?_⟩
  · obtain rfl := commit_ok commits
    have kept : last.committed.clearJournalAndRefund.book = last.book :=
      TokenBook.ext last.flat_committed_tokens rfl
    rw [kept, sameBook]
    exact betweenNumbered
  · obtain rfl := commit_ok commits
    rfl

theorem push_kept {next : Dag} {after : Batch}
    (rooted : ∀ trie, rootHash trie ≠ 0) (kept : dag.Kept msgp genesis)
    (recordable : batch.Recordable msgp dag)
    (pushed : dag.push msgp false ovm rootHash batch = some (next, after)) :
    next.Kept msgp genesis ∧ next.Saved msgp := by
  obtain ⟨-, txs, sd, store, executed, written, rfl, rfl⟩ := push_spec pushed
  obtain ⟨recorded, numbered, settled⟩ :=
    executed_kept executed kept.recorded kept.numbered recordable.tokenIDs
  refine ⟨⟨(congrArg Store.genesis (writeAll_only written)).trans kept.genesis, recorded, numbered⟩,
    ⟨?_, rooted _, GoMap.get?_set_self _ _ _, rfl, rfl, settled⟩⟩
  have carried : (Txi.sequencer { batch.seq with stateRoot := rootHash sd.trie }).Carried
      msgp.toMsgp := recordable.carried
  refine (sequencer_read_back carried).trans ?_
  rw [← recordable.decided]

theorem newDag_saved
    (carried : (Txi.sequencer genesis).Carried msgp.toMsgp) (kept : dag.Kept msgp genesis)
    (saved : dag.Saved msgp) (other : Sequencer) (genesisBalance : List (Address × Int)) :
    ∃ again, newDag msgp false dag.store other genesisBalance = some again ∧
      again.SameLedger dag := by
  have stored : dag.store.loadLastState msgp false =
      some ({ genesis with proposing := false }, dag.latestSequencer) := by
    rw [Store.loadLastState, Store.readGenesis, kept.genesis, bind_some,
      sequencer_read_back carried, map_some, saved.latestSequencer, getD_some]
  have opened : dag.store.openTrie dag.latestSequencer.stateRoot = some dag.statedb.trie := by
    rw [Store.openTrie, if_neg saved.hasRoot, saved.trie]
  refine ⟨⟨newStateDB dag.statedb.codes dag.statedb.trie, dag.store,
    { genesis with proposing := false }, dag.latestSequencer⟩, ?_, ?_⟩
  · simp only [newDag, stored, opened, bind_eq_bind, bind_some, saved.hasRoot,
      and_false, if_false, saved.codes]
    rfl
  · exact Dag.sameLedger_of_holdings rfl
      (kept.recorded.reopened saved.written saved.settled kept.numbered.tokens)

end Runs

/-!
## Before the first push
-/

section Fresh

variable {msgp : Msgp64} {genesis : Sequencer} {order : List (Address × Int)} {first : Dag}

theorem newDag_empty (opened : newDag msgp false .empty genesis order = some first) :
    genesis.base.height = 0 ∧ first.latestSequencer = genesis ∧
      first.statedb = setGenesisBalances (newStateDB ∅ .empty) order ∧
      first.store.genesis = some (genesis.marshalMsg msgp false) ∧
      first.store.latestSequencer = some (genesis.marshalMsg msgp false) ∧ first.store.codes = ∅ := by
  obtain ⟨height, opened⟩ := ite_none_left_eq_some.mp opened
  obtain ⟨store, written, opened⟩ := bind_eq_some_iff.mp opened
  obtain ⟨-, written⟩ := ite_none_right_eq_some.mp written
  obtain ⟨data, -, rfl⟩ := map_eq_some_iff.mp written
  cases opened
  exact ⟨not_not.mp height, rfl, rfl, rfl, rfl, rfl⟩

theorem newDag_empty_kept (opened : newDag msgp false .empty genesis order = some first) :
    first.Kept msgp genesis := by
  obtain ⟨-, -, isState, isGenesis, -, -⟩ := newDag_empty opened
  refine ⟨isGenesis, ?_, ?_⟩
  · rw [isState]
    exact setGenesisBalances_recorded (recorded_newStateDB ∅ .empty)
  · rw [isState, setGenesisBalances_book]
    exact ⟨by decide, fun _ _ => rfl⟩

theorem newDag_again (carried : (Txi.sequencer genesis).Carried msgp.toMsgp)
    (decided : genesis.proposing = false) (noRoot : genesis.stateRoot = 0)
    (opened : newDag msgp false .empty genesis order = some first) (other : Sequencer)
    (genesisBalance : List (Address × Int)) :
    newDag msgp false first.store other genesisBalance =
      some ⟨newStateDB ∅ .empty, first.store, genesis, genesis⟩ := by
  obtain ⟨height, -, -, isGenesis, isLatest, isCodes⟩ := newDag_empty opened
  have readBack : Sequencer.unmarshalMsg msgp false (genesis.marshalMsg msgp false) = some genesis := by
    refine (sequencer_read_back carried).trans ?_
    rw [← decided]
  have stored : first.store.loadLastState msgp false = some (genesis, genesis) := by
    rw [Store.loadLastState, Store.readGenesis, Store.readLatestSequencer, isGenesis, isLatest,
      bind_some, readBack]
    rfl
  have grounded : ¬ (genesis.base.height > 0 ∧ genesis.stateRoot = 0) := by
    rw [height]
    exact fun both => absurd both.1 (by decide)
  simp only [newDag, stored, Store.openTrie, if_pos noRoot, bind_eq_bind, bind_some,
    if_neg grounded, isCodes]
  rfl

theorem getBalance_newStateDB (addr : Address) (tokenID : TokenId) :
    (newStateDB ∅ .empty).getBalance addr tokenID = 0 := rfl

theorem empty_sameLedger_iff {genesisBalance : GoMap Address Int}
    (ranges : genesisBalance.Iterates order)
    (opened : newDag msgp false .empty genesis order = some first) (store : Store) :
    (⟨newStateDB ∅ .empty, store, genesis, genesis⟩ : Dag).SameLedger first ↔
      ∀ addr value, genesisBalance.get? addr = some value → value = 0 := by
  obtain ⟨-, isLatest, isState, -, -, -⟩ := newDag_empty opened
  constructor
  · intro same addr value found
    have isValue := same.getBalance addr ogTokenID
    rw [Dag.getBalance, Dag.getBalance, isState, getBalance_newStateDB,
      setGenesisBalances_set ranges.nodup (ranges.mem_iff.mpr found)] at isValue
    exact isValue.symm
  · intro zero
    refine Dag.sameLedger_of_holdings isLatest.symm ?_
    rw [isState]
    have book := setGenesisBalances_book (newStateDB ∅ .empty) order
    refine ⟨fun addr tokenID => ?_, fun addr => ?_, fun tokenID => ?_, ?_⟩
    · rw [getBalance_newStateDB]
      by_cases given : tokenID = ogTokenID ∧ addr ∈ order.map Prod.fst
      · obtain ⟨rfl, member⟩ := given
        obtain ⟨⟨account, value⟩, listed, rfl⟩ := List.mem_map.mp member
        rw [setGenesisBalances_set ranges.nodup listed, zero account value (ranges.mem_iff.mp listed)]
      · rw [setGenesisBalances_other (not_and.mp given), getBalance_newStateDB]
    · rw [setGenesisBalances_nonce]
    · rw [getToken_eq, getToken_eq]
      exact congrArg (fun book : TokenBook => (book.tokens tokenID).map TokenObject.data) book.symm
    · exact congrArg TokenBook.latestTokenID book.symm

end Fresh

/-!
## Restarts
-/

theorem run_kept {msgp : Msgp64} {ovm : Ovm} {rootHash : StateTrie → Hash} {genesis : Sequencer}
    {first dag : Dag} {confirmed : List Batch} (rooted : ∀ trie, rootHash trie ≠ 0)
    (kept : first.Kept msgp genesis)
    (run : Run (Dag.Pushes msgp ovm rootHash) (Batch.Recordable msgp) first dag confirmed) :
    dag.Kept msgp genesis ∧ (dag = first ∧ confirmed = [] ∨ dag.Saved msgp ∧ confirmed ≠ []) := by
  refine Run.invariant (motive := fun dag confirmed => dag.Kept msgp genesis ∧
    (dag = first ∧ confirmed = [] ∨ dag.Saved msgp ∧ confirmed ≠ [])) ⟨kept, .inl ⟨rfl, rfl⟩⟩ ?_ run
  rintro state after outputs new batch ⟨stateKept, -⟩ recordable ⟨pushedBatch, pushed, rfl⟩
  obtain ⟨nextKept, saved⟩ := push_kept rooted stateKept recordable pushed
  exact ⟨nextKept, .inr ⟨saved, by simp⟩⟩

/-- A restart finds the ledger that was left, unless there was no push and the genesis balances are
not all zero. -/
theorem restart_sameLedger_iff {msgp : Msgp64} {ovm : Ovm} {rootHash : StateTrie → Hash}
    (rooted : ∀ trie, rootHash trie ≠ 0) {genesis : Sequencer}
    (carried : (Txi.sequencer genesis).Carried msgp.toMsgp) (decided : genesis.proposing = false)
    (noRoot : genesis.stateRoot = 0) {genesisBalance : GoMap Address Int}
    {order otherOrder : List (Address × Int)} (ranges : genesisBalance.Iterates order)
    {first dag : Dag} (opened : newDag msgp false .empty genesis order = some first)
    {confirmed : List Batch}
    (run : Run (Dag.Pushes msgp ovm rootHash) (Batch.Recordable msgp) first dag confirmed) :
    (∃ again, newDag msgp false dag.store genesis otherOrder = some again ∧ again.SameLedger dag) ↔
      confirmed ≠ [] ∨ ∀ addr value, genesisBalance.get? addr = some value → value = 0 := by
  obtain ⟨kept, ⟨rfl, rfl⟩ | ⟨saved, pushes⟩⟩ := run_kept rooted (newDag_empty_kept opened) run
  · have again := newDag_again carried decided noRoot opened genesis otherOrder
    rw [again, or_iff_right (fun pushes => pushes rfl), ← empty_sameLedger_iff ranges opened dag.store]
    constructor
    · rintro ⟨_, isAgain, same⟩
      cases isAgain
      exact same
    · intro same
      exact ⟨_, rfl, same⟩
  · exact iff_of_true (newDag_saved carried kept saved genesis otherOrder) (.inl pushes)

def Sequencer.unrooted : Sequencer :=
  ⟨⟨txBaseTypeSequencer, 100, [], 0, 0, [], [], 0, 0, 0⟩, some 0, [], [], 0, false, 0⟩

def Batch.bare : Batch :=
  ⟨⟨⟨txBaseTypeSequencer, 101, [100], 0, 1, [2], [], 0, 1, 0⟩, some 2, [], [], 0, false, 0⟩, []⟩

def Dag.unpushed : Dag :=
  (newDag .format false .empty .unrooted [(1, 100)]).get rfl

set_option maxRecDepth 4000 in
theorem restart_sameLedger_bare :
    ∃ dag confirmed, newDag .format false .empty .unrooted [(1, 100)] = some .unpushed ∧
      Run (Dag.Pushes .format .idle fun _ => 7) (Batch.Recordable .format) .unpushed dag [confirmed] ∧
      ∃ again, newDag .format false dag.store .unrooted [(1, 100)] = some again ∧
        again.SameLedger dag := by
  have short : ∀ bytes : Bytes, bytes.length < 256 → Msgp64.format.bytes.Fits bytes :=
    fun _ => Msgp64.format.bytes_fits
  have pushed : Dag.unpushed.push .format false .idle (fun _ => 7) .bare = some (_, _) := rfl
  have recordable : Batch.bare.Recordable .format .unpushed :=
    ⟨⟨⟨by decide, short _ (by decide), short _ (by decide)⟩, short _ (by decide), short _ (by decide)⟩,
      rfl, by decide⟩
  have run : Run (Dag.Pushes .format .idle fun _ => 7) (Batch.Recordable .format) .unpushed _ ([] ++ _) :=
    .next .start recordable ⟨_, pushed, rfl⟩
  have ranges : (GoMap.set ∅ 1 100 : GoMap Address Int).Iterates [(1, 100)] := rfl
  have opened : newDag .format false .empty .unrooted [(1, 100)] = some .unpushed := rfl
  refine ⟨_, _, opened, run, ?_⟩
  refine (restart_sameLedger_iff (fun _ => by decide) ?_ rfl rfl ranges opened run).mpr
    (.inl (by simp))
  exact ⟨⟨by decide, short _ (by decide), short _ (by decide)⟩, short _ (by decide),
    short _ (by decide)⟩

set_option maxRecDepth 4000 in
/-- A ledger that is restarted before its first push has lost the genesis balances. -/
theorem genesis_balance_lost :
    ∃ first again, newDag .format false .empty .unrooted [(1, 100)] = some first ∧
      newDag .format false first.store .unrooted [(1, 100)] = some again ∧
      first.getBalance 1 ogTokenID = 100 ∧ again.getBalance 1 ogTokenID = 0 ∧
      ¬ again.SameLedger first := by
  refine ⟨_, _, rfl, rfl, rfl, rfl, fun same => ?_⟩
  exact absurd (same.getBalance 1 ogTokenID) (by decide)

end AnnchainOG.Wire
