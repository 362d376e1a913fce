import AnnchainOG.State.Reads

/-!
# The token records

Which operations leave the token records and the latest token id alone.
-/

namespace AnnchainOG

open List

def JournalEntry.isToken {α γ : Type} : JournalEntry α γ → Bool
  | .createToken .. | .reIssue .. | .destroy .. => true
  | .createObject .. | .resetObject .. | .suicide .. | .balance .. | .nonce .. | .storage ..
  | .code .. | .refund .. => false

@[ext] structure TokenBook where
  tokens : TokenId → Option TokenObject
  latestTokenID : TokenId

namespace Flat

def tokenPart (flat : Flat) : TokenBook :=
  ⟨flat.tokens, flat.latestTokenID⟩

theorem undo_tokenPart (flat : Flat) {entry : Entry} (quiet : entry.isToken = false) :
    (flat.undo entry).tokenPart = flat.tokenPart := by
  cases entry with
  | createToken | reIssue | destroy => cases quiet
  | _ => rfl

theorem undoAll_tokenPart {entries : List Entry} (quiet : ∀ entry ∈ entries, entry.isToken = false)
    (flat : Flat) :
    (entries.foldl (fun flat entry => flat.undo entry) flat).tokenPart = flat.tokenPart := by
  induction entries generalizing flat with
  | nil => rfl
  | cons entry entries ih =>
    have rest := ih (fun other member => quiet other (mem_cons_of_mem _ member))
    exact (rest (flat.undo entry)).trans (undo_tokenPart flat (quiet entry mem_cons_self))

end Flat

namespace FlatDB

structure Quiet (before after : FlatDB) : Prop where
  tokenPart : after.1.tokenPart = before.1.tokenPart
  snapshotSet : after.2.snapshotSet = before.2.snapshotSet
  entries : ∃ newer, after.2.entries = newer ++ before.2.entries ∧
    ∀ entry ∈ newer, entry.isToken = false

theorem Quiet.refl (db : FlatDB) : Quiet db db := ⟨rfl, rfl, [], rfl, by simp⟩

theorem Quiet.trans {first second third : FlatDB} (left : Quiet first second)
    (right : Quiet second third) : Quiet first third := by
  obtain ⟨leftNewer, leftEntries, leftQuiet⟩ := left.entries
  obtain ⟨rightNewer, rightEntries, rightQuiet⟩ := right.entries
  refine ⟨right.tokenPart.trans left.tokenPart, right.snapshotSet.trans left.snapshotSet,
    rightNewer ++ leftNewer, by rw [rightEntries, leftEntries, append_assoc], ?_⟩
  intro entry member
  rcases mem_append.mp member with inRight | inLeft
  · exact rightQuiet entry inRight
  · exact leftQuiet entry inLeft

variable (db : FlatDB)

theorem write_quiet {entry : Entry} {flat : Flat} (quiet : entry.isToken = false)
    (same : flat.tokenPart = db.1.tokenPart) : Quiet db (db.write entry flat) :=
  ⟨same, rfl, [entry], rfl, by simpa using quiet⟩

variable (addr : Address) (tokenID : TokenId)

theorem createAccount_quiet : Quiet db (db.createAccount addr) := by
  unfold createAccount
  split <;> exact db.write_quiet rfl rfl

theorem ensure_quiet : Quiet db (db.ensure addr).2 := by
  unfold ensure
  split
  · exact .refl db
  · exact db.createAccount_quiet addr

theorem mutate_quiet {entry : Account → Entry} (change : Account → Account)
    (quiet : ∀ account, (entry account).isToken = false) : Quiet db (db.mutate addr entry change) :=
  (db.ensure_quiet addr).trans (write_quiet _ (quiet _) rfl)

theorem setBalance_quiet (balance : Int) : Quiet db (db.setBalance addr tokenID balance) :=
  db.mutate_quiet addr _ fun _ => rfl

theorem addBalance_quiet (increment : Int) : Quiet db (db.addBalance addr tokenID increment) := by
  unfold addBalance
  split
  · exact .refl db
  · exact (db.ensure_quiet addr).trans (setBalance_quiet _ addr tokenID _)

theorem subBalance_quiet (decrement : Int) : Quiet db (db.subBalance addr tokenID decrement) := by
  unfold subBalance
  split
  · exact .refl db
  · exact (db.ensure_quiet addr).trans (setBalance_quiet _ addr tokenID _)

theorem setNonce_quiet (nonce : UInt64) : Quiet db (db.setNonce addr nonce) :=
  db.mutate_quiet addr _ fun _ => rfl

theorem suicide_quiet : Quiet db (db.suicide addr).2 := by
  unfold suicide
  split
  · exact .refl db
  · exact db.write_quiet rfl rfl

theorem apply_quiet {op : Op} {answer : Answer} {after : FlatDB} (quiet : op.isToken = false)
    (notSnapshot : op ≠ .snapshot) (notRevert : ∀ position, op ≠ .revert position)
    (applied : db.apply op = .ok (answer, after)) : Quiet db after := by
  cases op with
  | issueToken | reIssueToken | destroyToken | touchToken => cases quiet
  | snapshot => exact absurd rfl notSnapshot
  | revert position => exact absurd rfl (notRevert position)
  | subRefund decrement =>
    simp only [apply] at applied
    split at applied
    · cases applied
    · cases applied
      exact db.write_quiet rfl rfl
  | createAccount addr =>
    cases applied
    exact db.createAccount_quiet addr
  | addBalance addr tokenID increment =>
    cases applied
    exact db.addBalance_quiet addr tokenID increment
  | subBalance addr tokenID decrement =>
    cases applied
    exact db.subBalance_quiet addr tokenID decrement
  | suicide addr =>
    cases applied
    exact db.suicide_quiet addr
  | setBalance addr | setNonce addr | setCode addr | setState addr =>
    cases applied
    exact db.mutate_quiet addr _ fun _ => rfl
  | addRefund =>
    cases applied
    exact db.write_quiet rfl rfl
  | touch | touchCode | touchState =>
    cases applied
    exact .refl db

/-- Since `count` entries and `base` snapshots, only entries about accounts were added. -/
structure TokensKept (part : TokenBook) (count base : Nat) (db : FlatDB) : Prop where
  tokenPart : db.1.tokenPart = part
  entries : ∃ newer older, db.2.entries = newer ++ older ∧ older.length = count ∧
    ∀ entry ∈ newer, entry.isToken = false
  shots : ∀ position shot, base ≤ position → db.2.snapshotSet[position]? = some shot →
    count ≤ shot.journalIndex

theorem tokensKept_start :
    TokensKept db.1.tokenPart db.2.entries.length db.2.snapshotSet.length db := by
  refine ⟨rfl, ⟨[], _, rfl, rfl, by simp⟩, ?_⟩
  intro position shot beyond present
  rw [getElem?_eq_none beyond] at present
  cases present

section
variable {db} {part : TokenBook} {count base : Nat} {after : FlatDB}

private theorem TokensKept.quiet (kept : TokensKept part count base db) (quiet : Quiet db after) :
    TokensKept part count base after := by
  obtain ⟨newer, older, split, length, quietNewer⟩ := kept.entries
  obtain ⟨added, appended, quietAdded⟩ := quiet.entries
  refine ⟨quiet.tokenPart.trans kept.tokenPart,
    ⟨added ++ newer, older, by rw [appended, split, append_assoc], length, ?_⟩, ?_⟩
  · intro entry member
    rcases mem_append.mp member with inAdded | inNewer
    · exact quietAdded entry inAdded
    · exact quietNewer entry inNewer
  · rw [quiet.snapshotSet]
    exact kept.shots

private theorem TokensKept.snapshot (kept : TokensKept part count base db) :
    TokensKept part count base (db.1, db.2.snapshot) := by
  refine ⟨kept.tokenPart, kept.entries, ?_⟩
  intro position shot above present
  rw [UndoLog.snapshot_snapshotSet, getElem?_append] at present
  split at present
  · exact kept.shots position shot above present
  obtain ⟨newer, older, split, length, -⟩ := kept.entries
  rw [mem_singleton.mp (mem_of_getElem? present)]
  show count ≤ db.2.entries.length
  rw [split, length_append]
  omega

private theorem TokensKept.revert (kept : TokensKept part count base db) {position : Nat}
    {shot : Shot} {undone : List Entry} {rest : UndoLog Entry} (above : base ≤ position)
    (present : db.2.snapshotSet[position]? = some shot)
    (found : db.2.revertTo shot.shotid = some (undone, rest)) :
    TokensKept part count base (undone.foldl (fun flat entry => flat.undo entry) db.1, rest) := by
  obtain ⟨_, other, again, entries, restLength, restShots, -⟩ := UndoLog.revertTo_position present
  obtain ⟨rfl, rfl⟩ : undone = _ ∧ rest = other := by simpa [found] using again
  obtain ⟨newer, older, split, length, quiet⟩ := kept.entries
  have inside := kept.shots position shot above present
  -- the entries undone are among those added
  obtain ⟨mid, isNewer, isRest⟩ : ∃ mid, newer = undone ++ mid ∧ rest.entries = mid ++ older := by
    rcases append_eq_append_iff.mp (split.symm.trans entries) with
      ⟨mid, isUndone, isOlder⟩ | ⟨mid, isNewer, isRest⟩
    · have nothing : mid = [] := by
        have lengths := congrArg List.length isOlder
        rw [length_append] at lengths
        exact eq_nil_of_length_eq_zero (by omega)
      subst nothing
      exact ⟨[], by simpa using isUndone.symm, by simpa using isOlder.symm⟩
    · exact ⟨mid, isNewer, isRest⟩
  refine ⟨?_, ⟨mid, older, isRest, length, ?_⟩, ?_⟩
  · refine (Flat.undoAll_tokenPart (fun entry member => ?_) db.1).trans kept.tokenPart
    exact quiet entry (isNewer ▸ mem_append_left _ member)
  · exact fun entry member => quiet entry (isNewer ▸ mem_append_right _ member)
  · intro earlier shot above present
    rw [restShots, getElem?_take] at present
    split at present
    · exact kept.shots earlier shot above present
    · cases present

theorem TokensKept.apply (kept : TokensKept part count base db) {op : Op} {answer : Answer}
    (quiet : op.isToken = false) (above : op.staysAbove base = true)
    (applied : db.apply op = .ok (answer, after)) : TokensKept part count base after := by
  cases op with
  | snapshot =>
    cases applied
    exact kept.snapshot
  | revert position =>
    obtain ⟨shot, undone, rest, present, found, rfl⟩ := revert_ok applied
    exact kept.revert (of_decide_eq_true above) present found
  | _ => exact kept.quiet (db.apply_quiet quiet (by simp) (by simp) applied)

end

end FlatDB

namespace StateDB

variable {sd : StateDB} {ops : List Op}

def book (sd : StateDB) : TokenBook :=
  sd.flat.tokenPart

theorem book_of_quiet {before after : StateDB} (quiet : FlatDB.Quiet before.abs after.abs) :
    after.book = before.book :=
  quiet.tokenPart

private theorem tokensKept_run {part : TokenBook} {count base : Nat} {after : StateDB}
    (quiet : ∀ op ∈ ops, op.staysAbove base = true ∧ op.isToken = false)
    (kept : FlatDB.TokensKept part count base sd.abs) (ran : sd.run ops = .ok after) :
    FlatDB.TokensKept part count base after.abs := by
  induction ops generalizing sd with
  | nil =>
    cases ran
    exact kept
  | cons op ops ih =>
    obtain ⟨answer, next, applied, rest⟩ := run_cons ran
    have simulated : sd.abs.apply op = .ok (answer, next.abs) := by
      rw [← abs_apply, applied]
      rfl
    obtain ⟨above, isQuiet⟩ := quiet op mem_cons_self
    exact ih (fun other member => quiet other (mem_cons_of_mem _ member))
      (kept.apply isQuiet above simulated) rest

theorem book_run {after : StateDB}
    (quiet : ∀ op ∈ ops, op.staysAbove sd.journal.snapshotSet.length = true ∧ op.isToken = false)
    (ran : sd.run ops = .ok after) : after.book = sd.book :=
  (tokensKept_run quiet (FlatDB.tokensKept_start sd.abs) ran).tokenPart

end StateDB

end AnnchainOG
