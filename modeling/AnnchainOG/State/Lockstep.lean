import AnnchainOG.State.Commit

/-!
# Databases that run in lockstep

Two databases are alike up to suicided flags, the back references of certain tokens, the mark of a
recorded latest token id and the names of their snapshots.
-/

namespace AnnchainOG

open List Option

theorem Account.plain_eq_iff {left right : Account} :
    left.plain = right.plain ↔ ∃ suicided, right = { left with suicided := suicided } := by
  refine ⟨fun same => ⟨right.suicided, ?_⟩, ?_⟩
  · obtain ⟨⟩ := left
    obtain ⟨⟩ := right
    simp only [plain, Account.mk.injEq, and_true] at same ⊢
    obtain ⟨rfl, rfl, rfl, rfl, rfl, rfl⟩ := same
    exact ⟨rfl, rfl, rfl, rfl, rfl, rfl⟩
  · rintro ⟨suicided, rfl⟩
    rfl

def Entry.plain : Entry → Entry
  | .resetObject account prev => .resetObject account prev.plain
  | .suicide account _ prevbalance => .suicide account false prevbalance
  | entry => entry

namespace Flat

theorem baseAccount_congr {left right : Flat}
    (codes : ∀ code, code ≠ [] → (code ∈ left.codes ↔ code ∈ right.codes))
    (trie : left.trie = right.trie) (addr : Address) :
    left.baseAccount addr = right.baseAccount addr := by
  unfold Flat.baseAccount
  rw [trie]
  refine congrArg (fun ofData => (right.trie.accounts.get? addr).map ofData) (funext fun data => ?_)
  have sameCode : (Contract.ofHash data.codeHash).getCode left.codes =
      (Contract.ofHash data.codeHash).getCode right.codes := by
    simp only [Contract.getCode, Contract.ofHash]
    cases isHash : data.codeHash with
    | zero => rfl
    | keccak code =>
      by_cases isEmpty : code = []
      · simp [isEmpty, emptyCodeHash]
      · simp only [emptyCodeHash, CodeHash.keccak.injEq, isEmpty, if_false,
          CodeStore.contractCode, codes code isEmpty]
  simp only [Account.ofData, sameCode]

/-- The empty code may be in the store of one alone. -/
structure Alike (detached : Set TokenId) (left right : Flat) : Prop where
  codes : ∀ code, code ≠ [] → (code ∈ left.codes ↔ code ∈ right.codes)
  trie : left.trie = right.trie
  accounts : ∀ addr, (left.accounts addr).map Account.plain =
    (right.accounts addr).map Account.plain
  tokens : ∀ tokenID, (left.tokens tokenID).map TokenObject.data =
    (right.tokens tokenID).map TokenObject.data
  attached : ∀ tokenID, tokenID ∉ detached → left.tokens tokenID = right.tokens tokenID
  latestTokenID : left.latestTokenID = right.latestTokenID
  latest : latestMark left.trie left.dirtyLatestTokenID =
    latestMark right.trie right.dirtyLatestTokenID
  refund : left.refund = right.refund

namespace Alike

variable {detached : Set TokenId} {left right : Flat}

theorem symm (alike : Alike detached left right) : Alike detached right left :=
  ⟨fun code nonempty => (alike.codes code nonempty).symm, alike.trie.symm, fun addr => (alike.accounts addr).symm,
    fun tokenID => (alike.tokens tokenID).symm,
    fun tokenID outside => (alike.attached tokenID outside).symm, alike.latestTokenID.symm,
    alike.latest.symm, alike.refund.symm⟩

theorem trans {third : Flat} (first : Alike detached left right)
    (second : Alike detached right third) : Alike detached left third :=
  ⟨fun code nonempty => (first.codes code nonempty).trans (second.codes code nonempty),
    first.trie.trans second.trie,
    fun addr => (first.accounts addr).trans (second.accounts addr),
    fun tokenID => (first.tokens tokenID).trans (second.tokens tokenID),
    fun tokenID outside =>
      (first.attached tokenID outside).trans (second.attached tokenID outside),
    first.latestTokenID.trans second.latestTokenID, first.latest.trans second.latest,
    first.refund.trans second.refund⟩

section

variable (alike : Alike detached left right)
include alike

variable (tokenID : TokenId) (addr : Address)

theorem setAccount {account other : Option Account} (same : account.map
    Account.plain = other.map Account.plain) :
    Alike detached (left.setAccount addr account) (right.setAccount addr other) :=
  { alike with
    accounts := by
      intro key
      by_cases isKey : key = addr
      · subst isKey
        simpa [Flat.setAccount] using same
      · simpa [Flat.setAccount, isKey] using alike.accounts key }

theorem setToken {token other : Option TokenObject} (same : token.map
    TokenObject.data = other.map TokenObject.data) (attached : tokenID ∉ detached → token = other) :
    Alike detached (left.setToken tokenID token) (right.setToken tokenID other) :=
  { alike with
    tokens := by
      intro key
      by_cases isKey : key = tokenID
      · subst isKey
        simpa [Flat.setToken] using same
      · simpa [Flat.setToken, isKey] using alike.tokens key
    attached := by
      intro key outside
      by_cases isKey : key = tokenID
      · subst isKey
        simpa [Flat.setToken] using attached outside
      · simpa [Flat.setToken, isKey] using alike.attached key outside }

theorem account_cases :
    (left.accounts addr = none ∧ right.accounts addr = none) ∨
      ∃ account suicided, left.accounts addr = some account ∧
        right.accounts addr = some { account with suicided := suicided } := by
  rcases map_eq_cases (alike.accounts addr) with absent | ⟨account, other, isLeft, isRight, same⟩
  · exact .inl absent
  obtain ⟨suicided, rfl⟩ := Account.plain_eq_iff.mp same
  exact .inr ⟨account, suicided, isLeft, isRight⟩

theorem token_cases :
    (left.tokens tokenID = none ∧ right.tokens tokenID = none) ∨
      ∃ token db, left.tokens tokenID = some token ∧
        right.tokens tokenID = some { token with db := db } ∧
        (tokenID ∉ detached → db = token.db) := by
  rcases map_eq_cases (alike.tokens tokenID) with
    absent | ⟨⟨data, db⟩, ⟨otherData, otherDb⟩, isLeft, isRight, same⟩
  · exact .inl absent
  obtain rfl : data = otherData := same
  have attached := alike.attached tokenID
  simp only [isLeft, isRight, Option.some.injEq] at attached
  exact .inr ⟨⟨data, db⟩, otherDb, isLeft, isRight, fun outside =>
    (congrArg TokenObject.db (attached outside)).symm⟩

/-! Taking entries back -/

private theorem alter {change : Account → Account} (plain : ∀ account suicided, (change {
    account with suicided := suicided }).plain = (change account).plain) :
    Alike detached (left.alter addr change) (right.alter addr change) := by
  refine alike.setAccount addr ?_
  rcases alike.account_cases addr with ⟨isLeft, isRight⟩ | ⟨account, suicided, isLeft, isRight⟩
  · rw [isLeft, isRight]
  · rw [isLeft, isRight]
    exact congrArg some (plain account suicided).symm

private theorem alterToken {change : TokenObject → TokenObject} (detaches : ∀ token
    db, change { token with db := db } = { change token with db := db }) :
    Alike detached (left.alterToken tokenID change) (right.alterToken tokenID change) := by
  rcases alike.token_cases tokenID with ⟨isLeft, isRight⟩ | ⟨token, db, isLeft, isRight, attached⟩
  · refine alike.setToken tokenID ?_ fun _ => ?_ <;> rw [isLeft, isRight]
  refine alike.setToken tokenID ?_ fun outside => ?_
  · rw [isLeft, isRight]
    exact congrArg some (congrArg TokenObject.data (detaches token db)).symm
  · rw [isLeft, isRight, map_some, map_some, attached outside]

theorem undo (entry : Entry) : Alike detached (left.undo entry) (right.undo entry) := by
  cases entry with
  | createObject addr =>
    exact alike.setAccount addr (by rw [baseAccount_congr alike.codes alike.trie addr])
  | resetObject addr prev => exact alike.setAccount addr rfl
  | suicide addr | balance addr | nonce addr | storage addr | code addr =>
    exact alike.alter addr fun _ _ => rfl
  | refund prev => exact { alike with refund := rfl }
  | createToken prevLatestTokenID tokenID =>
    have base : left.baseToken tokenID = right.baseToken tokenID := by
      simp [Flat.baseToken, alike.trie]
    have written := alike.setToken tokenID (congrArg _ base) fun _ => base
    exact { written with latestTokenID := rfl }
  | reIssue tokenID | destroy tokenID => exact alike.alterToken tokenID fun _ _ => rfl

end

private theorem undo_plain (flat : Flat) (entry : Entry) :
    Alike detached (flat.undo entry) (flat.undo entry.plain) := by
  have refl : ∀ flat : Flat, Alike detached flat flat := fun _ =>
    ⟨fun _ _ => Iff.rfl, rfl, fun _ => rfl, fun _ => rfl, fun _ _ => rfl, rfl, rfl, rfl⟩
  cases entry with
  | resetObject addr prev => exact (refl flat).setAccount addr rfl
  | suicide addr prev prevbalance =>
    refine (refl flat).setAccount addr ?_
    cases flat.accounts addr <;> rfl
  | _ => exact refl _

theorem undo_entries {undone otherUndone : List Entry} (alike : Alike detached left right)
    (same : undone.map Entry.plain = otherUndone.map Entry.plain) :
    Alike detached (undone.foldl (fun flat entry => flat.undo entry) left)
      (otherUndone.foldl (fun flat entry => flat.undo entry) right) := by
  induction undone generalizing otherUndone left right with
  | nil =>
    cases otherUndone with
    | nil => exact alike
    | cons other otherUndone => cases same
  | cons entry undone ih =>
    cases otherUndone with
    | nil => cases same
    | cons other otherUndone =>
      rw [map_cons, map_cons, List.cons.injEq] at same
      have stepped : Alike detached (left.undo entry) (right.undo other) := by
        refine (undo_plain left entry).trans ?_
        rw [same.1]
        exact (alike.undo other.plain).trans (undo_plain right other).symm
      rw [foldl_cons, foldl_cons]
      exact ih stepped same.2

end Alike

end Flat

/-- The databases are alike, log alike entries and have their snapshots at the same places. -/
structure FlatDB.Lockstep (detached : Set TokenId) (sameIds : Prop) (left right : FlatDB) :
    Prop where
  flat : left.1.Alike detached right.1
  entries : left.2.entries.map Entry.plain = right.2.entries.map Entry.plain
  shots : left.2.snapshotSet.map Shot.journalIndex = right.2.snapshotSet.map Shot.journalIndex
  ids : sameIds → left.2.snapshotID = right.2.snapshotID ∧
    left.2.snapshotSet = right.2.snapshotSet

namespace FlatDB

/-- Both operations panic alike, or both succeed, answer alike and stay in lockstep. -/
inductive Agree (detached : Set TokenId) (sameIds : Prop) :
    Except Panic (Answer × FlatDB) → Except Panic (Answer × FlatDB) → Prop where
  | panic (panic : Panic) : Agree detached sameIds (.error panic) (.error panic)
  | ok {answer otherAnswer : Answer} {left right : FlatDB}
      (answers : sameIds → answer = otherAnswer)
      (lockstep : Lockstep detached sameIds left right) :
      Agree detached sameIds (.ok (answer, left)) (.ok (otherAnswer, right))

end FlatDB

/-- The operation does not need the back reference of a detached token. -/
def Op.Spares (detached : Set TokenId) (flat : Flat) : Op → Prop
  | .reIssueToken tokenID _ => tokenID ∈ detached → ∀ token, flat.tokens tokenID = some token →
      token.data.destroyed = true ∨ token.data.reIssuable = false
  | .destroyToken tokenID => tokenID ∈ detached → flat.tokens tokenID = none
  | _ => True

namespace FlatDB.Lockstep

variable {detached : Set TokenId} {sameIds : Prop} {left right : FlatDB}

section

variable (lockstep : Lockstep detached sameIds left right)
variable {tokenID : TokenId}
include lockstep

theorem write {entry other : Entry} {leftFlat rightFlat : Flat} (sameEntry : entry.plain =
    other.plain) (alike : leftFlat.Alike detached rightFlat) :
    Lockstep detached sameIds (left.write entry leftFlat) (right.write other rightFlat) where
  flat := alike
  entries := by
    simp only [FlatDB.write, UndoLog.push_entries, map_cons, sameEntry, lockstep.entries]
  shots := lockstep.shots
  ids := lockstep.ids

variable (addr : Address)

theorem createAccount :
    Lockstep detached sameIds (left.createAccount addr) (right.createAccount addr) := by
  unfold FlatDB.createAccount
  rcases lockstep.flat.account_cases addr with
    ⟨isLeft, isRight⟩ | ⟨account, suicided, isLeft, isRight⟩
  · rw [isLeft, isRight]
    exact lockstep.write rfl (lockstep.flat.setAccount addr rfl)
  · rw [isLeft, isRight]
    exact lockstep.write rfl (lockstep.flat.setAccount addr rfl)

theorem ensure :
    (∃ suicided, (right.ensure addr).1 = { (left.ensure addr).1 with suicided := suicided }) ∧
      Lockstep detached sameIds (left.ensure addr).2 (right.ensure addr).2 := by
  unfold FlatDB.ensure
  rcases lockstep.flat.account_cases addr with
    ⟨isLeft, isRight⟩ | ⟨account, suicided, isLeft, isRight⟩
  · rw [isLeft, isRight]
    exact ⟨⟨false, rfl⟩, lockstep.createAccount addr⟩
  · rw [isLeft, isRight]
    exact ⟨⟨suicided, rfl⟩, lockstep⟩

theorem mutate {entry : Account → Entry} {change : Account → Account} (plainEntry
    : ∀ account suicided, (entry { account with suicided := suicided }).plain = (entry
    account).plain) (plainChange : ∀ account suicided, (change { account with suicided := suicided
    }).plain = (change account).plain) :
    Lockstep detached sameIds (left.mutate addr entry change) (right.mutate addr entry change) := by
  obtain ⟨⟨suicided, same⟩, ensured⟩ := lockstep.ensure addr
  simp only [FlatDB.mutate, same]
  exact ensured.write (plainEntry _ suicided).symm
    (ensured.flat.setAccount addr (congrArg some (plainChange _ suicided).symm))

theorem setBalance (tokenID : TokenId) (balance : Int) :
    Lockstep detached sameIds (left.setBalance addr tokenID balance)
      (right.setBalance addr tokenID balance) :=
  lockstep.mutate addr (fun _ _ => rfl) (fun _ _ => rfl)

theorem addBalance (tokenID : TokenId) (increment : Int) :
    Lockstep detached sameIds (left.addBalance addr tokenID increment)
      (right.addBalance addr tokenID increment) := by
  obtain ⟨⟨suicided, same⟩, ensured⟩ := lockstep.ensure addr
  unfold FlatDB.addBalance
  split
  · exact lockstep
  · simp only [same]
    exact ensured.setBalance addr tokenID _

theorem subBalance (tokenID : TokenId) (decrement : Int) :
    Lockstep detached sameIds (left.subBalance addr tokenID decrement)
      (right.subBalance addr tokenID decrement) := by
  obtain ⟨⟨suicided, same⟩, ensured⟩ := lockstep.ensure addr
  unfold FlatDB.subBalance
  split
  · exact lockstep
  · simp only [same]
    exact ensured.setBalance addr tokenID _

theorem setRefund (refund : UInt64) :
    Lockstep detached sameIds (left.setRefund refund) (right.setRefund refund) := by
  unfold FlatDB.setRefund
  rw [lockstep.flat.refund]
  exact lockstep.write rfl { lockstep.flat with refund := rfl }

theorem suicide :
    (left.suicide addr).1 = (right.suicide addr).1 ∧
      Lockstep detached sameIds (left.suicide addr).2 (right.suicide addr).2 := by
  unfold FlatDB.suicide
  rcases lockstep.flat.account_cases addr with
    ⟨isLeft, isRight⟩ | ⟨account, suicided, isLeft, isRight⟩
  · rw [isLeft, isRight]
    exact ⟨rfl, lockstep⟩
  · rw [isLeft, isRight]
    exact ⟨rfl, lockstep.write rfl (lockstep.flat.setAccount addr rfl)⟩

theorem issueToken (issuer : Address) (name symbol : Bytes) (reIssuable : Bool) (fstIssue : Int) :
    (left.issueToken issuer name symbol reIssuable fstIssue).1 =
        (right.issueToken issuer name symbol reIssuable fstIssue).1 ∧
      Lockstep detached sameIds (left.issueToken issuer name symbol reIssuable fstIssue).2
        (right.issueToken issuer name symbol reIssuable fstIssue).2 := by
  have latestTokenID := lockstep.flat.latestTokenID
  rcases lockstep.flat.token_cases (right.1.latestTokenID + 1) with
    ⟨isLeft, isRight⟩ | ⟨token, db, isLeft, isRight, -⟩
  · simp only [FlatDB.issueToken, latestTokenID, isLeft, isRight]
    refine ⟨trivial, setBalance (lockstep.write rfl ?_) issuer _ fstIssue⟩
    have written := lockstep.flat.setToken (right.1.latestTokenID + 1)
      (@rfl _ ((some (.new issuer name symbol reIssuable fstIssue)).map TokenObject.data))
      fun _ => rfl
    exact { written with
      latestTokenID := rfl
      latest := by simp [latestMark] }
  · simp only [FlatDB.issueToken, latestTokenID, isLeft, isRight]
    exact ⟨trivial, lockstep⟩

theorem reIssueToken {amount : Int} (spares : (Op.reIssueToken tokenID
    amount).Spares detached left.1) :
    Agree detached sameIds (left.apply (.reIssueToken tokenID amount))
      (right.apply (.reIssueToken tokenID amount)) := by
  simp only [FlatDB.apply, FlatDB.reIssueToken]
  rcases lockstep.flat.token_cases tokenID with
    ⟨isLeft, isRight⟩ | ⟨token, db, isLeft, isRight, attached⟩
  · rw [isLeft, isRight]
    exact .ok (fun _ => rfl) lockstep
  simp only [isLeft, isRight]
  by_cases destroyed : token.data.destroyed = true
  · simp only [destroyed, if_true]
    exact .ok (fun _ => rfl) lockstep
  by_cases fixed : token.data.reIssuable = false
  · simp only [destroyed, fixed, Bool.not_false, if_true, Bool.false_eq_true, if_false]
    exact .ok (fun _ => rfl) lockstep
  have outside : tokenID ∉ detached := fun inside =>
    (spares inside token isLeft).elim destroyed fixed
  obtain rfl := attached outside
  simp only [destroyed, fixed, Bool.false_eq_true, if_false, Bool.not_eq_eq_eq_not, Bool.not_true]
  split
  · exact .panic .nilPointer
  · refine .ok (fun _ => rfl) (addBalance (lockstep.write rfl ?_) _ tokenID amount)
    exact lockstep.flat.setToken tokenID rfl fun _ => rfl

theorem destroyToken (spares : (Op.destroyToken tokenID).Spares detached left.1) :
    Agree detached sameIds (left.apply (.destroyToken tokenID))
      (right.apply (.destroyToken tokenID)) := by
  simp only [FlatDB.apply, FlatDB.destroyToken]
  rcases lockstep.flat.token_cases tokenID with
    ⟨isLeft, isRight⟩ | ⟨token, db, isLeft, isRight, attached⟩
  · rw [isLeft, isRight]
    exact .ok (fun _ => rfl) lockstep
  have outside : tokenID ∉ detached := by
    intro inside
    rw [spares inside] at isLeft
    cases isLeft
  obtain rfl := attached outside
  simp only [isLeft, isRight]
  split
  · exact .panic .nilPointer
  · exact .ok (fun _ => rfl) (lockstep.write rfl
      (lockstep.flat.setToken tokenID rfl fun _ => rfl))

theorem snapshot : Agree detached sameIds (left.apply .snapshot) (right.apply .snapshot) := by
  have length : left.2.entries.length = right.2.entries.length := by
    simpa using congrArg List.length lockstep.entries
  refine .ok (fun same => congrArg Answer.shot (lockstep.ids same).1) ⟨lockstep.flat,
    lockstep.entries, ?_, ?_⟩
  · simp [lockstep.shots, length]
  · intro same
    simp [(lockstep.ids same).1, (lockstep.ids same).2, length]

theorem revert (position : Nat) :
    Agree detached sameIds (left.apply (.revert position)) (right.apply (.revert position)) := by
  have sameShot := congrArg (fun indices => indices[position]?) lockstep.shots
  simp only [getElem?_map] at sameShot
  simp only [FlatDB.apply]
  cases present : left.2.snapshotSet[position]? with
  | none =>
    rw [present, map_none, eq_comm, map_eq_none_iff] at sameShot
    rw [sameShot]
    exact .panic .snapshotNotFound
  | some shot =>
    rw [present, map_some, eq_comm, map_eq_some_iff] at sameShot
    obtain ⟨other, otherPresent, sameIndex⟩ := sameShot
    obtain ⟨undone, rest, found, entries, length, shots, sameID⟩ :=
      UndoLog.revertTo_position present
    obtain ⟨otherUndone, otherRest, otherFound, otherEntries, otherLength, otherShots,
      otherSameID⟩ := UndoLog.revertTo_position otherPresent
    have joined := lockstep.entries
    rw [entries, otherEntries, map_append, map_append] at joined
    obtain ⟨sameUndone, sameRest⟩ := append_inj' joined (by simp [length, otherLength, sameIndex])
    simp only [otherPresent, FlatDB.revertToSnapshot, found, otherFound, Except.map]
    refine .ok (fun _ => rfl) ⟨lockstep.flat.undo_entries sameUndone, sameRest, ?_, ?_⟩
    · simp only [shots, otherShots, map_take, lockstep.shots]
    · intro same
      obtain ⟨ids, sets⟩ := lockstep.ids same
      simp only [sameID, otherSameID, ids, shots, otherShots, sets, and_self]

theorem apply {op : Op} (spares : op.Spares detached left.1) :
    Agree detached sameIds (left.apply op) (right.apply op) := by
  cases op with
  | createAccount addr => exact .ok (fun _ => rfl) (lockstep.createAccount addr)
  | setBalance addr tokenID balance =>
    exact .ok (fun _ => rfl) (lockstep.setBalance addr tokenID balance)
  | addBalance addr tokenID increment =>
    exact .ok (fun _ => rfl) (lockstep.addBalance addr tokenID increment)
  | subBalance addr tokenID decrement =>
    exact .ok (fun _ => rfl) (lockstep.subBalance addr tokenID decrement)
  | setNonce addr | setCode addr | setState addr =>
    exact .ok (fun _ => rfl) (lockstep.mutate addr (fun _ _ => rfl) (fun _ _ => rfl))
  | suicide addr =>
    obtain ⟨answers, after⟩ := lockstep.suicide addr
    exact .ok (fun _ => congrArg Answer.existed answers) after
  | addRefund increment =>
    have refunded := lockstep.setRefund (right.1.refund + increment)
    simp only [FlatDB.apply, lockstep.flat.refund]
    exact .ok (fun _ => rfl) refunded
  | subRefund decrement =>
    have refunded := lockstep.setRefund (right.1.refund - decrement)
    simp only [FlatDB.apply, lockstep.flat.refund]
    split
    · exact .panic .refundBelowZero
    · exact .ok (fun _ => rfl) refunded
  | issueToken issuer name symbol reIssuable fstIssue =>
    obtain ⟨answers, after⟩ := lockstep.issueToken issuer name symbol reIssuable fstIssue
    exact .ok (fun _ => congrArg Answer.issued answers) after
  | reIssueToken tokenID amount => exact lockstep.reIssueToken spares
  | destroyToken tokenID => exact lockstep.destroyToken spares
  | snapshot => exact lockstep.snapshot
  | revert position => exact lockstep.revert position
  | touch | touchCode | touchState | touchToken => exact .ok (fun _ => rfl) lockstep

end

end FlatDB.Lockstep

end AnnchainOG
