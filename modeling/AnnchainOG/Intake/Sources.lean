import AnnchainOG.Lib.Runs
import AnnchainOG.Wire.Records

/-!
# The sources of sequencers

The cache forgets its oldest sequencers, by a log that also has the repeated ones.
-/

namespace AnnchainOG.Wire

open GoMap List

structure SequencerCache where
  proposal : GoMap Hash (List String)
  hashes : List Hash
  size : Nat

namespace SequencerCache

def newSequencerCache (size : Nat) : SequencerCache := ⟨∅, [], size⟩

def evict (p : SequencerCache) : Except Panic SequencerCache :=
  let num := p.proposal.size - p.size
  if p.hashes.length < num then .error .sliceBounds
  else .ok { p with
    proposal := (p.hashes.take num).foldl GoMap.delete p.proposal
    hashes := p.hashes.drop num }

def add (p : SequencerCache) (seqHash : Hash) (peerId : String) : Except Panic SequencerCache := do
  let p ← if !p.proposal.contains seqHash && p.size < p.proposal.size then p.evict else pure p
  return { p with
    proposal := p.proposal.append seqHash peerId
    hashes := p.hashes ++ [seqHash] }

def getPeer (p : SequencerCache) (seqHash : Hash) : String :=
  (p.proposal.list seqHash).headD ""

end SequencerCache

/-- With the sequencers that were newly added, the last one first, and the peers that reported
them. -/
structure Sources where
  cache : SequencerCache
  added : List (Hash × String)

namespace Sources

def ofNew (size : Nat) : Sources := ⟨.newSequencerCache size, []⟩

def add (w : Sources) (report : Hash × String) : Except Panic Sources := do
  let cache ← w.cache.add report.1 report.2
  return ⟨cache, if w.cache.proposal.contains report.1 then w.added
    else report :: w.added.filter (·.1 != report.1)⟩

/-- The cache has the last sequencers, each with its first peer, and not many more. -/
structure Good (w : Sources) : Prop where
  bounded : w.cache.proposal.size ≤ w.cache.size + 1
  recent : ∀ report ∈ w.added.take w.cache.size,
    ∃ others, w.cache.proposal.get? report.1 = some (report.2 :: others)

/-- If one has to go, then the oldest of the log is in the cache, and others were added since. -/
def Timely (w : Sources) (report : Hash × String) : Prop :=
  w.cache.proposal.contains report.1 = false → w.cache.size < w.cache.proposal.size →
    ∀ old ∈ w.cache.hashes.head?, w.cache.proposal.contains old = true ∧
      ∀ other ∈ w.added.take (w.cache.size - 1), other.1 ≠ old

instance (w : Sources) (report : Hash × String) : Decidable (w.Timely report) :=
  inferInstanceAs (Decidable (_ → _))

variable {w : Sources} {report : Hash × String} {base : GoMap Hash (List String)}
  {hashes : List Hash}

def Logged (base : GoMap Hash (List String)) (hashes : List Hash) : Prop :=
  ∀ hash peers, base.get? hash = some peers → hash ∈ hashes

theorem Logged.append (logged : Logged base hashes) (report : Hash × String) :
    Logged (base.append report.1 report.2) (hashes ++ [report.1]) := by
  intro hash peers found
  rw [GoMap.append, get?_set] at found
  split at found
  · simp [*]
  · exact mem_append_left _ (logged hash peers found)

theorem take_filter {α : Type} {test : α → Bool} {count : Nat} {items : List α}
    (passes : ∀ item ∈ items.take count, test item = true) :
    (items.filter test).take count = items.take count := by
  induction items generalizing count with
  | nil => rfl
  | cons item rest ih =>
    cases count with
    | zero => rfl
    | succ count =>
      rw [take_succ_cons, forall_mem_cons] at passes
      rw [filter_cons_of_pos passes.1, take_succ_cons, take_succ_cons, ih passes.2]

theorem good_append (good : w.Good) (isNew : w.cache.proposal.get? report.1 = none)
    (absent : base.get? report.1 = none) :
    Good ⟨⟨base.append report.1 report.2, hashes, w.cache.size⟩,
        report :: w.added.filter (·.1 != report.1)⟩ ↔
      base.size ≤ w.cache.size ∧ ∀ other ∈ w.added.take (w.cache.size - 1),
        ∃ others, base.get? other.1 = some (other.2 :: others) := by
  have apart : ∀ other ∈ w.added.take (w.cache.size - 1), other.1 ≠ report.1 := by
    intro other member same
    obtain ⟨_, found⟩ := good.recent other (take_subset_take_left _ (by omega) member)
    rw [same, isNew] at found
    cases found
  have oneMore : (base.append report.1 report.2).size = base.size + 1 := size_set_of_absent _ absent
  have recent : (∀ other ∈ (report :: w.added.filter (·.1 != report.1)).take w.cache.size,
      ∃ others, (base.append report.1 report.2).get? other.1 = some (other.2 :: others)) ↔
      ∀ other ∈ w.added.take (w.cache.size - 1),
        ∃ others, base.get? other.1 = some (other.2 :: others) := by
    have sameTake := take_filter fun other member => bne_iff_ne.mpr (apart other member)
    cases isSize : w.cache.size with
    | zero => simp
    | succ size =>
      rw [isSize, Nat.add_sub_cancel] at apart sameTake
      rw [take_succ_cons, forall_mem_cons, sameTake, Nat.add_sub_cancel,
        and_iff_right (by simp [GoMap.append, GoMap.list, absent])]
      refine forall₂_congr fun other member => ?_
      rw [GoMap.append, get?_set_of_ne _ _ (apart other member)]
  constructor
  · intro after
    exact ⟨Nat.le_of_succ_le_succ (oneMore.symm.trans_le after.bounded), recent.mp after.recent⟩
  · intro fits
    exact ⟨oneMore.trans_le (Nat.succ_le_succ fits.1), recent.mpr fits.2⟩

theorem good_repeated (good : w.Good) (isHeld : w.cache.proposal.contains report.1 = true) :
    Good ⟨⟨w.cache.proposal.append report.1 report.2, hashes, w.cache.size⟩, w.added⟩ := by
  refine ⟨(size_set_of_present _ isHeld).trans_le good.bounded, fun other member => ?_⟩
  obtain ⟨others, found⟩ := good.recent other member
  by_cases same : other.1 = report.1
  · rw [same] at found
    exact ⟨others ++ [report.2], by simp [GoMap.append, GoMap.list, same, found]⟩
  · exact ⟨others, by simp [GoMap.append, get?_set_of_ne, same, found]⟩

theorem fits_delete_iff {old : Hash} (good : w.Good)
    (full : w.cache.proposal.size = w.cache.size + 1) :
    ((w.cache.proposal.delete old).size ≤ w.cache.size ∧ ∀ other ∈ w.added.take (w.cache.size - 1),
          ∃ others, (w.cache.proposal.delete old).get? other.1 = some (other.2 :: others)) ↔
      w.cache.proposal.contains old = true ∧
        ∀ other ∈ w.added.take (w.cache.size - 1), other.1 ≠ old := by
  refine and_congr ?_ (forall₂_congr fun other member => ?_)
  · cases oldHeld : w.cache.proposal.contains old with
    | true =>
      have oneLess := size_delete oldHeld
      exact iff_of_true (by omega) rfl
    | false =>
      rw [delete_of_absent (get?_eq_none (Bool.eq_false_iff.mp oldHeld))]
      exact iff_of_false (by omega) nofun
  · have found := good.recent other (take_subset_take_left _ (by omega) member)
    by_cases same : other.1 = old <;> simp [get?_delete, same, found]

theorem add_spec (good : w.Good) (logged : Logged w.cache.proposal w.cache.hashes)
    (report : Hash × String) :
    ∃ after, w.add report = .ok after ∧ Logged after.cache.proposal after.cache.hashes ∧
      (after.Good ↔ w.Timely report) := by
  cases isHeld : w.cache.proposal.contains report.1 with
  | true =>
    refine ⟨_, by simp [add, SequencerCache.add, isHeld]; rfl, logged.append report, ?_⟩
    exact iff_of_true (good_repeated good isHeld) fun absent => clash absent isHeld
  | false =>
    have absent := get?_eq_none (Bool.eq_false_iff.mp isHeld)
    by_cases full : w.cache.size < w.cache.proposal.size
    · have isFull : w.cache.proposal.size = w.cache.size + 1 := Nat.le_antisymm good.bounded full
      obtain ⟨entry, isEntry⟩ := Multiset.card_pos_iff_exists_mem.mp (Nat.zero_lt_of_lt full)
      have isLogged := logged entry.1 entry.2 (get?_eq_some_iff.mpr isEntry)
      obtain ⟨old, rest, isLog⟩ := exists_cons_of_ne_nil (ne_nil_of_mem isLogged)
      have left : Logged (w.cache.proposal.delete old) rest := by
        intro hash peers found
        rw [get?_delete] at found
        split at found
        · cases found
        · have inLog := logged hash peers found
          rwa [isLog, mem_cons, or_iff_right (by assumption)] at inLog
      refine ⟨_, by simp [add, SequencerCache.add, SequencerCache.evict, isHeld, isFull, isLog],
        left.append report, (good_append good absent ?_).trans ?_⟩
      · simp [get?_delete, absent]
      · rw [fits_delete_iff good isFull]
        simp [Timely, isHeld, full, isLog]
    · refine ⟨_, by simp [add, SequencerCache.add, isHeld, full]; rfl, logged.append report, ?_⟩
      refine iff_of_true ((good_append good absent absent).mpr ⟨not_lt.mp full, ?_⟩) ?_
      · exact fun other member =>
          good.recent other (take_subset_take_left _ (by omega) member)
      · exact fun _ isFull => absurd isFull full

/-- While reports are timely, none fails and the cache has at most one sequencer too many. -/
theorem sources_kept {size : Nat} (reached : Reach add Timely (ofNew size) w) :
    w.cache.proposal.size ≤ w.cache.size + 1 ∧
      (∀ report ∈ w.added.take w.cache.size, w.cache.getPeer report.1 = report.2) ∧
      ∀ report, ∃ after, w.add report = .ok after ∧ (after.Good ↔ w.Timely report) := by
  have kept : w.Good ∧ Logged w.cache.proposal w.cache.hashes := by
    refine Reach.invariant (motive := fun w => w.Good ∧ Logged w.cache.proposal w.cache.hashes) ?_
      ?_ reached
    · exact ⟨⟨Nat.zero_le _, by simp [ofNew]⟩, nofun⟩
    · intro state after report kept isTimely acted
      obtain ⟨_, isNext, logged, good⟩ := add_spec kept.1 kept.2 report
      cases isNext.symm.trans acted
      exact ⟨good.mpr isTimely, logged⟩
  refine ⟨kept.1.bounded, fun report member => ?_, fun report => ?_⟩
  · obtain ⟨others, found⟩ := kept.1.recent report member
    simp [SequencerCache.getPeer, GoMap.list, found]
  · obtain ⟨after, isNext, -, good⟩ := add_spec kept.1 kept.2 report
    exact ⟨after, isNext, good⟩

theorem sources_kept_two :
    ∃ w, Reach add Timely (ofNew 1) w ∧ w.added.map Prod.fst = [2, 1] ∧
      w.cache.proposal.size ≤ w.cache.size + 1 := by
  have isReplayed : (replay add (fun w report => decide (w.Timely report)) (ofNew 1)
      [(1, "a"), (2, "a"), (2, "b")]).map (·.added.map Prod.fst) = some [2, 1] := by
    decide +kernel
  obtain ⟨w, replayed, isAdded⟩ := Option.map_eq_some_iff.mp isReplayed
  have reached := Reach.of_replay replayed
  exact ⟨w, reached, isAdded, (sources_kept reached).1⟩

/-- A repeated report leaves an entry in the log that later removes nothing. -/
theorem repeated_report_overfills :
    ∃ w, Reach add (fun _ _ => True) (ofNew 1) w ∧ w.cache.size = 1 ∧
      w.cache.proposal.size = 3 := by
  have isReplayed : (replay add (fun _ _ => decide True) (ofNew 1)
      [(1, "a"), (1, "b"), (2, "a"), (3, "a"), (4, "a")]).map
        (fun w => (w.cache.size, w.cache.proposal.size)) = some (1, 3) := by
    decide +kernel
  obtain ⟨w, replayed, sizes⟩ := Option.map_eq_some_iff.mp isReplayed
  exact ⟨w, Reach.of_replay replayed, Prod.mk.inj sizes⟩

end Sources

end AnnchainOG.Wire
