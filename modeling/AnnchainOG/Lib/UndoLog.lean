import Mathlib.Data.List.Basic
import Mathlib.Data.Set.Basic
import Mathlib.Logic.Relation

/-!
# Undo logs with named snapshots

Rolling back to a snapshot undoes the entries above it and forgets it. Taking an entry back may
leave a scar at a key, which an older entry heals by replacing what the key holds.
-/

structure Shot where
  shotid : Nat
  journalIndex : Nat
  deriving DecidableEq

@[ext] structure UndoLog (ε : Type) where
  entries : List ε
  snapshotSet : List Shot
  snapshotID : Nat
  ordered : snapshotSet.Pairwise fun older newer =>
    older.shotid < newer.shotid ∧ older.journalIndex ≤ newer.journalIndex
  bounded : ∀ shot ∈ snapshotSet,
    shot.shotid < snapshotID ∧ shot.journalIndex ≤ entries.length

namespace UndoLog

open List

variable {ε : Type}
variable (log : UndoLog ε) {shot : Shot}

def empty : UndoLog ε where
  entries := []
  snapshotSet := []
  snapshotID := 0
  ordered := .nil
  bounded := by simp

def push (entry : ε) : UndoLog ε where
  entries := entry :: log.entries
  snapshotSet := log.snapshotSet
  snapshotID := log.snapshotID
  ordered := log.ordered
  bounded shot member :=
    ⟨(log.bounded shot member).1, Nat.le_succ_of_le (log.bounded shot member).2⟩

def snapshot : UndoLog ε where
  entries := log.entries
  snapshotSet := log.snapshotSet ++ [⟨log.snapshotID, log.entries.length⟩]
  snapshotID := log.snapshotID + 1
  ordered := by
    refine List.pairwise_append.mpr ⟨log.ordered, List.pairwise_singleton _ _, ?_⟩
    intro older member newer isNew
    obtain rfl := List.mem_singleton.mp isNew
    exact log.bounded older member
  bounded := by
    intro shot member
    rcases List.mem_append.mp member with old | new
    · exact ⟨Nat.lt_succ_of_lt (log.bounded shot old).1, (log.bounded shot old).2⟩
    · obtain rfl := List.mem_singleton.mp new
      exact ⟨Nat.lt_succ_self _, Nat.le_refl _⟩

def findShot (id : Nat) : Option Shot :=
  log.snapshotSet.find? fun shot => shot.shotid == id

variable {log} in
theorem findShot_spec {id : Nat} (found : log.findShot id = some shot) :
    shot.shotid = id ∧ ∃ older newer, log.snapshotSet = older ++ shot :: newer ∧
      log.snapshotSet.takeWhile (fun shot => shot.shotid != id) = older := by
  obtain ⟨same, older, newer, split, different⟩ := find?_eq_some_iff_append.mp found
  have isId : shot.shotid = id := by simpa using same
  refine ⟨isId, older, newer, split, ?_⟩
  rw [split, takeWhile_append_of_pos (by simpa using different)]
  simp [isId]

def since (index : Nat) : List ε :=
  log.entries.take (log.entries.length - index)

def cutEntries (index : Nat) : List ε :=
  log.entries.drop (log.entries.length - index)

theorem since_append_cutEntries (index : Nat) :
    log.since index ++ log.cutEntries index = log.entries :=
  take_append_drop _ _

variable {log} in
theorem length_cutEntries {index : Nat}
    (bound : index ≤ log.entries.length) : (log.cutEntries index).length = index := by
  rw [cutEntries, length_drop]
  omega

/-- Rolling back drops the entries above the snapshot and every snapshot from it on. -/
def cut (id : Nat) (shot : Shot) (found : log.findShot id = some shot) : UndoLog ε where
  entries := log.cutEntries shot.journalIndex
  snapshotSet := log.snapshotSet.takeWhile fun shot => shot.shotid != id
  snapshotID := log.snapshotID
  ordered := log.ordered.sublist (List.takeWhile_sublist _)
  bounded := by
    obtain ⟨-, older, newer, split, taken⟩ := findShot_spec found
    intro earlier member
    rw [taken] at member
    have whole : earlier ∈ log.snapshotSet := split ▸ List.mem_append_left _ member
    have before := (List.pairwise_append.mp (split ▸ log.ordered)).2.2 earlier member shot
      List.mem_cons_self
    have inside := (log.bounded shot (split ▸ by simp)).2
    rw [length_cutEntries inside]
    exact ⟨(log.bounded earlier whole).1, before.2⟩

def revertTo (id : Nat) : Option (List ε × UndoLog ε) :=
  match found : log.findShot id with
  | none => none
  | some shot => some (log.since shot.journalIndex, log.cut id shot found)

@[simp] theorem push_entries (entry : ε) : (log.push entry).entries = entry :: log.entries := rfl

@[simp] theorem push_snapshotSet (entry : ε) : (log.push entry).snapshotSet = log.snapshotSet := rfl

@[simp] theorem push_snapshotID (entry : ε) : (log.push entry).snapshotID = log.snapshotID := rfl

@[simp] theorem snapshot_entries : log.snapshot.entries = log.entries := rfl

@[simp] theorem snapshot_snapshotID : log.snapshot.snapshotID = log.snapshotID + 1 := rfl

@[simp] theorem snapshot_snapshotSet :
    log.snapshot.snapshotSet = log.snapshotSet ++ [⟨log.snapshotID, log.entries.length⟩] := rfl

variable {log}

theorem revertTo_spec {rest : UndoLog ε} {id : Nat} {undone : List ε}
    (found : log.revertTo id = some (undone, rest)) :
    ∃ shot newer, log.snapshotSet = rest.snapshotSet ++ shot :: newer ∧
      shot.shotid = id ∧ rest.entries.length = shot.journalIndex ∧
      log.entries = undone ++ rest.entries ∧ rest.snapshotID = log.snapshotID := by
  unfold revertTo at found
  split at found
  · cases found
  rename_i shot present
  cases found
  obtain ⟨isId, older, newer, split, taken⟩ := findShot_spec present
  refine ⟨shot, newer, ?_, isId, ?_, (log.since_append_cutEntries _).symm, rfl⟩
  · simpa only [cut, taken] using split
  · exact length_cutEntries (log.bounded shot (split ▸ by simp)).2

theorem revertTo_of_mem (member : shot ∈ log.snapshotSet) :
    ∃ undone rest, log.revertTo shot.shotid = some (undone, rest) := by
  unfold revertTo
  split
  next missing =>
    have absent := find?_eq_none.mp missing shot member
    simp at absent
  · exact ⟨_, _, rfl⟩

theorem revertTo_position {position : Nat} (present : log.snapshotSet[position]? = some shot) :
    ∃ undone rest, log.revertTo shot.shotid = some (undone, rest) ∧
      log.entries = undone ++ rest.entries ∧ rest.entries.length = shot.journalIndex ∧
      rest.snapshotSet = log.snapshotSet.take position ∧ rest.snapshotID = log.snapshotID := by
  obtain ⟨undone, rest, found⟩ := revertTo_of_mem (mem_of_getElem? present)
  obtain ⟨other, newer, shots, isId, length, entries, sameID⟩ := revertTo_spec found
  have atRest : log.snapshotSet[rest.snapshotSet.length]? = some other := by simp [shots]
  obtain ⟨inside, isShot⟩ := List.getElem?_eq_some_iff.mp present
  obtain ⟨restInside, isOther⟩ := List.getElem?_eq_some_iff.mp atRest
  -- Ids increase along the list, so equal ids are at equal positions.
  have ordered := pairwise_iff_getElem.mp log.ordered
  have samePosition : rest.snapshotSet.length = position := by
    rcases Nat.lt_trichotomy rest.snapshotSet.length position with before | same | after
    · have increasing := (ordered _ _ restInside inside before).1
      rw [isOther, isShot, isId] at increasing
      exact absurd increasing (Nat.lt_irrefl _)
    · exact same
    · have increasing := (ordered _ _ inside restInside after).1
      rw [isOther, isShot, isId] at increasing
      exact absurd increasing (Nat.lt_irrefl _)
  obtain rfl : shot = other := by
    rw [samePosition, present] at atRest
    exact Option.some.inj atRest
  refine ⟨undone, rest, found, entries, length, ?_, sameID⟩
  rw [shots, ← samePosition, take_left]

def map {δ : Type} (f : ε → δ) (log : UndoLog ε) : UndoLog δ where
  entries := log.entries.map f
  snapshotSet := log.snapshotSet
  snapshotID := log.snapshotID
  ordered := log.ordered
  bounded := by simpa using log.bounded

section Map

variable {δ : Type} (f : ε → δ) (log : UndoLog ε)

@[simp] theorem map_entries : (log.map f).entries = log.entries.map f := rfl

@[simp] theorem map_snapshotSet : (log.map f).snapshotSet = log.snapshotSet := rfl

@[simp] theorem map_snapshotID : (log.map f).snapshotID = log.snapshotID := rfl

@[simp] theorem map_empty : (empty : UndoLog ε).map f = empty := rfl

theorem map_snapshot : log.snapshot.map f = (log.map f).snapshot := by
  ext1 <;> simp

theorem revertTo_map (id : Nat) :
    (log.map f).revertTo id =
      (log.revertTo id).map fun result => (result.1.map f, result.2.map f) := by
  have sameShot : (log.map f).findShot id = log.findShot id := rfl
  unfold revertTo
  split
  next missing =>
    rw [sameShot] at missing
    split
    · rfl
    rename_i shot present
    rw [missing] at present
    cases present
  next shot present =>
    rw [sameShot] at present
    split
    next missing =>
      rw [missing] at present
      cases present
    rename_i other again
    rw [present] at again
    cases again
    simp only [Option.map_some, Option.some.injEq, Prod.mk.injEq]
    refine ⟨by simp [since, map_take], ?_⟩
    ext1
    · simp [cut, cutEntries, map_drop]
    · rfl
    · rfl

end Map

end UndoLog

section Scars

variable {ε κ : Type} [DecidableEq κ]

/-- Each scar an entry leaves is healed by an older entry of the segment. -/
def healsScars (scar heals : ε → Option κ) : List ε → Bool
  | [] => true
  | entry :: older =>
    ((scar entry).all fun key => older.any fun healing => heals healing = some key) &&
      healsScars scar heals older

variable {scar heals : ε → Option κ}

theorem healsScars_cons {entry : ε} {older : List ε} :
    healsScars scar heals (entry :: older) = true ↔
      (∀ key, scar entry = some key → ∃ healing ∈ older, heals healing = some key) ∧
        healsScars scar heals older = true := by
  simp only [healsScars, Bool.and_eq_true, Option.all_eq_true, List.any_eq_true, decide_eq_true_eq]

theorem healsScars_append {newer older : List ε} (cleanNewer : healsScars scar heals newer = true)
    (cleanOlder : healsScars scar heals older = true) :
    healsScars scar heals (newer ++ older) = true := by
  induction newer with
  | nil => exact cleanOlder
  | cons entry newer ih =>
    obtain ⟨healed, rest⟩ := healsScars_cons.mp cleanNewer
    refine healsScars_cons.mpr ⟨?_, ih rest⟩
    intro key scarred
    obtain ⟨healing, member, heals⟩ := healed key scarred
    exact ⟨healing, List.mem_append_left _ member, heals⟩

theorem healsScars_of_no_scar (unscarred : ∀ entry, scar entry = none) (entries : List ε) :
    healsScars scar heals entries = true := by
  induction entries with
  | nil => rfl
  | cons entry entries ih => exact healsScars_cons.mpr ⟨by simp [unscarred], ih⟩

theorem healsScars_map {δ : Type} (f : δ → ε) (entries : List δ) :
    healsScars scar heals (entries.map f) = healsScars (scar ∘ f) (heals ∘ f) entries := by
  induction entries with
  | nil => rfl
  | cons entry entries ih =>
    simp only [List.map_cons, healsScars, ih, List.any_map, Function.comp_def]

end Scars

/-- States are compared by what they hold at a set of keys. -/
structure RollbackSystem (σ ε κ : Type) where
  change : σ → ε → σ → Prop
  undo : ε → σ → σ
  sameOff : Set κ → σ → σ → Prop
  scar : ε → Option κ
  heals : ε → Option κ
  equivalence : ∀ keys, Equivalence (sameOff keys)
  mono : ∀ {fewer more left right}, fewer ⊆ more → sameOff fewer left right →
    sameOff more left right
  undo_same : ∀ {keys entry left right}, sameOff keys left right →
    sameOff {key ∈ keys | heals entry ≠ some key} (undo entry left) (undo entry right)
  undo_change : ∀ {before entry after}, change before entry after →
    sameOff {key | scar entry = some key} (undo entry after) before

namespace RollbackSystem

open List

variable {σ ε κ : Type} (system : RollbackSystem σ ε κ)
variable {saved state before after : σ} {origin rest : UndoLog ε} {good : σ → List ε → Prop}
  {entry : ε} {undone : List ε} {now next : σ × UndoLog ε}

def same (left right : σ) : Prop :=
  system.sameOff ∅ left right

def rewind (entries : List ε) (state : σ) : σ :=
  entries.foldl (fun state entry => system.undo entry state) state

theorem rewind_append (newer older : List ε) (state : σ) :
    system.rewind (newer ++ older) state = system.rewind older (system.rewind newer state) :=
  foldl_append

theorem rewind_same {entries : List ε} {keys : Set κ} {left right : σ}
    (same : system.sameOff keys left right)
    (healed : ∀ key ∈ keys, ∃ healing ∈ entries, system.heals healing = some key) :
    system.same (system.rewind entries left) (system.rewind entries right) := by
  induction entries generalizing keys left right with
  | nil =>
    refine system.mono ?_ same
    intro key member
    obtain ⟨healing, absent, -⟩ := healed key member
    cases absent
  | cons entry entries ih =>
    refine ih (system.undo_same same) ?_
    rintro key ⟨member, unhealed⟩
    obtain ⟨healing, inside, heals⟩ := healed key member
    rcases mem_cons.mp inside with rfl | older
    · exact absurd heals unhealed
    · exact ⟨healing, older, heals⟩

variable [DecidableEq κ]

def clean (entries : List ε) : Prop :=
  healsScars system.scar system.heals entries = true

variable {older : List ε} {log : UndoLog ε}

theorem clean_append {newer : List ε} (cleanNewer : system.clean newer)
    (cleanOlder : system.clean older) : system.clean (newer ++ older) :=
  healsScars_append cleanNewer cleanOlder

theorem clean_of_no_scar (unscarred : ∀ entry, system.scar entry = none) (entries : List ε) :
    system.clean entries :=
  healsScars_of_no_scar unscarred entries

private theorem rewind_change (changed : system.change before entry after)
    (clean : system.clean (entry :: older)) :
    system.same (system.rewind (entry :: older) after) (system.rewind older before) :=
  system.rewind_same (system.undo_change changed) (healsScars_cons.mp clean).1

/-- One step of a component with a log: a logged change, a snapshot, or the
rollback of a clean segment. -/
inductive Step : σ × UndoLog ε → σ × UndoLog ε → Prop where
  | change {before after : σ} {entry : ε} {log : UndoLog ε}
      (changed : system.change before entry after) :
      Step (before, log) (after, log.push entry)
  | snapshot {state : σ} {log : UndoLog ε} : Step (state, log) (state, log.snapshot)
  | revert {state : σ} {log rest : UndoLog ε} {id : Nat} {undone : List ε}
      (found : log.revertTo id = some (undone, rest)) (clean : system.clean undone) :
      Step (state, log) (system.rewind undone state, rest)

def Run : σ × UndoLog ε → σ × UndoLog ε → Prop :=
  Relation.ReflTransGen system.Step

/-- The snapshot taken at `saved` is still live, and undoing what lies above it
leads back to `saved`. -/
def Holds (saved : σ) (origin : UndoLog ε) (now : σ × UndoLog ε) : Prop :=
  ∃ newer above,
    now.2.snapshotSet =
      origin.snapshotSet ++ ⟨origin.snapshotID, origin.entries.length⟩ :: newer ∧
    now.2.entries = above ++ origin.entries ∧
    (system.clean above → system.same (system.rewind above now.1) saved)

/-- Either the snapshot taken at `saved` holds or no live snapshot carries its id. -/
def Kept (saved : σ) (origin : UndoLog ε) (now : σ × UndoLog ε) : Prop :=
  origin.snapshotID < now.2.snapshotID ∧
    (system.Holds saved origin now ∨
      ∀ shot ∈ now.2.snapshotSet, shot.shotid ≠ origin.snapshotID)

theorem kept_snapshot (state : σ) (log : UndoLog ε) : system.Kept state log (state, log.snapshot) :=
  ⟨Nat.lt_succ_self _, .inl ⟨[], [], by simp, by simp,
    fun _ => (system.equivalence ∅).refl state⟩⟩

private theorem kept_change (changed : system.change before entry after)
    (kept : system.Kept saved origin (before, log)) :
    system.Kept saved origin (after, log.push entry) := by
  refine ⟨kept.1, kept.2.imp ?_ (by simpa using ·)⟩
  rintro ⟨newer, above, shots, entries, restored⟩
  refine ⟨newer, entry :: above, by simpa using shots, by simpa using entries, ?_⟩
  intro clean
  exact (system.equivalence ∅).trans (system.rewind_change changed clean)
    (restored (healsScars_cons.mp clean).2)

private theorem kept_again (kept : system.Kept saved origin (state, log)) :
    system.Kept saved origin (state, log.snapshot) := by
  refine ⟨Nat.lt_succ_of_lt kept.1, kept.2.imp ?_ ?_⟩
  · rintro ⟨newer, above, shots, entries, restored⟩
    exact ⟨newer ++ [⟨log.snapshotID, log.entries.length⟩], above, by
      simpa using congrArg (· ++ [_]) shots, entries, restored⟩
  · intro absent shot member
    simp only [UndoLog.snapshot_snapshotSet, mem_append, mem_singleton] at member
    rcases member with old | rfl
    · exact absent shot old
    · exact Nat.ne_of_gt kept.1

private theorem split_at_cut {older rest : List Shot} {marked shot : Shot}
    {newer dropped : List Shot} (same : rest ++ shot :: dropped = older ++ marked :: newer) :
    (∃ between, rest = older ++ marked :: between) ∨ ∃ between, older = rest ++ between := by
  rcases append_eq_append_iff.mp same with ⟨between, inOlder, -⟩ | ⟨between, inRest, tail⟩
  · exact .inr ⟨between, inOlder⟩
  cases between with
  | nil => exact .inr ⟨[], by simpa using inRest.symm⟩
  | cons head between =>
    obtain ⟨rfl, -⟩ := tail
    exact .inl ⟨between, inRest⟩

private theorem kept_revert {id : Nat} (found : log.revertTo id = some (undone, rest))
    (clean : system.clean undone) (kept : system.Kept saved origin (state, log)) :
    system.Kept saved origin (system.rewind undone state, rest) := by
  obtain ⟨shot, dropped, shots, -, length, entries, sameID⟩ := UndoLog.revertTo_spec found
  refine ⟨sameID ▸ kept.1, ?_⟩
  rcases kept.2 with ⟨newer, above, marked, below, restored⟩ | absent
  · rcases split_at_cut (shots.symm.trans marked) with ⟨between, isRest⟩ | ⟨between, isOrigin⟩
    · -- The marked snapshot lies below the cut, so the cut leaves its entries alone.
      have order := (pairwise_append.mp (shots ▸ log.ordered)).2.2
        ⟨origin.snapshotID, origin.entries.length⟩ (by simp [isRest]) shot mem_cons_self
      have longer : origin.entries.length ≤ rest.entries.length := length ▸ order.2
      have joined : undone ++ rest.entries = above ++ origin.entries := entries.symm.trans below
      obtain ⟨middle, isAbove, isRestEntries⟩ : ∃ middle,
          above = undone ++ middle ∧ rest.entries = middle ++ origin.entries := by
        rcases append_eq_append_iff.mp joined with ⟨middle, first, second⟩ | ⟨middle, first, second⟩
        · exact ⟨middle, first, second⟩
        cases middle with
        | nil => exact ⟨[], by simpa using first.symm, by simpa using second.symm⟩
        | cons head middle =>
          rw [second, length_append, length_cons] at longer
          omega
      refine .inl ⟨between, middle, isRest, isRestEntries, ?_⟩
      intro cleanMiddle
      rw [← rewind_append, ← isAbove]
      exact restored (isAbove ▸ system.clean_append clean cleanMiddle)
    · -- The cut took the marked snapshot away.
      refine .inr fun earlier member => ?_
      have inside := (origin.bounded earlier (isOrigin ▸ mem_append_left _ member)).1
      exact Nat.ne_of_lt inside
  · refine .inr fun earlier member => absent earlier ?_
    exact shots ▸ mem_append_left _ member

theorem kept_step (kept : system.Kept saved origin now) (step : system.Step now next) :
    system.Kept saved origin next := by
  cases step with
  | change changed => exact system.kept_change changed kept
  | snapshot => exact system.kept_again kept
  | revert found clean => exact system.kept_revert found clean kept

theorem kept_run (kept : system.Kept saved origin now) (run : system.Run now next) :
    system.Kept saved origin next := by
  induction run with
  | refl => exact kept
  | tail _ step ih => exact system.kept_step ih step

theorem revert_restores (run : system.Run (saved, origin.snapshot) (state, log))
    (found : log.revertTo origin.snapshotID = some (undone, rest)) (clean : system.clean undone) :
    system.same (system.rewind undone state) saved ∧ rest.entries = origin.entries ∧
      rest.snapshotSet = origin.snapshotSet := by
  obtain ⟨shot, dropped, shots, isId, length, entries, -⟩ := UndoLog.revertTo_spec found
  rcases (system.kept_run (system.kept_snapshot saved origin) run).2 with
    ⟨newer, above, marked, below, restored⟩ | absent
  · have unique : rest.snapshotSet = origin.snapshotSet ∧
        shot = ⟨origin.snapshotID, origin.entries.length⟩ := by
      rcases split_at_cut (shots.symm.trans marked) with ⟨between, isRest⟩ | ⟨between, isOrigin⟩
      · have order := (pairwise_append.mp (shots ▸ log.ordered)).2.2
          ⟨origin.snapshotID, origin.entries.length⟩ (by simp [isRest]) shot mem_cons_self
        exact absurd (isId ▸ order.1) (Nat.lt_irrefl _)
      cases between with
      | nil =>
        have same := shots.symm.trans marked
        rw [isOrigin, append_nil] at same
        have tails := append_cancel_left same
        exact ⟨by simpa using isOrigin.symm, (List.cons.inj tails).1⟩
      | cons head between =>
        have same := shots.symm.trans marked
        rw [isOrigin, append_assoc, cons_append] at same
        have isHead := (List.cons.inj (append_cancel_left same)).1
        have inside := (origin.bounded head (by simp [isOrigin])).1
        exact absurd (isHead ▸ isId ▸ inside) (Nat.lt_irrefl _)
    obtain ⟨sameShots, rfl⟩ := unique
    have joined : undone ++ rest.entries = above ++ origin.entries := entries.symm.trans below
    have split := append_inj' joined length
    exact ⟨split.1 ▸ restored (split.1 ▸ clean), split.2, sameShots⟩
  · exact absurd isId (absent shot (by simp [shots]))

/-- `good` holds now, and would hold again after the rollback of any clean
segment down to a live snapshot. -/
def Safe (good : σ → List ε → Prop) (now : σ × UndoLog ε) : Prop :=
  good now.1 now.2.entries ∧
    ∀ shot ∈ now.2.snapshotSet, ∀ above below, now.2.entries = above ++ below →
      below.length = shot.journalIndex → system.clean above →
      good (system.rewind above now.1) below

private theorem safe_change
    (respects : ∀ left right entries, system.same left right → good left entries →
      good right entries) (preserved : ∀ before entry after entries, good before entries →
      system.change before entry after → good after (entry :: entries))
    (changed : system.change before entry after)
    (safe : system.Safe good (before, log)) : system.Safe good (after, log.push entry) := by
  refine ⟨preserved _ _ _ _ safe.1 changed, ?_⟩
  intro shot member above below split length clean
  cases above with
  | nil =>
    have inside := (log.bounded shot member).2
    have whole := congrArg List.length split
    simp only [UndoLog.push_entries, length_cons, nil_append] at whole
    omega
  | cons head above =>
    simp only [UndoLog.push_entries, cons_append, List.cons.injEq] at split
    obtain ⟨rfl, split⟩ := split
    have restored := system.rewind_change changed clean
    exact respects _ _ _ ((system.equivalence ∅).symm restored)
      (safe.2 shot member above below split length (healsScars_cons.mp clean).2)

private theorem safe_again (safe : system.Safe good (state, log)) : system.Safe good
    (state, log.snapshot) := by
  refine ⟨safe.1, ?_⟩
  intro shot member above below split length clean
  simp only [UndoLog.snapshot_snapshotSet, mem_append, mem_singleton] at member
  rcases member with old | rfl
  · exact safe.2 shot old above below split length clean
  · obtain ⟨rfl, rfl⟩ := append_inj' (show [] ++ log.entries = above ++ below from split) length.symm
    exact safe.1

private theorem safe_revert {id : Nat} (found : log.revertTo id = some (undone, rest))
    (clean : system.clean undone) (safe : system.Safe good (state, log)) :
    system.Safe good (system.rewind undone state, rest) := by
  obtain ⟨shot, dropped, shots, -, length, entries, -⟩ := UndoLog.revertTo_spec found
  refine ⟨safe.2 shot (by simp [shots]) undone rest.entries entries length clean, ?_⟩
  intro earlier member above below split earlierLength cleanAbove
  have joined : log.entries = (undone ++ above) ++ below := by
    rw [entries, append_assoc]
    exact congrArg _ split
  rw [← rewind_append]
  exact safe.2 earlier (shots ▸ mem_append_left _ member) (undone ++ above) below joined
    earlierLength (system.clean_append clean cleanAbove)

theorem safe_run (respects : ∀ left right entries, system.same left right → good left entries →
      good right entries) (preserved : ∀ before entry after entries, good before entries →
      system.change before entry after → good after (entry :: entries))
    (safe : system.Safe good now) (run : system.Run now next) : system.Safe good next := by
  induction run with
  | refl => exact safe
  | tail _ step ih =>
    cases step with
    | change changed => exact system.safe_change respects preserved changed ih
    | snapshot => exact system.safe_again ih
    | revert found clean => exact system.safe_revert found clean ih

end RollbackSystem
