import Mathlib.Data.Finmap
import Mathlib.Logic.Function.Basic

/-!
# Finite maps with the operations of a Go map

Equality is extensional, whatever the order in which entries were added.
-/

abbrev GoMap (κ ν : Type) := Finmap fun _ : κ => ν

namespace GoMap

variable {κ ν ω : Type} [DecidableEq κ] (m : GoMap κ ν) (k : κ) (v : ν) {test : κ → ν → Bool}

/-- The two-value read `v, ok := m[k]`. -/
def get? : Option ν :=
  Finmap.lookup k m

def set : GoMap κ ν :=
  Finmap.insert k v m

def delete : GoMap κ ν :=
  Finmap.erase k m

def contains : Bool :=
  (m.get? k).isSome

/-- Entries of `left` hide entries of `right`. -/
def overlay (left right : GoMap κ ν) : GoMap κ ν :=
  left ∪ right

/-- A `range` over the map that keeps the entries for which `f` answers. -/
def filterMap (f : κ → ν → Option ω) : GoMap κ ω where
  entries := m.entries.filterMap fun entry =>
    (f entry.1 entry.2).map fun value => ⟨entry.1, value⟩
  nodupKeys := by
    obtain ⟨entries, unique⟩ := m
    induction entries using Quotient.inductionOn with
    | h entries =>
      simp only [Multiset.quot_mk_to_coe, Multiset.filterMap_coe, Multiset.coe_nodupKeys]
        at unique ⊢
      refine List.Nodup.sublist ?_ unique
      induction entries with
      | nil => simp [List.keys]
      | cons entry rest ih =>
        have tail := ih (List.nodupKeys_cons.mp unique).2
        rw [List.filterMap_cons]
        cases f entry.1 entry.2 with
        | none => exact tail.cons _
        | some value => exact tail.cons_cons _

def any (test : κ → ν → Bool) : Bool :=
  m.entries.countP (fun entry => test entry.1 entry.2 = true) ≠ 0

variable {m k v} in
theorem get?_eq_some_iff : m.get? k = some v ↔ (⟨k, v⟩ : Sigma fun _ : κ => ν) ∈ m.entries :=
  Finmap.lookup_eq_some_iff

theorem ext {left right : GoMap κ ν} (same : ∀ k, left.get? k = right.get? k) : left = right :=
  Finmap.ext_lookup same

@[simp] theorem get?_empty : (∅ : GoMap κ ν).get? k = none := rfl

theorem get?_set (k' : κ) : (m.set k v).get? k' = if k' = k then some v else m.get? k' := by
  by_cases same : k' = k
  · subst same
    simp [get?, set, Finmap.lookup_insert]
  · simp [get?, set, same, Finmap.lookup_insert_of_ne]

@[simp] theorem get?_set_self : (m.set k v).get? k = some v := by
  simp [get?_set]

theorem get?_set_of_ne {k k' : κ} (different : k' ≠ k) : (m.set k v).get? k' = m.get? k' := by
  simp [get?_set, different]

@[simp] theorem set_set (w : ν) : (m.set k v).set k w = m.set k w := by
  refine ext fun k' => ?_
  simp only [get?_set]
  split <;> rfl

variable {m k v} in
theorem set_eq_self (found : m.get? k = some v) : m.set k v = m := by
  refine ext fun k' => ?_
  rw [get?_set]
  split
  next same => rw [same, found]
  · rfl

theorem get?_delete (k' : κ) : (m.delete k).get? k' = if k' = k then none else m.get? k' := by
  by_cases same : k' = k
  · subst same
    simp [get?, delete]
  · simp [get?, delete, same, Finmap.lookup_erase_ne]

variable {m k} in
theorem delete_of_absent (absent : m.get? k = none) : m.delete k = m := by
  refine ext fun k' => ?_
  grind [get?_delete]

theorem set_delete : (m.delete k).set k v = m.set k v := by
  refine ext fun k' => ?_
  grind [get?_set, get?_delete]

@[simp] theorem get?_overlay (left right : GoMap κ ν) (k : κ) :
    (left.overlay right).get? k = (left.get? k).or (right.get? k) := by
  unfold overlay
  by_cases present : k ∈ left
  · obtain ⟨value, found⟩ := Finmap.mem_iff.mp present
    simp [get?, Finmap.lookup_union_left present, found]
  · simp [get?, Finmap.lookup_union_right present, Finmap.lookup_eq_none.mpr present]

@[simp] theorem overlay_empty : m.overlay ∅ = m := ext fun k => by simp

@[simp] theorem empty_overlay : overlay ∅ m = m := ext fun k => by simp

@[simp] theorem get?_filterMap (f : κ → ν → Option ω) (k : κ) :
    (m.filterMap f).get? k = (m.get? k).bind (f k) := by
  apply Option.ext
  intro value
  rw [get?_eq_some_iff, filterMap]
  simp only [Multiset.mem_filterMap, Option.map_eq_some_iff, Option.bind_eq_some_iff]
  constructor
  · rintro ⟨⟨key, original⟩, member, result, kept, same⟩
    cases same
    exact ⟨original, get?_eq_some_iff.mpr member, kept⟩
  · rintro ⟨original, found, kept⟩
    exact ⟨⟨k, original⟩, get?_eq_some_iff.mp found, value, kept, rfl⟩

variable {m k}

theorem any_eq_true_iff : m.any test = true ↔ ∃ k v, m.get? k = some v ∧ test k v = true := by
  simp only [any, ne_eq, decide_eq_true_eq, Multiset.countP_eq_zero, not_forall, not_not,
    exists_prop]
  constructor
  · rintro ⟨⟨key, value⟩, member, passed⟩
    exact ⟨key, value, get?_eq_some_iff.mpr member, passed⟩
  · rintro ⟨key, value, found, passed⟩
    exact ⟨⟨key, value⟩, get?_eq_some_iff.mp found, passed⟩

theorem any_eq_false_iff : m.any test = false ↔ ∀ k v, m.get? k = some v → test k v = false := by
  rw [← Bool.not_eq_true, any_eq_true_iff]
  simp only [not_exists, not_and, Bool.not_eq_true]

theorem contains_iff : m.contains k = true ↔ ∃ v, m.get? k = some v := by
  simp [contains, Option.isSome_iff_exists]

theorem get?_eq_none (absent : ¬ m.contains k = true) : m.get? k = none := by
  simpa [contains] using absent

variable (m k) in
theorem get?_setNew (k' : κ) :
    (if m.contains k then m else m.set k v).get? k' =
      if k' = k then some ((m.get? k').getD v) else m.get? k' := by
  split
  next present =>
    obtain ⟨old, found⟩ := contains_iff.mp present
    split
    next same => simp [same, found]
    · rfl
  next absent =>
    rw [get?_set]
    split
    next same => simp [same, get?_eq_none absent]
    · rfl

end GoMap

/-! ## The orders of a range -/

namespace GoMap

open List

variable {κ ν : Type}
variable {order : List (κ × ν)}

def size (m : GoMap κ ν) : Nat :=
  Multiset.card m.entries

/-- The entries in an order in which a `range` may visit them. -/
def Iterates (m : GoMap κ ν) (order : List (κ × ν)) : Prop :=
  ((order.map fun entry => (⟨entry.1, entry.2⟩ : Sigma fun _ : κ => ν) :
    List (Sigma fun _ : κ => ν)) : Multiset (Sigma fun _ : κ => ν)) = m.entries

instance [DecidableEq κ] [DecidableEq ν] (m : GoMap κ ν) (order : List (κ × ν)) :
    Decidable (m.Iterates order) :=
  inferInstanceAs (Decidable ((_ : Multiset _) = _))

section

variable {m : GoMap κ ν} (iterates : m.Iterates order)
variable {other : List (κ × ν)}
include iterates

theorem Iterates.length : order.length = m.size := by
  unfold size
  rw [← iterates]
  simp

theorem Iterates.nodup : (order.map Prod.fst).Nodup := by
  have unique := m.nodupKeys
  rw [← iterates, Multiset.coe_nodupKeys, List.NodupKeys, List.keys, map_map] at unique
  exact unique

theorem Iterates.mem_iff [DecidableEq κ] {k : κ} {v : ν} : (k, v) ∈ order ↔ m.get? k = some v := by
  rw [get?_eq_some_iff, ← iterates, Multiset.mem_coe, mem_map]
  constructor
  · intro member
    exact ⟨(k, v), member, rfl⟩
  · rintro ⟨⟨key, value⟩, member, same⟩
    cases same
    exact member

theorem Iterates.perm (permuted : other.Perm order) : m.Iterates other :=
  (Multiset.coe_eq_coe.mpr (permuted.map _)).trans iterates

theorem Iterates.unique (otherIterates : m.Iterates other) : order.Perm other := by
  have sameEntries := Multiset.coe_eq_coe.mp (iterates.trans otherIterates.symm)
  have unpacked := sameEntries.map fun entry : Sigma fun _ : κ => ν => (entry.1, entry.2)
  simpa only [map_map, Function.comp_def, Prod.mk.eta, map_id'] using unpacked

end

variable {k : κ} {m : GoMap κ ν}

theorem size_set_of_absent [DecidableEq κ] (v : ν)
    (absent : m.get? k = none) : (m.set k v).size = m.size + 1 := by
  unfold size set
  rw [Finmap.entries_insert_of_notMem (Finmap.lookup_eq_none.mp absent), Multiset.card_cons]

theorem size_delete [DecidableEq κ] (present : m.contains k = true) :
    (m.delete k).size + 1 = m.size := by
  obtain ⟨v, found⟩ := contains_iff.mp present
  have absent : (m.delete k).get? k = none := by simp [get?_delete]
  rw [← size_set_of_absent v absent, set_delete, set_eq_self found]

theorem size_set_of_present [DecidableEq κ] (v : ν)
    (present : m.contains k = true) : (m.set k v).size = m.size := by
  rw [← size_delete present, ← set_delete, size_set_of_absent v (by simp [get?_delete])]

theorem exists_iterates (m : GoMap κ ν) : ∃ order, m.Iterates order := by
  obtain ⟨entries, -⟩ := m
  induction entries using Quotient.inductionOn with
  | h entries =>
    refine ⟨entries.map fun entry => (entry.1, entry.2), ?_⟩
    simp [Iterates, Function.comp_def]

theorem contains_of_size [DecidableEq κ] {keys : List κ}
    (within : ∀ k, m.contains k = true → k ∈ keys) (enough : keys.length ≤ m.size)
    (member : k ∈ keys) : m.contains k = true := by
  obtain ⟨order, iterates⟩ := m.exists_iterates
  have isKey : ∀ k, k ∈ order.map Prod.fst ↔ m.contains k = true := by
    intro k
    rw [contains_iff]
    constructor
    · intro inOrder
      obtain ⟨⟨key, value⟩, isEntry, rfl⟩ := mem_map.mp inOrder
      exact ⟨value, iterates.mem_iff.mp isEntry⟩
    · rintro ⟨value, found⟩
      exact mem_map.mpr ⟨(k, value), iterates.mem_iff.mpr found, rfl⟩
  have contained : (order.map Prod.fst).Subperm keys :=
    iterates.nodup.subperm fun k inOrder => within k ((isKey k).mp inOrder)
  have same := contained.perm_of_length_le (by rwa [length_map, iterates.length])
  exact (isKey k).mp (same.mem_iff.mpr member)

section Values

def values (m : GoMap κ ν) : Multiset ν :=
  m.entries.map Sigma.snd

variable {m : GoMap κ ν} {k : κ} {v : ν}

theorem Iterates.values (iterates : m.Iterates order) : ↑(order.map Prod.snd) = m.values := by
  rw [GoMap.values, ← iterates]
  simp [Function.comp_def]

variable [DecidableEq κ]

theorem mem_values : v ∈ m.values ↔ ∃ k, m.get? k = some v := by
  simp [values, get?_eq_some_iff]

theorem values_set (absent : m.get? k = none) : (m.set k v).values = {v} + m.values := by
  rw [values, set, Finmap.entries_insert_of_notMem (Finmap.lookup_eq_none.mp absent),
    Multiset.map_cons]
  rfl

end Values

end GoMap

/-! ## Maps of lists -/

namespace GoMap

open List

variable {κ α : Type} [DecidableEq κ] (m : GoMap κ (List α))

def list (k : κ) : List α :=
  (m.get? k).getD []

/-- `m[k] = append(m[k], item)`. -/
def append (k : κ) (item : α) : GoMap κ (List α) :=
  m.set k (m.list k ++ [item])

theorem list_append (k : κ) (item : α) (k' : κ) :
    (m.append k item).list k' = if k' = k then m.list k ++ [item] else m.list k' := by
  unfold list append
  rw [get?_set]
  split <;> rfl

theorem list_delete (k k' : κ) : (m.delete k).list k' = if k' = k then [] else m.list k' := by
  unfold list
  rw [get?_delete]
  split <;> rfl

section Items

variable {m : GoMap κ (List α)} {item : α}

def items (m : GoMap κ (List α)) : Multiset α :=
  m.values.bind (↑)

omit [DecidableEq κ] in
theorem Iterates.items {order : List (κ × List α)}
    (iterates : m.Iterates order) : ↑(order.flatMap Prod.snd) = m.items := by
  rw [GoMap.items, ← iterates.values, Multiset.coe_bind, flatMap_map]

theorem mem_items : item ∈ m.items ↔ ∃ k, item ∈ m.list k := by
  simp only [items, Multiset.mem_bind, mem_values, Multiset.mem_coe]
  constructor
  · rintro ⟨items, ⟨k, found⟩, member⟩
    exact ⟨k, by rwa [list, found]⟩
  · rintro ⟨k, member⟩
    cases found : m.get? k with
    | none => simp [list, found] at member
    | some items => exact ⟨items, ⟨k, found⟩, by simpa [list, found] using member⟩

theorem items_eq (m : GoMap κ (List α)) (k : κ) : m.items = ↑(m.list k) + (m.delete k).items := by
  cases found : m.get? k with
  | none => simp [list, found, delete_of_absent found]
  | some held =>
    conv_lhs => rw [← set_eq_self found, ← set_delete]
    simp [items, values_set, get?_delete, list, found]

theorem items_append (k : κ) (item : α) : (m.append k item).items = {item} + m.items := by
  have sameRest : (m.append k item).delete k = m.delete k := ext fun k' => by
    grind [get?_delete, get?_set, append]
  rw [items_eq _ k, sameRest, items_eq m k, list_append, if_pos rfl, ← Multiset.coe_add,
    add_assoc, add_left_comm]
  rfl

end Items

def Filed (belongs : α → κ → Prop) (m : GoMap κ (List α)) : Prop :=
  ∀ k, ∀ item ∈ m.list k, belongs item k

section Filed

variable {belongs : α → κ → Prop} {m : GoMap κ (List α)}

theorem Filed.empty : Filed belongs ∅ := by
  intro k item member
  cases member

theorem Filed.append (filed : m.Filed belongs) {k : κ} {item : α} (isKey : belongs item k) :
    (m.append k item).Filed belongs := by
  intro k' other member
  rw [list_append] at member
  split at member
  next same =>
    subst same
    rcases mem_append.mp member with earlier | isItem
    · exact filed _ other earlier
    · rwa [mem_singleton.mp isItem]
  · exact filed k' other member

theorem Filed.delete (filed : m.Filed belongs) (k : κ) : (m.delete k).Filed belongs := by
  intro k' other member
  rw [list_delete] at member
  split at member
  · cases member
  · exact filed k' other member

end Filed

/-! ## Writing a list of pairs -/

section SetAll

variable {κ ν : Type} [DecidableEq κ] (m : GoMap κ ν) (pairs : List (κ × ν))

def setAll : GoMap κ ν :=
  pairs.foldl (fun m pair => m.set pair.1 pair.2) m

theorem setAll_concat (pair : κ × ν) :
    m.setAll (pairs ++ [pair]) = (m.setAll pairs).set pair.1 pair.2 := by
  rw [setAll, foldl_append]
  rfl

theorem get?_setAll (k : κ) :
    (∃ v, (k, v) ∈ pairs ∧ (m.setAll pairs).get? k = some v) ∨
      (∀ v, (k, v) ∉ pairs) ∧ (m.setAll pairs).get? k = m.get? k := by
  induction pairs using List.reverseRecOn with
  | nil => exact .inr ⟨fun _ => not_mem_nil, rfl⟩
  | append_singleton pairs pair ih =>
    rw [setAll_concat, get?_set]
    by_cases same : k = pair.1
    · rw [if_pos same]
      exact .inl ⟨pair.2, by simp [same], rfl⟩
    rw [if_neg same]
    rcases ih with ⟨v, member, found⟩ | ⟨absent, found⟩
    · exact .inl ⟨v, mem_append_left _ member, found⟩
    refine .inr ⟨fun v member => ?_, found⟩
    rcases mem_append.mp member with earlier | isLast
    · exact absent v earlier
    · exact same (congrArg Prod.fst (mem_singleton.mp isLast))

theorem setAll_perm {pairs others : List (κ × ν)} (perm : pairs.Perm others)
    (single : ∀ k v w, (k, v) ∈ pairs → (k, w) ∈ pairs → v = w) :
    m.setAll pairs = m.setAll others := by
  refine ext fun k => ?_
  rcases get?_setAll m pairs k with ⟨v, member, found⟩ | ⟨absent, found⟩
  · rcases get?_setAll m others k with ⟨w, other, isFound⟩ | ⟨missing, -⟩
    · rw [found, isFound, single k v w member (perm.mem_iff.mpr other)]
    · exact absurd (perm.mem_iff.mp member) (missing v)
  · rcases get?_setAll m others k with ⟨w, other, -⟩ | ⟨-, isFound⟩
    · exact absurd (perm.mem_iff.mpr other) (absent w)
    · rw [found, isFound]

theorem Iterates.setAll_empty {m : GoMap κ ν} {order : List (κ × ν)} (iterates : m.Iterates order) :
    setAll ∅ order = m := by
  refine ext fun k => ?_
  rcases get?_setAll ∅ order k with ⟨v, member, found⟩ | ⟨absent, found⟩
  · rw [found, iterates.mem_iff.mp member]
  · rw [found]
    cases present : m.get? k with
    | none => rfl
    | some v => exact absurd (iterates.mem_iff.mpr present) (absent v)

end SetAll

end GoMap
