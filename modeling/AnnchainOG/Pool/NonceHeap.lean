import AnnchainOG.Lib.Sorting
import AnnchainOG.Pool.Flows
import Mathlib.Data.List.DropRight

/-!
# The heap of nonces

Beside the map of its transactions a list keeps their nonces in a slice, which is a heap to `Put`
and `Remove` and is sorted in place when the latest nonce is asked for.
-/

namespace AnnchainOG

open List

structure NonceList where
  keys : List UInt64
  txflow : GoMap UInt64 Txi

abbrev NotAfter (left right : UInt64) : Prop := left.toNat ≤ right.toNat

instance : Std.Refl NotAfter := ⟨fun _ => le_rfl⟩

instance lawfulMax : Std.LawfulOrderMax UInt64 where
  max_eq_or a b := by grind [max, instMaxUInt64, maxOfLe]
  max_le_iff a b c := by grind [max, instMaxUInt64, maxOfLe]

namespace NonceList

variable (heap : Heap NotAfter) (sorter : Sorter) (t : NonceList) (nonce : UInt64)

def new : NonceList := ⟨[], ∅⟩

def get : Option Txi := t.txflow.get? nonce

def put (txi : Txi) : NonceList :=
  if t.txflow.contains txi.getNonce then t
  else ⟨heap.push t.keys txi.getNonce, t.txflow.set txi.getNonce txi⟩

/-- A turn of the loop of `remove`, which goes on to the next index also after a removal. -/
def removeAt (keys : List UInt64) (i : Nat) : List UInt64 :=
  if keys[i]? = some nonce then heap.remove keys i else keys

def remove : Bool × NonceList :=
  if t.txflow.contains nonce then
    (true, ⟨(range t.keys.length).foldl (removeAt heap nonce) t.keys, t.txflow.delete nonce⟩)
  else (false, t)

def latestNonce : Option UInt64 × NonceList :=
  if t.keys = [] then (none, t)
  else
    let keys := sorter.sort (fun left right => left < right) t.keys
    (keys.getLast?, { t with keys })

inductive Op where
  | put (txi : Txi)
  | remove (nonce : UInt64)
  | latestNonce
  deriving DecidableEq

def act (t : NonceList) : Op → NonceList
  | .put txi => t.put heap txi
  | .remove nonce => (t.remove heap nonce).2
  | .latestNonce => (t.latestNonce sorter).2

def Op.putAt : Op → Option Txi
  | .put txi => if txi.getNonce = nonce then some txi else none
  | .remove _ | .latestNonce => none

/-- The first transaction put for a nonce since it was last removed. -/
def firstPut (ops : List Op) : Option Txi :=
  (ops.rtakeWhile (· ≠ .remove nonce)).findSome? (Op.putAt nonce)

variable {heap sorter t nonce} {keys : List UInt64}

/-! ## What is found -/

theorem get_put (txi : Txi) : (t.put heap txi).get nonce =
    (t.get nonce).or (if txi.getNonce = nonce then some txi else none) := by
  unfold put get GoMap.contains
  by_cases same : txi.getNonce = nonce
  · subst same
    cases found : t.txflow.get? txi.getNonce <;> simp [found]
  · split <;> simp [GoMap.get?_set, Ne.symm same]

theorem get_remove (nonce other : UInt64) :
    (t.remove heap nonce).2.get other = if other = nonce then none else t.get other := by
  unfold remove
  split
  · exact GoMap.get?_delete _ _ _
  next absent =>
    split
    next same => rw [same, get, GoMap.get?_eq_none absent]
    · rfl

theorem get_latestNonce : (t.latestNonce sorter).2.get nonce = t.get nonce := by
  unfold latestNonce
  split <;> rfl

theorem get_run (ops : List Op) (nonce : UInt64) :
    (ops.foldl (act heap sorter) new).get nonce = firstPut nonce ops := by
  induction ops using reverseRecOn with
  | nil => rfl
  | append_singleton ops op ih =>
    rw [foldl_append, firstPut, rtakeWhile_concat]
    cases op with
    | put txi => simp [act, get_put, ih, Op.putAt, firstPut]
    | remove removed =>
      by_cases same : nonce = removed
      · simp [act, get_remove, same]
      · simp [act, get_remove, same, Ne.symm same, ih, Op.putAt, firstPut]
    | latestNonce => simp [act, get_latestNonce, ih, Op.putAt, firstPut]

/-! ## The slice -/

structure Sound (t : NonceList) : Prop where
  ordered : HeapOrdered NotAfter t.keys
  distinct : t.keys.Nodup
  listed : ∀ nonce, nonce ∈ t.keys ↔ (t.get nonce).isSome = true

theorem removeAll_absent (absent : nonce ∉ keys) (indices : List Nat) :
    indices.foldl (removeAt heap nonce) keys = keys := by
  induction indices with
  | nil => rfl
  | cons i rest ih =>
    rw [foldl_cons, removeAt, if_neg fun found => absent (mem_of_getElem? found)]
    exact ih

theorem removeAll_present (ordered : HeapOrdered NotAfter keys) (distinct : keys.Nodup)
    {indices : List Nat} (found : ∃ i ∈ indices, keys[i]? = some nonce) :
    (indices.foldl (removeAt heap nonce) keys).Perm (keys.erase nonce) ∧
      HeapOrdered NotAfter (indices.foldl (removeAt heap nonce) keys) := by
  induction indices with
  | nil => simp at found
  | cons i rest ih =>
    rw [foldl_cons, removeAt]
    split
    next here =>
      obtain ⟨inside, isNonce⟩ := List.getElem?_eq_some_iff.mp here
      have perm := heap.remove_perm ordered inside
      rw [← distinct.erase_getElem i inside, isNonce] at perm
      rw [removeAll_absent fun member => distinct.not_mem_erase (perm.mem_iff.mp member)]
      exact ⟨perm, heap.remove_ordered ordered inside⟩
    next elsewhere =>
      obtain ⟨j, member, isNonce⟩ := found
      rcases mem_cons.mp member with rfl | member
      · exact absurd isNonce elsewhere
      · exact ih ⟨j, member, isNonce⟩

theorem Sound.remove_keys (sound : t.Sound) (nonce : UInt64) :
    (t.remove heap nonce).2.keys.Perm (t.keys.erase nonce) ∧
      HeapOrdered NotAfter (t.remove heap nonce).2.keys := by
  unfold NonceList.remove
  split
  next present =>
    refine removeAll_present sound.ordered sound.distinct ?_
    obtain ⟨i, isNonce⟩ := getElem?_of_mem ((sound.listed nonce).mpr present)
    exact ⟨i, mem_range.mpr (List.getElem?_eq_some_iff.mp isNonce).1, isNonce⟩
  next absent =>
    rw [erase_of_not_mem fun member => absent ((sound.listed nonce).mp member)]
    exact ⟨.refl _, sound.ordered⟩

theorem sorted_keys (sorter : Sorter) (keys : List UInt64) :
    (sorter.sort (fun left right => left < right) keys).Pairwise NotAfter :=
  sorter.sorted (fun left right => by simp [UInt64.lt_iff_toNat_lt]) keys

/-- Sorting anew after each change meets the contract of a heap. -/
example (sorter : Sorter) : Nonempty (Heap NotAfter) :=
  ⟨⟨fun keys key => sorter.sort (· < ·) (key :: keys),
    fun keys i => sorter.sort (· < ·) (keys.eraseIdx i), fun _ _ => sorter.perm _ _,
    fun _ _ => .of_sorted (sorted_keys sorter _), fun _ _ => sorter.perm _ _,
    fun _ _ => .of_sorted (sorted_keys sorter _)⟩⟩

theorem latestNonce_eq_some_iff : (t.latestNonce sorter).1 = some nonce ↔
    nonce ∈ t.keys ∧ ∀ other ∈ t.keys, other ≤ nonce := by
  have perm := sorter.perm (fun left right : UInt64 => left < right) t.keys
  unfold latestNonce
  split
  next isNil => simp [isNil]
  next nonempty =>
    have notNil : sorter.sort (fun left right => left < right) t.keys ≠ [] := fun isNil =>
      nonempty (isNil ▸ perm).symm.eq_nil
    have isLast := perm.mem_iff.mp (getLast_mem notNil)
    have isTop : ∀ other ∈ t.keys, other ≤ getLast _ notNil := fun other member =>
      UInt64.le_iff_toNat_le.mpr ((sorted_keys sorter t.keys).rel_getLast (perm.mem_iff.mpr member))
    dsimp only
    rw [getLast?_eq_some_getLast notNil, Option.some.injEq]
    constructor
    · rintro rfl
      exact ⟨isLast, isTop⟩
    · rintro ⟨member, largest⟩
      exact UInt64.le_antisymm (largest _ isLast) (isTop nonce member)

theorem Sound.act (sound : t.Sound) (op : Op) : (t.act heap sorter op).Sound := by
  cases op with
  | put txi =>
    simp only [NonceList.act, NonceList.put]
    split
    · exact sound
    next absent =>
      have perm := heap.push_perm sound.ordered txi.getNonce
      have fresh : txi.getNonce ∉ t.keys := fun member => absent ((sound.listed _).mp member)
      refine ⟨heap.push_ordered sound.ordered _,
        perm.nodup_iff.mpr (nodup_cons.mpr ⟨fresh, sound.distinct⟩), fun nonce => ?_⟩
      rw [perm.mem_iff, mem_cons, sound.listed, get, get, GoMap.get?_set]
      split <;> simp [*]
  | remove nonce =>
    obtain ⟨perm, ordered⟩ := sound.remove_keys nonce
    refine ⟨ordered, perm.nodup_iff.mpr (sound.distinct.erase nonce), fun other => ?_⟩
    rw [NonceList.act, perm.mem_iff, sound.distinct.mem_erase_iff, sound.listed, get_remove]
    split <;> simp [*]
  | latestNonce =>
    simp only [NonceList.act, latestNonce]
    split
    · exact sound
    have perm := sorter.perm (fun left right : UInt64 => left < right) t.keys
    exact ⟨.of_sorted (sorted_keys sorter t.keys), perm.nodup_iff.mpr sound.distinct,
      fun nonce => perm.mem_iff.trans (sound.listed nonce)⟩

theorem run_sound (ops : List Op) : (ops.foldl (act heap sorter) new).Sound := by
  induction ops using reverseRecOn with
  | nil => exact ⟨fun _ _ _ isLow => (by cases isLow), nodup_nil, fun _ => by simp [new, get]⟩
  | append_singleton ops op ih =>
    rw [foldl_append]
    exact ih.act op

/-- Whatever was done, the slice holds each stored nonce once, the map holds what was put first, a
removal takes one nonce away and the largest one is the latest. -/
theorem nonce_list_spec (heap : Heap NotAfter) (sorter : Sorter) (ops : List Op) (nonce : UInt64) :
    let t := ops.foldl (act heap sorter) new
    t.keys.Nodup ∧ (nonce ∈ t.keys ↔ (t.get nonce).isSome = true) ∧
      t.get nonce = firstPut nonce ops ∧
      (t.remove heap nonce).2.keys.Perm (t.keys.erase nonce) ∧
      (∀ other, other ≠ nonce → (t.remove heap nonce).2.get other = t.get other) ∧
      ((t.latestNonce sorter).1 = some nonce ↔
        nonce ∈ t.keys ∧ ∀ other ∈ t.keys, other ≤ nonce) := by
  have sound := @run_sound heap sorter ops
  refine ⟨sound.distinct, sound.listed nonce, get_run ops nonce, (sound.remove_keys nonce).1,
    fun other different => ?_, latestNonce_eq_some_iff⟩
  rw [get_remove, if_neg different]

/-! ## The list of the pool -/

def Op.onList (list : TxList) : Op → TxList
  | .put txi => list.put txi
  | .remove nonce => list.remove nonce
  | .latestNonce => list

theorem get_eq_onList (ops : List Op) (nonce : UInt64) :
    (ops.foldl (act heap sorter) new).get nonce = (ops.foldl Op.onList .empty).get nonce := by
  induction ops using reverseRecOn with
  | nil => rfl
  | append_singleton ops op ih =>
    simp only [foldl_append, foldl_cons, foldl_nil]
    cases op with
    | put txi => rw [act, get_put, ih, Op.onList, TxList.get_put]
    | remove removed =>
      rw [act, get_remove, ih, Op.onList, TxList.get, TxList.get, TxList.remove, find?_filter]
      grind
    | latestNonce => rw [act, get_latestNonce, ih, Op.onList]

/-- Heap and map answer as the one list of transactions that the flows are modelled with. -/
theorem refines_txList (heap : Heap NotAfter) (sorter : Sorter) (ops : List Op) :
    let t := ops.foldl (act heap sorter) new
    let list := ops.foldl Op.onList .empty
    t.get = list.get ∧ t.keys.Perm list.keys ∧ (t.latestNonce sorter).1 = list.latestNonce := by
  intro t list
  have same : t.get = list.get := funext (get_eq_onList ops)
  have sound : t.Sound := run_sound ops
  have perm : t.keys.Perm list.keys := by
    refine (perm_ext_iff_of_nodup sound.distinct list.distinct).mpr fun nonce => ?_
    rw [sound.listed, same]
    simp [TxList.get]
  refine ⟨same, perm, Option.ext fun nonce => ?_⟩
  rw [latestNonce_eq_some_iff, TxList.latestNonce, max?_eq_some_iff]
  simp only [perm.mem_iff]

end NonceList

end AnnchainOG
