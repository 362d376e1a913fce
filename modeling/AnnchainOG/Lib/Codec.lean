import Mathlib.Algebra.Group.Nat.Defs
import Mathlib.Data.List.Basic
import Mathlib.Tactic.Common

/-!
# Codecs on byte strings

A codec carries its laws: what it can carry it reads back, it only reads what it can carry, and no
reading is shorter than what would have been appended.
-/

structure Codec (α : Type) where
  append : α → List UInt8
  read : List UInt8 → Option (α × List UInt8)
  Fits : α → Prop
  read_append : ∀ {value : α} (rest : List UInt8), Fits value →
    read (append value ++ rest) = some (value, rest)
  fits_of_read : ∀ {bts : List UInt8} {value : α} {rest : List UInt8},
    read bts = some (value, rest) → Fits value
  shortest : ∀ {bts : List UInt8} {value : α} {rest : List UInt8},
    read bts = some (value, rest) → (append value).length + rest.length ≤ bts.length

namespace Codec

open Option List

variable {α β : Type}
variable {bts rest : List UInt8} {codec : Codec α} {parts : β → α} {value : β} {build : α → β}
variable {build_parts : ∀ value, build (parts value) = value} {first : Codec α} {second : Codec β}
  {pair : α × β} {parts_build : ∀ fields, parts (build fields) = fields} {Made : β → Prop}
  {values : List α}

/-- A field that is not written; the reader leaves its default. -/
def skipped (default : α) : Codec α where
  append _ := []
  read bts := some (default, bts)
  Fits value := value = default
  read_append := by
    rintro value rest rfl
    rfl
  fits_of_read := by
    rintro bts value rest ⟨⟩
    rfl
  shortest := by
    rintro bts value rest ⟨⟩
    exact Nat.le_of_eq (Nat.zero_add _)

/-- Reading the second of two fields where the first ends. -/
def andThen (first : Codec α) (second : Codec β) : Codec (α × β) where
  append pair := first.append pair.1 ++ second.append pair.2
  read bts := do
    let (left, bts) ← first.read bts
    let (right, bts) ← second.read bts
    return ((left, right), bts)
  Fits pair := first.Fits pair.1 ∧ second.Fits pair.2
  read_append := by
    rintro ⟨left, right⟩ rest ⟨leftFits, rightFits⟩
    simp [List.append_assoc, first.read_append _ leftFits, second.read_append _ rightFits]
  fits_of_read := by
    intro bts pair rest read
    obtain ⟨⟨left, middle⟩, leftRead, read⟩ := Option.bind_eq_some_iff.mp read
    obtain ⟨⟨right, last⟩, rightRead, read⟩ := Option.bind_eq_some_iff.mp read
    cases read
    exact ⟨first.fits_of_read leftRead, second.fits_of_read rightRead⟩
  shortest := by
    intro bts pair rest read
    obtain ⟨⟨left, middle⟩, leftRead, read⟩ := Option.bind_eq_some_iff.mp read
    obtain ⟨⟨right, last⟩, rightRead, read⟩ := Option.bind_eq_some_iff.mp read
    cases read
    have leftShortest := first.shortest leftRead
    have rightShortest := second.shortest rightRead
    simp only [List.length_append]
    omega

/-- The values `build` makes of the fields; of those with the same fields, the ones that are
`Made`. -/
def via (codec : Codec α) (build : α → Option β) (parts : β → α) (Made : β → Prop)
    (inverse : ∀ fields value, build fields = some value ↔ parts value = fields ∧ Made value) : Codec β where
  append value := codec.append (parts value)
  read bts := do
    let (fields, bts) ← codec.read bts
    let value ← build fields
    return (value, bts)
  Fits value := codec.Fits (parts value) ∧ Made value
  read_append := by
    rintro value rest ⟨fits, made⟩
    have built : build (parts value) = some value := (inverse _ _).mpr ⟨rfl, made⟩
    simp [codec.read_append _ fits, built]
  fits_of_read := by
    intro bts value rest read
    obtain ⟨⟨fields, last⟩, fieldsRead, read⟩ := Option.bind_eq_some_iff.mp read
    obtain ⟨built, isBuilt, read⟩ := Option.bind_eq_some_iff.mp read
    cases read
    obtain ⟨rfl, made⟩ := (inverse _ _).mp isBuilt
    exact ⟨codec.fits_of_read fieldsRead, made⟩
  shortest := by
    intro bts value rest read
    obtain ⟨⟨fields, last⟩, fieldsRead, read⟩ := Option.bind_eq_some_iff.mp read
    obtain ⟨built, isBuilt, read⟩ := Option.bind_eq_some_iff.mp read
    cases read
    obtain ⟨rfl, _⟩ := (inverse _ _).mp isBuilt
    exact codec.shortest fieldsRead

def record (codec : Codec α) (build : α → β) (parts : β → α)
    (build_parts : ∀ value, build (parts value) = value)
    (parts_build : ∀ fields, parts (build fields) = fields) : Codec β :=
  codec.via (fun fields => some (build fields)) parts (fun _ => True) (by
    intro fields value
    rw [Option.some.injEq, and_true]
    constructor
    · rintro rfl
      exact parts_build fields
    · rintro rfl
      exact build_parts value)

/-- A value with several spellings, of which `parts` is one that is no longer than the others. -/
def spelled (codec : Codec α) (build : α → β) (parts : β → α)
    (build_parts : ∀ value, build (parts value) = value)
    (shortened : ∀ fields, codec.Fits fields → codec.Fits (parts (build fields)) ∧
      (codec.append (parts (build fields))).length ≤ (codec.append fields).length) : Codec β where
  append value := codec.append (parts value)
  read bts := do
    let (fields, bts) ← codec.read bts
    return (build fields, bts)
  Fits value := codec.Fits (parts value)
  read_append := by
    intro value rest fits
    simp [codec.read_append _ fits, build_parts]
  fits_of_read := by
    intro bts value rest read
    obtain ⟨⟨fields, last⟩, fieldsRead, read⟩ := Option.bind_eq_some_iff.mp read
    cases read
    exact (shortened fields (codec.fits_of_read fieldsRead)).1
  shortest := by
    intro bts value rest read
    obtain ⟨⟨fields, last⟩, fieldsRead, read⟩ := Option.bind_eq_some_iff.mp read
    cases read
    have shorter := (shortened fields (codec.fits_of_read fieldsRead)).2
    have fieldsShortest := codec.shortest fieldsRead
    omega

def headed {κ : Type} [DecidableEq κ] (header : Codec κ) (key : κ) (fits : header.Fits key)
    (codec : Codec α) : Codec α where
  append value := header.append key ++ codec.append value
  read bts := do
    let (found, bts) ← header.read bts
    if found = key then codec.read bts else none
  Fits := codec.Fits
  read_append := by
    intro value rest valueFits
    simp [List.append_assoc, header.read_append _ fits, codec.read_append _ valueFits]
  fits_of_read := by
    intro bts value rest read
    obtain ⟨⟨found, last⟩, _, read⟩ := Option.bind_eq_some_iff.mp read
    obtain ⟨_, read⟩ := Option.ite_none_right_eq_some.mp read
    exact codec.fits_of_read read
  shortest := by
    intro bts value rest read
    obtain ⟨⟨found, last⟩, headerRead, read⟩ := Option.bind_eq_some_iff.mp read
    obtain ⟨isKey, read⟩ := Option.ite_none_right_eq_some.mp read
    have headerShortest := header.shortest headerRead
    have valueShortest := codec.shortest read
    rw [List.length_append, ← isKey]
    omega

theorem read_append_nil (codec : Codec α) {value : α} (fits : codec.Fits value) :
    codec.read (codec.append value) = some (value, []) := by
  have read := codec.read_append [] fits
  rwa [append_nil] at read

@[simp] theorem andThen_fits :
    (first.andThen second).Fits pair ↔ first.Fits pair.1 ∧ second.Fits pair.2 :=
  Iff.rfl

@[simp] theorem record_fits :
    (codec.record build parts build_parts parts_build).Fits value ↔ codec.Fits (parts value) :=
  and_iff_left trivial

theorem andThen_read (read : (first.andThen second).read bts = some (pair, rest)) :
    ∃ middle, first.read bts = some (pair.1, middle) ∧ second.read middle = some (pair.2, rest) := by
  obtain ⟨⟨left, middle⟩, leftRead, read⟩ := bind_eq_some_iff.mp read
  obtain ⟨⟨right, last⟩, rightRead, read⟩ := bind_eq_some_iff.mp read
  cases read
  exact ⟨middle, leftRead, rightRead⟩

theorem via_read {build : α → Option β}
    {inverse : ∀ fields value, build fields = some value ↔ parts value = fields ∧ Made value}
    (read : (codec.via build parts Made inverse).read bts = some (value, rest)) :
    codec.read bts = some (parts value, rest) := by
  obtain ⟨⟨fields, last⟩, fieldsRead, read⟩ := bind_eq_some_iff.mp read
  obtain ⟨built, isBuilt, read⟩ := bind_eq_some_iff.mp read
  cases read
  rw [((inverse _ _).mp isBuilt).1, fieldsRead]

theorem via_read_none {build : α → Option β}
    {inverse : ∀ fields value, build fields = some value ↔ parts value = fields ∧ Made value}
    (lost : codec.read bts = none) : (codec.via build parts Made inverse).read bts = none := by
  show (codec.read bts >>= _) = none
  rw [lost]
  rfl

theorem record_read
    (read : (codec.record build parts build_parts parts_build).read bts = some (value, rest)) :
    codec.read bts = some (parts value, rest) :=
  via_read read

theorem spelled_read {shortened : ∀ fields, codec.Fits fields → codec.Fits (parts (build fields)) ∧
      (codec.append (parts (build fields))).length ≤ (codec.append fields).length}
    (read : (codec.spelled build parts build_parts shortened).read bts = some (value, rest)) :
    ∃ fields, codec.read bts = some (fields, rest) ∧ build fields = value := by
  obtain ⟨⟨fields, last⟩, fieldsRead, read⟩ := bind_eq_some_iff.mp read
  cases read
  exact ⟨fields, fieldsRead, rfl⟩

def sized (header : Codec Nat) : Codec (List UInt8) where
  append bytes := header.append bytes.length ++ bytes
  read bts := do
    let (length, bts) ← header.read bts
    if length ≤ bts.length then some (bts.take length, bts.drop length) else none
  Fits bytes := header.Fits bytes.length
  read_append := by
    intro bytes rest fits
    have long : bytes.length ≤ (bytes ++ rest).length := by simp
    simp only [List.append_assoc, header.read_append _ fits, Option.bind_eq_bind,
      Option.bind_some, if_pos long, List.take_left, List.drop_left]
  fits_of_read := by
    intro bts bytes rest read
    obtain ⟨⟨length, last⟩, headerRead, read⟩ := Option.bind_eq_some_iff.mp read
    obtain ⟨long, read⟩ := Option.ite_none_right_eq_some.mp read
    cases read
    rw [List.length_take, Nat.min_eq_left long]
    exact header.fits_of_read headerRead
  shortest := by
    intro bts bytes rest read
    obtain ⟨⟨length, last⟩, headerRead, read⟩ := Option.bind_eq_some_iff.mp read
    obtain ⟨long, read⟩ := Option.ite_none_right_eq_some.mp read
    cases read
    have headerShortest := header.shortest headerRead
    simp only [List.length_append, List.length_take, List.length_drop, Nat.min_eq_left long]
    omega

/-!
## Repeated and optional values
-/

def readMany (codec : Codec α) : Nat → List UInt8 → Option (List α × List UInt8)
  | 0, bts => some ([], bts)
  | count + 1, bts => do
      let (value, bts) ← codec.read bts
      let (values, bts) ← codec.readMany count bts
      return (value :: values, bts)

theorem readMany_append (codec : Codec α) (rest : List UInt8)
    (fits : ∀ value ∈ values, codec.Fits value) :
    codec.readMany values.length (values.flatMap codec.append ++ rest) = some (values, rest) := by
  induction values with
  | nil => rfl
  | cons value values ih =>
    have tail := ih fun other member => fits other (mem_cons_of_mem _ member)
    have head := codec.read_append (values.flatMap codec.append ++ rest) (fits value mem_cons_self)
    simp [readMany, append_assoc, head, tail]

theorem readMany_spec (codec : Codec α) {count : Nat}
    (read : codec.readMany count bts = some (values, rest)) :
    values.length = count ∧ (∀ value ∈ values, codec.Fits value) ∧
      (values.flatMap codec.append).length + rest.length ≤ bts.length := by
  induction count generalizing bts values with
  | zero =>
    cases read
    exact ⟨rfl, nofun, Nat.le_of_eq (Nat.zero_add _)⟩
  | succ count ih =>
    obtain ⟨⟨value, middle⟩, valueRead, read⟩ := bind_eq_some_iff.mp read
    obtain ⟨⟨tail, last⟩, tailRead, read⟩ := bind_eq_some_iff.mp read
    cases read
    obtain ⟨length, fits, shortest⟩ := ih tailRead
    have valueShortest := codec.shortest valueRead
    refine ⟨congrArg (· + 1) length, ?_, ?_⟩
    · rintro other (_ | ⟨_, member⟩)
      · exact codec.fits_of_read valueRead
      · exact fits other member
    · rw [flatMap_cons, length_append]
      omega

/-- A slice: its length as 32 bits, which longer slices exceed, then the elements. -/
def slice (header : Codec UInt32) (fits : ∀ count, header.Fits count) (codec : Codec α) :
    Codec (List α) where
  append values := header.append (.ofNat values.length) ++ values.flatMap codec.append
  read bts := do
    let (count, bts) ← header.read bts
    codec.readMany count.toNat bts
  Fits values := values.length < 2 ^ 32 ∧ ∀ value ∈ values, codec.Fits value
  read_append := by
    rintro values rest ⟨short, valuesFit⟩
    have count : (UInt32.ofNat values.length).toNat = values.length := UInt32.toNat_ofNat_of_lt' short
    simp only [List.append_assoc, header.read_append _ (fits _), Option.bind_eq_bind,
      Option.bind_some, count, codec.readMany_append _ valuesFit]
  fits_of_read := by
    intro bts values rest read
    obtain ⟨⟨count, last⟩, _, read⟩ := Option.bind_eq_some_iff.mp read
    obtain ⟨length, valuesFit, _⟩ := codec.readMany_spec read
    exact ⟨length ▸ count.toNat_lt, valuesFit⟩
  shortest := by
    intro bts values rest read
    obtain ⟨⟨count, last⟩, headerRead, read⟩ := Option.bind_eq_some_iff.mp read
    obtain ⟨length, _, valuesShortest⟩ := codec.readMany_spec read
    have headerShortest := header.shortest headerRead
    have isCount : UInt32.ofNat values.length = count := by rw [length, UInt32.ofNat_toNat]
    rw [isCount, List.length_append]
    omega

/-- A pointer: the mark of a nil pointer, or the value. -/
def pointer (mark : Codec Unit) (marked : List UInt8 → Bool) (codec : Codec α)
    (mark_fits : mark.Fits ()) (marked_mark : ∀ rest, marked (mark.append () ++ rest) = true)
    (marked_value : ∀ value rest, marked (codec.append value ++ rest) = false) :
    Codec (Option α) where
  append
    | none => mark.append ()
    | some value => codec.append value
  read bts :=
    if marked bts then (mark.read bts).map fun read => (none, read.2)
    else (codec.read bts).map fun read => (some read.1, read.2)
  Fits value := ∀ inner ∈ value, codec.Fits inner
  read_append := by
    intro value rest fits
    cases value with
    | none => simp [marked_mark, mark.read_append _ mark_fits]
    | some inner => simp [marked_value, codec.read_append _ (fits inner rfl)]
  fits_of_read := by
    intro bts value rest read
    split at read
    · obtain ⟨_, _, read⟩ := Option.map_eq_some_iff.mp read
      cases read
      exact nofun
    · obtain ⟨⟨inner, last⟩, innerRead, read⟩ := Option.map_eq_some_iff.mp read
      cases read
      rintro _ ⟨⟩
      exact codec.fits_of_read innerRead
  shortest := by
    intro bts value rest read
    split at read
    · obtain ⟨_, markRead, read⟩ := Option.map_eq_some_iff.mp read
      cases read
      exact mark.shortest markRead
    · obtain ⟨⟨inner, last⟩, innerRead, read⟩ := Option.map_eq_some_iff.mp read
      cases read
      exact codec.shortest innerRead

end Codec
