import AnnchainOG.Lib.Bytes
import AnnchainOG.Lib.Codec

/-!
# MessagePack primitives

`Msgp` is what a program that uses the primitives may rely on; `Msgp.format` is the format itself.
-/

structure Msgp where
  uint8 : Codec UInt8
  uint16 : Codec UInt16
  uint64 : Codec UInt64
  int32 : Codec Int32
  bool : Codec Bool
  bytes : Codec (List UInt8)
  string : Codec (List UInt8)
  arrayHeader : Codec UInt32
  nil : Codec Unit
  isNil : List UInt8 → Bool
  uint8_fits : ∀ value, uint8.Fits value
  uint16_fits : ∀ value, uint16.Fits value
  uint64_fits : ∀ value, uint64.Fits value
  int32_fits : ∀ value, int32.Fits value
  bool_fits : ∀ value, bool.Fits value
  arrayHeader_fits : ∀ count, arrayHeader.Fits count
  nil_fits : nil.Fits ()
  bytes_fits : ∀ {value : List UInt8}, value.length < 256 → bytes.Fits value
  /-- Small numbers are a byte of their own, larger bytes follow a lead byte. -/
  uint8_small : ∀ {value : UInt8}, value < 0x80 → uint8.append value = [value]
  uint8_large : ∀ {value : UInt8}, 0x80 ≤ value → uint8.append value = [0xcc, value]
  uint16_le : ∀ {small large : UInt16}, small ≤ large →
    (uint16.append small).length ≤ (uint16.append large).length
  bool_length : ∀ value, (bool.append value).length = 1
  bytes_le : ∀ {small large : List UInt8}, small.length ≤ large.length → bytes.Fits large →
    bytes.Fits small ∧ (bytes.append small).length ≤ (bytes.append large).length
  /-- The header of a short array is one byte. -/
  fixarray : ∀ {count : UInt32}, count < 16 →
    arrayHeader.append count = [0x90 + count.toUInt8]
  isNil_nil : ∀ rest, isNil (nil.append () ++ rest) = true
  isNil_fixarray : ∀ {count : UInt32} (rest : List UInt8), count < 16 →
    isNil (arrayHeader.append count ++ rest) = false

/-!
## Numbers behind a lead byte
-/

/-- Numbers below `count` are the lead bytes from `base` on; larger ones follow a lead byte of
`forms`. -/
structure Leads where
  base : Nat
  count : Nat
  forms : List (UInt8 × Nat)
  inByte : base + count ≤ 256
  outside : ∀ form ∈ forms, form.1.toNat < base ∨ base + count ≤ form.1.toNat
  ordered : forms.Pairwise fun first second => first.1 ≠ second.1 ∧ first.2 ≤ second.2

namespace Leads

open List

variable {value : Nat} {forms : List (UInt8 × Nat)} {bts rest : List UInt8}
variable {width : Nat}

def takeNumber (width : Nat) (bts : List UInt8) : Option (Nat × List UInt8) :=
  if width ≤ bts.length then some (ofBigEndian (bts.take width), bts.drop width) else none

def appendForm : List (UInt8 × Nat) → Nat → List UInt8
  | [], _ => []
  | (lead, width) :: forms, value =>
    if value < 256 ^ width then lead :: bigEndian width value else appendForm forms value

def readForm : List (UInt8 × Nat) → UInt8 → List UInt8 → Option (Nat × List UInt8)
  | [], _, _ => none
  | (lead, width) :: forms, found, bts =>
    if found = lead then takeNumber width bts else readForm forms found bts

theorem takeNumber_bigEndian (bound : value < 256 ^ width)
    (rest : List UInt8) : takeNumber width (bigEndian width value ++ rest) = some
    (value, rest) := by
  have long : width ≤ (bigEndian width value ++ rest).length := by
    rw [length_append, length_bigEndian]
    omega
  unfold takeNumber
  rw [if_pos long, take_left' (length_bigEndian _ _), drop_left' (length_bigEndian _ _),
    ofBigEndian_bigEndian, Nat.mod_eq_of_lt bound]

theorem takeNumber_spec (read : takeNumber width bts = some (value, rest)) :
    value < 256 ^ width ∧ bts.length = width + rest.length := by
  obtain ⟨long, read⟩ := Option.ite_none_right_eq_some.mp read
  cases read
  have bound := ofBigEndian_lt (bts.take width)
  rw [length_take, Nat.min_eq_left long] at bound
  rw [length_drop]
  exact ⟨bound, by omega⟩

theorem readForm_append {lead : UInt8}
    {number : List UInt8} (appended : appendForm forms value = lead :: number)
    (ordered : forms.Pairwise fun first second => first.1 ≠ second.1 ∧ first.2 ≤ second.2)
    (rest : List UInt8) :
    lead ∈ forms.map Prod.fst ∧ readForm forms lead (number ++ rest) = some (value, rest) := by
  induction forms with
  | nil => cases appended
  | cons form forms ih =>
    obtain ⟨formLead, width⟩ := form
    simp only [appendForm] at appended
    split at appended
    · next bound =>
        cases appended
        exact ⟨mem_cons_self, by
          simp only [readForm, if_true, takeNumber_bigEndian bound]⟩
    · obtain ⟨later, tailOrdered⟩ := pairwise_cons.mp ordered
      obtain ⟨member, read⟩ := ih appended tailOrdered
      obtain ⟨other, inForms, isLead⟩ := mem_map.mp member
      have different : lead ≠ formLead := by
        rw [← isLead]
        exact (later other inForms).1.symm
      exact ⟨mem_cons_of_mem _ member, by simp only [readForm, if_neg different, read]⟩

theorem appendForm_shortest {form : UInt8 × Nat}
    (member : form ∈ forms) (bound : value < 256 ^ form.2)
    (ordered : forms.Pairwise fun first second => first.1 ≠ second.1 ∧ first.2 ≤ second.2) :
    appendForm forms value ≠ [] ∧ (appendForm forms value).length ≤ 1 + form.2 := by
  induction forms with
  | nil => cases member
  | cons first forms ih =>
    obtain ⟨later, tailOrdered⟩ := pairwise_cons.mp ordered
    simp only [appendForm]
    rcases mem_cons.mp member with rfl | inForms
    · rw [if_pos bound]
      exact ⟨cons_ne_nil _ _, by simp [Nat.add_comm]⟩
    split
    · have shorter := (later form inForms).2
      exact ⟨cons_ne_nil _ _, by
        rw [length_cons, length_bigEndian]
        omega⟩
    · exact ih inForms tailOrdered

theorem appendForm_spec (fits : appendForm forms value ≠ []) :
    ∃ form ∈ forms, value < 256 ^ form.2 ∧ (appendForm forms value).length = 1 + form.2 := by
  induction forms with
  | nil => exact absurd rfl fits
  | cons form forms ih =>
    obtain ⟨lead, width⟩ := form
    simp only [appendForm] at fits ⊢
    split
    · next bound => exact ⟨(lead, width), mem_cons_self, bound, by simp [Nat.add_comm]⟩
    next tooLarge =>
      rw [if_neg tooLarge] at fits
      obtain ⟨other, inForms, spec⟩ := ih fits
      exact ⟨other, mem_cons_of_mem _ inForms, spec⟩

theorem readForm_spec {found : UInt8} (read : readForm forms found bts = some (value, rest)) :
    ∃ form ∈ forms, value < 256 ^ form.2 ∧ bts.length = form.2 + rest.length := by
  induction forms with
  | nil => cases read
  | cons form forms ih =>
    simp only [readForm] at read
    split at read
    · exact ⟨form, mem_cons_self, takeNumber_spec read⟩
    · obtain ⟨other, inForms, spec⟩ := ih read
      exact ⟨other, mem_cons_of_mem _ inForms, spec⟩

def append (leads : Leads) (value : Nat) : List UInt8 :=
  if value < leads.count then [.ofNat (leads.base + value)] else appendForm leads.forms value

def read (leads : Leads) : List UInt8 → Option (Nat × List UInt8)
  | [] => none
  | lead :: bts =>
    if leads.base ≤ lead.toNat ∧ lead.toNat < leads.base + leads.count then
      some (lead.toNat - leads.base, bts)
    else readForm leads.forms lead bts

variable (leads : Leads)

theorem read_append (rest : List UInt8) (fits : leads.append value ≠ []) :
    leads.read (leads.append value ++ rest) = some (value, rest) := by
  have inByte := leads.inByte
  unfold append at fits ⊢
  split
  · next small =>
      have lead : (UInt8.ofNat (leads.base + value)).toNat = leads.base + value :=
        UInt8.toNat_ofNat_of_lt' (by
          have : leads.base + value < 256 := by omega
          exact this)
      have inRange : leads.base ≤ leads.base + value ∧
          leads.base + value < leads.base + leads.count := by omega
      simp only [read, cons_append, nil_append, lead, if_pos inRange,
        Nat.add_sub_cancel_left]
  · next large =>
      rw [if_neg large] at fits
      obtain ⟨lead, number, appended⟩ := exists_cons_of_ne_nil fits
      obtain ⟨member, isRead⟩ := readForm_append appended leads.ordered rest
      obtain ⟨form, inForms, isLead⟩ := mem_map.mp member
      have notInRange : ¬ (leads.base ≤ lead.toNat ∧ lead.toNat < leads.base + leads.count) := by
        have outside := leads.outside form inForms
        rw [isLead] at outside
        omega
      simp only [appended, cons_append, read, if_neg notInRange, isRead]

theorem read_spec (read : leads.read bts = some (value, rest)) :
    leads.append value ≠ [] ∧ (leads.append value).length + rest.length ≤ bts.length := by
  cases bts with
  | nil => cases read
  | cons lead bts =>
    simp only [Leads.read] at read
    unfold append
    split at read
    · next inRange =>
        cases read
        have small : lead.toNat - leads.base < leads.count := by omega
        rw [if_pos small]
        exact ⟨cons_ne_nil _ _, by simp [Nat.add_comm]⟩
    · obtain ⟨form, inForms, bound, length⟩ := readForm_spec read
      obtain ⟨nonempty, shortest⟩ := appendForm_shortest inForms bound leads.ordered
      split
      · refine ⟨cons_ne_nil _ _, ?_⟩
        simp only [length_cons, length_nil]
        omega
      · refine ⟨nonempty, ?_⟩
        rw [length_cons]
        omega

theorem append_mono {small large : Nat} (le : small ≤ large) (fits : leads.append large ≠ []) :
    leads.append small ≠ [] ∧ (leads.append small).length ≤ (leads.append large).length := by
  have positive := length_pos_iff.mpr fits
  unfold append at fits positive ⊢
  split
  · exact ⟨cons_ne_nil _ _, positive⟩
  next smallNotShort =>
    have largeNotShort : ¬ large < leads.count := by omega
    rw [if_neg largeNotShort] at fits ⊢
    obtain ⟨form, inForms, bound, length⟩ := appendForm_spec fits
    obtain ⟨nonempty, shortest⟩ :=
      appendForm_shortest inForms (Nat.lt_of_le_of_lt le bound) leads.ordered
    exact ⟨nonempty, by omega⟩

def codec (leads : Leads) : Codec Nat where
  append := leads.append
  read := leads.read
  Fits value := leads.append value ≠ []
  read_append := leads.read_append
  fits_of_read read := (leads.read_spec read).1
  shortest read := (leads.read_spec read).2

theorem fits_of_lt (form : UInt8 × Nat) (member : form ∈ leads.forms)
    (bound : value < 256 ^ form.2) : leads.codec.Fits value := by
  show leads.append value ≠ []
  unfold append
  split
  · exact cons_ne_nil _ _
  · exact (appendForm_shortest member bound leads.ordered).1

end Leads

def Codec.word {ω : Type} (codec : Codec Nat) (limit : Nat) (ofNat : Nat → ω) (toNat : ω → Nat)
    (inverse : ∀ {number word}, number < limit → (ofNat number = word ↔ toNat word = number))
    (toNat_lt : ∀ word, toNat word < limit) : Codec ω :=
  codec.via (fun number => if number < limit then some (ofNat number) else none) toNat
    (fun _ => True) (by
      intro number word
      rw [Option.ite_none_right_eq_some, Option.some.injEq, and_true]
      constructor
      · rintro ⟨bound, built⟩
        exact (inverse bound).mp built
      · rintro rfl
        exact ⟨toNat_lt word, (inverse (toNat_lt word)).mpr rfl⟩)

namespace Msgp

open List

variable {width : Nat}
variable {count : UInt32}

/-!
## The format
-/

def uintLeads : Leads where
  base := 0
  count := 0x80
  forms := [(0xcc, 1), (0xcd, 2), (0xce, 4), (0xcf, 8)]
  inByte := by decide
  outside := by decide
  ordered := by decide

def binLeads : Leads where
  base := 0
  count := 0
  forms := [(0xc4, 1), (0xc5, 2), (0xc6, 4)]
  inByte := by decide
  outside := by decide
  ordered := by decide

def strLeads : Leads where
  base := 0xa0
  count := 32
  forms := [(0xd9, 1), (0xda, 2), (0xdb, 4)]
  inByte := by decide
  outside := by decide
  ordered := by decide

def arrayLeads : Leads where
  base := 0x90
  count := 16
  forms := [(0xdc, 2), (0xdd, 4)]
  inByte := by decide
  outside := by decide
  ordered := by decide

def formatUint8 : Codec UInt8 :=
  uintLeads.codec.word (2 ^ 8) .ofNat UInt8.toNat
    (fun bound => by rw [← UInt8.toNat_inj, UInt8.toNat_ofNat_of_lt' bound, eq_comm]) UInt8.toNat_lt

def formatUint16 : Codec UInt16 :=
  uintLeads.codec.word (2 ^ 16) .ofNat UInt16.toNat
    (fun bound => by rw [← UInt16.toNat_inj, UInt16.toNat_ofNat_of_lt' bound, eq_comm])
    UInt16.toNat_lt

def formatUint64 : Codec UInt64 :=
  uintLeads.codec.word (2 ^ 64) .ofNat UInt64.toNat
    (fun bound => by rw [← UInt64.toNat_inj, UInt64.toNat_ofNat_of_lt' bound, eq_comm])
    UInt64.toNat_lt

def formatArrayHeader : Codec UInt32 :=
  arrayLeads.codec.word (2 ^ 32) .ofNat UInt32.toNat
    (fun bound => by rw [← UInt32.toNat_inj, UInt32.toNat_ofNat_of_lt' bound, eq_comm])
    UInt32.toNat_lt

def formatBool : Codec Bool where
  append value := [if value then 0xc3 else 0xc2]
  read
    | 0xc2 :: bts => some (false, bts)
    | 0xc3 :: bts => some (true, bts)
    | _ => none
  Fits _ := True
  read_append := by
    intro value rest _
    cases value <;> rfl
  fits_of_read _ := trivial
  shortest := by
    intro bts value rest read
    split at read <;> cases read <;> simp [Nat.add_comm]

def formatNil : Codec Unit where
  append _ := [0xc0]
  read
    | 0xc0 :: bts => some ((), bts)
    | _ => none
  Fits _ := True
  read_append _ _ := rfl
  fits_of_read _ := trivial
  shortest := by
    intro bts value rest read
    split at read <;> cases read
    simp [Nat.add_comm]

/-!
## Signed numbers
-/

/-- The number that so many bytes of two's complement write. -/
def signed (width number : Nat) : Int :=
  if 2 * number < 256 ^ width then number else number - (256 ^ width : Nat)

def twosComplement (width : Nat) (value : Int) : Nat :=
  (value % (256 ^ width : Nat)).toNat

def InWidth (width : Nat) (value : Int) : Prop :=
  -(256 ^ width : Nat) ≤ 2 * value ∧ 2 * value < (256 ^ width : Nat)

theorem twosComplement_lt (width : Nat)
    (value : Int) : twosComplement width value < 256 ^ width := by
  unfold twosComplement
  omega

variable {value : Int} {bts rest : List UInt8}

theorem signed_twosComplement (inWidth : InWidth width value) :
    signed width (twosComplement width value) = value := by
  obtain ⟨above, below⟩ := inWidth
  unfold signed twosComplement
  rcases Int.lt_or_le value 0 with negative | nonnegative
  · have shifted : value % (256 ^ width : Nat) = value + (256 ^ width : Nat) := by
      rw [← Int.add_emod_right, Int.emod_eq_of_lt] <;> omega
    split <;> omega
  · rw [Int.emod_eq_of_lt nonnegative (by omega)]
    split <;> omega

theorem inWidth_signed {number : Nat} (bound : number < 256 ^ width) :
    InWidth width (signed width number) := by
  unfold InWidth signed
  split <;> omega

def readSigned (width : Nat) (bts : List UInt8) : Option (Int × List UInt8) :=
  (Leads.takeNumber width bts).map fun read => (signed width read.1, read.2)

theorem readSigned_append (inWidth : InWidth width value) (rest : List UInt8) :
    readSigned width (bigEndian width (twosComplement width value) ++ rest) = some (value, rest) := by
  rw [readSigned, Leads.takeNumber_bigEndian (twosComplement_lt width value), Option.map_some,
    signed_twosComplement inWidth]

theorem readSigned_spec (read : readSigned width bts = some (value, rest)) :
    InWidth width value ∧ bts.length = width + rest.length := by
  obtain ⟨⟨number, last⟩, numberRead, isRead⟩ := Option.map_eq_some_iff.mp read
  cases isRead
  obtain ⟨bound, length⟩ := Leads.takeNumber_spec numberRead
  exact ⟨inWidth_signed bound, length⟩

/-- The numbers from -32 to 127 are a byte of their own. -/
def appendInt (value : Int) : List UInt8 :=
  if -32 ≤ value ∧ value < 128 then [.ofNat (twosComplement 1 value)]
  else if -128 ≤ value ∧ value < 128 then 0xd0 :: bigEndian 1 (twosComplement 1 value)
  else if -32768 ≤ value ∧ value < 32768 then 0xd1 :: bigEndian 2 (twosComplement 2 value)
  else 0xd2 :: bigEndian 4 (twosComplement 4 value)

def readInt : List UInt8 → Option (Int × List UInt8)
  | [] => none
  | lead :: bts =>
    if lead.toNat < 0x80 ∨ 0xe0 ≤ lead.toNat then some (signed 1 lead.toNat, bts)
    else if lead = 0xd0 then readSigned 1 bts
    else if lead = 0xd1 then readSigned 2 bts
    else if lead = 0xd2 then readSigned 4 bts
    else none

theorem readInt_append (inWidth : InWidth 4 value) (rest : List UInt8) :
    readInt (appendInt value ++ rest) = some (value, rest) := by
  unfold appendInt
  split
  · next short =>
      have shortWidth : InWidth 1 value := by
        unfold InWidth
        omega
      have lead : (UInt8.ofNat (twosComplement 1 value)).toNat = twosComplement 1 value :=
        UInt8.toNat_ofNat_of_lt' (twosComplement_lt 1 value)
      have ownByte : twosComplement 1 value < 0x80 ∨ 0xe0 ≤ twosComplement 1 value := by
        unfold twosComplement
        omega
      simp only [cons_append, nil_append, readInt, lead, if_pos ownByte,
        signed_twosComplement shortWidth]
  · split
    · next byte =>
        have byteWidth : InWidth 1 value := by
          unfold InWidth
          omega
        exact readSigned_append byteWidth rest
    · split
      · next small =>
          have smallWidth : InWidth 2 value := by
            unfold InWidth
            omega
          exact readSigned_append smallWidth rest
      · exact readSigned_append inWidth rest

theorem readInt_spec (read : readInt bts = some (value, rest)) :
    InWidth 4 value ∧ (appendInt value).length + rest.length ≤ bts.length := by
  cases bts with
  | nil => cases read
  | cons lead bts =>
    have leadBound := lead.toNat_lt
    simp only [readInt] at read
    split at read
    · next ownByte =>
        cases read
        have short : -32 ≤ signed 1 lead.toNat ∧ signed 1 lead.toNat < 128 := by
          unfold signed
          split <;> omega
        refine ⟨?_, ?_⟩
        · unfold InWidth
          omega
        · simp [appendInt, if_pos short, Nat.add_comm]
    · have widths : ∀ width, (width = 1 ∨ width = 2 ∨ width = 4) →
          readSigned width bts = some (value, rest) →
          InWidth 4 value ∧ (appendInt value).length + rest.length ≤ bts.length + 1 := by
        intro width isWidth isRead
        obtain ⟨inWidth, length⟩ := readSigned_spec isRead
        unfold InWidth at inWidth ⊢
        unfold appendInt
        rcases isWidth with rfl | rfl | rfl
        all_goals
          refine ⟨by omega, ?_⟩
          split_ifs <;> simp only [length_cons, length_nil, length_bigEndian] <;> omega
      split_ifs at read
      · exact widths 1 (.inl rfl) read
      · exact widths 2 (.inr (.inl rfl)) read
      · exact widths 4 (.inr (.inr rfl)) read

def formatInt : Codec Int where
  append := appendInt
  read := readInt
  Fits := InWidth 4
  read_append rest fits := readInt_append fits rest
  fits_of_read read := (readInt_spec read).1
  shortest read := (readInt_spec read).2

theorem inWidth_toInt (word : Int32) : InWidth 4 word.toInt := by
  have above := word.le_toInt
  have below := word.toInt_lt
  unfold InWidth
  omega

def formatInt32 : Codec Int32 :=
  formatInt.via (fun value => if -2 ^ 31 ≤ value ∧ value < 2 ^ 31 then some (.ofInt value) else none)
    Int32.toInt (fun _ => True) (by
      intro value word
      rw [Option.ite_none_right_eq_some, Option.some.injEq, and_true]
      constructor
      · rintro ⟨⟨above, below⟩, rfl⟩
        exact Int32.toInt_ofInt_of_le above below
      · rintro rfl
        exact ⟨⟨word.le_toInt, word.toInt_lt⟩, Int32.ofInt_toInt word⟩)

theorem formatUint8_small {value : UInt8} (small : value < 0x80) :
    formatUint8.append value = [value] := by
  have short : value.toNat < uintLeads.count := small
  show uintLeads.append value.toNat = [value]
  rw [Leads.append, if_pos short]
  simp [uintLeads]

theorem formatUint8_large {value : UInt8} (large : 0x80 ≤ value) :
    formatUint8.append value = [0xcc, value] := by
  have long : ¬ value.toNat < uintLeads.count := Nat.not_lt.mpr large
  have bound : value.toNat < 256 ^ 1 := value.toNat_lt
  show uintLeads.append value.toNat = [0xcc, value]
  rw [Leads.append, if_neg long, uintLeads, Leads.appendForm, if_pos bound]
  simp [bigEndian]

theorem formatUint16_fits (value : UInt16) : formatUint16.Fits value :=
  ⟨uintLeads.fits_of_lt (0xcd, 2) (by decide) value.toNat_lt, trivial⟩

theorem toNat_fixarray (short : count < 16) :
    (0x90 + count.toUInt8).toNat = 0x90 + count.toNat := by
  have bound : count.toNat < 16 := short
  show (144 + count.toNat % 256) % 256 = 144 + count.toNat
  omega

theorem formatArrayHeader_short (short : count < 16) :
    formatArrayHeader.append count = [0x90 + count.toUInt8] := by
  have bound : count.toNat < 16 := short
  show arrayLeads.append count.toNat = [0x90 + count.toUInt8]
  rw [Leads.append, if_pos (show count.toNat < arrayLeads.count from bound)]
  congr 1
  have inByte : arrayLeads.base + count.toNat < 256 := by
    show 144 + count.toNat < 256
    omega
  rw [← UInt8.toNat_inj, UInt8.toNat_ofNat_of_lt' inByte, toNat_fixarray short]
  rfl

def format : Msgp where
  uint8 := formatUint8
  uint16 := formatUint16
  uint64 := formatUint64
  int32 := formatInt32
  bool := formatBool
  bytes := binLeads.codec.sized
  string := strLeads.codec.sized
  arrayHeader := formatArrayHeader
  nil := formatNil
  isNil bts := bts.head? = some 0xc0
  uint8_fits value := ⟨uintLeads.fits_of_lt (0xcc, 1) (by decide) value.toNat_lt, trivial⟩
  uint16_fits := formatUint16_fits
  uint64_fits value := ⟨uintLeads.fits_of_lt (0xcf, 8) (by decide) value.toNat_lt, trivial⟩
  int32_fits value := ⟨inWidth_toInt value, trivial⟩
  bool_fits _ := trivial
  arrayHeader_fits count := ⟨arrayLeads.fits_of_lt (0xdd, 4) (by decide) count.toNat_lt, trivial⟩
  nil_fits := trivial
  bytes_fits short := binLeads.fits_of_lt (0xc4, 1) (by decide) short
  uint8_small := formatUint8_small
  uint8_large := formatUint8_large
  uint16_le le := (uintLeads.append_mono le (formatUint16_fits _).1).2
  bool_length _ := rfl
  bytes_le le fits := by
    obtain ⟨smallFits, shorter⟩ := binLeads.append_mono le fits
    refine ⟨smallFits, ?_⟩
    show (binLeads.append _ ++ _).length ≤ (binLeads.append _ ++ _).length
    simp only [List.length_append]
    omega
  fixarray := formatArrayHeader_short
  isNil_nil _ := by simp [formatNil]
  isNil_fixarray := by
    intro count rest short
    rw [formatArrayHeader_short short]
    have notNil : 0x90 + count.toUInt8 ≠ 0xc0 := by
      rw [ne_eq, ← UInt8.toNat_inj, toNat_fixarray short]
      have bound : count.toNat < 16 := short
      show 144 + count.toNat ≠ 192
      omega
    simp [notNil]

/-!
## Numbers of 64 bits
-/

def appendLong (value : Int) : List UInt8 :=
  if -2 ^ 31 ≤ value ∧ value < 2 ^ 31 then appendInt value
  else 0xd3 :: bigEndian 8 (twosComplement 8 value)

def readLong : List UInt8 → Option (Int × List UInt8)
  | [] => none
  | lead :: bts => if lead = 0xd3 then readSigned 8 bts else readInt (lead :: bts)

theorem readLong_append (inWidth : InWidth 8 value) (rest : List UInt8) :
    readLong (appendLong value ++ rest) = some (value, rest) := by
  unfold appendLong
  split
  · next short =>
      have shortWidth : InWidth 4 value := by
        unfold InWidth
        omega
      have read := readInt_append shortWidth rest
      cases appended : appendInt value ++ rest with
      | nil =>
        rw [appended] at read
        cases read
      | cons lead bts =>
        rw [appended] at read
        have otherLead : lead ≠ 0xd3 := by
          rintro rfl
          cases read
        rw [readLong, if_neg otherLead]
        exact read
  · exact readSigned_append inWidth rest

theorem readLong_spec (read : readLong bts = some (value, rest)) :
    InWidth 8 value ∧ (appendLong value).length + rest.length ≤ bts.length := by
  cases bts with
  | nil => cases read
  | cons lead bts =>
    rw [readLong] at read
    unfold appendLong
    split at read
    · obtain ⟨inWidth, length⟩ := readSigned_spec read
      refine ⟨inWidth, ?_⟩
      have short : (appendInt value).length ≤ 5 := by
        unfold appendInt
        split_ifs <;> simp
      split
      · rw [length_cons]
        omega
      · rw [length_cons, length_cons, length_bigEndian]
        omega
    · obtain ⟨inWidth, shortest⟩ := readInt_spec read
      unfold InWidth at inWidth ⊢
      refine ⟨by omega, ?_⟩
      rw [if_pos (by omega)]
      exact shortest

def formatLong : Codec Int where
  append := appendLong
  read := readLong
  Fits := InWidth 8
  read_append rest fits := readLong_append fits rest
  fits_of_read read := (readLong_spec read).1
  shortest read := (readLong_spec read).2

def formatInt64 : Codec Int64 :=
  formatLong.via (fun value => if -2 ^ 63 ≤ value ∧ value < 2 ^ 63 then some (.ofInt value) else none)
    Int64.toInt (fun _ => True) (by
      intro value word
      rw [Option.ite_none_right_eq_some, Option.some.injEq, and_true]
      constructor
      · rintro ⟨⟨above, below⟩, rfl⟩
        exact Int64.toInt_ofInt_of_le above below
      · rintro rfl
        exact ⟨⟨word.le_toInt, word.toInt_lt⟩, Int64.ofInt_toInt word⟩)

theorem formatInt64_fits (value : Int64) : formatInt64.Fits value := by
  have above := value.le_toInt
  have below := value.toInt_lt
  refine ⟨?_, trivial⟩
  show InWidth 8 value.toInt
  unfold InWidth
  omega

theorem readArrayHeader_bytes {value : List UInt8} (fits : binLeads.codec.sized.Fits value)
    (rest : List UInt8) :
    formatArrayHeader.read (binLeads.codec.sized.append value ++ rest) = none := by
  have noHeader : ∀ bts : List UInt8,
      arrayLeads.read (0xc4 :: bts) = none ∧ arrayLeads.read (0xc5 :: bts) = none ∧
        arrayLeads.read (0xc6 :: bts) = none := fun _ => ⟨rfl, rfl, rfl⟩
  have lost : arrayLeads.read (binLeads.append value.length ++ (value ++ rest)) = none := by
    have nonempty : binLeads.append value.length ≠ [] := fits
    simp only [Leads.append, binLeads, Nat.not_lt_zero, if_false, Leads.appendForm] at nonempty ⊢
    split_ifs at nonempty ⊢
    · exact (noHeader _).1
    · exact (noHeader _).2.1
    · exact (noHeader _).2.2
    · exact absurd rfl nonempty
  show (arrayLeads.read ((binLeads.append value.length ++ value) ++ rest)).bind _ = none
  rw [append_assoc, lost, Option.bind_none]

end Msgp

/-- The primitives with the numbers of 64 bits that stored records hold. -/
structure Msgp64 extends Msgp where
  int64 : Codec Int64
  int64_fits : ∀ value, int64.Fits value
  arrayHeader_bytes : ∀ {value : List UInt8}, bytes.Fits value → ∀ rest,
    arrayHeader.read (bytes.append value ++ rest) = none

def Msgp64.format : Msgp64 where
  toMsgp := .format
  int64 := Msgp.formatInt64
  int64_fits := Msgp.formatInt64_fits
  arrayHeader_bytes := Msgp.readArrayHeader_bytes
