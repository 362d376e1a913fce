import AnnchainOG.Lib.Bytes
import AnnchainOG.State.Object

/-!
# The bytes of a balance set and of an account

`MarshalMsg` appends the entries of a balance set in the order in which the range over the Go map
visits them.
-/

namespace AnnchainOG

open List

variable {fuel value : Nat}

/-- `ByteInt32`: the four bytes, lowest first. -/
def byteInt32 (value : Int32) : Bytes :=
  let bits := value.toBitVec.toNat
  [.ofNat bits, .ofNat (bits / 256), .ofNat (bits / 65536), .ofNat (bits / 16777216)]

private def littleBytes : Nat → Nat → Bytes
  | 0, _ => []
  | fuel + 1, value => if value = 0 then [] else .ofNat value :: littleBytes fuel (value / 256)

/-- `big.Int.Bytes`: the absolute value, highest byte first, without leading zeros. -/
def bigBytes (value : Int) : Bytes :=
  (littleBytes value.natAbs value.natAbs).reverse

private theorem ofBigEndian_littleBytes (enough : value ≤ fuel) :
    ofBigEndian (littleBytes fuel value).reverse = value := by
  induction fuel generalizing value with
  | zero =>
    obtain rfl : value = 0 := Nat.le_zero.mp enough
    rfl
  | succ fuel ih =>
    simp only [littleBytes]
    split
    · next isZero => exact isZero.symm
    have shorter : value / 256 ≤ fuel := by omega
    simp only [reverse_cons, ofBigEndian_append, ih shorter, ofBigEndian,
      length_singleton, length_nil, UInt8.toNat_ofNat']
    omega

/-- `SetBytes` reads the absolute value back. -/
theorem ofBigEndian_bigBytes (value : Int) : ofBigEndian (bigBytes value) = value.natAbs :=
  ofBigEndian_littleBytes (Nat.le_refl _)

theorem bigBytes_eq_iff {left right : Int} :
    bigBytes left = bigBytes right ↔ left.natAbs = right.natAbs := by
  constructor
  · intro same
    rw [← ofBigEndian_bigBytes left, same, ofBigEndian_bigBytes]
  · intro same
    unfold bigBytes
    rw [same]

private theorem littleBytes_length_le {width : Nat} (bound : value < 256 ^ width) :
    (littleBytes fuel value).length ≤ width := by
  induction fuel generalizing value width with
  | zero => exact Nat.zero_le width
  | succ fuel ih =>
    simp only [littleBytes]
    split
    · exact Nat.zero_le width
    cases width with
    | zero => omega
    | succ width =>
      have shorter : value / 256 < 256 ^ width := Nat.div_lt_of_lt_mul (Nat.pow_succ' ▸ bound)
      exact Nat.succ_le_succ (ih shorter)

theorem bigBytes_length_le {value : Int} {bytes : Bytes}
    (written : ofBigEndian bytes = value.natAbs) : (bigBytes value).length ≤ bytes.length := by
  rw [bigBytes, length_reverse]
  exact littleBytes_length_le (written ▸ ofBigEndian_lt bytes)

def msgpBytes (bytes : Bytes) : Bytes :=
  let length := bytes.length
  if length < 256 then 0xc4 :: .ofNat length :: bytes
  else if length < 65536 then 0xc5 :: .ofNat (length / 256) :: .ofNat length :: bytes
  else 0xc6 :: .ofNat (length / 16777216) :: .ofNat (length / 65536) :: .ofNat (length / 256) ::
    .ofNat length :: bytes

def msgpBool (value : Bool) : Bytes :=
  if value then [0xc3] else [0xc2]

def marshalBigInt (value : Int) : Bytes :=
  0x91 :: (msgpBool (value > 0) ++ msgpBytes (bigBytes value))

def marshalEntry (entry : TokenId × Int) : Bytes :=
  byteInt32 entry.1 ++ marshalBigInt entry.2

/-- `MarshalMsg` after `bts`, with the range visiting `order`. The size in front counts its own four
bytes. -/
def marshalMsg (bts : Bytes) (order : List (TokenId × Int)) : Bytes :=
  let body := order.flatMap marshalEntry
  bts ++ (byteInt32 (.ofNat (4 + body.length)) ++ body)

/-- The fields of an account record other than the balances, already encoded. -/
structure AccountFrame where
  address : Bytes
  nonce : Bytes
  root : Bytes
  codeHash : Bytes

def marshalAccount (frame : AccountFrame) (order : List (TokenId × Int)) : Bytes :=
  marshalMsg (0x95 :: frame.address) order ++ (frame.nonce ++ frame.root ++ frame.codeHash)

theorem byteInt32_length (left right : Int32) :
    (byteInt32 left).length = (byteInt32 right).length := rfl

theorem byteInt32_injective {left right : Int32} (same : byteInt32 left = byteInt32 right) :
    left = right := by
  simp only [byteInt32, List.cons.injEq, and_true] at same
  obtain ⟨first, second, third, fourth⟩ := same
  have first := congrArg UInt8.toNat first
  have second := congrArg UInt8.toNat second
  have third := congrArg UInt8.toNat third
  have fourth := congrArg UInt8.toNat fourth
  simp only [UInt8.toNat_ofNat'] at first second third fourth
  have bits : left.toBitVec.toNat = right.toBitVec.toNat := by omega
  exact Int32.toBitVec_inj.mp (BitVec.eq_of_toNat_eq bits)

theorem marshalMsg_swap_ne {first second : TokenId × Int} (different : first.1 ≠ second.1)
    (rest : List (TokenId × Int)) :
    marshalMsg [] (first :: second :: rest) ≠ marshalMsg [] (second :: first :: rest) := by
  intro same
  have body := (append_inj same rfl).2
  have entries := (append_inj body (byteInt32_length _ _)).2
  simp only [flatMap_cons, marshalEntry, append_assoc] at entries
  exact different (byteInt32_injective (append_inj entries (byteInt32_length _ _)).1)

/-- The encoding, and with it the state root, is independent of the iteration order exactly with at
most one entry. -/
theorem marshalMsg_order_free_iff (balances : GoMap TokenId Int) :
    (∀ left right, balances.Iterates left → balances.Iterates right →
      marshalMsg [] left = marshalMsg [] right ∧
      (∀ frame, marshalAccount frame left = marshalAccount frame right) ∧
      ∀ (ρ : Type) (rootOf : GoMap Address Bytes → ρ) (leaves : GoMap Address Bytes) addr frame,
        rootOf (leaves.set addr (marshalAccount frame left)) =
          rootOf (leaves.set addr (marshalAccount frame right))) ↔ balances.size ≤ 1 := by
  constructor
  · intro free
    obtain ⟨order, iterates⟩ := balances.exists_iterates
    rw [← iterates.length]
    match order, iterates with
    | [], _ => exact Nat.zero_le 1
    | [_], _ => exact Nat.le_refl 1
    | first :: second :: rest, iterates =>
      have different : first.1 ≠ second.1 := by
        have unique := iterates.nodup
        simp only [map_cons, nodup_cons, mem_cons, not_or] at unique
        exact unique.1.1
      have swapped := iterates.perm (List.Perm.swap first second rest)
      exact absurd (free _ _ iterates swapped).1 (marshalMsg_swap_ne different rest)
  · intro small left right leftIterates rightIterates
    have permuted : left.Perm right := by
      have same := leftIterates.trans rightIterates.symm
      have mapped := (Multiset.coe_eq_coe.mp same).map fun entry => (entry.1, entry.2)
      simpa only [map_map, Function.comp_def, Prod.mk.eta, map_id'] using mapped
    have short : left.length ≤ 1 := leftIterates.length ▸ small
    obtain rfl : left = right := by
      match left, short with
      | [], _ => exact (nil_perm.mp permuted).symm
      | [entry], _ => exact singleton_perm.mp permuted
    exact ⟨rfl, fun _ => rfl, fun _ _ _ _ _ => rfl⟩

/-- One unit of the first token and two of the second. -/
theorem marshalMsg_depends_on_order :
    GoMap.Iterates (GoMap.set (GoMap.set ∅ 0 1) 1 2 : GoMap TokenId Int) [(0, 1), (1, 2)] ∧
      GoMap.Iterates (GoMap.set (GoMap.set ∅ 0 1) 1 2 : GoMap TokenId Int) [(1, 2), (0, 1)] ∧
      marshalMsg [] [(0, 1), (1, 2)] =
        [22, 0, 0, 0, 0, 0, 0, 0, 0x91, 0xc3, 0xc4, 1, 1, 1, 0, 0, 0, 0x91, 0xc3, 0xc4, 1, 2] ∧
      marshalMsg [] [(1, 2), (0, 1)] =
        [22, 0, 0, 0, 1, 0, 0, 0, 0x91, 0xc3, 0xc4, 1, 2, 0, 0, 0, 0, 0x91, 0xc3, 0xc4, 1, 1] ∧
      marshalAccount ⟨[], [], [], []⟩ [(0, 1), (1, 2)] ≠
        marshalAccount ⟨[], [], [], []⟩ [(1, 2), (0, 1)] := by
  refine ⟨?_, ?_, ?_, ?_, ?_⟩
  · unfold GoMap.Iterates; decide +kernel
  · unfold GoMap.Iterates; decide +kernel
  · decide +kernel
  · decide +kernel
  · decide +kernel

end AnnchainOG
