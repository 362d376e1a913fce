import AnnchainOG.Wire.Layout

/-!
# Balances and accounts, written and read back

The size in front of a balance set is patched in when the entries are there.
-/

namespace AnnchainOG.Wire

open List Option

def getInt32 (b : Bytes) (pos : Nat) : Option Int32 :=
  match b.drop pos with
  | b0 :: b1 :: b2 :: b3 :: _ =>
    some (.ofNat (b0.toNat + b1.toNat * 256 + b2.toNat * 65536 + b3.toNat * 16777216))
  | _ => none

def setInt32 (b : Bytes) (pos : Nat) (i : Int32) : Bytes :=
  (byteInt32 i).zipIdx.foldl (fun b byte => b.set (pos + byte.2) byte.1) b

variable (msgp : Msgp)

def bigInt : Codec Int := tuple msgp 1 one_short (bigIntFields msgp)

def entryBytes (entry : TokenId × Int) : Bytes :=
  byteInt32 entry.1 ++ (bigInt msgp).append entry.2

/-- `BalanceSet.MarshalMsg`, with the range visiting `order`. -/
def marshalBalances (bts : Bytes) (order : List (TokenId × Int)) : Bytes :=
  let o := order.foldl (fun o entry => o ++ entryBytes msgp entry) (bts ++ byteInt32 0)
  setInt32 o bts.length (.ofNat (o.length - bts.length))

/-- The loop of `BalanceSet.UnmarshalMsg`, as far as `fuel` turns go; `none` for an error or a
panic. -/
def readEntries : Nat → GoMap TokenId Int → Bytes → Option (GoMap TokenId Int)
  | 0, _, _ => none
  | fuel + 1, b, bsBytes =>
    if bsBytes.isEmpty then some b
    else do
      let key ← getInt32 bsBytes 0
      let (value, bsBytes) ← (bigInt msgp).read (bsBytes.drop 4)
      readEntries fuel (b.set key value) bsBytes

/-- `BalanceSet.UnmarshalMsg`: the bounds of `bts[4:size]` are checked. -/
def unmarshalBalances (b : GoMap TokenId Int) (bts : Bytes) :
    Option (GoMap TokenId Int × Bytes) := do
  let size := (← getInt32 bts 0).toInt
  if 4 ≤ size ∧ size ≤ bts.length then
    let b ← readEntries msgp bts.length b ((bts.take size.toNat).drop 4)
    return (b, bts.drop size.toNat)
  else none

structure AccountRecord where
  address : Address
  balances : GoMap TokenId Int
  nonce : UInt64
  root : Hash
  codeHash : Bytes

def accountHead : Codec Address := tuple msgp 5 five_short (addressCodec msgp)

def accountTail : Codec (UInt64 × Hash × Bytes) :=
  msgp.uint64.andThen ((hashCodec msgp).andThen msgp.bytes)

def marshalAccount (bts : Bytes) (account : AccountRecord) (order : List (TokenId × Int)) : Bytes :=
  marshalBalances msgp (bts ++ (accountHead msgp).append account.address) order ++
    (accountTail msgp).append (account.nonce, account.root, account.codeHash)

/-- `AccountData.UnmarshalMsg` into a record with the balances `b`. -/
def unmarshalAccount (b : GoMap TokenId Int) (bts : Bytes) : Option (AccountRecord × Bytes) := do
  let (address, bts) ← (accountHead msgp).read bts
  let (balances, bts) ← unmarshalBalances msgp b bts
  let ((nonce, root, codeHash), bts) ← (accountTail msgp).read bts
  return (⟨address, balances, nonce, root, codeHash⟩, bts)

variable (value : Int32)

theorem getInt32_byteInt32 (rest : Bytes) : getInt32 (byteInt32 value ++ rest) 0 = some value := by
  have small : value.toBitVec.toNat < 2 ^ 32 := value.toBitVec.isLt
  refine congrArg some (Int32.toBitVec_inj.mp (BitVec.eq_of_toNat_eq ?_))
  simp only [Int32.toBitVec_ofNat', BitVec.toNat_ofNat, UInt8.toNat_ofNat']
  omega

theorem length_byteInt32 : (byteInt32 value).length = 4 := rfl

theorem drop_byteInt32 (rest : Bytes) : (byteInt32 value ++ rest).drop 4 = rest := rfl

theorem setInt32_append (bts body : Bytes) (value : Int32) :
    setInt32 (bts ++ byteInt32 0 ++ body) bts.length value = bts ++ byteInt32 value ++ body := by
  simp [setInt32, byteInt32]

variable {msgp}

theorem marshalBalances_eq (msgp : Msgp) (bts : Bytes) (order : List (TokenId × Int)) :
    marshalBalances msgp bts order = bts ++
      (byteInt32 (.ofNat (4 + (order.flatMap (entryBytes msgp)).length)) ++
        order.flatMap (entryBytes msgp)) := by
  have length : (bts ++ byteInt32 0 ++ order.flatMap (entryBytes msgp)).length - bts.length =
      4 + (order.flatMap (entryBytes msgp)).length := by
    rw [length_append, length_append, Nat.add_assoc, Nat.add_sub_cancel_left]
    rfl
  rw [marshalBalances, foldl_append_eq_append, ← flatMap_def, length, setInt32_append, append_assoc]

theorem readEntries_append {order : List (TokenId × Int)}
    (fits : ∀ entry ∈ order, msgp.bytes.Fits (bigBytes entry.2)) {fuel : Nat}
    (enough : order.length < fuel) (b : GoMap TokenId Int) :
    readEntries msgp fuel b (order.flatMap (entryBytes msgp)) = some (b.setAll order) := by
  induction order generalizing fuel b with
  | nil =>
    cases fuel with
    | zero => cases enough
    | succ fuel => rfl
  | cons entry order ih =>
    cases fuel with
    | zero => cases enough
    | succ fuel =>
      have key := getInt32_byteInt32 entry.1
        ((bigInt msgp).append entry.2 ++ order.flatMap (entryBytes msgp))
      have read := (bigInt msgp).read_append (order.flatMap (entryBytes msgp))
        ⟨msgp.bool_fits _, fits entry mem_cons_self⟩
      have tail := ih (fun other member => fits other (mem_cons_of_mem _ member))
        (Nat.lt_of_succ_lt_succ enough) (b.set entry.1 entry.2)
      rw [flatMap_cons, entryBytes, append_assoc, readEntries,
        if_neg (by simp [byteInt32]), key, bind_eq_bind, bind_some,
        drop_byteInt32, read]
      exact tail

/-- A byte string is read back if its encoding is not too long. -/
def Carries (msgp : Msgp) : Prop :=
  ∀ bytes, (msgp.bytes.append bytes).length < 2 ^ 31 → msgp.bytes.Fits bytes

theorem length_entryBytes (msgp : Msgp) (entry : TokenId × Int) :
    (msgp.bytes.append (bigBytes entry.2)).length < (entryBytes msgp entry).length := by
  simp only [entryBytes, bigInt, tuple, bigIntFields, Codec.spelled, Codec.andThen,
    length_append, length_cons]
  omega

theorem length_entries (msgp : Msgp) (order : List (TokenId × Int)) :
    order.length ≤ (order.flatMap (entryBytes msgp)).length := by
  induction order with
  | nil => exact Nat.le_refl 0
  | cons entry order ih =>
    have positive := Nat.zero_lt_of_lt (length_entryBytes msgp entry)
    rw [flatMap_cons, length_append, length_cons]
    omega

theorem unmarshalBalances_append {balances : GoMap TokenId Int} {order : List (TokenId × Int)}
    (carries : Carries msgp) (iterates : balances.Iterates order)
    (small : 4 + (order.flatMap (entryBytes msgp)).length < 2 ^ 31) (rest : Bytes) :
    unmarshalBalances msgp ∅ (byteInt32 (.ofNat (4 + (order.flatMap (entryBytes msgp)).length)) ++
      order.flatMap (entryBytes msgp) ++ rest) = some (balances, rest) := by
  have fits : ∀ entry ∈ order, msgp.bytes.Fits (bigBytes entry.2) := by
    intro entry member
    obtain ⟨before, after, rfl⟩ := append_of_mem member
    have shorter := length_entryBytes msgp entry
    rw [flatMap_append, flatMap_cons, length_append, length_append] at small
    exact carries _ (by omega)
  have all := length_entries msgp order
  have entries := fun fuel (enough : order.length < fuel) => readEntries_append fits enough ∅
  rw [iterates.setAll_empty] at entries
  generalize order.flatMap (entryBytes msgp) = body at small all entries ⊢
  have isSize : (Int32.ofNat (4 + body.length)).toInt = (4 + body.length : Nat) :=
    Int32.toInt_ofNat_of_lt small
  have size := getInt32_byteInt32 (.ofNat (4 + body.length)) (body ++ rest)
  have length : (byteInt32 (.ofNat (4 + body.length)) ++ body).length = 4 + body.length :=
    length_append
  have total : (byteInt32 (.ofNat (4 + body.length)) ++ body ++ rest).length =
      4 + body.length + rest.length := by
    rw [length_append, length]
  rw [← append_assoc] at size
  rw [unmarshalBalances, size, bind_eq_bind, bind_some, isSize, total,
    if_pos ⟨by omega, by omega⟩, Int.toNat_natCast, take_left' length, drop_left' length,
    drop_byteInt32, entries _ (by omega)]
  rfl

theorem unmarshalAccount_of_read {b balances : GoMap TokenId Int} {bts first second rest : Bytes}
    {address : Address} {tail : UInt64 × Hash × Bytes}
    (headRead : (accountHead msgp).read bts = some (address, first))
    (balancesRead : unmarshalBalances msgp b first = some (balances, second))
    (tailRead : (accountTail msgp).read second = some (tail, rest)) :
    unmarshalAccount msgp b bts = some (⟨address, balances, tail.1, tail.2.1, tail.2.2⟩, rest) := by
  simp only [unmarshalAccount, headRead, balancesRead, tailRead, bind_eq_bind, bind_some]
  rfl

section

variable {order : List (TokenId × Int)} {bts : Bytes} (carries : Carries msgp) (rest : Bytes)
include carries

theorem balances_read {balances : GoMap TokenId Int} (iterates : balances.Iterates order)
    (small : (marshalBalances msgp bts order).length < bts.length + 2 ^ 31) :
    ∃ encoded, marshalBalances msgp bts order = bts ++ encoded ∧
      unmarshalBalances msgp ∅ (encoded ++ rest) = some (balances, rest) := by
  have isEncoded := marshalBalances_eq msgp bts order
  refine ⟨_, isEncoded, unmarshalBalances_append carries iterates ?_ rest⟩
  rw [isEncoded, length_append, length_append, length_byteInt32] at small
  omega

theorem account_read {account : AccountRecord} (iterates : account.balances.Iterates order)
    (small : (marshalAccount msgp bts account order).length < bts.length + 2 ^ 31) :
    ∃ encoded, marshalAccount msgp bts account order = bts ++ encoded ∧
      unmarshalAccount msgp ∅ (encoded ++ rest) = some (account, rest) := by
  rw [marshalAccount, marshalBalances_eq] at small ⊢
  simp only [append_assoc, length_append, length_byteInt32] at small ⊢
  have headFits : (accountHead msgp).Fits account.address :=
    ⟨msgp.bytes_fits (by rw [length_bigEndian]; decide), trivial⟩
  have tailFits : (accountTail msgp).Fits (account.nonce, account.root, account.codeHash) := by
    refine ⟨msgp.uint64_fits _, ⟨msgp.bytes_fits (by rw [length_bigEndian]; decide), trivial⟩, ?_⟩
    simp only [accountTail, Codec.andThen, length_append] at small
    exact carries account.codeHash (by omega)
  have read := unmarshalBalances_append carries iterates (by omega)
    ((accountTail msgp).append (account.nonce, account.root, account.codeHash) ++ rest)
  rw [append_assoc] at read
  refine ⟨_, rfl, ?_⟩
  rw [append_assoc, append_assoc, append_assoc]
  exact unmarshalAccount_of_read ((accountHead msgp).read_append _ headFits) read
    ((accountTail msgp).read_append _ tailFits)

end

theorem accounts_round_trip (msgp : Msgp) (carries : Carries msgp)
    (balances : GoMap TokenId Int) (order : List (TokenId × Int))
    (iterates : balances.Iterates order) (bts rest : Bytes) :
    ((marshalBalances msgp bts order).length < bts.length + 2 ^ 31 →
      ∃ encoded, marshalBalances msgp bts order = bts ++ encoded ∧
        unmarshalBalances msgp ∅ (encoded ++ rest) = some (balances, rest)) ∧
    ∀ account : AccountRecord, account.balances = balances →
      (marshalAccount msgp bts account order).length < bts.length + 2 ^ 31 →
      ∃ encoded, marshalAccount msgp bts account order = bts ++ encoded ∧
        unmarshalAccount msgp ∅ (encoded ++ rest) = some (account, rest) := by
  refine ⟨balances_read carries rest iterates, ?_⟩
  rintro account rfl
  exact account_read carries rest iterates

theorem carries_format : Carries .format := by
  intro bytes small
  have shorter : bytes.length ≤ (Msgp.format.bytes.append bytes).length :=
    (suffix_append _ bytes).length_le
  refine Msgp.binLeads.fits_of_lt (0xc6, 4) (by decide) (Nat.lt_trans ?_ (by decide : 2 ^ 31 < _))
  omega

theorem accounts_round_trip_debt :
    ∃ encoded, marshalBalances .format [7] [(0, 5), (-1, -300)] = [7] ++ encoded ∧
      unmarshalBalances .format ∅ (encoded ++ [8]) =
        some (GoMap.set (GoMap.set ∅ 0 5) (-1) (-300), [8]) :=
  (accounts_round_trip .format carries_format _ _ (by unfold GoMap.Iterates; decide +kernel) [7]
    [8]).1 (by decide +kernel)

end AnnchainOG.Wire
