import AnnchainOG.Wire.Binding

/-!
# Database keys

The first two bytes of a key of the ledger tell what it is the key of; none is as long as a key of
the trie.
-/

namespace AnnchainOG.Wire

open List Nat

def charByte (c : Char) : UInt8 := .ofNat c.toNat

def ascii (text : String) : Bytes := text.toList.map charByte

/-! ## Keys of the ledger -/

inductive AccessorKey where
  | genesis
  | latestSequencer
  | receipt (seqID : UInt64)
  | transaction (hash : Hash)
  | confirmTime (height : UInt64)
  | txHashFlow (addr : Address) (nonce : UInt64)
  | addrLatestNonce (addr : Address)
  | addressBalance (addr : Address)
  | seqHeight (seqID : UInt64)
  | txIndex (seqID : UInt64)
  | stateRoot

def AccessorKey.bytes : AccessorKey → Bytes
  | genesis => ascii "genesis"
  | latestSequencer => ascii "latestseq"
  | receipt seqID => ascii "rp" ++ uint64Bytes seqID
  | transaction hash => ascii "tx" ++ hashBytes hash
  | confirmTime height => ascii "cf" ++ uint64Bytes height
  | txHashFlow addr nonce => ascii "fl" ++ (addressBytes addr ++ uint64Bytes nonce)
  | addrLatestNonce addr => ascii "aln" ++ addressBytes addr
  | addressBalance addr => ascii "ba" ++ addressBytes addr
  | seqHeight seqID => ascii "sh" ++ uint64Bytes seqID
  | txIndex seqID => ascii "ti" ++ uint64Bytes seqID
  | stateRoot => ascii "stateroot"

def nodeKey (hash : Hash) : Bytes := hashBytes hash

def secureKey (hash : Hash) : Bytes := ascii "secure-key-" ++ hashBytes hash

theorem AccessorKey.bytes_injective : Function.Injective AccessorKey.bytes := by
  intro left right same
  have heads : left.bytes.take 2 = right.bytes.take 2 := congrArg (List.take 2) same
  cases left <;> cases right
  case receipt.receipt | confirmTime.confirmTime | seqHeight.seqHeight | txIndex.txIndex =>
    exact congrArg _ (uint64Bytes_injective (append_cancel_left same))
  case transaction.transaction =>
    exact congrArg _ (hashBytes_injective (append_cancel_left same))
  case addrLatestNonce.addrLatestNonce | addressBalance.addressBalance =>
    exact congrArg _ (addressBytes_injective (append_cancel_left same))
  case txHashFlow.txHashFlow addr nonce other otherNonce =>
    obtain ⟨addresses, nonces⟩ := append_inj (append_cancel_left same)
      (by simp only [addressBytes, length_bigEndian])
    rw [addressBytes_injective addresses, uint64Bytes_injective nonces]
  all_goals first
    | rfl
    | exact absurd heads (by simp [bytes, ascii, charByte])

theorem AccessorKey.length_bytes (key : AccessorKey) :
    key.bytes.length ∈ [7, 9, 10, 22, 23, 30, 34] := by
  cases key <;> simp [bytes, ascii, uint64Bytes, hashBytes, addressBytes]

/-! ## Keys of the state trie -/

def digits (number : Nat) : Bytes := (Nat.toDigits 10 number).map charByte

/-- `%d`. -/
def decimal (number : Int) : Bytes :=
  (if 0 ≤ number then [] else ascii "-") ++ digits number.natAbs

inductive TrieKey where
  | account (addr : Address)
  | token (tokenID : TokenId)
  | latestTokenID

def TrieKey.bytes : TrieKey → Bytes
  | account addr => addressBytes addr
  | token tokenID => ascii "tkID" ++ decimal tokenID.toInt
  | latestTokenID => ascii "tkID" ++ ascii "latest"

theorem ofNat_charByte {c : Char} (digit : c.isDigit = true) :
    Char.ofNat (charByte c).toNat = c := by
  have small : c.toNat < 256 := lt_of_le_of_lt (Char.isDigit_iff_toNat.mp digit).2 (by decide)
  rw [charByte, UInt8.toNat_ofNat', mod_eq_of_lt small, Char.ofNat_toNat]

theorem ofNat_digits (number : Nat) :
    (digits number).map (fun byte => Char.ofNat byte.toNat) = Nat.toDigits 10 number := by
  rw [digits, map_map, ← map_id (Nat.toDigits 10 number), map_map]
  refine map_congr_left fun c member => ofNat_charByte ?_
  exact isDigit_of_mem_toDigits (by decide) (by decide) member

theorem digits_ne {number : Nat} {byte : UInt8} {rest : Bytes}
    (notDigit : (Char.ofNat byte.toNat).isDigit = false) : digits number ≠ byte :: rest := by
  intro same
  have member : Char.ofNat byte.toNat ∈ Nat.toDigits 10 number := by
    rw [← ofNat_digits, same]
    exact mem_cons_self
  exact clash notDigit (isDigit_of_mem_toDigits (by decide) (by decide) member)

theorem digits_injective : Function.Injective digits := by
  intro left right same
  rw [← ofDigitChars_ten_toDigits (n := left), ← ofNat_digits, same, ofNat_digits,
    ofDigitChars_ten_toDigits]

theorem decimal_injective : Function.Injective decimal := by
  intro left right same
  unfold decimal at same
  split at same <;> split at same
  · have := digits_injective same
    omega
  · exact absurd same (digits_ne rfl)
  · exact absurd same.symm (digits_ne rfl)
  · have := digits_injective (append_cancel_left same)
    omega

theorem length_decimal (tokenID : TokenId) : (decimal tokenID.toInt).length ≤ 11 := by
  have bound : tokenID.toInt.natAbs < 10 ^ 10 := by
    have lower := tokenID.le_toInt
    have upper := tokenID.toInt_lt
    omega
  have short := (length_toDigits_le_iff (by decide) (by decide)).mpr bound
  rw [decimal, length_append, digits, length_map]
  split
  · exact le_trans (le_of_eq (zero_add _)) (le_succ_of_le short)
  · exact Nat.add_le_add_left short 1

theorem decimal_ne_latest (number : Int) : decimal number ≠ ascii "latest" := by
  intro same
  unfold decimal at same
  split at same
  · exact absurd same (digits_ne rfl)
  · cases same

theorem TrieKey.bytes_injective : Function.Injective TrieKey.bytes := by
  have apart (addr : Address) {text : Bytes} (short : text.length ≤ 11) :
      addressBytes addr ≠ ascii "tkID" ++ text := by
    intro same
    have lengths := congrArg List.length same
    rw [addressBytes, length_bigEndian, length_append] at lengths
    change 20 = 4 + _ at lengths
    omega
  intro left right same
  cases left with
  | account addr =>
    cases right with
    | account other => exact congrArg _ (addressBytes_injective same)
    | token tokenID => exact absurd same (apart addr (length_decimal tokenID))
    | latestTokenID => exact absurd same (apart addr (by decide))
  | token tokenID =>
    cases right with
    | account addr => exact absurd same.symm (apart addr (length_decimal tokenID))
    | token other =>
      exact congrArg _ (Int32.toInt_inj.mp (decimal_injective (append_cancel_left same)))
    | latestTokenID => exact absurd (append_cancel_left same) (decimal_ne_latest _)
  | latestTokenID =>
    cases right with
    | account addr => exact absurd same.symm (apart addr (by decide))
    | token tokenID => exact absurd (append_cancel_left same).symm (decimal_ne_latest _)
    | latestTokenID => rfl

/-- Neither the keys of the store nor those inside the state trie collide. -/
theorem keys_apart :
    Function.Injective AccessorKey.bytes ∧
      (∀ (key : AccessorKey) (hash : Hash), key.bytes ≠ nodeKey hash ∧ key.bytes ≠ secureKey hash) ∧
      Function.Injective TrieKey.bytes := by
  refine ⟨AccessorKey.bytes_injective, fun key hash => ⟨fun same => ?_, fun same => ?_⟩,
    TrieKey.bytes_injective⟩
  · have length := key.length_bytes
    rw [same, nodeKey, hashBytes, length_bigEndian] at length
    exact absurd length (by decide)
  · have length := key.length_bytes
    rw [same, secureKey, length_append, hashBytes, length_bigEndian] at length
    exact absurd length (by decide)

end AnnchainOG.Wire
