import AnnchainOG.Intake.Verifier
import AnnchainOG.Senate.AnnSensus
import Mathlib.Data.List.Dedup

/-!
# The evidence of a term change

Both checks count the entries and verify each of them, so that a key may stand behind several.
-/

namespace AnnchainOG.Senate

open List

open Wire (TermChange SigSet Crypto)

def entryVerifies (crypto : Crypto) (pkBls : Bytes) : Option SigSet → Bool
  | none => false
  | some sig => crypto.verify sig.publicKey sig.signature pkBls

def entryListed (accounts : List Bytes) : Option SigSet → Bool
  | none => false
  | some sig => accounts.contains sig.publicKey

namespace AnnSensus

variable {κ σ γ : Type}

/-- A small term id is not looked up among the candidates. `none` where the sender of a newer one
is nil. -/
def verifyTermChange (crypto : Crypto) (a : AnnSensus κ σ γ) (t : TermChange) : Option Bool :=
  if a.disable then some true
  else do
    let known ← if t.termID ≤ a.term.id then some true
      else t.issuer.map fun sender => (a.term.candidates.get? sender).isSome
    if !known then some false
    else if t.sigSet.length < a.dkg.getParticipantNumber then some false
    else some (t.sigSet.all (entryVerifies crypto t.pkBls))

def verifyRequestedTermChange (crypto : Crypto) (a : AnnSensus κ σ γ) (t : TermChange) : Bool :=
  if a.disable then true
  else if t.sigSet.length < a.dkg.getParticipantNumber then false
  else t.sigSet.all fun sig => entryListed a.genesisAccounts sig && entryVerifies crypto t.pkBls sig

end AnnSensus

variable {t : TermChange}

/-! ## Signers -/

def signers (t : TermChange) : List Bytes :=
  (t.sigSet.filterMap (Option.map SigSet.publicKey)).dedup

def Authentic (crypto : Crypto) (t : TermChange) (signed : Bytes → Bytes → Prop) : Prop :=
  ∀ sig, some sig ∈ t.sigSet → crypto.verify sig.publicKey sig.signature t.pkBls = true →
    signed sig.publicKey t.pkBls

/-- At least `n` different keys that are `eligible` signed the public key. -/
def SignedBy (signed : Bytes → Bytes → Prop) (pkBls : Bytes) (eligible : Bytes → Prop) (n : Nat) :
    Prop :=
  ∃ keys : List Bytes, keys.Nodup ∧ n ≤ keys.length ∧ ∀ key ∈ keys, eligible key ∧ signed key pkBls

theorem mem_signers {key : Bytes} :
    key ∈ signers t ↔ ∃ sig, some sig ∈ t.sigSet ∧ sig.publicKey = key := by
  rw [signers, mem_dedup, mem_filterMap]
  constructor
  · rintro ⟨entry, member, isKey⟩
    obtain ⟨sig, rfl, rfl⟩ := Option.map_eq_some_iff.mp isKey
    exact ⟨sig, member, rfl⟩
  · rintro ⟨sig, member, rfl⟩
    exact ⟨some sig, member, rfl⟩

theorem signedBy_iff {crypto : Crypto} {n : Nat} (eligible : Bytes → Prop)
    (verifies : ∀ sig, some sig ∈ t.sigSet →
      eligible sig.publicKey ∧ crypto.verify sig.publicKey sig.signature t.pkBls = true) :
    (∀ signed, Authentic crypto t signed → SignedBy signed t.pkBls eligible n) ↔
      n ≤ (signers t).length := by
  constructor
  · intro holds
    have authentic : Authentic crypto t fun key _ => key ∈ signers t :=
      fun sig member _ => mem_signers.mpr ⟨sig, member, rfl⟩
    obtain ⟨keys, distinct, enough, signedKeys⟩ := holds _ authentic
    have sublist : keys ⊆ signers t := fun key member => (signedKeys key member).2
    exact enough.trans (distinct.subperm sublist).length_le
  · intro enough signed authentic
    refine ⟨signers t, nodup_dedup _, enough, fun key member => ?_⟩
    obtain ⟨sig, isEntry, rfl⟩ := mem_signers.mp member
    obtain ⟨isEligible, verified⟩ := verifies sig isEntry
    exact ⟨isEligible, authentic sig isEntry verified⟩

/-! ## The two checks -/

namespace AnnSensus

variable {κ σ γ : Type}
variable {crypto : Crypto} {a : AnnSensus κ σ γ}

def refusesRequested (crypto : Crypto) (a : AnnSensus κ σ γ) (t : TermChange) : Prop :=
  t.sigSet.length < a.dkg.getParticipantNumber ∨
    ∃ entry ∈ t.sigSet, entryListed a.genesisAccounts entry = false ∨
      entryVerifies crypto t.pkBls entry = false

def refuses (crypto : Crypto) (a : AnnSensus κ σ γ) (t : TermChange) : Prop :=
  (a.term.id < t.termID ∧ ∀ sender, t.issuer = some sender →
      a.term.candidates.get? sender = none) ∨
    t.sigSet.length < a.dkg.getParticipantNumber ∨
    ∃ entry ∈ t.sigSet, entryVerifies crypto t.pkBls entry = false

theorem verifyRequestedTermChange_iff {t : TermChange} (enabled : a.disable = false) :
    a.verifyRequestedTermChange crypto t = true ↔ ¬ a.refusesRequested crypto t := by
  rw [verifyRequestedTermChange, enabled, if_neg Bool.false_ne_true, refusesRequested]
  split
  next few => simp [few]
  next enough => simp [enough]

theorem verifyTermChange_iff {t : TermChange} (enabled : a.disable = false) :
    a.verifyTermChange crypto t = some true ↔ ¬ a.refuses crypto t := by
  rw [verifyTermChange, enabled, if_neg Bool.false_ne_true, refuses]
  have entries : (if t.sigSet.length < a.dkg.getParticipantNumber then some false
      else some (t.sigSet.all (entryVerifies crypto t.pkBls))) = some true ↔
        ¬ (t.sigSet.length < a.dkg.getParticipantNumber ∨
          ∃ entry ∈ t.sigSet, entryVerifies crypto t.pkBls entry = false) := by
    split
    next few => simp [few]
    next enough => simp [enough]
  by_cases old : t.termID ≤ a.term.id
  · have notNewer : ¬ a.term.id < t.termID := UInt64.not_lt.mpr old
    rw [if_pos old, or_iff_right fun newer => notNewer newer.1, ← entries]
    rfl
  have newer : a.term.id < t.termID := UInt64.not_le.mp old
  rw [if_neg old]
  cases isIssuer : t.issuer with
  | none => simp [newer]
  | some sender =>
    cases found : a.term.candidates.get? sender with
    | none => simp [newer, found]
    | some campaign =>
      rw [or_iff_right, ← entries]
      · simp [found]
      · rintro ⟨-, unknown⟩
        rw [unknown sender rfl] at found
        cases found

end AnnSensus

/-- An accepted term change proves as many signers as partners exactly if its entries name so many
different keys. -/
theorem evidence_iff {κ σ γ : Type} (crypto : Crypto) (a : AnnSensus κ σ γ)
    (enabled : a.disable = false) (t : TermChange) :
    ((a.verifyRequestedTermChange crypto t = true → ∀ signed, Authentic crypto t signed →
        SignedBy signed t.pkBls (· ∈ a.genesisAccounts) a.dkg.getParticipantNumber) ↔
      a.dkg.getParticipantNumber ≤ (signers t).length ∨ a.refusesRequested crypto t) ∧
    ((a.verifyTermChange crypto t = some true → ∀ signed, Authentic crypto t signed →
        SignedBy signed t.pkBls (fun _ => True) a.dkg.getParticipantNumber) ↔
      a.dkg.getParticipantNumber ≤ (signers t).length ∨ a.refuses crypto t) := by
  constructor
  · rw [AnnSensus.verifyRequestedTermChange_iff enabled]
    by_cases refused : a.refusesRequested crypto t
    · simp [refused]
    have verifies : ∀ sig, some sig ∈ t.sigSet → sig.publicKey ∈ a.genesisAccounts ∧
        crypto.verify sig.publicKey sig.signature t.pkBls = true := by
      intro sig member
      rw [AnnSensus.refusesRequested, not_or, not_exists] at refused
      have passes := refused.2 (some sig)
      simpa [member, entryListed, entryVerifies] using passes
    rw [or_iff_left refused, ← signedBy_iff _ verifies]
    exact imp_iff_right refused
  · rw [AnnSensus.verifyTermChange_iff enabled]
    by_cases refused : a.refuses crypto t
    · simp [refused]
    have verifies : ∀ sig, some sig ∈ t.sigSet → True ∧
        crypto.verify sig.publicKey sig.signature t.pkBls = true := by
      intro sig member
      rw [AnnSensus.refuses, not_or, not_or, not_exists] at refused
      have passes := refused.2.2 (some sig)
      simpa [member, entryVerifies] using passes
    rw [or_iff_left refused, ← signedBy_iff (fun _ => True) verifies]
    exact imp_iff_right refused

def committeeOfTwo : AnnSensus Unit Unit Unit :=
  newAnnSensus 1 2 [[1], [2]] ⟨1, [1]⟩ ((), [1])

def changeSignedBy (keys : List UInt8) : TermChange where
  base := ⟨Wire.txBaseTypeTermChange, 0, [], 0, 0, [], [], 0, 0, 0⟩
  termID := 0
  pkBls := [9]
  sigSet := keys.map fun key => some ⟨[key], [key, 9]⟩
  issuer := some 1

theorem evidence_two_signers :
    committeeOfTwo.verifyRequestedTermChange Crypto.plain (changeSignedBy [1, 2]) = true ∧
      ∀ signed, Authentic Crypto.plain (changeSignedBy [1, 2]) signed →
        SignedBy signed [9] (· ∈ committeeOfTwo.genesisAccounts) 2 := by
  have accepted :
      committeeOfTwo.verifyRequestedTermChange Crypto.plain (changeSignedBy [1, 2]) = true := by
    decide
  have holds := evidence_iff Crypto.plain committeeOfTwo rfl (changeSignedBy [1, 2])
  exact ⟨accepted, holds.1.mpr (.inl (by decide)) accepted⟩

theorem one_signer_accepted :
    committeeOfTwo.disable = false ∧ committeeOfTwo.dkg.getParticipantNumber = 2 ∧
      committeeOfTwo.verifyRequestedTermChange Crypto.plain (changeSignedBy [1, 1]) = true ∧
      committeeOfTwo.verifyTermChange Crypto.plain (changeSignedBy [1, 1]) = some true ∧
      ∃ signed, Authentic Crypto.plain (changeSignedBy [1, 1]) signed ∧
        ¬ SignedBy signed [9] (fun _ => True) 2 := by
  refine ⟨rfl, rfl, by decide, by decide, fun key _ => key = [1], ?_, ?_⟩
  · intro sig member _
    simp only [changeSignedBy, map_cons, map_nil, mem_cons, Option.some.injEq,
      not_mem_nil, or_false, or_self] at member
    rw [member]
  · rintro ⟨keys, distinct, enough, signed⟩
    have only : keys ⊆ [[1]] := fun key member => mem_singleton.mpr (signed key member).2
    have bound := (distinct.subperm only).length_le
    exact absurd (enough.trans bound) (by decide)

end AnnchainOG.Senate
