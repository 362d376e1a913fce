import AnnchainOG.Lib.Sorting
import AnnchainOG.Senate.Dkg
import Mathlib.Data.List.Lex
import Mathlib.Data.Prod.Lex

/-!
# The selection of candidates

Where there are more campaigns than partners, they are ordered by their random values, masked with a
seed. They are read from a map.
-/

namespace AnnchainOG.Senate

open List

open Campaign (sender)

variable {κ σ γ : Type}

def Campaign.less (left right : Campaign κ) : Bool :=
  if left.weight < right.weight then true
  else if left.weight > right.weight then false
  else if left.accountNonce < right.accountNonce then true
  else if left.accountNonce > right.accountNonce then false
  else left.hash < right.hash

def hexDigit (digit : Nat) : Nat :=
  if digit < 10 then 48 + digit else 87 + digit

def encodeHex (bytes : Bytes) : List Nat :=
  48 :: 120 :: bytes.flatMap fun byte => [hexDigit (byte.toNat / 16), hexDigit (byte.toNat % 16)]

def stringLess : List Nat → List Nat → Bool
  | _, [] => false
  | [], _ :: _ => true
  | left :: lefts, right :: rights =>
    if left < right then true else if right < left then false else stringLess lefts rights

structure VrfSelection where
  addr : Address
  vrf : Bytes
  xorvrf : Bytes
  deriving DecidableEq

def VrfSelection.less (left right : VrfSelection) : Bool :=
  stringLess (encodeHex left.xorvrf) (encodeHex right.xorvrf)

/-- A second string that is too short is read out of bounds. -/
def xor (left right : Bytes) : Except Panic Bytes :=
  if left.length ≤ right.length then .ok (left.zipWith (· ^^^ ·) right)
  else .error .indexOutOfRange

variable (sorter : Sorter)

namespace Dkg

/-- As many campaigns as partners; only a valid partner adds the others. -/
def selectEveryone (me : Account) (order : List (Address × Campaign κ))
    (t : Term κ) (d : Dkg κ σ γ) : Term κ × Dkg κ σ γ :=
  let d := if order.any fun entry => entry.2.publicKey = me.publicKey then
      { d with isValidPartner := true, dkgOn := true }
    else d
  (sorter.sort Campaign.less (order.map Prod.snd)).foldl
    (fun state cp => (state.1.addCandidate cp cp.publicKey,
      if state.2.isValidPartner then state.2.addPartner me cp else state.2))
    (t, d)

def takeLucky (me : Account) (state : Term κ × Dkg κ σ γ) (lucky : VrfSelection × Nat) :
    Except Panic (Term κ × Dkg κ σ γ) :=
  match state.1.getCampaign lucky.1.addr with
  | none => .error .programmerError
  | some cp =>
    let d := if cp.publicKey = me.publicKey then
        { state.2 with
          isValidPartner := true
          partner := { state.2.partner with id := lucky.2.toUInt32 } }
      else state.2
    .ok (state.1.addCandidate cp cp.publicKey, d.addPartner me cp)

def selectLucky (me : Account) (order : List (Address × Campaign κ))
    (randomSeed : Bytes) (t : Term κ) (d : Dkg κ σ γ) : Except Panic (Term κ × Dkg κ σ γ) := do
  let vrfSelections ← order.mapM fun entry => do
    return ⟨entry.1, entry.2.vrf, ← xor entry.2.vrf randomSeed⟩
  let lucky := (sorter.sort VrfSelection.less vrfSelections).take d.partner.nbParticipants
  let (t, d) ← lucky.zipIdx.foldlM (takeLucky me) (t, d)
  return (t, if d.isValidPartner then { d with dkgOn := true } else d)

/-- `order` is how the campaign map is ranged over. The campaigns are dropped at the end. -/
def selectCandidates (sha256 : Bytes → Bytes) (me : Account)
    (order : List (Address × Campaign κ)) (blsJointSig : Bytes) (t : Term κ) (d : Dkg κ σ γ) :
    Except Panic (Term κ × Dkg κ σ γ) := do
  let (t, d) ←
    if order.length = d.partner.nbParticipants then .ok (d.selectEveryone sorter me order t)
    else if order.length < d.partner.nbParticipants then .error .programmerError
    else d.selectLucky sorter me order (sha256 blsJointSig) t
  return (t.clearCampaigns, d)

end Dkg

variable {left right : Bytes}

/-! ## The orders -/

/-- What the campaigns are ordered by where all become candidates. -/
def Campaign.rank (c : Campaign κ) : ℕ ×ₗ ℕ ×ₗ ℕ :=
  toLex (c.weight.toNat, toLex (c.accountNonce.toNat, c.hash.toNat))

theorem Campaign.less_iff (left right : Campaign κ) :
    left.less right = true ↔ left.rank < right.rank := by
  simp only [less, rank, Prod.Lex.toLex_lt_toLex, UInt64.lt_iff_toNat_lt, gt_iff_lt, compare_step,
    decide_eq_true_eq, BitVec.lt_def]

theorem stringLess_iff (left right : List Nat) : stringLess left right = true ↔ left < right := by
  induction left generalizing right with
  | nil => cases right <;> simp [stringLess]
  | cons left lefts ih =>
    cases right with
    | nil => simp [stringLess]
    | cons right rights => rw [cons_lt_cons_iff, ← ih, stringLess, compare_step]

theorem hexDigit_injective {left right : Nat} (same : hexDigit left = hexDigit right)
    (small : left < 16) (otherSmall : right < 16) : left = right := by
  unfold hexDigit at same
  split at same <;> split at same <;> omega

theorem encodeHex_injective (same : encodeHex left = encodeHex right) : left = right := by
  simp only [encodeHex, List.cons.injEq, true_and] at same
  induction left generalizing right with
  | nil =>
    cases right with
    | nil => rfl
    | cons right rights => cases same
  | cons left lefts ih =>
    cases right with
    | nil => cases same
    | cons right rights =>
      simp only [flatMap_cons, cons_append, nil_append, List.cons.injEq] at same
      obtain ⟨high, low, rest⟩ := same
      have leftSmall := left.toNat_lt
      have rightSmall := right.toNat_lt
      have isHigh := hexDigit_injective high (by omega) (by omega)
      have isLow := hexDigit_injective low (by omega) (by omega)
      have sameByte : left = right := UInt8.toNat_inj.mp (by omega)
      rw [sameByte, ih rest]

theorem VrfSelection.less_iff (left right : VrfSelection) :
    left.less right = true ↔ encodeHex left.xorvrf < encodeHex right.xorvrf :=
  stringLess_iff _ _

theorem zipWith_xor_injective {seed : Bytes} (lengths : left.length = right.length)
    (short : left.length ≤ seed.length)
    (same : left.zipWith (· ^^^ ·) seed = right.zipWith (· ^^^ ·) seed) : left = right := by
  induction left generalizing right seed with
  | nil => exact (length_eq_zero_iff.mp lengths.symm).symm
  | cons left lefts ih =>
    cases right with
    | nil => cases lengths
    | cons right rights =>
      cases seed with
      | nil => simp at short
      | cons mask masks =>
        simp only [zipWith_cons_cons, List.cons.injEq] at same
        have sameByte : left = right := (UInt8.xor_left_inj mask).mp same.1
        rw [sameByte, ih (Nat.succ.inj lengths) (Nat.le_of_succ_le_succ short) same.2]

/-! ## What a selection does -/

def Term.choose (t : Term κ) (chosen : List (Campaign κ)) : Term κ :=
  chosen.foldl (fun t cp => t.addCandidate cp cp.publicKey) t

def Dkg.join (me : Account) (d : Dkg κ σ γ) (chosen : List (Campaign κ)) : Dkg κ σ γ :=
  chosen.foldl (Dkg.addPartner me) d

def Account.isAmong (me : Account) (campaigns : List (Campaign κ)) : Bool :=
  campaigns.any fun cp => cp.publicKey = me.publicKey

theorem Term.choose_eq (t : Term κ) (chosen : List (Campaign κ)) :
    t.choose chosen = { t with
      candidates := chosen.foldl (fun map cp => map.set cp.sender cp) t.candidates
      publicKeys := t.publicKeys ++ chosen.map Campaign.publicKey } := by
  unfold Term.choose
  induction chosen generalizing t with
  | nil => simp
  | cons cp rest ih =>
    rw [foldl_cons, ih]
    simp [Term.addCandidate]

def enterIndices (map : GoMap Address Nat) (start : Nat) : List (Campaign κ) → GoMap Address Nat
  | [] => map
  | cp :: rest => enterIndices (map.set cp.sender start) (start + 1) rest

def ownId (me : Account) (id : UInt32) (start : Nat) : List (Campaign κ) → UInt32
  | [] => id
  | cp :: rest =>
    ownId me (if cp.publicKey = me.publicKey then start.toUInt32 else id) (start + 1) rest

theorem Dkg.join_eq (me : Account) (d : Dkg κ σ γ) (chosen : List (Campaign κ)) :
    d.join me chosen = { d with
      partner := { d.partner with
        partPubs := d.partner.partPubs ++ chosen.map Campaign.dkgPoint
        id := ownId me d.partner.id d.partner.partPubs.length chosen
        addressIndex :=
          enterIndices d.partner.addressIndex d.partner.partPubs.length chosen } } := by
  unfold Dkg.join
  induction chosen generalizing d with
  | nil => simp [enterIndices, ownId]
  | cons cp rest ih =>
    rw [foldl_cons, ih]
    simp [Dkg.addPartner, enterIndices, ownId]

namespace Dkg

variable {t : Term κ} {order : List (Address × Campaign κ)} {randomSeed : Bytes}
  {selections : List VrfSelection}
variable {d : Dkg κ σ γ}

variable (sorter : Sorter) (me : Account)

theorem addEveryone_eq (sorted : List (Campaign κ)) (t : Term κ) (d : Dkg κ σ γ) :
    sorted.foldl (fun state cp => (state.1.addCandidate cp cp.publicKey,
        if state.2.isValidPartner then state.2.addPartner me cp else state.2)) (t, d) =
      (t.choose sorted, if d.isValidPartner then d.join me sorted else d) := by
  induction sorted generalizing t d with
  | nil => simp [Term.choose, join]
  | cons cp rest ih =>
    rw [foldl_cons, ih]
    cases isValid : d.isValidPartner with
    | true =>
      have stays : (d.addPartner me cp).isValidPartner = true := isValid
      simp [stays, Term.choose, join]
    | false => simp [isValid, Term.choose]

/-- A node that takes part in the round, from the flags it had and the campaigns it meets. -/
def marked (d : Dkg κ σ γ) (isOwn : Bool) : Dkg κ σ γ :=
  { d with isValidPartner := d.isValidPartner || isOwn, dkgOn := d.dkgOn || isOwn }

theorem selectEveryone_eq (order : List (Address × Campaign κ)) (t : Term κ) (d : Dkg κ σ γ) :
    d.selectEveryone sorter me order t =
      let campaigns := order.map Prod.snd
      let sorted := sorter.sort Campaign.less campaigns
      (t.choose sorted,
        if d.isValidPartner || me.isAmong campaigns then
          (d.marked (me.isAmong campaigns)).join me sorted
        else d) := by
  have isOwn : (order.any fun entry => entry.2.publicKey = me.publicKey) =
      me.isAmong (order.map Prod.snd) := by
    rw [Account.isAmong, any_map]
    rfl
  unfold selectEveryone
  rw [isOwn]
  cases own : me.isAmong (order.map Prod.snd) with
  | true | false => simp [addEveryone_eq, marked, own]

theorem takeLucky_eq (d : Dkg κ σ γ) {lucky : VrfSelection × Nat}
    {cp : Campaign κ} (found : t.getCampaign lucky.1.addr = some cp) :
    takeLucky me (t, d) lucky = .ok (t.addCandidate cp cp.publicKey, { d.addPartner me cp with
        isValidPartner := d.isValidPartner || decide (cp.publicKey = me.publicKey) }) := by
  unfold takeLucky
  rw [found]
  by_cases own : cp.publicKey = me.publicKey
  · simp [own, addPartner]
  · simp [own, addPartner]

theorem takeLucky_foldlM {lucky : List (VrfSelection × Nat)}
    {chosen : List (Campaign κ)} (d : Dkg κ σ γ)
    (found : List.Forall₂ (fun entry cp => t.getCampaign entry.1.addr = some cp) lucky chosen) :
    lucky.foldlM (takeLucky me) (t, d) = .ok (t.choose chosen,
      { d.join me chosen with isValidPartner := d.isValidPartner || me.isAmong chosen }) := by
  induction lucky generalizing chosen t d with
  | nil =>
    cases found
    simp [Term.choose, join, Account.isAmong]
    rfl
  | cons first rest ih =>
    cases found with
    | @cons _ cp _ others isFirst later =>
      have stillFound : List.Forall₂ (fun entry other =>
          (t.addCandidate cp cp.publicKey).getCampaign entry.1.addr = some other) rest others :=
        later
      rw [foldlM_cons, takeLucky_eq me d isFirst]
      refine (ih _ stillFound).trans ?_
      rw [join_eq, join_eq]
      simp [Term.choose, addPartner, Account.isAmong, Bool.or_assoc, enterIndices, ownId]

def vrfSelection (randomSeed : Bytes) (entry : Address × Campaign κ) : VrfSelection :=
  ⟨entry.1, entry.2.vrf, entry.2.vrf.zipWith (· ^^^ ·) randomSeed⟩

theorem mapM_vrfSelection (short : ∀ entry ∈ order, entry.2.vrf.length ≤ randomSeed.length) :
    (order.mapM fun entry => do
        return (⟨entry.1, entry.2.vrf, ← xor entry.2.vrf randomSeed⟩ : VrfSelection)) =
      .ok (order.map (vrfSelection randomSeed)) := by
  induction order with
  | nil => rfl
  | cons entry rest ih =>
    rw [mapM_cons, ih fun other member => short other (mem_cons_of_mem _ member), xor,
      if_pos (short entry mem_cons_self)]
    rfl

def lucky (randomSeed : Bytes) (n : Nat) (order : List (Address × Campaign κ)) :
    List VrfSelection :=
  (sorter.sort VrfSelection.less (order.map (vrfSelection randomSeed))).take n

def luckyCampaigns (t : Term κ) (selections : List VrfSelection) : List (Campaign κ) :=
  selections.filterMap fun selection => t.getCampaign selection.addr

theorem luckyCampaigns_found
    (all : ∀ selection ∈ selections, (t.getCampaign selection.addr).isSome = true) (start : Nat) :
    List.Forall₂ (fun entry cp => t.getCampaign entry.1.addr = some cp) (selections.zipIdx start)
      (luckyCampaigns t selections) := by
  induction selections generalizing start with
  | nil => exact .nil
  | cons selection rest ih =>
    obtain ⟨cp, found⟩ := Option.isSome_iff_exists.mp (all selection mem_cons_self)
    rw [zipIdx_cons, luckyCampaigns, filterMap_cons, found]
    exact .cons found (ih (fun other member => all other (mem_cons_of_mem _ member)) _)

theorem luckyCampaigns_getElem?
    (all : ∀ selection ∈ selections, (t.getCampaign selection.addr).isSome = true) (index : Nat) :
    (luckyCampaigns t selections)[index]? =
      selections[index]?.bind fun selection => t.getCampaign selection.addr := by
  induction selections generalizing index with
  | nil => rfl
  | cons selection rest ih =>
    obtain ⟨cp, found⟩ := Option.isSome_iff_exists.mp (all selection mem_cons_self)
    rw [luckyCampaigns, filterMap_cons, found]
    cases index with
    | zero => exact found.symm
    | succ index => exact ih (fun other member => all other (mem_cons_of_mem _ member)) index

theorem luckyCampaigns_senders (all : ∀ selection ∈ selections,
      ∃ cp, t.getCampaign selection.addr = some cp ∧ cp.sender = selection.addr) :
    (luckyCampaigns t selections).map sender = selections.map VrfSelection.addr := by
  induction selections with
  | nil => rfl
  | cons selection rest ih =>
    obtain ⟨cp, found, isSender⟩ := all selection mem_cons_self
    have later := ih fun other member => all other (mem_cons_of_mem _ member)
    rw [luckyCampaigns, filterMap_cons, found, map_cons, map_cons, isSender, ← later]
    rfl

theorem mem_lucky {sorter : Sorter} {n : Nat} {selection : VrfSelection}
    (member : selection ∈ lucky sorter randomSeed n order) :
    ∃ entry ∈ order, vrfSelection randomSeed entry = selection :=
  mem_map.mp ((sorter.perm _ _).mem_iff.mp (mem_of_mem_take member))

theorem lucky_distinct (randomSeed : Bytes) (n : Nat) (distinct : (order.map Prod.fst).Nodup) :
    ((lucky sorter randomSeed n order).map VrfSelection.addr).Nodup := by
  have sortedDistinct : ((sorter.sort VrfSelection.less
      (order.map (vrfSelection randomSeed))).map VrfSelection.addr).Nodup := by
    rw [((sorter.perm _ _).map _).nodup_iff, map_map]
    exact distinct
  exact sortedDistinct.sublist ((take_sublist _ _).map _)

theorem luckyCampaigns_distinct (randomSeed : Bytes) (n : Nat)
    (distinct : (order.map Prod.fst).Nodup)
    (filed : ∀ entry ∈ order, t.getCampaign entry.1 = some entry.2 ∧ entry.2.sender = entry.1) :
    ((luckyCampaigns t (lucky sorter randomSeed n order)).map sender).Nodup := by
  rw [luckyCampaigns_senders]
  · exact lucky_distinct sorter randomSeed n distinct
  · intro selection member
    obtain ⟨entry, inOrder, rfl⟩ := mem_lucky member
    exact ⟨entry.2, (filed entry inOrder).1, (filed entry inOrder).2⟩

theorem selectLucky_eq (d : Dkg κ σ γ)
    (short : ∀ entry ∈ order, entry.2.vrf.length ≤ randomSeed.length)
    (filed : ∀ entry ∈ order, t.getCampaign entry.1 = some entry.2) :
    d.selectLucky sorter me order randomSeed t =
      let chosen := luckyCampaigns t (lucky sorter randomSeed d.partner.nbParticipants order)
      .ok (t.choose chosen,
        { d.join me chosen with
          isValidPartner := d.isValidPartner || me.isAmong chosen
          dkgOn := d.dkgOn || (d.isValidPartner || me.isAmong chosen) }) := by
  have all : ∀ selection ∈ lucky sorter randomSeed d.partner.nbParticipants order,
      (t.getCampaign selection.addr).isSome = true := by
    intro selection member
    obtain ⟨entry, isEntry, rfl⟩ := mem_lucky member
    show (t.getCampaign entry.1).isSome = true
    rw [filed entry isEntry]
    rfl
  have taken := takeLucky_foldlM me d (luckyCampaigns_found all 0)
  unfold selectLucky
  rw [mapM_vrfSelection short]
  show Except.bind (List.foldlM (takeLucky me) (t, d)
    (lucky sorter randomSeed d.partner.nbParticipants order).zipIdx) _ = _
  rw [taken]
  dsimp only [Except.bind, pure, Except.pure]
  generalize luckyCampaigns t (lucky sorter randomSeed d.partner.nbParticipants order) = chosen
  have sameOn : (d.join me chosen).dkgOn = d.dkgOn := by rw [join_eq]
  generalize (d.isValidPartner || me.isAmong chosen) = isValid
  cases isValid with
  | true => simp
  | false => simp [sameOn]

theorem selectCandidates_everyone (sha256 : Bytes → Bytes) (me : Account)
    (blsJointSig : Bytes) (t : Term κ) (everyone : order.length = d.partner.nbParticipants) :
    d.selectCandidates sorter sha256 me order blsJointSig t =
      let campaigns := order.map Prod.snd
      let sorted := sorter.sort Campaign.less campaigns
      .ok ((t.choose sorted).clearCampaigns,
        if d.isValidPartner || me.isAmong campaigns then
          (d.marked (me.isAmong campaigns)).join me sorted
        else d) := by
  rw [selectCandidates, if_pos everyone, selectEveryone_eq]
  rfl

theorem selectCandidates_lucky (sha256 : Bytes → Bytes) (me : Account) (blsJointSig : Bytes)
    (more : d.partner.nbParticipants < order.length)
    (short : ∀ entry ∈ order, entry.2.vrf.length ≤ (sha256 blsJointSig).length)
    (filed : ∀ entry ∈ order, t.getCampaign entry.1 = some entry.2) :
    d.selectCandidates sorter sha256 me order blsJointSig t =
      let chosen := luckyCampaigns t
        (lucky sorter (sha256 blsJointSig) d.partner.nbParticipants order)
      .ok ((t.choose chosen).clearCampaigns,
        { d.join me chosen with
          isValidPartner := d.isValidPartner || me.isAmong chosen
          dkgOn := d.dkgOn || (d.isValidPartner || me.isAmong chosen) }) := by
  rw [selectCandidates, if_neg more.ne', if_neg more.asymm, selectLucky_eq sorter me d short filed]
  rfl

/-! ## What a selection that ends well did -/

theorem short_of_mapM (succeeded : (order.mapM fun entry => do
      return (⟨entry.1, entry.2.vrf, ← xor entry.2.vrf randomSeed⟩ : VrfSelection)) =
        .ok selections) : ∀ entry ∈ order, entry.2.vrf.length ≤ randomSeed.length := by
  induction order generalizing selections with
  | nil => simp
  | cons entry rest ih =>
    rw [mapM_cons] at succeeded
    obtain ⟨first, isFirst, later⟩ := bind_ok succeeded
    obtain ⟨others, isOthers, -⟩ := bind_ok later
    obtain ⟨masked, isMasked, -⟩ := bind_ok isFirst
    intro other member
    rcases mem_cons.mp member with rfl | inRest
    · unfold xor at isMasked
      split at isMasked
      · assumption
      · cases isMasked
    · exact ih isOthers other inRest

def chosen (randomSeed : Bytes) (n : Nat) (t : Term κ)
    (order : List (Address × Campaign κ)) : List (Campaign κ) :=
  if order.length = n then sorter.sort Campaign.less (order.map Prod.snd)
  else luckyCampaigns t (lucky sorter randomSeed n order)

section Chosen

variable {sorter : Sorter} {randomSeed : Bytes} {n : Nat} {t : Term κ}
variable {order : List (Address × Campaign κ)}
variable {sha256 : Bytes → Bytes} {me : Account} {blsJointSig : Bytes} {state : Term κ × Dkg κ σ γ}

theorem mem_order_of_chosen (filed : ∀ entry ∈ order, t.getCampaign entry.1 = some entry.2)
    {cp : Campaign κ} (member : cp ∈ chosen sorter randomSeed n t order) :
    ∃ addr, (addr, cp) ∈ order := by
  unfold chosen at member
  split at member
  · obtain ⟨entry, inOrder, rfl⟩ := mem_map.mp ((sorter.perm _ _).mem_iff.mp member)
    exact ⟨entry.1, inOrder⟩
  obtain ⟨selection, isSelected, found⟩ := mem_filterMap.mp member
  obtain ⟨entry, inOrder, rfl⟩ := mem_lucky isSelected
  rw [show (vrfSelection randomSeed entry).addr = entry.1 from rfl, filed entry inOrder] at found
  cases found
  exact ⟨entry.1, inOrder⟩

theorem chosen_length (filed : ∀ entry ∈ order, t.getCampaign entry.1 = some entry.2)
    (enough : n ≤ order.length) : (chosen sorter randomSeed n t order).length = n := by
  unfold chosen
  split
  next everyone => rw [(sorter.perm _ _).length_eq, length_map, everyone]
  have all : ∀ selection ∈ lucky sorter randomSeed n order,
      (t.getCampaign selection.addr).isSome = true := by
    intro selection member
    obtain ⟨entry, inOrder, rfl⟩ := mem_lucky member
    exact Option.isSome_iff_exists.mpr ⟨entry.2, filed entry inOrder⟩
  rw [← (luckyCampaigns_found all 0).length_eq, length_zipIdx, lucky, length_take,
    (sorter.perm _ _).length_eq, length_map]
  exact Nat.min_eq_left enough

theorem chosen_distinct (distinct : (order.map Prod.fst).Nodup)
    (filed : ∀ entry ∈ order, t.getCampaign entry.1 = some entry.2 ∧ entry.2.sender = entry.1) :
    ((chosen sorter randomSeed n t order).map sender).Nodup := by
  unfold chosen
  split
  · have senders : (order.map Prod.snd).map sender = order.map Prod.fst := by
      rw [map_map]
      exact map_congr_left fun entry member => (filed entry member).2
    rw [((sorter.perm _ _).map _).nodup_iff, senders]
    exact distinct
  · exact luckyCampaigns_distinct sorter randomSeed n distinct filed

theorem short_of_selected {d : Dkg κ σ γ} (more : d.partner.nbParticipants < order.length)
    (selected : d.selectCandidates sorter sha256 me order blsJointSig t = .ok state) :
    ∀ entry ∈ order, entry.2.vrf.length ≤ (sha256 blsJointSig).length := by
  rw [selectCandidates, if_neg more.ne', if_neg more.asymm] at selected
  obtain ⟨chosen, isChosen, -⟩ := bind_ok selected
  obtain ⟨selections, succeeded, -⟩ := bind_ok isChosen
  exact short_of_mapM succeeded

theorem selectCandidates_chosen {d : Dkg κ σ γ}
    (filed : ∀ entry ∈ order, t.getCampaign entry.1 = some entry.2)
    (selected : d.selectCandidates sorter sha256 me order blsJointSig t = .ok state) :
    let chosen := chosen sorter (sha256 blsJointSig) d.partner.nbParticipants t order
    let isValid := d.isValidPartner || me.isAmong chosen
    d.partner.nbParticipants ≤ order.length ∧ ∃ on,
      state = ((t.choose chosen).clearCampaigns,
        { d with
          isValidPartner := isValid
          dkgOn := on
          partner := if isValid = true ∨ d.partner.nbParticipants < order.length then
              (d.join me chosen).partner
            else d.partner }) := by
  rcases Nat.lt_trichotomy order.length d.partner.nbParticipants with few | everyone | more
  · rw [selectCandidates, if_neg few.ne, if_pos few] at selected
    cases selected
  · refine ⟨everyone.ge, ?_⟩
    rw [selectCandidates_everyone sorter sha256 me blsJointSig t everyone] at selected
    have sameOwn : me.isAmong (sorter.sort Campaign.less (order.map Prod.snd)) =
        me.isAmong (order.map Prod.snd) :=
      (sorter.perm _ _).any_eq
    rw [chosen, if_pos everyone, sameOwn]
    cases selected
    have notMore : ¬ d.partner.nbParticipants < order.length := everyone.le.not_gt
    cases isValid : d.isValidPartner || me.isAmong (order.map Prod.snd) with
    | true => exact ⟨d.dkgOn || me.isAmong (order.map Prod.snd), by simp [join_eq, marked, isValid]⟩
    | false =>
      obtain ⟨notValid, -⟩ := Bool.or_eq_false_iff.mp isValid
      refine ⟨d.dkgOn, Prod.ext rfl ?_⟩
      simp only [Bool.false_eq_true, if_false, notMore, or_self]
      rw [← notValid]
  · refine ⟨more.le, ?_⟩
    rw [selectCandidates_lucky sorter sha256 me blsJointSig more
      (short_of_selected more selected) filed] at selected
    rw [chosen, if_neg more.ne']
    generalize luckyCampaigns t (lucky sorter (sha256 blsJointSig) d.partner.nbParticipants order) =
      lucky at selected
    cases selected
    exact ⟨d.dkgOn || (d.isValidPartner || me.isAmong lucky), by simp [join_eq, more]⟩

end Chosen

end Dkg

/-! ## Candidates and indices -/

section Chosen

variable {chosen : List (Campaign κ)}
variable {cp : Campaign κ}
variable {addr : Address} {others : List (Campaign κ)} {index : Nat}

variable (map : Campaigns κ)

theorem candidates_of_notMem (absent : addr ∉ chosen.map sender) :
    (chosen.foldl (fun map cp => map.set cp.sender cp) map).get? addr = map.get? addr := by
  induction chosen generalizing map with
  | nil => rfl
  | cons cp rest ih =>
    rw [map_cons, mem_cons, not_or] at absent
    rw [foldl_cons, ih _ absent.2, GoMap.get?_set_of_ne _ _ absent.1]

theorem candidates_getLast (last : chosen.getLast? = some cp) :
    (chosen.foldl (fun map cp => map.set cp.sender cp) map).get? cp.sender = some cp := by
  obtain ⟨front, rfl⟩ := getLast?_eq_some_iff.mp last
  rw [foldl_append]
  exact GoMap.get?_set_self _ _ _

theorem candidates_of_mem (distinct : (chosen.map sender).Nodup) (member : cp ∈ chosen) :
    (chosen.foldl (fun map cp => map.set cp.sender cp) map).get? cp.sender = some cp := by
  induction chosen generalizing map with
  | nil => cases member
  | cons first rest ih =>
    obtain ⟨notInRest, restDistinct⟩ := nodup_cons.mp distinct
    rw [foldl_cons]
    rcases mem_cons.mp member with rfl | later
    · rw [candidates_of_notMem _ notInRest, GoMap.get?_set_self]
    · exact ih _ restDistinct later

theorem candidates_perm (distinct : (chosen.map sender).Nodup) (permuted : chosen.Perm others) :
    chosen.foldl (fun map cp => map.set cp.sender cp) map =
      others.foldl (fun map cp => map.set cp.sender cp) map := by
  refine GoMap.ext fun addr => ?_
  by_cases present : addr ∈ chosen.map sender
  · obtain ⟨cp, member, rfl⟩ := mem_map.mp present
    rw [candidates_of_mem map distinct member,
      candidates_of_mem map ((permuted.map _).nodup_iff.mp distinct) (permuted.mem_iff.mp member)]
  · rw [candidates_of_notMem map present,
      candidates_of_notMem map fun later => present ((permuted.map _).mem_iff.mpr later)]

theorem enterIndices_of_notMem (map : GoMap Address Nat) (start : Nat)
    (absent : addr ∉ chosen.map sender) :
    (enterIndices map start chosen).get? addr = map.get? addr := by
  induction chosen generalizing map start with
  | nil => rfl
  | cons cp rest ih =>
    rw [map_cons, mem_cons, not_or] at absent
    rw [enterIndices, ih _ _ absent.2, GoMap.get?_set_of_ne _ _ absent.1]

theorem enterIndices_of_getElem? (map : GoMap Address Nat) (start : Nat)
    (distinct : (chosen.map sender).Nodup) (found : chosen[index]? = some cp) :
    (enterIndices map start chosen).get? cp.sender = some (start + index) := by
  induction chosen generalizing map start index with
  | nil => cases found
  | cons first rest ih =>
    obtain ⟨notInRest, restDistinct⟩ := nodup_cons.mp distinct
    cases index with
    | zero =>
      cases found
      rw [enterIndices, enterIndices_of_notMem _ _ notInRest, GoMap.get?_set_self]
      rfl
    | succ index =>
      rw [enterIndices, ih _ _ restDistinct found]
      congr 1
      omega

theorem ownId_of_notMem {me : Account} (id : UInt32) (start : Nat)
    (others : ∀ cp ∈ chosen, cp.publicKey ≠ me.publicKey) : ownId me id start chosen = id := by
  induction chosen generalizing start with
  | nil => rfl
  | cons cp rest ih =>
    rw [ownId, if_neg (others cp mem_cons_self)]
    exact ih _ fun other member => others other (mem_cons_of_mem _ member)

theorem ownId_append {me : Account} {back : List (Campaign κ)} (id : UInt32)
    (start : Nat) (isOwn : cp.publicKey = me.publicKey)
    (others : ∀ other ∈ back, other.publicKey ≠ me.publicKey) :
    ownId me id start (chosen ++ cp :: back) = (start + chosen.length).toUInt32 := by
  induction chosen generalizing id start with
  | nil =>
    rw [nil_append, ownId, if_pos isOwn, ownId_of_notMem _ _ others]
    rfl
  | cons first rest ih =>
    rw [cons_append, ownId, ih]
    congr 1
    rw [length_cons]
    omega

theorem sender_eq_of_indices (distinct : (chosen.map sender).Nodup)
    (otherDistinct : (others.map sender).Nodup)
    (same : enterIndices ∅ 0 chosen = enterIndices ∅ 0 others)
    {other : Campaign κ} (found : chosen[index]? = some cp)
    (otherFound : others[index]? = some other) : cp.sender = other.sender := by
  have isIndex := enterIndices_of_getElem? ∅ 0 distinct found
  rw [same] at isIndex
  by_cases present : cp.sender ∈ others.map sender
  · obtain ⟨third, member, isSender⟩ := mem_map.mp present
    obtain ⟨position, isThird⟩ := getElem?_of_mem member
    rw [← isSender, enterIndices_of_getElem? ∅ 0 otherDistinct isThird, Option.some.injEq] at isIndex
    obtain rfl : position = index := by omega
    rw [isThird] at otherFound
    cases otherFound
    exact isSender.symm
  · rw [enterIndices_of_notMem _ _ present] at isIndex
    cases isIndex

end Chosen

end AnnchainOG.Senate
