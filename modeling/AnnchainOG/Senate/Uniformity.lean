import AnnchainOG.Senate.Selection

/-!
# The same senators everywhere

Nodes that start from the same campaigns agree on the partners and their order where no tie
decides.
-/

namespace AnnchainOG.Senate

open Campaign Dkg List

variable {κ σ γ : Type}

def outcome (state : Term κ × Dkg κ σ γ) :
    Campaigns κ × List Bytes × List (Option κ) × GoMap Address Nat :=
  (state.1.candidates, state.1.publicKeys, state.2.partner.partPubs, state.2.partner.addressIndex)

def Uniform (sha256 : Bytes → Bytes) (me : Account) (blsJointSig : Bytes)
    (campaigns : Campaigns κ) (t : Term κ) (d : Dkg κ σ γ) : Prop :=
  ∀ (sorter : Sorter) (order other : List (Address × Campaign κ)),
    campaigns.Iterates order → campaigns.Iterates other →
      ∃ first second,
        d.selectCandidates sorter sha256 me order blsJointSig t = .ok first ∧
        d.selectCandidates sorter sha256 me other blsJointSig t = .ok second ∧
        outcome first = outcome second

def Campaign.SameRank (left right : Campaign κ) : Prop :=
  left.weight = right.weight ∧ left.accountNonce = right.accountNonce ∧ left.hash = right.hash

def Dkg.Joins (d : Dkg κ σ γ) (me : Account) (campaigns : Campaigns κ) : Prop :=
  d.isValidPartner = true ∨ ∃ addr cp, campaigns.get? addr = some cp ∧ cp.publicKey = me.publicKey

def ahead (randomSeed : Bytes) (campaigns : Campaigns κ) (cp : Campaign κ) : Nat :=
  campaigns.entries.countP fun entry =>
    (Dkg.vrfSelection randomSeed (entry.1, entry.2)).less
      (Dkg.vrfSelection randomSeed (cp.sender, cp)) = true

/-- No tie decides about who is selected, or in which order. -/
def Untied (randomSeed : Bytes) (me : Account) (campaigns : Campaigns κ) (d : Dkg κ σ γ) : Prop :=
  ∀ left right, campaigns.get? left.sender = some left → campaigns.get? right.sender = some right →
    left.sender ≠ right.sender →
      if campaigns.size = d.partner.nbParticipants then
        left.SameRank right → left.publicKey = right.publicKey ∧ ¬ d.Joins me campaigns
      else left.vrf = right.vrf → d.partner.nbParticipants ≤ ahead randomSeed campaigns left

theorem Campaign.rank_eq_iff {left right : Campaign κ} :
    left.rank = right.rank ↔ left.SameRank right := by
  simp only [rank, SameRank, EmbeddingLike.apply_eq_iff_eq, Prod.mk.injEq, UInt64.toNat_inj,
    BitVec.toNat_inj]

section Selecting

variable {sha256 : Bytes → Bytes} {me : Account} {blsJointSig : Bytes} {campaigns : Campaigns κ}
variable {t : Term κ} {d : Dkg κ σ γ} {order other : List (Address × Campaign κ)}
variable {left right : Campaign κ} {randomSeed : Bytes}
variable {sorter : Sorter} {state : Term κ × Dkg κ σ γ}

theorem isAmong_iff (iterates : campaigns.Iterates order) :
    me.isAmong (order.map Prod.snd) = true ↔
      ∃ addr cp, campaigns.get? addr = some cp ∧ cp.publicKey = me.publicKey := by
  simp only [Account.isAmong, any_map, any_eq_true, Function.comp_apply,
    decide_eq_true_eq, Prod.exists]
  constructor
  · rintro ⟨addr, cp, member, isKey⟩
    exact ⟨addr, cp, iterates.mem_iff.mp member, isKey⟩
  · rintro ⟨addr, cp, found, isKey⟩
    exact ⟨addr, cp, iterates.mem_iff.mpr found, isKey⟩

theorem joins_iff (iterates : campaigns.Iterates order) :
    (d.isValidPartner || me.isAmong (order.map Prod.snd)) = true ↔ d.Joins me campaigns := by
  rw [Bool.or_eq_true, isAmong_iff iterates]
  rfl

theorem found_of_mem (iterates : campaigns.Iterates order)
    (filed : ∀ addr cp, campaigns.get? addr = some cp → cp.sender = addr)
    {entry : Address × Campaign κ} (member : entry ∈ order) :
    entry.2.sender = entry.1 ∧ campaigns.get? entry.2.sender = some entry.2 := by
  have isEntry := iterates.mem_iff.mp member
  have isSender := filed _ _ isEntry
  exact ⟨isSender, isSender ▸ isEntry⟩

theorem senders_distinct (iterates : campaigns.Iterates order)
    (filed : ∀ addr cp, campaigns.get? addr = some cp → cp.sender = addr) :
    ((order.map Prod.snd).map Campaign.sender).Nodup := by
  have same : (order.map Prod.snd).map Campaign.sender = order.map Prod.fst := by
    rw [map_map]
    exact map_congr_left fun entry member => (found_of_mem iterates filed member).1
  rw [same]
  exact iterates.nodup

def chosenOutcome (t : Term κ) (d : Dkg κ σ γ) (joins : Bool) (chosen : List (Campaign κ)) :
    Campaigns κ × List Bytes × List (Option κ) × GoMap Address Nat :=
  (chosen.foldl (fun map cp => map.set cp.sender cp) t.candidates,
    t.publicKeys ++ chosen.map Campaign.publicKey,
    if joins then d.partner.partPubs ++ chosen.map Campaign.dkgPoint else d.partner.partPubs,
    if joins then enterIndices d.partner.addressIndex d.partner.partPubs.length chosen
    else d.partner.addressIndex)

theorem everyone_outcome
    (iterates : campaigns.Iterates order) (everyone : campaigns.size = d.partner.nbParticipants)
    (selected : d.selectCandidates sorter sha256 me order blsJointSig t = .ok state) :
    outcome state = chosenOutcome t d (d.isValidPartner || me.isAmong (order.map Prod.snd))
      (sorter.sort Campaign.less (order.map Prod.snd)) := by
  have isLength : order.length = d.partner.nbParticipants := iterates.length.trans everyone
  rw [selectCandidates_everyone sorter sha256 me blsJointSig t isLength] at selected
  cases selected
  simp only [outcome, chosenOutcome, Term.clearCampaigns, Term.choose_eq]
  cases d.isValidPartner || me.isAmong (order.map Prod.snd) with
  | true => simp [join_eq, Dkg.marked]
  | false => simp

theorem filed_order (iterates : campaigns.Iterates order) (cached : t.campaigns = some campaigns) :
    ∀ entry ∈ order, t.getCampaign entry.1 = some entry.2 := by
  intro entry member
  rw [Term.getCampaign, cached]
  exact iterates.mem_iff.mp member

theorem lucky_outcome (iterates : campaigns.Iterates order) (cached : t.campaigns = some campaigns)
    (more : d.partner.nbParticipants < campaigns.size)
    (short : ∀ entry ∈ order, entry.2.vrf.length ≤ (sha256 blsJointSig).length)
    (selected : d.selectCandidates sorter sha256 me order blsJointSig t = .ok state) :
    outcome state = chosenOutcome t d true (Dkg.luckyCampaigns t
      (Dkg.lucky sorter (sha256 blsJointSig) d.partner.nbParticipants order)) := by
  rw [selectCandidates_lucky sorter sha256 me blsJointSig (iterates.length ▸ more) short
    (filed_order iterates cached)] at selected
  cases selected
  simp [outcome, chosenOutcome, Term.clearCampaigns, Term.choose_eq, join_eq]

/-! ## Where no tie decides -/

theorem sorted_chosenOutcome (sorter : Sorter) (iterates : campaigns.Iterates order)
    (otherIterates : campaigns.Iterates other)
    (filed : ∀ addr cp, campaigns.get? addr = some cp → cp.sender = addr)
    (everyone : campaigns.size = d.partner.nbParticipants)
    (untied : Untied randomSeed me campaigns d) {joins : Bool}
    (isJoins : joins = true ↔ d.Joins me campaigns) :
    chosenOutcome t d joins (sorter.sort Campaign.less (order.map Prod.snd)) =
      chosenOutcome t d joins (sorter.sort Campaign.less (other.map Prod.snd)) := by
  have permuted : (order.map Prod.snd).Perm (other.map Prod.snd) :=
    (iterates.unique otherIterates).map _
  have found : ∀ cp ∈ order.map Prod.snd, campaigns.get? cp.sender = some cp := by
    intro cp member
    obtain ⟨entry, inOrder, rfl⟩ := mem_map.mp member
    exact (found_of_mem iterates filed inOrder).2
  have tied : ∀ left ∈ order.map Prod.snd, ∀ right ∈ order.map Prod.snd, left.rank = right.rank →
      left ≠ right → left.publicKey = right.publicKey ∧ ¬ d.Joins me campaigns := by
    intro left isLeft right isRight sameRank different
    have senders : left.sender ≠ right.sender := by
      intro same
      have isSame := found left isLeft
      rw [same, found right isRight, Option.some.injEq] at isSame
      exact different isSame.symm
    have holds := untied left right (found left isLeft) (found right isRight) senders
    rw [if_pos everyone] at holds
    exact holds (rank_eq_iff.mp sameRank)
  cases joins with
  | true =>
    have same : (sorter.sort Campaign.less (order.map Prod.snd)).map id =
        (sorter.sort Campaign.less (other.map Prod.snd)).map id := by
      refine sorter.sort_map less_iff permuted fun left isLeft right isRight sameRank => ?_
      by_contra different
      exact (tied left isLeft right isRight sameRank different).2 (isJoins.mp rfl)
    rw [map_id, map_id] at same
    rw [same]
  | false =>
    have sameKeys : (sorter.sort Campaign.less (order.map Prod.snd)).map Campaign.publicKey =
        (sorter.sort Campaign.less (other.map Prod.snd)).map Campaign.publicKey := by
      refine sorter.sort_map less_iff permuted fun left isLeft right isRight sameRank => ?_
      by_contra different
      exact different (tied left isLeft right isRight sameRank (by rintro rfl; exact different rfl)).1
    have sortedDistinct : ((sorter.sort Campaign.less (order.map Prod.snd)).map
        Campaign.sender).Nodup :=
      ((sorter.perm _ _).map _).nodup_iff.mpr (senders_distinct iterates filed)
    have sameCandidates :=
      candidates_perm t.candidates sortedDistinct (sorter.sort_perm Campaign.less permuted)
    rw [chosenOutcome, chosenOutcome, sameKeys, sameCandidates]
    rfl

theorem ahead_eq (iterates : campaigns.Iterates order) (randomSeed : Bytes) (cp : Campaign κ) :
    ahead randomSeed campaigns cp = (order.map (Dkg.vrfSelection randomSeed)).countP fun item =>
      item.less (Dkg.vrfSelection randomSeed (cp.sender, cp)) := by
  rw [ahead, ← iterates, Multiset.coe_countP, countP_map, countP_map]
  refine countP_congr fun entry _ => ?_
  simp

theorem vrf_eq_of_key {left right : Address × Campaign κ}
    (lengths : left.2.vrf.length = right.2.vrf.length)
    (short : left.2.vrf.length ≤ randomSeed.length)
    (sameKey : encodeHex (Dkg.vrfSelection randomSeed left).xorvrf =
      encodeHex (Dkg.vrfSelection randomSeed right).xorvrf) : left.2.vrf = right.2.vrf :=
  zipWith_xor_injective lengths short (encodeHex_injective sameKey)

theorem lucky_eq (sorter : Sorter) (iterates : campaigns.Iterates order)
    (otherIterates : campaigns.Iterates other)
    (filed : ∀ addr cp, campaigns.get? addr = some cp → cp.sender = addr)
    (more : d.partner.nbParticipants < campaigns.size)
    (vrfs : ∀ addr cp, campaigns.get? addr = some cp → cp.vrf.length = randomSeed.length)
    (untied : Untied randomSeed me campaigns d) :
    Dkg.lucky sorter randomSeed d.partner.nbParticipants order =
      Dkg.lucky sorter randomSeed d.partner.nbParticipants other := by
  have permuted := (iterates.unique otherIterates).map (Dkg.vrfSelection randomSeed)
  refine sorter.sort_take VrfSelection.less_iff permuted fun left isLeft right isRight sameKey
    different => ?_
  obtain ⟨leftEntry, inOrder, rfl⟩ := mem_map.mp isLeft
  obtain ⟨rightEntry, alsoInOrder, rfl⟩ := mem_map.mp isRight
  obtain ⟨leftSender, leftFound⟩ := found_of_mem iterates filed inOrder
  obtain ⟨rightSender, rightFound⟩ := found_of_mem iterates filed alsoInOrder
  have leftLength := vrfs _ _ leftFound
  have rightLength := vrfs _ _ rightFound
  have senders : leftEntry.2.sender ≠ rightEntry.2.sender := by
    intro same
    have sameCampaign : leftEntry.2 = rightEntry.2 := by
      rw [same, rightFound, Option.some.injEq] at leftFound
      exact leftFound.symm
    exact different (congrArg _ (Prod.ext (by rw [← leftSender, same, rightSender]) sameCampaign))
  have holds := untied _ _ leftFound rightFound senders
  rw [if_neg more.ne'] at holds
  have enough := holds (vrf_eq_of_key (leftLength.trans rightLength.symm) leftLength.le sameKey)
  rw [ahead_eq iterates, leftSender] at enough
  exact enough

/-! ## Where a tie decides -/

theorem exists_swapped (isLeft : campaigns.get? left.sender = some left)
    (isRight : campaigns.get? right.sender = some right) (senders : left.sender ≠ right.sender) :
    ∃ rest, campaigns.Iterates ((left.sender, left) :: (right.sender, right) :: rest) ∧
      campaigns.Iterates ((right.sender, right) :: (left.sender, left) :: rest) := by
  classical
  obtain ⟨order, iterates⟩ := GoMap.exists_iterates campaigns
  have leftMember := iterates.mem_iff.mpr isLeft
  have rightMember : (right.sender, right) ∈ order.erase (left.sender, left) := by
    refine (mem_erase_of_ne ?_).mpr (iterates.mem_iff.mpr isRight)
    intro same
    exact senders (congrArg Prod.fst same).symm
  have front : ((left.sender, left) :: (right.sender, right) ::
      (order.erase (left.sender, left)).erase (right.sender, right)).Perm order :=
    ((perm_cons_erase rightMember).symm.cons _).trans (perm_cons_erase leftMember).symm
  exact ⟨_, iterates.perm front, iterates.perm ((List.Perm.swap _ _ _).trans front)⟩

theorem sorted_positions (sameRank : left.rank = right.rank) (rest : List (Campaign κ)) :
    ∃ index : Nat,
      (Sorter.insertion.sort Campaign.less (left :: right :: rest))[index]? = some left ∧
      (Sorter.insertion.sort Campaign.less (right :: left :: rest))[index]? = some right := by
  refine ⟨_, Sorter.insertion_getElem? less_iff left (right :: rest), ?_⟩
  have sameLess : ∀ cp : Campaign κ, cp.less left = cp.less right := by
    intro cp
    rw [Bool.eq_iff_iff, less_iff, less_iff, sameRank]
  have samePosition : (left :: right :: rest).countP (fun cp => cp.less left) =
      (right :: left :: rest).countP fun cp => cp.less right := by
    rw [(List.Perm.swap right left rest).countP_eq]
    exact countP_congr fun cp _ => by rw [sameLess]
  rw [samePosition]
  exact Sorter.insertion_getElem? less_iff right (left :: rest)

theorem everyone_tie (fresh : d.partner.partPubs = [] ∧ d.partner.addressIndex = ∅)
    (filed : ∀ addr cp, campaigns.get? addr = some cp → cp.sender = addr)
    (everyone : campaigns.size = d.partner.nbParticipants)
    (uniform : Uniform sha256 me blsJointSig campaigns t d)
    (isLeft : campaigns.get? left.sender = some left)
    (isRight : campaigns.get? right.sender = some right) (senders : left.sender ≠ right.sender)
    (sameRank : left.rank = right.rank) :
    left.publicKey = right.publicKey ∧ ¬ d.Joins me campaigns := by
  obtain ⟨rest, iterates, otherIterates⟩ := exists_swapped isLeft isRight senders
  obtain ⟨index, leftPlaced, rightPlaced⟩ := sorted_positions sameRank (rest.map Prod.snd)
  obtain ⟨first, second, isFirst, isSecond, same⟩ := uniform .insertion _ _ iterates otherIterates
  have sameJoins : (d.isValidPartner || me.isAmong
        (((left.sender, left) :: (right.sender, right) :: rest).map Prod.snd)) =
      (d.isValidPartner || me.isAmong
        (((right.sender, right) :: (left.sender, left) :: rest).map Prod.snd)) := by
    rw [Bool.eq_iff_iff, joins_iff iterates, joins_iff otherIterates]
  rw [everyone_outcome iterates everyone isFirst, everyone_outcome otherIterates everyone isSecond,
    ← sameJoins] at same
  simp only [chosenOutcome, Prod.mk.injEq, fresh.1, fresh.2] at same
  obtain ⟨-, samePublicKeys, -, sameIndices⟩ := same
  constructor
  · have keys := congrArg (fun keys => keys[index]?) (append_cancel_left samePublicKeys)
    simp only [map_cons, getElem?_map, leftPlaced, rightPlaced] at keys
    exact Option.some.inj keys
  · intro joins
    rw [if_pos ((joins_iff iterates).mpr joins), if_pos ((joins_iff iterates).mpr joins)]
      at sameIndices
    refine senders (sender_eq_of_indices ?_ ?_ sameIndices leftPlaced rightPlaced)
    · exact ((Sorter.insertion.perm _ _).map _).nodup_iff.mpr (senders_distinct iterates filed)
    · exact ((Sorter.insertion.perm _ _).map _).nodup_iff.mpr (senders_distinct otherIterates filed)

variable (randomSeed)

theorem lucky_position {cp : Campaign κ} {rest : List (Address × Campaign κ)}
    (iterates : campaigns.Iterates ((cp.sender, cp) :: rest))
    (cached : t.campaigns = some campaigns) {n : Nat} (few : ahead randomSeed campaigns cp < n) :
    (Dkg.luckyCampaigns t (Dkg.lucky .insertion randomSeed n ((cp.sender, cp) :: rest)))[
      ahead randomSeed campaigns cp]? = some cp := by
  have filed := filed_order iterates cached
  have placed : (Dkg.lucky .insertion randomSeed n ((cp.sender, cp) :: rest))[
      ahead randomSeed campaigns cp]? = some (Dkg.vrfSelection randomSeed (cp.sender, cp)) := by
    rw [Dkg.lucky, getElem?_take_of_lt few, ahead_eq iterates]
    exact Sorter.insertion_getElem? VrfSelection.less_iff _ _
  rw [luckyCampaigns_getElem?, placed]
  · exact filed _ mem_cons_self
  · intro selection member
    obtain ⟨entry, inOrder, rfl⟩ := mem_lucky member
    exact Option.isSome_iff_exists.mpr ⟨entry.2, filed entry inOrder⟩

theorem ahead_congr (campaigns : Campaigns κ) (sameVrf : left.vrf = right.vrf) :
    ahead randomSeed campaigns left = ahead randomSeed campaigns right := by
  refine Multiset.countP_congr rfl fun entry _ => ?_
  simp only [VrfSelection.less, Dkg.vrfSelection, sameVrf]

theorem luckySenders_distinct (n : Nat) (iterates : campaigns.Iterates order)
    (cached : t.campaigns = some campaigns)
    (filed : ∀ addr cp, campaigns.get? addr = some cp → cp.sender = addr) (sorter : Sorter) :
    ((Dkg.luckyCampaigns t (Dkg.lucky sorter randomSeed n order)).map Campaign.sender).Nodup :=
  luckyCampaigns_distinct sorter randomSeed n iterates.nodup fun entry member =>
    ⟨filed_order iterates cached entry member, (found_of_mem iterates filed member).1⟩

theorem lucky_tie (fresh : d.partner.partPubs = [] ∧ d.partner.addressIndex = ∅)
    (cached : t.campaigns = some campaigns)
    (filed : ∀ addr cp, campaigns.get? addr = some cp → cp.sender = addr)
    (more : d.partner.nbParticipants < campaigns.size)
    (short : ∀ addr cp, campaigns.get? addr = some cp → cp.vrf.length ≤ (sha256 blsJointSig).length)
    (uniform : Uniform sha256 me blsJointSig campaigns t d)
    (isLeft : campaigns.get? left.sender = some left)
    (isRight : campaigns.get? right.sender = some right) (senders : left.sender ≠ right.sender)
    (sameVrf : left.vrf = right.vrf) :
    d.partner.nbParticipants ≤ ahead (sha256 blsJointSig) campaigns left := by
  by_contra few
  rw [not_le] at few
  obtain ⟨rest, iterates, otherIterates⟩ := exists_swapped isLeft isRight senders
  obtain ⟨first, second, isFirst, isSecond, same⟩ := uniform .insertion _ _ iterates otherIterates
  rw [lucky_outcome iterates cached more
      (fun entry member => short entry.1 entry.2 (iterates.mem_iff.mp member)) isFirst,
    lucky_outcome otherIterates cached more
      (fun entry member => short entry.1 entry.2 (otherIterates.mem_iff.mp member)) isSecond] at same
  simp only [chosenOutcome, Prod.mk.injEq, fresh.1, fresh.2, if_true] at same
  -- Both stand at this position, each in its own range.
  have sameAhead := ahead_congr (sha256 blsJointSig) campaigns sameVrf
  have leftPlaced := lucky_position _ iterates cached few
  have rightPlaced := lucky_position _ otherIterates cached (sameAhead ▸ few)
  rw [← sameAhead] at rightPlaced
  exact senders (sender_eq_of_indices (luckySenders_distinct _ _ iterates cached filed _)
    (luckySenders_distinct _ _ otherIterates cached filed _) same.2.2.2 leftPlaced rightPlaced)

end Selecting

/-- After `Reset`, all nodes with the same campaigns select the same ordered partners exactly if no
tie decides. -/
theorem uniform_iff (sha256 : Bytes → Bytes) (digests : ∀ message, (sha256 message).length = 32)
    (me : Account) (blsJointSig : Bytes) (campaigns : Campaigns κ) (t : Term κ)
    (before d : Dkg κ σ γ) (myCampaign : Option (Campaign κ))
    (isReset : before.reset myCampaign = .ok d) (cached : t.campaigns = some campaigns)
    (filed : ∀ addr cp, campaigns.get? addr = some cp → cp.sender = addr)
    (vrfs : ∀ addr cp, campaigns.get? addr = some cp → cp.vrf.length = 32)
    (enough : d.partner.nbParticipants ≤ campaigns.size) :
    Uniform sha256 me blsJointSig campaigns t d ↔ Untied (sha256 blsJointSig) me campaigns d := by
  have fresh : d.partner.partPubs = [] ∧ d.partner.addressIndex = ∅ := reset_fresh isReset
  have lengths : ∀ addr cp, campaigns.get? addr = some cp →
      cp.vrf.length = (sha256 blsJointSig).length :=
    fun addr cp found => (vrfs addr cp found).trans (digests _).symm
  constructor
  · intro uniform left right isLeft isRight senders
    split
    next everyone =>
      intro sameRank
      exact everyone_tie fresh filed everyone uniform isLeft isRight senders
        (rank_eq_iff.mpr sameRank)
    next different =>
      intro sameVrf
      exact lucky_tie fresh cached filed (by omega) (fun addr cp found => (lengths addr cp found).le)
        uniform isLeft isRight senders sameVrf
  · intro untied sorter order other iterates otherIterates
    by_cases everyone : campaigns.size = d.partner.nbParticipants
    · have isFirst := selectCandidates_everyone sorter sha256 me blsJointSig t
        (iterates.length.trans everyone)
      have isSecond := selectCandidates_everyone sorter sha256 me blsJointSig t
        (otherIterates.length.trans everyone)
      refine ⟨_, _, isFirst, isSecond, ?_⟩
      have sameJoins : (d.isValidPartner || me.isAmong (order.map Prod.snd)) =
          (d.isValidPartner || me.isAmong (other.map Prod.snd)) := by
        rw [Bool.eq_iff_iff, joins_iff iterates, joins_iff otherIterates]
      rw [everyone_outcome iterates everyone isFirst, everyone_outcome otherIterates everyone isSecond,
        ← sameJoins]
      exact sorted_chosenOutcome sorter iterates otherIterates filed everyone untied
        (joins_iff iterates)
    · have more : d.partner.nbParticipants < campaigns.size := by omega
      have short : ∀ {range : List (Address × Campaign κ)}, campaigns.Iterates range →
          ∀ entry ∈ range, entry.2.vrf.length ≤ (sha256 blsJointSig).length :=
        fun isRange entry member => (lengths _ _ (isRange.mem_iff.mp member)).le
      have isFirst := selectCandidates_lucky sorter sha256 me blsJointSig
        (iterates.length ▸ more) (short iterates) (filed_order iterates cached)
      have isSecond := selectCandidates_lucky sorter sha256 me blsJointSig
        (otherIterates.length ▸ more) (short otherIterates) (filed_order otherIterates cached)
      refine ⟨_, _, isFirst, isSecond, ?_⟩
      rw [lucky_outcome iterates cached more (short iterates) isFirst,
        lucky_outcome otherIterates cached more (short otherIterates) isSecond,
        lucky_eq sorter iterates otherIterates filed more lengths untied]

def campaignOf (account : UInt8) (value : UInt8) : Campaign Unit where
  hash := .ofNat 256 account.toNat
  accountNonce := 1
  weight := 1
  publicKey := [account]
  dkgPublicKey := [account]
  vrf := List.replicate 31 0 ++ [value]
  sender := .ofNat 160 account.toNat
  dkgPoint := some ()

def threeCampaigns (first second third : UInt8) : Campaigns Unit :=
  ((GoMap.set ∅ 3 (campaignOf 3 third)).set 2 (campaignOf 2 second)).set 1 (campaignOf 1 first)

def termOf (campaigns : Campaigns Unit) : Term Unit :=
  { newTerm 0 2 1 with campaigns := some campaigns }

def bystander : Dkg Unit Unit Unit :=
  { newDkg none 2 2 with termId := 1, formerPartner := some (newDkg none 2 2).partner }

theorem threeCampaigns_found {first second third : UInt8} {addr : Address} {cp : Campaign Unit}
    (found : (threeCampaigns first second third).get? addr = some cp) :
    addr = 1 ∧ cp = campaignOf 1 first ∨ addr = 2 ∧ cp = campaignOf 2 second ∨
      addr = 3 ∧ cp = campaignOf 3 third := by
  rw [threeCampaigns, GoMap.get?_set, GoMap.get?_set, GoMap.get?_set] at found
  split at found
  next isFirst => exact .inl ⟨isFirst, (Option.some.inj found).symm⟩
  split at found
  next isSecond => exact .inr (.inl ⟨isSecond, (Option.some.inj found).symm⟩)
  split at found
  next isThird => exact .inr (.inr ⟨isThird, (Option.some.inj found).symm⟩)
  · cases found

theorem uniform_three_values :
    Uniform (fun _ => List.replicate 32 0) ⟨9, [9]⟩ [] (threeCampaigns 1 2 3)
      (termOf (threeCampaigns 1 2 3)) bystander := by
  have isReset : (newDkg none 2 2 : Dkg Unit Unit Unit).reset none = .ok bystander := rfl
  refine (uniform_iff _ (fun _ => rfl) _ _ _ _ _ _ none isReset rfl ?_ ?_ ?_).mpr ?_
  · intro addr cp found
    rcases threeCampaigns_found found with ⟨rfl, rfl⟩ | ⟨rfl, rfl⟩ | ⟨rfl, rfl⟩ <;> rfl
  · intro addr cp found
    rcases threeCampaigns_found found with ⟨rfl, rfl⟩ | ⟨rfl, rfl⟩ | ⟨rfl, rfl⟩ <;> rfl
  · exact Nat.le_succ 2
  · intro left right isLeft isRight senders
    rcases threeCampaigns_found isLeft with ⟨-, rfl⟩ | ⟨-, rfl⟩ | ⟨-, rfl⟩ <;>
      rcases threeCampaigns_found isRight with ⟨-, rfl⟩ | ⟨-, rfl⟩ | ⟨-, rfl⟩ <;>
      first
      | exact absurd rfl senders
      | (intro same; exact absurd same (by decide))

/-- Two campaigns with one random value compete for the second place: the one ranged over first is
selected. -/
theorem tied_values_diverge :
    ∃ order other first second,
      (threeCampaigns 1 2 2).Iterates order ∧ (threeCampaigns 1 2 2).Iterates other ∧
      bystander.selectCandidates .insertion (fun _ => List.replicate 32 0) ⟨9, [9]⟩ order []
        (termOf (threeCampaigns 1 2 2)) = .ok first ∧
      bystander.selectCandidates .insertion (fun _ => List.replicate 32 0) ⟨9, [9]⟩ other []
        (termOf (threeCampaigns 1 2 2)) = .ok second ∧
      first.1.publicKeys = [[1], [2]] ∧ second.1.publicKeys = [[1], [3]] ∧
      first.1.candidates.get? 3 = none ∧ second.1.candidates.get? 2 = none := by
  have iterates : (threeCampaigns 1 2 2).Iterates
      [(1, campaignOf 1 1), (2, campaignOf 2 2), (3, campaignOf 3 2)] := rfl
  refine ⟨_, [(1, campaignOf 1 1), (3, campaignOf 3 2), (2, campaignOf 2 2)], _, _, iterates,
    iterates.perm ((List.Perm.swap _ _ _).cons _), rfl, rfl, rfl, rfl, rfl, rfl⟩

end AnnchainOG.Senate
