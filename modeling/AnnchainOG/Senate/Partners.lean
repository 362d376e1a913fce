import AnnchainOG.Senate.Roles

/-!
# What a selection leaves

Whether the node is a valid partner is remembered from the rounds before.
-/

namespace AnnchainOG.Senate

open List Option

variable {κ σ γ : Type}

/-- The same `n` campaigns everywhere, in one order, and the node among them where it says so. -/
structure Consistent (me : Account) (n campaigns : Nat) (t : Term κ) (d : Dkg κ σ γ)
    (chosen : List (Campaign κ)) : Prop where
  count : chosen.length = n
  distinct : (chosen.map Campaign.sender).Nodup
  size : t.candidates.size = n
  candidates : ∀ cp ∈ chosen, t.candidates.get? cp.sender = some cp
  publicKeys : t.publicKeys = chosen.map Campaign.publicKey
  partPubs : d.isValidPartner = true ∨ n < campaigns →
    d.partner.partPubs = chosen.map Campaign.dkgPoint
  addressIndex : d.isValidPartner = true ∨ n < campaigns → ∀ index cp, chosen[index]? = some cp →
    d.partner.addressIndex.get? cp.sender = some index
  isValidPartner : d.isValidPartner = true ↔ ∃ cp ∈ chosen, cp.publicKey = me.publicKey

/-- How many campaigns have no larger masked value, the campaign itself among them. -/
def notBehind (randomSeed : Bytes) (campaigns : Campaigns κ) (cp : Campaign κ) : Nat :=
  campaigns.entries.countP fun entry =>
    (Dkg.vrfSelection randomSeed (cp.sender, cp)).less
      (Dkg.vrfSelection randomSeed (entry.1, entry.2)) = false

/-- Some campaign with the key of the account is selected, whatever is done about ties. -/
def Account.SurelyIn (me : Account) (randomSeed : Bytes) (n : Nat) (t : Term κ) : Prop :=
  ∃ addr cp, t.getCampaign addr = some cp ∧ cp.publicKey = me.publicKey ∧
    notBehind randomSeed (t.campaigns.getD ∅) cp ≤ n

theorem candidates_size {chosen : List (Campaign κ)} (map : Campaigns κ)
    (distinct : (chosen.map Campaign.sender).Nodup)
    (absent : ∀ cp ∈ chosen, map.get? cp.sender = none) :
    (chosen.foldl (fun map cp => map.set cp.sender cp) map).size = map.size + chosen.length := by
  induction chosen generalizing map with
  | nil => rfl
  | cons cp rest ih =>
    obtain ⟨notInRest, restDistinct⟩ := nodup_cons.mp distinct
    have stillAbsent : ∀ other ∈ rest, (map.set cp.sender cp).get? other.sender = none := by
      intro other member
      have different : other.sender ≠ cp.sender := by
        intro same
        exact notInRest (same ▸ mem_map_of_mem member)
      rw [GoMap.get?_set_of_ne _ _ different]
      exact absent other (mem_cons_of_mem _ member)
    rw [foldl_cons, ih _ restDistinct stillAbsent,
      GoMap.size_set_of_absent cp (absent cp mem_cons_self), length_cons]
    omega

theorem mem_chosen (sorter : Sorter) {randomSeed : Bytes} {n : Nat} {t : Term κ}
    {order : List (Address × Campaign κ)} (iterates : (t.campaigns.getD ∅).Iterates order)
    (sound : t.Sound) {addr : Address} {cp : Campaign κ} (found : t.getCampaign addr = some cp)
    (few : notBehind randomSeed (t.campaigns.getD ∅) cp ≤ n) :
    cp ∈ Dkg.chosen sorter randomSeed n t order := by
  obtain rfl := sound.filed found
  have inOrder : (cp.sender, cp) ∈ order := by
    rw [Term.getCampaign_eq] at found
    exact iterates.mem_iff.mpr found
  unfold Dkg.chosen
  split
  · exact (sorter.perm _ _).mem_iff.mpr (List.mem_map.mpr ⟨_, inOrder, rfl⟩)
  refine mem_filterMap.mpr ⟨Dkg.vrfSelection randomSeed (cp.sender, cp), ?_, found⟩
  refine sorter.mem_take VrfSelection.less_iff (mem_map_of_mem inOrder) ?_
  rw [notBehind, ← iterates, Multiset.coe_countP, countP_map] at few
  rw [countP_map]
  refine le_trans (le_of_eq (countP_congr fun entry _ => ?_)) few
  simp

namespace Node

variable {lib : Library κ σ γ} {allowed : Node κ σ γ → Event κ γ → Prop}
variable {start node after : Node κ σ γ}

theorem reaches_selecting (isIdle : start.loop = .idle) (reached : Reaches lib allowed start node) :
    node.loop = .selecting →
      node.as.dkg.partner.partPubs = [] ∧ node.as.dkg.partner.addressIndex = ∅ := by
  refine Reach.invariant (motive := fun node => node.loop = .selecting →
      node.as.dkg.partner.partPubs = [] ∧ node.as.dkg.partner.addressIndex = ∅) ?_ ?_ reached
  · intro isSelecting
    rw [isIdle] at isSelecting
    cases isSelecting
  · rintro state after event holds ⟨enabled, -⟩ acted isSelecting
    by_cases isReset : event = .reset
    · subst isReset
      obtain ⟨d, isNext, rfl⟩ := reset_dkg acted
      exact Dkg.reset_fresh isNext
    by_cases isSelect : ∃ order blsJointSig, event = .select order blsJointSig
    · obtain ⟨order, blsJointSig, rfl⟩ := isSelect
      obtain ⟨-, on, rfl⟩ := select_dkg enabled.2 acted
      cases isSelecting
    · have notSelect : ∀ order blsJointSig, event ≠ .select order blsJointSig :=
        fun order blsJointSig same => isSelect ⟨order, blsJointSig, same⟩
      obtain ⟨⟨jointPubKey, dkger, keyShare, ready, isNext⟩, before⟩ :=
        act_dkg enabled acted isReset notSelect
      rw [isNext]
      exact holds (before isSelecting)

/-- After any run, a selection by a node that was no valid partner, or that is selected again, is
consistent. -/
theorem selection_consistent {order : List (Address × Campaign κ)} {blsJointSig : Bytes}
    (two : 2 ≤ start.as.dkg.partner.nbParticipants) (fresh : start.as.term.Fresh)
    (isIdle : start.loop = .idle) (reached : Reaches lib (fun _ _ => True) start node)
    (enabled : node.Enabled (.select order blsJointSig))
    (selected : node.act lib (.select order blsJointSig) = .ok after)
    (renewed : node.as.dkg.isValidPartner = false ∨
      node.as.myAccount.SurelyIn (lib.sha256 blsJointSig) start.as.dkg.partner.nbParticipants
        node.as.term) :
    ∃ chosen, (∀ cp ∈ chosen, ∃ addr, node.as.term.getCampaign addr = some cp) ∧
      Consistent node.as.myAccount start.as.dkg.partner.nbParticipants node.as.term.campaignCount
        after.as.term after.as.dkg chosen := by
  have sound := reaches_sound two fresh reached
  have empty := reaches_selecting isIdle reached enabled.1
  have filed := filed_range enabled.2
  obtain ⟨enough, on, rfl⟩ := select_dkg enabled.2 selected
  rw [← reaches_participants reached] at two renewed ⊢
  generalize isChosen : Dkg.chosen lib.sorter (lib.sha256 blsJointSig)
    node.as.dkg.partner.nbParticipants node.as.term order = chosen
  have count : chosen.length = node.as.dkg.partner.nbParticipants := by
    rw [← isChosen, Dkg.chosen_length filed enough]
  have distinct : (chosen.map Campaign.sender).Nodup := by
    rw [← isChosen]
    exact Dkg.chosen_distinct enabled.2.nodup fun entry member =>
      ⟨filed entry member, sound.filed (filed entry member)⟩
  have noCandidates : node.as.term.candidates = ∅ ∧ node.as.term.publicKeys = [] := by
    cases isMap : node.as.term.campaigns with
    | none =>
      have isEmpty : order.length = 0 := by
        rw [enabled.2.length, isMap]
        rfl
      omega
    | some campaigns => exact sound.collecting isMap
  have among : node.as.myAccount.isAmong chosen = true ↔
      ∃ cp ∈ chosen, cp.publicKey = node.as.myAccount.publicKey := by
    simp [Account.isAmong]
  have isValid : (node.as.dkg.isValidPartner || node.as.myAccount.isAmong chosen) =
      node.as.myAccount.isAmong chosen := by
    rcases renewed with notValid | ⟨addr, cp, found, isOwn, few⟩
    · rw [notValid, Bool.false_or]
    have isIn : node.as.myAccount.isAmong chosen = true := by
      rw [among, ← isChosen]
      exact ⟨cp, mem_chosen lib.sorter enabled.2 sound found few, isOwn⟩
    rw [isIn, Bool.or_true]
  have isCount : node.as.term.campaignCount = order.length := enabled.2.length.symm
  have found : ∀ cp ∈ chosen, ∃ addr, node.as.term.getCampaign addr = some cp := by
    rw [← isChosen]
    intro cp member
    obtain ⟨addr, inOrder⟩ := Dkg.mem_order_of_chosen filed member
    exact ⟨addr, filed _ inOrder⟩
  rw [isValid, isCount]
  refine ⟨chosen, found, count, distinct, ?_, fun cp member => ?_, ?_, fun joins => ?_,
    fun joins index cp isAt => ?_, among⟩
  · show (node.as.term.choose chosen).candidates.size = _
    rw [Term.choose_eq, noCandidates.1, ← count]
    exact (candidates_size ∅ distinct fun _ _ => rfl).trans (Nat.zero_add _)
  · show (node.as.term.choose chosen).candidates.get? cp.sender = some cp
    rw [Term.choose_eq]
    exact candidates_of_mem _ distinct member
  · show (node.as.term.choose chosen).publicKeys = _
    rw [Term.choose_eq, noCandidates.2, nil_append]
  · have joins : node.as.myAccount.isAmong chosen = true ∨ _ := joins
    rw [if_pos joins, Dkg.join_eq, empty.1, nil_append]
  · have joins : node.as.myAccount.isAmong chosen = true ∨ _ := joins
    rw [if_pos joins, Dkg.join_eq, empty.1, empty.2]
    exact (enterIndices_of_getElem? ∅ 0 distinct isAt).trans (congrArg some (Nat.zero_add index))

def acts (node : Node Nat Nat Nat) (event : Event Nat Nat) : Option (Node Nat Nat Nat) :=
  if node.Enabled event then (node.act .plain event).toOption else none

theorem act_of_acts {node after : Node Nat Nat Nat} {event : Event Nat Nat}
    (acted : node.acts event = some after) :
    node.Enabled event ∧ node.act .plain event = .ok after := by
  unfold acts at acted
  split at acted
  next enabled => exact ⟨enabled, ok_of_toOption acted⟩
  · cases acted

theorem selection_consistent_first :
    ∃ node after, Reaches .plain (fun _ _ => True) (.sample 1) node ∧
      node.act .plain (.selecting 1 2) = .ok after ∧ after.as.dkg.isValidPartner = true ∧
      ∃ chosen, (∀ cp ∈ chosen, ∃ addr, node.as.term.getCampaign addr = some cp) ∧
        Consistent node.as.myAccount 2 node.as.term.campaignCount after.as.term after.as.dkg
          chosen := by
  have ready : ((replay .plain (.sample 1) (Event.campaigning none 1 2 5)).bind
      fun node => (node.acts (.selecting 1 2)).map fun after =>
        (node, after, node.as.dkg.isValidPartner, after.as.dkg.isValidPartner)).map
        (fun result => result.2.2) = some (false, true) := by
    decide +kernel
  obtain ⟨⟨node, after, flags⟩, both, isReady⟩ := map_eq_some_iff.mp ready
  obtain ⟨state, replayed, later⟩ := bind_eq_some_iff.mp both
  obtain ⟨next, acted, same⟩ := map_eq_some_iff.mp later
  cases same
  obtain ⟨notValid, isValid⟩ := Prod.mk.inj isReady
  obtain ⟨enabled, selected⟩ := act_of_acts acted
  have reached := reaches_of_replay .plain replayed
  exact ⟨node, after, reached, selected, isValid, selection_consistent (by decide)
    (Term.fresh_newTerm _ _ _) rfl reached enabled selected (.inl notValid)⟩

/-- Selected in the first round, the node does not campaign again, and is a valid partner still. -/
theorem former_partner_stays_valid :
    ∃ node after, Reaches .plain (fun _ _ => True) (.sample 1) node ∧
      node.Enabled (.selecting 2 3) ∧ node.act .plain (.selecting 2 3) = .ok after ∧
      after.as.dkg.isValidPartner = true ∧ [1] ∉ after.as.term.publicKeys ∧
      ∀ n campaigns chosen, ¬ Consistent (.sample 1) n campaigns after.as.term after.as.dkg
        chosen := by
  have ready : ((replay .plain (.sample 1) (Event.firstRound ++
      Event.generating 4 ++ Event.campaigning (some (sampleTermChange 1 [4])) 2 3 7)).bind
      fun node => (node.acts (.selecting 2 3)).map fun after => (node, after,
        after.as.dkg.isValidPartner, decide ([1] ∉ after.as.term.publicKeys))).map
        (fun result => result.2.2) = some (true, true) := by
    decide +kernel
  obtain ⟨⟨node, after, flags⟩, both, isReady⟩ := map_eq_some_iff.mp ready
  obtain ⟨state, replayed, later⟩ := bind_eq_some_iff.mp both
  obtain ⟨next, acted, same⟩ := map_eq_some_iff.mp later
  cases same
  obtain ⟨isValid, isOut⟩ := Prod.mk.inj isReady
  have notIn : [1] ∉ after.as.term.publicKeys := of_decide_eq_true isOut
  obtain ⟨enabled, selected⟩ := act_of_acts acted
  refine ⟨node, after, reaches_of_replay .plain replayed, enabled, selected, isValid, notIn, ?_⟩
  intro n campaigns chosen consistent
  obtain ⟨cp, member, isOwn⟩ := consistent.isValidPartner.mp isValid
  refine notIn ?_
  rw [consistent.publicKeys, List.mem_map]
  exact ⟨cp, member, isOwn⟩

end Node

end AnnchainOG.Senate
