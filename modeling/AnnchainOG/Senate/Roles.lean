import AnnchainOG.Senate.Rounds

/-!
# One role for each address

The selection drops the map of campaigns and `ChangeTerm` creates it again; the intake may be open
in between.
-/

namespace AnnchainOG.Senate

open Option

variable {κ σ γ : Type}

inductive Term.Moves (t : Term κ) : Term κ → Prop where
  | switches (flag : Bool) : Moves t (t.switchFlag flag)
  | changes (tc : Wire.TermChange) (height : UInt64) : Moves t (t.changeTerm tc height)
  | ranAlso (camps : List (Campaign κ)) : Moves t (t.addAlsorans camps)
  | adds {campaigns : Campaigns κ} {cp : Campaign κ} (flag : Bool)
      (collecting : t.campaigns = some campaigns) (unknown : t.hasCampaign cp.sender = false) :
      Moves t { t with campaigns := some (campaigns.set cp.sender cp), flag := flag }
  | selects {chosen : List (Campaign κ)} (someone : chosen ≠ [])
      (found : ∀ cp ∈ chosen, ∃ addr, t.getCampaign addr = some cp) :
      Moves t (t.choose chosen).clearCampaigns

theorem Term.Moves.stays (t : Term κ) : t.Moves t := .switches t.flag

namespace Node

variable {lib : Library κ σ γ} {node after : Node κ σ γ}
variable {order : List (Address × Campaign κ)} {event : Event κ γ}
variable {as next : AnnSensus κ σ γ} {cp : Campaign κ} {blsJointSig : Bytes}

theorem confirmed_term (node : Node κ σ γ) (tc : Option Wire.TermChange)
    (camps : List (Campaign κ)) (height : UInt64) :
    node.as.term.Moves (node.confirmed lib tc camps height).as.term := by
  unfold confirmed
  split
  · exact .stays _
  split
  · exact .stays _
  dsimp only
  split
  · exact .changes _ _
  split
  · exact .changes _ _
  · exact .changes _ _

theorem addAlsorans_flag (t : Term κ) (camps : List (Campaign κ)) :
    (t.addAlsorans camps).flag = t.flag := by
  unfold Term.addAlsorans
  induction camps generalizing t with
  | nil => rfl
  | cons cp rest ih =>
    rw [List.foldl_cons, ih]
    split <;> rfl

theorem addCampaign_term (added : as.addCampaign cp = .ok next) :
    next = as ∨ ∃ campaigns, as.term.campaigns = some campaigns ∧
      as.term.hasCampaign cp.sender = false ∧
      next = { as with term := { as.term with campaigns := some (campaigns.set cp.sender cp) } } := by
  unfold AnnSensus.addCampaign at added
  split at added
  · cases added
    exact .inl rfl
  rename_i unknown
  split at added
  · cases added
    exact .inl rfl
  obtain ⟨term, isTerm, rfl⟩ := map_ok added
  unfold Term.addCampaign at isTerm
  split at isTerm
  · cases isTerm
  rename_i campaigns collecting
  cases isTerm
  exact .inr ⟨campaigns, collecting, Bool.not_eq_true _ ▸ unknown, rfl⟩

theorem addCampaign_flag
    (added : as.addCampaign cp = .ok next) : next.term.flag = as.term.flag := by
  rcases addCampaign_term added with rfl | ⟨campaigns, -, -, rfl⟩ <;> rfl

theorem commitNext_eq {height : UInt64} (enabled : node.main.isCommitting = true)
    (acted : node.commitNext height = .ok after) :
    ∃ term main, after = { node.withTerm term with main := main } ∧ node.as.term.Moves term ∧
      (term.flag = node.as.term.flag ∧ main.isStarting = false ∨
        node.as.term.flag = false ∧ term.flag = true ∧ main.isStarting = true) := by
  unfold commitNext at acted
  split at acted
  · cases acted
    exact ⟨_, .idle, rfl, .stays _, .inl ⟨rfl, rfl⟩⟩
  next cp rest _ =>
    split at acted
    · cases acted
      exact ⟨_, .idle, rfl, .ranAlso _, .inl ⟨addAlsorans_flag _ _, rfl⟩⟩
    rename_i isDown
    rw [Bool.not_eq_true] at isDown
    obtain ⟨as, added, isNext⟩ := bind_ok acted
    obtain ⟨term, rfl, moves⟩ : ∃ term, as = { node.as with term := term } ∧
        ∀ flag, node.as.term.Moves (term.switchFlag flag) := by
      rcases addCampaign_term added with rfl | ⟨campaigns, collecting, unknown, rfl⟩
      · exact ⟨_, rfl, .switches⟩
      · exact ⟨_, rfl, fun flag => .adds flag collecting unknown⟩
    split at isNext
    · cases isNext
      exact ⟨_, .starting rest, rfl, moves true, .inr ⟨isDown, rfl, rfl⟩⟩
    · cases isNext
      exact ⟨_, .committing rest, rfl, moves term.flag, .inl ⟨addCampaign_flag added, rfl⟩⟩
  next isIdle =>
    rw [isIdle] at enabled
    cases enabled
  next isStarting =>
    rw [isStarting] at enabled
    cases enabled

theorem filed_range {t : Term κ} (iterates : (t.campaigns.getD ∅).Iterates order) :
    ∀ entry ∈ order, t.getCampaign entry.1 = some entry.2 := by
  intro entry member
  rw [Term.getCampaign_eq]
  exact iterates.mem_iff.mp member

theorem reset_dkg (acted : node.reset = .ok after) :
    ∃ d, node.as.dkg.reset (node.as.term.getCampaign node.as.myAccount.address) = .ok d ∧
      after = { node with as := { node.as with dkg := d }, loop := .selecting } := by
  obtain ⟨d, isReset, isNext⟩ := bind_ok acted
  cases isNext
  exact ⟨d, isReset, rfl⟩

theorem select_dkg (iterates : (node.as.term.campaigns.getD ∅).Iterates order)
    (acted : node.select lib order blsJointSig = .ok after) :
    let d := node.as.dkg
    let me := node.as.myAccount
    let chosen := Dkg.chosen lib.sorter (lib.sha256 blsJointSig) d.partner.nbParticipants
      node.as.term order
    let isValid := d.isValidPartner || me.isAmong chosen
    d.partner.nbParticipants ≤ order.length ∧ ∃ on, after = { node with
      as := { node.as with
        term := (node.as.term.choose chosen).clearCampaigns
        dkg := { d with
          isValidPartner := isValid
          dkgOn := on
          partner := if isValid = true ∨ d.partner.nbParticipants < order.length then
              (d.join me chosen).partner
            else d.partner } }
      loop := .proceeding } := by
  obtain ⟨state, selected, isNext⟩ := bind_ok acted
  cases isNext
  obtain ⟨enough, on, rfl⟩ := Dkg.selectCandidates_chosen (filed_range iterates) selected
  exact ⟨enough, on, rfl⟩

theorem select_term (positive : 0 < node.as.dkg.partner.nbParticipants)
    (iterates : (node.as.term.campaigns.getD ∅).Iterates order)
    (acted : node.select lib order blsJointSig = .ok after) : node.as.term.Moves after.as.term := by
  have filed := filed_range iterates
  obtain ⟨enough, on, rfl⟩ := select_dkg iterates acted
  refine .selects ?_ fun cp member => ?_
  · refine List.ne_nil_of_length_pos ?_
    rw [Dkg.chosen_length filed enough]
    exact positive
  · obtain ⟨addr, inOrder⟩ := Dkg.mem_order_of_chosen filed member
    exact ⟨addr, filed _ inOrder⟩

theorem act_term (positive : 0 < node.as.dkg.partner.nbParticipants)
    (enabled : node.Enabled event) (acted : node.act lib event = .ok after) :
    node.as.term.Moves after.as.term := by
  cases event with
  | confirmed tc camps height =>
    cases acted
    exact confirmed_term node tc camps height
  | commitNext height =>
    obtain ⟨term, main, rfl, moves, -⟩ := commitNext_eq enabled acted
    exact moves
  | newLatestSequencer height =>
    cases acted
    unfold newLatestSequencer
    dsimp only
    split
    · exact .switches true
    · exact .stays _
  | newTerm | shared =>
    cases acted
    exact .stays _
  | takeStart =>
    cases acted
    unfold takeStart
    split <;> exact .stays _
  | reset =>
    obtain ⟨d, -, isNext⟩ := bind_ok acted
    cases isNext
    exact .stays _
  | select order blsJointSig => exact select_term positive enabled.2 acted
  | proceed =>
    cases acted
    unfold proceed
    split
    · exact .stays _
    · exact .switches false
  | gotKey sigset =>
    cases acted
    unfold gotKey
    split
    · exact .stays _
    · exact .switches false
  | finish height =>
    cases acted
    unfold finish
    split
    · split
      · exact .changes _ _
      · exact .stays _
    all_goals exact .stays _
  | gossipStart dkger dealt =>
    cases acted
    unfold gossipStart
    dsimp only
    split <;> exact .stays _
  | processed dkger =>
    cases acted
    exact .stays _
  | recovered =>
    cases acted
    unfold recovered
    split <;> exact .stays _

theorem act_dkg (enabled : node.Enabled event)
    (acted : node.act lib event = .ok after) (notReset : event ≠ .reset)
    (notSelect : ∀ order blsJointSig, event ≠ .select order blsJointSig) :
    (∃ jointPubKey dkger keyShare ready, after.as.dkg = { node.as.dkg with
      ready := ready, partner := { node.as.dkg.partner with
        jointPubKey := jointPubKey, dkger := dkger, keyShare := keyShare } }) ∧
      (after.loop = .selecting → node.loop = .selecting) := by
  cases event with
  | confirmed tc camps height =>
    cases acted
    unfold confirmed
    split
    · exact ⟨⟨_, _, _, _, rfl⟩, id⟩
    split
    · exact ⟨⟨_, _, _, _, rfl⟩, id⟩
    dsimp only
    split
    · exact ⟨⟨_, _, _, _, rfl⟩, id⟩
    · split <;> exact ⟨⟨_, _, _, _, rfl⟩, id⟩
  | commitNext height =>
    obtain ⟨term, main, rfl, -⟩ := commitNext_eq enabled acted
    exact ⟨⟨_, _, _, _, rfl⟩, id⟩
  | newLatestSequencer height =>
    cases acted
    unfold newLatestSequencer
    dsimp only
    split <;> exact ⟨⟨_, _, _, _, rfl⟩, id⟩
  | newTerm | shared =>
    cases acted
    exact ⟨⟨_, _, _, _, rfl⟩, id⟩
  | takeStart =>
    cases acted
    unfold takeStart
    split
    · exact ⟨⟨_, _, _, _, rfl⟩, nofun⟩
    all_goals exact ⟨⟨_, _, _, _, rfl⟩, id⟩
  | reset => exact absurd rfl notReset
  | select order blsJointSig => exact absurd rfl (notSelect order blsJointSig)
  | proceed =>
    cases acted
    unfold proceed
    split <;> exact ⟨⟨_, _, _, _, rfl⟩, nofun⟩
  | gotKey sigset =>
    cases acted
    unfold gotKey
    split
    · exact ⟨⟨_, _, _, _, rfl⟩, id⟩
    · exact ⟨⟨_, _, _, _, rfl⟩, nofun⟩
  | finish height =>
    cases acted
    unfold finish
    split
    · split <;> exact ⟨⟨_, _, _, _, rfl⟩, nofun⟩
    all_goals exact ⟨⟨_, _, _, _, rfl⟩, id⟩
  | gossipStart dkger dealt =>
    cases acted
    unfold gossipStart
    dsimp only
    split <;> exact ⟨⟨_, _, _, _, rfl⟩, id⟩
  | processed dkger =>
    cases acted
    exact ⟨⟨_, _, _, _, rfl⟩, id⟩
  | recovered =>
    cases acted
    unfold recovered
    split <;> exact ⟨⟨_, _, _, _, rfl⟩, id⟩

theorem act_participants (enabled : node.Enabled event) (acted : node.act lib event = .ok after) :
    after.as.dkg.partner.nbParticipants = node.as.dkg.partner.nbParticipants := by
  by_cases isReset : event = .reset
  · subst isReset
    obtain ⟨d, isNext, rfl⟩ := reset_dkg acted
    obtain ⟨sec, secs, pubKeys, myPublicKey, rfl⟩ := Dkg.reset_eq isNext
    rfl
  · by_cases isSelect : ∃ order blsJointSig, event = .select order blsJointSig
    · obtain ⟨order, blsJointSig, rfl⟩ := isSelect
      obtain ⟨-, on, rfl⟩ := select_dkg enabled.2 acted
      split
      · rw [Dkg.join_eq]
      · rfl
    · have notSelect : ∀ order blsJointSig, event ≠ .select order blsJointSig :=
        fun order blsJointSig same => isSelect ⟨order, blsJointSig, same⟩
      obtain ⟨⟨jointPubKey, dkger, keyShare, ready, isNext⟩, -⟩ :=
        act_dkg enabled acted isReset notSelect
      rw [isNext]

end Node

/-! ## The roles -/

def Term.OneRole (t : Term κ) : Prop :=
  ∀ addr, ¬ (t.candidates.contains addr = true ∧ (t.getCampaign addr).isSome = true) ∧
    ¬ (t.candidates.contains addr = true ∧ t.alsorans.contains addr = true) ∧
    ¬ ((t.getCampaign addr).isSome = true ∧ t.alsorans.contains addr = true)

structure Term.Fresh (t : Term κ) : Prop where
  campaigns : t.campaigns = some ∅
  candidates : t.candidates = ∅
  publicKeys : t.publicKeys = []
  alsorans : t.alsorans = ∅

/-- Candidates exist exactly while there is no map of campaigns. -/
structure Term.Sound (t : Term κ) : Prop where
  collecting : ∀ {campaigns}, t.campaigns = some campaigns → t.candidates = ∅ ∧ t.publicKeys = []
  waiting : t.campaigns = none → t.candidates ≠ ∅
  filed : ∀ {addr cp}, t.getCampaign addr = some cp → cp.sender = addr
  apart : ∀ {addr}, t.alsorans.contains addr = true →
    t.candidates.contains addr = false ∧ t.getCampaign addr = none

namespace Term

variable {t next : Term κ}

theorem fresh_newTerm (id : UInt64) (participantNumber termChangeInterval : Nat) :
    (newTerm id participantNumber termChangeInterval : Term κ).Fresh :=
  ⟨rfl, rfl, rfl, rfl⟩

theorem fresh_changeTerm (t : Term κ) (tc : Wire.TermChange) (height : UInt64) :
    (t.changeTerm tc height).Fresh :=
  ⟨rfl, rfl, rfl, rfl⟩

theorem Fresh.sound (fresh : t.Fresh) : t.Sound where
  collecting _ := ⟨fresh.candidates, fresh.publicKeys⟩
  waiting isNil := by
    rw [fresh.campaigns] at isNil
    cases isNil
  filed found := by
    rw [getCampaign, fresh.campaigns] at found
    cases found
  apart member := by
    rw [fresh.alsorans] at member
    cases member

theorem hasCampaign_eq_false {addr : Address} :
    t.hasCampaign addr = false ↔ t.candidates.contains addr = false ∧ t.getCampaign addr = none ∧
        t.alsorans.contains addr = false := by
  simp only [hasCampaign, Bool.or_eq_false_iff, isSome_eq_false_iff, isNone_iff_eq_none, and_assoc]

theorem Sound.alsoran (sound : t.Sound) {cp : Campaign κ}
    (unknown : t.hasCampaign cp.sender = false) :
    ({ t with alsorans := t.alsorans.set cp.sender cp } : Term κ).Sound := by
  obtain ⟨noCandidate, noCampaign, -⟩ := hasCampaign_eq_false.mp unknown
  refine ⟨sound.collecting, sound.waiting, sound.filed, fun {addr} member => ?_⟩
  by_cases isNew : addr = cp.sender
  · rw [isNew]
    exact ⟨noCandidate, noCampaign⟩
  · refine sound.apart ?_
    rwa [GoMap.contains, GoMap.get?_set_of_ne _ _ isNew] at member

theorem Sound.addAlsorans (sound : t.Sound) (camps : List (Campaign κ)) :
    (t.addAlsorans camps).Sound := by
  unfold Term.addAlsorans
  induction camps generalizing t with
  | nil => exact sound
  | cons cp rest ih =>
    rw [List.foldl_cons]
    split
    · exact ih sound
    next unknown => exact ih (sound.alsoran (Bool.not_eq_true _ ▸ unknown))

theorem Sound.add (sound : t.Sound) {campaigns : Campaigns κ} {cp : Campaign κ} (flag : Bool)
    (collecting : t.campaigns = some campaigns) (unknown : t.hasCampaign cp.sender = false) :
    ({ t with campaigns := some (campaigns.set cp.sender cp), flag := flag } : Term κ).Sound := by
  obtain ⟨-, -, noAlsoran⟩ := hasCampaign_eq_false.mp unknown
  have getOther : ∀ {addr}, addr ≠ cp.sender →
      (campaigns.set cp.sender cp).get? addr = t.getCampaign addr := by
    intro addr different
    rw [GoMap.get?_set_of_ne _ _ different, getCampaign, collecting]
    rfl
  refine ⟨fun _ => sound.collecting collecting, fun isNil => ?_, fun {addr found} isFound => ?_,
    fun {addr} member => ?_⟩
  · cases isNil
  · by_cases isNew : addr = cp.sender
    · rw [isNew] at isFound ⊢
      have same : some cp = some found := (GoMap.get?_set_self _ _ _).symm.trans isFound
      cases same
      rfl
    · exact sound.filed ((getOther isNew).symm.trans isFound)
  · have different : addr ≠ cp.sender := by
      rintro rfl
      exact clash noAlsoran member
    exact ⟨(sound.apart member).1, (getOther different).trans (sound.apart member).2⟩

theorem Sound.select (sound : t.Sound) {chosen : List (Campaign κ)} (someone : chosen ≠ [])
    (found : ∀ cp ∈ chosen, ∃ addr, t.getCampaign addr = some cp) :
    (t.choose chosen).clearCampaigns.Sound := by
  rw [choose_eq]
  have entered : ∀ {addr}, (chosen.foldl (fun map cp => map.set cp.sender cp)
      t.candidates).contains addr = true →
      t.candidates.contains addr = true ∨ (t.getCampaign addr).isSome = true := by
    intro addr member
    by_cases isChosen : addr ∈ chosen.map Campaign.sender
    · obtain ⟨cp, inChosen, rfl⟩ := List.mem_map.mp isChosen
      obtain ⟨addr, isCampaign⟩ := found cp inChosen
      rw [sound.filed isCampaign, isCampaign]
      exact .inr rfl
    · rw [GoMap.contains, candidates_of_notMem _ isChosen] at member
      exact .inl member
  refine ⟨fun isMap => ?_, fun _ => ?_, fun isFound => ?_, fun {addr} member => ?_⟩
  · cases isMap
  · obtain ⟨last, isLast⟩ := ne_none_iff_exists'.mp
      (mt List.getLast?_eq_none_iff.mp someone)
    intro isEmpty
    have isCandidate := candidates_getLast t.candidates isLast
    rw [show chosen.foldl (fun map cp => map.set cp.sender cp) t.candidates = ∅ from isEmpty]
      at isCandidate
    cases isCandidate
  · cases isFound
  · refine ⟨?_, rfl⟩
    rw [← Bool.not_eq_true]
    intro isCandidate
    obtain ⟨notCandidate, noCampaign⟩ := sound.apart member
    rcases entered isCandidate with before | before
    · exact clash notCandidate before
    · rw [noCampaign] at before
      cases before

theorem Sound.move (sound : t.Sound) (moves : t.Moves next) : next.Sound := by
  cases moves with
  | switches flag => exact ⟨sound.collecting, sound.waiting, sound.filed, sound.apart⟩
  | changes tc height => exact (fresh_changeTerm t tc height).sound
  | ranAlso camps => exact sound.addAlsorans camps
  | adds flag collecting unknown => exact sound.add flag collecting unknown
  | selects someone found => exact sound.select someone found

theorem Sound.oneRole (sound : t.Sound) : t.OneRole := by
  intro addr
  refine ⟨?_, ?_, ?_⟩
  · rintro ⟨isCandidate, isCampaign⟩
    cases isMap : t.campaigns with
    | none =>
      rw [getCampaign, isMap] at isCampaign
      cases isCampaign
    | some campaigns =>
      rw [(sound.collecting isMap).1] at isCandidate
      cases isCandidate
  · rintro ⟨isCandidate, isAlsoran⟩
    exact clash (sound.apart isAlsoran).1 isCandidate
  · rintro ⟨isCampaign, isAlsoran⟩
    rw [(sound.apart isAlsoran).2] at isCampaign
    cases isCampaign

end Term

namespace Node

variable {lib : Library κ σ γ} {allowed : Node κ σ γ → Event κ γ → Prop} {start node : Node κ σ γ}

theorem reaches_participants (reached : Reaches lib allowed start node) :
    node.as.dkg.partner.nbParticipants = start.as.dkg.partner.nbParticipants := by
  refine Reach.invariant (motive := fun node =>
    node.as.dkg.partner.nbParticipants = start.as.dkg.partner.nbParticipants) rfl ?_ reached
  rintro state after event holds ⟨enabled, -⟩ acted
  exact (act_participants enabled acted).trans holds

theorem reaches_sound (two : 2 ≤ start.as.dkg.partner.nbParticipants)
    (fresh : start.as.term.Fresh) (reached : Reaches lib allowed start node) :
    node.as.term.Sound := by
  have both := Reach.invariant (motive := fun node => node.as.term.Sound ∧
    2 ≤ node.as.dkg.partner.nbParticipants) ⟨fresh.sound, two⟩ ?_ reached
  · exact both.1
  · rintro state after event holds ⟨enabled, -⟩ acted
    refine ⟨holds.1.move (act_term (Nat.zero_lt_of_lt holds.2) enabled acted), ?_⟩
    rw [act_participants enabled acted]
    exact holds.2

/-- A campaign that would be added while the flag is down meets no candidates that wait for the
next term. -/
def Timely (node : Node κ σ γ) : Prop :=
  match node.main with
  | .committing (c :: _) => node.as.term.flag = false → node.as.term.hasCampaign c.sender = false →
      c.dkgPoint.isSome = true → node.as.term.candidates = ∅
  | .committing [] | .idle | .starting _ => True

theorem addCampaign_nilMap {as : AnnSensus κ σ γ} {cp : Campaign κ} :
    as.addCampaign cp = .error .nilMap ↔ as.term.campaigns = none ∧
      as.term.hasCampaign cp.sender = false ∧ cp.dkgPoint.isSome = true := by
  unfold AnnSensus.addCampaign Term.addCampaign
  cases as.term.hasCampaign cp.sender <;> cases cp.dkgPoint <;> cases as.term.campaigns <;>
    simp [Except.map]

theorem commitNext_nilMap {height : UInt64} {c : Campaign κ} {rest : List (Campaign κ)}
    (isNext : node.main = .committing (c :: rest)) :
    node.commitNext height = .error .nilMap ↔ node.as.term.flag = false ∧
      node.as.addCampaign c = .error .nilMap := by
  unfold commitNext
  rw [isNext]
  dsimp only
  cases node.as.term.flag with
  | true => simp
  | false =>
    cases node.as.addCampaign c with
    | error panic => simp [bind, Except.bind]
    | ok as =>
      simp only [bind, Except.bind, Bool.false_eq_true, if_false, reduceCtorEq, and_false,
        iff_false]
      split <;> simp [pure, Except.pure]

theorem campaigns_eq_none_iff {t : Term κ} (sound : t.Sound) :
    t.campaigns = none ↔ t.candidates ≠ ∅ := by
  refine ⟨sound.waiting, fun someone => ?_⟩
  cases isMap : t.campaigns with
  | none => rfl
  | some campaigns => exact absurd (sound.collecting isMap).1 someone

/-- An address has one role, and a campaign meets a map unless candidates wait for the next term. -/
theorem intake_safe (two : 2 ≤ start.as.dkg.partner.nbParticipants)
    (fresh : start.as.term.Fresh) (reached : Reaches lib (fun _ _ => True) start node) :
    node.as.term.OneRole ∧ ∀ height, node.Enabled (.commitNext height) →
      (node.act lib (.commitNext height) ≠ .error .nilMap ↔ node.Timely) := by
  have sound := reaches_sound two fresh reached
  refine ⟨sound.oneRole, fun height enabled => ?_⟩
  have isCommitting : node.main.isCommitting = true := enabled
  show node.commitNext height ≠ .error .nilMap ↔ node.Timely
  unfold Timely
  cases isMain : node.main with
  | idle =>
    rw [isMain] at isCommitting
    cases isCommitting
  | starting camps =>
    rw [isMain] at isCommitting
    cases isCommitting
  | committing camps =>
    cases camps with
    | nil => simp [commitNext, isMain]
    | cons c rest =>
      rw [ne_eq, commitNext_nilMap isMain, addCampaign_nilMap, campaigns_eq_none_iff sound]
      tauto

/-- Both campaigns of the first round, and one more while the term change is on its way. -/
theorem intake_safe_running :
    ∃ node, Reaches .plain (fun _ _ => True) (.sample 1) node ∧ node.as.term.OneRole ∧
      node.as.term.candidates.size = 2 ∧ node.Timely ∧
      node.act .plain (.commitNext 6) ≠ .error .nilMap := by
  have ready : ((replay .plain (.sample 1)
      (Event.firstRound ++ [.confirmed none [.sample 3] 6])).map fun node =>
        (node.as.term.candidates.size, decide (node.Enabled (.commitNext 6)),
          node.as.term.flag, node.main.isCommitting)) = some (2, true, true, true) := by
    decide +kernel
  obtain ⟨node, replayed, isReady⟩ := map_eq_some_iff.mp ready
  simp only [Prod.mk.injEq, decide_eq_true_eq] at isReady
  obtain ⟨two, enabled, isUp, -⟩ := isReady
  have reached := reaches_of_replay .plain replayed
  obtain ⟨oneRole, safe⟩ := intake_safe (by decide) (Term.fresh_newTerm _ _ _) reached
  have timely : node.Timely := by
    unfold Timely
    split
    · intro isDown
      exact absurd (isUp.symm.trans isDown) (by decide)
    all_goals trivial
  exact ⟨node, reached, oneRole, two, timely, (safe 6 enabled).mpr timely⟩

/-- A node that is not selected puts the flag down, and the next campaign meets the nil map. -/
theorem late_campaign_panics :
    ∃ node, Reaches .plain (fun _ _ => True) (.sample 9) node ∧ node.Enabled (.commitNext 6) ∧
      node.act .plain (.commitNext 6) = .error .nilMap := by
  have panics : ((replay .plain (.sample 9)
      (Event.firstRound ++ [.confirmed none [.sample 3] 6])).map fun node =>
        (decide (node.Enabled (.commitNext 6)),
          match node.act .plain (.commitNext 6) with
          | .error panic => some panic
          | .ok _ => none)) = some (true, some .nilMap) := by
    decide +kernel
  obtain ⟨node, replayed, isPanic⟩ := map_eq_some_iff.mp panics
  obtain ⟨enabled, isNil⟩ := Prod.mk.inj isPanic
  refine ⟨node, reaches_of_replay .plain replayed, of_decide_eq_true enabled, ?_⟩
  split at isNil
  next panic isError =>
    cases isNil
    exact isError
  · cases isNil

end Node

end AnnchainOG.Senate
