import AnnchainOG.Senate.Roles

/-!
# The key of the term that is served

The key generation picks between two partners by comparing round numbers, which different goroutines
advance.
-/

namespace AnnchainOG.Senate

open Option

variable {κ σ γ : Type}

/-! ## What the agreement asks the key generation -/

variable (lib : Library κ σ γ)

/-- The share of a partner; a nil generator is dereferenced. -/
def DKGPartner.distKeyShare (p : DKGPartner κ σ γ) : Except Panic (Option (DistKeyShare κ σ)) :=
  match p.keyShare with
  | some share => .ok (some share)
  | none =>
    match p.dkger with
    | none => .error .nilPointer
    | some dkger => .ok (lib.distKeyShare dkger)

namespace Dkg

variable {α : Type}

def partnerOf (d : Dkg κ σ γ) (termId : Int) : Except Panic (DKGPartner κ σ γ) :=
  if termId < d.termId then
    match d.formerPartner with
    | none => .error .nilPointer
    | some former => .ok former
  else .ok d.partner

def sign (tblsSign : DistKeyShare κ σ → α) (d : Dkg κ σ γ)
    (termId : Int) : Except Panic (Option α) := do
  let partner ← d.partnerOf termId
  let dks ← partner.distKeyShare lib
  return dks.map tblsSign

def getJoinPublicKey (d : Dkg κ σ γ) (termId : Int) : Except Panic (Option κ) := do
  let partner ← d.partnerOf termId
  return partner.jointPubKey

/-- `RecoverAndVerifySignature`: recovered with the share, then verified with it. -/
def recoverAndVerifySignature
    (recoverSig : Nat → Nat → DistKeyShare κ σ → Option α) (verify : DistKeyShare κ σ → α → Bool)
    (d : Dkg κ σ γ) (dkgTermId : Int) : Except Panic (Option α) := do
  let partner ← d.partnerOf dkgTermId
  let dks ← partner.distKeyShare lib
  return dks.bind fun share =>
    (recoverSig partner.threshold partner.nbParticipants share).filter (verify share)

/-- `VerifyBlsSig`; comparing with a nil key panics. -/
def verifyBlsSig [DecidableEq κ] (verify : κ → Bool) (d : Dkg κ σ γ)
    (jointPub : Bytes) (termId : Int) : Except Panic Bool :=
  match lib.unmarshalBinaryPointG2 jointPub with
  | none => .ok false
  | some pubKey => do
      let partner ← d.partnerOf termId
      match partner.jointPubKey with
      | none => .error .nilPointer
      | some own => return pubKey = own && verify pubKey

end Dkg

/-! ## Which term is served -/

structure Watched (κ σ γ : Type) where
  node : Node κ σ γ
  /-- What the generator of the current round gave, once it was done. -/
  result : Option (κ × Option (DistKeyShare κ σ))
  /-- Of the term that began last. -/
  term : κ × Option (DistKeyShare κ σ)
  /-- Of the term that the agreement was reset for. -/
  serving : κ × Option (DistKeyShare κ σ)

namespace Node

variable {node : Node κ σ γ} {tc : Option Wire.TermChange}
variable {change : Wire.TermChange} {lib : Library κ σ γ} {camps : List (Campaign κ)}
  {height : UInt64}

/-- The term change that a confirmed list makes effective. -/
def changes (node : Node κ σ γ) (tc : Option Wire.TermChange) : Option Wire.TermChange :=
  if node.as.term.flag then none else node.picks tc

theorem down_of_changes (isChange : node.changes tc = some change) : node.as.term.flag = false := by
  unfold changes at isChange
  split at isChange
  · cases isChange
  next notUp => exact Bool.not_eq_true _ ▸ notUp

theorem confirmed_of_none (noChange : node.changes tc = none) :
    node.confirmed lib tc camps height = { node with main := .committing camps } := by
  unfold changes at noChange
  unfold confirmed
  split
  · rfl
  rename_i change isPicked
  rw [isPicked] at noChange
  split at noChange
  next isUp => rw [if_pos isUp]
  · cases noChange

theorem confirmed_of_some (isChange : node.changes tc = some change) :
    node.confirmed lib tc camps height =
      let next := node.withTerm (node.as.term.changeTerm change height)
      if node.as.dkg.isValidPartner then
        { next with newTerms := node.newTerms + 1, main := .committing camps }
      else
        match lib.unmarshalBinaryPointG2 change.pkBls with
        | none => next
        | some pk =>
          { next.withPartner { node.as.dkg.partner with jointPubKey := some pk } with
            newTerms := node.newTerms + 1
            main := .committing camps } := by
  have isDown := down_of_changes isChange
  rw [changes, if_neg (by rw [isDown]; exact Bool.false_ne_true)] at isChange
  unfold confirmed
  rw [isChange]
  dsimp only
  rw [if_neg (by rw [isDown]; exact Bool.false_ne_true)]
  rfl

structure Serves (node : Node κ σ γ) (key : κ) : Prop where
  main : node.main.isStarting = false
  loop : node.loop = .idle
  starts : node.starts = 0
  finished : node.finished = none
  newTerms : node.newTerms = 0
  ready : node.as.dkg.ready = false
  flag : node.as.term.flag = false
  genesis : node.as.genesisBftIsRunning = false
  current : node.dkgTermId = node.as.dkg.termId
  jointPubKey : node.as.dkg.partner.jointPubKey = some key
  outsider : node.as.dkg.isValidPartner = false →
    node.as.dkg.partner.dkger = none ∧ node.as.dkg.partner.keyShare = none

/-- A round is reset only after the agreement was, and a term begins with the key of the last
round. -/
def Orderly (lib : Library κ σ γ) (node : Node κ σ γ) : Event κ γ → Prop
  | .reset => node.dkgTermId = node.as.dkg.termId ∧ node.newTerms = 0
  | .confirmed tc _ _ => ∀ change ∈ node.changes tc,
      if node.as.dkg.isValidPartner then
        lib.unmarshalBinaryPointG2 change.pkBls = node.as.dkg.partner.jointPubKey ∧
          node.as.dkg.partner.jointPubKey.isSome = true
      else node.dkgTermId < node.as.dkg.termId
  | _ => True

instance [DecidableEq κ] (lib : Library κ σ γ) (node : Node κ σ γ) :
    (event : Event κ γ) → Decidable (node.Orderly lib event)
  | .reset => inferInstanceAs (Decidable (_ ∧ _))
  | .confirmed tc _ _ => inferInstanceAs (Decidable (∀ change ∈ node.changes tc, _))
  | .commitNext _ | .newLatestSequencer _ | .newTerm | .takeStart | .select _ _ | .proceed
  | .gotKey _ | .finish _ | .gossipStart _ _ | .processed _ | .recovered | .shared =>
    inferInstanceAs (Decidable True)

end Node

namespace Watched

variable (lib : Library κ σ γ) (w : Watched κ σ γ)

def watch [DecidableEq κ] (event : Event κ γ) (after : Node κ σ γ) : Watched κ σ γ :=
  match event with
  | .reset => { w with node := after, result := none }
  | .shared => { w with
      node := after
      result := w.node.as.dkg.partner.jointPubKey.map fun key =>
        (key, w.node.as.dkg.partner.dkger.bind lib.distKeyShare) }
  | .confirmed tc _ _ =>
    match (w.node.changes tc).bind fun change => lib.unmarshalBinaryPointG2 change.pkBls with
    | none => { w with node := after }
    | some key => { w with
        node := after
        term := (key, (w.result.filter fun result => result.1 = key).bind Prod.snd) }
  | .newTerm => { w with node := after, serving := w.term }
  | _ => { w with node := after }

def act [DecidableEq κ] (w : Watched κ σ γ) (event : Event κ γ) : Except Panic (Watched κ σ γ) :=
  (w.node.act lib event).map (w.watch lib event)

def Reaches [DecidableEq κ] (allowed : Node κ σ γ → Event κ γ → Prop) (start w : Watched κ σ γ) :
    Prop :=
  Reach (act lib) (fun w event => w.node.Enabled event ∧ allowed w.node event) start w

def ofServing (node : Node κ σ γ) (key : κ) : Watched κ σ γ :=
  let share := node.as.dkg.partner.dks lib
  ⟨node, if node.as.dkg.isValidPartner then some (key, share) else none, (key, share), (key, share)⟩

/-- The agreement gets the key of the term it serves, and the share of a node that has one. -/
structure Available [DecidableEq κ] (w : Watched κ σ γ) : Prop where
  partner : ∃ p, w.node.as.dkg.partnerOf w.node.dkgTermId = .ok p ∧ p.dks lib = w.serving.2
  joinPublicKey : w.node.as.dkg.getJoinPublicKey w.node.dkgTermId = .ok (some w.serving.1)
  verifies : ∀ (verify : κ → Bool) (jointPub : Bytes),
    w.node.as.dkg.verifyBlsSig lib verify jointPub w.node.dkgTermId =
      .ok (decide (lib.unmarshalBinaryPointG2 jointPub = some w.serving.1) && verify w.serving.1)
  signs : ∀ share, w.serving.2 = some share →
    ∀ {α : Type} (tblsSign : DistKeyShare κ σ → α),
      w.node.as.dkg.sign lib tblsSign w.node.dkgTermId = .ok (some (tblsSign share))
  recovers : ∀ share, w.serving.2 = some share →
    ∀ {α : Type} (recoverSig : Nat → Nat → DistKeyShare κ σ → Option α)
      (verify : DistKeyShare κ σ → α → Bool), ∃ threshold nbParticipants,
        w.node.as.dkg.recoverAndVerifySignature lib recoverSig verify w.node.dkgTermId =
          .ok ((recoverSig threshold nbParticipants share).filter (verify share))

end Watched

theorem DKGPartner.distKeyShare_of_dks {lib : Library κ σ γ} {p : DKGPartner κ σ γ}
    {share : DistKeyShare κ σ} (isShare : p.dks lib = some share) :
    p.distKeyShare lib = .ok (some share) := by
  unfold dks at isShare
  unfold distKeyShare
  cases isKept : p.keyShare with
  | some kept =>
    rw [isKept] at isShare
    cases isShare
    rfl
  | none =>
    rw [isKept, none_or] at isShare
    obtain ⟨dkger, isDkger, isResult⟩ := bind_eq_some_iff.mp isShare
    rw [isDkger, ← isResult]

namespace Watched

section Available

variable {lib : Library κ σ γ} {w : Watched κ σ γ}

theorem available_of_partner [DecidableEq κ] {p : DKGPartner κ σ γ}
    (picked : w.node.as.dkg.partnerOf w.node.dkgTermId = .ok p)
    (isKey : p.jointPubKey = some w.serving.1) (isShare : p.dks lib = w.serving.2) :
    w.Available lib where
  partner := ⟨p, picked, isShare⟩
  joinPublicKey := by
    rw [Dkg.getJoinPublicKey, picked, ← isKey]
    rfl
  verifies verify jointPub := by
    unfold Dkg.verifyBlsSig
    cases lib.unmarshalBinaryPointG2 jointPub with
    | none => simp
    | some pubKey =>
      simp only [picked, isKey, bind, Except.bind, pure, Except.pure, Option.some.injEq]
      by_cases same : pubKey = w.serving.1
      · simp [same]
      · simp [same]
  signs share isServed α tblsSign := by
    rw [Dkg.sign, picked]
    show Except.bind (p.distKeyShare lib) _ = _
    rw [DKGPartner.distKeyShare_of_dks (isShare.trans isServed)]
    rfl
  recovers share isServed α recoverSig verify := by
    refine ⟨p.threshold, p.nbParticipants, ?_⟩
    rw [Dkg.recoverAndVerifySignature, picked]
    show Except.bind (p.distKeyShare lib) _ = _
    rw [DKGPartner.distKeyShare_of_dks (isShare.trans isServed)]
    rfl

end Available

/-! ## The stages of a round -/

section Stages

variable (lib : Library κ σ γ) (w : Watched κ σ γ)

def Quiet : Prop :=
  w.node.starts = 0 ∧ w.node.as.dkg.ready = false ∧ w.node.finished = none

def Unstarted : Prop :=
  w.result = none ∧ w.node.as.dkg.partner.dkger = none ∧ w.node.as.dkg.partner.keyShare = none

def Done (key : κ) : Prop :=
  w.result = some (key, w.node.as.dkg.partner.dks lib) ∧
    w.node.as.dkg.partner.jointPubKey = some key

def Attempt : Prop :=
  w.node.newTerms = 0 ∧ w.node.dkgTermId < w.node.as.dkg.termId

def Waiting : Prop :=
  w.node.loop = .idle ∨ w.node.loop.isFinishing = true

inductive Stage (w : Watched κ σ γ) : Prop where
  | rest (flag : w.node.as.term.flag = false) (main : w.node.main.isStarting = false)
      (waiting : w.Waiting) (quiet : w.Quiet)
      (settled : w.Unstarted ∨ ∃ key, w.Done lib key)
  | starting (flag : w.node.as.term.flag = true) (main : w.node.main.isStarting = true)
      (waiting : w.Waiting) (quiet : w.Quiet)
  | resetting (flag : w.node.as.term.flag = true) (main : w.node.main.isStarting = false)
      (loop : w.node.loop = .resetting) (quiet : w.Quiet)
  | selecting (flag : w.node.as.term.flag = true) (main : w.node.main.isStarting = false)
      (loop : w.node.loop = .selecting ∨ w.node.loop = .proceeding) (quiet : w.Quiet)
      (attempt : w.Attempt) (unstarted : w.Unstarted)
  | dealing (flag : w.node.as.term.flag = true) (main : w.node.main.isStarting = false)
      (waiting : w.Waiting) (starts : w.node.starts = 1) (ready : w.node.as.dkg.ready = false)
      (finished : w.node.finished = none) (attempt : w.Attempt)
      (valid : w.node.as.dkg.isValidPartner = true)
  | generating (flag : w.node.as.term.flag = true) (main : w.node.main.isStarting = false)
      (waiting : w.Waiting) (starts : w.node.starts = 0) (attempt : w.Attempt)
      (valid : w.node.as.dkg.isValidPartner = true)
      (done : ∀ key, w.node.finished = some key → w.Done lib key)

structure Kept (w : Watched κ σ γ) : Prop where
  stage : w.Stage lib
  genesis : w.node.as.genesisBftIsRunning = false
  picked : ∃ p, w.node.as.dkg.partnerOf w.node.dkgTermId = .ok p ∧
    p.jointPubKey = some w.serving.1 ∧ p.dks lib = w.serving.2
  pending : 0 < w.node.newTerms → w.node.as.dkg.partner.jointPubKey = some w.term.1 ∧
    w.node.as.dkg.partner.dks lib = w.term.2
  outsider : w.node.as.dkg.isValidPartner = false → w.Unstarted

variable {lib w}

theorem Unstarted.dks_eq_none (unstarted : w.Unstarted) : w.node.as.dkg.partner.dks lib = none := by
  rw [DKGPartner.dks, unstarted.2.1, unstarted.2.2]
  rfl

theorem partnerOf_former {d : Dkg κ σ γ} {former : DKGPartner κ σ γ} {termId : Int}
    (earlier : termId < d.termId) (isFormer : d.formerPartner = some former) :
    d.partnerOf termId = .ok former := by
  rw [Dkg.partnerOf, if_pos earlier, isFormer]

theorem partnerOf_self (d : Dkg κ σ γ) : d.partnerOf d.termId = .ok d.partner := by
  rw [Dkg.partnerOf, if_neg (lt_irrefl _)]

theorem Stage.frame (stage : w.Stage lib) (term : Term κ) (main : Main κ)
    (cur : Option Wire.TermChange) (flag : term.flag = w.node.as.term.flag)
    (starting : main.isStarting = w.node.main.isStarting) :
    Stage lib { w with node := { w.node with
      as := { w.node.as with term := term, currentTermChange := cur }, main := main } } := by
  cases stage with
  | rest isDown notStarting waiting quiet settled =>
    exact .rest (flag.trans isDown) (starting.trans notStarting) waiting quiet settled
  | starting isUp isStarting waiting quiet =>
    exact .starting (flag.trans isUp) (starting.trans isStarting) waiting quiet
  | resetting isUp notStarting loop quiet =>
    exact .resetting (flag.trans isUp) (starting.trans notStarting) loop quiet
  | selecting isUp notStarting loop quiet attempt unstarted =>
    exact .selecting (flag.trans isUp) (starting.trans notStarting) loop quiet attempt unstarted
  | dealing isUp notStarting waiting starts ready finished attempt valid =>
    exact .dealing (flag.trans isUp) (starting.trans notStarting) waiting starts ready finished
      attempt valid
  | generating isUp notStarting waiting starts attempt valid done =>
    exact .generating (flag.trans isUp) (starting.trans notStarting) waiting starts attempt valid
      done

theorem Kept.former (kept : w.Kept lib) (ahead : w.node.dkgTermId < w.node.as.dkg.termId) :
    ∃ p, w.node.as.dkg.formerPartner = some p ∧ p.jointPubKey = some w.serving.1 ∧
      p.dks lib = w.serving.2 := by
  obtain ⟨p, isPicked, facts⟩ := kept.picked
  rw [Dkg.partnerOf, if_pos ahead] at isPicked
  split at isPicked
  · cases isPicked
  rename_i former isFormer
  cases isPicked
  exact ⟨p, isFormer, facts⟩

theorem Kept.frame (kept : w.Kept lib) (term : Term κ) (main : Main κ)
    (cur : Option Wire.TermChange) (flag : term.flag = w.node.as.term.flag)
    (starting : main.isStarting = w.node.main.isStarting) :
    Kept lib { w with node := { w.node with
      as := { w.node.as with term := term, currentTermChange := cur }, main := main } } :=
  ⟨kept.stage.frame term main cur flag starting, kept.genesis, kept.picked, kept.pending, kept.outsider⟩

theorem Stage.of_down (stage : w.Stage lib) (isDown : w.node.as.term.flag = false) :
    w.node.main.isStarting = false ∧ w.Waiting ∧ w.Quiet ∧
      (w.Unstarted ∨ ∃ key, w.Done lib key) := by
  cases stage with
  | rest _ main waiting quiet settled => exact ⟨main, waiting, quiet, settled⟩
  | starting isUp | resetting isUp | selecting isUp | dealing isUp | generating isUp =>
    exact clash isDown isUp

theorem Kept.start (kept : w.Kept lib) (isDown : w.node.as.term.flag = false) (term : Term κ)
    (main : Main κ) (cur : Option Wire.TermChange) (isUp : term.flag = true)
    (isStarting : main.isStarting = true) :
    Kept lib { w with node := { w.node with
      as := { w.node.as with term := term, currentTermChange := cur }, main := main } } := by
  obtain ⟨-, waiting, quiet, -⟩ := kept.stage.of_down isDown
  exact ⟨.starting isUp isStarting waiting quiet, kept.genesis, kept.picked, kept.pending,
    kept.outsider⟩

theorem settled_share [DecidableEq κ] {key : κ} (settled : w.Unstarted ∨ ∃ key, w.Done lib key)
    (isKey : w.node.as.dkg.partner.jointPubKey = some key) :
    w.node.as.dkg.partner.dks lib = (w.result.filter fun result => result.1 = key).bind Prod.snd := by
  rcases settled with unstarted | ⟨own, isResult, isOwn⟩
  · rw [unstarted.dks_eq_none, unstarted.1]
    rfl
  rw [isOwn, Option.some.injEq] at isKey
  rw [isResult, isKey]
  simp [Option.filter]

theorem main_of_idle {main : Main κ} (isIdle : main.isIdle = true) : main.isStarting = false := by
  cases main with
  | idle => rfl
  | committing camps => rfl
  | starting camps => cases isIdle

end Stages

/-! ## One event at a time -/

section Events

variable {lib : Library κ σ γ} {w : Watched κ σ γ}
variable {after : Node κ σ γ}
variable {height : UInt64}

theorem Kept.confirmed [DecidableEq κ] (kept : w.Kept lib) {tc : Option Wire.TermChange}
    {camps : List (Campaign κ)} (isIdle : w.node.main.isIdle = true)
    (orderly : w.node.Orderly lib (.confirmed tc camps height)) :
    (w.watch lib (.confirmed tc camps height) (w.node.confirmed lib tc camps height)).Kept lib := by
  have notStarting := main_of_idle isIdle
  cases isChange : w.node.changes tc with
  | none =>
    rw [watch, isChange, Node.confirmed_of_none isChange]
    exact kept.frame w.node.as.term (.committing camps) w.node.as.currentTermChange rfl
      notStarting.symm
  | some change =>
    have condition := orderly change isChange
    obtain ⟨-, waiting, quiet, settled⟩ := kept.stage.of_down (Node.down_of_changes isChange)
    rw [watch, isChange, Node.confirmed_of_some isChange]
    cases isValid : w.node.as.dkg.isValidPartner with
    | true =>
      rw [isValid, if_pos rfl] at condition
      obtain ⟨key, isKey⟩ := isSome_iff_exists.mp condition.2
      have decodes := condition.1.trans isKey
      simp only [bind_some, decodes, if_true]
      exact ⟨.rest rfl rfl waiting quiet settled, kept.genesis, kept.picked,
        fun _ => ⟨isKey, settled_share settled isKey⟩, kept.outsider⟩
    | false =>
      rw [isValid, if_neg Bool.false_ne_true] at condition
      have unstarted := kept.outsider isValid
      cases decodes : lib.unmarshalBinaryPointG2 change.pkBls with
      | none =>
        simp only [bind_some, decodes, Bool.false_eq_true, if_false]
        exact ⟨.rest rfl notStarting waiting quiet settled, kept.genesis, kept.picked,
          kept.pending, kept.outsider⟩
      | some key =>
        simp only [bind_some, decodes, Bool.false_eq_true, if_false]
        obtain ⟨p, isFormer, facts⟩ := kept.former condition
        refine ⟨.rest rfl rfl waiting quiet (.inl unstarted), kept.genesis,
          ⟨p, partnerOf_former condition isFormer, facts⟩, fun _ => ⟨rfl, ?_⟩,
          fun _ => unstarted⟩
        show w.node.as.dkg.partner.dks lib = _
        rw [unstarted.dks_eq_none, unstarted.1]
        rfl

theorem Kept.commitNext (kept : w.Kept lib)
    (enabled : w.node.main.isCommitting = true) (acted : w.node.commitNext height = .ok after) :
    Kept lib { w with node := after } := by
  have notStarting : w.node.main.isStarting = false := by
    cases isMain : w.node.main with
    | idle => rfl
    | committing camps => rfl
    | starting camps =>
      rw [isMain] at enabled
      cases enabled
  obtain ⟨term, main, rfl, -, ⟨sameFlag, notMain⟩ | ⟨isDown, isUp, isStarting⟩⟩ :=
    Node.commitNext_eq enabled acted
  · exact kept.frame term main w.node.as.currentTermChange sameFlag (notMain.trans notStarting.symm)
  · exact kept.start isDown term main w.node.as.currentTermChange isUp isStarting

theorem Kept.newLatestSequencer (kept : w.Kept lib) (height : UInt64) :
    Kept lib { w with node := w.node.newLatestSequencer height } := by
  unfold Node.newLatestSequencer
  dsimp only
  split
  next starts =>
    rw [Bool.and_eq_true, Bool.not_eq_true'] at starts
    exact kept.start starts.1 (w.node.as.term.switchFlag true) (.starting []) none rfl rfl
  · exact kept.frame w.node.as.term w.node.main none rfl rfl

theorem Kept.newTerm (kept : w.Kept lib) (signalled : 0 < w.node.newTerms)
    (isIdle : w.node.main.isIdle = true) :
    Kept lib { w with node := w.node.newTerm, serving := w.term } := by
  obtain ⟨isKey, isShare⟩ := kept.pending signalled
  have stage : Stage lib { w with node := w.node.newTerm, serving := w.term } := by
    cases kept.stage with
    | rest isDown notStarting waiting quiet settled =>
      exact .rest isDown notStarting waiting quiet settled
    | starting isUp isStarting => exact clash (main_of_idle isIdle) isStarting
    | resetting isUp notStarting loop quiet => exact .resetting isUp notStarting loop quiet
    | selecting _ _ _ _ attempt | generating _ _ _ _ attempt => exact absurd attempt.1 signalled.ne'
    | dealing isUp notStarting waiting starts ready finished attempt =>
      exact absurd attempt.1 signalled.ne'
  exact ⟨stage, kept.genesis, ⟨_, partnerOf_self _, isKey, isShare⟩,
    fun _ => ⟨isKey, isShare⟩, kept.outsider⟩

theorem Kept.takeStart (kept : w.Kept lib) (isStarting : w.node.main.isStarting = true) :
    Kept lib { w with node := w.node.takeStart } := by
  have quiet : w.node.as.term.flag = true ∧ w.Quiet := by
    cases kept.stage with
    | starting isUp _ _ quiet => exact ⟨isUp, quiet⟩
    | rest _ notStarting | resetting _ notStarting | selecting _ notStarting | dealing _ notStarting
    | generating _ notStarting => exact clash notStarting isStarting
  unfold Node.takeStart
  split
  · exact ⟨.resetting quiet.1 rfl rfl quiet.2, kept.genesis, kept.picked, kept.pending,
      kept.outsider⟩
  · exact kept
  · exact kept

theorem Stage.of_resetting (stage : w.Stage lib) (isResetting : w.node.loop = .resetting) :
    w.node.as.term.flag = true ∧ w.node.main.isStarting = false ∧ w.Quiet := by
  have notWaiting : ¬ w.Waiting := by
    rintro (isIdle | isFinishing)
    · rw [isResetting] at isIdle
      cases isIdle
    · rw [isResetting] at isFinishing
      cases isFinishing
  cases stage with
  | rest _ _ waiting | starting _ _ waiting => exact absurd waiting notWaiting
  | resetting isUp notStarting _ quiet => exact ⟨isUp, notStarting, quiet⟩
  | selecting _ _ loop =>
    rw [isResetting] at loop
    rcases loop with same | same <;> cases same
  | dealing _ _ waiting | generating _ _ waiting => exact absurd waiting notWaiting

theorem Stage.of_selecting (stage : w.Stage lib)
    (isSelecting : w.node.loop = .selecting ∨ w.node.loop = .proceeding) :
    w.node.as.term.flag = true ∧ w.node.main.isStarting = false ∧ w.Quiet ∧ w.Attempt ∧
      w.Unstarted := by
  have notWaiting : ¬ w.Waiting := by
    rintro (isIdle | isFinishing)
    · rw [isIdle] at isSelecting
      rcases isSelecting with same | same <;> cases same
    · rcases isSelecting with same | same <;>
      · rw [same] at isFinishing
        cases isFinishing
  cases stage with
  | rest _ _ waiting | starting _ _ waiting => exact absurd waiting notWaiting
  | resetting _ _ loop =>
    rw [loop] at isSelecting
    rcases isSelecting with same | same <;> cases same
  | selecting isUp notStarting _ quiet attempt unstarted =>
    exact ⟨isUp, notStarting, quiet, attempt, unstarted⟩
  | dealing _ _ waiting | generating _ _ waiting => exact absurd waiting notWaiting

theorem Kept.reset (kept : w.Kept lib) (isResetting : w.node.loop = .resetting)
    (orderly : w.node.Orderly lib .reset) (acted : w.node.reset = .ok after) :
    Kept lib { w with node := after, result := none } := by
  obtain ⟨isUp, notStarting, starts, -, finished⟩ := kept.stage.of_resetting isResetting
  obtain ⟨isCurrent, noSignal⟩ := orderly
  obtain ⟨p, isPicked, facts⟩ := kept.picked
  rw [isCurrent, partnerOf_self] at isPicked
  cases isPicked
  obtain ⟨d, isReset, rfl⟩ := Node.reset_dkg acted
  obtain ⟨sec, secs, pubKeys, myPublicKey, rfl⟩ := Dkg.reset_eq isReset
  have ahead : w.node.dkgTermId < w.node.as.dkg.termId + 1 := by omega
  refine ⟨.selecting isUp notStarting (.inl rfl) ⟨starts, rfl, finished⟩ ⟨noSignal, ahead⟩
    ⟨rfl, rfl, rfl⟩, kept.genesis, ⟨_, partnerOf_former ahead rfl, facts⟩, fun signalled => ?_,
    fun _ => ⟨rfl, rfl, rfl⟩⟩
  exact absurd noSignal signalled.ne'

theorem Kept.select (kept : w.Kept lib) {order : List (Address × Campaign κ)}
    {blsJointSig : Bytes} (isSelecting : w.node.loop = .selecting)
    (iterates : (w.node.as.term.campaigns.getD ∅).Iterates order)
    (acted : w.node.select lib order blsJointSig = .ok after) :
    Kept lib { w with node := after } := by
  obtain ⟨isUp, notStarting, quiet, attempt, unstarted⟩ :=
    kept.stage.of_selecting (.inl isSelecting)
  obtain ⟨p, isFormer, facts⟩ := kept.former attempt.2
  obtain ⟨-, on, rfl⟩ := Node.select_dkg iterates acted
  generalize Dkg.chosen lib.sorter (lib.sha256 blsJointSig) w.node.as.dkg.partner.nbParticipants
    w.node.as.term order = chosen
  have flag : (w.node.as.term.choose chosen).clearCampaigns.flag = true := by
    rw [Term.choose_eq]
    exact isUp
  generalize isJoined : (if (w.node.as.dkg.isValidPartner || w.node.as.myAccount.isAmong chosen) =
      true ∨ w.node.as.dkg.partner.nbParticipants < order.length then
        (w.node.as.dkg.join w.node.as.myAccount chosen).partner
      else w.node.as.dkg.partner) = joined
  have stillUnstarted : w.result = none ∧ joined.dkger = none ∧ joined.keyShare = none := by
    rw [← isJoined]
    split
    · rw [Dkg.join_eq]
      exact unstarted
    · exact unstarted
  refine ⟨.selecting flag notStarting (.inr rfl) quiet attempt stillUnstarted, kept.genesis,
    ⟨p, partnerOf_former attempt.2 isFormer, facts⟩, fun signalled => ?_, fun _ => stillUnstarted⟩
  exact absurd attempt.1 signalled.ne'

theorem Kept.proceed (kept : w.Kept lib) (isProceeding : w.node.loop = .proceeding) :
    Kept lib { w with node := w.node.proceed } := by
  obtain ⟨isUp, notStarting, quiet, attempt, unstarted⟩ :=
    kept.stage.of_selecting (.inr isProceeding)
  unfold Node.proceed
  split
  next isValid =>
    exact ⟨.dealing isUp notStarting (.inl rfl) (congrArg (· + 1) quiet.1) quiet.2.1 quiet.2.2 attempt
      isValid, kept.genesis, kept.picked, kept.pending, kept.outsider⟩
  · exact ⟨.rest rfl notStarting (.inl rfl) quiet (.inl unstarted), kept.genesis, kept.picked,
      kept.pending, kept.outsider⟩

theorem Kept.gotKey (kept : w.Kept lib) (sigset : List Wire.SigSet)
    (isFinished : w.node.finished.isSome = true) :
    Kept lib { w with node := w.node.gotKey lib sigset } := by
  obtain ⟨key, isKey⟩ := isSome_iff_exists.mp isFinished
  have notQuiet : ¬ w.Quiet := fun quiet => by
    rw [quiet.2.2] at isKey
    cases isKey
  have isGenerating : w.node.main.isStarting = false ∧ w.node.starts = 0 ∧ w.Done lib key := by
    cases kept.stage with
    | rest _ _ _ quiet | starting _ _ _ quiet | resetting _ _ _ quiet | selecting _ _ _ quiet =>
      exact absurd quiet notQuiet
    | dealing _ _ _ _ _ finished =>
      rw [finished] at isKey
      cases isKey
    | generating _ notStarting _ starts _ _ done => exact ⟨notStarting, starts, done key isKey⟩
  obtain ⟨notStarting, starts, done⟩ := isGenerating
  unfold Node.gotKey
  split
  · exact kept
  · exact ⟨.rest rfl notStarting (.inr rfl) ⟨starts, rfl, rfl⟩ (.inr ⟨key, done⟩), kept.genesis,
      kept.picked, kept.pending, kept.outsider⟩

theorem Kept.finish (kept : w.Kept lib) (height : UInt64) :
    Kept lib { w with node := w.node.finish height } := by
  unfold Node.finish
  split
  next tc isLoop =>
    rw [if_neg (by rw [kept.genesis]; exact Bool.false_ne_true)]
    have stage : Stage lib { w with node := { w.node with
        as := { w.node.as with currentTermChange := some tc }, loop := .idle } } := by
      cases kept.stage with
      | rest isDown notStarting _ quiet settled =>
        exact .rest isDown notStarting (.inl rfl) quiet settled
      | starting isUp isStarting _ quiet => exact .starting isUp isStarting (.inl rfl) quiet
      | resetting _ _ loop =>
        rw [isLoop] at loop
        cases loop
      | selecting _ _ loop =>
        rw [isLoop] at loop
        rcases loop with same | same <;> cases same
      | dealing isUp notStarting _ starts ready finished attempt valid =>
        exact .dealing isUp notStarting (.inl rfl) starts ready finished attempt valid
      | generating isUp notStarting _ starts attempt valid done =>
        exact .generating isUp notStarting (.inl rfl) starts attempt valid done
    exact ⟨stage, kept.genesis, kept.picked, kept.pending, kept.outsider⟩
  all_goals exact kept

theorem Kept.gossipStart (kept : w.Kept lib) (dkger : Option γ) (dealt : Bool)
    (signalled : 0 < w.node.starts) (notFinished : w.node.finished.isNone = true) :
    Kept lib { w with node := w.node.gossipStart dkger dealt } := by
  have notQuiet : ¬ w.Quiet := fun quiet => signalled.ne' quiet.1
  have isDealing : w.node.as.term.flag = true ∧ w.node.main.isStarting = false ∧ w.Waiting ∧
      w.node.starts = 1 ∧ w.Attempt ∧ w.node.as.dkg.isValidPartner = true := by
    cases kept.stage with
    | rest _ _ _ quiet | starting _ _ _ quiet | resetting _ _ _ quiet | selecting _ _ _ quiet =>
      exact absurd quiet notQuiet
    | dealing isUp notStarting waiting starts _ _ attempt valid =>
      exact ⟨isUp, notStarting, waiting, starts, attempt, valid⟩
    | generating _ _ _ starts => exact absurd starts signalled.ne'
  obtain ⟨isUp, notStarting, waiting, starts, attempt, valid⟩ := isDealing
  obtain ⟨p, isFormer, facts⟩ := kept.former attempt.2
  have noStarts : w.node.starts - 1 = 0 := by omega
  have noKey : w.node.finished = none := isNone_iff_eq_none.mp notFinished
  have outsider : w.node.as.dkg.isValidPartner = false → False := fun notValid =>
    (clash notValid valid)
  unfold Node.gossipStart
  dsimp only
  split
  · refine ⟨.generating isUp notStarting waiting noStarts attempt valid fun key isKey => ?_,
      kept.genesis, ⟨p, partnerOf_former attempt.2 isFormer, facts⟩, fun signalled => ?_,
      fun notValid => (outsider notValid).elim⟩
    · rw [noKey] at isKey
      cases isKey
    · exact absurd attempt.1 signalled.ne'
  · refine ⟨.generating isUp notStarting waiting noStarts attempt valid fun key isKey => ?_,
      kept.genesis, kept.picked, kept.pending, kept.outsider⟩
    rw [noKey] at isKey
    cases isKey

theorem Stage.of_gossips (stage : w.Stage lib) (gossips : w.node.gossips = true) :
    w.node.as.term.flag = true ∧ w.node.main.isStarting = false ∧ w.Waiting ∧
      w.node.starts = 0 ∧ w.Attempt ∧ w.node.as.dkg.isValidPartner = true := by
  rw [Node.gossips, Bool.and_eq_true, Bool.and_eq_true] at gossips
  have notReady : ¬ w.node.as.dkg.ready = false := fun same =>
    (clash same gossips.1.2)
  cases stage with
  | rest _ _ _ quiet | starting _ _ _ quiet | resetting _ _ _ quiet | selecting _ _ _ quiet =>
    exact absurd quiet.2.1 notReady
  | dealing _ _ _ _ ready => exact absurd ready notReady
  | generating isUp notStarting waiting starts attempt valid =>
    exact ⟨isUp, notStarting, waiting, starts, attempt, valid⟩

theorem Kept.generate (kept : w.Kept lib) (gossips : w.node.gossips = true)
    (partner : DKGPartner κ σ γ) (finished : Option κ)
    (result : Option (κ × Option (DistKeyShare κ σ))) (done : ∀ key, finished = some key →
      result = some (key, partner.dks lib) ∧ partner.jointPubKey = some key) :
    Kept lib { w with
      node := { w.node.withPartner partner with finished := finished }, result := result } := by
  obtain ⟨isUp, notStarting, waiting, starts, attempt, valid⟩ := kept.stage.of_gossips gossips
  obtain ⟨p, isFormer, facts⟩ := kept.former attempt.2
  refine ⟨.generating isUp notStarting waiting starts attempt valid done, kept.genesis,
    ⟨p, partnerOf_former attempt.2 isFormer, facts⟩, fun signalled => ?_, fun notValid => ?_⟩
  · exact absurd attempt.1 signalled.ne'
  · exact clash notValid valid

theorem gossips_finished {node : Node κ σ γ} (gossips : node.gossips = true) :
    node.finished = none := by
  rw [Node.gossips, Bool.and_eq_true] at gossips
  exact isNone_iff_eq_none.mp gossips.2

theorem Kept.act [DecidableEq κ] (kept : w.Kept lib) {event : Event κ γ} {after : Watched κ σ γ}
    (enabled : w.node.Enabled event) (orderly : w.node.Orderly lib event)
    (acted : w.act lib event = .ok after) : after.Kept lib := by
  obtain ⟨next, isNext, rfl⟩ := map_ok acted
  cases event with
  | confirmed tc camps height =>
    cases isNext
    exact kept.confirmed enabled orderly
  | commitNext height => exact kept.commitNext enabled isNext
  | newLatestSequencer height =>
    cases isNext
    exact kept.newLatestSequencer height
  | newTerm =>
    cases isNext
    exact kept.newTerm enabled.1 enabled.2
  | takeStart =>
    cases isNext
    exact kept.takeStart enabled.1
  | reset => exact kept.reset enabled orderly isNext
  | select order blsJointSig => exact kept.select enabled.1 enabled.2 isNext
  | proceed =>
    cases isNext
    exact kept.proceed enabled
  | gotKey sigset =>
    cases isNext
    exact kept.gotKey sigset enabled.1
  | finish height =>
    cases isNext
    exact kept.finish height
  | gossipStart dkger dealt =>
    cases isNext
    exact kept.gossipStart dkger dealt enabled.1 enabled.2
  | processed dkger =>
    cases isNext
    refine kept.generate enabled { w.node.as.dkg.partner with dkger := some dkger }
      w.node.finished w.result fun key isKey => ?_
    rw [gossips_finished enabled] at isKey
    cases isKey
  | recovered =>
    cases isNext
    unfold Node.recovered
    split
    · exact kept
    rename_i share _
    refine kept.generate enabled
      { w.node.as.dkg.partner with jointPubKey := some (lib.commit share) } w.node.finished
      w.result fun key isKey => ?_
    rw [gossips_finished enabled] at isKey
    cases isKey
  | shared =>
    cases isNext
    refine kept.generate enabled.1 { w.node.as.dkg.partner with
      keyShare := w.node.as.dkg.partner.dkger.bind lib.distKeyShare }
      w.node.as.dkg.partner.jointPubKey _ fun key isKey => ⟨?_, isKey⟩
    rw [isKey]
    simp [DKGPartner.dks]

end Events

section Runs

variable {lib : Library κ σ γ} {start : Node κ σ γ} {key : κ} {w : Watched κ σ γ}

theorem kept_ofServing (serves : start.Serves key) : (ofServing lib start key).Kept lib := by
  have settled : (ofServing lib start key).Unstarted ∨
      ∃ own, (ofServing lib start key).Done lib own := by
    cases isValid : start.as.dkg.isValidPartner with
    | true => exact .inr ⟨key, by simp [ofServing, isValid], serves.jointPubKey⟩
    | false => exact .inl ⟨by simp [ofServing, isValid], serves.outsider isValid⟩
  refine ⟨.rest serves.flag serves.main (.inl serves.loop)
    ⟨serves.starts, serves.ready, serves.finished⟩ settled, serves.genesis,
    ⟨start.as.dkg.partner, ?_, serves.jointPubKey, rfl⟩, fun _ => ⟨serves.jointPubKey, rfl⟩,
    fun isOut => ⟨?_, serves.outsider isOut⟩⟩
  · show start.as.dkg.partnerOf start.dkgTermId = _
    rw [serves.current, partnerOf_self]
  · have notValid : start.as.dkg.isValidPartner = false := isOut
    simp [ofServing, notValid]

/-- In every run of orderly steps the agreement has the key and the share of the term it serves. -/
theorem serving_key_available [DecidableEq κ] (serves : start.Serves key)
    (reached : Reaches lib (Node.Orderly lib) (ofServing lib start key) w) : w.Available lib := by
  have kept : w.Kept lib := by
    refine Reach.invariant (motive := fun w => w.Kept lib) (kept_ofServing serves) ?_ reached
    intro state after event holds isAllowed acted
    exact holds.act isAllowed.1 isAllowed.2 acted
  obtain ⟨p, picked, isKey, isShare⟩ := kept.picked
  exact available_of_partner picked isKey isShare

end Runs

def sampleServing : Node Nat Nat Nat :=
  let node := Node.sample 1
  { node with as := { node.as with dkg := { node.as.dkg with
    isValidPartner := true
    partner := { node.as.dkg.partner with
      jointPubKey := some 9
      keyShare := some ⟨[9], ⟨0, 9⟩, []⟩ } } } }

theorem serves_sampleServing : sampleServing.Serves 9 :=
  ⟨rfl, rfl, rfl, rfl, rfl, rfl, rfl, rfl, rfl, rfl, nofun⟩

def replay (allowed : Node Nat Nat Nat → Event Nat Nat → Prop)
    [∀ node event, Decidable (allowed node event)] (events : List (Event Nat Nat)) :
    Option (Watched Nat Nat Nat) :=
  AnnchainOG.replay (act .plain)
    (fun w event => decide (w.node.Enabled event ∧ allowed w.node event))
    (ofServing .plain sampleServing 9) events

/-- The agreement is reset for the term of the key 4, whose generation the node took part in. -/
theorem serving_key_available_next :
    ∃ w : Watched Nat Nat Nat,
      Reaches .plain (Node.Orderly .plain) (ofServing .plain sampleServing 9) w ∧
      w.serving = (4, some ⟨[4], ⟨0, 4⟩, []⟩) ∧ w.Available .plain := by
  have served : (replay (Node.Orderly .plain) (Event.firstRound ++ Event.generating 4 ++
      [.confirmed (some (sampleTermChange 1 [4])) [] 7, .commitNext 7, .newTerm])).map
        Watched.serving = some (4, some ⟨[4], ⟨0, 4⟩, []⟩) := by
    decide +kernel
  obtain ⟨w, replayed, isServed⟩ := map_eq_some_iff.mp served
  have reached := Reach.of_replay replayed
  exact ⟨w, reached, isServed, serving_key_available serves_sampleServing reached⟩

/-- The agreement is reset for a round that has no key. -/
theorem early_reset_loses_key :
    ∃ w : Watched Nat Nat Nat,
      Reaches .plain (fun _ _ => True) (ofServing .plain sampleServing 9) w ∧
      w.node.as.dkg.getJoinPublicKey w.node.dkgTermId = .ok none ∧
      w.node.as.dkg.sign .plain id w.node.dkgTermId = .error .nilPointer ∧
      ¬ w.Available .plain := by
  have lost : (replay (fun _ _ => True) (Event.firstRound ++ Event.generating 4 ++
      Event.campaigning (some (sampleTermChange 1 [4])) 1 2 7 ++ [.newTerm])).map (fun w =>
        (w.node.as.dkg.getJoinPublicKey w.node.dkgTermId,
          w.node.as.dkg.sign .plain id w.node.dkgTermId)) =
      some (.ok none, .error .nilPointer) := by
    decide +kernel
  obtain ⟨w, replayed, isLost⟩ := map_eq_some_iff.mp lost
  obtain ⟨noKey, panics⟩ := Prod.mk.inj isLost
  refine ⟨w, Reach.of_replay replayed, noKey, panics, fun available => ?_⟩
  have isKey := available.joinPublicKey
  rw [noKey] at isKey
  cases isKey

end Watched

end AnnchainOG.Senate
