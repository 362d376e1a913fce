import AnnchainOG.Consensus.Journal
import AnnchainOG.Consensus.Totality

/-!
# The service around a partner

The service is marked as started before the first round has a record, and a reset changes the number
of partners but not the records.
-/

namespace AnnchainOG.Bft

open List

variable {ν : Type}

/-- With whether the first round is still to be started, what is not handled yet and the
timeouts. -/
structure BFT (ν : Type) where
  bftPartner : Partner ν
  peers : List Bytes
  started : Bool
  starting : Bool
  incoming : List (Message ν)
  waiting : List TendermintContext

inductive Input (ν : Type) where
  | startBft
  | firstEra (around : Around ν) (dagHeight : UInt64)
  | reset (peersPublicKey : List Bytes) (myId : Int)
  | arrive (publicKey : Bytes) (msg : Message ν)
  | receive (setting : Setting ν) (position : Nat)
  | timeout (around : Around ν) (position : Nat)

def Output.waited : Output ν → Option TendermintContext
  | .wait context => some context
  | _ => none

namespace BFT

def newBFT (nbParticipants : Nat) (id : Int) : Except Panic (BFT ν) :=
  (newBFTPartner nbParticipants id).map fun partner => ⟨partner, [], false, false, [], []⟩

def verifyIsPartNer (b : BFT ν) (publicKey : Bytes) (sourcePartner : Int) : Bool :=
  if sourcePartner < 0 ∨ (b.peers.length : Int) - 1 < sourcePartner then false
  else b.peers[sourcePartner.toNat]? = some publicKey

def verifyProposal (b : BFT ν) (proposal : MessageProposal ν) (publicKey : Bytes) :
    Except Panic Bool :=
  if b.bftPartner.n = 0 then .error .divideByZero
  else
    let id := proposer b.bftPartner.n proposal.heightRound
    .ok (UInt16.ofInt id = proposal.sourceId && b.verifyIsPartNer publicKey id)

def verify (b : BFT ν) (publicKey : Bytes) : Message ν → Except Panic Bool
  | .proposal msg => b.verifyProposal msg publicKey
  | .preVote msg => .ok (b.verifyIsPartNer publicKey msg.sourceId.toNat)
  | .preCommit msg => .ok (b.verifyIsPartNer publicKey msg.sourceId.toNat)

/-- `Reset`: a peer is created for every key. -/
def reset (b : BFT ν) (peersPublicKey : List Bytes) (myId : Int) : Except Panic (BFT ν) :=
  (peersPublicKey.zipIdx.mapM fun peer =>
      (newBFTPartner peersPublicKey.length peer.2 : Except Panic (Partner ν))).map fun _ =>
    { b with
      bftPartner := b.bftPartner.reset peersPublicKey.length myId
      peers := peersPublicKey }

def run (b : BFT ν) (handler : Handler ν) : Except Panic (BFT ν × List (Output ν)) :=
  (handler b.bftPartner).map fun result =>
    ({ b with
      bftPartner := result.1
      waiting := b.waiting ++ result.2.filterMap Output.waited }, result.2)

variable [Proposal ν]

def step (b : BFT ν) : Input ν → Except Panic (BFT ν × List (Output ν))
  | .startBft => .ok ({ b with starting := b.starting || !b.started, started := true }, [])
  | .firstEra around dagHeight =>
    if b.starting then
      { b with starting := false }.run (Partner.startNewEra around dagHeight 0)
    else .ok (b, [])
  | .reset peersPublicKey myId => (b.reset peersPublicKey myId).map fun after => (after, [])
  | .arrive publicKey msg =>
    if b.started then
      (b.verify publicKey msg).map fun verified =>
        (if verified then { b with incoming := b.incoming ++ [msg] } else b, [])
    else .ok (b, [])
  | .receive setting position =>
    match b.incoming[position]? with
    | none => .ok (b, [])
    | some msg =>
      { b with incoming := b.incoming.eraseIdx position }.run (Partner.handleMessage setting msg)
  | .timeout around position =>
    match b.waiting[position]? with
    | none => .ok (b, [])
    | some context => b.run (Partner.onTimeout around context)

abbrev Reaches (allowed : BFT ν → Input ν → Prop) (start : BFT ν) :
    BFT ν → List (Output ν) → Prop :=
  Run (fun b input after out => b.step input = .ok (after, out)) allowed start

/-!
## Careful runs
-/

end BFT

def Partner.roomFor (p : Partner ν) (count : Nat) : Bool :=
  !p.states.any fun _ s => s.preVotes.length < count || s.preCommits.length < count

instance (n : Nat) (msg : Message ν) : Decidable (msg.InRange n) :=
  inferInstanceAs (Decidable (_ → _))

namespace BFT

variable {nbParticipants : Nat}

/-- A reset is to partners who have slots and are the sources of the votes left; messages are
handled from the first round on. -/
def Careful (b : BFT ν) : Input ν → Prop
  | .reset peersPublicKey _ =>
    2 ≤ peersPublicKey.length ∧ b.bftPartner.roomFor peersPublicKey.length = true ∧
      ∀ msg ∈ b.incoming, msg.InRange peersPublicKey.length
  | .receive _ _ => (b.bftPartner.states.get? b.bftPartner.currentHR).isSome = true
  | _ => True

structure Safe (b : BFT ν) : Prop where
  two : 2 ≤ b.bftPartner.n
  roomy : b.bftPartner.Roomy b.bftPartner.n
  peers : b.peers.length ≤ b.bftPartner.n
  queued : ∀ msg ∈ b.incoming, msg.InRange b.bftPartner.n
  waiting : b.waiting ≠ [] → b.bftPartner.Opened b.bftPartner.n

variable {b after : BFT ν} {out : List (Output ν)}

theorem safe_newBFT {id : Int} (created : newBFT nbParticipants id = .ok b) : b.Safe := by
  unfold newBFT newBFTPartner at created
  split at created
  · cases created
  rename_i notFewer
  cases created
  have two : 2 ≤ nbParticipants := not_lt.mp notFewer
  refine ⟨two, ⟨rfl, ?_, nofun⟩, Nat.zero_le _, forall_mem_nil _, fun waits => absurd rfl waits⟩
  change nbParticipants ≠ 0
  omega

theorem Safe.run {handler : Handler ν} {pre : Partner ν → Prop} (safe : b.Safe)
    (isTotal : handler.Total pre (Partner.Opened b.bftPartner.n)) (holds : pre b.bftPartner) :
    ∃ after out, b.run handler = .ok (after, out) ∧ after.Safe := by
  obtain ⟨partner, out, done, opened⟩ := isTotal b.bftPartner holds
  have sameSize := opened.size
  refine ⟨_, out, by rw [BFT.run, done]; rfl, ?_⟩
  constructor
  · exact sameSize ▸ safe.two
  · rw [sameSize]
    exact opened.toRoomy
  · exact sameSize ▸ safe.peers
  · exact sameSize ▸ safe.queued
  · rw [sameSize]
    exact fun _ => opened

theorem verifyIsPartNer_inRange {publicKey : Bytes} {source : Nat}
    (verified : b.verifyIsPartNer publicKey source = true) : source < b.peers.length := by
  unfold verifyIsPartNer at verified
  split at verified
  · cases verified
  · omega

theorem verify_ok (safe : b.Safe) (publicKey : Bytes) (msg : Message ν) :
    ∃ verified, b.verify publicKey msg = .ok verified ∧
      (verified = true → msg.InRange b.bftPartner.n) := by
  cases msg with
  | proposal msg =>
    have populated := safe.roomy.populated
    exact ⟨_, if_neg populated, fun _ isVote => absurd rfl isVote⟩
  | preVote msg | preCommit msg =>
    exact ⟨_, rfl, fun verified _ => lt_of_lt_of_le (verifyIsPartNer_inRange verified) safe.peers⟩

theorem newBFTPartner_ok (two : 2 ≤ nbParticipants) (id : Int) :
    newBFTPartner nbParticipants id = .ok (⟨id, nbParticipants, ⟨0, 0⟩, ∅⟩ : Partner ν) :=
  if_neg (not_lt.mpr two)

theorem newPeers_ok (two : 2 ≤ nbParticipants) (peers : List (Bytes × Nat)) :
    ∃ created, (peers.mapM fun peer =>
      (newBFTPartner nbParticipants peer.2 : Except Panic (Partner ν))) = .ok created := by
  induction peers with
  | nil => exact ⟨[], rfl⟩
  | cons peer rest ih =>
    obtain ⟨created, done⟩ := ih
    exact ⟨_, by rw [mapM_cons, newBFTPartner_ok two, done]; rfl⟩

theorem roomFor_iff {p : Partner ν} {count : Nat} :
    p.roomFor count = true ↔ ∀ hr s, p.states.get? hr = some s →
      count ≤ s.preVotes.length ∧ count ≤ s.preCommits.length := by
  simp [Partner.roomFor, GoMap.any_eq_false_iff]

theorem Safe.reset {peersPublicKey : List Bytes} (safe : b.Safe) (myId : Int)
    (two : 2 ≤ peersPublicKey.length) (room : b.bftPartner.roomFor peersPublicKey.length = true)
    (queued : ∀ msg ∈ b.incoming, msg.InRange peersPublicKey.length) :
    ∃ after, b.reset peersPublicKey myId = .ok after ∧ after.Safe := by
  obtain ⟨created, done⟩ := newPeers_ok (ν := ν) two peersPublicKey.zipIdx
  have roomy : (b.bftPartner.reset peersPublicKey.length myId).Roomy peersPublicKey.length := by
    refine ⟨rfl, by omega, fun {hr s} found => ?_⟩
    obtain ⟨preVotes, preCommits⟩ := roomFor_iff.mp room hr s found
    exact { safe.roomy.records found with preVotes, preCommits }
  refine ⟨_, by rw [BFT.reset, done]; rfl, two, roomy, le_refl _, queued, fun asked => ?_⟩
  exact ⟨roomy, (safe.waiting asked).current⟩

variable [Proposal ν]

theorem Safe.step {input : Input ν} (safe : b.Safe) (careful : b.Careful input) :
    ∃ after out, b.step input = .ok (after, out) ∧ after.Safe := by
  cases input with
  | startBft => exact ⟨_, _, rfl, { safe with }⟩
  | firstEra around dagHeight =>
    rw [BFT.step]
    split
    · have starting : { b with starting := false }.Safe := { safe with }
      exact starting.run (Partner.startNewEra_total around dagHeight 0) safe.roomy
    · exact ⟨b, [], rfl, safe⟩
  | reset peersPublicKey myId =>
    obtain ⟨two, room, queued⟩ := careful
    obtain ⟨after, done, stillSafe⟩ := safe.reset myId two room queued
    exact ⟨after, [], by rw [BFT.step, done]; rfl, stillSafe⟩
  | arrive publicKey msg =>
    rw [BFT.step]
    split
    · obtain ⟨verified, done, inRange⟩ := verify_ok safe publicKey msg
      rw [done]
      refine ⟨_, [], rfl, ?_⟩
      split
      next isVerified =>
        exact { safe with
          queued := forall_mem_append.mpr
            ⟨safe.queued, forall_mem_singleton.mpr (inRange isVerified)⟩ }
      · exact safe
    · exact ⟨b, [], rfl, safe⟩
  | receive setting position =>
    obtain ⟨cur, found⟩ := Option.isSome_iff_exists.mp careful
    rw [BFT.step]
    split
    · exact ⟨b, [], rfl, safe⟩
    rename_i msg isNext
    have inRange := safe.queued msg (mem_of_getElem? isNext)
    have taken : { b with incoming := b.incoming.eraseIdx position }.Safe :=
      { safe with queued := fun msg member => safe.queued msg (mem_of_mem_eraseIdx member) }
    exact taken.run (Partner.handleMessage_total setting inRange) ⟨safe.roomy, cur, found⟩
  | timeout around position =>
    rw [BFT.step]
    split
    · exact ⟨b, [], rfl, safe⟩
    rename_i context isAsked
    have asked : b.waiting ≠ [] := ne_nil_of_mem (mem_of_getElem? isAsked)
    exact safe.run (Partner.onTimeout_total around context) (safe.waiting asked)

/-- In a run of careful steps no handler panics. -/
theorem careful_steps_succeed {nbParticipants : Nat} {id : Int} {start : BFT ν} {input : Input ν}
    (created : newBFT nbParticipants id = .ok start) (run : Reaches Careful start b out)
    (careful : b.Careful input) : ∃ after new, b.step input = .ok (after, new) := by
  have safe := Run.invariant (motive := fun b _ => b.Safe) (safe_newBFT created)
    (fun safe careful stepped => by
      obtain ⟨_, _, done, stillSafe⟩ := safe.step careful
      cases done.symm.trans stepped
      exact stillSafe) run
  obtain ⟨after, new, done, -⟩ := safe.step careful
  exact ⟨after, new, done⟩

instance (b : BFT ν) : (input : Input ν) → Decidable (b.Careful input)
  | .reset _ _ => inferInstanceAs (Decidable (_ ∧ _ ∧ _))
  | .receive _ _ => inferInstanceAs (Decidable (_ = _))
  | .startBft | .firstEra _ _ | .arrive _ _ | .timeout _ _ => inferInstanceAs (Decidable True)

def replay (allowed : BFT Wire.Sequencer → Input Wire.Sequencer → Prop)
    [∀ b input, Decidable (allowed b input)] (inputs : List (Input Wire.Sequencer)) :
    Option (BFT Wire.Sequencer) :=
  (newBFT 4 1).toOption.bind fun start =>
    follow step (fun b input => decide (allowed b input)) start inputs

theorem replay_reaches {allowed : BFT Wire.Sequencer → Input Wire.Sequencer → Prop}
    [∀ b input, Decidable (allowed b input)] {inputs : List (Input Wire.Sequencer)}
    {b : BFT Wire.Sequencer} (replayed : replay allowed inputs = some b) :
    ∃ start out, newBFT 4 1 = .ok start ∧ Reaches allowed start b out :=
  follow_reaches replayed

def sampleKeys (count : Nat) : List Bytes := (List.range count).map fun id => [UInt8.ofNat id]

def sampleVote (source : UInt16) : Input Wire.Sequencer :=
  .arrive [source.toUInt8] (.preVote ⟨⟨source, ⟨4, 0⟩⟩, some 7, [], []⟩)

def openings : List (Input Wire.Sequencer) :=
  [.reset (sampleKeys 4) 1, .startBft, .firstEra (.sample 9) 4]

theorem careful_steps_succeed_vote :
    ∃ b after out, replay Careful (openings ++ [sampleVote 0]) = some b ∧
      b.incoming.length = 1 ∧ b.step (.receive .sample 0) = .ok (after, out) := by
  have ready : (replay Careful (openings ++ [sampleVote 0])).map (fun b =>
      (b.incoming.length, decide (b.Careful (.receive .sample 0)))) = some (1, true) := by
    decide +kernel
  obtain ⟨b, replayed, queued⟩ := Option.map_eq_some_iff.mp ready
  obtain ⟨one, careful⟩ := Prod.mk.inj queued
  obtain ⟨start, _, created, run⟩ := replay_reaches replayed
  obtain ⟨after, out, done⟩ := careful_steps_succeed created run (of_decide_eq_true careful)
  exact ⟨b, after, out, replayed, one, done⟩

def panics (b : BFT Wire.Sequencer) (input : Input Wire.Sequencer) : Option Panic :=
  match b.step input with
  | .error panic => some panic
  | .ok _ => none

/-- A vote is handled before the first round, and another one after a reset to more partners. -/
theorem verified_votes_panic :
    (∃ start b out, newBFT 4 1 = .ok start ∧ Reaches (fun _ _ => True) start b out ∧
      panics b (.receive .sample 0) = some .nilState) ∧
    ∃ start b out, newBFT 4 1 = .ok start ∧ Reaches (fun _ _ => True) start b out ∧
      panics b (.receive .sample 0) = some .indexOutOfRange := by
  have early : (replay (fun _ _ => True) [.reset (sampleKeys 4) 1, .startBft, sampleVote 0]).map
      (fun b => panics b (.receive .sample 0)) = some (some .nilState) := by
    decide +kernel
  have grown : (replay (fun _ _ => True) (openings ++ [.reset (sampleKeys 7) 1, sampleVote 5])).map
      (fun b => panics b (.receive .sample 0)) = some (some .indexOutOfRange) := by
    decide +kernel
  obtain ⟨b, replayed, isEarly⟩ := Option.map_eq_some_iff.mp early
  obtain ⟨start, out, created, run⟩ := replay_reaches replayed
  obtain ⟨later, replayedLater, isGrown⟩ := Option.map_eq_some_iff.mp grown
  obtain ⟨startLater, outLater, createdLater, runLater⟩ := replay_reaches replayedLater
  exact ⟨⟨start, b, out, created, run, isEarly⟩,
    ⟨startLater, later, outLater, createdLater, runLater, isGrown⟩⟩

end BFT

end AnnchainOG.Bft
