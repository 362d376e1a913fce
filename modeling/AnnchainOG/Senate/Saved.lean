import AnnchainOG.Senate.Evidence
import AnnchainOG.Senate.Serving

/-!
# Consensus data on disk

A partner saves its share, the joint key and the signatures when a term begins. The term change of
the genesis term is built again.
-/

namespace AnnchainOG.Senate

open List

open Wire (TermChange SigSet Crypto)

variable {κ σ γ φ : Type}

structure DkgConfig where
  dKgSecretKey : Bytes
  dKgJointPublicKey : Bytes
  commitLen : List Nat
  polyLen : List Nat
  commitsData : Bytes
  privPolyData : Bytes
  shareData : Bytes
  partnerId : UInt32
  sigSets : GoMap Address SigSet

structure LoadedConfig (κ σ : Type) where
  jointPubKey : κ
  secretKey : σ
  keyShare : DistKeyShare κ σ
  partnerId : UInt32
  sigSets : GoMap Address SigSet

/-- The encodings of the key library and JSON; `φ` is what a file holds. -/
structure Codec (κ σ φ : Type) where
  marshalPoint : κ → Bytes
  unmarshalBinaryPointG2 : Bytes → Option κ
  marshalScalar : σ → Bytes
  unmarshalScalar : Bytes → Option σ
  marshalShare : PriShare σ → Bytes
  unmarshalShare : Bytes → Option (PriShare σ)
  marshalConfig : DkgConfig → φ
  unmarshalConfig : φ → Option DkgConfig

structure Codec.RoundTrips (codec : Codec κ σ φ) : Prop where
  point : ∀ point, codec.unmarshalBinaryPointG2 (codec.marshalPoint point) = some point
  scalar : ∀ scalar, codec.unmarshalScalar (codec.marshalScalar scalar) = some scalar
  share : ∀ share, codec.unmarshalShare (codec.marshalShare share) = some share
  config : ∀ config, codec.unmarshalConfig (codec.marshalConfig config) = some config

/-! ## Tables of lengths -/

section Tables

variable {α : Type}

/-- The items that a table of lengths cuts out; a length beyond the end is out of range. -/
def readTable (unmarshal : Bytes → Option α) : List Nat → Bytes → Except Panic (Option (List α))
  | [], _ => .ok (some [])
  | len :: lens, data =>
    if data.length < len then .error .indexOutOfRange
    else
      match unmarshal (data.take len) with
      | none => .ok none
      | some item => do
          let rest ← readTable unmarshal lens (data.drop len)
          return rest.map (item :: ·)

theorem readTable_written {marshal : α → Bytes} {unmarshal : Bytes → Option α}
    (trips : ∀ item, unmarshal (marshal item) = some item) (items : List α) :
    readTable unmarshal (items.map fun item => (marshal item).length) (items.flatMap marshal) =
      .ok (some items) := by
  induction items with
  | nil => rfl
  | cons item rest ih =>
    have enough : ¬ (marshal item ++ rest.flatMap marshal).length < (marshal item).length := by
      rw [length_append]
      omega
    rw [map_cons, flatMap_cons, readTable, if_neg enough, take_left, trips, drop_left]
    simp only [ih]
    rfl

end Tables

/-! ## Saving and loading -/

namespace Dkg

variable (codec : Codec κ σ φ)

def saveConsensusData (d : Dkg κ σ γ) : Except Panic φ :=
  match d.partner.jointPubKey, d.partner.myPartSec, d.partner.keyShare with
  | some jointPubKey, some myPartSec, some keyShare =>
    .ok (codec.marshalConfig {
      dKgSecretKey := codec.marshalScalar myPartSec
      dKgJointPublicKey := codec.marshalPoint jointPubKey
      commitLen := keyShare.commits.map fun point => (codec.marshalPoint point).length
      polyLen := keyShare.privatePoly.map fun scalar => (codec.marshalScalar scalar).length
      commitsData := keyShare.commits.flatMap codec.marshalPoint
      privPolyData := keyShare.privatePoly.flatMap codec.marshalScalar
      shareData := codec.marshalShare keyShare.share
      partnerId := d.partner.id
      sigSets := d.blsSigSets })
  | _, _, _ => .error .nilPointer

/-- `none` where it returns an error. -/
def loadConsensusData (file : φ) : Except Panic (Option (LoadedConfig κ σ)) :=
  match codec.unmarshalConfig file with
  | none => .ok none
  | some config => do
      let commits ← readTable codec.unmarshalBinaryPointG2 config.commitLen config.commitsData
      let privatePoly ← readTable codec.unmarshalScalar config.polyLen config.privPolyData
      return do
        let keyShare := ⟨← commits, ← codec.unmarshalShare config.shareData, ← privatePoly⟩
        let jointPubKey ← codec.unmarshalBinaryPointG2 config.dKgJointPublicKey
        let secretKey ← codec.unmarshalScalar config.dKgSecretKey
        return ⟨jointPubKey, secretKey, keyShare, config.partnerId, config.sigSets⟩

def setConfig (d : Dkg κ σ γ) (config : LoadedConfig κ σ) : Dkg κ σ γ :=
  { d with
    dkgOn := true
    ready := true
    isValidPartner := true
    blsSigSets := config.sigSets
    partner := { d.partner with
      keyShare := some config.keyShare
      myPartSec := some config.secretKey
      jointPubKey := some config.jointPubKey
      id := config.partnerId } }

variable {codec}

theorem loadConsensusData_saved (trips : codec.RoundTrips) {d : Dkg κ σ γ} {jointPubKey : κ}
    {myPartSec : σ} {keyShare : DistKeyShare κ σ} (isKey : d.partner.jointPubKey = some jointPubKey)
    (isSec : d.partner.myPartSec = some myPartSec) (isShare : d.partner.keyShare = some keyShare) :
    ∃ file, d.saveConsensusData codec = .ok file ∧ loadConsensusData codec file =
      .ok (some ⟨jointPubKey, myPartSec, keyShare, d.partner.id, d.blsSigSets⟩) := by
  unfold saveConsensusData
  rw [isKey, isSec, isShare]
  refine ⟨_, rfl, ?_⟩
  unfold loadConsensusData
  rw [trips.config]
  simp only [readTable_written trips.point, readTable_written trips.scalar, trips.point,
    trips.scalar, trips.share]
  rfl

end Dkg

/-! ## The restart -/

variable (address : Bytes → Address)

namespace AnnSensus

/-- The genesis accounts become candidates, in their order and once. -/
def addGenesisCampaigns (as : AnnSensus κ σ γ) : AnnSensus κ σ γ :=
  if as.addedGenesisCampaign then as
  else
    { as with
      addedGenesisCampaign := true
      term := as.genesisAccounts.zipIdx.foldl (fun t entry =>
        t.addCandidate ⟨0, 0, (entry.2 * 10 + 10).toUInt64, entry.1, [], [], address entry.1, none⟩
          entry.1) as.term }

/-- The first event about being up to date, at a genesis partner; an error of the loading panics. -/
def updateEvent (codec : Codec κ σ φ) (address : Bytes → Address) (file : φ)
    (order : List (Address × SigSet)) (isUptoDate : Bool) (height : UInt64)
    (as : AnnSensus κ σ γ) : Except Panic (AnnSensus κ σ γ) :=
  if height = 0 && isUptoDate then .ok { as with genesisBftIsRunning := true }
  else do
    let pk ← as.dkg.getJoinPublicKey as.dkg.termId
    if pk.isSome then return as
    else
      match ← Dkg.loadConsensusData codec file with
      | none => .error .programmerError
      | some config =>
        let as := { as with dkg := as.dkg.setConfig config }.addGenesisCampaigns address
        let pkbls := (pk.map codec.marshalPoint).getD []
        let tc := as.genTermChg pkbls (order.map Prod.snd)
        return { as with term := as.term.changeTerm tc height }

/-- What a peer is sent that asks for the genesis term change. -/
def handleTermChangeRequest (sign : TermChange → Bytes) (calcTxHash : TermChange → Hash)
    (a : AnnSensus κ σ γ) : Option TermChange :=
  if a.disable || !a.term.started then none
  else
    a.term.genesisTermChange.map fun tc =>
      let tc := { tc with base := { tc.base with publicKey := a.myAccount.publicKey } }
      let tc := { tc with base := { tc.base with signature := sign tc } }
      { tc with base := { tc.base with hash := calcTxHash tc } }

end AnnSensus

/-- A node has what it had before, and serves a term change which its peers accept. -/
structure RestoresTerm (crypto : Crypto) (sign : TermChange → Bytes)
    (calcTxHash : TermChange → Hash) (before after peer : AnnSensus κ σ γ) : Prop where
  keyShare : after.dkg.partner.keyShare = before.dkg.partner.keyShare
  jointPubKey : after.dkg.partner.jointPubKey = before.dkg.partner.jointPubKey
  partnerId : after.dkg.partner.id = before.dkg.partner.id
  sigSets : after.dkg.blsSigSets = before.dkg.blsSigSets
  termChange : ∃ tc served, before.term.genesisTermChange = some tc ∧
    after.handleTermChangeRequest sign calcTxHash = some served ∧ served.pkBls = tc.pkBls ∧
    served.sigSet.Perm tc.sigSet ∧ peer.verifyRequestedTermChange crypto served = true

section Restart

variable {codec : Codec κ σ φ} {before : AnnSensus κ σ γ} {jointPubKey : κ} {myPartSec : σ}
variable {keyShare : DistKeyShare κ σ} {tc : TermChange} {entries order : List (Address × SigSet)}

theorem addGenesisCampaigns_frame (as : AnnSensus κ σ γ) :
    ∃ term added, as.addGenesisCampaigns address =
      { as with term := term, addedGenesisCampaign := added } ∧ term.id = as.term.id := by
  unfold AnnSensus.addGenesisCampaigns
  split
  · exact ⟨as.term, as.addedGenesisCampaign, rfl, rfl⟩
  refine ⟨_, true, rfl, ?_⟩
  generalize as.genesisAccounts.zipIdx = accounts
  generalize as.term = term
  induction accounts generalizing term with
  | nil => rfl
  | cons account rest ih =>
    rw [foldl_cons, ih]
    rfl

theorem updateEvent_loaded (order : List (Address × SigSet))
    (as : AnnSensus κ σ γ) {file : φ} {config : LoadedConfig κ σ} {isUptoDate : Bool}
    {height : UInt64} (later : (height = 0 && isUptoDate) = false)
    (noKey : as.dkg.partner.jointPubKey = none) (first : as.term.id = 0)
    (loaded : Dkg.loadConsensusData codec file = .ok (some config)) :
    ∃ after, as.updateEvent codec address file order isUptoDate height = .ok after ∧
      after.disable = as.disable ∧ after.dkg = as.dkg.setConfig config ∧
      after.term.started = true ∧ ∃ rebuilt, after.term.genesisTermChange = some rebuilt ∧
        rebuilt.pkBls = [] ∧ rebuilt.sigSet = (order.map Prod.snd).map some := by
  have asked : as.dkg.getJoinPublicKey as.dkg.termId = .ok none := by
    rw [Dkg.getJoinPublicKey, Watched.partnerOf_self, ← noKey]
    rfl
  obtain ⟨term, added, isNext, sameId⟩ :=
    addGenesisCampaigns_frame address { as with dkg := as.dkg.setConfig config }
  unfold AnnSensus.updateEvent
  rw [later, if_neg Bool.false_ne_true, asked]
  simp only [bind, Except.bind, Option.isSome_none, Bool.false_eq_true, if_false, loaded, isNext]
  exact ⟨_, rfl, rfl, rfl, rfl, _, if_pos (sameId.trans first), rfl, rfl⟩

theorem handleTermChangeRequest_served (sign : TermChange → Bytes) (calcTxHash : TermChange → Hash)
    {as : AnnSensus κ σ γ} (enabled : as.disable = false) (started : as.term.started = true)
    (isTc : as.term.genesisTermChange = some tc) :
    ∃ served, as.handleTermChangeRequest sign calcTxHash = some served ∧
      served.sigSet = tc.sigSet ∧ served.pkBls = tc.pkBls := by
  unfold AnnSensus.handleTermChangeRequest
  rw [enabled, started, isTc]
  exact ⟨_, rfl, rfl, rfl⟩

/-- A restarted partner has its key, but serves a term change without a public key: the term is
never restored. -/
theorem restart_breaks_term (trips : codec.RoundTrips)
    (encodes : ∀ point, codec.marshalPoint point ≠ []) (crypto : Crypto)
    (sign : TermChange → Bytes) (calcTxHash : TermChange → Hash) (address : Bytes → Address)
    (peer : AnnSensus κ σ γ) (isKey : before.dkg.partner.jointPubKey = some jointPubKey)
    (isSec : before.dkg.partner.myPartSec = some myPartSec)
    (isShare : before.dkg.partner.keyShare = some keyShare)
    (isTc : before.term.genesisTermChange = some tc)
    (isPk : tc.pkBls = codec.marshalPoint jointPubKey)
    (listed : before.dkg.blsSigSets.Iterates entries)
    (isSigs : tc.sigSet = (entries.map Prod.snd).map some)
    (ranged : before.dkg.blsSigSets.Iterates order) (termChangeInterval : Nat)
    (pair : σ × Bytes) (isUptoDate : Bool) (height : UInt64) :
    ∃ file after, before.dkg.saveConsensusData codec = .ok file ∧
      (newAnnSensus termChangeInterval before.nbParticipants before.genesisAccounts
        before.myAccount pair).updateEvent codec address file order isUptoDate height = .ok after ∧
      ((height = 0 && isUptoDate) = false → after.dkg.partner.keyShare = some keyShare ∧
        after.dkg.partner.jointPubKey = some jointPubKey ∧
        after.dkg.partner.id = before.dkg.partner.id ∧
        after.dkg.blsSigSets = before.dkg.blsSigSets ∧
        ∃ served, after.handleTermChangeRequest sign calcTxHash = some served ∧
          served.sigSet.Perm tc.sigSet ∧ served.pkBls = []) ∧
      ¬ RestoresTerm crypto sign calcTxHash before after peer := by
  obtain ⟨file, isSaved, loaded⟩ := Dkg.loadConsensusData_saved trips isKey isSec isShare
  refine ⟨file, ?_⟩
  cases later : (height = 0 && isUptoDate : Bool) with
  | true =>
    refine ⟨_, isSaved, if_pos later, ?_, fun restores => ?_⟩
    · intro isLater
      cases isLater
    · have noShare := restores.keyShare
      rw [isShare] at noShare
      cases noShare
  | false =>
    obtain ⟨after, isAfter, enabled, isDkg, started, rebuilt, isRebuilt, noKey, sigs⟩ :=
      updateEvent_loaded address order (newAnnSensus termChangeInterval before.nbParticipants
        before.genesisAccounts before.myAccount pair) later rfl rfl loaded
    obtain ⟨served, isServed, servedSigs, servedKey⟩ :=
      handleTermChangeRequest_served sign calcTxHash enabled started isRebuilt
    refine ⟨after, isSaved, isAfter, fun _ => ?_, fun restores => ?_⟩
    · rw [isDkg]
      refine ⟨rfl, rfl, rfl, rfl, served, isServed, ?_, servedKey.trans noKey⟩
      rw [servedSigs, sigs, isSigs]
      exact ((ranged.unique listed).map _).map _
    · obtain ⟨original, other, isOriginal, isOther, sameKey, -⟩ := restores.termChange
      rw [isTc] at isOriginal
      cases isOriginal
      rw [isServed] at isOther
      cases isOther
      refine encodes jointPubKey ?_
      rw [← isPk, ← sameKey, servedKey, noKey]

end Restart

/-! ## A restart -/

/-- Points and scalars are bytes; the index of a share is written in unary, after its sign. -/
def Codec.plain : Codec UInt8 UInt8 DkgConfig where
  marshalPoint point := [point]
  unmarshalBinaryPointG2 bytes := bytes.head?
  marshalScalar scalar := [scalar]
  unmarshalScalar bytes := bytes.head?
  marshalShare share :=
    share.v :: (if share.i < 0 then 1 else 0) :: List.replicate share.i.natAbs 0
  unmarshalShare
    | v :: sign :: rest => some ⟨if sign = 1 then -(rest.length : Int) else rest.length, v⟩
    | _ => none
  marshalConfig config := config
  unmarshalConfig config := some config

theorem Codec.plain_roundTrips : Codec.plain.RoundTrips where
  point _ := rfl
  scalar _ := rfl
  share share := by
    obtain ⟨i, v⟩ := share
    show some (PriShare.mk _ v) = some ⟨i, v⟩
    congr 2
    dsimp only
    rw [length_replicate]
    by_cases negative : i < 0
    · rw [if_pos negative, if_pos rfl]
      omega
    · rw [if_neg negative, if_neg (by decide)]
      omega
  config _ := rfl

def sampleSigSet (account : UInt8) : SigSet :=
  ⟨[account], [account, 9]⟩

def savedPartner : AnnSensus UInt8 UInt8 Nat :=
  let as := newAnnSensus 1 2 [[1], [2]] (.sample 1) (7, [7])
  { as with
    dkg := { as.dkg with
      isValidPartner := true
      blsSigSets := ((∅ : GoMap Address SigSet).set 1 (sampleSigSet 1)).set 2 (sampleSigSet 2)
      partner := { as.dkg.partner with
        jointPubKey := some 9
        keyShare := some ⟨[9, 4], ⟨0, 3⟩, [3, 5]⟩ } }
    term := as.term.changeTerm (as.genTermChg [9] [sampleSigSet 1, sampleSigSet 2]) 0 }

def sampleOrder : List (Address × SigSet) :=
  [(2, sampleSigSet 2), (1, sampleSigSet 1)]

theorem restart_breaks_sample :
    ∃ file after, savedPartner.dkg.saveConsensusData .plain = .ok file ∧
      (newAnnSensus 1 2 [[1], [2]] (.sample 1) (8, [8]) : AnnSensus UInt8 UInt8 Nat).updateEvent
        .plain (fun pk => (pk.headD 0).toNat) file sampleOrder true 5 = .ok after ∧
      after.dkg.partner.keyShare = some ⟨[9, 4], ⟨0, 3⟩, [3, 5]⟩ ∧
      ¬ RestoresTerm .plain (fun _ => []) (fun _ => 0) savedPartner after savedPartner := by
  have listed : savedPartner.dkg.blsSigSets.Iterates
      [(1, sampleSigSet 1), (2, sampleSigSet 2)] := by decide +kernel
  have ranged : savedPartner.dkg.blsSigSets.Iterates sampleOrder := by decide +kernel
  obtain ⟨file, after, isSaved, isAfter, restored, broken⟩ :=
    restart_breaks_term Codec.plain_roundTrips (fun point => cons_ne_nil point [])
      .plain (fun _ => []) (fun _ => 0) (fun pk => (pk.headD 0).toNat) savedPartner
      (show savedPartner.dkg.partner.jointPubKey = some 9 from rfl) rfl rfl rfl rfl listed rfl ranged
      1 (8, [8]) true 5
  exact ⟨file, after, isSaved, isAfter, (restored rfl).1, broken⟩

/-- A peer accepts the term change of before, but not the one that is served after the restart. -/
theorem restarted_partner_refused :
    ∃ file after served, savedPartner.dkg.saveConsensusData .plain = .ok file ∧
      (newAnnSensus 1 2 [[1], [2]] (.sample 1) (8, [8]) : AnnSensus UInt8 UInt8 Nat).updateEvent
        .plain (fun pk => (pk.headD 0).toNat) file sampleOrder true 5 = .ok after ∧
      after.handleTermChangeRequest (fun _ => []) (fun _ => 0) = some served ∧ served.pkBls = [] ∧
      (∀ tc, savedPartner.term.genesisTermChange = some tc →
        savedPartner.verifyRequestedTermChange .plain tc = true) ∧
      savedPartner.verifyRequestedTermChange .plain served = false ∧
      ¬ RestoresTerm .plain (fun _ => []) (fun _ => 0) savedPartner after savedPartner := by
  have refused : ((savedPartner.dkg.saveConsensusData .plain).toOption.bind fun file =>
      ((newAnnSensus 1 2 [[1], [2]] (.sample 1) (8, [8]) : AnnSensus UInt8 UInt8 Nat).updateEvent
        .plain (fun pk => (pk.headD 0).toNat) file sampleOrder true 5).toOption.bind fun after =>
          (after.handleTermChangeRequest (fun _ => []) (fun _ => 0)).map fun served =>
            (served.pkBls, savedPartner.verifyRequestedTermChange .plain served)) =
      some ([], false) := by
    decide +kernel
  obtain ⟨file, isFile, later⟩ := Option.bind_eq_some_iff.mp refused
  obtain ⟨after, isAfter, last⟩ := Option.bind_eq_some_iff.mp later
  obtain ⟨served, isServed, isRefused⟩ := Option.map_eq_some_iff.mp last
  obtain ⟨noKey, refuses⟩ := Prod.mk.inj isRefused
  refine ⟨file, after, served, ok_of_toOption isFile, ok_of_toOption isAfter, isServed, noKey, ?_,
    refuses, fun restores => ?_⟩
  · intro tc isTc
    cases isTc
    decide +kernel
  · obtain ⟨tc, other, -, isOther, -, -, accepted⟩ := restores.termChange
    rw [isServed] at isOther
    cases isOther
    exact clash refuses accepted

end AnnchainOG.Senate
