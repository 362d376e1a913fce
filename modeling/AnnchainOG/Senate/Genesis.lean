import AnnchainOG.Intake.Verifier
import AnnchainOG.Senate.Roles

/-!
# The genesis round

The main loop makes a campaign of each message of a genesis account, whoever it is from; what is
committed is counted by sender.
-/

namespace AnnchainOG.Senate

open List

open Wire (Crypto)

variable {κ σ γ : Type}

structure MessageConsensusDkgGenesisPublicKey where
  dkgPublicKey : Bytes
  publicKey : Bytes
  signature : Bytes
  deriving DecidableEq

/-- What the main loop keeps of the genesis round, and the lists it called `commit` with. -/
structure Genesis (κ σ γ : Type) where
  as : AnnSensus κ σ γ
  genesisCamps : List (Campaign κ)
  genesisPublickeyProcessFinished : Bool
  commits : List (List (Campaign κ))

def newGenesis (as : AnnSensus κ σ γ) : Genesis κ σ γ :=
  ⟨as, [], false, []⟩

section Collecting

variable (crypto : Crypto) (address : Bytes → Address) (lib : Library κ σ γ)

def AnnSensus.genesisCampaign (as : AnnSensus κ σ γ) (msg : MessageConsensusDkgGenesisPublicKey) :
    Option (Campaign κ) := do
  let (pk, id) ← as.genesisAccounts.zipIdx.find? fun entry => msg.publicKey = entry.1
  let point ← lib.unmarshalBinaryPointG2 msg.dkgPublicKey
  return ⟨0, 0, (id * 10 + 10).toUInt64, msg.publicKey, msg.dkgPublicKey, [], address pk, some point⟩

namespace Genesis

def collect (g : Genesis κ σ γ) (msg : MessageConsensusDkgGenesisPublicKey) : Genesis κ σ γ :=
  if g.genesisPublickeyProcessFinished then g
  else
    match g.as.genesisCampaign address lib msg with
    | none => g
    | some cp =>
      let genesisCamps := g.genesisCamps ++ [cp]
      if genesisCamps.length = g.as.nbParticipants then
        { g with
          genesisCamps := genesisCamps
          genesisPublickeyProcessFinished := true
          commits := g.commits ++ [genesisCamps] }
      else { g with genesisCamps := genesisCamps }

def handle (g : Genesis κ σ γ) (msg : MessageConsensusDkgGenesisPublicKey) : Genesis κ σ γ :=
  if g.as.disable then g
  else if !g.as.genesisBftIsRunning then g
  else if !crypto.verify msg.publicKey msg.signature msg.dkgPublicKey then g
  else g.collect address lib msg

def handleAll (g : Genesis κ σ γ) (msgs : List MessageConsensusDkgGenesisPublicKey) :
    Genesis κ σ γ :=
  msgs.foldl (handle crypto address lib) g

end Genesis

/-! ## What is collected -/

namespace Genesis

variable {crypto address lib}

theorem collect_eq (g : Genesis κ σ γ) {msg : MessageConsensusDkgGenesisPublicKey}
    (enabled : g.as.disable = false) (running : g.as.genesisBftIsRunning = true)
    (signed : crypto.verify msg.publicKey msg.signature msg.dkgPublicKey = true) :
    g.handle crypto address lib msg = g.collect address lib msg := by
  simp [handle, enabled, running, signed]

theorem collect_finished {g : Genesis κ σ γ} (closed : g.genesisPublickeyProcessFinished = true)
    (msgs : List MessageConsensusDkgGenesisPublicKey) : msgs.foldl (collect address lib) g = g := by
  induction msgs with
  | nil => rfl
  | cons msg rest ih =>
    rw [foldl_cons, collect, if_pos closed]
    exact ih

theorem collectAll_eq (as : AnnSensus κ σ γ) {camps : List (Campaign κ)}
    (few : camps.length < as.nbParticipants) (msgs : List MessageConsensusDkgGenesisPublicKey) :
    msgs.foldl (collect address lib) ⟨as, camps, false, []⟩ =
      let all := camps ++ msgs.filterMap (as.genesisCampaign address lib)
      if as.nbParticipants ≤ all.length then
        ⟨as, all.take as.nbParticipants, true, [all.take as.nbParticipants]⟩
      else ⟨as, all, false, []⟩ := by
  induction msgs generalizing camps with
  | nil => simp [few.not_ge]
  | cons msg rest ih =>
    rw [foldl_cons, filterMap_cons]
    cases isCampaign : as.genesisCampaign address lib msg with
    | none =>
      have skipped : collect address lib ⟨as, camps, false, []⟩ msg = ⟨as, camps, false, []⟩ := by
        simp [collect, isCampaign]
      rw [skipped, ih few]
    | some cp =>
      have longer : (camps ++ [cp]).length = camps.length + 1 := by simp
      by_cases isLast : (camps ++ [cp]).length = as.nbParticipants
      · have closed : collect address lib ⟨as, camps, false, []⟩ msg =
            ⟨as, camps ++ [cp], true, [camps ++ [cp]]⟩ := by
          simp only [collect, isCampaign, isLast, if_true, nil_append]
          rfl
        have isTake : (camps ++ cp :: rest.filterMap (as.genesisCampaign address lib)).take
            as.nbParticipants = camps ++ [cp] := by
          rw [append_cons, ← isLast, take_left]
        have enough : as.nbParticipants ≤
            (camps ++ cp :: rest.filterMap (as.genesisCampaign address lib)).length := by
          rw [length_append, length_cons]
          omega
        rw [closed, collect_finished rfl]
        simp only [isTake, enough, if_true]
      · have added : collect address lib ⟨as, camps, false, []⟩ msg =
            ⟨as, camps ++ [cp], false, []⟩ := by
          simp only [collect, isCampaign, isLast, if_false]
          rfl
        rw [added, ih (by omega), ← append_cons]

end Genesis

end Collecting

variable {t : Term κ} {campaigns : Campaigns κ} {c : Campaign κ}

/-! ## What is committed -/

def Event.IsCommit : Event κ γ → Prop
  | .commitNext _ => True
  | _ => False

def Term.withCampaigns (t : Term κ) (campaigns : Campaigns κ) : Term κ :=
  { t with campaigns := some campaigns }

theorem Term.hasCampaign_of_ne
    {addr : Address} (collecting : t.campaigns = some campaigns) (different : addr ≠ c.sender)
    (unknown : t.hasCampaign addr = false) :
    (t.withCampaigns (campaigns.set c.sender c)).hasCampaign addr = false := by
  obtain ⟨noCandidate, noCampaign, noAlsoran⟩ := hasCampaign_eq_false.mp unknown
  refine hasCampaign_eq_false.mpr ⟨noCandidate, ?_, noAlsoran⟩
  rw [getCampaign, collecting] at noCampaign
  exact (GoMap.get?_set_of_ne _ _ different).trans noCampaign

theorem Term.size_of_unknown
    (collecting : t.campaigns = some campaigns) (unknown : t.hasCampaign c.sender = false) :
    (campaigns.set c.sender c).size = campaigns.size + 1 := by
  have noCampaign := (hasCampaign_eq_false.mp unknown).2.1
  rw [getCampaign, collecting] at noCampaign
  exact GoMap.size_set_of_absent c noCampaign

namespace Node

variable {node : Node κ σ γ}

theorem commitNext_new {campaigns : Campaigns κ} {c : Campaign κ} {rest : List (Campaign κ)}
    (height : UInt64) (isNext : node.main = .committing (c :: rest))
    (isDown : node.as.term.flag = false) (collecting : node.as.term.campaigns = some campaigns)
    (running : node.as.genesisBftIsRunning = true) (point : c.dkgPoint.isSome = true)
    (unknown : node.as.term.hasCampaign c.sender = false) :
    node.commitNext height = .ok (if node.as.term.partsNum ≤ campaigns.size + 1 then { node.withTerm
            ((node.as.term.withCampaigns (campaigns.set c.sender c)).switchFlag true) with
          main := .starting rest } else
        { node.withTerm (node.as.term.withCampaigns (campaigns.set c.sender c)) with
          main := .committing rest }) := by
  generalize isTerm : node.as.term.withCampaigns (campaigns.set c.sender c) = term
  have added : node.as.addCampaign c = .ok { node.as with term := term } := by
    obtain ⟨key, isKey⟩ := Option.isSome_iff_exists.mp point
    simp only [AnnSensus.addCampaign, unknown, isKey, Term.addCampaign, collecting, ← isTerm]
    rfl
  have count : term.campaignCount = campaigns.size + 1 := by
    rw [← isTerm]
    exact Term.size_of_unknown collecting unknown
  have parts : term.partsNum = node.as.term.partsNum := by
    rw [← isTerm]
    rfl
  have canChange : ({ node.as with term := term } : AnnSensus κ σ γ).canChangeTerm height =
      decide (node.as.term.partsNum ≤ campaigns.size + 1) := by
    show term.canChange height node.as.genesisBftIsRunning = _
    unfold Term.canChange
    rw [count, running, parts, if_neg (Nat.succ_ne_zero _)]
    by_cases enough : node.as.term.partsNum ≤ campaigns.size + 1
    · rw [if_neg (Nat.not_lt.mpr enough), if_pos rfl, decide_eq_true enough]
    · rw [if_pos (Nat.not_le.mp enough), decide_eq_false enough]
  unfold commitNext
  rw [isNext]
  simp only [isDown, Bool.false_eq_true, if_false, added, bind, Except.bind, canChange,
    decide_eq_true_eq]
  split <;> rfl

theorem committing_starts (lib : Library κ σ γ) (height : UInt64) {camps : List (Campaign κ)}
    {campaigns : Campaigns κ} (isNext : node.main = .committing camps)
    (isDown : node.as.term.flag = false) (collecting : node.as.term.campaigns = some campaigns)
    (running : node.as.genesisBftIsRunning = true) (someone : camps ≠ [])
    (points : ∀ cp ∈ camps, cp.dkgPoint.isSome = true)
    (unknown : ∀ cp ∈ camps, node.as.term.hasCampaign cp.sender = false)
    (distinct : (camps.map Campaign.sender).Nodup)
    (missing : campaigns.size + camps.length = node.as.term.partsNum) :
    ∃ final, Reaches lib (fun _ event => event.IsCommit) node final ∧
      final.main.isStarting = true ∧ final.as.term.flag = true := by
  induction camps generalizing node campaigns with
  | nil => exact absurd rfl someone
  | cons c rest ih =>
    have isNew := unknown c mem_cons_self
    have enabled : node.Enabled (.commitNext height) := by
      show node.main.isCommitting = true
      rw [isNext]
      rfl
    have acted := commitNext_new height isNext isDown collecting running
      (points c mem_cons_self) isNew
    rw [length_cons] at missing
    cases rest with
    | nil =>
      rw [length_nil] at missing
      rw [if_pos (by omega)] at acted
      exact ⟨_, .after ⟨enabled, trivial⟩ acted .start, rfl, rfl⟩
    | cons next others =>
      rw [length_cons] at missing
      rw [if_neg (by omega)] at acted
      obtain ⟨notLater, laterDistinct⟩ := nodup_cons.mp distinct
      have stillUnknown : ∀ cp ∈ next :: others, (node.as.term.withCampaigns
          (campaigns.set c.sender c)).hasCampaign cp.sender = false := by
        intro cp member
        refine Term.hasCampaign_of_ne collecting ?_ (unknown cp (mem_cons_of_mem _ member))
        intro same
        exact notLater (same ▸ mem_map_of_mem member)
      have stillMissing : (campaigns.set c.sender c).size + (next :: others).length =
          node.as.term.partsNum := by
        rw [Term.size_of_unknown collecting isNew, length_cons]
        omega
      have later : ∃ final, Reaches lib (fun _ event => event.IsCommit)
          { node.withTerm (node.as.term.withCampaigns (campaigns.set c.sender c)) with
            main := .committing (next :: others) } final ∧
          final.main.isStarting = true ∧ final.as.term.flag = true :=
        ih rfl isDown rfl running (cons_ne_nil _ _)
          (fun cp member => points cp (mem_cons_of_mem _ member)) stillUnknown
          laterDistinct stillMissing
      obtain ⟨final, reached, starting, isUp⟩ := later
      exact ⟨final, .after ⟨enabled, trivial⟩ acted reached, starting, isUp⟩

end Node

/-! ## The round -/

section Round

variable {crypto : Crypto} {address : Bytes → Address} (lib : Library κ σ γ)
variable {as : AnnSensus κ σ γ} (msgs : List MessageConsensusDkgGenesisPublicKey)
variable {msg : MessageConsensusDkgGenesisPublicKey}

def genesisAnnSensus (termChangeInterval : Nat) (genesisAccounts : List Bytes) (me : Account)
    (pair : σ × Bytes) : AnnSensus κ σ γ :=
  { newAnnSensus termChangeInterval genesisAccounts.length genesisAccounts me pair with
    genesisBftIsRunning := true }

/-- What is committed comes from different accounts, and once all have sent a key, the term change
starts. -/
structure StartsWithEverybody (lib : Library κ σ γ) (g : Genesis κ σ γ)
    (msgs : List MessageConsensusDkgGenesisPublicKey) : Prop where
  distinct : ∀ camps ∈ g.commits, camps.length = g.as.nbParticipants ∧
    (camps.map Campaign.publicKey).Nodup
  complete : (∀ pk ∈ g.as.genesisAccounts, ∃ msg ∈ msgs, msg.publicKey = pk ∧
      (lib.unmarshalBinaryPointG2 msg.dkgPublicKey).isSome = true) →
    ∃ camps node, g.commits = [camps] ∧
      (camps.map Campaign.publicKey).Perm g.as.genesisAccounts ∧
      Node.Reaches lib (fun _ event => event.IsCommit)
        { newNode g.as with main := .committing camps } node ∧
      node.main.isStarting = true ∧ node.as.term.flag = true

def decodable : List MessageConsensusDkgGenesisPublicKey :=
  msgs.filter fun msg => (lib.unmarshalBinaryPointG2 msg.dkgPublicKey).isSome

variable {lib}

theorem genesisCampaign_eq_none
    (undecodable : (lib.unmarshalBinaryPointG2 msg.dkgPublicKey).isSome = false) :
    as.genesisCampaign address lib msg = none := by
  have noPoint := Option.not_isSome_iff_eq_none.mp (Bool.not_eq_true _ ▸ undecodable)
  unfold AnnSensus.genesisCampaign
  rw [noPoint]
  cases as.genesisAccounts.zipIdx.find? fun entry => msg.publicKey = entry.1 <;> rfl

theorem genesisCampaign_eq_some (address : Bytes → Address)
    (isAccount : msg.publicKey ∈ as.genesisAccounts)
    (decodes : (lib.unmarshalBinaryPointG2 msg.dkgPublicKey).isSome = true) :
    ∃ cp, as.genesisCampaign address lib msg = some cp ∧ cp.publicKey = msg.publicKey ∧
      cp.sender = address msg.publicKey ∧ cp.dkgPoint.isSome = true := by
  obtain ⟨point, isPoint⟩ := Option.isSome_iff_exists.mp decodes
  have exists_ : (as.genesisAccounts.zipIdx.find? fun entry =>
      msg.publicKey = entry.1).isSome = true := by
    obtain ⟨index, bound, isAt⟩ := getElem_of_mem isAccount
    rw [find?_isSome]
    exact ⟨(as.genesisAccounts[index], index), mem_zipIdx_iff_getElem?.mpr (by simp [bound]),
      by simp [isAt]⟩
  obtain ⟨entry, found⟩ := Option.isSome_iff_exists.mp exists_
  have isKey : msg.publicKey = entry.1 := by simpa using find?_some found
  refine ⟨_, by rw [AnnSensus.genesisCampaign, found, isPoint]; rfl, rfl, ?_, rfl⟩
  rw [isKey]

variable (lib) {msgs}

theorem genesisCampaigns_eq (address : Bytes → Address)
    (accounts : ∀ msg ∈ msgs, msg.publicKey ∈ as.genesisAccounts) :
    (msgs.filterMap (as.genesisCampaign address lib)).map
        (fun cp => (cp.publicKey, cp.sender, cp.dkgPoint.isSome)) =
      (decodable lib msgs).map fun msg => (msg.publicKey, address msg.publicKey, true) := by
  induction msgs with
  | nil => rfl
  | cons msg rest ih =>
    have later := ih fun other member => accounts other (mem_cons_of_mem _ member)
    rw [decodable, filter_cons, filterMap_cons]
    cases decodes : (lib.unmarshalBinaryPointG2 msg.dkgPublicKey).isSome with
    | false =>
      rw [genesisCampaign_eq_none decodes]
      exact later
    | true =>
      obtain ⟨cp, isCampaign, isKey, isSender, isPoint⟩ :=
        genesisCampaign_eq_some address (accounts msg mem_cons_self) decodes
      rw [isCampaign, if_pos rfl, map_cons, map_cons, isKey, isSender, isPoint]
      exact congrArg _ later

theorem genesisCampaigns_keys (address : Bytes → Address)
    (accounts : ∀ msg ∈ msgs, msg.publicKey ∈ as.genesisAccounts) :
    (msgs.filterMap (as.genesisCampaign address lib)).map Campaign.publicKey =
      (decodable lib msgs).map MessageConsensusDkgGenesisPublicKey.publicKey := by
  have keys := congrArg (List.map Prod.fst) (genesisCampaigns_eq lib address accounts)
  simpa only [map_map, Function.comp_def] using keys

variable {lib} in
theorem handleAll_eq (enabled : as.disable = false) (running : as.genesisBftIsRunning = true)
    (signed : ∀ msg ∈ msgs, crypto.verify msg.publicKey msg.signature msg.dkgPublicKey = true)
    {g : Genesis κ σ γ} (isAs : g.as = as) :
    g.handleAll crypto address lib msgs = msgs.foldl (Genesis.collect address lib) g := by
  unfold Genesis.handleAll
  induction msgs generalizing g with
  | nil => rfl
  | cons msg rest ih =>
    have sameAs : (g.collect address lib msg).as = as := by
      rw [← isAs]
      unfold Genesis.collect
      split
      · rfl
      split
      · rfl
      · dsimp only
        split <;> rfl
    rw [foldl_cons, foldl_cons, Genesis.collect_eq g (isAs ▸ enabled) (isAs ▸ running)
      (signed msg mem_cons_self)]
    exact ih (fun other member => signed other (mem_cons_of_mem _ member)) sameAs

theorem genesisCampaigns_facts (address : Bytes → Address)
    (accounts : ∀ msg ∈ msgs, msg.publicKey ∈ as.genesisAccounts) {cp : Campaign κ}
    (member : cp ∈ msgs.filterMap (as.genesisCampaign address lib)) :
    cp.publicKey ∈ as.genesisAccounts ∧ cp.sender = address cp.publicKey ∧
      cp.dkgPoint.isSome = true := by
  have listed : (cp.publicKey, cp.sender, cp.dkgPoint.isSome) ∈
      (decodable lib msgs).map fun msg => (msg.publicKey, address msg.publicKey, true) := by
    rw [← genesisCampaigns_eq lib address accounts]
    exact mem_map_of_mem member
  obtain ⟨msg, isMessage, same⟩ := mem_map.mp listed
  simp only [Prod.mk.injEq] at same
  obtain ⟨isKey, isSender, isPoint⟩ := same
  rw [← isKey, ← isSender]
  exact ⟨accounts msg (mem_of_mem_filter isMessage), rfl, isPoint.symm⟩

theorem perm_of_distinct {keys accounts : List Bytes} (distinct : keys.Nodup)
    (members : ∀ key ∈ keys, key ∈ accounts) (count : keys.length = accounts.length) :
    keys.Perm accounts :=
  (distinct.subperm members).perm_of_length_le count.ge

variable {genesisAccounts : List Bytes}

theorem everybody_starts (termChangeInterval : Nat) (me : Account)
    (pair : σ × Bytes) (addresses : (genesisAccounts.map address).Nodup)
    (two : 2 ≤ genesisAccounts.length) {camps : List (Campaign κ)}
    (facts : ∀ cp ∈ camps, cp.sender = address cp.publicKey ∧ cp.dkgPoint.isSome = true)
    (everybody : (camps.map Campaign.publicKey).Perm genesisAccounts) :
    ∃ node, Node.Reaches lib (fun _ event => event.IsCommit)
        { newNode (genesisAnnSensus termChangeInterval genesisAccounts me pair) with
          main := .committing camps } node ∧
      node.main.isStarting = true ∧ node.as.term.flag = true := by
  have count : camps.length = genesisAccounts.length := by rw [← everybody.length_eq, length_map]
  have senders : camps.map Campaign.sender = (camps.map Campaign.publicKey).map address := by
    rw [map_map]
    exact map_congr_left fun cp member => (facts cp member).1
  refine Node.committing_starts lib 0 rfl rfl rfl rfl ?_ (fun cp member => (facts cp member).2)
    (fun _ _ => rfl) ?_ ?_
  · rintro rfl
    rw [length_nil] at count
    omega
  · rw [senders, (everybody.map address).nodup_iff]
    exact addresses
  · exact (Nat.zero_add _).trans count

variable {lib}

theorem enough_of_complete (distinct : genesisAccounts.Nodup)
    (all : ∀ pk ∈ genesisAccounts, ∃ msg ∈ msgs, msg.publicKey = pk ∧
      (lib.unmarshalBinaryPointG2 msg.dkgPublicKey).isSome = true) :
    genesisAccounts.length ≤ (decodable lib msgs).length := by
  have sent : ∀ pk ∈ genesisAccounts, pk ∈ (decodable lib msgs).map
      MessageConsensusDkgGenesisPublicKey.publicKey := by
    intro pk isAccount
    obtain ⟨msg, member, isKey, decodes⟩ := all pk isAccount
    exact mem_map.mpr ⟨msg, mem_filter.mpr ⟨member, decodes⟩, isKey⟩
  have covered := (distinct.subperm sent).length_le
  rwa [length_map] at covered

/-- The genesis round starts with everybody exactly if the first messages that decode are from
different accounts. -/
theorem genesis_starts_iff (termChangeInterval : Nat) (me : Account) (pair : σ × Bytes)
    (addresses : (genesisAccounts.map address).Nodup) (two : 2 ≤ genesisAccounts.length)
    (accounts : ∀ msg ∈ msgs, msg.publicKey ∈ genesisAccounts)
    (signed : ∀ msg ∈ msgs, crypto.verify msg.publicKey msg.signature msg.dkgPublicKey = true) :
    StartsWithEverybody lib ((newGenesis (genesisAnnSensus termChangeInterval genesisAccounts me
        pair)).handleAll crypto address lib msgs) msgs ↔
      (genesisAccounts.length ≤ (decodable lib msgs).length →
        (((decodable lib msgs).take genesisAccounts.length).map
          MessageConsensusDkgGenesisPublicKey.publicKey).Nodup) := by
  generalize isAs : (genesisAnnSensus termChangeInterval genesisAccounts me pair :
    AnnSensus κ σ γ) = as
  have isAccounts : as.genesisAccounts = genesisAccounts := by rw [← isAs]; rfl
  have isCount : as.nbParticipants = genesisAccounts.length := by rw [← isAs]; rfl
  have keys := genesisCampaigns_keys lib address (isAccounts ▸ accounts)
  have length : (msgs.filterMap (as.genesisCampaign address lib)).length =
      (decodable lib msgs).length := by
    simpa only [length_map] using congrArg List.length keys
  have handled : (newGenesis as).handleAll crypto address lib msgs =
      msgs.foldl (Genesis.collect address lib) (newGenesis as) :=
    handleAll_eq (by rw [← isAs]; rfl) (by rw [← isAs]; rfl) signed rfl
  rw [handled, newGenesis, Genesis.collectAll_eq as (by rw [isCount]; exact Nat.zero_lt_of_lt two)]
  simp only [nil_append, isCount, length]
  by_cases enough : genesisAccounts.length ≤ (decodable lib msgs).length
  · rw [if_pos enough]
    have takenKeys : ((msgs.filterMap (as.genesisCampaign address lib)).take
        genesisAccounts.length).map Campaign.publicKey =
        ((decodable lib msgs).take genesisAccounts.length).map
          MessageConsensusDkgGenesisPublicKey.publicKey := by
      rw [map_take, keys, map_take]
    have takenLength : ((msgs.filterMap (as.genesisCampaign address lib)).take
        genesisAccounts.length).length = genesisAccounts.length := by
      rw [length_take, length]
      exact Nat.min_eq_left enough
    constructor
    · intro starts _
      rw [← takenKeys]
      exact (starts.distinct _ (mem_singleton.mpr rfl)).2
    · intro distinct
      have facts : ∀ cp ∈ (msgs.filterMap (as.genesisCampaign address lib)).take
          genesisAccounts.length, cp.publicKey ∈ genesisAccounts ∧
            cp.sender = address cp.publicKey ∧ cp.dkgPoint.isSome = true := by
        intro cp member
        rw [← isAccounts]
        exact genesisCampaigns_facts lib address (isAccounts ▸ accounts)
          (mem_of_mem_take member)
      generalize (msgs.filterMap (as.genesisCampaign address lib)).take genesisAccounts.length =
        camps at takenKeys takenLength facts
      have keysDistinct : (camps.map Campaign.publicKey).Nodup := takenKeys ▸ distinct enough
      have everybody : (camps.map Campaign.publicKey).Perm genesisAccounts := by
        refine perm_of_distinct keysDistinct ?_ (by rw [length_map, takenLength])
        intro key member
        obtain ⟨cp, isIn, rfl⟩ := mem_map.mp member
        exact (facts cp isIn).1
      refine ⟨fun other member => ?_, fun _ => ?_⟩
      · obtain rfl := mem_singleton.mp member
        exact ⟨takenLength.trans isCount.symm, keysDistinct⟩
      · obtain ⟨node, reached, starting, isUp⟩ := everybody_starts lib termChangeInterval me pair
          addresses two (fun cp member => (facts cp member).2) everybody
        rw [isAs] at reached
        exact ⟨camps, node, rfl, isAccounts ▸ everybody, reached, starting, isUp⟩
  · rw [if_neg enough]
    refine iff_of_true ⟨fun _ member => ?_, fun all => ?_⟩ fun isEnough => absurd isEnough enough
    · cases member
    · exact absurd (enough_of_complete addresses.of_map (isAccounts ▸ all)) enough

def sampleAddress (pk : Bytes) : Address :=
  (pk.headD 0).toNat

def sampleMessage (account dkgKey : UInt8) : MessageConsensusDkgGenesisPublicKey :=
  ⟨[dkgKey], [account], [account, dkgKey]⟩

/-- Both accounts send their keys, and one of them sends it once more. -/
theorem genesis_starts_both :
    StartsWithEverybody Library.plain ((newGenesis (genesisAnnSensus 1 [[1], [2]] (.sample 1)
        (1, [1]))).handleAll .plain sampleAddress .plain
          [sampleMessage 2 6, sampleMessage 1 5, sampleMessage 2 6])
      [sampleMessage 2 6, sampleMessage 1 5, sampleMessage 2 6] :=
  (genesis_starts_iff 1 (.sample 1) (1, [1]) (by decide) (by decide) (by decide) (by decide)).mpr
    fun _ => by decide

/-- Two keys of the first account are committed, and the term change does not start. -/
theorem repeated_account_blocks :
    let msgs := [sampleMessage 1 5, sampleMessage 1 6, sampleMessage 2 7]
    let g := (newGenesis (genesisAnnSensus 1 [[1], [2]] (.sample 1) (1, [1]) :
      AnnSensus Nat Nat Nat)).handleAll .plain sampleAddress .plain msgs
    g.commits.map (List.map Campaign.publicKey) = [[[1], [1]]] ∧
      ((Node.replay .plain { newNode g.as with
        main := .committing (g.commits.headD []) } [.commitNext 0, .commitNext 0, .commitNext 0]).map
          fun node => (node.main.isIdle, node.as.term.flag)) = some (true, false) ∧
      ¬ StartsWithEverybody .plain g msgs := by
  intro msgs g
  have keys : g.commits.map (List.map Campaign.publicKey) = [[[1], [1]]] := by decide +kernel
  refine ⟨keys, by decide +kernel, fun starts => ?_⟩
  have committed : [[1], [1]] ∈ g.commits.map (List.map Campaign.publicKey) := by
    exact mem_singleton.mpr rfl
  obtain ⟨camps, isCommit, isKeys⟩ := mem_map.mp committed
  have distinct := (starts.distinct camps isCommit).2
  rw [isKeys] at distinct
  exact absurd distinct (by decide)

end Round

end AnnchainOG.Senate
