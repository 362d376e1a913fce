import AnnchainOG.Senate.Delivery

/-!
# Rounds that go well

The messages of an orderly round are conserved, and what the generator was given agrees with what
the partner records.
-/

namespace AnnchainOG.Senate

open GoMap Gossip List Multiset

open Wire (TermChange SigSet)

variable {κ σ γ : Type}

structure Schedule (me : Address) (n : Nat) (partners : Nat → List Address) : Prop where
  two : 2 ≤ n
  few : (n - 1) * (n - 1) ≤ channelSize
  length : ∀ round, (partners round).length = n
  distinct : ∀ round, (partners round).Nodup
  own : ∀ round, me ∈ partners round

structure Joined (me : Address) (partners : List Address) (g : Gossip κ σ γ) : Prop where
  isOn : g.dkg.dkgOn = true
  known : ∀ addr ∈ partners, g.dkg.checkAddress g.term addr = true
  own : partners[g.dkg.partner.id.toNat]? = some me

structure Phases (me : Address) (partners : List Address) (g : Gossip κ σ γ) (isOpen : Bool)
    (given : List Msg) : Prop where
  selecting : g.selecting = true →
    isOpen = true ∧ g.starts = 0 ∧ g.dkg.ready = false ∧ g.dkg.partner.partPubs = []
  starting : 0 < g.starts → g.starts = 1 ∧ isOpen = true ∧ g.dkg.ready = false
  ready : g.dkg.ready = true → isOpen = true
  joined : 0 < g.starts ∨ g.dkg.ready = true → Joined me partners g
  unready : g.dkg.ready = false →
    g.sending = [] ∧ given = [] ∧ g.dkg.respWaitingCache = ∅
  fresh : isOpen = true → g.dkg.ready = false → g.dkg.partner.dealsIndex = ∅ ∧
    g.dkg.partner.responseNumber = 0 ∧ g.dkg.partner.jointPubKey = none ∧ g.dkg.blsSigSets = ∅

namespace Phases

variable {me : Address} {partners : List Address} {g : Gossip κ σ γ} {isOpen : Bool}
  {given : List Msg}

theorem closed (noSelecting : g.selecting = false) (noStart : g.starts = 0)
    (unready : g.dkg.ready = false) (noSending : g.sending = [])
    (noWaiting : g.dkg.respWaitingCache = ∅) : Phases me partners g false [] where
  selecting isSelecting := clash noSelecting isSelecting
  starting starts := absurd noStart starts.ne'
  ready isReady := clash unready isReady
  joined joins := joins.elim (fun starts => absurd noStart starts.ne') fun ready =>
    clash unready ready
  unready _ := ⟨noSending, rfl, noWaiting⟩
  fresh := nofun

theorem reset (noStart : g.starts = 0) (unready : g.dkg.ready = false)
    (noSending : g.sending = []) (noWaiting : g.dkg.respWaitingCache = ∅)
    (noPartner : g.dkg.partner.partPubs = [])
    (fresh : g.dkg.partner.dealsIndex = ∅ ∧ g.dkg.partner.responseNumber = 0 ∧
      g.dkg.partner.jointPubKey = none ∧ g.dkg.blsSigSets = ∅) : Phases me partners g true [] where
  selecting _ := ⟨rfl, noStart, unready, noPartner⟩
  starting starts := absurd noStart starts.ne'
  ready _ := rfl
  joined joins := joins.elim (fun starts => absurd noStart starts.ne') fun ready =>
    clash unready ready
  unready _ := ⟨noSending, rfl, noWaiting⟩
  fresh _ _ := fresh

theorem running (opened : isOpen = true) (noSelecting : g.selecting = false)
    (noStart : g.starts = 0) (isReady : g.dkg.ready = true) (joined : Joined me partners g) :
    Phases me partners g isOpen given where
  selecting isSelecting := clash noSelecting isSelecting
  starting starts := absurd noStart starts.ne'
  ready _ := opened
  joined _ := joined
  unready unready := clash unready isReady
  fresh _ unready := clash unready isReady

theorem of_ready (phases : Phases me partners g isOpen given) (isReady : g.dkg.ready = true) :
    isOpen = true ∧ g.selecting = false ∧ g.starts = 0 ∧ Joined me partners g := by
  refine ⟨phases.ready isReady, ?_, ?_, phases.joined (.inr isReady)⟩
  · cases selecting : g.selecting with
    | false => rfl
    | true => exact clash (phases.selecting selecting).2.2.1 isReady
  · by_contra starts
    exact clash (phases.starting (Nat.pos_of_ne_zero starts)).2.2 isReady

end Phases

def Dkg.AllReceived (d : Dkg κ σ γ) (n : Nat) : Prop :=
  ∀ index < n, index ≠ d.partner.id.toNat → d.received index.toUInt32 = true

structure Generating (reader : Reader) (me : Address) (n : Nat) (d : Dkg κ σ γ)
    (pending : Multiset Msg) (arrived given : List Msg) : Prop where
  keyShare : d.partner.keyShare = none
  received : ∀ index, d.received index = true ↔
    ∃ request, .deal request ∈ given ∧ reader.dealIndex request.data = some index
  waiting : ∀ index, d.received index = true → d.respWaitingCache.list index = []
  number : d.partner.responseNumber = (given.filter Msg.isResponse).length
  ordered : reader.Ordered d.partner.id given
  recovered : d.partner.jointPubKey.isSome = true →
    (n - 1) * (n - 1) ≤ d.partner.responseNumber ∧ d.AllReceived n
  signed : ∀ addr, d.blsSigSets.contains addr = true → addr = me ∨
    ∃ response, .sigSets response ∈ arrived ∧
      reader.addressFromPubKeyBytes response.publicKey = addr
  processed : ∀ response, .sigSets response ∈ arrived →
    d.blsSigSets.contains (reader.addressFromPubKeyBytes response.publicKey) = true →
    .sigSets response ∉ pending
  kinds : ∀ message ∈ given, message.isSigSets = false

namespace Generating

variable {reader : Reader} {me : Address} {n : Nat} {d : Dkg κ σ γ} {pending left : Multiset Msg}
variable {arrived given : List Msg} {message : Msg} {index : UInt32}

section

variable (generating : Generating reader me n d pending arrived given)
include generating

theorem arrive (notMe : reader.sender message ≠ me) (isNew : ∀ other ∈ arrived,
    reader.key other ≠ reader.key message) :
    Generating reader me n d ({message} + pending) (arrived ++ [message]) given := by
  refine { generating with
    signed := fun addr isSigned => ?_, processed := fun response member isSigned => ?_ }
  · refine (generating.signed addr isSigned).imp_right ?_
    rintro ⟨response, member, isSender⟩
    exact ⟨response, mem_append_left _ member, isSender⟩
  · rcases mem_append.mp member with earlier | isMessage
    · rw [mem_add, not_or]
      refine ⟨fun isMessage => ?_, generating.processed response earlier isSigned⟩
      exact isNew _ earlier (by rw [Multiset.mem_singleton.mp isMessage])
    · obtain rfl := List.mem_singleton.mp isMessage
      rcases generating.signed _ isSigned with isMe | ⟨other, isOther, isSender⟩
      · exact absurd isMe notMe
      · exact (isNew _ isOther (Prod.ext isSender rfl)).elim

theorem take (taken : {message} + left = pending) : Generating reader me n d left arrived given :=
  { generating with
    processed := fun response member isSigned isLeft =>
      generating.processed response member isSigned (taken ▸ mem_add.mpr (.inr isLeft)) }

theorem kinds_append (notSigSets : message.isSigSets = false) :
    ∀ other ∈ given ++ [message], other.isSigSets = false := by
  intro other member
  rcases mem_append.mp member with earlier | isMessage
  · exact generating.kinds other earlier
  · rwa [List.mem_singleton.mp isMessage]

theorem giveDeal {request : MessageConsensusDkgDeal}
    (isIndex : reader.dealIndex request.data = some index) (dkger : γ) :
    Generating reader me n { d.processDeal dkger index with
      respWaitingCache := d.respWaitingCache.delete index } pending arrived
      (given ++ [.deal request]) := by
  have received : ∀ other, Dkg.received { d.processDeal dkger index with
      respWaitingCache := d.respWaitingCache.delete index } other =
        if other = index then true else d.received other := by
    intro other
    unfold Dkg.received Dkg.processDeal
    rw [get?_set]
    split <;> rfl
  refine { generating with
    received := fun other => ?_, waiting := fun other isReceived => ?_, number := ?_, ordered := ?_
    recovered := fun isRecovered => ⟨(generating.recovered isRecovered).1,
      fun position below isOther => ?_⟩
    kinds := generating.kinds_append rfl }
  · rw [received]
    by_cases same : other = index
    · rw [if_pos same, same]
      exact iff_of_true rfl ⟨request, by simp, isIndex⟩
    rw [if_neg same, generating.received]
    refine exists_congr fun another => and_congr_left fun isAnother => ?_
    have different : another ≠ request := fun isSame => same (by
      rw [isSame, isIndex] at isAnother
      exact (Option.some.inj isAnother).symm)
    simp [different]
  · rw [received] at isReceived
    rw [list_delete]
    split
    · rfl
    rename_i different
    rw [if_neg different] at isReceived
    exact generating.waiting other isReceived
  · rw [filter_append]
    simpa [Msg.isResponse, Dkg.processDeal] using generating.number
  · exact generating.ordered.append fun response same => (by cases same)
  · rw [received]
    split
    · rfl
    · exact (generating.recovered isRecovered).2 position below isOther

theorem wait (missing : d.received index = false) (response : MessageConsensusDkgDealResponse) :
    Generating reader me n { d with
      respWaitingCache := d.respWaitingCache.append index response } pending arrived given := by
  refine { generating with waiting := fun other isReceived => ?_ }
  have different : other ≠ index := by
    rintro rfl
    exact clash missing isReceived
  rw [list_append, if_neg different]
  exact generating.waiting other isReceived

theorem giveResponse {response : MessageConsensusDkgDealResponse}
    (isIndex : reader.responseIndex response.data = some index)
    (isDue : d.received index = true ∨ index = d.partner.id) (dkger : γ) :
    Generating reader me n { d with partner := { d.partner with
      dkger := some dkger, responseNumber := d.partner.responseNumber + 1 } } pending arrived
      (given ++ [.response response]) := by
  refine { generating with
    received := fun other => ?_, number := ?_, ordered := ?_, recovered := fun isRecovered => ?_
    kinds := generating.kinds_append rfl }
  · refine (generating.received other).trans (exists_congr fun request => ?_)
    simp
  · rw [filter_append, length_append, ← generating.number]
    rfl
  · refine generating.ordered.append fun another same other isOther => ?_
    cases same
    obtain rfl : other = index := Option.some.inj (isOther.symm.trans isIndex)
    exact isDue.symm.imp_right (generating.received other).mp
  · obtain ⟨enough, allReceived⟩ := generating.recovered isRecovered
    exact ⟨Nat.le_succ_of_le enough, allReceived⟩

theorem recover (notMe : ∀ message ∈ arrived, reader.sender message ≠ me)
    (enough : (n - 1) * (n - 1) ≤ d.partner.responseNumber) (allReceived : d.AllReceived n)
    (jointPubKey : κ) (own : SigSet) :
    Generating reader me n { d with
      partner := { d.partner with jointPubKey := some jointPubKey }
      blsSigSets := d.blsSigSets.set me own, dealSigSetsCache := ∅ } pending arrived given := by
  have wasSigned : ∀ addr, addr ≠ me →
      (d.blsSigSets.set me own).contains addr = d.blsSigSets.contains addr := by
    intro addr isOther
    rw [GoMap.contains, get?_set_of_ne _ _ isOther, GoMap.contains]
  refine { generating with
    recovered := fun _ => ⟨enough, allReceived⟩, signed := fun addr isSigned => ?_
    processed := fun response member isSigned => ?_ }
  · by_cases isMe : addr = me
    · exact .inl isMe
    · exact generating.signed addr ((wasSigned addr isMe).symm.trans isSigned)
  · exact generating.processed response member
      ((wasSigned _ (notMe _ member)).symm.trans isSigned)

theorem addSigSets {partners : List Address} (arrivals : Arrivals reader me partners arrived)
    {response : MessageConsensusDkgSigSets} (hasArrived : .sigSets response ∈ arrived)
    (notPending : .sigSets response ∉ pending) (signature : SigSet) :
    Generating reader me n { d with
      blsSigSets := d.blsSigSets.set (reader.addressFromPubKeyBytes response.publicKey)
        signature } pending arrived given := by
  refine { generating with
    signed := fun addr isSigned => ?_, processed := fun another member isSigned => ?_ }
  · rw [GoMap.contains, get?_set] at isSigned
    split at isSigned
    next same => exact .inr ⟨response, hasArrived, same.symm⟩
    · exact generating.signed addr isSigned
  · rw [GoMap.contains, get?_set] at isSigned
    split at isSigned
    next same => rwa [arrivals.eq_of_key member hasArrived (Prod.ext same rfl)]
    · exact generating.processed another member isSigned

end

theorem start (isFresh : d.partner.dealsIndex = ∅ ∧ d.partner.responseNumber = 0 ∧
      d.partner.jointPubKey = none ∧ d.blsSigSets = ∅)
    (noWaiting : d.respWaitingCache = ∅) (noKeyShare : d.partner.keyShare = none) :
    Generating reader me n d pending arrived [] := by
  obtain ⟨noDeals, noResponses, noKey, noSigSets⟩ := isFresh
  refine ⟨noKeyShare, fun index => ?_, fun index _ => ?_, noResponses, ?_, fun isRecovered => ?_,
    fun addr isSigned => ?_, fun response _ isSigned => ?_, by simp⟩
  · simp [Dkg.received, noDeals]
  · rw [noWaiting]
    rfl
  · intro front response back isSplit
    simp at isSplit
  · rw [noKey] at isRecovered
    cases isRecovered
  · rw [noSigSets] at isSigned
    cases isSigned
  · rw [noSigSets] at isSigned
    cases isSigned

end Generating

theorem Schedule.small {me : Address} {n : Nat} {partners : Nat → List Address} {round : Nat}
    (schedule : Schedule me n partners) : (partners round).length < 2 ^ 32 := by
  rw [schedule.length]
  have few : (n - 1) * (n - 1) ≤ 100 := schedule.few
  by_contra big
  have atLeast : 11 * 11 ≤ (n - 1) * (n - 1) := Nat.mul_le_mul (by omega) (by omega)
  omega

namespace Delivery

structure Kept (reader : Reader) (me : Account) (n : Nat) (partners : Nat → List Address)
    (w : Delivery κ σ γ) : Prop where
  account : w.gossip.myAccount = me
  parts : w.gossip.dkg.partner.nbParticipants = n
  arrivals : Arrivals reader me.address (partners w.round) w.arrived
  caches : w.gossip.dkg.Caches reader
  conserved : Conserved w.gossip w.arrived w.given
  phases : Phases me.address (partners w.round) w.gossip w.isOpen w.given
  generating : w.gossip.dkg.ready = true →
    Generating reader me.address n w.gossip.dkg w.gossip.pending w.arrived w.given
  finished : ∀ past ∈ w.finished, past.Delivered reader

namespace Kept

variable {reader : Reader} {me : Account} {n : Nat} {partners : Nat → List Address}
variable {w : Delivery κ σ γ}
variable {message : Msg} {d : Dkg κ σ γ} {myCampaign : Option (Campaign κ)} {lib : Library κ σ γ}
  {request : MessageConsensusDkgDeal}
variable {chosen : List (Campaign κ)}

/-! ### The term-change loop -/

theorem unready_of_closed (kept : w.Kept reader me n partners) (isClosed : w.isOpen = false) :
    w.gossip.dkg.ready = false := by
  cases ready : w.gossip.dkg.ready with
  | false => rfl
  | true => exact clash isClosed (kept.phases.ready ready)

theorem reset (kept : w.Kept reader me n partners) (isReset : w.gossip.dkg.reset myCampaign = .ok d)
    (noStart : w.gossip.starts = 0) (isClear : w.isOpen = true → w.gossip.Clear) :
    (w.log { w.gossip with dkg := d, selecting := true } [] (.reset myCampaign)).Kept reader me n
      partners := by
  obtain ⟨sec, secs, pubKeys, myPublicKey, rfl⟩ := Dkg.reset_eq isReset
  cases wasOpen : w.isOpen with
  | false =>
    have unready := kept.unready_of_closed wasOpen
    obtain ⟨noSending, noGiven, noWaiting⟩ := kept.phases.unready unready
    simp only [log, wasOpen, Bool.false_eq_true, if_false]
    refine ⟨kept.account, kept.parts, kept.arrivals, { kept.caches with }, ?_, ?_,
      (absurd · Bool.false_ne_true), kept.finished⟩
    · -- the signature sets that were cached are lost
      have areSigSets : ∀ message ∈ w.gossip.dkg.dealSigSetsCache.values.map Msg.sigSets,
          message.isSigSets = true := by
        intro message member
        obtain ⟨response, -, rfl⟩ := mem_map.mp member
        rfl
      refine kept.conserved.drop areSigSets ?_
      simp only [Gossip.pending, Dkg.cached, unready, cond_false]
      show _ + (_ + (_ + _ + 0)) = _
      abel
    · rw [noGiven]
      exact .reset noStart rfl noSending noWaiting rfl ⟨rfl, rfl, rfl, rfl⟩
  | true =>
    have clear := isClear wasOpen
    simp only [log, wasOpen, if_true]
    refine ⟨kept.account, kept.parts, .empty, { kept.caches with }, .empty ?_,
      .reset noStart rfl clear.2.2.2.1 clear.2.2.2.2.2.2.2 rfl ⟨rfl, rfl, rfl, rfl⟩,
      (absurd · Bool.false_ne_true), kept.finished⟩
    obtain ⟨noDeals, noResponses, noSigSets, noSending, noDealCache, noResponseCache, -,
      noWaiting⟩ := clear
    exact pending_clear ⟨noDeals, noResponses, noSigSets, noSending, noDealCache,
      noResponseCache, rfl, noWaiting⟩

theorem joined_select {g : Gossip κ σ γ} {others : List Address}
    (small : others.length < 2 ^ 32) (distinct : others.Nodup) (meIn : g.myAccount.address ∈ others)
    (isChosen : chosen.map Campaign.sender = others)
    (isOwn : ∀ cp ∈ chosen, cp.publicKey = g.myAccount.publicKey ↔ cp.sender = g.myAccount.address)
    (noPartner : g.dkg.partner.partPubs = []) :
    Joined g.myAccount.address others (g.select chosen) := by
  subst isChosen
  unfold Gossip.select
  rw [Term.choose_eq, Dkg.join_eq]
  refine ⟨by simp [Dkg.marked], fun addr member => ?_, ?_⟩
  · obtain ⟨cp, isMember, rfl⟩ := mem_map.mp member
    obtain ⟨index, isIndex⟩ := getElem?_of_mem isMember
    have isCandidate := candidates_of_mem g.term.candidates distinct isMember
    have isEntered := enterIndices_of_getElem? g.dkg.partner.addressIndex
      g.dkg.partner.partPubs.length distinct isIndex
    simp [Dkg.checkAddress, Dkg.marked, Term.clearCampaigns, GoMap.contains, isCandidate, isEntered]
  · obtain ⟨cp, isMember, isSender⟩ := mem_map.mp meIn
    obtain ⟨front, back, rfl⟩ := append_of_mem isMember
    have onlyOne : ∀ other ∈ back, other.publicKey ≠ g.myAccount.publicKey := by
      intro other inBack same
      have sameSender := (isOwn other (by simp [inBack])).mp same
      rw [List.map_append, List.map_cons, List.nodup_middle, List.nodup_cons] at distinct
      refine distinct.1 (mem_append_right _ (mem_map.mpr ⟨other, inBack, ?_⟩))
      rw [sameSender, isSender]
    have isId : ownId g.myAccount g.dkg.partner.id 0 (front ++ cp :: back) =
        (0 + front.length).toUInt32 :=
      ownId_append _ _ ((isOwn cp isMember).mpr isSender) onlyOne
    rw [length_map, length_append, length_cons] at small
    have inRange : (0 + front.length).toUInt32.toNat = front.length := by
      simp only [Nat.zero_add]
      exact Nat.mod_eq_of_lt (by omega)
    show (List.map Campaign.sender (front ++ cp :: back))[(ownId g.myAccount
      g.dkg.partner.id g.dkg.partner.partPubs.length (front ++ cp :: back)).toNat]? = _
    rw [noPartner, length_nil, isId, inRange]
    simp [isSender]

theorem select (schedule : Schedule me.address n partners) (kept : w.Kept reader me n partners)
    (isSelecting : w.gossip.selecting = true)
    (isChosen : chosen.map Campaign.sender = partners w.round)
    (isOwn : ∀ cp ∈ chosen, cp.publicKey = w.gossip.myAccount.publicKey ↔
      cp.sender = w.gossip.myAccount.address) :
    (w.log (w.gossip.select chosen) [] (.select chosen)).Kept reader me n partners := by
  obtain ⟨isOpen, noStart, unready, noPartner⟩ := kept.phases.selecting isSelecting
  have joined : Joined me.address (partners w.round) (w.gossip.select chosen) := by
    have own := schedule.own w.round
    rw [← kept.account] at own ⊢
    exact joined_select schedule.small (schedule.distinct w.round) own isChosen isOwn noPartner
  have fresh := kept.phases.fresh isOpen unready
  have isSelect : w.gossip.select chosen = { w.gossip with
      term := (w.gossip.term.choose chosen).clearCampaigns
      dkg := (w.gossip.dkg.marked true).join w.gossip.myAccount chosen
      selecting := false
      starts := w.gossip.starts + 1 } := rfl
  rw [Dkg.join_eq] at isSelect
  rw [log, append_nil]
  rw [isSelect] at joined ⊢
  refine { kept with
    caches := { kept.caches with }, phases := ?_, generating := fun ready => clash unready ready }
  refine ⟨nofun, fun _ => ⟨?_, isOpen, unready⟩,
    fun _ => isOpen, fun _ => joined, kept.phases.unready, fun _ _ => fresh⟩
  simp [noStart]

section

variable (kept : w.Kept reader me n partners)
variable {after : Gossip κ σ γ} {sigSets : List (Address × MessageConsensusDkgSigSets)}
include kept

theorem giveUp (isSelecting : w.gossip.selecting = true) (isClear : w.gossip.Clear) :
    (w.log { w.gossip with selecting := false } [] .giveUp).Kept reader me n partners := by
  obtain ⟨isOpen, noStart, unready, noPartner⟩ := kept.phases.selecting isSelecting
  exact { kept with
    arrivals := .empty
    conserved := .empty (pending_clear isClear)
    phases := .closed rfl noStart unready isClear.2.2.2.1 isClear.2.2.2.2.2.2.2
    generating := fun ready => clash unready ready }

theorem changeTerm (isClosed : w.isOpen = false) (tc : TermChange) (lastHeight : UInt64) :
    (w.log { w.gossip with term := w.gossip.term.changeTerm tc lastHeight } []
      (.changeTerm tc lastHeight)).Kept reader me n partners := by
  rw [log, append_nil]
  have unready := kept.unready_of_closed isClosed
  refine { kept with phases := { kept.phases with joined := fun joins => ?_ } }
  rcases joins with starts | ready
  · exact clash isClosed (kept.phases.starting starts).2.1
  · exact clash unready ready

/-! ### The channels -/

theorem arrive (fits : reader.Fits w.gossip.myAccount.address (partners w.round) message) (isNew :
    ∀ other ∈ w.arrived, reader.key other ≠ reader.key message) :
    (w.log (w.gossip.push message) [] (.arrive message)).Kept reader me n partners := by
  rw [kept.account] at fits
  have conserved := kept.conserved.arrive message
  have generating : w.gossip.dkg.ready = true → Generating reader me.address n w.gossip.dkg
      (w.gossip.push message).pending (w.arrived ++ [message]) w.given := by
    rw [pending_push]
    exact fun ready => (kept.generating ready).arrive fits.2.1 isNew
  obtain ⟨requests, responses, sigSets, isPush⟩ := push_eq (g := w.gossip) message
  rw [isPush] at conserved generating ⊢
  exact { kept with
    arrivals := kept.arrivals.arrive fits isNew
    conserved := conserved
    phases := { kept.phases with joined := fun joins => { (kept.phases.joined joins) with } }
    generating := generating }

theorem send {rest : List Msg} (isSending : w.gossip.sending = message :: rest) :
    (w.log ({ w.gossip with sending := rest }.push message) [] .send).Kept reader me n
      partners := by
  have isPending := pending_send isSending
  have generating := kept.generating
  rw [← isPending] at generating
  obtain ⟨requests, responses, sigSets, isPush⟩ :=
    push_eq (g := { w.gossip with sending := rest }) message
  rw [log, append_nil]
  rw [isPush] at isPending generating ⊢
  refine { kept with
    conserved := kept.conserved.move (by rw [isPending]), phases := ?_, generating := generating }
  refine { kept.phases with
    joined := fun joins => { (kept.phases.joined joins) with }, unready := fun unready => ?_ }
  have noSending := (kept.phases.unready unready).1
  rw [isSending] at noSending
  cases noSending

theorem start {dkger : Option γ} {deals : List (Address × MessageConsensusDkgDeal)} {responses :
    List (Address × List MessageConsensusDkgDealResponse)} (starts : 0 < w.gossip.starts) (isDeals
    : w.gossip.dkg.dealCache.Iterates deals) (isResponses :
    w.gossip.dkg.dealResponseCache.Iterates responses) (isSome : dkger.isSome = true) :
    (w.log (w.gossip.start dkger deals responses) [] (.start dkger deals responses)).Kept reader me
      n partners := by
  obtain ⟨isOne, isOpen, unready⟩ := kept.phases.starting starts
  obtain ⟨noSending, noGiven, noWaiting⟩ := kept.phases.unready unready
  have joined := kept.phases.joined (.inl starts)
  have isStart : w.gossip.start dkger deals responses = { w.gossip with
      starts := w.gossip.starts - 1
      dkg := { w.gossip.dkg with
        ready := true
        partner := { w.gossip.dkg.partner with dkger := dkger, keyShare := none } }
      sending := (deals.map Prod.snd).map .deal ++ (responses.flatMap Prod.snd).map .response } := by
    simp [Gossip.start, joined.isOn, isSome]
  rw [log, append_nil, isStart]
  refine { kept with
    caches := { kept.caches with }, conserved := kept.conserved.move ?_, phases := ?_
    generating := fun _ => ?_ }
  · exact congrArg (· + _) (pending_start noSending unready isDeals isResponses)
  · refine .running isOpen ?_ (Nat.sub_eq_zero_of_le isOne.le) rfl { joined with }
    cases isSelecting : w.gossip.selecting with
    | false => rfl
    | true => exact absurd (kept.phases.selecting isSelecting).2.1 starts.ne'
  · rw [noGiven]
    exact .start (kept.phases.fresh isOpen unready) noWaiting rfl

/-! ### The gossip loop -/

theorem pending_nodup : (w.gossip.pending + ↑w.given).Nodup :=
  nodup_of_le kept.conserved.within (coe_nodup.mpr kept.arrivals.nodup)

theorem given_nodup : w.given.Nodup := (nodup_add.mp kept.pending_nodup).2.1

theorem absent_of_queued (unready : w.gossip.dkg.ready = false)
    {rest : List MessageConsensusDkgDeal} (isChannel : w.gossip.gossipReqCh = request :: rest) :
    w.gossip.dkg.dealCache.get? (reader.addressFromPubKeyBytes request.publicKey) = none := by
  cases found : w.gossip.dkg.dealCache.get? (reader.addressFromPubKeyBytes request.publicKey) with
  | none => rfl
  | some old =>
    have isSender := kept.caches.deals _ _ found
    have isCached : Msg.deal old ∈ w.gossip.dkg.cached := by
      simp only [Dkg.cached, unready, cond_false, mem_add]
      exact .inl (.inl (.inl (mem_map_of_mem _ (mem_values.mpr ⟨_, found⟩))))
    have isQueued : Msg.deal request ∈ (↑(w.gossip.gossipReqCh.map Msg.deal) : Multiset Msg) := by
      simp [isChannel]
    have disjoint := (nodup_add.mp (nodup_add.mp kept.pending_nodup).1).2.2
    obtain rfl : old = request := Msg.deal.inj (kept.arrivals.eq_of_key
      (kept.conserved.mem_arrived (mem_add.mpr (.inr isCached)))
      (kept.conserved.mem_arrived (by simp [Gossip.pending, isChannel])) (Prod.ext isSender rfl))
    exact absurd isCached (Multiset.disjoint_left.mp disjoint (by simp [isChannel]))

theorem takeDeal {rest : List MessageConsensusDkgDeal} (isChannel : w.gossip.gossipReqCh = request
    :: rest) (idle : w.gossip.sending = []) (isOn : w.gossip.dkg.dkgOn = true) (dkger : γ) :
    (w.log (Gossip.handleDeal reader { w.gossip with gossipReqCh := rest } dkger request).1
      (Gossip.handleDeal reader { w.gossip with gossipReqCh := rest } dkger request).2
      (.takeDeal dkger)).Kept reader me n partners := by
  obtain ⟨inPartners, notMe, index, isIndex, isDealer⟩ := kept.arrivals.fits (.deal request)
    (kept.conserved.mem_arrived (by simp [Gossip.pending, isChannel]))
  cases isReady : w.gossip.dkg.ready with
  | false =>
    have absent := kept.absent_of_queued isReady isChannel
    have isHandled : Gossip.handleDeal reader { w.gossip with gossipReqCh := rest } dkger
        request = _ :=
      handleDeal_unready isOn isReady absent
    rw [isHandled, log, append_nil]
    exact { kept with
      caches := kept.caches.cacheDeal request
      conserved := kept.conserved.move
        (congrArg (· + _) (pending_cacheDeal isChannel isReady absent))
      phases := { kept.phases with joined := fun joins => { (kept.phases.joined joins) with } }
      generating := fun ready => clash isReady ready }
  | true =>
    obtain ⟨isOpen, noSelecting, noStart, joined⟩ := kept.phases.of_ready isReady
    have isHandled : Gossip.handleDeal reader { w.gossip with gossipReqCh := rest } dkger
        request = _ :=
      handleDeal_ready isOn isReady isIndex (joined.known _ inPartners)
    have taken := pending_giveDeal isChannel idle dkger index
    rw [isHandled, log]
    exact { kept with
      caches := { kept.caches with waiting := kept.caches.waiting.delete index }
      conserved := kept.conserved.give taken
      phases := .running isOpen noSelecting noStart isReady { joined with }
      generating := fun _ => ((kept.generating isReady).take taken).giveDeal isIndex dkger }

theorem recover (isReady : w.gossip.dkg.ready = true) (idle : w.gossip.sending = []) (isSigSets :
    w.gossip.dkg.dealSigSetsCache.Iterates sigSets) (signature : Bytes)
    (certified : (w.gossip.dkg.partner.dks lib).isSome = true →
      w.gossip.dkg.AllReceived w.gossip.dkg.partner.nbParticipants) :
    Kept reader me n partners
      { w with gossip := Gossip.recover lib w.gossip signature sigSets } := by
  obtain same | ⟨share, isShare, enough, same⟩ := recover_cases lib w.gossip signature sigSets
  · rw [same]
    exact kept
  rw [isShare, kept.parts] at certified
  rw [kept.parts] at enough
  obtain ⟨isOpen, noSelecting, noStart, joined⟩ := kept.phases.of_ready isReady
  have isPending := pending_recover idle isSigSets
  have generating := (kept.generating isReady).recover
    (fun message member => (kept.arrivals.fits message member).2.1) enough (certified rfl)
    (lib.commit share) ⟨w.gossip.myAccount.publicKey, signature⟩
  rw [← kept.account, ← isPending] at generating
  rw [same]
  exact { kept with
    caches := { kept.caches with }
    conserved := kept.conserved.move (congrArg (· + _) isPending)
    phases := .running isOpen noSelecting noStart isReady { joined with }
    generating := fun _ => kept.account ▸ generating }

theorem takeResponse {response : MessageConsensusDkgDealResponse} {rest : List
    MessageConsensusDkgDealResponse} (isChannel : w.gossip.gossipRespCh = response :: rest) (idle
    : w.gossip.sending = []) (isOn : w.gossip.dkg.dkgOn = true) {dkger : γ} (signature : Bytes)
    (isSigSets : w.gossip.dkg.dealSigSetsCache.Iterates sigSets)
    (certified : (lib.distKeyShare dkger).isSome = true →
      w.gossip.dkg.AllReceived w.gossip.dkg.partner.nbParticipants) {new : List Msg}
    (isHandled : Gossip.handleResponse lib reader { w.gossip with gossipRespCh := rest } dkger
    signature sigSets response = (after, new)) :
    (w.log after new (.takeResponse dkger signature sigSets)).Kept reader me n partners := by
  obtain ⟨inPartners, notMe, index, isIndex, below, isOther⟩ := kept.arrivals.fits
    (.response response) (kept.conserved.mem_arrived (by simp [Gossip.pending, isChannel]))
  cases isReady : w.gossip.dkg.ready with
  | false =>
    have isCached := isHandled.symm.trans (handleResponse_unready isOn isReady isIndex)
    cases isCached
    rw [log, append_nil]
    exact { kept with
      caches := { kept.caches with }
      conserved := kept.conserved.move
        (congrArg (· + _) (pending_cacheResponse isChannel isReady _))
      phases := { kept.phases with joined := fun joins => { (kept.phases.joined joins) with } }
      generating := fun ready => clash isReady ready }
  | true =>
    obtain ⟨isOpen, noSelecting, noStart, joined⟩ := kept.phases.of_ready isReady
    have checked := joined.known _ inPartners
    by_cases isDue : w.gossip.dkg.received index = true ∨ index = w.gossip.dkg.partner.id
    · have isGiven := isHandled.symm.trans
        (handleResponse_given isOn isReady isIndex checked isDue)
      have taken := pending_giveResponse isChannel
      have generating := (kept.generating isReady).take taken
      obtain ⟨rfl, rfl⟩ := Prod.mk.inj isGiven
      have given : Kept reader me n partners { w with
          gossip := { w.gossip with
            gossipRespCh := rest
            dkg := { w.gossip.dkg with partner := { w.gossip.dkg.partner with
              dkger := some dkger
              responseNumber := w.gossip.dkg.partner.responseNumber + 1 } } }
          given := w.given ++ [.response response] } :=
        { kept with
          caches := { kept.caches with }
          conserved := kept.conserved.give taken
          phases := .running isOpen noSelecting noStart isReady { joined with }
          generating := fun _ => generating.giveResponse isIndex isDue dkger }
      refine given.recover isReady idle isSigSets signature fun hasShare => ?_
      rw [DKGPartner.dks, (kept.generating isReady).keyShare] at hasShare
      exact certified hasShare
    · rw [not_or, Bool.not_eq_true] at isDue
      have isWaiting := isHandled.symm.trans
        (handleResponse_waiting isOn isReady isIndex checked isDue.1 isDue.2)
      cases isWaiting
      have isPending := pending_wait isChannel index
      have generating := (kept.generating isReady).wait isDue.1 response
      rw [← isPending] at generating
      rw [log, append_nil]
      exact { kept with
        caches := { kept.caches with waiting := kept.caches.waiting.append isIndex }
        conserved := kept.conserved.move (congrArg (· + _) isPending)
        phases := .running isOpen noSelecting noStart isReady { joined with }
        generating := fun _ => generating }

end

section

variable (schedule : Schedule me.address n partners) (kept : w.Kept reader me n partners) (isReady :
  w.gossip.dkg.ready = true) (isRecovered : w.gossip.dkg.partner.jointPubKey.isSome = true)
include schedule kept isReady isRecovered

theorem deal_given (member : .deal request ∈ w.arrived) : .deal request ∈ w.given := by
  have generating := kept.generating isReady
  have joined := kept.phases.joined (.inr isReady)
  obtain ⟨inPartners, notMe, index, isIndex, isDealer⟩ := kept.arrivals.fits _ member
  have below : index.toNat < n := by
    rw [← schedule.length w.round]
    exact (List.getElem?_eq_some_iff.mp isDealer).1
  have isOther : index.toNat ≠ w.gossip.dkg.partner.id.toNat := fun same => notMe (by
    rw [same, joined.own] at isDealer
    exact (Option.some.inj isDealer).symm)
  have isReceived := (generating.recovered isRecovered).2 index.toNat below isOther
  rw [show index.toNat.toUInt32 = index from UInt32.ofNat_toNat, generating.received] at isReceived
  obtain ⟨another, isGiven, sameIndex⟩ := isReceived
  have hasArrived := kept.conserved.given_subperm.subset isGiven
  obtain ⟨-, -, otherIndex, isOtherIndex, isOtherDealer⟩ := kept.arrivals.fits _ hasArrived
  obtain rfl : otherIndex = index := Option.some.inj (isOtherIndex.symm.trans sameIndex)
  have sameSender := Option.some.inj (isOtherDealer.symm.trans isDealer)
  rwa [← kept.arrivals.eq_of_key hasArrived member (Prod.ext sameSender rfl)]

theorem response_given {response : MessageConsensusDkgDealResponse} (member : .response response ∈
    w.arrived) : .response response ∈ w.given := by
  have generating := kept.generating isReady
  have enough := (generating.recovered isRecovered).1
  have atMost := kept.arrivals.responses_length (schedule.own w.round)
  rw [schedule.length] at atMost
  rw [generating.number] at enough
  have same := (kept.conserved.given_subperm.filter Msg.isResponse).perm_of_length_le
    (atMost.trans enough)
  have isFiltered : .response response ∈ w.arrived.filter Msg.isResponse :=
    mem_filter.mpr ⟨member, rfl⟩
  exact (mem_filter.mp (same.mem_iff.mpr isFiltered)).1

theorem all_given (member : message ∈ w.arrived) (notSigSets : message.isSigSets = false) :
    message ∈ w.given := by
  cases message with
  | deal request => exact kept.deal_given schedule isReady isRecovered member
  | response response => exact kept.response_given schedule isReady isRecovered member
  | sigSets response => cases notSigSets

theorem nothing_pending (enough : n ≤ w.gossip.dkg.blsSigSets.size) : w.gossip.pending = 0 := by
  have generating := kept.generating isReady
  refine eq_zero_of_forall_notMem fun message isPending => ?_
  have member := kept.conserved.mem_arrived isPending
  cases isSigSets : message.isSigSets with
  | false =>
    have isGiven := kept.all_given schedule isReady isRecovered member isSigSets
    exact Multiset.disjoint_left.mp (nodup_add.mp kept.pending_nodup).2.2 isPending isGiven
  | true =>
    have within : ∀ addr, w.gossip.dkg.blsSigSets.contains addr = true →
        addr ∈ partners w.round := by
      intro addr isSigned
      rcases generating.signed addr isSigned with rfl | ⟨response, hasArrived, rfl⟩
      · exact schedule.own w.round
      · exact (kept.arrivals.fits _ hasArrived).1
    rw [← schedule.length w.round] at enough
    have allSigned := contains_of_size within enough (kept.arrivals.fits _ member).1
    cases message with
    | deal message | response message => cases isSigSets
    | sigSets response => exact generating.processed response member allSigned isPending

theorem finish (enough : n ≤ w.gossip.dkg.blsSigSets.size) (keyShare : Option (DistKeyShare κ σ)) :
    Kept reader me n partners ⟨{ w.gossip with dkg := { w.gossip.dkg.clearCache with
          partner := { w.gossip.dkg.partner with keyShare := keyShare }
          ready := false } }, w.round + 1, false, [], [],
        w.finished ++ [⟨w.gossip.dkg.partner.id, w.arrived, w.given⟩]⟩ := by
  have generating := kept.generating isReady
  obtain ⟨isOpen, noSelecting, noStart, joined⟩ := kept.phases.of_ready isReady
  have nothing := kept.nothing_pending schedule isReady isRecovered enough
  have noSending : w.gossip.sending = [] := by
    refine eq_nil_iff_forall_not_mem.mpr fun message member => ?_
    have isPending : message ∈ w.gossip.pending := by simp [Gossip.pending, member]
    rw [nothing] at isPending
    exact notMem_zero _ isPending
  refine ⟨kept.account, kept.parts, .empty, ⟨fun _ _ found => (by cases found), .empty⟩, .empty ?_,
    .closed noSelecting noStart rfl noSending rfl, (absurd · Bool.false_ne_true),
    fun past member => ?_⟩
  · exact le_zero.mp (nothing ▸ w.gossip.pending_finish _)
  · rcases mem_append.mp member with earlier | isLast
    · exact kept.finished past earlier
    · rw [List.mem_singleton.mp isLast]
      refine ⟨kept.given_nodup, generating.ordered, fun message => ?_⟩
      constructor
      · exact fun isGiven => ⟨kept.conserved.given_subperm.subset isGiven, generating.kinds message isGiven⟩
      · exact fun arrived => kept.all_given schedule isReady isRecovered arrived.1 arrived.2

end

theorem log_takeSigSets {g : Gossip κ σ γ} (sameReady : g.dkg.ready = w.gossip.dkg.ready)
    (kept : Kept reader me n partners { w with gossip := g }) :
    (w.log g [] .takeSigSets).Kept reader me n partners := by
  simpa [log, sameReady] using kept

section

variable (schedule : Schedule me.address n partners) (kept : w.Kept reader me n partners)
include schedule kept

theorem takeSigSets [DecidableEq κ] {response : MessageConsensusDkgSigSets} {rest : List
    MessageConsensusDkgSigSets} (isChannel : w.gossip.gossipSigSetspCh = response :: rest) :
    (w.log (Gossip.handleSigSets lib reader { w.gossip with gossipSigSetspCh := rest } response) []
      .takeSigSets).Kept reader me n partners := by
  have taken := pending_takeSigSets isChannel
  have dropped := kept.conserved.drop (by simp [Msg.isSigSets]) taken
  obtain same | ⟨-, absent, same⟩ | ⟨isReady, isRecovered, same⟩ :=
    handleSigSets_cases lib reader { w.gossip with gossipSigSetspCh := rest } response
  · rw [same]
    refine log_takeSigSets (by rfl) ?_
    exact { kept with
      conserved := dropped
      phases := { kept.phases with joined := fun joins => { (kept.phases.joined joins) with } }
      generating := fun ready => (kept.generating ready).take taken }
  · rw [same]
    refine log_takeSigSets (by rfl) ?_
    have isPending := pending_cacheSigSets isChannel absent
    have generating := kept.generating
    rw [← isPending] at generating
    exact { kept with
      caches := { kept.caches with }
      conserved := kept.conserved.move (congrArg (· + _) isPending)
      phases := { kept.phases with joined := fun joins => { (kept.phases.joined joins) with } }
      generating := fun ready => { (generating ready) with } }
  · have hasArrived := kept.conserved.mem_arrived (taken ▸ mem_add.mpr
      (.inl (Multiset.mem_singleton_self (Msg.sigSets response))))
    have pendingOnce := (nodup_add.mp kept.pending_nodup).1
    rw [← taken, nodup_add] at pendingOnce
    have notPending := Multiset.disjoint_left.mp pendingOnce.2.2 (Multiset.mem_singleton_self _)
    obtain ⟨isOpen, noSelecting, noStart, joined⟩ := kept.phases.of_ready isReady
    have signed : Kept reader me n partners { w with gossip := { w.gossip with
        gossipSigSetspCh := rest
        dkg := { w.gossip.dkg with
          blsSigSets := w.gossip.dkg.blsSigSets.set
            (reader.addressFromPubKeyBytes response.publicKey)
            ⟨response.publicKey, response.signature⟩ } } } :=
      { kept with
        caches := { kept.caches with }
        conserved := dropped
        phases := .running isOpen noSelecting noStart isReady { joined with }
        generating := fun ready =>
          ((kept.generating ready).take taken).addSigSets kept.arrivals hasArrived notPending _ }
    rw [same, Gossip.finish]
    split
    next enough =>
      have finished := signed.finish schedule isReady isRecovered
        (kept.parts.symm.trans_le enough) (w.gossip.dkg.partner.dkger.bind lib.distKeyShare)
      have wasReady : w.gossip.dkg.ready = true := isReady
      simpa [log, wasReady] using finished
    · exact log_takeSigSets (by rfl) signed

/-! ### Runs -/

theorem act [DecidableEq κ] {event : GossipEvent κ γ} {after : Delivery κ σ γ} (enabled :
    w.gossip.Enabled lib event) (orderly : w.Orderly reader partners event) (acted : w.act lib
    reader event = .ok after) : after.Kept reader me n partners := by
  obtain ⟨⟨g, new⟩, isActed, isLogged⟩ := bind_ok acted
  cases isLogged
  cases event with
  | reset myCampaign =>
    obtain ⟨d, isReset, isNext⟩ := bind_ok isActed
    cases isNext
    exact kept.reset isReset orderly.1 orderly.2
  | select chosen =>
    cases isActed
    exact kept.select schedule enabled.1 orderly.1 orderly.2
  | giveUp =>
    cases isActed
    exact kept.giveUp enabled orderly
  | changeTerm tc lastHeight =>
    cases isActed
    exact kept.changeTerm orderly tc lastHeight
  | arrive message =>
    cases isActed
    exact kept.arrive orderly.1 orderly.2
  | start dkger deals responses =>
    cases isActed
    obtain ⟨starts, -, isDeals, isResponses⟩ := enabled
    exact kept.start starts isDeals isResponses orderly
  | takeDeal dkger =>
    obtain ⟨idle, notEmpty⟩ := enabled
    obtain ⟨request, rest, isChannel⟩ := exists_cons_of_ne_nil notEmpty
    simp only [Gossip.act, isChannel, Except.ok.injEq] at isActed
    have taken := kept.takeDeal isChannel idle orderly dkger
    rw [isActed] at taken
    exact taken
  | takeResponse dkger signature sigSets =>
    obtain ⟨idle, notEmpty, isSigSets, certified⟩ := enabled
    obtain ⟨response, rest, isChannel⟩ := exists_cons_of_ne_nil notEmpty
    simp only [Gossip.act, isChannel, Except.ok.injEq] at isActed
    exact kept.takeResponse isChannel idle orderly signature isSigSets certified isActed
  | takeSigSets =>
    obtain ⟨response, rest, isChannel⟩ := exists_cons_of_ne_nil enabled.2
    simp only [Gossip.act, isChannel, Except.ok.injEq, Prod.mk.injEq] at isActed
    obtain ⟨rfl, rfl⟩ := isActed
    exact kept.takeSigSets schedule isChannel
  | send =>
    obtain ⟨message, isHead, -⟩ := enabled
    obtain ⟨rest, isSending⟩ := head?_eq_some_iff.mp isHead
    simp only [Gossip.act, isSending, Except.ok.injEq, Prod.mk.injEq] at isActed
    obtain ⟨rfl, rfl⟩ := isActed
    exact kept.send isSending

theorem free {rest : List Msg} (isSending : w.gossip.sending = message :: rest) :
    w.gossip.room message = true := by
  refine room_of_pending isSending ?_
  have within : w.gossip.pending ≤ (↑w.arrived : Multiset Msg) :=
    (le_add_right _ _).trans kept.conserved.within
  have bound := kept.arrivals.alike_length (schedule.own w.round) message
  rw [schedule.length] at bound
  have atMost := card_le_card (filter_le_filter (message.alike · = true) within)
  simp only [filter_coe, coe_card, Bool.decide_eq_true] at atMost
  exact atMost.trans (bound.trans schedule.few)

end

theorem complete (kept : w.Kept reader me n partners) (isReady : w.gossip.dkg.ready = true)
    (noSending : w.gossip.sending = []) (noDeals : w.gossip.gossipReqCh = [])
    (noResponses : w.gossip.gossipRespCh = []) (member : message ∈ w.arrived)
    (notSigSets : message.isSigSets = false) :
    message ∈ w.given ∨ ∃ response index, message = .response response ∧
      reader.responseIndex response.data = some index ∧
      ∀ request, .deal request ∈ w.arrived → reader.dealIndex request.data ≠ some index := by
  have generating := kept.generating isReady
  have dealGiven : ∀ request, .deal request ∈ w.arrived → .deal request ∈ w.given := by
    intro request hasArrived
    refine kept.conserved.given_of_not_pending hasArrived rfl ?_
    simp [Gossip.pending, Dkg.cached, noDeals, noSending, isReady]
  cases message with
  | deal request => exact .inl (dealGiven request member)
  | sigSets response => cases notSigSets
  | response response =>
    obtain ⟨-, -, index, isIndex, -⟩ := kept.arrivals.fits _ member
    replace isIndex : reader.responseIndex response.data = some index := isIndex
    cases isReceived : w.gossip.dkg.received index with
    | true =>
      have notWaiting : response ∉ w.gossip.dkg.respWaitingCache.items := by
        rw [mem_items]
        rintro ⟨key, isWaiting⟩
        obtain rfl := Option.some.inj (isIndex.symm.trans (kept.caches.waiting key _ isWaiting))
        rw [generating.waiting index isReceived] at isWaiting
        cases isWaiting
      refine .inl (kept.conserved.given_of_not_pending member rfl ?_)
      simp [Gossip.pending, Dkg.cached, noResponses, noSending, isReady, notWaiting]
    | false =>
      refine .inr ⟨response, index, rfl, isIndex, fun request hasArrived isDealer => ?_⟩
      have received := (generating.received index).mpr
        ⟨request, dealGiven request hasArrived, isDealer⟩
      exact clash isReceived received

theorem delivered (schedule : Schedule me.address n partners)
    (kept : w.Kept reader me n partners) : w.Delivered reader where
  once := kept.given_nodup
  ofRound message isGiven := kept.conserved.given_subperm.subset isGiven
  ordered := by
    cases isReady : w.gossip.dkg.ready with
    | true => exact (kept.generating isReady).ordered
    | false =>
      rw [(kept.phases.unready isReady).2.1]
      intro front response back isSplit
      simp at isSplit
  free message isHead := by
    obtain ⟨rest, isSending⟩ := head?_eq_some_iff.mp isHead
    exact kept.free schedule isSending
  complete isReady noSending noDeals noResponses message member notSigSets :=
    kept.complete isReady noSending noDeals noResponses member notSigSets
  finished := kept.finished

theorem ofNew (me : Account) (t : Term κ) (pair : Option (σ × Bytes)) (n threshold : Nat)
    (reader : Reader) (partners : Nat → List Address) :
    Kept (γ := γ) reader me n partners (.ofNew (newGossip me t pair n threshold)) :=
  ⟨rfl, rfl, .empty, ⟨nofun, .empty⟩, .empty rfl, .closed rfl rfl rfl rfl rfl, nofun, nofun⟩

end Kept

/-- In orderly runs each deal and response is given to its generator, once and in order. -/
theorem gossip_delivers [DecidableEq κ] {lib : Library κ σ γ} {reader : Reader} {me : Account}
    {n threshold : Nat} {t : Term κ} {pair : Option (σ × Bytes)} {partners : Nat → List Address}
    {w : Delivery κ σ γ} (schedule : Schedule me.address n partners)
    (reached : Reaches lib reader (Orderly reader partners)
      (ofNew (newGossip me t pair n threshold)) w) : w.Delivered reader := by
  have kept : w.Kept reader me n partners := by
    refine Reach.invariant (motive := fun w => w.Kept reader me n partners)
      (.ofNew me t pair n threshold reader partners) ?_ reached
    intro state after event holds isAllowed acted
    exact holds.act schedule isAllowed.1 isAllowed.2 acted
  exact kept.delivered schedule

end Delivery

/-! ## Samples -/

/-- Keys start with the number of their account, messages with the index of the dealer. -/
def Reader.plain : Reader where
  addressFromPubKeyBytes bytes := ((bytes.headD 0).toNat : Address)
  dealIndex bytes := bytes.head?.map UInt8.toUInt32
  responseIndex bytes := bytes.head?.map UInt8.toUInt32

def GossipEvent.isReset {κ γ : Type} : GossipEvent κ γ → Bool
  | .reset _ => true
  | .select _ | .giveUp | .changeTerm _ _ | .arrive _ | .start _ _ _ | .takeDeal _
  | .takeResponse _ _ _ | .takeSigSets | .send => false

namespace Delivery

def sample : Delivery Nat Nat Nat :=
  ofNew (newGossip (.sample 1) (newTerm 0 2 1) (some (1, [1])) 2 2)

def replay (allowed : Delivery Nat Nat Nat → GossipEvent Nat Nat → Prop)
    [∀ w event, Decidable (allowed w event)] (events : List (GossipEvent Nat Nat)) :
    Option (Delivery Nat Nat Nat) :=
  AnnchainOG.replay (act .plain .plain)
    (fun w event => decide (w.gossip.Enabled .plain event ∧ allowed w event)) sample events

theorem schedule_sample : Schedule (Account.sample 1).address 2 fun _ => [1, 2] where
  two := by decide
  few := by decide
  length _ := rfl
  distinct _ := by decide
  own _ := by decide

/-- The deal of the second account comes before the round is reset, its response after the
start. -/
theorem gossip_delivers_round : ∃ w : Delivery Nat Nat Nat,
    Reaches .plain .plain (Orderly .plain fun _ => [1, 2]) sample w ∧ w.finished.length = 1 ∧
      w.Delivered .plain := by
  have finishes : (replay (Orderly .plain fun _ => [1, 2])
      [.arrive (.deal ⟨[1], [2]⟩), .takeDeal 5, .reset none, .select [.sample 1, .sample 2],
        .start (some 5) [(2, ⟨[1], [2]⟩)] [], .send, .takeDeal 5, .arrive (.response ⟨[0], [2]⟩),
        .takeResponse 5 [] [], .arrive (.sigSets ⟨[5], [2], []⟩), .takeSigSets]).map
        (fun w => w.finished.length) = some 1 := by
    decide +kernel
  obtain ⟨w, replayed, isFinished⟩ := Option.map_eq_some_iff.mp finishes
  have reached := Reach.of_replay replayed
  exact ⟨w, reached, isFinished, gossip_delivers schedule_sample reached⟩

/-- The deal that was given is still cached, and given again instead of the next one. -/
theorem abandoned_round_loses_deal : ∃ w : Delivery Nat Nat Nat, Reaches .plain .plain
      (fun w event => w.Orderly .plain (fun _ => [1, 2]) event ∨ event.isReset = true) sample w ∧
      w.gossip.dkg.ready = true ∧ w.gossip.sending = [] ∧ w.gossip.gossipReqCh = [] ∧
      w.gossip.gossipRespCh = [] ∧ w.arrived = [.deal ⟨[1, 7], [2]⟩] ∧
      w.given = [.deal ⟨[1], [2]⟩] ∧ ¬ w.Delivered .plain := by
  have loses : (replay
      (fun w event => w.Orderly .plain (fun _ => [1, 2]) event ∨ event.isReset = true)
      [.reset none, .select [.sample 1, .sample 2], .arrive (.deal ⟨[1], [2]⟩), .takeDeal 5,
        .start (some 5) [(2, ⟨[1], [2]⟩)] [], .send, .takeDeal 5,
        .reset none, .select [.sample 1, .sample 2], .arrive (.deal ⟨[1, 7], [2]⟩), .takeDeal 5,
        .start (some 5) [(2, ⟨[1], [2]⟩)] [], .send, .takeDeal 5]).map
        (fun w => decide (w.gossip.dkg.ready = true ∧ w.gossip.sending = [] ∧
          w.gossip.gossipReqCh = [] ∧ w.gossip.gossipRespCh = [] ∧
          w.arrived = [.deal ⟨[1, 7], [2]⟩] ∧ w.given = [.deal ⟨[1], [2]⟩])) = some true := by
    decide +kernel
  obtain ⟨w, replayed, isLost⟩ := Option.map_eq_some_iff.mp loses
  obtain ⟨ready, noSending, noDeals, noResponses, isArrived, isGiven⟩ := of_decide_eq_true isLost
  refine ⟨w, Reach.of_replay replayed, ready, noSending, noDeals, noResponses, isArrived, isGiven,
    fun delivered => ?_⟩
  have ofRound := delivered.ofRound (.deal ⟨[1], [2]⟩)
  rw [isGiven, isArrived] at ofRound
  revert ofRound
  decide

end Delivery

end AnnchainOG.Senate
