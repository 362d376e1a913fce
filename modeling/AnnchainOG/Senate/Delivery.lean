import AnnchainOG.Senate.Gossip
import Mathlib.Tactic.Abel

/-!
# The delivery of the messages of a round

What a node keeps of a round is followed from its arrival to the generator of the round.
-/

namespace AnnchainOG.Senate

open List Multiset GoMap

open Multiset (coe_add coe_nil coe_singleton map_add map_coe)

open Wire (TermChange SigSet)

variable {κ σ γ : Type}

/-! ## The messages of a round -/

/-- What a message is about; a response is about the deal of a dealer. -/
inductive Kind where
  | deal
  | response (index : Option UInt32)
  | sigSets
  deriving DecidableEq

namespace Reader

variable (reader : Reader)

def sender : Msg → Address
  | .deal request => reader.addressFromPubKeyBytes request.publicKey
  | .response response => reader.addressFromPubKeyBytes response.publicKey
  | .sigSets response => reader.addressFromPubKeyBytes response.publicKey

def kind : Msg → Kind
  | .deal _ => .deal
  | .response response => .response (reader.responseIndex response.data)
  | .sigSets _ => .sigSets

def key (message : Msg) : Address × Kind :=
  (reader.sender message, reader.kind message)

def Fits (me : Address) (partners : List Address) (message : Msg) : Prop :=
  reader.sender message ∈ partners ∧ reader.sender message ≠ me ∧
    match message with
    | .deal request => ∃ index ∈ reader.dealIndex request.data,
        partners[index.toNat]? = some (reader.sender message)
    | .response response => ∃ index ∈ reader.responseIndex response.data,
        index.toNat < partners.length ∧ partners[index.toNat]? ≠ some (reader.sender message)
    | .sigSets _ => True

instance (me : Address) (partners : List Address) :
    (message : Msg) → Decidable (reader.Fits me partners message)
  | .deal _ => inferInstanceAs (Decidable (_ ∧ _ ∧ ∃ _ ∈ _, _))
  | .response _ => inferInstanceAs (Decidable (_ ∧ _ ∧ ∃ _ ∈ _, _))
  | .sigSets _ => inferInstanceAs (Decidable (_ ∧ _ ∧ True))

/-- A response is given only after the deal it is for, unless that is the own one. -/
def Ordered (id : UInt32) (given : List Msg) : Prop :=
  ∀ front response back, given = front ++ .response response :: back →
    ∀ index, reader.responseIndex response.data = some index →
      index = id ∨ ∃ request, .deal request ∈ front ∧ reader.dealIndex request.data = some index

theorem Ordered.append {reader : Reader} {id : UInt32} {given : List Msg}
    (ordered : reader.Ordered id given) {message : Msg}
    (isDue : ∀ response, message = .response response → ∀ index,
      reader.responseIndex response.data = some index → index = id ∨
        ∃ request, .deal request ∈ given ∧ reader.dealIndex request.data = some index) :
    reader.Ordered id (given ++ [message]) := by
  intro front response back isSplit index isIndex
  rcases eq_nil_or_concat back with rfl | ⟨earlier, last, rfl⟩
  · obtain ⟨rfl, isLast⟩ := append_inj' isSplit rfl
    exact isDue response (singleton_inj.mp isLast) index isIndex
  rw [concat_eq_append, ← cons_append, ← append_assoc] at isSplit
  obtain rfl := append_inj_left' isSplit rfl
  exact ordered front response earlier rfl index isIndex

end Reader

/-! ## Rounds -/

structure FinishedRound where
  id : UInt32
  arrived : List Msg
  given : List Msg

/-- All that arrived was given once, but for the signature sets. -/
def FinishedRound.Delivered (reader : Reader) (past : FinishedRound) : Prop :=
  past.given.Nodup ∧ reader.Ordered past.id past.given ∧
    ∀ message, message ∈ past.given ↔ message ∈ past.arrived ∧ message.isSigSets = false

/-- A node, with what arrived in the round it collects messages for and what its generator was
given. -/
structure Delivery (κ σ γ : Type) where
  gossip : Gossip κ σ γ
  round : Nat
  /-- The round was reset. -/
  isOpen : Bool
  arrived : List Msg
  given : List Msg
  finished : List FinishedRound

namespace Delivery

def ofNew (g : Gossip κ σ γ) : Delivery κ σ γ :=
  ⟨g, 0, false, [], [], []⟩

/-- A finished round, a round that is given up and one that is reset again are followed by the
next one. -/
def log (w : Delivery κ σ γ) (g : Gossip κ σ γ) (new : List Msg) : GossipEvent κ γ → Delivery κ σ γ
  | .reset _ =>
    if w.isOpen then ⟨g, w.round + 1, true, [], [], w.finished⟩
    else { w with gossip := g, isOpen := true }
  | .giveUp => ⟨g, w.round + 1, false, [], [], w.finished⟩
  | .arrive message => { w with gossip := g, arrived := w.arrived ++ [message] }
  | .takeSigSets =>
    if w.gossip.dkg.ready && !g.dkg.ready then
      ⟨g, w.round + 1, false, [], [],
        w.finished ++ [⟨w.gossip.dkg.partner.id, w.arrived, w.given⟩]⟩
    else { w with gossip := g }
  | .select _ | .changeTerm _ _ | .start _ _ _ | .takeDeal _ | .takeResponse _ _ _ | .send =>
    { w with gossip := g, given := w.given ++ new }

def act [DecidableEq κ] (lib : Library κ σ γ) (reader : Reader) (w : Delivery κ σ γ)
    (event : GossipEvent κ γ) : Except Panic (Delivery κ σ γ) := do
  let (g, new) ← w.gossip.act lib reader event
  return w.log g new event

end Delivery

def Gossip.Clear (g : Gossip κ σ γ) : Prop :=
  g.gossipReqCh = [] ∧ g.gossipRespCh = [] ∧ g.gossipSigSetspCh = [] ∧ g.sending = [] ∧
    g.dkg.dealCache = ∅ ∧ g.dkg.dealResponseCache = ∅ ∧ g.dkg.dealSigSetsCache = ∅ ∧
    g.dkg.respWaitingCache = ∅

instance (g : Gossip κ σ γ) : Decidable g.Clear :=
  inferInstanceAs (Decidable (_ ∧ _))

namespace Delivery

/-- A round is left only when finished or empty, and each message of a round arrives once, after the
round before. -/
def Orderly (reader : Reader) (partners : Nat → List Address) (w : Delivery κ σ γ) :
    GossipEvent κ γ → Prop
  | .reset _ => w.gossip.starts = 0 ∧ (w.isOpen = true → w.gossip.Clear)
  | .select chosen => chosen.map Campaign.sender = partners w.round ∧
      ∀ cp ∈ chosen, cp.publicKey = w.gossip.myAccount.publicKey ↔
        cp.sender = w.gossip.myAccount.address
  | .giveUp => w.gossip.Clear
  | .changeTerm _ _ => w.isOpen = false
  | .arrive message => reader.Fits w.gossip.myAccount.address (partners w.round) message ∧
      ∀ other ∈ w.arrived, reader.key other ≠ reader.key message
  | .start dkger _ _ => dkger.isSome = true
  | .takeDeal _ | .takeResponse _ _ _ => w.gossip.dkg.dkgOn = true
  | .takeSigSets | .send => True

instance (reader : Reader) (partners : Nat → List Address) (w : Delivery κ σ γ) :
    (event : GossipEvent κ γ) → Decidable (w.Orderly reader partners event)
  | .reset _ | .select _ | .arrive _ => inferInstanceAs (Decidable (_ ∧ _))
  | .giveUp => inferInstanceAs (Decidable w.gossip.Clear)
  | .changeTerm _ _ | .start _ _ _ | .takeDeal _ | .takeResponse _ _ _ =>
    inferInstanceAs (Decidable (_ = _))
  | .takeSigSets | .send => inferInstanceAs (Decidable True)

def Reaches [DecidableEq κ] (lib : Library κ σ γ) (reader : Reader)
    (allowed : Delivery κ σ γ → GossipEvent κ γ → Prop) (start w : Delivery κ σ γ) : Prop :=
  Reach (act lib reader) (fun w event => w.gossip.Enabled lib event ∧ allowed w event) start w

/-- Nothing is given twice, to another round, or before its deal; once the loop has read all,
everything was given but responses whose deal is missing. -/
structure Delivered (reader : Reader) (w : Delivery κ σ γ) : Prop where
  once : w.given.Nodup
  ofRound : ∀ message ∈ w.given, message ∈ w.arrived
  ordered : reader.Ordered w.gossip.dkg.partner.id w.given
  free : ∀ message ∈ w.gossip.sending.head?, w.gossip.room message = true
  complete : w.gossip.dkg.ready = true → w.gossip.sending = [] → w.gossip.gossipReqCh = [] →
    w.gossip.gossipRespCh = [] → ∀ message ∈ w.arrived, message.isSigSets = false →
      message ∈ w.given ∨ ∃ response index, message = .response response ∧
        reader.responseIndex response.data = some index ∧
        ∀ request, .deal request ∈ w.arrived → reader.dealIndex request.data ≠ some index
  finished : ∀ past ∈ w.finished, past.Delivered reader

end Delivery

/-! ## Arrivals -/

structure Arrivals (reader : Reader) (me : Address) (partners : List Address)
    (arrived : List Msg) : Prop where
  fits : ∀ message ∈ arrived, reader.Fits me partners message
  distinct : (arrived.map reader.key).Nodup

namespace Arrivals

variable {reader : Reader} {me : Address} {partners : List Address} {arrived : List Msg}

theorem empty : Arrivals reader me partners [] where
  fits := by simp
  distinct := nodup_nil

section

variable (arrivals : Arrivals reader me partners arrived)
include arrivals

theorem arrive {message : Msg} (fits : reader.Fits me partners message) (isNew : ∀ other ∈
    arrived, reader.key other ≠ reader.key message) :
    Arrivals reader me partners (arrived ++ [message]) where
  fits other member := by
    rcases mem_append.mp member with earlier | isMessage
    · exact arrivals.fits other earlier
    · rwa [List.mem_singleton.mp isMessage]
  distinct := by
    rw [List.map_append, List.map_singleton, List.nodup_append']
    refine ⟨arrivals.distinct, List.nodup_singleton _, fun key earlier isKey => ?_⟩
    obtain ⟨other, member, rfl⟩ := mem_map.mp earlier
    exact isNew other member (List.mem_singleton.mp isKey)

theorem nodup : arrived.Nodup := arrivals.distinct.of_map _

theorem eq_of_key {left right : Msg} (isLeft : left ∈ arrived) (isRight : right ∈ arrived) (same :
    reader.key left = reader.key right) : left = right :=
  inj_on_of_nodup_map arrivals.distinct isLeft isRight same

theorem filter_length_le {β : Type} (test : Msg → Bool) (mark : Msg → β) (marks : List β) (tells :
    ∀ left right, test left = true → test right = true → mark left = mark right → reader.key left
    = reader.key right) (among : ∀ message ∈ arrived, test message = true → mark message ∈ marks) :
    (arrived.filter test).length ≤ marks.length := by
  rw [← List.length_map mark]
  refine (List.Nodup.subperm ?_ ?_).length_le
  · refine List.Nodup.map_on ?_ (arrivals.nodup.filter _)
    intro left isLeft right isRight same
    obtain ⟨leftMember, leftTest⟩ := mem_filter.mp isLeft
    obtain ⟨rightMember, rightTest⟩ := mem_filter.mp isRight
    exact arrivals.eq_of_key leftMember rightMember (tells left right leftTest rightTest same)
  · intro value member
    obtain ⟨message, isMessage, rfl⟩ := mem_map.mp member
    obtain ⟨isMember, passes⟩ := mem_filter.mp isMessage
    exact among message isMember passes

theorem kind_length_le (meIn : me ∈ partners) {message : Msg} (isKind : ∀ other,
    message.alike other = true → reader.kind other = reader.kind message) :
    (arrived.filter message.alike).length ≤ partners.length - 1 := by
  rw [← List.length_erase_of_mem meIn]
  refine arrivals.filter_length_le _ reader.sender _ ?_ ?_
  · intro left right isLeft isRight same
    exact Prod.ext same ((isKind left isLeft).trans (isKind right isRight).symm)
  · intro message member _
    obtain ⟨inPartners, notMe, -⟩ := arrivals.fits message member
    exact (List.mem_erase_of_ne notMe).mpr inPartners

end

def responseKeys (me : Address) (partners : List Address) : List (Address × Kind) :=
  (partners.erase me).flatMap fun sender =>
    ((List.range partners.length).erase (partners.idxOf sender)).map fun index =>
      (sender, .response (some index.toUInt32))

theorem responseKeys_length (meIn : me ∈ partners) :
    (responseKeys me partners).length = (partners.length - 1) * (partners.length - 1) := by
  have perSender : ∀ sender ∈ partners.erase me,
      (((List.range partners.length).erase (partners.idxOf sender)).map fun index =>
        (sender, Kind.response (some index.toUInt32))).length = partners.length - 1 := by
    intro sender member
    have below := idxOf_lt_length_of_mem (mem_of_mem_erase member)
    rw [List.length_map, List.length_erase_of_mem (List.mem_range.mpr below), List.length_range]
  rw [responseKeys, List.length_flatMap, List.map_congr_left perSender, List.map_const',
    sum_replicate_nat, List.length_erase_of_mem meIn]

theorem responses_length (arrivals : Arrivals reader me partners arrived) (meIn : me ∈ partners) :
    (arrived.filter Msg.isResponse).length ≤ (partners.length - 1) * (partners.length - 1) := by
  rw [← responseKeys_length meIn]
  refine arrivals.filter_length_le _ reader.key _ (fun _ _ _ _ same => same) ?_
  intro message member isResponse
  cases message with
  | deal _ | sigSets _ => cases isResponse
  | response response =>
    obtain ⟨inPartners, notMe, index, isIndex, below, other⟩ := arrivals.fits _ member
    refine List.mem_flatMap.mpr ⟨_, (List.mem_erase_of_ne notMe).mpr inPartners, ?_⟩
    refine mem_map.mpr ⟨index.toNat, ?_, ?_⟩
    · refine (List.mem_erase_of_ne fun same => other ?_).mpr (List.mem_range.mpr below)
      rw [same, getElem?_idxOf inPartners]
    · have sameIndex : reader.responseIndex response.data = some index := isIndex
      simp [Reader.key, Reader.kind, sameIndex]

theorem alike_length (arrivals : Arrivals reader me partners arrived) (meIn : me ∈ partners)
    (message : Msg) :
    (arrived.filter message.alike).length ≤ (partners.length - 1) * (partners.length - 1) := by
  cases message with
  | response response =>
    have isAlike : (Msg.response response).alike = Msg.isResponse := by
      funext other
      cases other <;> rfl
    rw [isAlike]
    exact arrivals.responses_length meIn
  | deal message | sigSets message =>
    refine (arrivals.kind_length_le meIn fun other isAlike => ?_).trans (Nat.le_mul_self _)
    cases other <;> first | rfl | cases isAlike

end Arrivals

/-! ## Where the messages are -/

def Dkg.cached (d : Dkg κ σ γ) : Multiset Msg :=
  (bif d.ready then 0
    else d.dealCache.values.map .deal + d.dealResponseCache.items.map .response) +
  d.respWaitingCache.items.map .response + d.dealSigSetsCache.values.map .sigSets

namespace Gossip

def pending (g : Gossip κ σ γ) : Multiset Msg :=
  ↑(g.gossipReqCh.map Msg.deal) + ↑(g.gossipRespCh.map Msg.response) +
    ↑(g.gossipSigSetspCh.map Msg.sigSets) + ↑g.sending + g.dkg.cached

section Pending

variable {g : Gossip κ σ γ} {message : Msg} {rest : List Msg}

theorem push_eq (message : Msg) : ∃ requests responses sigSets, g.push message = { g with
    gossipReqCh := requests, gossipRespCh := responses, gossipSigSetspCh := sigSets } := by
  cases message <;> exact ⟨_, _, _, rfl⟩

theorem coe_cons_eq (message : Msg) (rest : List Msg) :
    (↑(message :: rest) : Multiset Msg) = {message} + ↑rest :=
  rfl

theorem pending_push (message : Msg) : (g.push message).pending = {message} + g.pending := by
  cases message <;>
    simp only [push, pending, List.map_append, List.map_singleton, ← coe_add,
      coe_singleton] <;> abel

theorem pending_send (isSending : g.sending = message :: rest) :
    ({ g with sending := rest }.push message).pending = g.pending := by
  rw [pending_push, pending, pending, isSending, coe_cons_eq]
  abel

section Deals

variable {request : MessageConsensusDkgDeal} {rest : List MessageConsensusDkgDeal}
variable (isChannel : g.gossipReqCh = request :: rest)
include isChannel

theorem pending_cacheDeal {addr : Address} (unready : g.dkg.ready = false)
    (absent : g.dkg.dealCache.get? addr = none) :
    { g with
      gossipReqCh := rest
      dkg := { g.dkg with dealCache := g.dkg.dealCache.set addr request } }.pending =
      g.pending := by
  simp only [pending, Dkg.cached, isChannel, List.map_cons, coe_cons_eq, unready, cond_false,
    values_set absent, map_add, Multiset.map_singleton]
  abel

theorem pending_giveDeal (idle : g.sending = []) (dkger : γ) (index : UInt32) :
    {.deal request} + { g with
      gossipReqCh := rest, dkg := { g.dkg.processDeal dkger index with
        respWaitingCache := g.dkg.respWaitingCache.delete index }
      sending := (g.dkg.respWaitingCache.list index).map .response }.pending = g.pending := by
  simp only [pending, Dkg.cached, Dkg.processDeal, isChannel, List.map_cons, coe_cons_eq, idle,
    items_eq g.dkg.respWaitingCache index, map_add, map_coe,
    coe_nil]
  abel

end Deals

section Responses

variable {response : MessageConsensusDkgDealResponse} {rest : List MessageConsensusDkgDealResponse}
variable (isChannel : g.gossipRespCh = response :: rest)
include isChannel

theorem pending_giveResponse :
    {.response response} + { g with gossipRespCh := rest }.pending = g.pending := by
  rw [pending, pending, isChannel, List.map_cons, coe_cons_eq]
  abel

theorem pending_cacheResponse (unready : g.dkg.ready = false) (addr : Address) :
    { g with
      gossipRespCh := rest, dkg := { g.dkg with
        dealResponseCache := g.dkg.dealResponseCache.append addr response } }.pending =
      g.pending := by
  rw [← pending_giveResponse isChannel]
  simp only [pending, Dkg.cached, unready, cond_false, items_append, map_add,
    Multiset.map_singleton]
  abel

theorem pending_wait (index : UInt32) :
    { g with
      gossipRespCh := rest, dkg := { g.dkg with
        respWaitingCache := g.dkg.respWaitingCache.append index response } }.pending =
      g.pending := by
  rw [← pending_giveResponse isChannel]
  simp only [pending, Dkg.cached, items_append, map_add, Multiset.map_singleton]
  abel

end Responses

section SigSets

variable {response : MessageConsensusDkgSigSets} {rest : List MessageConsensusDkgSigSets}
variable (isChannel : g.gossipSigSetspCh = response :: rest)
include isChannel

theorem pending_takeSigSets :
    {.sigSets response} + { g with gossipSigSetspCh := rest }.pending = g.pending := by
  rw [pending, pending, isChannel, List.map_cons, coe_cons_eq]
  abel

theorem pending_cacheSigSets {addr : Address} (absent : g.dkg.dealSigSetsCache.get? addr = none) :
    { g with
      gossipSigSetspCh := rest, dkg := { g.dkg with
        dealSigSetsCache := g.dkg.dealSigSetsCache.set addr response } }.pending = g.pending := by
  rw [← pending_takeSigSets isChannel]
  simp only [pending, Dkg.cached, values_set absent, map_add, Multiset.map_singleton]
  abel

end SigSets

theorem pending_start {deals : List (Address × MessageConsensusDkgDeal)}
    {responses : List (Address × List MessageConsensusDkgDealResponse)}
    (idle : g.sending = []) (unready : g.dkg.ready = false)
    (isDeals : g.dkg.dealCache.Iterates deals)
    (isResponses : g.dkg.dealResponseCache.Iterates responses) :
    { g with
      dkg := { g.dkg with ready := true }
      sending := (deals.map Prod.snd).map Msg.deal ++
        (responses.flatMap Prod.snd).map Msg.response }.pending = g.pending := by
  simp only [pending, Dkg.cached, idle, unready, cond_true, cond_false, ← isDeals.values,
    ← isResponses.items, map_coe, ← coe_add, coe_nil]
  abel

theorem pending_recover {sigSets : List (Address × MessageConsensusDkgSigSets)}
    (idle : g.sending = []) (isSigSets : g.dkg.dealSigSetsCache.Iterates sigSets) :
    { g with
      dkg := { g.dkg with dealSigSetsCache := ∅ }
      sending := (sigSets.map Prod.snd).map .sigSets }.pending = g.pending := by
  simp only [pending, Dkg.cached, idle, ← isSigSets.values, map_coe, coe_nil]
  show _ + (_ + _ + 0) = _
  abel

theorem pending_finish (g : Gossip κ σ γ) (partner : DKGPartner κ σ γ) :
    { g with dkg := { g.dkg.clearCache with
      partner := partner, ready := false } }.pending ≤ g.pending := by
  refine add_le_add le_rfl (add_le_add ?_ le_rfl)
  exact zero_le _

theorem room_of_pending (isSending : g.sending = message :: rest)
    (few : (g.pending.filter (message.alike · = true)).card ≤ channelSize) :
    g.room message = true := by
  cases message <;>
    simp [pending, isSending, List.filter_map, Function.comp_def, room, Msg.alike] at few ⊢ <;> omega

theorem pending_clear (isClear : g.Clear) : g.pending = 0 := by
  obtain ⟨noDeals, noResponses, noSigSets, noSending, noDealCache, noResponseCache, noSigSetsCache,
    noWaiting⟩ := isClear
  rw [pending, Dkg.cached, noDeals, noResponses, noSigSets, noSending, noDealCache,
    noResponseCache, noSigSetsCache, noWaiting]
  cases g.dkg.ready <;> rfl

end Pending

end Gossip

structure Dkg.Caches (reader : Reader) (d : Dkg κ σ γ) : Prop where
  deals : ∀ addr request, d.dealCache.get? addr = some request →
    reader.addressFromPubKeyBytes request.publicKey = addr
  waiting : d.respWaitingCache.Filed fun response index =>
    reader.responseIndex response.data = some index

theorem Dkg.Caches.cacheDeal {reader : Reader} {d : Dkg κ σ γ} (caches : d.Caches reader)
    (request : MessageConsensusDkgDeal) :
    Caches reader { d with
      dealCache := d.dealCache.set (reader.addressFromPubKeyBytes request.publicKey) request } where
  deals addr other found := by
    rw [get?_set] at found
    split at found
    next same =>
      cases found
      exact same.symm
    · exact caches.deals addr other found
  waiting := caches.waiting

/-- What arrived in the round is pending or was given, but for signature sets that were dropped. -/
def Conserved (g : Gossip κ σ γ) (arrived given : List Msg) : Prop :=
  ∃ dropped : Multiset Msg, (∀ message ∈ dropped, message.isSigSets = true) ∧
    g.pending + ↑given + dropped = ↑arrived

namespace Conserved

variable {g after : Gossip κ σ γ} {arrived given new : List Msg} {message : Msg}

theorem empty (nothing : g.pending = 0) : Conserved g [] [] := ⟨0, nofun, by rw [nothing]; rfl⟩

section

variable (conserved : Conserved g arrived given)
include conserved

theorem move (moved : after.pending + ↑new = g.pending + ↑given) : Conserved after arrived new := by
  obtain ⟨dropped, areSigSets, balance⟩ := conserved
  exact ⟨dropped, areSigSets, by rw [moved, balance]⟩

theorem give (taken : {message} + after.pending = g.pending) :
    Conserved after arrived (given ++ [message]) := by
  refine conserved.move ?_
  rw [← taken, ← coe_add, coe_singleton]
  abel

theorem drop {lost : Multiset Msg} (areSigSets : ∀ message ∈ lost, message.isSigSets = true)
    (moved : lost + after.pending = g.pending) : Conserved after arrived given := by
  obtain ⟨dropped, wereSigSets, balance⟩ := conserved
  refine ⟨dropped + lost, fun message member => ?_, ?_⟩
  · exact (mem_add.mp member).elim (wereSigSets message) (areSigSets message)
  · rw [← balance, ← moved]
    abel

theorem arrive (message : Msg) : Conserved (g.push message) (arrived ++ [message]) given := by
  obtain ⟨dropped, areSigSets, balance⟩ := conserved
  refine ⟨dropped, areSigSets, ?_⟩
  rw [← coe_add, ← balance, Gossip.pending_push, coe_singleton]
  abel

theorem within : g.pending + ↑given ≤ (↑arrived : Multiset Msg) := by
  obtain ⟨dropped, -, balance⟩ := conserved
  exact balance ▸ le_add_right _ _

theorem mem_arrived (isPending : message ∈ g.pending) : message ∈ arrived :=
  mem_of_le conserved.within (mem_add.mpr (.inl isPending))

theorem given_subperm : given.Subperm arrived :=
  coe_le.mp ((le_add_left _ _).trans conserved.within)

theorem given_of_not_pending (member : message ∈ arrived) (notSigSets : message.isSigSets = false)
    (notPending : message ∉ g.pending) : message ∈ given := by
  obtain ⟨dropped, areSigSets, balance⟩ := conserved
  rw [← mem_coe, ← balance, mem_add, mem_add] at member
  obtain (isPending | isGiven) | isDropped := member
  · exact absurd isPending notPending
  · exact isGiven
  · exact clash notSigSets (areSigSets message isDropped)

end

end Conserved

end AnnchainOG.Senate
