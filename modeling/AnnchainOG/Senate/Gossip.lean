import AnnchainOG.Senate.Rounds

/-!
# The gossip of a round

What comes before the round has started is cached by its sender and sent into the channels again; a
response whose deal is missing waits for it. The caches outlive a reset of the round.
-/

namespace AnnchainOG.Senate

open Wire (TermChange SigSet)

structure Reader where
  addressFromPubKeyBytes : Bytes → Address
  /-- The dealer of a deal. -/
  dealIndex : Bytes → Option UInt32
  /-- The dealer of the deal that a response is for. -/
  responseIndex : Bytes → Option UInt32

inductive Msg where
  | deal (request : MessageConsensusDkgDeal)
  | response (response : MessageConsensusDkgDealResponse)
  | sigSets (response : MessageConsensusDkgSigSets)
  deriving DecidableEq

namespace Msg

def isResponse : Msg → Bool
  | response _ => true
  | deal _ | sigSets _ => false

def isSigSets : Msg → Bool
  | sigSets _ => true
  | deal _ | response _ => false

def alike : Msg → Msg → Bool
  | deal _, deal _ | response _, response _ | sigSets _, sigSets _ => true
  | _, _ => false

end Msg

variable {κ σ γ : Type}

/-! ## The caches -/

variable (d : Dkg κ σ γ)

namespace Dkg

def checkAddress (t : Term κ) (addr : Address) : Bool :=
  t.candidates.contains addr && d.partner.addressIndex.contains addr

/-- A second deal of a sender is dropped. The flag tells whether the round is ready. -/
def cacheDealsIfNotReady (addr : Address) (request : MessageConsensusDkgDeal) : Dkg κ σ γ × Bool :=
  if d.ready then (d, true)
  else if d.dealCache.contains addr then (d, false)
  else ({ d with dealCache := d.dealCache.set addr request }, false)

def cacheResponseIfNotReady (addr : Address)
    (response : MessageConsensusDkgDealResponse) : Dkg κ σ γ × Bool :=
  if d.ready then (d, true)
  else ({ d with dealResponseCache := d.dealResponseCache.append addr response }, false)

def received (index : UInt32) : Bool :=
  (d.partner.dealsIndex.get? index).getD false

/-- The own deal is not among those received. The flag tells whether to go on. -/
def cacheResponseIfDealNotReceived (index : UInt32)
    (response : MessageConsensusDkgDealResponse) : Dkg κ σ γ × Bool :=
  if !d.received index && index != d.partner.id then
    ({ d with respWaitingCache := d.respWaitingCache.append index response }, false)
  else (d, true)

def cacheSigSetsIfNotReady (addr : Address)
    (response : MessageConsensusDkgSigSets) : Dkg κ σ γ × Bool :=
  if !d.ready || d.partner.jointPubKey.isNone then
    (if d.dealSigSetsCache.contains addr then d
      else { d with dealSigSetsCache := d.dealSigSetsCache.set addr response }, false)
  else (d, true)

/-- `dkger` is the generator after it accepted the deal of this dealer. -/
def processDeal (dkger : γ) (index : UInt32) : Dkg κ σ γ :=
  { d with partner := { d.partner with
    dkger := some dkger
    dealsIndex := d.partner.dealsIndex.set index true } }

def clearCache : Dkg κ σ γ :=
  { d with dealCache := ∅, dealResponseCache := ∅, respWaitingCache := ∅ }

end Dkg

/-! ## The loop -/

structure Gossip (κ σ γ : Type) where
  myAccount : Account
  term : Term κ
  dkg : Dkg κ σ γ
  gossipReqCh : List MessageConsensusDkgDeal
  gossipRespCh : List MessageConsensusDkgDealResponse
  gossipSigSetspCh : List MessageConsensusDkgSigSets
  /-- What the loop still has to send into its channels before it reads again. -/
  sending : List Msg
  /-- The round was reset and its candidates are not selected yet. -/
  selecting : Bool
  starts : Nat

def newGossip (myAccount : Account) (t : Term κ) (pair : Option (σ × Bytes))
    (numParts threshold : Nat) : Gossip κ σ γ :=
  ⟨myAccount, t, newDkg pair numParts threshold, [], [], [], [], false, 0⟩

def channelSize : Nat := 100

/-- What arrives, which channel is read next and what the generator computes. -/
inductive GossipEvent (κ γ : Type) where
  | reset (myCampaign : Option (Campaign κ))
  | select (chosen : List (Campaign κ))
  | giveUp
  | changeTerm (tc : TermChange) (lastHeight : UInt64)
  | arrive (message : Msg)
  | start (dkger : Option γ) (deals : List (Address × MessageConsensusDkgDeal))
      (responses : List (Address × List MessageConsensusDkgDealResponse))
  | takeDeal (dkger : γ)
  | takeResponse (dkger : γ) (signature : Bytes)
      (sigSets : List (Address × MessageConsensusDkgSigSets))
  | takeSigSets
  | send

variable (lib : Library κ σ γ) (g : Gossip κ σ γ) (reader : Reader)

namespace Gossip

def room : Msg → Bool
  | .deal _ => g.gossipReqCh.length < channelSize
  | .response _ => g.gossipRespCh.length < channelSize
  | .sigSets _ => g.gossipSigSetspCh.length < channelSize

def push : Msg → Gossip κ σ γ
  | .deal request => { g with gossipReqCh := g.gossipReqCh ++ [request] }
  | .response response => { g with gossipRespCh := g.gossipRespCh ++ [response] }
  | .sigSets response => { g with gossipSigSetspCh := g.gossipSigSetspCh ++ [response] }

/-- A node that is among the chosen ones takes part and starts the gossip. -/
def select (chosen : List (Campaign κ)) : Gossip κ σ γ :=
  { g with
    term := (g.term.choose chosen).clearCampaigns
    dkg := (g.dkg.marked true).join g.myAccount chosen
    selecting := false
    starts := g.starts + 1 }

/-- What was cached is sent into the channels. Only a cache that is empty is created anew. -/
def start (dkger : Option γ) (deals : List (Address × MessageConsensusDkgDeal))
    (responses : List (Address × List MessageConsensusDkgDealResponse)) : Gossip κ σ γ :=
  let g := { g with starts := g.starts - 1 }
  if g.dkg.dkgOn && dkger.isSome then
    { g with
      dkg := { g.dkg with
        ready := true
        partner := { g.dkg.partner with dkger := dkger, keyShare := none } }
      sending := (deals.map Prod.snd).map .deal ++ (responses.flatMap Prod.snd).map .response }
  else g

/-- The second component is what the generator is given. -/
def handleDeal (g : Gossip κ σ γ) (dkger : γ)
    (request : MessageConsensusDkgDeal) : Gossip κ σ γ × List Msg :=
  let addr := reader.addressFromPubKeyBytes request.publicKey
  if !g.dkg.dkgOn then (g, [])
  else
    match g.dkg.cacheDealsIfNotReady addr request with
    | (d, false) => ({ g with dkg := d }, [])
    | (d, true) =>
      match reader.dealIndex request.data with
      | none => (g, [])
      | some index =>
        if !d.checkAddress g.term addr then (g, [])
        else
          ({ g with
            dkg := { d.processDeal dkger index with
              respWaitingCache := d.respWaitingCache.delete index }
            sending := (d.respWaitingCache.list index).map .response }, [.deal request])

/-- With all responses the joint key is recovered and signed, and the cached signature sets are sent
on. -/
def recover (signature : Bytes)
    (sigSets : List (Address × MessageConsensusDkgSigSets)) : Gossip κ σ γ :=
  let p := g.dkg.partner
  if p.responseNumber < (p.nbParticipants - 1) * (p.nbParticipants - 1) then g
  else
    match p.dks lib with
    | none => g
    | some share =>
      { g with
        dkg := { g.dkg with
          partner := { p with jointPubKey := some (lib.commit share) }
          blsSigSets := g.dkg.blsSigSets.set g.myAccount.address
            ⟨g.myAccount.publicKey, signature⟩
          dealSigSetsCache := ∅ }
        sending := (sigSets.map Prod.snd).map .sigSets }

def handleResponse (g : Gossip κ σ γ) (dkger : γ)
    (signature : Bytes) (sigSets : List (Address × MessageConsensusDkgSigSets))
    (response : MessageConsensusDkgDealResponse) : Gossip κ σ γ × List Msg :=
  let addr := reader.addressFromPubKeyBytes response.publicKey
  match reader.responseIndex response.data with
  | none => (g, [])
  | some index =>
    if !g.dkg.dkgOn then (g, [])
    else
      match g.dkg.cacheResponseIfNotReady addr response with
      | (d, false) => ({ g with dkg := d }, [])
      | (d, true) =>
        if !d.checkAddress g.term addr then (g, [])
        else
          match d.cacheResponseIfDealNotReceived index response with
          | (d, false) => ({ g with dkg := d }, [])
          | (d, true) =>
            let p := { d.partner with
              dkger := some dkger
              responseNumber := d.partner.responseNumber + 1 }
            (recover lib { g with dkg := { d with partner := p } } signature sigSets,
              [.response response])

/-- With the signatures of all partners the round is finished. -/
def finish : Gossip κ σ γ :=
  if g.dkg.partner.nbParticipants ≤ g.dkg.blsSigSets.size then
    { g with dkg := { g.dkg.clearCache with
      partner := { g.dkg.partner with keyShare := g.dkg.partner.dkger.bind lib.distKeyShare }
      ready := false } }
  else g

def handleSigSets [DecidableEq κ] (g : Gossip κ σ γ)
    (response : MessageConsensusDkgSigSets) : Gossip κ σ γ :=
  let addr := reader.addressFromPubKeyBytes response.publicKey
  match lib.unmarshalBinaryPointG2 response.pkBls with
  | none => g
  | some pkBls =>
    if !g.dkg.dkgOn then g
    else
      match g.dkg.cacheSigSetsIfNotReady addr response with
      | (d, false) => { g with dkg := d }
      | (d, true) =>
        if !d.checkAddress g.term addr then g
        else if some pkBls ≠ d.partner.jointPubKey then g
        else
          finish lib { g with dkg := { d with
            blsSigSets := d.blsSigSets.set addr ⟨response.publicKey, response.signature⟩ } }

/-- The loop reads only after it has sent what it had to. -/
def Enabled : GossipEvent κ γ → Prop
  | .reset _ => g.selecting = false
  | .select chosen => g.selecting = true ∧ g.myAccount.isAmong chosen = true
  | .giveUp => g.selecting = true
  | .changeTerm _ _ => True
  | .arrive message => g.room message = true
  | .start _ deals responses => 0 < g.starts ∧ g.sending = [] ∧
      g.dkg.dealCache.Iterates deals ∧ g.dkg.dealResponseCache.Iterates responses
  | .takeDeal _ => g.sending = [] ∧ g.gossipReqCh ≠ []
  | .takeResponse dkger _ sigSets => g.sending = [] ∧ g.gossipRespCh ≠ [] ∧
      g.dkg.dealSigSetsCache.Iterates sigSets ∧
      ((lib.distKeyShare dkger).isSome = true → ∀ index < g.dkg.partner.nbParticipants,
        index ≠ g.dkg.partner.id.toNat → g.dkg.received index.toUInt32 = true)
  | .takeSigSets => g.sending = [] ∧ g.gossipSigSetspCh ≠ []
  | .send => ∃ message ∈ g.sending.head?, g.room message = true

instance (lib : Library κ σ γ) (g : Gossip κ σ γ) :
    (event : GossipEvent κ γ) → Decidable (g.Enabled lib event)
  | .reset _ | .giveUp | .arrive _ => inferInstanceAs (Decidable (_ = _))
  | .select _ | .start _ _ _ | .takeDeal _ | .takeResponse _ _ _ | .takeSigSets =>
    inferInstanceAs (Decidable (_ ∧ _))
  | .changeTerm _ _ => inferInstanceAs (Decidable True)
  | .send => inferInstanceAs (Decidable (∃ message ∈ g.sending.head?, _))

/-- The state after an event, and what the generator was given. -/
def act [DecidableEq κ] (g : Gossip κ σ γ) :
    GossipEvent κ γ → Except Panic (Gossip κ σ γ × List Msg)
  | .reset myCampaign => do
      let d ← g.dkg.reset myCampaign
      return ({ g with dkg := d, selecting := true }, [])
  | .select chosen => .ok (g.select chosen, [])
  | .giveUp => .ok ({ g with selecting := false }, [])
  | .changeTerm tc lastHeight => .ok ({ g with term := g.term.changeTerm tc lastHeight }, [])
  | .arrive message => .ok (g.push message, [])
  | .start dkger deals responses => .ok (g.start dkger deals responses, [])
  | .takeDeal dkger =>
    match g.gossipReqCh with
    | [] => .ok (g, [])
    | request :: rest => .ok (handleDeal reader { g with gossipReqCh := rest } dkger request)
  | .takeResponse dkger signature sigSets =>
    match g.gossipRespCh with
    | [] => .ok (g, [])
    | response :: rest =>
      .ok (handleResponse lib reader { g with gossipRespCh := rest } dkger signature sigSets
        response)
  | .takeSigSets =>
    match g.gossipSigSetspCh with
    | [] => .ok (g, [])
    | response :: rest =>
      .ok (handleSigSets lib reader { g with gossipSigSetspCh := rest } response, [])
  | .send =>
    match g.sending with
    | [] => .ok (g, [])
    | message :: rest => .ok ({ g with sending := rest }.push message, [])

end Gossip

/-! ## What the handlers do -/

namespace Gossip

section Handlers

variable {lib : Library κ σ γ} {reader : Reader} {g : Gossip κ σ γ} {dkger : γ} {index : UInt32}
variable {signature : Bytes} {sigSets : List (Address × MessageConsensusDkgSigSets)}

section Deals

variable {request : MessageConsensusDkgDeal}

theorem handleDeal_unready (isOn : g.dkg.dkgOn = true) (unready : g.dkg.ready = false)
    (absent : g.dkg.dealCache.get? (reader.addressFromPubKeyBytes request.publicKey) = none) :
    handleDeal reader g dkger request = ({ g with dkg := { g.dkg with
        dealCache := g.dkg.dealCache.set (reader.addressFromPubKeyBytes request.publicKey)
          request } }, []) := by
  simp [handleDeal, isOn, Dkg.cacheDealsIfNotReady, unready, GoMap.contains, absent]

theorem handleDeal_ready (isOn : g.dkg.dkgOn = true) (ready : g.dkg.ready = true)
    (isIndex : reader.dealIndex request.data = some index)
    (checked : g.dkg.checkAddress g.term (reader.addressFromPubKeyBytes request.publicKey) = true) :
    handleDeal reader g dkger request = ({ g with
        dkg := { g.dkg.processDeal dkger index with
          respWaitingCache := g.dkg.respWaitingCache.delete index }
        sending := (g.dkg.respWaitingCache.list index).map .response }, [.deal request]) := by
  simp [handleDeal, isOn, Dkg.cacheDealsIfNotReady, ready, isIndex, checked]

end Deals

section Responses

variable {response : MessageConsensusDkgDealResponse}

theorem handleResponse_unready (isOn : g.dkg.dkgOn = true) (unready : g.dkg.ready = false)
    (isIndex : reader.responseIndex response.data = some index) :
    handleResponse lib reader g dkger signature sigSets response = ({ g with dkg := { g.dkg with
        dealResponseCache := g.dkg.dealResponseCache.append
          (reader.addressFromPubKeyBytes response.publicKey) response } }, []) := by
  simp [handleResponse, isOn, Dkg.cacheResponseIfNotReady, unready, isIndex]

variable (isOn : g.dkg.dkgOn = true) (ready : g.dkg.ready = true)
variable (isIndex : reader.responseIndex response.data = some index)
variable (checked :
  g.dkg.checkAddress g.term (reader.addressFromPubKeyBytes response.publicKey) = true)
include isOn ready isIndex checked

theorem handleResponse_waiting (missing : g.dkg.received index = false)
    (isOther : index ≠ g.dkg.partner.id) :
    handleResponse lib reader g dkger signature sigSets response = ({ g with dkg := { g.dkg with
        respWaitingCache := g.dkg.respWaitingCache.append index response } }, []) := by
  simp [handleResponse, isOn, Dkg.cacheResponseIfNotReady, ready, isIndex, checked,
    Dkg.cacheResponseIfDealNotReceived, missing, isOther]

theorem handleResponse_given (isDue : g.dkg.received index = true ∨ index = g.dkg.partner.id) :
    handleResponse lib reader g dkger signature sigSets response =
      (recover lib { g with dkg := { g.dkg with partner := { g.dkg.partner with
        dkger := some dkger
        responseNumber := g.dkg.partner.responseNumber + 1 } } } signature sigSets,
        [.response response]) := by
  have goesOn : (!g.dkg.received index && index != g.dkg.partner.id) = false := by
    rcases isDue with received | isOwn
    · simp [received]
    · simp [isOwn]
  simp [handleResponse, isOn, Dkg.cacheResponseIfNotReady, ready, isIndex, checked,
    Dkg.cacheResponseIfDealNotReceived, goesOn]

end Responses

theorem recover_cases (lib : Library κ σ γ) (g : Gossip κ σ γ) (signature : Bytes)
    (sigSets : List (Address × MessageConsensusDkgSigSets)) :
    recover lib g signature sigSets = g ∨ ∃ share, g.dkg.partner.dks lib = some share ∧
        (g.dkg.partner.nbParticipants - 1) * (g.dkg.partner.nbParticipants - 1) ≤
          g.dkg.partner.responseNumber ∧ recover lib g signature sigSets = { g with
          dkg := { g.dkg with
            partner := { g.dkg.partner with jointPubKey := some (lib.commit share) }
            blsSigSets := g.dkg.blsSigSets.set g.myAccount.address
              ⟨g.myAccount.publicKey, signature⟩
            dealSigSetsCache := ∅ }
          sending := (sigSets.map Prod.snd).map .sigSets } := by
  by_cases few : g.dkg.partner.responseNumber <
      (g.dkg.partner.nbParticipants - 1) * (g.dkg.partner.nbParticipants - 1)
  · exact .inl (if_pos few)
  cases isShare : g.dkg.partner.dks lib with
  | none => exact .inl (by simp [recover, isShare])
  | some share =>
    refine .inr ⟨share, rfl, Nat.le_of_not_lt few, ?_⟩
    simp [recover, isShare, few]

section SigSets

variable [DecidableEq κ] {response : MessageConsensusDkgSigSets}

theorem handleSigSets_cases (lib : Library κ σ γ) (reader : Reader) (g : Gossip κ σ γ)
    (response : MessageConsensusDkgSigSets) :
    let addr := reader.addressFromPubKeyBytes response.publicKey
    handleSigSets lib reader g response = g ∨
      (g.dkg.ready = true → g.dkg.partner.jointPubKey = none) ∧
        g.dkg.dealSigSetsCache.get? addr = none ∧
        handleSigSets lib reader g response = { g with dkg := { g.dkg with
          dealSigSetsCache := g.dkg.dealSigSetsCache.set addr response } } ∨
      g.dkg.ready = true ∧ g.dkg.partner.jointPubKey.isSome = true ∧
        handleSigSets lib reader g response = finish lib { g with dkg := { g.dkg with
          blsSigSets := g.dkg.blsSigSets.set addr ⟨response.publicKey, response.signature⟩ } } := by
  intro addr
  cases isPoint : lib.unmarshalBinaryPointG2 response.pkBls with
  | none => exact .inl (by simp [handleSigSets, isPoint])
  | some pkBls =>
    by_cases isOn : g.dkg.dkgOn = true
    swap
    · exact .inl (by simp [handleSigSets, isPoint, isOn])
    by_cases isLater : (!g.dkg.ready || g.dkg.partner.jointPubKey.isNone) = true
    · have isCached : g.dkg.cacheSigSetsIfNotReady addr response = _ := if_pos isLater
      by_cases present : g.dkg.dealSigSetsCache.contains addr = true
      · exact .inl (by simp [handleSigSets, isPoint, isOn, isCached, present, addr])
      refine .inr (.inl ⟨fun ready => ?_, GoMap.get?_eq_none present, ?_⟩)
      · simpa [ready] using isLater
      · simp [handleSigSets, isPoint, isOn, isCached, present, addr]
    · have isNow : g.dkg.cacheSigSetsIfNotReady addr response = _ := if_neg isLater
      by_cases known : g.dkg.checkAddress g.term addr = true
      swap
      · exact .inl (by simp [handleSigSets, isPoint, isOn, isNow, known, addr])
      by_cases same : some pkBls = g.dkg.partner.jointPubKey
      swap
      · exact .inl (by simp [handleSigSets, isPoint, isOn, isNow, same, addr])
      refine .inr (.inr ⟨?_, ?_, ?_⟩)
      · cases ready : g.dkg.ready with
        | true => rfl
        | false => simp [ready] at isLater
      · rw [← same]
        rfl
      · simp [handleSigSets, isPoint, isOn, isNow, known, ← same, addr]

end SigSets

end Handlers

end Gossip

section Selected

variable {sorter : Sorter} {sha256 : Bytes → Bytes} {me : Account} {blsJointSig : Bytes}
variable {order : List (Address × Campaign κ)} {t : Term κ} {d : Dkg κ σ γ}

theorem Dkg.selectCandidates_joins {state : Term κ × Dkg κ σ γ}
    (filed : ∀ entry ∈ order, t.getCampaign entry.1 = some entry.2) (isAmong : me.isAmong
      (chosen sorter (sha256 blsJointSig) d.partner.nbParticipants t order) = true)
    (selected : d.selectCandidates sorter sha256 me order blsJointSig t = .ok state) :
    let chosen := chosen sorter (sha256 blsJointSig) d.partner.nbParticipants t order
    state = ((t.choose chosen).clearCampaigns, (d.marked true).join me chosen) := by
  rcases Nat.lt_trichotomy order.length d.partner.nbParticipants with few | everyone | more
  · rw [selectCandidates, if_neg few.ne, if_pos few] at selected
    cases selected
  · rw [selectCandidates_everyone sorter sha256 me blsJointSig t everyone] at selected
    rw [chosen, if_pos everyone] at isAmong ⊢
    have sameOwn : me.isAmong (sorter.sort Campaign.less (order.map Prod.snd)) =
        me.isAmong (order.map Prod.snd) :=
      (sorter.perm _ _).any_eq
    rw [sameOwn] at isAmong
    cases selected
    simp [isAmong]
  · rw [selectCandidates_lucky sorter sha256 me blsJointSig more
      (short_of_selected more selected) filed] at selected
    rw [chosen, if_neg more.ne'] at isAmong ⊢
    cases selected
    simp [isAmong, join_eq, marked]

end Selected

end AnnchainOG.Senate
