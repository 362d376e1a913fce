import AnnchainOG.Wire.Records

/-!
# What signatures bind

Amounts, data, keys and proofs have lengths of their own choosing and no length is signed; an amount
is signed without its sign.
-/

namespace AnnchainOG.Wire

open List

variable {recover : Bool} {targets : Bytes} {tx : ActionTx}
variable {α : Type} {sender : Option Address} {bytes : Bytes}

/-!
## Fixed-width fields
-/

theorem uint64Bytes_injective {left right : UInt64}
    (same : uint64Bytes left = uint64Bytes right) : left = right :=
  UInt64.toNat_inj.mp (bigEndian_injective left.toNat_lt right.toNat_lt same)

theorem uint64Bytes_append_inj {left right : UInt64} {first second : Bytes}
    (same : uint64Bytes left ++ first = uint64Bytes right ++ second) :
    left = right ∧ first = second := by
  obtain ⟨fields, rest⟩ := append_inj same (by simp only [uint64Bytes, length_bigEndian])
  exact ⟨uint64Bytes_injective fields, rest⟩

theorem addressBytes_injective {left right : Address}
    (same : addressBytes left = addressBytes right) : left = right :=
  BitVec.eq_of_toNat_eq (bigEndian_injective left.isLt right.isLt same)

theorem hashBytes_injective {left right : Hash}
    (same : hashBytes left = hashBytes right) : left = right :=
  BitVec.eq_of_toNat_eq (bigEndian_injective left.isLt right.isLt same)

theorem tokenIdBytes_injective {left right : TokenId}
    (same : tokenIdBytes left = tokenIdBytes right) : left = right :=
  Int32.toBitVec_inj.mp
    (BitVec.eq_of_toNat_eq (bigEndian_injective left.toBitVec.isLt right.toBitVec.isLt same))

theorem deref_ok {pointer : Option α} {value : α} (read : deref pointer = .ok value) :
    pointer = some value := by
  cases pointer with
  | none => cases read
  | some _ => exact congrArg some (Except.ok.inj read)

theorem senderTarget_length (target : senderTarget recover sender = .ok bytes) :
    bytes.length = if recover then 0 else 20 := by
  cases recover with
  | true =>
    obtain rfl : [] = bytes := Except.ok.inj target
    rfl
  | false =>
    obtain ⟨address, _, written⟩ := bind_ok target
    obtain rfl : addressBytes address = bytes := Except.ok.inj written
    exact length_bigEndian 20 _

section Senders

variable {left right : Option Address} {first second : Bytes}
  (leftTarget : senderTarget recover left = .ok first)
  (rightTarget : senderTarget recover right = .ok second)
include leftTarget rightTarget

theorem senderTarget_lengths : first.length = second.length := by
  rw [senderTarget_length leftTarget, senderTarget_length rightTarget]

theorem senderTarget_injective (same : first = second) (written : recover = false) :
    left = right := by
  subst written
  obtain ⟨leftAddress, leftRead, leftWritten⟩ := bind_ok leftTarget
  obtain ⟨rightAddress, rightRead, rightWritten⟩ := bind_ok rightTarget
  cases leftWritten
  cases rightWritten
  rw [deref_ok leftRead, deref_ok rightRead, addressBytes_injective same]

end Senders

/-!
## Amounts
-/

structure ToldApart (left right : Int) : Prop where
  lengths : (getSigBytes left).length = (getSigBytes right).length
  signs : 0 ≤ left ↔ 0 ≤ right
  multiples : 2 ^ 64 ∣ left → 2 ^ 64 ∣ right → left = right

theorem ToldApart.refl (value : Int) : ToldApart value value where
  lengths := rfl
  signs := Iff.rfl
  multiples := fun _ _ => rfl

theorem natAbs_mod_eq_zero_iff {value : Int} : value.natAbs % 2 ^ 64 = 0 ↔ 2 ^ 64 ∣ value := by
  rw [← Nat.dvd_iff_mod_eq_zero, ← Int.natAbs_dvd_natAbs]
  rfl

theorem bigBytes_ne_zero (value : Int) : bigBytes value ≠ [0] := by
  intro isZero
  have number := ofBigEndian_bigBytes value
  rw [isZero] at number
  obtain rfl : value = 0 := Int.natAbs_eq_zero.mp number.symm
  cases isZero

theorem ToldApart.eq {left right : Int} (apart : ToldApart left right)
    (same : getSigBytes left = getSigBytes right) : left = right := by
  unfold getSigBytes at same
  by_cases leftMultiple : left.natAbs % 2 ^ 64 = 0
  · by_cases rightMultiple : right.natAbs % 2 ^ 64 = 0
    · exact apart.multiples (natAbs_mod_eq_zero_iff.mp leftMultiple)
        (natAbs_mod_eq_zero_iff.mp rightMultiple)
    · rw [if_pos leftMultiple, if_neg rightMultiple] at same
      exact absurd same.symm (bigBytes_ne_zero right)
  · by_cases rightMultiple : right.natAbs % 2 ^ 64 = 0
    · rw [if_neg leftMultiple, if_pos rightMultiple] at same
      exact absurd same (bigBytes_ne_zero left)
    · rw [if_neg leftMultiple, if_neg rightMultiple] at same
      have magnitudes := bigBytes_eq_iff.mp same
      have signs := apart.signs
      omega

/-!
## The transfer
-/

/-- The fields of a transfer that its signature is meant to bind. -/
structure Tx.SameTransfer (recover : Bool) (left right : Tx) : Prop where
  accountNonce : left.base.accountNonce = right.base.accountNonce
  sender : recover = false → left.sender = right.sender
  toAddress : left.toAddress = right.toAddress
  value : left.value = right.value
  data : left.data = right.data
  tokenId : left.tokenId = right.tokenId

theorem Tx.signatureTargets_ok {tx : Tx} (signed : tx.signatureTargets recover = .ok targets) :
    ∃ sender value, senderTarget recover tx.sender = .ok sender ∧ tx.value = some value ∧
      targets = uint64Bytes tx.base.accountNonce ++ (sender ++ (addressBytes tx.toAddress ++
        (getSigBytes value ++ tx.data ++ tokenIdBytes tx.tokenId))) := by
  obtain ⟨sender, isSender, rest⟩ := bind_ok signed
  obtain ⟨value, isValue, written⟩ := bind_ok rest
  refine ⟨sender, value, isSender, deref_ok isValue, ?_⟩
  simpa only [append_assoc] using (Except.ok.inj written).symm

/-- Two transfers that sign the same bytes are the same exactly when the bytes tell their amounts
apart. -/
theorem transfer_bound_iff {recover : Bool} {left right : Tx} {targets : Bytes}
    (leftSigned : left.signatureTargets recover = .ok targets)
    (rightSigned : right.signatureTargets recover = .ok targets) :
    Tx.SameTransfer recover left right ↔
      ∃ sent claimed, left.value = some sent ∧ right.value = some claimed ∧
        ToldApart sent claimed := by
  obtain ⟨leftSender, sent, leftTarget, isSent, leftBytes⟩ := Tx.signatureTargets_ok leftSigned
  obtain ⟨rightSender, claimed, rightTarget, isClaimed, rightBytes⟩ :=
    Tx.signatureTargets_ok rightSigned
  constructor
  · intro same
    obtain rfl : sent = claimed := Option.some.inj (isSent ▸ isClaimed ▸ same.value)
    exact ⟨sent, sent, isSent, isClaimed, .refl sent⟩
  · rintro ⟨first, second, isFirst, isSecond, apart⟩
    obtain rfl : sent = first := Option.some.inj (isSent.symm.trans isFirst)
    obtain rfl : claimed = second := Option.some.inj (isClaimed.symm.trans isSecond)
    -- the three leading fields have a width of their own, the token id closes the bytes
    obtain ⟨nonces, afterNonce⟩ := uint64Bytes_append_inj (leftBytes.symm.trans rightBytes)
    obtain ⟨senders, afterSender⟩ :=
      append_inj afterNonce (senderTarget_lengths leftTarget rightTarget)
    obtain ⟨receivers, afterReceiver⟩ := append_inj afterSender (by
      simp only [addressBytes, length_bigEndian])
    obtain ⟨payloads, tokens⟩ := append_inj' afterReceiver (by
      simp only [tokenIdBytes, length_bigEndian])
    obtain ⟨amounts, data⟩ := append_inj payloads apart.lengths
    exact {
      accountNonce := nonces
      sender := senderTarget_injective leftTarget rightTarget senders
      toAddress := addressBytes_injective receivers
      value := by rw [isSent, isClaimed, apart.eq amounts]
      data := data
      tokenId := tokenIdBytes_injective tokens }

def Tx.paying (value : Int) (data : Bytes) : Tx where
  base := ⟨txBaseTypeNormal, 7, [5], 3, 0, [], [], 0, 1, 0⟩
  sender := some 1
  toAddress := 2
  value := some value
  tokenId := 0
  data := data

theorem transfer_bound_hundred :
    Tx.SameTransfer false (Tx.paying 100 [1]) { Tx.paying 100 [1] with base.weight := 9 } :=
  (transfer_bound_iff rfl rfl).mpr ⟨100, 100, rfl, rfl, .refl 100⟩

/-- One unit with one byte of data signs the same bytes as 258 units without data. -/
theorem amount_not_bound :
    ∃ targets, (Tx.paying 1 [2]).signatureTargets false = .ok targets ∧
      (Tx.paying 258 []).signatureTargets false = .ok targets ∧
      ¬ Tx.SameTransfer false (Tx.paying 1 [2]) (Tx.paying 258 []) :=
  ⟨_, rfl, rfl, fun same => nomatch same.value⟩

/-!
## Actions
-/

abbrev IsOffering (action : UInt8) : Prop :=
  action = actionTxActionIPO ∨ action = actionTxActionSPO ∨ action = actionTxActionDestroy

/-- The data has the type that the action calls for. -/
structure ActionTx.Typed (tx : ActionTx) : Prop where
  offering : IsOffering tx.action → ∃ offering, tx.getPublicOffering = some offering
  domain : tx.action = actionRequestDomainName → ∃ request, tx.getDomainName = some request

/-- The writer comes to an end: no pointer it follows is nil, and no string is handed to it. -/
structure ActionTx.Signable (recover : Bool) (tx : ActionTx) : Prop where
  sender : recover = false → tx.sender ≠ none
  notDomain : tx.action ≠ actionRequestDomainName
  value : ∀ offering, tx.getPublicOffering = some offering → offering.value ≠ none

structure ActionTx.SameAction (recover : Bool) (left right : ActionTx) : Prop where
  accountNonce : left.base.accountNonce = right.base.accountNonce
  action : left.action = right.action
  sender : recover = false → left.sender = right.sender
  value : ∀ first second, left.getPublicOffering = some first →
    right.getPublicOffering = some second → first.value = second.value
  enableSPO : ∀ first second, left.getPublicOffering = some first →
    right.getPublicOffering = some second → first.enableSPO = second.enableSPO
  tokenName : left.action = actionTxActionIPO → ∀ first second,
    left.getPublicOffering = some first → right.getPublicOffering = some second →
      first.tokenName = second.tokenName
  tokenId : left.action ≠ actionTxActionIPO → ∀ first second,
    left.getPublicOffering = some first → right.getPublicOffering = some second →
      first.tokenId = second.tokenId
  domainName : left.getDomainName = right.getDomainName

def ActionTx.OffersToldApart (left right : ActionTx) : Prop :=
  ∀ first second sent claimed, left.getPublicOffering = some first →
    right.getPublicOffering = some second → first.value = some sent →
    second.value = some claimed → ToldApart sent claimed

def PublicOffering.flagAndName (action : UInt8) (offering : PublicOffering) : Bytes :=
  (if offering.enableSPO then 1 else 0) ::
    if action = actionTxActionIPO then offering.tokenName else tokenIdBytes offering.tokenId

theorem ActionTx.isOffering_of_data {offering : PublicOffering}
    (isData : tx.getPublicOffering = some offering) : IsOffering tx.action := by
  unfold ActionTx.getPublicOffering at isData
  by_contra notOffering
  rw [if_neg notOffering] at isData
  cases isData

theorem ActionTx.getDomainName_of_ne
    (notDomain : tx.action ≠ actionRequestDomainName) : tx.getDomainName = none :=
  if_neg notDomain

theorem senderTarget_ok_iff :
    (∃ bytes, senderTarget recover sender = .ok bytes) ↔ (recover = false → sender ≠ none) := by
  cases recover with
  | true => simp [senderTarget, pure, Except.pure]
  | false =>
    cases sender with
    | none => simp [senderTarget, deref, bind, Except.bind]
    | some address => simp [senderTarget, deref, bind, Except.bind, pure, Except.pure]

theorem ActionTx.signatureTargets_ok (signed : tx.signatureTargets recover = .ok targets) :
    ∃ sender payload, senderTarget recover tx.sender = .ok sender ∧
      targets = uint64Bytes tx.base.accountNonce ++ ([tx.action] ++ (sender ++ payload)) ∧
      tx.action ≠ actionRequestDomainName ∧ ((¬ IsOffering tx.action ∧ payload = []) ∨
        ∃ offering value, tx.getPublicOffering = some offering ∧ offering.value = some value ∧
          payload = getSigBytes value ++ offering.flagAndName tx.action) := by
  obtain ⟨sender, isSender, rest⟩ := bind_ok signed
  by_cases isOffering : IsOffering tx.action
  · simp only [if_pos isOffering] at rest
    obtain ⟨offering, isData, rest⟩ := bind_ok rest
    obtain ⟨value, isValue, written⟩ := bind_ok rest
    have notDomain : tx.action ≠ actionRequestDomainName := by
      rcases isOffering with isAction | isAction | isAction <;> rw [isAction] <;> decide
    refine ⟨sender, getSigBytes value ++ offering.flagAndName tx.action, isSender, ?_, notDomain,
      .inr ⟨offering, value, deref_ok isData, deref_ok isValue, rfl⟩⟩
    unfold PublicOffering.flagAndName
    split at written
    all_goals
      cases written
      simp [*]
  · simp only [if_neg isOffering] at rest
    split at rest
    · obtain ⟨_, _, rest⟩ := bind_ok rest
      cases rest
    rename_i notDomain
    refine ⟨sender, [], isSender, ?_, notDomain, .inl ⟨isOffering, rfl⟩⟩
    cases rest
    simp

theorem ActionTx.signatureTargets_ok_iff (typed : tx.Typed) :
    (∃ targets, tx.signatureTargets recover = .ok targets) ↔ tx.Signable recover := by
  constructor
  · rintro ⟨targets, signed⟩
    obtain ⟨sender, payload, isSender, -, notDomain, isPayload⟩ := signatureTargets_ok signed
    refine ⟨senderTarget_ok_iff.mp ⟨sender, isSender⟩, notDomain, fun offering isData => ?_⟩
    rcases isPayload with ⟨notOffering, -⟩ | ⟨found, value, isFound, isValue, -⟩
    · exact absurd (ActionTx.isOffering_of_data isData) notOffering
    obtain rfl : found = offering := Option.some.inj (isFound.symm.trans isData)
    rw [isValue]
    exact Option.some_ne_none value
  · intro signable
    obtain ⟨sender, isSender⟩ := senderTarget_ok_iff.mpr signable.sender
    by_cases isOffering : IsOffering tx.action
    · obtain ⟨offering, isData⟩ := typed.offering isOffering
      obtain ⟨value, isValue⟩ := Option.ne_none_iff_exists'.mp (signable.value offering isData)
      unfold signatureTargets
      simp only [isSender, isData, isValue, deref, bind, Except.bind, pure, Except.pure,
        if_pos isOffering]
      split <;> exact ⟨_, rfl⟩
    · unfold signatureTargets
      simp only [isSender, bind, Except.bind, pure, Except.pure,
        if_neg isOffering,
        if_neg signable.notDomain]
      exact ⟨_, rfl⟩

theorem PublicOffering.flagAndName_eq {action : UInt8} {first second : PublicOffering}
    (same : first.flagAndName action = second.flagAndName action) :
    first.enableSPO = second.enableSPO ∧
      (action = actionTxActionIPO → first.tokenName = second.tokenName) ∧
      (action ≠ actionTxActionIPO → first.tokenId = second.tokenId) := by
  obtain ⟨flags, names⟩ := List.cons.inj same
  refine ⟨?_, fun isIPO => ?_, fun notIPO => ?_⟩
  · cases isFirst : first.enableSPO <;> cases isSecond : second.enableSPO <;>
      simp [isFirst, isSecond] at flags ⊢
  · simpa only [if_pos isIPO] using names
  · rw [if_neg notIPO, if_neg notIPO] at names
    exact tokenIdBytes_injective names

/-- An action is signed if no pointer is nil and it is not for a domain name; the bytes have to tell
amounts apart. -/
theorem action_bound_iff {recover : Bool} {left right : ActionTx} (typed : left.Typed) :
    ((∃ targets, left.signatureTargets recover = .ok targets) ↔ left.Signable recover) ∧
      ∀ targets, left.signatureTargets recover = .ok targets →
        right.signatureTargets recover = .ok targets →
        (ActionTx.SameAction recover left right ↔ left.OffersToldApart right) := by
  refine ⟨ActionTx.signatureTargets_ok_iff typed, fun targets leftSigned rightSigned => ?_⟩
  obtain ⟨leftSender, leftPayload, leftTarget, leftBytes, leftNotDomain, isLeft⟩ :=
    ActionTx.signatureTargets_ok leftSigned
  obtain ⟨rightSender, rightPayload, rightTarget, rightBytes, rightNotDomain, isRight⟩ :=
    ActionTx.signatureTargets_ok rightSigned
  -- nonce, action and sender have a width of their own
  obtain ⟨nonces, afterNonce⟩ := uint64Bytes_append_inj (leftBytes.symm.trans rightBytes)
  obtain ⟨actions, afterAction⟩ := append_inj afterNonce rfl
  obtain ⟨senders, payloads⟩ := append_inj afterAction (senderTarget_lengths leftTarget rightTarget)
  have sameAction : left.action = right.action := head_eq_of_cons_eq actions
  constructor
  · intro same first second sent claimed isFirst isSecond isSent isClaimed
    have values := same.value first second isFirst isSecond
    rw [isSent, isClaimed] at values
    rw [Option.some.inj values]
    exact .refl claimed
  · intro apart
    have offerings : ∀ first second, left.getPublicOffering = some first →
        right.getPublicOffering = some second → first.value = second.value ∧
          first.flagAndName left.action = second.flagAndName left.action := by
      intro first second isFirst isSecond
      rcases isLeft with ⟨notOffering, -⟩ | ⟨offered, sent, isOffered, isSent, leftWritten⟩
      · exact absurd (ActionTx.isOffering_of_data isFirst) notOffering
      rcases isRight with ⟨notOffering, -⟩ | ⟨asked, claimed, isAsked, isClaimed, rightWritten⟩
      · exact absurd (ActionTx.isOffering_of_data isSecond) notOffering
      obtain rfl : offered = first := Option.some.inj (isOffered.symm.trans isFirst)
      obtain rfl : asked = second := Option.some.inj (isAsked.symm.trans isSecond)
      have toldApart := apart offered asked sent claimed isFirst isSecond isSent isClaimed
      rw [leftWritten, rightWritten, ← sameAction] at payloads
      obtain ⟨amounts, rest⟩ := append_inj payloads toldApart.lengths
      rw [isSent, isClaimed, toldApart.eq amounts]
      exact ⟨rfl, rest⟩
    exact {
      accountNonce := nonces
      action := sameAction
      sender := senderTarget_injective leftTarget rightTarget senders
      value := fun first second isFirst isSecond => (offerings first second isFirst isSecond).1
      enableSPO := fun first second isFirst isSecond =>
        (PublicOffering.flagAndName_eq (offerings first second isFirst isSecond).2).1
      tokenName := fun isIPO first second isFirst isSecond =>
        (PublicOffering.flagAndName_eq (offerings first second isFirst isSecond).2).2.1 isIPO
      tokenId := fun notIPO first second isFirst isSecond =>
        (PublicOffering.flagAndName_eq (offerings first second isFirst isSecond).2).2.2 notIPO
      domainName := by
        rw [ActionTx.getDomainName_of_ne leftNotDomain, ActionTx.getDomainName_of_ne rightNotDomain] }

def ActionTx.offeringOf (value : Int) (enableSPO : Bool) (tokenName : Bytes) : ActionTx where
  base := ⟨txBaseAction, 7, [5], 3, 0, [], [], 0, 1, 0⟩
  action := actionTxActionIPO
  sender := some 1
  actionData := some (.publicOffering ⟨0, some value, enableSPO, tokenName⟩)

theorem action_bound_hundred :
    ActionTx.SameAction false (.offeringOf 100 true [65])
      { ActionTx.offeringOf 100 true [65] with base.weight := 9 } := by
  have typed : (ActionTx.offeringOf 100 true [65]).Typed := ⟨fun _ => ⟨_, rfl⟩, nofun⟩
  refine ((action_bound_iff typed).2 _ rfl rfl).mpr ?_
  rintro first second sent claimed ⟨⟩ ⟨⟩ ⟨⟩ ⟨⟩
  exact .refl 100

/-- One unit that may be issued again, of a token whose name starts with a zero byte, signs like 257
units that may not. -/
theorem offering_not_bound :
    (∃ tx : ActionTx, tx.Typed ∧ tx.signatureTargets false = .error .unwritable) ∧
      ∃ targets, (ActionTx.offeringOf 1 true [0, 65]).signatureTargets false = .ok targets ∧
        (ActionTx.offeringOf 257 false [65]).signatureTargets false = .ok targets ∧
        ¬ ActionTx.SameAction false (.offeringOf 1 true [0, 65]) (.offeringOf 257 false [65]) := by
  refine ⟨⟨{ ActionTx.offeringOf 1 true [] with
    action := actionRequestDomainName, actionData := some (.requestDomain ⟨[65]⟩) }, ?_, rfl⟩,
    _, rfl, rfl, fun same => nomatch same.value _ _ rfl rfl⟩
  exact ⟨fun isOffering => absurd isOffering (by decide), fun _ => ⟨_, rfl⟩⟩

/-!
## Consensus transactions
-/

structure Sequencer.SameSequencer (recover : Bool) (left right : Sequencer) : Prop where
  accountNonce : left.base.accountNonce = right.base.accountNonce
  issuer : recover = false → left.issuer = right.issuer
  height : left.base.height = right.base.height
  weight : left.base.weight = right.base.weight
  stateRoot : left.stateRoot = right.stateRoot
  blsJointPubKey : left.blsJointPubKey = right.blsJointPubKey
  parentsHash : left.base.parentsHash = right.base.parentsHash

structure Campaign.SameCampaign (recover : Bool) (left right : Campaign) : Prop where
  accountNonce : left.base.accountNonce = right.base.accountNonce
  issuer : recover = false → left.issuer = right.issuer
  dkgPublicKey : left.dkgPublicKey = right.dkgPublicKey
  vrf : left.vrf = right.vrf

structure TermChange.SameTermChange (recover : Bool) (left right : TermChange) : Prop where
  accountNonce : left.base.accountNonce = right.base.accountNonce
  issuer : recover = false → left.issuer = right.issuer
  termID : left.termID = right.termID
  pkBls : left.pkBls = right.pkBls
  sigSet : left.sigSet = right.sigSet

/-- The lengths of the fields that are signed without one, up to the last. -/
def Campaign.lengths (campaign : Campaign) : List Nat :=
  [campaign.dkgPublicKey.length, campaign.vrf.vrf.length, campaign.vrf.publicKey.length,
    campaign.vrf.proof.length]

def SigSet.lengths (sigSet : SigSet) : Nat × Nat :=
  (sigSet.publicKey.length, sigSet.signature.length)

theorem flatMap_hashBytes_injective {left right : List Hash}
    (same : left.flatMap hashBytes = right.flatMap hashBytes) : left = right := by
  have width (hash : Hash) : (hashBytes hash).length = 32 := length_bigEndian 32 _
  induction left generalizing right with
  | nil =>
    cases right with
    | nil => rfl
    | cons hash rest =>
      have lengths := congrArg List.length same
      simp only [flatMap_nil, flatMap_cons, length_append, length_nil, width] at lengths
      omega
  | cons first leftRest ih =>
    cases right with
    | nil =>
      have lengths := congrArg List.length same
      simp only [flatMap_nil, flatMap_cons, length_append, length_nil, width] at lengths
      omega
    | cons second rightRest =>
      obtain ⟨heads, rests⟩ := append_inj same (by rw [width, width])
      rw [hashBytes_injective heads, ih rests]

theorem flatMap_sigSets_injective {left right : List SigSet}
    (lengths : left.map SigSet.lengths = right.map SigSet.lengths)
    (same : (left.flatMap fun sigSet => sigSet.publicKey ++ sigSet.signature) =
      right.flatMap fun sigSet => sigSet.publicKey ++ sigSet.signature) : left = right := by
  induction left generalizing right with
  | nil =>
    cases right with
    | nil => rfl
    | cons _ _ => cases lengths
  | cons first leftRest ih =>
    cases right with
    | nil => cases lengths
    | cons second rightRest =>
      obtain ⟨headLengths, restLengths⟩ := List.cons.inj lengths
      obtain ⟨keyLength, signatureLength⟩ := Prod.mk.inj headLengths
      obtain ⟨heads, rests⟩ := append_inj same (by
        rw [length_append, length_append, keyLength, signatureLength])
      obtain ⟨keys, signatures⟩ := append_inj heads keyLength
      obtain ⟨secondKey, secondSignature⟩ := second
      cases keys
      cases signatures
      rw [ih restLengths rests]

theorem mapM_deref_ok {pointers : List (Option α)} {values : List α}
    (read : pointers.mapM deref = .ok values) : pointers = values.map some := by
  induction pointers generalizing values with
  | nil =>
    cases read
    rfl
  | cons pointer rest ih =>
    rw [mapM_cons] at read
    obtain ⟨value, isValue, read⟩ := bind_ok read
    obtain ⟨others, isOthers, read⟩ := bind_ok read
    cases read
    rw [deref_ok isValue, ih isOthers]
    rfl

theorem sequencer_bound_iff {left right : Sequencer}
    (leftSigned : left.signatureTargets recover = .ok targets)
    (rightSigned : right.signatureTargets recover = .ok targets) :
    Sequencer.SameSequencer recover left right ↔
      left.blsJointPubKey.length = right.blsJointPubKey.length := by
  refine ⟨fun same => congrArg List.length same.blsJointPubKey, fun lengths => ?_⟩
  obtain ⟨leftIssuer, leftTarget, leftWritten⟩ := bind_ok leftSigned
  obtain ⟨rightIssuer, rightTarget, rightWritten⟩ := bind_ok rightSigned
  have same := Except.ok.inj (leftWritten.trans rightWritten.symm)
  simp only [append_assoc] at same
  obtain ⟨keys, afterKey⟩ := append_inj same lengths
  obtain ⟨nonces, afterNonce⟩ := uint64Bytes_append_inj afterKey
  obtain ⟨issuers, afterIssuer⟩ :=
    append_inj afterNonce (senderTarget_lengths leftTarget rightTarget)
  obtain ⟨heights, afterHeight⟩ := uint64Bytes_append_inj afterIssuer
  obtain ⟨weights, afterWeight⟩ := uint64Bytes_append_inj afterHeight
  obtain ⟨roots, parents⟩ := append_inj afterWeight (by
    simp only [hashBytes, length_bigEndian])
  exact {
    accountNonce := nonces
    issuer := senderTarget_injective leftTarget rightTarget issuers
    height := heights
    weight := weights
    stateRoot := hashBytes_injective roots
    blsJointPubKey := keys
    parentsHash := flatMap_hashBytes_injective parents }

theorem campaign_bound_iff {left right : Campaign}
    (leftSigned : left.signatureTargets recover = .ok targets)
    (rightSigned : right.signatureTargets recover = .ok targets) :
    Campaign.SameCampaign recover left right ↔ left.lengths = right.lengths := by
  constructor
  · intro same
    rw [Campaign.lengths, Campaign.lengths, same.dkgPublicKey, same.vrf]
  · intro lengths
    simp only [Campaign.lengths, List.cons.injEq, and_true] at lengths
    obtain ⟨dkgLength, vrfLength, keyLength, proofLength⟩ := lengths
    obtain ⟨leftIssuer, leftTarget, leftWritten⟩ := bind_ok leftSigned
    obtain ⟨rightIssuer, rightTarget, rightWritten⟩ := bind_ok rightSigned
    have same := Except.ok.inj (leftWritten.trans rightWritten.symm)
    -- the issuer and the nonce close the bytes, so the message is what is left
    obtain ⟨beforeIssuer, issuers⟩ := append_inj' same (senderTarget_lengths leftTarget rightTarget)
    obtain ⟨beforeNonce, nonces⟩ := append_inj' beforeIssuer (by
      simp only [uint64Bytes, length_bigEndian])
    simp only [append_assoc] at beforeNonce
    obtain ⟨dkgKeys, afterDkg⟩ := append_inj beforeNonce dkgLength
    obtain ⟨vrfs, afterVrf⟩ := append_inj afterDkg vrfLength
    obtain ⟨keys, afterKey⟩ := append_inj afterVrf keyLength
    obtain ⟨proofs, messages⟩ := append_inj afterKey proofLength
    exact {
      accountNonce := uint64Bytes_injective nonces
      issuer := senderTarget_injective leftTarget rightTarget issuers
      dkgPublicKey := dkgKeys
      vrf := by
        show VrfInfo.mk left.vrf.message left.vrf.proof left.vrf.publicKey left.vrf.vrf =
          VrfInfo.mk right.vrf.message right.vrf.proof right.vrf.publicKey right.vrf.vrf
        rw [messages, proofs, keys, vrfs] }

theorem termChange_bound_iff {left right : TermChange}
    (leftSigned : left.signatureTargets recover = .ok targets)
    (rightSigned : right.signatureTargets recover = .ok targets) :
    TermChange.SameTermChange recover left right ↔
      left.termID = right.termID ∧ left.pkBls.length = right.pkBls.length ∧
        left.sigSet.map (Option.map SigSet.lengths) = right.sigSet.map (Option.map SigSet.lengths) := by
  constructor
  · intro same
    rw [same.termID, same.pkBls, same.sigSet]
    exact ⟨rfl, rfl, rfl⟩
  · rintro ⟨terms, keyLength, sigLengths⟩
    obtain ⟨leftIssuer, leftTarget, leftRest⟩ := bind_ok leftSigned
    obtain ⟨leftSigs, leftRead, leftWritten⟩ := bind_ok leftRest
    obtain ⟨rightIssuer, rightTarget, rightRest⟩ := bind_ok rightSigned
    obtain ⟨rightSigs, rightRead, rightWritten⟩ := bind_ok rightRest
    have same := Except.ok.inj (leftWritten.trans rightWritten.symm)
    simp only [append_assoc] at same
    obtain ⟨nonces, afterNonce⟩ := uint64Bytes_append_inj same
    obtain ⟨issuers, afterIssuer⟩ :=
      append_inj afterNonce (senderTarget_lengths leftTarget rightTarget)
    obtain ⟨keys, signatures⟩ := append_inj afterIssuer keyLength
    have isLeft := mapM_deref_ok leftRead
    have isRight := mapM_deref_ok rightRead
    have lengths : leftSigs.map SigSet.lengths = rightSigs.map SigSet.lengths := by
      rw [isLeft, isRight, map_map, map_map] at sigLengths
      refine map_injective_iff.mpr (Option.some_injective (Nat × Nat)) ?_
      rw [map_map, map_map]
      exact sigLengths
    exact {
      accountNonce := nonces
      issuer := senderTarget_injective leftTarget rightTarget issuers
      termID := terms
      pkBls := keys
      sigSet := by rw [isLeft, isRight, flatMap_sigSets_injective lengths signatures] }

/-- They agree in what consensus acts on exactly when fields without a fixed width have the same
lengths and term changes the same term. -/
theorem consensus_bound_iff (recover : Bool) (targets : Bytes) :
    (∀ left right : Sequencer, left.signatureTargets recover = .ok targets →
      right.signatureTargets recover = .ok targets → (Sequencer.SameSequencer recover left right ↔
        left.blsJointPubKey.length = right.blsJointPubKey.length)) ∧
    (∀ left right : Campaign, left.signatureTargets recover = .ok targets →
      right.signatureTargets recover = .ok targets →
      (Campaign.SameCampaign recover left right ↔ left.lengths = right.lengths)) ∧
    (∀ left right : TermChange, left.signatureTargets recover = .ok targets →
      right.signatureTargets recover = .ok targets → (TermChange.SameTermChange recover left right ↔
        left.termID = right.termID ∧ left.pkBls.length = right.pkBls.length ∧
          left.sigSet.map (Option.map SigSet.lengths) =
            right.sigSet.map (Option.map SigSet.lengths))) :=
  ⟨fun _ _ => sequencer_bound_iff, fun _ _ => campaign_bound_iff, fun _ _ => termChange_bound_iff⟩

def TermChange.into (termID : UInt64) : TermChange where
  base := ⟨txBaseTypeTermChange, 7, [5], 3, 0, [], [], 0, 1, 0⟩
  termID := termID
  pkBls := [9]
  sigSet := []
  issuer := some 1

theorem consensus_bound_weight :
    TermChange.SameTermChange false (.into 2) { TermChange.into 2 with base.weight := 9 } :=
  ((consensus_bound_iff false _).2.2 _ _ rfl rfl).mpr ⟨rfl, rfl, rfl⟩

/-- The signature of a change to term 2 covers the change to term 3. -/
theorem term_not_bound :
    ∃ targets, (TermChange.into 2).signatureTargets false = .ok targets ∧
      (TermChange.into 3).signatureTargets false = .ok targets ∧
      ¬ TermChange.SameTermChange false (.into 2) (.into 3) :=
  ⟨_, rfl, rfl, fun same => absurd same.termID (by decide)⟩

end AnnchainOG.Wire
