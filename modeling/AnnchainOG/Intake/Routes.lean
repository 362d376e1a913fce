import AnnchainOG.Intake.Verifier
import AnnchainOG.Wire.Stored

/-!
# Where peers' transactions come in

The sender of a raw form is computed from its public key. An action is carried in full, with the
sender that the peer has written.
-/

namespace AnnchainOG.Wire

/-!
## From the raw forms
-/

section Raw

variable (crypto : Crypto)

/-- The sender that goes with a public key, where keys are not recovered. -/
def Crypto.senderOf (base : TxBase) : Except Panic (Option Address) :=
  if crypto.canRecoverPubFromSig then .ok none
  else (crypto.addressFromPubKeyBytes base.publicKey).map some

def RawTx.tx (raw : RawTx) : Except Panic Tx := do
  let sender ← crypto.senderOf raw.base
  return ⟨raw.base, sender, raw.toAddress, raw.value, raw.tokenId, raw.data⟩

def RawSequencer.sequencer (raw : RawSequencer) : Except Panic Sequencer := do
  let issuer ← crypto.senderOf raw.base
  return ⟨raw.base, issuer, raw.blsJointSig, raw.blsJointPubKey, raw.stateRoot, false,
    raw.timestamp⟩

def RawCampaign.campaign (raw : RawCampaign) : Except Panic Campaign := do
  let issuer ← crypto.senderOf raw.base
  return ⟨raw.base, raw.dkgPublicKey, raw.vrf, issuer⟩

def RawTermChange.termChange (raw : RawTermChange) : Except Panic TermChange := do
  let issuer ← crypto.senderOf raw.base
  return ⟨raw.base, raw.termId, raw.pkBls, raw.sigSet, issuer⟩

def RawActionTx.actionTx (raw : RawActionTx) : Except Panic ActionTx := do
  let sender ← crypto.senderOf raw.base
  return ⟨raw.base, raw.action, sender, raw.actionData⟩

def RawTxi.txi : RawTxi → Except Panic Txi
  | .tx raw => (raw.tx crypto).map .tx
  | .sequencer raw => (raw.sequencer crypto).map .sequencer
  | .campaign raw => (raw.campaign crypto).map .campaign
  | .termChange raw => (raw.termChange crypto).map .termChange
  | .archive raw => .ok (.archive raw)
  | .action raw => (raw.actionTx crypto).map .action

end Raw

/-!
## An action on the wire
-/

section Action

variable (msgp : Msgp) (recover : Bool)

def MessageNewActionTx.unmarshalMsg (bts : Bytes) : Except DecodeError (Option ActionTx × Bytes) :=
  match msgp.arrayHeader.read bts with
  | none => .error .malformed
  | some (count, bts) =>
    if count ≠ 1 then .error .malformed
    else if msgp.isNil bts then
      match msgp.nil.read bts with
      | some (_, bts) => .ok (none, bts)
      | none => .error .malformed
    else (ActionTx.unmarshalMsg msgp recover bts).map fun read => (some read.1, read.2)

end Action

/-!
## The handlers
-/

inductive PeerMessage where
  | newTx (rawTx : Option RawTx)
  | newTxs (rawTxs : Option (List (Option RawTx)))
  | newSequencer (rawSequencer : Option RawSequencer)
  | campaign (rawCampaign : Option RawCampaign)
  | termChange (rawTermChange : Option RawTermChange)
  | archive (archive : Option Archive)
  | actionTx (actionTx : Option ActionTx)
  | syncResponse (rawTxs : Option (List (Option RawTxi)))
  deriving DecidableEq

structure IncrementalSyncer where
  enabled : Bool
  cacheNewTxEnabled : Bool
  isKnownHash : Hash → Bool

section Handlers

variable (crypto : Crypto) (m : IncrementalSyncer)

/-- `HandleNewTxi`: what it puts into the queue. -/
def IncrementalSyncer.handleNewTxi (tx : Txi) : List Txi :=
  if !m.enabled && !m.cacheNewTxEnabled then []
  else if m.isKnownHash tx.base.hash then []
  else [tx]

def IncrementalSyncer.handlePointer (raw : Option RawTxi) : Except Panic (List Txi) :=
  match raw with
  | none => .ok []
  | some raw => do
      let tx ← raw.txi crypto
      return m.handleNewTxi tx

def IncrementalSyncer.collect : List RawTxi → Except Panic (List Txi)
  | [] => .ok []
  | raw :: rest =>
    if m.isKnownHash raw.base.hash then collect rest
    else do
      let tx ← raw.txi crypto
      let txs ← collect rest
      return tx :: txs

/-- The list is not searched for nil pointers: the hash of one is asked for. -/
def IncrementalSyncer.handleNewTxs (rawTxs : Option (List (Option RawTx))) :
    Except Panic (List Txi) :=
  match rawTxs with
  | none => .ok []
  | some rawTxs =>
    if rawTxs = [] ∨ (!m.enabled && !m.cacheNewTxEnabled) then .ok []
    else do
      let raws ← rawTxs.mapM deref
      m.collect crypto (raws.map .tx)

def IncrementalSyncer.handleFetchByHashResponse (rawTxs : Option (List (Option RawTxi))) :
    Except Panic (List Txi) :=
  match rawTxs with
  | none => .ok []
  | some rawTxs => do
      let txis ← m.collect crypto rawTxs.reduceOption
      return sortTxis txis

def IncrementalSyncer.handle : PeerMessage → Except Panic (List Txi)
  | .newTx rawTx => m.handlePointer crypto (rawTx.map .tx)
  | .newTxs rawTxs => m.handleNewTxs crypto rawTxs
  | .newSequencer rawSequencer => m.handlePointer crypto (rawSequencer.map .sequencer)
  | .campaign rawCampaign => m.handlePointer crypto (rawCampaign.map .campaign)
  | .termChange rawTermChange => m.handlePointer crypto (rawTermChange.map .termChange)
  | .archive none => .ok []
  | .archive (some archive) => .ok (m.handleNewTxi (.archive archive))
  | .actionTx none => .ok []
  | .actionTx (some actionTx) => .ok (m.handleNewTxi (.action actionTx))
  | .syncResponse rawTxs => m.handleFetchByHashResponse crypto rawTxs

end Handlers

/-!
## The sender and the key
-/

section Sender

variable {crypto : Crypto} {m : IncrementalSyncer}
variable {tx : Txi} {txs : List Txi}
variable {message : PeerMessage}

def SenderBound (crypto : Crypto) (tx : Txi) : Prop :=
  ∃ address, crypto.addressFromPubKeyBytes tx.base.publicKey = .ok address ∧
    tx.getSender = .ok (some address) ∧ Signed crypto tx

/-- An action names the address of its own key as its sender. -/
def PeerMessage.OwnSender (crypto : Crypto) (message : PeerMessage) : Prop :=
  ∀ actionTx, message = .actionTx (some actionTx) →
    ∃ address, crypto.addressFromPubKeyBytes actionTx.base.publicKey = .ok address ∧
      actionTx.sender = some address

theorem senderOf_keyed (keyed : crypto.canRecoverPubFromSig = false) {base : TxBase}
    {sender : Option Address} (found : crypto.senderOf base = .ok sender) :
    ∃ address, crypto.addressFromPubKeyBytes base.publicKey = .ok address ∧
      sender = some address := by
  unfold Crypto.senderOf at found
  rw [keyed] at found
  obtain ⟨address, isAddress, rfl⟩ := map_ok found
  exact ⟨address, isAddress, rfl⟩

theorem txi_sender (keyed : crypto.canRecoverPubFromSig = false) {raw : RawTxi}
    (built : raw.txi crypto = .ok tx) (notArchive : tx.isArchive = false) :
    ∃ address, crypto.addressFromPubKeyBytes tx.base.publicKey = .ok address ∧
      tx.getSender = .ok (some address) := by
  cases raw with
  | archive raw =>
    cases built
    cases notArchive
  | tx raw | sequencer raw | campaign raw | termChange raw | action raw =>
    obtain ⟨record, isRecord, rfl⟩ := map_ok built
    obtain ⟨sender, found, isRecord⟩ := bind_ok isRecord
    obtain ⟨address, isAddress, rfl⟩ := senderOf_keyed keyed found
    cases isRecord
    exact ⟨address, isAddress, rfl⟩

theorem handleNewTxi_mem {member : Txi} (mem : member ∈ m.handleNewTxi tx) : member = tx := by
  unfold IncrementalSyncer.handleNewTxi at mem
  split_ifs at mem
  · cases mem
  · cases mem
  · exact List.mem_singleton.mp mem

theorem handlePointer_mem {raw : Option RawTxi}
    (handled : m.handlePointer crypto raw = .ok txs) (mem : tx ∈ txs) :
    ∃ raw : RawTxi, raw.txi crypto = .ok tx := by
  cases raw with
  | none =>
    cases handled
    cases mem
  | some raw =>
    obtain ⟨built, isBuilt, handled⟩ := bind_ok handled
    cases handled
    rw [handleNewTxi_mem mem]
    exact ⟨raw, isBuilt⟩

theorem collect_mem {raws : List RawTxi}
    (collected : m.collect crypto raws = .ok txs) (mem : tx ∈ txs) :
    ∃ raw : RawTxi, raw.txi crypto = .ok tx := by
  induction raws generalizing txs with
  | nil =>
    cases collected
    cases mem
  | cons raw rest ih =>
    unfold IncrementalSyncer.collect at collected
    split_ifs at collected
    · exact ih collected mem
    obtain ⟨built, isBuilt, collected⟩ := bind_ok collected
    obtain ⟨others, isOthers, collected⟩ := bind_ok collected
    cases collected
    rcases List.mem_cons.mp mem with rfl | mem
    · exact ⟨raw, isBuilt⟩
    · exact ih isOthers mem

theorem handleNewTxs_mem {rawTxs : Option (List (Option RawTx))}
    (handled : m.handleNewTxs crypto rawTxs = .ok txs) (mem : tx ∈ txs) :
    ∃ raw : RawTxi, raw.txi crypto = .ok tx := by
  cases rawTxs with
  | none =>
    cases handled
    cases mem
  | some rawTxs =>
    simp only [IncrementalSyncer.handleNewTxs] at handled
    split_ifs at handled
    · cases handled
      cases mem
    · obtain ⟨raws, _, collected⟩ := bind_ok handled
      exact collect_mem collected mem

theorem handleFetchByHashResponse_mem {rawTxs : Option (List (Option RawTxi))}
    (handled : m.handleFetchByHashResponse crypto rawTxs = .ok txs) (mem : tx ∈ txs) :
    ∃ raw : RawTxi, raw.txi crypto = .ok tx := by
  cases rawTxs with
  | none =>
    cases handled
    cases mem
  | some rawTxs =>
    obtain ⟨txis, collected, handled⟩ := bind_ok handled
    cases handled
    exact collect_mem collected ((sortTxis_perm txis).mem_iff.mp mem)

theorem handle_mem (handled : m.handle crypto message = .ok txs) (mem : tx ∈ txs) :
    ((∃ raw : RawTxi, raw.txi crypto = .ok tx) ∧ ∀ actionTx, message ≠ .actionTx actionTx) ∨
      (∃ actionTx, message = .actionTx (some actionTx) ∧ tx = .action actionTx) ∨
      tx.isArchive = true := by
  cases message with
  | newTx _ | newSequencer _ | campaign _ | termChange _ =>
    exact .inl ⟨handlePointer_mem handled mem, nofun⟩
  | newTxs _ => exact .inl ⟨handleNewTxs_mem handled mem, nofun⟩
  | syncResponse _ => exact .inl ⟨handleFetchByHashResponse_mem handled mem, nofun⟩
  | archive archive =>
    cases archive with
    | none =>
      cases handled
      cases mem
    | some archive =>
      cases handled
      rw [handleNewTxi_mem mem]
      exact .inr (.inr rfl)
  | actionTx actionTx =>
    cases actionTx with
    | none =>
      cases handled
      cases mem
    | some actionTx =>
      cases handled
      exact .inr (.inl ⟨actionTx, rfl, handleNewTxi_mem mem⟩)

theorem handle_sender (keyed : crypto.canRecoverPubFromSig = false)
    (handled : m.handle crypto message = .ok txs) (mem : tx ∈ txs)
    (notArchive : tx.isArchive = false) :
    (∃ address, crypto.addressFromPubKeyBytes tx.base.publicKey = .ok address ∧
      tx.getSender = .ok (some address)) ↔ message.OwnSender crypto := by
  rcases handle_mem handled mem with ⟨⟨raw, built⟩, notAction⟩ | ⟨actionTx, rfl, rfl⟩ | isArchive
  · exact iff_of_true (txi_sender keyed built notArchive)
      fun actionTx isAction => absurd isAction (notAction _)
  · constructor
    · rintro ⟨address, isAddress, isSender⟩ other isOther
      cases isOther
      exact ⟨address, isAddress, Except.ok.inj isSender⟩
    · intro own
      obtain ⟨address, isAddress, isSender⟩ := own actionTx rfl
      exact ⟨address, isAddress, congrArg Except.ok isSender⟩
  · rw [notArchive] at isArchive
    cases isArchive

/-- What passes is bound to its key exactly where an action names its sender and no unsigned thing
carries the tag that turns the check off. -/
theorem sender_bound_iff (keyed : crypto.canRecoverPubFromSig = false) {v : TxFormatVerifier}
    (active : v.noVerifySignatrue = true) {message : PeerMessage} {txs : List Txi} {tx : Txi}
    (handled : m.handle crypto message = .ok txs) (mem : tx ∈ txs)
    (notArchive : tx.isArchive = false) {after : Received}
    (passed : v.verify crypto ⟨tx, .none⟩ = .ok (true, after)) :
    SenderBound crypto after.tx ↔
      message.OwnSender crypto ∧ (tx.getType = txBaseTypeArchive → Signed crypto tx) := by
  obtain ⟨unchanged, tagged⟩ := verifySignature_signed keyed (verify_active active passed).2
  rw [unchanged, ← handle_sender keyed handled mem notArchive]
  constructor
  · rintro ⟨address, isAddress, isSender, signed⟩
    exact ⟨⟨address, isAddress, isSender⟩, fun _ => signed⟩
  · rintro ⟨⟨address, isAddress, isSender⟩, untagged⟩
    refine ⟨address, isAddress, isSender, ?_⟩
    rcases tagged with isTagged | signed
    · exact untagged isTagged
    · exact signed

end Sender

def IncrementalSyncer.fresh : IncrementalSyncer where
  enabled := true
  cacheNewTxEnabled := false
  isKnownHash _ := false

def TxFormatVerifier.active : TxFormatVerifier :=
  { TxFormatVerifier.configured with noVerifySignatrue := true }

def RawTx.transferSigned : RawTx :=
  let signature := 1 :: (uint64Bytes 3 ++ addressBytes 1 ++ addressBytes 2 ++ [100] ++ tokenIdBytes 0)
  ⟨(Txi.transferSigned signature).base, 2, some 100, [], 0⟩

theorem sender_bound_transfer :
    ∃ tx after, IncrementalSyncer.fresh.handle Crypto.plain (.newTx (some .transferSigned)) =
        .ok [tx] ∧ TxFormatVerifier.active.verify Crypto.plain ⟨tx, .none⟩ = .ok (true, after) ∧
      SenderBound Crypto.plain after.tx := by
  have handled : IncrementalSyncer.fresh.handle Crypto.plain (.newTx (some .transferSigned)) =
      .ok [.tx ⟨RawTx.transferSigned.base, some 1, 2, some 100, 0, []⟩] := rfl
  have passed : TxFormatVerifier.active.verify Crypto.plain
      ⟨.tx ⟨RawTx.transferSigned.base, some 1, 2, some 100, 0, []⟩, .none⟩ = .ok (true, _) := rfl
  exact ⟨_, _, handled, passed,
    (sender_bound_iff rfl rfl handled (List.mem_singleton.mpr rfl) rfl passed).mpr ⟨nofun, nofun⟩⟩

/-- An offering in the name of account 2, signed with the key of account 1. -/
def ActionTx.inOtherName : ActionTx :=
  let signature := 1 :: (uint64Bytes 3 ++ [actionTxActionIPO] ++ addressBytes 2 ++ [100] ++ [0])
  let base : TxBase := ⟨txBaseAction, 0, [5], 3, 0, [1], signature, 0, 1, 0⟩
  ⟨{ base with hash := base.calcTxHash Crypto.plain.sha3 false }, actionTxActionIPO, some 2,
    some (.publicOffering ⟨0, some 100, false, []⟩)⟩

def MessageNewActionTx.inOtherName : Bytes :=
  let tx := ActionTx.inOtherName
  0x91 :: ((actionHeadCodec .format false).append (tx.base, tx.action, tx.sender) ++
    (offeringCodec .format).append ⟨0, some 100, false, []⟩)

set_option maxRecDepth 2000 in
/-- The message is read, handled and passes the signature check. -/
theorem action_in_other_name :
    MessageNewActionTx.unmarshalMsg .format false MessageNewActionTx.inOtherName =
        .ok (some .inOtherName, []) ∧
      IncrementalSyncer.fresh.handle Crypto.plain (.actionTx (some .inOtherName)) =
        .ok [.action .inOtherName] ∧
      TxFormatVerifier.active.verify Crypto.plain ⟨.action .inOtherName, .none⟩ =
        .ok (true, ⟨.action .inOtherName, .format⟩) ∧
      Crypto.plain.addressFromPubKeyBytes ActionTx.inOtherName.base.publicKey = .ok 1 ∧
      (Txi.action .inOtherName).getSender = .ok (some 2) ∧
      ¬ SenderBound Crypto.plain (.action .inOtherName) := by
  refine ⟨rfl, rfl, rfl, rfl, rfl, ?_⟩
  rintro ⟨address, isAddress, isSender, _⟩
  cases isAddress
  cases isSender

end AnnchainOG.Wire
