import AnnchainOG.Ledger.Dag

/-!
# Account flows

Per sender, the pool lists the pooled transactions by nonce and adds up what they spend.
-/

namespace AnnchainOG

open List

/-- The transactions by nonce, without the key heap of the source. -/
structure TxList where
  txflow : List Txi
  distinct : (txflow.map Txi.getNonce).Nodup

namespace TxList

variable {list : TxList} {tx : Txi}
variable {nonce : UInt64}

def empty : TxList := ⟨[], List.nodup_nil⟩

def keys (list : TxList) : List UInt64 := list.txflow.map Txi.getNonce

def get (list : TxList) (nonce : UInt64) : Option Txi :=
  list.txflow.find? fun tx => tx.getNonce == nonce

theorem get_eq_some_iff : list.get nonce = some tx ↔ tx ∈ list.txflow ∧ tx.getNonce = nonce := by
  constructor
  · intro found
    exact ⟨mem_of_find?_eq_some found, by simpa using find?_some found⟩
  · rintro ⟨member, rfl⟩
    cases found : list.get tx.getNonce with
    | none => simpa using find?_eq_none.mp found tx member
    | some other =>
      have otherMember : other ∈ list.txflow := mem_of_find?_eq_some found
      have sameNonce : other.getNonce = tx.getNonce := by simpa using find?_some found
      rw [inj_on_of_nodup_map list.distinct otherMember member sameNonce]

theorem notMem_of_get_eq_none (missing : list.get nonce = none) : nonce ∉ list.keys := by
  intro member
  obtain ⟨tx, inFlow, isNonce⟩ := mem_map.mp member
  simpa [isNonce] using find?_eq_none.mp missing tx inFlow

def put (list : TxList) (tx : Txi) : TxList :=
  match missing : list.get tx.getNonce with
  | some _ => list
  | none => ⟨list.txflow ++ [tx], by
      rw [List.map_append, List.map_singleton]
      refine List.nodup_append'.mpr ⟨list.distinct, List.nodup_singleton _, ?_⟩
      simpa [keys] using notMem_of_get_eq_none missing⟩

def remove (list : TxList) (nonce : UInt64) : TxList :=
  ⟨list.txflow.filter fun tx => tx.getNonce != nonce,
    list.distinct.sublist (List.filter_sublist.map _)⟩

def latestNonce (list : TxList) : Option UInt64 :=
  list.keys.max?

theorem put_of_some {other : Txi} (present : list.get tx.getNonce = some other) :
    list.put tx = list := by
  unfold put
  split
  · rfl
  rename_i missing
  rw [present] at missing
  cases missing

theorem put_of_none (missing : list.get tx.getNonce = none) :
    (list.put tx).txflow = list.txflow ++ [tx] := by
  unfold put
  split
  next present =>
    rw [missing] at present
    cases present
  · rfl

theorem get_put (list : TxList) (tx : Txi) (nonce : UInt64) :
    (list.put tx).get nonce =
      (list.get nonce).or (if tx.getNonce = nonce then some tx else none) := by
  cases found : list.get tx.getNonce with
  | some other =>
    rw [put_of_some found]
    split
    next same =>
      rw [← same, found]
      rfl
    · rw [Option.or_none]
  | none => simp only [get, put_of_none found, find?_append, find?_singleton, beq_iff_eq]

end TxList

structure BalanceState where
  spent : Int
  originBalance : Int

def newBalanceState (balance : Int) : BalanceState := ⟨0, balance⟩

inductive FlowError where
  | alreadyExists
  | accountflowNotExists (addr : Address)
  | balanceNotEnough
  | tooMuchToRemove (spent value : Int)
  deriving DecidableEq

namespace BalanceState

def trySubBalance (state : BalanceState) (value : Int) : Except FlowError BalanceState :=
  if state.spent + value > state.originBalance then .error .balanceNotEnough
  else .ok { state with spent := state.spent + value }

def tryRemoveValue (state : BalanceState) (value : Int) : Except FlowError BalanceState :=
  if state.spent < value then .error (.tooMuchToRemove state.spent value)
  else .ok ⟨state.spent - value, state.originBalance - value⟩

end BalanceState

structure AccountFlow where
  balances : GoMap TokenId BalanceState
  txlist : TxList

def newAccountFlow : AccountFlow := ⟨∅, .empty⟩

variable (flow : AccountFlow)

namespace AccountFlow

def put (tx : Txi) : AccountFlow :=
  { flow with txlist := flow.txlist.put tx }

def add (tx : Txi) : Except Panic (Except FlowError Unit × AccountFlow) :=
  if (flow.txlist.get tx.getNonce).isSome then .ok (.error .alreadyExists, flow)
  else if tx.getType ≠ .normal then .ok (.ok (), flow.put tx)
  else
    match tx.body with
    | .tx txnormal =>
      match flow.balances.get? txnormal.tokenId with
      | none => .ok (.error (.accountflowNotExists txnormal.sender), flow.put tx)
      | some state =>
        match state.trySubBalance txnormal.value with
        | .error error => .ok (.error error, flow)
        | .ok state =>
          .ok (.ok (), { flow.put tx with
            balances := flow.balances.set txnormal.tokenId state })
    | _ => .error .typeAssertion

def removeTx (nonce : UInt64) : AccountFlow :=
  { flow with txlist := flow.txlist.remove nonce }

def remove (nonce : UInt64) : Except Panic (Except FlowError Unit × AccountFlow) :=
  match flow.txlist.get nonce with
  | none => .ok (.ok (), flow)
  | some tx =>
    if tx.getType ≠ .normal then .ok (.ok (), flow.removeTx nonce)
    else
      match tx.body with
      | .tx txnormal =>
        match flow.balances.get? txnormal.tokenId with
        | none =>
          .ok (.error (.accountflowNotExists txnormal.sender), flow.removeTx nonce)
        | some state =>
          match state.tryRemoveValue txnormal.value with
          | .error error => .ok (.error error, flow)
          | .ok state =>
            .ok (.ok (), { flow.removeTx nonce with
              balances := flow.balances.set txnormal.tokenId state })
      | _ => .error .typeAssertion

end AccountFlow

abbrev AccountFlows := GoMap Address AccountFlow

variable (flows : AccountFlows) (addr : Address)

namespace AccountFlows

def getBalanceState (tokenID : TokenId) : Option BalanceState :=
  (flows.get? addr).bind fun flow => flow.balances.get? tokenID

def getTxByNonce (nonce : UInt64) : Option Txi :=
  (flows.get? addr).bind fun flow => flow.txlist.get nonce

def getLatestNonce : Option UInt64 :=
  (flows.get? addr).bind fun flow => flow.txlist.latestNonce

def resetFlow : AccountFlows :=
  flows.set addr newAccountFlow

def ensureFlow : AccountFlows :=
  if flows.contains addr then flows else flows.resetFlow addr

def openBalance (dag : Dag) (flow : AccountFlow) (tx : Txi) : Except Panic AccountFlow :=
  if tx.getType = .normal then
    match tx.body with
    | .tx txn =>
      if flow.balances.contains txn.tokenId then .ok flow
      else
        let blc := dag.getBalance txn.sender txn.tokenId
        .ok { flow with balances := flow.balances.set txn.tokenId (newBalanceState blc) }
    | _ => .error .typeAssertion
  else .ok flow

/-- The error of `AccountFlow.Add` is dropped. -/
def add (dag : Dag) (flows : AccountFlows) (tx : Txi) : Except Panic AccountFlows :=
  if tx.getType = .archive then .ok flows
  else do
    let sender ← tx.sender
    let flow ← openBalance dag ((flows.get? sender).getD newAccountFlow) tx
    let (_, flow) ← flow.add tx
    return flows.set sender flow

def remove (tx : Txi) : Except Panic AccountFlows := do
  let sender ← tx.sender
  match flows.get? sender with
  | none => return flows
  | some flow =>
    let (_, flow) ← flow.remove tx.getNonce
    if flow.txlist.txflow = [] then return flows.delete sender
    else return flows.set sender flow

end AccountFlows

end AnnchainOG
