import AnnchainOG.Ledger.Confirmed
import AnnchainOG.Ledger.TokenBook
import AnnchainOG.Pool.Batch

/-!
# Accepted batches and their execution

The pool judges each action against the confirmed ledger. Whether a batch can be executed is decided
by a scan over the token records.
-/

namespace AnnchainOG

variable {batch : ConfirmBatch}

theorem Dag.mem_executionOrder {txi : Txi} (member : txi ∈ executionOrder batch) :
    ∃ tx ∈ batch.txs, txi = tx.setHeight batch.seq.base.height := by
  obtain ⟨tx, inSorted, rfl⟩ := List.mem_map.mp member
  exact ⟨tx, (sortTxis_perm batch.txs).mem_iff.mp inSorted, rfl⟩

theorem TxPool.confirmHelper_writable {pool : TxPool} {seq : Sequencer}
    (accepted : pool.confirmHelper seq = .ok batch) :
    ∀ txi ∈ Dag.executionOrder batch, txi.Writable := by
  obtain ⟨-, -, elders, -, verified⟩ := confirmHelper_ok accepted
  intro txi member
  obtain ⟨tx, inBatch, rfl⟩ := Dag.mem_executionOrder member
  rw [verified.isTxs] at inBatch
  rcases verified.passes tx (List.mem_of_mem_filter inBatch) with archive | ⟨sender, isSender, -⟩
  · exact .inl archive
  · exact .inr ⟨sender, isSender⟩

def Dag.genesis : Dag :=
  { Dag.empty with db := ⟨GoMap.set ∅ 100 Dag.empty.latestSequencer.txi, ∅⟩ }

def TxPool.genesis : TxPool := .init Dag.genesis Dag.genesis.latestSequencer

def TxPool.admit (pool : TxPool) (tx : Txi) : Except Panic TxPool :=
  (pool.submit .idle noFault .localTx tx).map Prod.snd

def Sequencer.confirming (parents : List Hash) : Sequencer :=
  ⟨⟨.sequencer, 101, parents, 1, 1, 0⟩, 9⟩

def actionOf (action : UInt8) (data : ActionData) : Txi :=
  ⟨⟨.action, 1, [100], 1, 0, 0⟩, .action ⟨action, 7, data⟩⟩

def issuing : Txi := actionOf actionTxActionIPO (.publicOffering ⟨0, 50, true, []⟩)

def requesting : Txi := actionOf actionRequestDomainName (.requestDomain [])

end AnnchainOG
