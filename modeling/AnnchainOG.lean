import AnnchainOG.State.Restart
import AnnchainOG.Ledger.Contracts
import AnnchainOG.Pool.Effects
import AnnchainOG.Ledger.Order
import AnnchainOG.Ledger.Issues
import AnnchainOG.Pool.Continuity
import AnnchainOG.Wire.Cached
import AnnchainOG.Wire.Balances
import AnnchainOG.Intake.Batches
import AnnchainOG.Intake.Waiting
import AnnchainOG.Intake.Sources
import AnnchainOG.Wire.Storage
import AnnchainOG.Consensus.Agreement
import AnnchainOG.Consensus.Service
import AnnchainOG.Pool.Spending
import AnnchainOG.Senate.Uniformity
import AnnchainOG.Senate.Partners
import AnnchainOG.Senate.Genesis
import AnnchainOG.Senate.Saved
import AnnchainOG.Senate.Orderly
import AnnchainOG.Pool.Parents
import AnnchainOG.Pool.Predecessors
import AnnchainOG.Pool.Undoing
import AnnchainOG.Pool.NonceHeap
import AnnchainOG.Intake.Sealing
import AnnchainOG.Ledger.Putter
import AnnchainOG.Wire.Keys
import AnnchainOG.Wire.TermInfo
