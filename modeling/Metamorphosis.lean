import Metamorphosis.Construction.RaftNode
import Metamorphosis.Construction.MetamorphosisNode
import Metamorphosis.Proof.Raft.Acknowledgements
import Metamorphosis.Proof.Queue.FullCopies
import Metamorphosis.Proof.Queue.Answers
import Metamorphosis.Proof.Queue.Retries
import Metamorphosis.Proof.Queue.Traffic
import Metamorphosis.Proof.Clients.Linearizable
import Metamorphosis.Proof.Raft.Bookkeeping
import Metamorphosis.Proof.Simulator.Storage
import Metamorphosis.Proof.QueueService
import Metamorphosis.Proof.QueueStorage
import Metamorphosis.Proof.Simulator.Isolation
import Metamorphosis.Proof.Simulator.Inheritance
import Metamorphosis.Proof.Simulator.EventQueue
import Metamorphosis.Proof.Simulator.Arrivals
import Metamorphosis.Proof.Simulator.Links
import Metamorphosis.Proof.Parse
import Metamorphosis.Proof.History.Oracle
import Metamorphosis.Proof.History.RoundTrip
import Metamorphosis.Proof.Simulator.Drift
import Metamorphosis.Proof.Simulator.Opening
import Metamorphosis.Proof.Simulator.Batches
import Metamorphosis.Proof.Cancellation
import Metamorphosis.Proof.Queue.Reads
import Metamorphosis.Proof.Raft.Reconciliation
import Metamorphosis.Proof.Raft.Replicas
import Metamorphosis.Proof.Raft.Waiting
import Metamorphosis.Proof.Terms
import Metamorphosis.Proof.Raft.Recovery
import Metamorphosis.Proof.Simulator.ShutDown
import Metamorphosis.Proof.Simulator.Serving
import Metamorphosis.Proof.Queue.Offsets
import Metamorphosis.Proof.Clients.Attempts
import Metamorphosis.Proof.Databases
