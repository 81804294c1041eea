import ConsensusLink.Cache.Service
import ConsensusLink.Main
import ConsensusLink.Promise.Timeline
import ConsensusLink.Rpc.Server
import ConsensusLink.Sequencer.LogView
import ConsensusLink.Proofs.Client.Settling
import ConsensusLink.Proofs.Client.Advance
import ConsensusLink.Proofs.Client.Aside
import ConsensusLink.Proofs.Node.Contract
import ConsensusLink.Proofs.Progress.Consistency
import ConsensusLink.Proofs.Sequencing.Durability
import ConsensusLink.Proofs.Sequencing.Failure
import ConsensusLink.Proofs.Sequencing.Tail
import ConsensusLink.Proofs.Progress.Recording
import ConsensusLink.Proofs.Pool.Queueing
import ConsensusLink.Proofs.Progress.Callers
import ConsensusLink.Proofs.Cache.Finality
import ConsensusLink.Proofs.Client.Settlements
import ConsensusLink.Proofs.Node.Monitored
import ConsensusLink.Proofs.Sequencing.Gate
import ConsensusLink.Proofs.Sequencing.Order
import ConsensusLink.Proofs.Sequencing.Intake
import ConsensusLink.Proofs.Client.Closing
import ConsensusLink.Proofs.Progress.Mark
import ConsensusLink.Proofs.Cache.SingleFlight
import ConsensusLink.Proofs.Text.Reading
import ConsensusLink.Proofs.Wire.Records
import ConsensusLink.Proofs.Wire.Failures
import ConsensusLink.Proofs.Wire.Messages
import ConsensusLink.Proofs.Cache.Provenance
import ConsensusLink.Proofs.Promise.Agenda
import ConsensusLink.Proofs.Promise.History
import ConsensusLink.Proofs.Promise.Performance
import ConsensusLink.Proofs.Promise.SingleAssignment
import ConsensusLink.Proofs.Sequencing.Resync
import ConsensusLink.Proofs.Pool.Settlement
import ConsensusLink.Proofs.Progress.Isolation
import ConsensusLink.Proofs.Client.Shutdown
import ConsensusLink.Proofs.Wire.Causes
import ConsensusLink.Proofs.Sequencing.Status
import ConsensusLink.Proofs.Sequencing.Delivery
import ConsensusLink.Proofs.Node.Overheard
import ConsensusLink.Proofs.Cache.Holding
import ConsensusLink.Proofs.Cache.Reads
import ConsensusLink.Proofs.Cache.Retention
import ConsensusLink.Proofs.Progress.Reporting
import ConsensusLink.Proofs.Promise.Mapping
import ConsensusLink.Proofs.Promise.Tasks
import ConsensusLink.Proofs.Promise.Turns
import ConsensusLink.Proofs.Promise.Removal
import ConsensusLink.Proofs.Promise.Scripts
import ConsensusLink.Proofs.Promise.Waiting
import ConsensusLink.Proofs.Retry.Growth
import ConsensusLink.Proofs.Retry.Loop
