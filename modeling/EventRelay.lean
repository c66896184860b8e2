import EventRelay.Main
import EventRelay.Payload.Notation
import EventRelay.Proofs.Store.Operations
import EventRelay.Simulation.PeriodicRun
import EventRelay.Simulation.Rehearsal
import EventRelay.Simulation.RetryRun
import EventRelay.Store.Address
import EventRelay.Proofs.Publisher.Units
import EventRelay.Proofs.Publisher.Effects
import EventRelay.Proofs.Publisher.Bookkeeping
import EventRelay.Proofs.Publisher.Custody
import EventRelay.Proofs.Publisher.KeyOrder
import EventRelay.Proofs.Publisher.Play
import EventRelay.Proofs.Publisher.LateReconcile
import EventRelay.Proofs.Publisher.Returns
import EventRelay.Proofs.Publisher.Rounds
import EventRelay.Proofs.Publisher.Completion
import EventRelay.Proofs.Publisher.AtLeastOnce
import EventRelay.Proofs.Publisher.RetryBound
import EventRelay.Proofs.Store.Claiming
import EventRelay.Proofs.Store.Isolation
import EventRelay.Proofs.Handler.Effect
import EventRelay.Proofs.Handler.Calls
import EventRelay.Proofs.Handler.Reaction
import EventRelay.Proofs.Handler.Convergence
import EventRelay.Proofs.Stream.Entries
import EventRelay.Proofs.Stream.Members
import EventRelay.Proofs.Consumer.Letters
import EventRelay.Proofs.Consumer.Run
import EventRelay.Proofs.Consumer.Custody
import EventRelay.Proofs.Consumer.NoLoss
import EventRelay.Proofs.Existence.Run
import EventRelay.Proofs.Existence.Eviction
import EventRelay.Proofs.Existence.Play
import EventRelay.Proofs.Existence.Trial
import EventRelay.Proofs.Existence.Outcomes
import EventRelay.Proofs.Existence.Memory
import EventRelay.Proofs.Existence.Answers
import EventRelay.Proofs.Service.ChangeAndEvent
import EventRelay.Proofs.Service.UserEvents
import EventRelay.Proofs.Deployment.Orphans
import EventRelay.Proofs.Payload.Decoding
import EventRelay.Proofs.Shifts.PartitionOrder
import EventRelay.Proofs.Service.Announcing
import EventRelay.Proofs.Retry.Attempts
import EventRelay.Proofs.Publisher.TickAlone
import EventRelay.Proofs.Reclaim.Fairness
import EventRelay.Proofs.Breaker.History
import EventRelay.Proofs.Plan.Runs
import EventRelay.Proofs.Existence.OneCheck
import EventRelay.Proofs.Time.Clock
import EventRelay.Proofs.Periodic.History
import EventRelay.Proofs.Periodic.Ticks
import EventRelay.Proofs.Periodic.Calls
import EventRelay.Proofs.Backlog.Run
import EventRelay.Proofs.Backlog.Phase
import EventRelay.Proofs.Backlog.Drained
import EventRelay.Proofs.Handler.FreeText
import EventRelay.Proofs.Existence.Responses
import EventRelay.Proofs.Stream.Arrival
import EventRelay.Proofs.Backlog.Ends
import EventRelay.Proofs.Backlog.Undisturbed
import EventRelay.Proofs.Handler.Places
