import ScheduledJobs.Machine
import ScheduledJobs.CassandraApplyOnce
import ScheduledJobs.CassandraExactlyOnce
import ScheduledJobs.Dict
import ScheduledJobs.ReduceVisibility
import ScheduledJobs.Lifecycle
import ScheduledJobs.AttemptMap
import ScheduledJobs.RaisedFindings
import ScheduledJobs.TerminalStability
import ScheduledJobs.SchedulerModel
import ScheduledJobs.SchedulerService
import ScheduledJobs.SchedulerMachine
import ScheduledJobs.SchedulerSteps
import ScheduledJobs.QueueInvariant
import ScheduledJobs.QueueConstraints
import ScheduledJobs.OutboxCompleteness
import ScheduledJobs.ClaimFencing
import ScheduledJobs.JsonObject
import ScheduledJobs.CivilTime
import ScheduledJobs.Sha256
import ScheduledJobs.WireCodec
import ScheduledJobs.LifecycleSimulation
import ScheduledJobs.LosslessWire
import ScheduledJobs.VisibilitySimulation
import ScheduledJobs.OutboxHistory
import ScheduledJobs.DeliveryOrder
import ScheduledJobs.RetryAdvertisement
import ScheduledJobs.StatusEvidence
import ScheduledJobs.SubmissionProgress
import ScheduledJobs.TimestampBackfill
import ScheduledJobs.AttemptSequence
import ScheduledJobs.VisibilityEngine
import ScheduledJobs.BudgetAgreement
import ScheduledJobs.OutcomeFinality
import ScheduledJobs.ConflictFlag
import ScheduledJobs.LifecycleViolations
import ScheduledJobs.RetriesSpent
import ScheduledJobs.OrphanReservations
import ScheduledJobs.CassandraOwnership
import ScheduledJobs.Redelivery
import ScheduledJobs.OptimisticWriters
import ScheduledJobs.Batches
import ScheduledJobs.EdrStore
import ScheduledJobs.EdrJournal
import ScheduledJobs.JournalBatches
import ScheduledJobs.Projectors
import ScheduledJobs.ConcurrentProjectors
import ScheduledJobs.ProjectionGrowth
import ScheduledJobs.Reconciliation
import ScheduledJobs.RunningTimeout
import ScheduledJobs.AcknowledgementTimeouts
import ScheduledJobs.IncrementalProjection
import ScheduledJobs.OutboxPublisher
import ScheduledJobs.OutboxPublication
import ScheduledJobs.DurableReader
import ScheduledJobs.DurableAgreement
import ScheduledJobs.RefusedEvents
import ScheduledJobs.TimeDerivedView
import ScheduledJobs.OptimisticRetry
import ScheduledJobs.SortedQueues
import ScheduledJobs.PollingScheduler
import ScheduledJobs.BatchedPolling
import ScheduledJobs.IdempotentSubmission
import ScheduledJobs.StatefulPrograms
import ScheduledJobs.SchedulerWorker
import ScheduledJobs.BinaryRounding
import ScheduledJobs.PublishFailures
import ScheduledJobs.MixedTimestamps
import ScheduledJobs.MixedProjection
import ScheduledJobs.MixedEngine
import ScheduledJobs.AtomicApply
import ScheduledJobs.AnswerableQueries
import ScheduledJobs.MixedInstants
import ScheduledJobs.CassandraHandler
import ScheduledJobs.DatabaseOwnership
import ScheduledJobs.FaultInjector
import ScheduledJobs.EdrSink
import ScheduledJobs.JobEvidence
import ScheduledJobs.Pipeline
import ScheduledJobs.PipelineJournal
import ScheduledJobs.PipelineProgress
import ScheduledJobs.PipelineStatus
import ScheduledJobs.EdrSchema
import ScheduledJobs.HealthChecks
import ScheduledJobs.SchedulerProgress
import ScheduledJobs.ConcurrentInjection
import ScheduledJobs.AppliedUpdates
