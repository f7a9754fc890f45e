import Courier.Simulation.Scenario
import Courier.Remote.Address
import Courier.Remote.Buckets
import Courier.Remote.Mail
import Courier.Remote.Queue
import Courier.Proofs.AttemptOutcomes
import Courier.Proofs.StrandedJobs
import Courier.Proofs.RetryTimes
import Courier.Proofs.LateReports
import Courier.Proofs.Lifecycle
import Courier.Proofs.RacingReports
import Courier.Proofs.QueueHistory
import Courier.Proofs.Conservation
import Courier.Proofs.LeaseExclusivity
import Courier.Proofs.EmptyHanded
import Courier.Proofs.Succession
import Courier.Proofs.Resends
import Courier.Proofs.ConcurrentRecovery
import Courier.Proofs.FalteringRecovery
import Courier.Proofs.RateBound
import Courier.Proofs.Rollback
import Courier.Proofs.KeyIndependence
import Courier.Proofs.KeyModes
import Courier.Proofs.Unwelcome
import Courier.Proofs.AcceptedSettings
import Courier.Proofs.StoreReports
import Courier.Proofs.Watching
import Courier.Proofs.Chronology
import Courier.Proofs.Contents
import Courier.Proofs.JobTexts
import Courier.Proofs.Creation
import Courier.Proofs.Accounting
import Courier.Proofs.NeededJobs
import Courier.Proofs.Predictions
import Courier.Proofs.Bursts
import Courier.Proofs.Conflicts
import Courier.Proofs.Recipients
import Courier.Proofs.Escaping
import Courier.Proofs.NormalTexts
import Courier.Proofs.FailureCategories
