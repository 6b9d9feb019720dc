import GuffSuff.TokenFamilies
import GuffSuff.Logout
import GuffSuff.HonestClient
import GuffSuff.IssuedTokens
import GuffSuff.RotationProgress
import GuffSuff.Acknowledgement
import GuffSuff.ConcurrentSubmissions
import GuffSuff.Deduplication
import GuffSuff.HandleLifecycle
import GuffSuff.HandleFreshness
import GuffSuff.PinChanges
import GuffSuff.ProvenPhones
import GuffSuff.ConversationBounds
import GuffSuff.PassedIdentities
import GuffSuff.StateTransfer
import GuffSuff.ConversationPairs
import GuffSuff.Convergence
import GuffSuff.Accounts
import GuffSuff.Isolation
import GuffSuff.RevokedDevices
import GuffSuff.PayloadTransport
import GuffSuff.RoomMembership
import GuffSuff.AcceptedSubmissions
import GuffSuff.ProviderSimulation
import GuffSuff.SessionLifetime
import GuffSuff.SecurityAlerts
import GuffSuff.AtomicRegistration
import GuffSuff.PooledRegistrations
import GuffSuff.LogoutEverywhere
import GuffSuff.FailingRotations
import GuffSuff.ExpiredDeliveries
import GuffSuff.RepeatedAcknowledgements
import GuffSuff.RetryCap
import GuffSuff.InvisibleJobs
import GuffSuff.ReadStates
import GuffSuff.PayloadLimit
import GuffSuff.StorableRequests
import GuffSuff.ResendTimes
import GuffSuff.DailyRequests
import GuffSuff.Lockouts
import GuffSuff.ImportGrammar
import GuffSuff.ProviderStates
import GuffSuff.MigrationRuns
import GuffSuff.RegistrationProgress
import GuffSuff.MessagingProgress
import GuffSuff.DeviceHistory
import GuffSuff.AccountDirectory
import GuffSuff.AlertFeed
import GuffSuff.EnvelopeAnswers
import GuffSuff.DeviceRequests
