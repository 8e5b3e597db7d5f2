import CustomDomain.ActiveOrigins
import CustomDomain.ApiKeys
import CustomDomain.ApplicationDeletion
import CustomDomain.ApplicationService
import CustomDomain.ApplyUrl
import CustomDomain.AssertionKeys
import CustomDomain.AssertionSdk
import CustomDomain.Assertions
import CustomDomain.AuditRuns
import CustomDomain.AuditSafety
import CustomDomain.AuditTrail
import CustomDomain.Base64
import CustomDomain.BudgetRuns
import CustomDomain.CaddyConfigurator
import CustomDomain.CaddyTemplate
import CustomDomain.CanonicalNames
import CustomDomain.ChallengeNames
import CustomDomain.ClaimFlow
import CustomDomain.ConnectLimits
import CustomDomain.ConnectReturn
import CustomDomain.ConnectSessions
import CustomDomain.CredentialLimiter
import CustomDomain.DnsChecks
import CustomDomain.DomainConnect
import CustomDomain.DomainLimits
import CustomDomain.DomainPages
import CustomDomain.DomainService
import CustomDomain.DomainStatements
import CustomDomain.DoubleRounding
import CustomDomain.EdgeChecks
import CustomDomain.EdgeConfig
import CustomDomain.EdgeDecisions
import CustomDomain.EdgeGateway
import CustomDomain.EdgeLocks
import CustomDomain.EdgeNames
import CustomDomain.EdgeOrigins
import CustomDomain.EdgeRuns
import CustomDomain.EdgeSettings
import CustomDomain.EventHistory
import CustomDomain.EventStatements
import CustomDomain.ExpositionFormat
import CustomDomain.FailedAuthLimiter
import CustomDomain.ForgivingBase64
import CustomDomain.GatewayAcceptance
import CustomDomain.GatewayCompleteness
import CustomDomain.GatewayRoutes
import CustomDomain.GuardedRuns
import CustomDomain.Hostname
import CustomDomain.IdempotentCreates
import CustomDomain.IpNetworks
import CustomDomain.IssuedRecords
import CustomDomain.JavaScript
import CustomDomain.JsonEquality
import CustomDomain.JsonText
import CustomDomain.KeyRotation
import CustomDomain.KeyedRows
import CustomDomain.LedgerStatements
import CustomDomain.LegacyImport
import CustomDomain.LegacyImportRuns
import CustomDomain.Lifecycle
import CustomDomain.LifecycleSafety
import CustomDomain.LifecycleStatements
import CustomDomain.NotificationRuns
import CustomDomain.OriginVerification
import CustomDomain.OwnershipGrace
import CustomDomain.PinnedDials
import CustomDomain.PortalHistory
import CustomDomain.PortalSessions
import CustomDomain.ProvisioningRuns
import CustomDomain.PrunedWindows
import CustomDomain.PublishedRecords
import CustomDomain.PythonIpAddress
import CustomDomain.PythonJson
import CustomDomain.PythonText
import CustomDomain.PythonUrl
import CustomDomain.RateLimits
import CustomDomain.ReconcileLock
import CustomDomain.Reconciliation
import CustomDomain.Records
import CustomDomain.RegistrationStatements
import CustomDomain.Retention
import CustomDomain.RouteGroups
import CustomDomain.RoutingChecks
import CustomDomain.RowChanges
import CustomDomain.SdkClient
import CustomDomain.SdkMiddleware
import CustomDomain.SecretRotation
import CustomDomain.ServiceChanges
import CustomDomain.ServiceRuns
import CustomDomain.SlidingWindow
import CustomDomain.SqlLike
import CustomDomain.StoredZones
import CustomDomain.SubscriptionCap
import CustomDomain.SuccessorWalks
import CustomDomain.TargetReissue
import CustomDomain.Traffic
import CustomDomain.TrafficRecords
import CustomDomain.TrafficRuns
import CustomDomain.TransactionInterleaving
import CustomDomain.TransactionProgram
import CustomDomain.TransactionRely
import CustomDomain.TransactionSerial
import CustomDomain.WebhookAttempts
import CustomDomain.WebhookLeases
import CustomDomain.WebhookReplays
import CustomDomain.WebhookService
import CustomDomain.WebhookSignatures
import CustomDomain.WebhookStatements
import CustomDomain.WebhookStream
import CustomDomain.WebhookWorker
import CustomDomain.Worker
import CustomDomain.WorkerClaims
import CustomDomain.WorkerLeases
import CustomDomain.WorkerRaces
import CustomDomain.WorkerRuns
import CustomDomain.WorkerStatements
import CustomDomain.Zones
