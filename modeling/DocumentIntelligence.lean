import DocumentIntelligence.Transition
import DocumentIntelligence.PageCheckpoint
import DocumentIntelligence.WorkScopes
import DocumentIntelligence.Schema
import DocumentIntelligence.Uploads
import DocumentIntelligence.Jobs
import DocumentIntelligence.PageWorkflowStore
import DocumentIntelligence.UploadScopes
import DocumentIntelligence.Outbox
import DocumentIntelligence.Commands
import DocumentIntelligence.DeliveryLedger
import DocumentIntelligence.Deliveries
import DocumentIntelligence.OutboxExhaustion
import DocumentIntelligence.OutboxStatements
import DocumentIntelligence.OutboxConcurrency
import DocumentIntelligence.Json
import DocumentIntelligence.Dispatch
import DocumentIntelligence.JobConsistency
import DocumentIntelligence.CommandDelivery
import DocumentIntelligence.BatchRounds
import DocumentIntelligence.PageRounds
import DocumentIntelligence.PagePasses
import DocumentIntelligence.DurableWorkflow
import DocumentIntelligence.IterationBudget
import DocumentIntelligence.CheckpointText
import DocumentIntelligence.JobLifecycle
import DocumentIntelligence.PageWorkers
import DocumentIntelligence.PageAgreement
import DocumentIntelligence.CancellationFinality
import DocumentIntelligence.UploadLifecycle
import DocumentIntelligence.JobStatusCache
import DocumentIntelligence.GeometryContract
import DocumentIntelligence.RateLimits
import DocumentIntelligence.DocumentPages
import DocumentIntelligence.ObjectStorage
import DocumentIntelligence.PageArtifacts
import DocumentIntelligence.CrashReplay
import DocumentIntelligence.AcceptanceRaces
import DocumentIntelligence.AccessGrants
import DocumentIntelligence.CanonicalJson
import DocumentIntelligence.Deskew
import DocumentIntelligence.Detection
import DocumentIntelligence.DocumentResults
import DocumentIntelligence.Finalization
import DocumentIntelligence.FinalizerRaces
import DocumentIntelligence.ArtifactReading
import DocumentIntelligence.ResultSizes
import DocumentIntelligence.HeldDocuments
import DocumentIntelligence.JsonSchema
import DocumentIntelligence.NativePageRaces
import DocumentIntelligence.NativeText
import DocumentIntelligence.NutritionCells
import DocumentIntelligence.NutritionPanels
import DocumentIntelligence.ResultSchema
import DocumentIntelligence.WrittenQuantities
import DocumentIntelligence.PageAttributes
import DocumentIntelligence.VersionColumns
import DocumentIntelligence.PageOrder
import DocumentIntelligence.BigEndian
import DocumentIntelligence.PngMetadata
import DocumentIntelligence.MalwareScan
import DocumentIntelligence.ContentVerification
import DocumentIntelligence.TextAnchors
import DocumentIntelligence.RecordedTransforms
import DocumentIntelligence.PageAssembly
import DocumentIntelligence.RankedSelection
import DocumentIntelligence.DetectionOrder
import DocumentIntelligence.InspectionGate
import DocumentIntelligence.TenantNoninterference
import DocumentIntelligence.TensorEnvelope
import DocumentIntelligence.ErrorRates
import DocumentIntelligence.Barcodes
import DocumentIntelligence.BenchmarkScoring
import DocumentIntelligence.FinalizationActivity
import DocumentIntelligence.DurableFinalization
import DocumentIntelligence.ScopeTurns
import DocumentIntelligence.ServedResults
import DocumentIntelligence.WebhookEvents
import DocumentIntelligence.ImageQuality
import DocumentIntelligence.JobRequests
import DocumentIntelligence.PageSources
import DocumentIntelligence.ManagedRecognition
import DocumentIntelligence.UploadCompletion
