import RecoveryService.ChangeTrigger.InFlight
import RecoveryService.ChangeTrigger.Merge
import RecoveryService.ChangeTrigger.Queue
import RecoveryService.ChangeTrigger.Pause
import RecoveryService.DorisEncryption.DueSchedules
import RecoveryService.BatchAuthorization.Revokes
import RecoveryService.BatchAuthorization.Extend
import RecoveryService.ApiOrchestration.Succeeds
import RecoveryService.SecurityAccess.Sources
import RecoveryService.SecurityAccess.Ciphertext
import RecoveryService.DataAutomation.Pipelines
import RecoveryService.DataAutomation.Dispatchers
import RecoveryService.DataAutomation.Protected
import RecoveryService.DataSync.WritesOnce
import RecoveryService.DataSync.Recovery
import RecoveryService.QueryExport.Cancelled
import RecoveryService.ResourcePermissions.Succeeded
import RecoveryService.DataPlatform.SubmittedVersions
import RecoveryService.DorisEncryption.OriginalRestored
import RecoveryService.DorisSm3Mapping.RowsReadable
import RecoveryService.DorisSm4Function.KeysRecorded
import RecoveryService.DorisCsvImport.ImportedRows
import RecoveryService.Sm4Batch.Admitted
import RecoveryService.Sm4Batch.RunSettled
import RecoveryService.Sm4Batch.Settled
import RecoveryService.DorisCsvImport.Orderly
import RecoveryService.Sm3Jobs.Orderly
import RecoveryService.MysqlRestore.Soundness
import RecoveryService.OracleImport.SafeNames
import RecoveryService.OracleImport.Verdict
import RecoveryService.RecoveryTasks.Orderly
import RecoveryService.ResourceProvisioning.Orderly
import RecoveryService.DatabaseCleanup.Confirmed
import RecoveryService.DorisSm3Mapping.RoundTrip
import RecoveryService.ChangeTrigger.Dispatched
import RecoveryService.RestorePlans.Safe
import RecoveryService.ApprovalAuthorization.Sound
import RecoveryService.AutoImport.Stops
import RecoveryService.ExportLog.Agree
import RecoveryService.AssistantExecution.Exclusion
import RecoveryService.AssistantExecution.Tokens
import RecoveryService.DataAutomation.Respected
import RecoveryService.AccessViews.Covered
import RecoveryService.AssistantExecution.AsConfirmed
import RecoveryService.ApiOrchestration.GraphExact
import RecoveryService.ApiOrchestration.Redaction
import RecoveryService.ApiOrchestration.SqlApi
import RecoveryService.DataPlatform.ExecutionOrder
import RecoveryService.DataPlatform.NextSchedule
import RecoveryService.DataSync.LoadedRows
import RecoveryService.DataAutomation.DumpFiles
import RecoveryService.DataAutomation.TraceLineage
import RecoveryService.DataPlatform.Folders
import RecoveryService.DorisSm4Function.Cipher
import RecoveryService.DataSync.SourcePolicy
import RecoveryService.BatchAuthorization.GrantEntries
import RecoveryService.DorisSqlEtl.SingleStatement
import RecoveryService.QueryExport.ExportSql
import RecoveryService.DataSync.SourceTypes
import RecoveryService.AutoImport.ProbeOutcomes
import RecoveryService.DorisCsvImport.Columns
import RecoveryService.ImportResult.Classifier
import RecoveryService.ResourceProvisioning.TokenCache
import RecoveryService.RestorePlans.DataFiles
import RecoveryService.AutoImport.Removal
import RecoveryService.DorisCsvImport.InferredTypes
import RecoveryService.DorisCsvImport.ScannedRows
import RecoveryService.OracleDumps.VolumeGroups
import RecoveryService.ApprovalAuthorization.Scans
import RecoveryService.DataSync.Delimiters
