import Opngms.Dialogue
import Opngms.Json
import Opngms.ConfigDiff
import Opngms.Client
import Opngms.Apply
import Opngms.ConfigModel
import Opngms.World
import Opngms.Catalog
import Opngms.ConfigPush
import Opngms.Worker
import Opngms.ConfigRevert
import Opngms.ConfigApi
import Opngms.Guard
import Opngms.Moves
import Opngms.OwnRow
import Opngms.ApplyOnce
import Opngms.Proposals
import Opngms.Confinement
import Opngms.FalseConflict
import Opngms.InverseIdentity
import Opngms.RollbackPoint
import Opngms.Stranded
import Opngms.Recorded
import Opngms.Bystander
import Opngms.Together
import Opngms.ConfigPaths
import Opngms.HashDiff
import Opngms.MapReader
import Opngms.EditorKeys
import Opngms.EditorEdits
import Opngms.Ingest
import Opngms.Editor
import Opngms.Accepted
import Opngms.Schedule
import Opngms.Preview
import Opngms.Appliance
import Opngms.CatalogUndo
import Opngms.KeyedEdits
import Opngms.RecordRuns
import Opngms.RecordUndo
import Opngms.Retention
import Opngms.Reports
import Opngms.RetentionImpacts
import Opngms.EventRows
import Opngms.IngestRuns
import Opngms.Perimeter
import Opngms.PerimeterJobs
import Opngms.Calendar
import Opngms.ReportWindows
import Opngms.ReportJobs
import Opngms.Mfa
import Opngms.MfaRuns
import Opngms.Transactions
import Opngms.MfaRequests
import Opngms.MfaDiscipline
import Opngms.MfaRaces
import Opngms.MfaReset
import Opngms.Bootstrap
import Opngms.LoginLimiter
import Opngms.RowSecurity
import Opngms.TenantRequests
import Opngms.TenantContext
import Opngms.LogForwarding
import Opngms.ForwardingBoxes
import Opngms.RevocationList
import Opngms.Access
import Opngms.Keyset
import Opngms.TextCodecs
import Opngms.EventCursor
import Opngms.EventPages
import Opngms.SettingsRaces
import Opngms.SilentAlerts
import Opngms.PyText
import Opngms.CatalogProvider
import Opngms.CatalogOffline
import Opngms.CatalogDiff
import Opngms.RekeyRaces
import Opngms.FirmwareActions
import Opngms.FirmwareRaces
import Opngms.Overlay
import Opngms.ConfigDrift
import Opngms.DriftDevice
import Opngms.DriftReports
import Opngms.DriftHistories
import Opngms.Handlers
import Opngms.SnapshotDrift
import Opngms.ProfileSequence
import Opngms.StableSort
import Opngms.FlatTrees
import Opngms.PerimeterFolds
import Opngms.RunTimes
import Opngms.GroupedSums
import Opngms.Metrics
import Opngms.Bandwidth
import Opngms.GatewayAlerts
import Opngms.Tenths
import Opngms.Availability
import Opngms.ManagementIp
import Opngms.PollRows
import Opngms.FirmwarePolls
import Opngms.FirmwareUpgrades
import Opngms.FloorResolution
import Opngms.CatalogMalformed
import Opngms.RuntimeSettings
import Opngms.SessionLifetime
import Opngms.SlidingWindow
import Opngms.TotpCodes
import Opngms.Backtracking
import Opngms.EventKeys
import Opngms.PyValues
import Opngms.LogParsers
import Opngms.LogShapes
import Opngms.ParsersTotal
import Opngms.MenuMerge
import Opngms.CatalogDiffers
import Opngms.BusinessBase
import Opngms.EditRoundTrip
import Opngms.Addressable
import Opngms.CrlContent
import Opngms.LogLakePurge
import Opngms.PolicyRoundTrip
import Opngms.TemplateUpserts
import Opngms.TokenChecks
import Opngms.PublishedCatalogs
import Opngms.AuditQueries
import Opngms.UrlSafety
import Opngms.OrphanSweeps
import Opngms.LogPaging
import Opngms.ExcludedFields
import Opngms.GridClicks
import Opngms.RowRoundTrip
import Opngms.UneditedTemplates
import Opngms.WebauthnClient
import Opngms.Administration
