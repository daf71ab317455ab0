import Papaia.Data.Value
import Papaia.Data.Text
import Papaia.Lib.Checked
import Papaia.Lib.FirstSeen
import Papaia.Lib.Runs
import Papaia.Lib.Keyed
import Papaia.Lib.Remote
import Papaia.Lib.Gather
import Papaia.Lib.Announce
import Papaia.Backup.Zone
import Papaia.Backup.RestorePoint
import Papaia.Backup.Schedule
import Papaia.Backup.BackupRun
import Papaia.Backup.Scheduler
import Papaia.Proofs.Retention
import Papaia.Proofs.Cadence
import Papaia.Proofs.Scheduler
import Papaia.Ingest.Schema
import Papaia.Ingest.JobSpec
import Papaia.Ingest.Rules
import Papaia.Ingest.Catalog
import Papaia.Ingest.Leftovers
import Papaia.Ingest.JobsFile
import Papaia.Ingest.Changes
import Papaia.Ingest.Schedules
import Papaia.Ingest.Minimise
import Papaia.Ingest.JobForms
import Papaia.Ingest.ServiceWrites
import Papaia.Ingest.ManagedJobs
import Papaia.Ingest.CatalogLoad
import Papaia.Ingest.Uploads
import Papaia.Ingest.Transfers
import Papaia.Ingest.Embedding
import Papaia.Proofs.Merge
import Papaia.Proofs.Reading
import Papaia.Proofs.Minimise
import Papaia.Proofs.Schedules
import Papaia.Proofs.Editor
import Papaia.Proofs.CatalogSave
import Papaia.Proofs.Leftovers
import Papaia.Proofs.Rollback
import Papaia.Proofs.Changes
import Papaia.Proofs.Update
import Papaia.Proofs.ServiceWrites
import Papaia.Proofs.ManagedJobs
import Papaia.Proofs.CatalogLoad
import Papaia.Proofs.Embedding
import Papaia.Proofs.Transfers
import Papaia.Vectordb.Service
import Papaia.Vectordb.Access
import Papaia.Proofs.Connections
import Papaia.Proofs.Access
import Papaia.Rag.Qdrant
import Papaia.Rag.Collections
import Papaia.Proofs.Requests
import Papaia.Proofs.Roles
import Papaia.Proofs.CollectionNames
import Papaia.Backup.RestoreScope
import Papaia.Proofs.RestoreScope
import Papaia.Notifications.Detect
import Papaia.Proofs.Notices
import Papaia.Data.Semver
import Papaia.Notifications.Findings
import Papaia.Proofs.Debounce
import Papaia.Proofs.Markers
import Papaia.Proofs.Silence
import Papaia.Lib.Walk
import Papaia.Identity.Realm
import Papaia.Proofs.RoleGraph
import Papaia.Proofs.Lockout
import Papaia.Lib.Swap
import Papaia.Config.Overlay
import Papaia.Config.OverlayJob
import Papaia.Proofs.OverlayJob
import Papaia.Stack.Requests
import Papaia.Proofs.Owner
import Papaia.Lib.Sorted
import Papaia.Jobs.Queue
import Papaia.Proofs.JobQueue
import Papaia.Auth.Session
import Papaia.Auth.StepUp
import Papaia.Proofs.StepUp
import Papaia.Auth.Renewal
import Papaia.Auth.SignOut
import Papaia.Proofs.Renewal
import Papaia.Proofs.SignOut
import Papaia.Lib.Cached
import Papaia.Stack.Status
import Papaia.Proofs.Status
import Papaia.Lib.Lines
import Papaia.Addons.EnvFile
import Papaia.Addons.EnvForms
import Papaia.Proofs.EnvForms
import Papaia.Addons.EnvValidate
import Papaia.Proofs.EnvRoundTrip
import Papaia.Audit.Log
import Papaia.Proofs.AuditLog
import Papaia.Mail.Settings
import Papaia.Mail.Service
import Papaia.Proofs.MailPassword
import Papaia.Editors.Tiles
import Papaia.Editors.Settings
import Papaia.Editors.Requests
import Papaia.Proofs.TilesRoundTrip
import Papaia.Proofs.Documents
import Papaia.Data.Spelling
import Papaia.Backup.Cron
import Papaia.Proofs.CronFields
import Papaia.Proofs.Presets
import Papaia.Accounts.Preferences
import Papaia.Proofs.Preferences
import Papaia.Lib.Binary64
import Papaia.Host.Numbers
import Papaia.Host.Doctor
import Papaia.Host.DockerUsage
import Papaia.Proofs.Doctor
import Papaia.Host.NodeHealth
import Papaia.Proofs.NodeHealth
import Papaia.Proofs.Switch
import Papaia.Config.Modules
import Papaia.Proofs.ModuleJobs
import Papaia.Jobs.Output
import Papaia.Proofs.JobOutput
import Papaia.Addons.Upgrades
import Papaia.Proofs.Upgrades
import Papaia.Data.Numerals
import Papaia.Proofs.EnvValidate
import Papaia.Proofs.DocumentsJail
import Papaia.Proofs.Selection
import Papaia.Proofs.Resolve
import Papaia.Proofs.RoleUpdate
import Papaia.Addons.Publish
import Papaia.Proofs.Publish
import Papaia.Lib.Disk
import Papaia.Addons.Prune
import Papaia.Proofs.Prune
import Papaia.Ingest.Secrets
import Papaia.Proofs.Secrets
import Papaia.Stack.Phases
import Papaia.Proofs.Phases
import Papaia.Data.VersionKey
import Papaia.Proofs.VersionOrder
import Papaia.Editors.SettingsFile
import Papaia.Proofs.SettingsFile
import Papaia.Proofs.WidgetIds
import Papaia.Data.PyText
import Papaia.Editors.TilesFile
import Papaia.Proofs.TilesFile
import Papaia.Stack.Services
import Papaia.Proofs.Services
import Papaia.Stack.ModelUsage
import Papaia.Proofs.UsageNumbers
import Papaia.Proofs.UsageTotals
import Papaia.Proofs.ModelUsage
import Papaia.Proofs.NotificationStore
import Papaia.Proofs.NotificationService
import Papaia.Proofs.NoticesApart
import Papaia.Proofs.NotificationLoop
import Papaia.Proofs.Detached
import Papaia.Proofs.UpgradeStart
import Papaia.Lib.SharedRead
import Papaia.Widgets.Runtime
import Papaia.Stack.ModelReadings
import Papaia.Proofs.WidgetReadings
import Papaia.Proofs.ModelReadings
import Papaia.Auth.Keys
import Papaia.Proofs.TokenChecks
import Papaia.Proofs.KeyFetches
import Papaia.Proofs.Keys
