import LinuxPatchApi.Lib.Transition
import LinuxPatchApi.Lib.EventLog
import LinuxPatchApi.Lib.Entries
import LinuxPatchApi.Lib.FinMap
import LinuxPatchApi.Lib.Text
import LinuxPatchApi.Lib.Lines
import LinuxPatchApi.Lib.Decimal
import LinuxPatchApi.Lib.Search
import LinuxPatchApi.Lib.Recent
import LinuxPatchApi.Lib.Overwrite
import LinuxPatchApi.Lib.Fields
import LinuxPatchApi.Lib.Words
import LinuxPatchApi.Lib.Prog
import LinuxPatchApi.Lib.Checks
import LinuxPatchApi.Lib.Paths
import LinuxPatchApi.Lib.Disk
import LinuxPatchApi.Lib.Gcra
import LinuxPatchApi.Lib.Notify
import LinuxPatchApi.Net
import LinuxPatchApi.Packages.ErrorUtils
import LinuxPatchApi.Files
import LinuxPatchApi.Rewrites
import LinuxPatchApi.Packages.Coordinator
import LinuxPatchApi.Packages.Backend
import LinuxPatchApi.Packages.System
import LinuxPatchApi.Packages.Apt
import LinuxPatchApi.Packages.Apk
import LinuxPatchApi.Packages.Rpm
import LinuxPatchApi.Packages.Pacman
import LinuxPatchApi.Packages.Locks
import LinuxPatchApi.Packages.CommandRuns
import LinuxPatchApi.Packages.Guarded
import LinuxPatchApi.Packages.Cache
import LinuxPatchApi.Packages.CacheFile
import LinuxPatchApi.Packages.Identifiers
import LinuxPatchApi.Packages.AptListing
import LinuxPatchApi.Packages.AptSteps
import LinuxPatchApi.Packages.HeldPackages
import LinuxPatchApi.Packages.Deadlines
import LinuxPatchApi.Packages.ErrorOrigins
import LinuxPatchApi.Packages.Classification
import LinuxPatchApi.Packages.Kernels
import LinuxPatchApi.Packages.PendingReboot
import LinuxPatchApi.Packages.RpmUpdates
import LinuxPatchApi.Packages.RpmInfo
import LinuxPatchApi.Packages.OpenRc
import LinuxPatchApi.Jobs.Manager
import LinuxPatchApi.Jobs.Scheduler
import LinuxPatchApi.Jobs.SchedulerSpec
import LinuxPatchApi.Jobs.Dispatch
import LinuxPatchApi.Jobs.Control
import LinuxPatchApi.Jobs.JobMoves
import LinuxPatchApi.Jobs.Statuses
import LinuxPatchApi.Jobs.Bystanders
import LinuxPatchApi.Jobs.Terminal
import LinuxPatchApi.Jobs.Diagnostics
import LinuxPatchApi.Jobs.Events
import LinuxPatchApi.Jobs.Recovery
import LinuxPatchApi.Jobs.Persistence
import LinuxPatchApi.Jobs.Retention
import LinuxPatchApi.Jobs.SnapshotOrder
import LinuxPatchApi.Jobs.Saving
import LinuxPatchApi.Jobs.Durability
import LinuxPatchApi.Jobs.Restarts
import LinuxPatchApi.Jobs.Migration
import LinuxPatchApi.Jobs.Slot
import LinuxPatchApi.Jobs.Waiters
import LinuxPatchApi.Jobs.Release
import LinuxPatchApi.Jobs.Reboot
import LinuxPatchApi.Jobs.RebootTiers
import LinuxPatchApi.Jobs.Limit
import LinuxPatchApi.Jobs.QueueDepth
import LinuxPatchApi.Jobs.Ownership
import LinuxPatchApi.Jobs.Isolation
import LinuxPatchApi.Jobs.Rejections
import LinuxPatchApi.Jobs.WebSocket
import LinuxPatchApi.Auth.Crl
import LinuxPatchApi.Auth.CrlWorld
import LinuxPatchApi.Auth.Revocation
import LinuxPatchApi.Auth.Whitelist
import LinuxPatchApi.Auth.WhitelistEdits
import LinuxPatchApi.Auth.WhitelistLines
import LinuxPatchApi.Auth.WhitelistAppends
import LinuxPatchApi.Auth.WhitelistDecisions
import LinuxPatchApi.Auth.WhitelistWrites
import LinuxPatchApi.Api.Requests
import LinuxPatchApi.Api.FetchRetry
import LinuxPatchApi.Api.Commands
import LinuxPatchApi.Api.Backstop
import LinuxPatchApi.Api.Handlers
import LinuxPatchApi.Api.Duties
import LinuxPatchApi.Api.Ledger
import LinuxPatchApi.Api.Accounts
import LinuxPatchApi.Api.Staffed
import LinuxPatchApi.Api.Quiescence
import LinuxPatchApi.Api.Upgrades
import LinuxPatchApi.Api.Process
import LinuxPatchApi.Api.Patches
import LinuxPatchApi.Api.PatchOutcome
import LinuxPatchApi.Api.Promptness
import LinuxPatchApi.Api.Wakeups
import LinuxPatchApi.Api.Internals
import LinuxPatchApi.Api.Refreshes
import LinuxPatchApi.Api.RebootDelays
import LinuxPatchApi.Api.RateLimit
import LinuxPatchApi.Enroll.Provision
import LinuxPatchApi.Enroll.Bundle
import LinuxPatchApi.Enroll.RepoHealth
import LinuxPatchApi.Enroll.DistroId
import LinuxPatchApi.Enroll.KeyHealth
import LinuxPatchApi.Enroll.Enrollment
import LinuxPatchApi.Enroll.Polling
import LinuxPatchApi.Enroll.RefreshTasks
import LinuxPatchApi.Enroll.DeadTokens
import LinuxPatchApi.Enroll.ManagerWhitelist
import LinuxPatchApi.Enroll.CrashSafety
import LinuxPatchApi.Enroll.CrlOnDisk
import LinuxPatchApi.Enroll.Certificates
import LinuxPatchApi.Enroll.UsableBundles
import LinuxPatchApi.Lib.Broadcast
import LinuxPatchApi.Jobs.Delivery
import LinuxPatchApi.Api.Gateway
import LinuxPatchApi.Packages.Runner
import LinuxPatchApi.Auth.Pem
import LinuxPatchApi.Enroll.Identity
import LinuxPatchApi.Enroll.Addresses
import LinuxPatchApi.Enroll.Registration
import LinuxPatchApi.Enroll.OsRelease
import LinuxPatchApi.Packages.UnitStatus
import LinuxPatchApi.Packages.PacmanViews
import LinuxPatchApi.Jobs.Records
import LinuxPatchApi.Api.JobQueries
import LinuxPatchApi.Api.Health
import LinuxPatchApi.Api.Shutdown
