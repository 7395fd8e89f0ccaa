import RemoteGuard.Engine.Script
import RemoteGuard.Proofs.Component.Collapse
import RemoteGuard.Proofs.Sync.ChangeSet
import RemoteGuard.Repository.Report
import RemoteGuard.Ruleset.Lists
import RemoteGuard.Proofs.Client.Following
import RemoteGuard.Proofs.Content.Delivered
import RemoteGuard.Proofs.Sync.Acceptance
import RemoteGuard.Proofs.Sync.Versions
import RemoteGuard.Proofs.Component.Verdicts
import RemoteGuard.Proofs.Sync.Held
import RemoteGuard.Proofs.Sync.History
import RemoteGuard.Proofs.Sync.Listing
import RemoteGuard.Proofs.Repository.Commits
import RemoteGuard.Proofs.Repository.Isolation
import RemoteGuard.Proofs.Repository.Footprint
import RemoteGuard.Proofs.Repository.Replay
import RemoteGuard.Proofs.Sync.Marks
import RemoteGuard.Proofs.Component.Handover
import RemoteGuard.Proofs.Component.Influence
import RemoteGuard.Proofs.Request.Accounting
import RemoteGuard.Proofs.Request.InFlight
import RemoteGuard.Proofs.Json.Standing
import RemoteGuard.Proofs.Manifest.Agreement
import RemoteGuard.Proofs.Ruleset.Expirations
import RemoteGuard.Proofs.Ruleset.Grouping
import RemoteGuard.Proofs.Ruleset.NormalForm
import RemoteGuard.Proofs.Ruleset.Stages
import RemoteGuard.Proofs.Ruleset.Members
import RemoteGuard.Proofs.Path.Grammar
import RemoteGuard.Proofs.Json.Unread
import RemoteGuard.Proofs.Ruleset.Streams
import RemoteGuard.Proofs.Sampling.FailedFetch
import RemoteGuard.Proofs.Component.Activation
import RemoteGuard.Proofs.Capability.Encoding
import RemoteGuard.Proofs.Path.Canonical
import RemoteGuard.Proofs.Content.TargetFile
import RemoteGuard.Proofs.Manifest.Targets
import RemoteGuard.Proofs.Sampling.Ticks
import RemoteGuard.Proofs.Settings.Environment
import RemoteGuard.Proofs.Timestamp
