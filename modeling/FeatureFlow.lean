import FeatureFlow.Main
import FeatureFlow.Settings.Source
import FeatureFlow.Proofs.Building
import FeatureFlow.Proofs.Cascade.Walk
import FeatureFlow.Proofs.Cascade.Budget
import FeatureFlow.Proofs.Cascade.Tree
import FeatureFlow.Proofs.Cascade.Retrigger
import FeatureFlow.Proofs.Cascade.Nesting
import FeatureFlow.Proofs.Cascade.Course
import FeatureFlow.Proofs.Cascade.Continuation
import FeatureFlow.Proofs.Engine.Barriers
import FeatureFlow.Proofs.Sync.Activation
import FeatureFlow.Proofs.Engine.Conversation
import FeatureFlow.Proofs.Engine.Handshake
import FeatureFlow.Proofs.Engine.Passing
import FeatureFlow.Proofs.Features.Isolation
import FeatureFlow.Proofs.Features.Instances
import FeatureFlow.Proofs.Features.Delegation
import FeatureFlow.Proofs.Features.Triggers
import FeatureFlow.Proofs.Features.Requests
import FeatureFlow.Proofs.Features.Lookups
import FeatureFlow.Proofs.Features.FirstUse
import FeatureFlow.Proofs.Tokens.Outcomes
import FeatureFlow.Proofs.Tokens.Questions
import FeatureFlow.Proofs.Tokens.Displays
import FeatureFlow.Proofs.Manifest.Normal
import FeatureFlow.Proofs.Manifest.Cycles
import FeatureFlow.Proofs.Manifest.Findings
import FeatureFlow.Proofs.Manifest.Providers
import FeatureFlow.Proofs.Manifest.Order
import FeatureFlow.Proofs.Sync.Accounting
import FeatureFlow.Proofs.Sync.Phases
import FeatureFlow.Proofs.Engine.Fetches
import FeatureFlow.Proofs.Sync.Overlap
import FeatureFlow.Proofs.Sync.Lateness
import FeatureFlow.Proofs.Sync.Pushes
import FeatureFlow.Proofs.Engine.Callers
import FeatureFlow.Proofs.Engine.Polling
import FeatureFlow.Proofs.Sync.Marks
import FeatureFlow.Proofs.Sync.Waking
import FeatureFlow.Proofs.Cache.Contents
import FeatureFlow.Proofs.Cache.Removal
import FeatureFlow.Proofs.Sync.Restart
import FeatureFlow.Proofs.Registry
import FeatureFlow.Proofs.Features.Updates
import FeatureFlow.Proofs.Tokens.Positions
import FeatureFlow.Proofs.Cache.Lookups
import FeatureFlow.Proofs.Url.Segments
import FeatureFlow.Proofs.Toggle
import FeatureFlow.Proofs.Conversions
