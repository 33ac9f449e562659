import LiveTemplate.Decimal.Binary
import LiveTemplate.Decimal.Notation
import LiveTemplate.Decimal.Shortest
import LiveTemplate.Document.Basic
import LiveTemplate.Document.Html
import LiveTemplate.Document.Node
import LiveTemplate.Document.Places
import LiveTemplate.Document.Query
import LiveTemplate.Event
import LiveTemplate.Forest.Basic
import LiveTemplate.Identity
import LiveTemplate.Pairs
import LiveTemplate.Proofs.Apart.Building
import LiveTemplate.Proofs.Apart.Changes
import LiveTemplate.Proofs.Apart.Client
import LiveTemplate.Proofs.Apart.Deeds
import LiveTemplate.Proofs.Apart.Effects
import LiveTemplate.Proofs.Apart.Events
import LiveTemplate.Proofs.Apart.Mounts
import LiveTemplate.Proofs.Apart.Parts
import LiveTemplate.Proofs.Apart.Reactions
import LiveTemplate.Proofs.Apart.Selfsame
import LiveTemplate.Proofs.Apart.Sites
import LiveTemplate.Proofs.Apart.States
import LiveTemplate.Proofs.Apart.Telling
import LiveTemplate.Proofs.Apart.Ties
import LiveTemplate.Proofs.Apart.Views
import LiveTemplate.Proofs.Apart.Worlds
import LiveTemplate.Proofs.Bound.Arena
import LiveTemplate.Proofs.Bound.Edit
import LiveTemplate.Proofs.Bound.Growth
import LiveTemplate.Proofs.Bound.Ledger
import LiveTemplate.Proofs.Bound.Skeleton
import LiveTemplate.Proofs.Bound.Solid
import LiveTemplate.Proofs.Build.Constructs
import LiveTemplate.Proofs.Build.Growing
import LiveTemplate.Proofs.Build.Kempt
import LiveTemplate.Proofs.Build.Runs
import LiveTemplate.Proofs.Build.Steps
import LiveTemplate.Proofs.Command.Appointing
import LiveTemplate.Proofs.Command.Building
import LiveTemplate.Proofs.Command.Chain
import LiveTemplate.Proofs.Command.Firing
import LiveTemplate.Proofs.Command.Narration
import LiveTemplate.Proofs.Command.Ranks
import LiveTemplate.Proofs.Command.Stories
import LiveTemplate.Proofs.Command.Upholding
import LiveTemplate.Proofs.Document.Edits
import LiveTemplate.Proofs.Document.Mirror
import LiveTemplate.Proofs.Document.Tables
import LiveTemplate.Proofs.Document.Walks
import LiveTemplate.Proofs.Forest.Adoption
import LiveTemplate.Proofs.Forest.Basic
import LiveTemplate.Proofs.Forest.Edit
import LiveTemplate.Proofs.Forest.Exchange
import LiveTemplate.Proofs.Forest.Family
import LiveTemplate.Proofs.Forest.Graft
import LiveTemplate.Proofs.Forest.Matching
import LiveTemplate.Proofs.Forest.Moves
import LiveTemplate.Proofs.Forest.Regrowth
import LiveTemplate.Proofs.Forest.Survival
import LiveTemplate.Proofs.Matching
import LiveTemplate.Proofs.Meaning.Building
import LiveTemplate.Proofs.Meaning.Chains
import LiveTemplate.Proofs.Meaning.Lookups
import LiveTemplate.Proofs.Meaning.Picture
import LiveTemplate.Proofs.Meaning.Room
import LiveTemplate.Proofs.Meaning.Search
import LiveTemplate.Proofs.Reactive.Account
import LiveTemplate.Proofs.Reactive.Census
import LiveTemplate.Proofs.Reactive.Change
import LiveTemplate.Proofs.Reactive.Passes
import LiveTemplate.Proofs.Reactive.Recall
import LiveTemplate.Proofs.Reactive.Registration
import LiveTemplate.Proofs.Reactive.Spelling
import LiveTemplate.Proofs.Template.Derivation
import LiveTemplate.Proofs.Template.Enclosure
import LiveTemplate.Proofs.Template.Grammar
import LiveTemplate.Proofs.Template.Headings
import LiveTemplate.Proofs.Template.Nesting
import LiveTemplate.Proofs.Template.Outline
import LiveTemplate.Proofs.Template.RoundTrip
import LiveTemplate.Proofs.Template.Tokens
import LiveTemplate.Proofs.Template.Units
import LiveTemplate.Proofs.Upkeep.Aim
import LiveTemplate.Proofs.Upkeep.Announcement
import LiveTemplate.Proofs.Upkeep.Carry
import LiveTemplate.Proofs.Upkeep.Changed
import LiveTemplate.Proofs.Upkeep.Course
import LiveTemplate.Proofs.Upkeep.Direct
import LiveTemplate.Proofs.Upkeep.Dress
import LiveTemplate.Proofs.Upkeep.Events
import LiveTemplate.Proofs.Upkeep.Exact
import LiveTemplate.Proofs.Upkeep.Fit
import LiveTemplate.Proofs.Upkeep.Made
import LiveTemplate.Proofs.Upkeep.Maintained
import LiveTemplate.Proofs.Upkeep.Mounted
import LiveTemplate.Proofs.Upkeep.Refreshed
import LiveTemplate.Proofs.Upkeep.Relinked
import LiveTemplate.Proofs.Upkeep.Renewal
import LiveTemplate.Proofs.Upkeep.Repair
import LiveTemplate.Proofs.Upkeep.Replay
import LiveTemplate.Proofs.Upkeep.Runs
import LiveTemplate.Proofs.Upkeep.Spliced
import LiveTemplate.Proofs.Upkeep.Trail
import LiveTemplate.Proofs.Upkeep.Upheld
import LiveTemplate.Proofs.View.Chronicle
import LiveTemplate.Proofs.View.Company
import LiveTemplate.Proofs.View.Completeness
import LiveTemplate.Proofs.View.Conditions
import LiveTemplate.Proofs.View.Conduct
import LiveTemplate.Proofs.View.DirectUpdate
import LiveTemplate.Proofs.View.DocumentOrder
import LiveTemplate.Proofs.View.Independence
import LiveTemplate.Proofs.View.InitialPicture
import LiveTemplate.Proofs.View.Invariance
import LiveTemplate.Proofs.View.LeakFreedom
import LiveTemplate.Proofs.View.ListAlignment
import LiveTemplate.Proofs.View.LiveUpdate
import LiveTemplate.Proofs.View.Locality
import LiveTemplate.Proofs.View.Lossless
import LiveTemplate.Proofs.View.MountOutcome
import LiveTemplate.Proofs.View.Mounting
import LiveTemplate.Proofs.View.PathFollowing
import LiveTemplate.Proofs.View.Planting
import LiveTemplate.Proofs.View.Progress
import LiveTemplate.Proofs.View.Reachable
import LiveTemplate.Proofs.View.Reactions
import LiveTemplate.Proofs.View.Replica
import LiveTemplate.Proofs.View.Rest
import LiveTemplate.Proofs.View.Retention
import LiveTemplate.Proofs.View.Soundness
import LiveTemplate.Proofs.View.Splicing
import LiveTemplate.Proofs.View.Stages
import LiveTemplate.Proofs.View.Teardown
import LiveTemplate.Proofs.View.Undisturbed
import LiveTemplate.Proofs.View.Variation
import LiveTemplate.Reactive.Channel
import LiveTemplate.Reactive.Collection
import LiveTemplate.Reactive.Data
import LiveTemplate.Reactive.Model
import LiveTemplate.Reactive.Observer
import LiveTemplate.Reactive.Value
import LiveTemplate.Session.ArenaSteps
import LiveTemplate.Session.Book
import LiveTemplate.Session.Client
import LiveTemplate.Session.Datum
import LiveTemplate.Session.DocumentSteps
import LiveTemplate.Session.Inspection
import LiveTemplate.Session.PilotSteps
import LiveTemplate.Session.ReactiveSteps
import LiveTemplate.Session.Reading
import LiveTemplate.Session.Report
import LiveTemplate.Session.Request
import LiveTemplate.Session.Run
import LiveTemplate.Session.Script
import LiveTemplate.Session.TemplateAnswer
import LiveTemplate.Session.ViewSteps
import LiveTemplate.Store
import LiveTemplate.Template.Error
import LiveTemplate.Template.Header
import LiveTemplate.Template.Layout
import LiveTemplate.Template.Lexeme
import LiveTemplate.Template.Outline
import LiveTemplate.Template.Parse
import LiveTemplate.Template.Path
import LiveTemplate.Template.Syntax
import LiveTemplate.Template.Token
import LiveTemplate.Text.Blank
import LiveTemplate.Text.Marked
import LiveTemplate.Text.Quoted
import LiveTemplate.View.Bound
import LiveTemplate.View.Build
import LiveTemplate.View.Config
import LiveTemplate.View.Controller
import LiveTemplate.View.Dispatch
import LiveTemplate.View.Mount
import LiveTemplate.View.Mutation
import LiveTemplate.View.Part
import LiveTemplate.View.Pilot
import LiveTemplate.View.React
import LiveTemplate.View.Registry
import LiveTemplate.View.World
import LiveTemplate.Proofs.Template.Lines
import LiveTemplate.Proofs.Template.Relayout
import LiveTemplate.Proofs.Template.Faults
import LiveTemplate.Proofs.Document.Markup
import LiveTemplate.Proofs.Document.Succession
import LiveTemplate.Proofs.View.Bubbling
