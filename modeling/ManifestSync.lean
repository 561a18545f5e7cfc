import ManifestSync.Activity
import ManifestSync.Catalog.Basic
import ManifestSync.Catalog.Feed
import ManifestSync.Catalog.Record
import ManifestSync.Decimal.Binary64
import ManifestSync.Decimal.Shortest
import ManifestSync.Files.Node
import ManifestSync.Files.Path
import ManifestSync.Files.Walk
import ManifestSync.Http.Client
import ManifestSync.Http.Discovery
import ManifestSync.Http.Documents
import ManifestSync.Http.Failure
import ManifestSync.Http.Message
import ManifestSync.Http.Object
import ManifestSync.Http.Status
import ManifestSync.Http.VersionRank
import ManifestSync.Instant
import ManifestSync.Kind
import ManifestSync.Main
import ManifestSync.Manifest.Basic
import ManifestSync.Manifest.Load
import ManifestSync.Manifest.Update
import ManifestSync.Proofs.Catalog.ApiVersion
import ManifestSync.Proofs.Catalog.Decoding
import ManifestSync.Proofs.Catalog.Delivery
import ManifestSync.Proofs.Catalog.Growth
import ManifestSync.Proofs.Catalog.Lookup
import ManifestSync.Proofs.Catalog.Reordering
import ManifestSync.Proofs.Catalog.Schedule
import ManifestSync.Proofs.Catalog.StableOrder
import ManifestSync.Proofs.Files.Paths
import ManifestSync.Proofs.Files.Relisting
import ManifestSync.Proofs.Files.Tree
import ManifestSync.Proofs.Http.Refusal
import ManifestSync.Proofs.Manifest.Convergence
import ManifestSync.Proofs.Manifest.Effect
import ManifestSync.Proofs.Manifest.Exactness
import ManifestSync.Proofs.Manifest.Loading
import ManifestSync.Proofs.Manifest.Named
import ManifestSync.Proofs.Manifest.Update
import ManifestSync.Proofs.Reconcile.Atomicity
import ManifestSync.Proofs.Reconcile.Calm
import ManifestSync.Proofs.Reconcile.Chronicle
import ManifestSync.Proofs.Reconcile.Confinement
import ManifestSync.Proofs.Reconcile.Conservation
import ManifestSync.Proofs.Reconcile.Conversation
import ManifestSync.Proofs.Reconcile.Decision
import ManifestSync.Proofs.Reconcile.Frame
import ManifestSync.Proofs.Reconcile.Independence
import ManifestSync.Proofs.Reconcile.Inventory
import ManifestSync.Proofs.Reconcile.LateKinds
import ManifestSync.Proofs.Reconcile.Ledger
import ManifestSync.Proofs.Reconcile.Presence
import ManifestSync.Proofs.Reconcile.Preservation
import ManifestSync.Proofs.Reconcile.Punctuality
import ManifestSync.Proofs.Reconcile.Reloading
import ManifestSync.Proofs.Reconcile.Reporting
import ManifestSync.Proofs.Reconcile.Rerun
import ManifestSync.Proofs.Reconcile.Rounds
import ManifestSync.Proofs.Reconcile.Runs
import ManifestSync.Proofs.Reconcile.Setbacks
import ManifestSync.Proofs.Reconcile.Sweep
import ManifestSync.Proofs.Reconcile.Tally
import ManifestSync.Proofs.Reconcile.Telling
import ManifestSync.Proofs.Scenario.Staged
import ManifestSync.Proofs.Scenario.Still
import ManifestSync.Proofs.Settings.Grammar
import ManifestSync.Proofs.Settings.Reading
import ManifestSync.Proofs.Store.Addressing
import ManifestSync.Proofs.Store.Answers
import ManifestSync.Proofs.Store.Calm
import ManifestSync.Proofs.Store.Identity
import ManifestSync.Proofs.Store.Keeps
import ManifestSync.Proofs.Store.Locality
import ManifestSync.Proofs.Store.Resending
import ManifestSync.Proofs.Store.Separation
import ManifestSync.Proofs.Text.Trim
import ManifestSync.Proofs.Tree.Equality
import ManifestSync.Proofs.Tree.Insertion
import ManifestSync.Proofs.Tree.Members
import ManifestSync.Proofs.Tree.Merge
import ManifestSync.Proofs.Tree.Nulls
import ManifestSync.Proofs.Tree.Order
import ManifestSync.Proofs.Tree.Path
import ManifestSync.Proofs.Tree.Readback
import ManifestSync.Reconcile.Apply
import ManifestSync.Reconcile.Attempt
import ManifestSync.Reconcile.Dialogue
import ManifestSync.Reconcile.Ensure
import ManifestSync.Reconcile.Report
import ManifestSync.Reconcile.Run
import ManifestSync.Reconcile.Sweep
import ManifestSync.Resolver
import ManifestSync.Scenario.Describe
import ManifestSync.Scenario.Server
import ManifestSync.Scenario.Session
import ManifestSync.Scenario.World
import ManifestSync.Settings
import ManifestSync.Span
import ManifestSync.Store.Error
import ManifestSync.Store.Memory
import ManifestSync.Store.Request
import ManifestSync.Table
import ManifestSync.Text.Blank
import ManifestSync.Text.Quoted
import ManifestSync.Text.Unprintable
import ManifestSync.Text.Utf8
import ManifestSync.Tree.Basic
import ManifestSync.Tree.Draft
import ManifestSync.Tree.Merge
import ManifestSync.Tree.Numeral
import ManifestSync.Tree.Read
import ManifestSync.Tree.Shape
import ManifestSync.Tree.Written
import ManifestSync.Yaml.Document
import ManifestSync.Yaml.Lexer
import ManifestSync.Yaml.Node
import ManifestSync.Yaml.Plain
import ManifestSync.Yaml.Scalar
import ManifestSync.Yaml.Source
import ManifestSync.Yaml.Token
