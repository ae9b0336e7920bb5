import AccessRegistry.Config.Variables
import AccessRegistry.Connection
import AccessRegistry.Http.Service
import AccessRegistry.Json.Settings
import AccessRegistry.Log.Filter
import AccessRegistry.Supply.Overlap
import AccessRegistry.Supply.Replenisher
import AccessRegistry.Proofs.Permissions.Indexed
import AccessRegistry.Proofs.Permissions.History
import AccessRegistry.Proofs.Permissions.Query
import AccessRegistry.Proofs.Actions
import AccessRegistry.Proofs.Collections
import AccessRegistry.Proofs.Directory
import AccessRegistry.Proofs.Graph.Paths
import AccessRegistry.Proofs.Graph.Ancestors
import AccessRegistry.Proofs.Graph.Walk
import AccessRegistry.Proofs.Graph.Closures
import AccessRegistry.Proofs.Tables
import AccessRegistry.Proofs.Authorization.Decisions
import AccessRegistry.Proofs.Identifier
import AccessRegistry.Proofs.Supply.Minting
import AccessRegistry.Proofs.Supply.Conservation
import AccessRegistry.Proofs.Supply.Unique
import AccessRegistry.Proofs.Supply.Follows
import AccessRegistry.Proofs.Supply.Minters
import AccessRegistry.Proofs.Supply.Desks
import AccessRegistry.Proofs.Supply.Stock
import AccessRegistry.Proofs.Graph.Edges
import AccessRegistry.Proofs.Permissions.Values
import AccessRegistry.Proofs.Reservations
import AccessRegistry.Proofs.Books
import AccessRegistry.Proofs.Steps
import AccessRegistry.Proofs.Naming
import AccessRegistry.Proofs.Authorization.Services
import AccessRegistry.Proofs.Http.Answers
import AccessRegistry.Proofs.Operations
import AccessRegistry.Proofs.Bindings
import AccessRegistry.Proofs.Trail
import AccessRegistry.Proofs.Authorization.Removal
import AccessRegistry.Proofs.Procedures
import AccessRegistry.Proofs.Failures
import AccessRegistry.Proofs.Traffic
import AccessRegistry.Proofs.Stages
import AccessRegistry.Proofs.Traffic.Creations
import AccessRegistry.Proofs.Traffic.Registrations
import AccessRegistry.Proofs.Supply.Fifo
import AccessRegistry.Proofs.Supply.Gapless
import AccessRegistry.Proofs.Integrity
import AccessRegistry.Proofs.Supply.Locks
import AccessRegistry.Proofs.Supply.Rounds
import AccessRegistry.Proofs.Supply.Batches
import AccessRegistry.Proofs.Supply.Retirement
import AccessRegistry.Proofs.Http.Guard
import AccessRegistry.Proofs.Authorization.Bootstrap
import AccessRegistry.Proofs.Supply.Unreserved
import AccessRegistry.Proofs.Authorization.Standing
import AccessRegistry.Proofs.Restarts
import AccessRegistry.Proofs.ClearDesks
import AccessRegistry.Proofs.Authorization.Creation
import AccessRegistry.Proofs.Authorization.Grants
import AccessRegistry.Proofs.Authorization.Memberships
import AccessRegistry.Proofs.Supply.HandingOut
import AccessRegistry.Proofs.Attempts
import AccessRegistry.Proofs.Graph.EdgeSets
import AccessRegistry.Proofs.ClosedDatabase
import AccessRegistry.Proofs.Authorization.Settled
import AccessRegistry.Proofs.Results
import AccessRegistry.Proofs.Numerals
import AccessRegistry.Proofs.LowerCase
import AccessRegistry.Proofs.Spellings
import AccessRegistry.Proofs.Configuration
import AccessRegistry.Proofs.Retry
import AccessRegistry.Proofs.Identifier.Splitting
import AccessRegistry.Proofs.Supply.Advancing
import AccessRegistry.Proofs.Instants.Calendar
import AccessRegistry.Proofs.Instants.Texts
import AccessRegistry.Proofs.Json.Forms
import AccessRegistry.Proofs.Json.Texts
import AccessRegistry.Proofs.Json.Values
import AccessRegistry.Proofs.Json.Lossless
