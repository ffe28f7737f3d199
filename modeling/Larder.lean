import Larder.Api.Decode
import Larder.Api.Documents
import Larder.Api.Envelope
import Larder.Api.Http
import Larder.Api.Records
import Larder.Api.Request
import Larder.Api.Wire
import Larder.Binding
import Larder.Cache.Basic
import Larder.Cache.Ledger
import Larder.Channel
import Larder.Cli.App
import Larder.Cli.Arguments
import Larder.Cli.Command
import Larder.Cli.Script
import Larder.Configuration
import Larder.Decimal.Shortest
import Larder.Endpoint.Basic
import Larder.Endpoint.Domain
import Larder.Endpoint.Host
import Larder.Endpoint.Mapping
import Larder.Endpoint.Percent
import Larder.Endpoint.Punycode
import Larder.Event
import Larder.Failure
import Larder.Includes
import Larder.Instant
import Larder.Json.Basic
import Larder.Json.Reader
import Larder.Json.Writer
import Larder.Key
import Larder.Main
import Larder.Proofs.Books
import Larder.Proofs.Changes
import Larder.Proofs.Commit
import Larder.Proofs.Invalidation
import Larder.Proofs.Joining
import Larder.Proofs.Ledger
import Larder.Proofs.Pieces
import Larder.Proofs.Run
import Larder.Resource
import Larder.Server
import Larder.Shelf
import Larder.Table
import Larder.Teams.Basic
import Larder.Teams.Operation
import Larder.Text.Base64
import Larder.Text.Blank
import Larder.Text.Composed
import Larder.Text.Direction
import Larder.Text.Packed
import Larder.Text.Quoted
import Larder.Text.Unprintable
import Larder.Uses
import Larder.World.Action
import Larder.World.Basic
import Larder.World.Files
import Larder.World.Run
import Larder.World.Service
import Larder.World.Slot
import Larder.World.Source
import Larder.Yaml.Core
import Larder.Yaml.Cursor
import Larder.Yaml.Node
import Larder.Yaml.Scalar
import Larder.Yaml.Token
import Larder.Yaml.Writer
import Larder.Proofs.Entries
import Larder.Proofs.Finality
import Larder.Proofs.Confluence
import Larder.Proofs.Eviction
import Larder.Proofs.Stock
import Larder.Proofs.Desk
import Larder.Proofs.FieldGroups
import Larder.Proofs.Counting
import Larder.Proofs.Outcome
import Larder.Proofs.Story
import Larder.Proofs.Forgetting
import Larder.Proofs.Stamps
import Larder.Proofs.Syncing
import Larder.Proofs.Leases
import Larder.Proofs.Clientele
import Larder.Proofs.Delivery
import Larder.Proofs.Marking
import Larder.Proofs.Purging
import Larder.Proofs.Failures
import Larder.Proofs.Blame
import Larder.Proofs.Rest
import Larder.Proofs.Resolving
import Larder.Proofs.Replacing
import Larder.Proofs.Results
import Larder.Proofs.Requests
import Larder.Proofs.Following
import Larder.Proofs.Polling
import Larder.Proofs.Errands
import Larder.Proofs.Mutations
import Larder.Proofs.Provenance
import Larder.Proofs.Deletions
import Larder.Proofs.Grants
import Larder.Proofs.Holders
import Larder.Proofs.Marks
import Larder.Proofs.Display
import Larder.Proofs.Verdicts
import Larder.Proofs.Coherence
import Larder.Proofs.Reencoding
import Larder.Proofs.Lifetimes
import Larder.Proofs.Consumers
