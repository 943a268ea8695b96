import ContactSync.Changes.Difference
import ContactSync.Changes.Tracker
import ContactSync.CommandLine.Arguments
import ContactSync.CommandLine.Session
import ContactSync.Decimal.Double
import ContactSync.Decimal.Shortest
import ContactSync.Dotted.Access
import ContactSync.Dotted.Basic
import ContactSync.Entity.Kind
import ContactSync.Entity.Vocabulary
import ContactSync.Fault
import ContactSync.Hub.Customer
import ContactSync.Hub.Dialogue
import ContactSync.Hub.Entry
import ContactSync.Hub.Event
import ContactSync.Hub.Exchange
import ContactSync.Hub.Failure
import ContactSync.Hub.Listing
import ContactSync.Hub.Message
import ContactSync.Hub.Record
import ContactSync.Hub.Request
import ContactSync.Hub.SessionId
import ContactSync.Hub.Tags
import ContactSync.Hub.Workspace
import ContactSync.Json.Basic
import ContactSync.Json.Numeral
import ContactSync.Json.Printer
import ContactSync.Json.Reader
import ContactSync.Json.Shape
import ContactSync.Listing.Page
import ContactSync.Main
import ContactSync.Record.Basic
import ContactSync.Record.Cursor
import ContactSync.Record.Location
import ContactSync.Record.Path
import ContactSync.Record.View
import ContactSync.Search.Criterion
import ContactSync.Search.Moment
import ContactSync.Search.Query
import ContactSync.Search.Wire
import ContactSync.Text.Blank
import ContactSync.Text.Quoted
import ContactSync.Text.Unprintable
import ContactSync.Tree.Content
import ContactSync.Tree.Leaves
import ContactSync.Proofs.Agreement
import ContactSync.Proofs.DottedText
import ContactSync.Proofs.Outline
import ContactSync.Proofs.Stripped
import ContactSync.Proofs.Replay
import ContactSync.Proofs.Differences
import ContactSync.Proofs.Marks
import ContactSync.Proofs.Steps
import ContactSync.Proofs.Edits
import ContactSync.Proofs.Synced
import ContactSync.Proofs.Updates
import ContactSync.Proofs.Untracked
import ContactSync.Proofs.Lookup
import ContactSync.Proofs.Places
import ContactSync.Proofs.Recordings
import ContactSync.Proofs.Overlays
import ContactSync.Proofs.Dialogues
import ContactSync.Proofs.Courses
import ContactSync.Proofs.Persistence
import ContactSync.Proofs.Failures
import ContactSync.Proofs.Combinations
import ContactSync.Proofs.Shapes
import ContactSync.Proofs.Lens
import ContactSync.Proofs.Entries
import ContactSync.Proofs.Requests
import ContactSync.Proofs.Pages
import ContactSync.Proofs.Cursors
import ContactSync.Proofs.Documents
import ContactSync.Proofs.Sealed
import ContactSync.Proofs.Ordering
import ContactSync.Proofs.Writings
import ContactSync.Proofs.Addresses
import ContactSync.Proofs.Minimality
import ContactSync.Proofs.Content
import ContactSync.Proofs.Navigation
import ContactSync.Proofs.Leaves
import ContactSync.Proofs.Fields
import ContactSync.Proofs.Expressions
import ContactSync.Proofs.TagCalls
