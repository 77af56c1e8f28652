import CachedParameters.Assoc
import CachedParameters.Base64
import CachedParameters.Document.Cursor
import CachedParameters.Dict
import CachedParameters.Document
import CachedParameters.Real
import CachedParameters.Text.Quoted
import CachedParameters.Document.Shape
import CachedParameters.Text.Numeral
import CachedParameters.Error
import CachedParameters.Value
import CachedParameters.Batch
import CachedParameters.Request
import CachedParameters.Document.Number
import CachedParameters.Text.Bytes
import CachedParameters.Document.Quoted
import CachedParameters.Document.Reader
import CachedParameters.Text
import CachedParameters.Cache
import CachedParameters.Time
import CachedParameters.Settings
import CachedParameters.Event
import CachedParameters.Source
import CachedParameters.Provider
import CachedParameters.Store.Paging
import CachedParameters.Store.Table
import CachedParameters.Cloud.Service
import CachedParameters.Store.Parameters
import CachedParameters.Store.Configurations
import CachedParameters.Cloud.Clients
import CachedParameters.Cloud.Configuration
import CachedParameters.Hub.Retrieval
import CachedParameters.Limits
import CachedParameters.Memory.Secrets
import CachedParameters.Memory.Configurations
import CachedParameters.Memory.Parameters
import CachedParameters.Memory.Scripted
import CachedParameters.Memory.Table
import CachedParameters.Proofs.Real.Interval
import CachedParameters.Proofs.Real.Text
import CachedParameters.Proofs.Document.Unambiguous
import CachedParameters.Proofs.Cache.Key
import CachedParameters.Proofs.Dict
import CachedParameters.Proofs.Provider.Steps
import CachedParameters.Proofs.Provider.Lookup
import CachedParameters.Proofs.Batch.Intake
import CachedParameters.Proofs.Batch.Answers
import CachedParameters.Proofs.Batch.Course
import CachedParameters.Proofs.Batch.Tally
import CachedParameters.Proofs.Provider.Requests
import CachedParameters.Proofs.Batch.Modes
import CachedParameters.Proofs.Provider.Retrievals
import CachedParameters.Proofs.Provider.History
import CachedParameters.Proofs.Source.Steady
import CachedParameters.Proofs.Batch.Singles
import CachedParameters.Proofs.Memory.Steady
import CachedParameters.Proofs.Source.Truthful
import CachedParameters.Proofs.Provider.Origins
import CachedParameters.Proofs.Memory.Truthful
import CachedParameters.Proofs.Memory.Secrecy
import CachedParameters.Proofs.Store.Contacts
import CachedParameters.Proofs.Store.Sessions
import CachedParameters.Proofs.Memory.Grants
import CachedParameters.Proofs.Memory.Configurations
import CachedParameters.Proofs.Text.Relative
import CachedParameters.Proofs.Store.Pages
import CachedParameters.Proofs.Memory.Listings
import CachedParameters.Proofs.Provider.Listings
import CachedParameters.Proofs.Store.Failures
import CachedParameters.Proofs.Document.Texts
import CachedParameters.Proofs.Document.Numbers
import CachedParameters.Proofs.Document.RoundTrip
import CachedParameters.Proofs.Text.Utf8
import CachedParameters.Proofs.Text.Malformed
import CachedParameters.Proofs.Value.Transform
import CachedParameters.Proofs.Value.Typed
import CachedParameters.Proofs.Machine
import CachedParameters.Proofs.Provider.Transcripts
import CachedParameters.Proofs.Assoc
import CachedParameters.Proofs.Memory.Standings
import CachedParameters.Proofs.Hub.Operations
import CachedParameters.Proofs.Store.Timeless
import CachedParameters.Proofs.Hub.Families
import CachedParameters.Proofs.Hub.Scopes
import CachedParameters.Proofs.Memory.Independence
import CachedParameters.Proofs.Store.Items
import CachedParameters.Proofs.Memory.Queries
import CachedParameters.Proofs.Memory.SubKeys
import CachedParameters.Proofs.Batch.Stored
import CachedParameters.Proofs.Store.Bulk
import CachedParameters.Proofs.Batch.Rendering
import CachedParameters.Proofs.Store.Turning
import CachedParameters.Proofs.Store.Paged
import CachedParameters.Proofs.Cloud.Paged
import CachedParameters.Proofs.Batch.Recorded
import CachedParameters.Proofs.Provider.Misconfigured
import CachedParameters.Proofs.Provider.Events
import CachedParameters.Proofs.Settings
import CachedParameters.Proofs.Text.Numeral
import CachedParameters.Proofs.Real.Equality
import CachedParameters.Proofs.Document.Equality
import CachedParameters.Proofs.Provider.EqualOptions
import CachedParameters.Proofs.Hub.Clients
import CachedParameters.Proofs.Memory.Typed
