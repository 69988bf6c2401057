import Dispatch.Availability.Cache
import Dispatch.Availability.Pool
import Dispatch.Decimal.Binary
import Dispatch.Decimal.Places
import Dispatch.Decimal.Reading
import Dispatch.Decimal.Shortest
import Dispatch.Error
import Dispatch.Feed
import Dispatch.Http.MediaType
import Dispatch.Http.Percent
import Dispatch.Http.Query
import Dispatch.Http.Request
import Dispatch.Http.Respond
import Dispatch.Http.Response
import Dispatch.Http.Route
import Dispatch.Json.Decode
import Dispatch.Json.Doc
import Dispatch.Json.Numeral
import Dispatch.Json.Token
import Dispatch.Json.Value
import Dispatch.Location
import Dispatch.Matching
import Dispatch.Metrics
import Dispatch.Program
import Dispatch.Proofs.Matching.Confirmations
import Dispatch.Proofs.Matching.Proposals
import Dispatch.Proofs.Service.Competition
import Dispatch.Proofs.Store.Index
import Dispatch.Proofs.Store.Serial
import Dispatch.Proposal.Basic
import Dispatch.Proposal.Status
import Dispatch.Proposal.Wire
import Dispatch.Queue
import Dispatch.Rides.Binding
import Dispatch.Rides.Cache
import Dispatch.Service.Background
import Dispatch.Service.Basic
import Dispatch.Service.Upkeep
import Dispatch.Settings
import Dispatch.Socket
import Dispatch.Store.Basic
import Dispatch.Store.Faults
import Dispatch.Store.Locks
import Dispatch.Store.Steps
import Dispatch.Table
import Dispatch.Text.Blank
import Dispatch.Text.Digits
import Dispatch.Text.Split
import Dispatch.Text.Utf8
import Dispatch.Time.Calendar
import Dispatch.Time.Instant
import Dispatch.Time.Timestamp
import Dispatch.Uuid
import Dispatch.Proofs.Availability.Entries
import Dispatch.Proofs.Availability.Weather
import Dispatch.Proofs.Availability.Agreement
import Dispatch.Proofs.Availability.Crowd
import Dispatch.Proofs.Store.Queues
import Dispatch.Proofs.Store.Shadow
import Dispatch.Proofs.Store.Absence
import Dispatch.Proofs.Store.Traceless
import Dispatch.Proofs.Service.Consent
import Dispatch.Proofs.Service.Grounds
import Dispatch.Proofs.Service.Agency
import Dispatch.Proofs.Availability.Sweeping
import Dispatch.Proofs.Rides.Registry
import Dispatch.Proofs.Matching.Balance
import Dispatch.Proofs.Store.Vacant
import Dispatch.Proofs.Matching.AllOrNothing
import Dispatch.Proofs.Store.Reached
import Dispatch.Proofs.Store.Passing
import Dispatch.Proofs.Matching.Rejections
import Dispatch.Proofs.Matching.Competitors
import Dispatch.Proofs.Matching.Acceptances
import Dispatch.Proofs.Availability.Removal
import Dispatch.Proofs.Availability.Healing
import Dispatch.Proofs.Availability.Staleness
import Dispatch.Proofs.Availability.Search
import Dispatch.Proofs.Rides.ReadBack
import Dispatch.Proofs.Service.Cutoff
import Dispatch.Proofs.Variables
import Dispatch.Proofs.Store.Batches
import Dispatch.Proofs.Digits
import Dispatch.Proofs.Json.Numerals
import Dispatch.Proofs.Json.Texts
import Dispatch.Proofs.Calendar
import Dispatch.Proofs.Timestamps
import Dispatch.Proofs.Json.Records
import Dispatch.Proofs.Wire
import Dispatch.Proofs.Matching.RoundTrip
import Dispatch.Proofs.Store.Restaging
import Dispatch.Proofs.Matching.Halves
import Dispatch.Proofs.Matching.Tidy
