import VideoGateway.Config
import VideoGateway.Gateway.Routes
import VideoGateway.Gateway.World
import VideoGateway.Http.Client
import VideoGateway.Proofs.Task.Lifecycle
import VideoGateway.Proofs.Task.Store
import VideoGateway.Proofs.Vendor.Outcome
import VideoGateway.Proofs.Gateway.Effects
import VideoGateway.Proofs.Gateway.SingleTask
import VideoGateway.Proofs.Gateway.Reach
import VideoGateway.Proofs.Capability.Coherence
import VideoGateway.Proofs.Gateway.Polling
import VideoGateway.Proofs.Gateway.Requests
import VideoGateway.Proofs.Gateway.Run
import VideoGateway.Proofs.Vendor.Payload
import VideoGateway.Proofs.Json.Record
import VideoGateway.Proofs.Vendor.Refusal
import VideoGateway.Proofs.Json.Rereading
import VideoGateway.Proofs.Vendor.KeptAnswer
import VideoGateway.Proofs.Gateway.Written
import VideoGateway.Proofs.Gateway.Document
import VideoGateway.Proofs.Task.StoreMap
import VideoGateway.Proofs.Gateway.Overlap
import VideoGateway.Proofs.Vendor.VideoAddress
import VideoGateway.Proofs.Gateway.RefusedPoll
import VideoGateway.Proofs.Text.Utf8
import VideoGateway.Proofs.Json.Numeral
import VideoGateway.Proofs.Json.Quoted
import VideoGateway.Proofs.Json.Written
import VideoGateway.Proofs.Json.Outline
import VideoGateway.Proofs.Gateway.Confinement
import VideoGateway.Proofs.Gateway.Confluence
import VideoGateway.Proofs.Generation.FixedPoint
import VideoGateway.Proofs.Gateway.Upheld
import VideoGateway.Proofs.Gateway.KeyConfinement
import VideoGateway.Proofs.Gateway.Rekeying
import VideoGateway.Proofs.Gateway.Authorization
import VideoGateway.Proofs.Gateway.DurableCopy
import VideoGateway.Proofs.Price.Counting
import VideoGateway.Proofs.Price.Pattern
import VideoGateway.Proofs.Price.Soundness
import VideoGateway.Proofs.Vendor.Acceptance
import VideoGateway.Proofs.Generation.Fallback
import VideoGateway.Proofs.Vendor.Substitution
import VideoGateway.Proofs.Generation.Size
import VideoGateway.Proofs.Generation.Ratio
import VideoGateway.Proofs.Generation.Resolution
import VideoGateway.Proofs.Generation.Metadata
import VideoGateway.Proofs.Vendor.PixelSize
import VideoGateway.Proofs.Gateway.Installation
import VideoGateway.Proofs.Storage.ObjectMap
import VideoGateway.Proofs.Storage.VideoExtension
import VideoGateway.Proofs.Storage.VideoKey
import VideoGateway.Proofs.Storage.Links
import VideoGateway.Proofs.Gateway.TaskQuestion
import VideoGateway.Proofs.Gateway.Retrying
import VideoGateway.Proofs.Gateway.FailedSubmission
import VideoGateway.Proofs.Vendor.KeptReport
import VideoGateway.Proofs.Storage.LinkHeader
import VideoGateway.Proofs.Gateway.Serving
