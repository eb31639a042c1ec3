import Cadastre.Main
import Cadastre.Merge.Document
import Cadastre.Settings.Fit
import Cadastre.Proofs.Bucket.Choice
import Cadastre.Proofs.Bucket.Spelling
import Cadastre.Proofs.Edit
import Cadastre.Proofs.Grid.Axis
import Cadastre.Proofs.Grid.Claims
import Cadastre.Proofs.Grid.Contact
import Cadastre.Proofs.Grid.Geometry
import Cadastre.Proofs.Grid.Mirror
import Cadastre.Proofs.Grid.Step
import Cadastre.Proofs.Json.Records
import Cadastre.Proofs.Json.Rendering
import Cadastre.Proofs.Merge.Claims
import Cadastre.Proofs.Merge.Crossing
import Cadastre.Proofs.Merge.Enclosure
import Cadastre.Proofs.Merge.Fusion
import Cadastre.Proofs.Merge.Growth
import Cadastre.Proofs.Merge.Isolation
import Cadastre.Proofs.Merge.Locality
import Cadastre.Proofs.Merge.Nearby
import Cadastre.Proofs.Merge.Pairs
import Cadastre.Proofs.Merge.Suppression
import Cadastre.Proofs.Merge.Symmetry
import Cadastre.Proofs.Merge.Unmerged
import Cadastre.Proofs.Section.History
import Cadastre.Proofs.Section.Packed
import Cadastre.Proofs.Section.Valid
import Cadastre.Proofs.Chunk.Blocks
import Cadastre.Proofs.Chunk.Coat
import Cadastre.Proofs.Chunk.Column
import Cadastre.Proofs.Chunk.Count
import Cadastre.Proofs.Chunk.Decoding
import Cadastre.Proofs.Chunk.History
import Cadastre.Proofs.Chunk.Position
import Cadastre.Proofs.Layout.Building
import Cadastre.Proofs.Layout.Fresh
import Cadastre.Proofs.Layout.Content
import Cadastre.Proofs.Layout.Forwarding
import Cadastre.Proofs.Queue.Conservation
import Cadastre.Proofs.Queue.Daybook
import Cadastre.Proofs.Queue.Flush
import Cadastre.Proofs.Queue.Pending
import Cadastre.Proofs.Queue.Promises
import Cadastre.Proofs.Queue.Views
import Cadastre.Proofs.Queue.Whereabouts
import Cadastre.Proofs.Generator.Answered
import Cadastre.Proofs.Generator.Fallback
import Cadastre.Proofs.Generator.Loading
import Cadastre.Proofs.Generator.Regeneration
import Cadastre.Proofs.Generator.Replay
import Cadastre.Proofs.Generator.Spawning
import Cadastre.Proofs.Queue.Calls
import Cadastre.Proofs.Queue.Whole
import Cadastre.Proofs.Queue.Newest
import Cadastre.Proofs.Queue.Stepwise
import Cadastre.Proofs.Grid.Queries
import Cadastre.Proofs.Queue.Interruption
import Cadastre.Proofs.Server.Committed
import Cadastre.Proofs.Server.Product
import Cadastre.Proofs.Server.Requests
import Cadastre.Proofs.Server.Delivery
import Cadastre.Proofs.Server.Schedule
import Cadastre.Proofs.Settings.Blanks
import Cadastre.Proofs.Settings.Document
import Cadastre.Proofs.Settings.Fit
