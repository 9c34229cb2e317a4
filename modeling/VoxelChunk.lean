import VoxelChunk.Grid.Position
import VoxelChunk.Grid.Face
import VoxelChunk.Grid.Height
import VoxelChunk.Grid.Cell
import VoxelChunk.Wire.Bytes
import VoxelChunk.Wire.VarInt
import VoxelChunk.Map.Keyed
import VoxelChunk.Runs
import VoxelChunk.Text.Hex
import VoxelChunk.Text.Printable
import VoxelChunk.Text.Quoted
import VoxelChunk.Text.Shortest
import VoxelChunk.Tag.Basic
import VoxelChunk.Tag.Path
import VoxelChunk.Tag.Text
import VoxelChunk.Block.Facts
import VoxelChunk.Storage.Packed
import VoxelChunk.Storage.Error
import VoxelChunk.Storage.Container
import VoxelChunk.Storage.Checked
import VoxelChunk.Storage.Codec
import VoxelChunk.Section
import VoxelChunk.Heightmap.Kind
import VoxelChunk.Heightmap.Columns
import VoxelChunk.Biome
import VoxelChunk.Schedule.World
import VoxelChunk.Schedule.Chunk
import VoxelChunk.Ticker
import VoxelChunk.Listener
import VoxelChunk.Structure
import VoxelChunk.Fault
import VoxelChunk.Entity
import VoxelChunk.Level
import VoxelChunk.Chunk.Basic
import VoxelChunk.Chunk.Registry
import VoxelChunk.Chunk.Blocks
import VoxelChunk.Chunk.Heights
import VoxelChunk.Chunk.Ticks
import VoxelChunk.Chunk.Entities
import VoxelChunk.Chunk.Write
import VoxelChunk.Chunk.Packet
import VoxelChunk.Chunk.Settle
import VoxelChunk.World.Basic
import VoxelChunk.World.Ticking
import VoxelChunk.Proofs.Storage.Unreadable
import VoxelChunk.Proofs.Section.Counts
import VoxelChunk.Proofs.Chunk.Pointwise
import VoxelChunk.Proofs.Chunk.Surfaces
import VoxelChunk.Proofs.Chunk.Packet
import VoxelChunk.Proofs.Chunk.Mirror
import VoxelChunk.Proofs.Schedule
import VoxelChunk.Proofs.Chunk.Replay
import VoxelChunk.Proofs.Chunk.Moves
import VoxelChunk.Proofs.Chunk.Edits
import VoxelChunk.Proofs.Chunk.Owners
import VoxelChunk.Proofs.World.Edits
import VoxelChunk.Proofs.World.Owners
import VoxelChunk.Proofs.Chunk.Lending
import VoxelChunk.Proofs.World.Lending
import VoxelChunk.Proofs.Chunk.Readable
import VoxelChunk.Proofs.Chunk.Dormant
import VoxelChunk.Proofs.Chunk.Forgotten
import VoxelChunk.Proofs.Chunk.Heard
import VoxelChunk.Proofs.World.Heard
import VoxelChunk.Proofs.World.Passes
import VoxelChunk.Proofs.Handles
import VoxelChunk.Proofs.Chunk.Lasting
import VoxelChunk.Proofs.World.Newcomers
import VoxelChunk.Proofs.Chunk.Statuses
import VoxelChunk.Proofs.Chunk.Rejected
import VoxelChunk.Proofs.Chunk.Accepted
import VoxelChunk.Proofs.Tag
import VoxelChunk.Proofs.Chunk.Elsewhere
import VoxelChunk.Proofs.Chunk.Lookup
import VoxelChunk.Proofs.Chunk.Saved
import VoxelChunk.Proofs.World.Unloading
import VoxelChunk.Proofs.Chunk.Settling
import VoxelChunk.Proofs.World.Settling
import VoxelChunk.Proofs.Schedule.Due
import VoxelChunk.Proofs.Schedule.Handover
import VoxelChunk.Proofs.Chunk.Words
import VoxelChunk.Proofs.Chunk.Seniority
import VoxelChunk.Proofs.World.Seniority
import VoxelChunk.Proofs.Wire.VarInt
import VoxelChunk.Proofs.Biome
import VoxelChunk.Proofs.Biome.Bytes
import VoxelChunk.Proofs.Chunk.Lights
import VoxelChunk.Proofs.Storage.Bits
import VoxelChunk.Proofs.Tag.Walk
import VoxelChunk.Proofs.Grid.Addresses
import VoxelChunk.Proofs.Heightmap.Bounds
import VoxelChunk.Proofs.Schedule.Agreement
