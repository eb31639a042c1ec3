import Std.Data.TreeMap
import Cadastre.Chunk.Writer
/-!
# Cadastre.Generator.Hooks

**Hooks** around the making of a chunk, and a cache of chunks that works as one.

A hook edits the chunk and says whether it handled it. A chunk that the first hook handles is not
built at all.
-/

namespace Cadastre

/-- What is done before and after a chunk is built, with a state of type `σ`. -/
structure Hooks (σ : Type) where
  before : String → Edit (Chunk × σ) Bool := fun _ => pure false
  after : String → Edit (Chunk × σ) Bool := fun _ => pure false

/-- Chunks that are to be used instead of building them, once each. -/
structure ChunkCache where
  chunks : Std.TreeMap (String × ChunkCoord) Chunk (compareLex (compareOn Prod.fst) (compareOn Prod.snd))
    := ∅

namespace ChunkCache

/-- The number of stored chunks. -/
def size (cache : ChunkCache) : Nat := cache.chunks.size

/-- The cache with a chunk stored for a world, in the place of an older one. -/
def store (cache : ChunkCache) (world : String) (c : Chunk) : ChunkCache :=
  ⟨cache.chunks.insert (world, c.coord) c⟩

/-- Lays the stored chunk over a chunk and forgets it; `none` where none is stored. -/
def replay? (cache : ChunkCache) (world : String) (c : Chunk) : Option (Chunk × ChunkCache) :=
  cache.chunks[(world, c.coord)]?.map fun stored =>
    (c.overlay stored, ⟨cache.chunks.erase (world, c.coord)⟩)

/-- The replay of a cache that is part of a larger state. -/
def replay {σ : Type} (cache : σ → ChunkCache) (put : ChunkCache → σ → σ) (world : String) :
    Edit (Chunk × σ) Bool :=
  modifyGet fun (c, s) =>
    match (cache s).replay? world c with
    | some (c, rest) => (true, (c, put rest s))
    | none => (false, (c, s))

/-- Hooks that replay a cache. -/
def hooks : Hooks ChunkCache where
  before := replay id fun cache _ => cache

end ChunkCache

end Cadastre
