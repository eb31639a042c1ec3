import Cadastre.Arithmetic
import Cadastre.Chunk.Encoding
import Cadastre.Generator
/-!
# Cadastre.Server.Summary

**What a run did**: counts for each world, and a receiver of chunks that only counts.
-/

namespace Cadastre

/-- What the requests for the chunks of a world came to. -/
structure WorldSummary where
  world : String
  generated : Nat := 0
  fallback : Nat := 0
  skipped : Nat := 0
  void : Nat := 0
  /-- Columns built by the area, over all chunks. -/
  columns : Nat := 0
  deriving DecidableEq, Repr

namespace WorldSummary

/-- The summary with one more outcome. -/
def record (s : WorldSummary) : ChunkOutcome → WorldSummary
  | .generated columns => { s with generated := s.generated + 1, columns := s.columns + columns }
  | .fallback columns => { s with fallback := s.fallback + 1, columns := s.columns + columns }
  | .skipped => { s with skipped := s.skipped + 1 }
  | .void => { s with void := s.void + 1 }

/-- The number of outcomes. -/
def total (s : WorldSummary) : Except Failure Nat :=
  Checked.count (s.generated + s.fallback + s.skipped + s.void)

def text (s : WorldSummary) : String :=
  "; " ++ s.world ++ ": " ++ numeral s.generated ++ " generated, " ++ numeral s.fallback
    ++ " fallback, " ++ numeral s.skipped ++ " skipped, " ++ numeral s.void ++ " void"

end WorldSummary

/-- What a run did. -/
structure RunSummary where
  worlds : List WorldSummary
  /-- Chunks that were handed on, over all rounds of flushing. -/
  committed : Nat
  deriving DecidableEq, Repr

def RunSummary.text (s : RunSummary) : String :=
  "Committed " ++ numeral s.committed ++ " chunk(s)" ++ String.join (s.worlds.map WorldSummary.text)

/-- The chunks, blocks and bytes that a receiver has counted. -/
structure Tally where
  chunks : Nat := 0
  blocks : Nat := 0
  bytes : Nat := 0
  deriving DecidableEq, Repr

namespace Tally

/-- The tally with one more chunk. -/
def count (t : Tally) (c : Chunk) : Tally :=
  ⟨t.chunks + 1, t.blocks + c.blockCount, t.bytes + c.bytes.length⟩

def text (t : Tally) : String :=
  "Done: " ++ numeral t.chunks ++ " chunk(s), " ++ numeral t.blocks ++ " block(s), "
    ++ numeral t.bytes ++ " byte(s) encoded"

/-- A receiver that counts. Completions of a run are lines to be logged. -/
def sink : Sink LogLine Tally where
  commit _ c := modify fun h => { h with host := h.host.count c }
  complete := Hosted.addLine

end Tally

end Cadastre
