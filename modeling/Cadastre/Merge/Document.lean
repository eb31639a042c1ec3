import Cadastre.Json.Decode
import Cadastre.Json.Value
import Cadastre.Merge
/-!
# Cadastre.Merge.Document

**Merge states as JSON documents.** A document holds the bits as they are, also such as stand for no
direction.
-/

namespace Cadastre.MergeState

open Json

def json (s : MergeState) : Json := .obj [("bits", .int s.bits.toNat)]

def fields : List (RecordField MergeState) :=
  [.of "bits" (.integer fun n => 0 ≤ n && n ≤ 255) fun n _ => ⟨n.toNat.toUInt8⟩]

def decoder : Decoder MergeState := .record fields true .none

end Cadastre.MergeState
