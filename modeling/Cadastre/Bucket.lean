import Cadastre.Block
import Cadastre.Failure
import Cadastre.Text.Cut
/-!
# Cadastre.Bucket

**Block buckets**: weighted mixes of blocks, from which a layer of an area is filled.

Design points:

* A bucket is never empty and no weight is zero, so that a choice always falls on an entry.
* The choice depends on the position alone. It is spread by a hash of the coordinates, so a chunk
  looks the same however often it is made.
* The written form is `name:weight` parts between commas, where the weight 1 is left out.
-/

namespace Cadastre

/-- One block of a bucket and its share. -/
structure Share where
  block : Block
  weight : Nat
  deriving DecidableEq, Repr

/-- A mix of blocks by weight: a first share and any number of further ones. -/
structure Bucket where
  first : Share
  rest : List Share
  deriving DecidableEq, Repr

namespace Bucket

/-- The greatest weight, of a share and of a bucket. -/
def maxWeight : Nat := 4294967295

/-- A bucket of one block. -/
def single (b : Block) : Bucket := ⟨⟨b, 1⟩, []⟩

def shares (b : Bucket) : List Share := b.first :: b.rest

/-- Whether a bucket has one share only. -/
def isSingle (b : Bucket) : Bool := b.rest.isEmpty

/-- The blocks of a bucket, in order. -/
def blocks (b : Bucket) : List Block := b.shares.map Share.block

/-- The sum of the weights. -/
def total (b : Bucket) : Nat := b.shares.foldr (fun s n => s.weight + n) 0

/-! ### Choice -/

/-- A number spread evenly over 32 bits that depends on a position alone. -/
def positionHash (x y z : Int32) : UInt32 :=
  let h := (x.toUInt32 * 0x9E3779B1) ^^^ (y.toUInt32 * 0x85EBCA77) ^^^ (z.toUInt32 * 0xC2B2AE3D)
  let h := (h ^^^ (h >>> 15)) * 0x2C1B3C6D
  h ^^^ (h >>> 12)

/-- The block at a place of the shares laid end to end, each as long as its weight. Beyond the end
it is the last block. -/
def blockAt (current : Share) : List Share → Nat → Block
  | [], _ => current.block
  | next :: rest, place =>
    if place < current.weight then current.block else blockAt next rest (place - current.weight)

/-- The block that a bucket has at a position. -/
def pick (b : Bucket) (x y z : Int32) : Block :=
  blockAt b.first b.rest ((positionHash x y z).toNat % b.total)

/-! ### Text -/

/-- The name and the weight that a part of a bucket's text gives, if it gives a weight: the text
before the last colon and the digits after it. A part whose last colon is followed by anything but
digits is a name. -/
def weighted? (part : List Char) : Option (List Char × List Char) :=
  match Text.cutLast? ':' part with
  | some (name, digits) => if digits.all Char.isDigit then some (name, digits) else none
  | none => none

/-- The weight that digits write. -/
def weight? (digits : List Char) : Option Nat := (Text.Numeral.nat? digits).filter (· ≤ maxWeight)

/-- The share that one part of a bucket's text stands for. -/
def parseShare (part : List Char) : Except BucketError Share := do
  let (name, weight) ← match weighted? part with
    | some (name, digits) =>
      match weight? digits with
      | some weight => pure (String.ofList name, weight)
      | none => throw (.weight (String.ofList part))
    | none => pure (String.ofList part, 1)
  if weight = 0 then throw (.zeroWeight name)
  match Block.ofName? name with
  | some block => pure ⟨block, weight⟩
  | none => throw (.unknownBlock name)

/-- The parts of a bucket's text: cut at commas, without blanks around them, the empty ones left
out. -/
def parts (text : String) : List (List Char) :=
  ((text.toList.splitOn ',').map Text.trimList).filter fun part => !part.isEmpty

/-- The bucket that a text writes, whatever the sum of its weights. -/
def parseShares (text : String) : Except BucketError Bucket := do
  match ← (parts text).mapM parseShare with
  | [] => throw (.empty text)
  | first :: rest => pure ⟨first, rest⟩

/-- Why a text yields no bucket. -/
inductive Refusal
  | text (cause : BucketError)
  /-- The sum of the weights is no 32-bit number. -/
  | total
  deriving DecidableEq, Repr

/-- The bucket that a text writes. -/
def read (text : String) : Except Refusal Bucket :=
  match parseShares text with
  | .error cause => .error (.text cause)
  | .ok bucket => if bucket.total ≤ maxWeight then .ok bucket else .error .total

/-- The bucket that a text writes, as a setting. -/
def parse (text : String) : Except Failure Bucket :=
  match read text with
  | .ok bucket => .ok bucket
  | .error (.text cause) => .error (.config (.bucket cause))
  | .error .total => .error (.abort (.overflow .add))

/-- The written form of a share: the block's full name, and the weight unless it is 1. -/
def shareText (s : Share) : String :=
  if s.weight = 1 then s.block.name else s.block.name ++ ":" ++ numeral s.weight

/-- The written form of a bucket. -/
def text (b : Bucket) : String := ",".intercalate (b.shares.map shareText)

end Bucket

end Cadastre
