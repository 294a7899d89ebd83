import Moniker.Category
import Moniker.Presence
import Moniker.Text.Lowercase
import Moniker.Text.Quoted

/-!
# Frames

A key is a flat sequence of frames. Apart from the kind frame at the head of every segment
and the header of every array there is no framing: what reads a key has to consume exactly
what was written, in order.
-/

namespace Moniker

/-- The unit that keys are made of. -/
inductive Frame where
  /-- Opens the segment of one symbol. -/
  | kind (category : Category)
  | text (value : Option String)
  | bool (value : Bool)
  | int (value : Int64)
  /-- Announces an array and the number of its elements. -/
  | array (presence : Presence) (count : UInt32)
  deriving Repr, DecidableEq

namespace Frame

/-- What a frame holds, whatever its value. -/
inductive Content where
  | kind
  | text
  | bool
  | int
  | array
  deriving Repr, DecidableEq

/-- The words used for a content in defects. -/
def Content.label : Content → String
  | .kind => "symbol kind"
  | .text => "string"
  | .bool => "boolean"
  | .int => "integer"
  | .array => "array header"

def content : Frame → Content
  | .kind _ => .kind
  | .text _ => .text
  | .bool _ => .bool
  | .int _ => .int
  | .array _ _ => .array

/-- Equality that disregards the case of texts. -/
def equalsIgnoringCase : Frame → Frame → Bool
  | .text (some a), .text (some b) => Text.lower a == Text.lower b
  | a, b => a == b

/-- The largest number that an integer frame holds. -/
def maxCount : Nat := Int64.size / 2 - 1

/-- A number as a frame. Numbers past the largest that fits are written as that one. -/
def count (n : Nat) : Frame := .int (Int64.ofNat (min n maxCount))

/-- The header of an array of `n` elements. A number of elements past the largest that fits
is written as that one, and then announces fewer elements than follow. -/
def header (presence : Presence) (n : Nat) : Frame :=
  .array presence (UInt32.ofNat (min n (UInt32.size - 1)))

/-- The compact text form. -/
def render : Frame → String
  | .kind category => category.letter.toString
  | .text none => "#"
  | .text (some s) => Text.Quoted.quote s
  | .bool true => "T"
  | .bool false => "F"
  | .int n => toString n.toInt
  | .array .absent _ => "%#"
  | .array _ n => "%" ++ toString n.toNat

/-- A choice among the five frames, each followed by its content. -/
def format : Wire.Format Frame where
  write
    | .kind category => Wire.variant 0 ++ Category.format.write category
    | .text value => Wire.variant 1 ++ (Wire.Format.option .text).write value
    | .bool value => Wire.variant 2 ++ Wire.Format.bool.write value
    | .int value => Wire.variant 3 ++ Wire.Format.int64.write value
    | .array presence n =>
      Wire.variant 4 ++ Presence.format.write presence ++ Wire.Format.uint32.write n
  read := do
    match ← Wire.readVariant 5 with
    | 0 => return .kind (← Category.format.read)
    | 1 => return .text (← (Wire.Format.option .text).read)
    | 2 => return .bool (← Wire.Format.bool.read)
    | 3 => return .int (← Wire.Format.int64.read)
    | _ => return .array (← Presence.format.read) (← Wire.Format.uint32.read)

end Frame
end Moniker
