import Moniker.Text.Utf8

/-!
# Byte formats

A format pairs a writer of octets with a reader of them. Numbers have a fixed width and put
the least significant octet first, a choice among alternatives is a 32-bit index, and texts
and sequences carry their length in front. The reader reports the first problem in stream
order and hands back the octets it has not read, so what follows a value is not its concern.
-/

namespace Moniker.Wire

/-- Why octets are not the written form of a value. -/
inductive Malformed where
  /-- The octets end inside a fixed-width field. -/
  | endOfInput
  /-- A text announces more octets than are left. -/
  | shortText
  /-- An index `found` where only those below `bound` stand for something. -/
  | unknownVariant (found : Nat) (bound : Nat)
  | notTruthValue (found : UInt8)
  | notOptionTag (found : UInt8)
  | notText (reason : Text.Utf8.Invalid)
  deriving Repr, DecidableEq

/-- Wording of a malformed byte form. -/
def Malformed.message : Malformed → String
  | .endOfInput => "io error: unexpected end of file"
  | .shortText => "io error: "
  | .unknownVariant found bound =>
    s!"invalid value: integer `{found}`, expected variant index 0 <= i < {bound}"
  | .notTruthValue found => s!"invalid u8 while decoding bool, expected 0 or 1, found {found.toNat}"
  | .notOptionTag found => s!"tag for enum is not valid, found {found.toNat}"
  | .notText reason => s!"string is not valid utf8: {reason.message}"

/-- A reading step: consumes octets from the front of what is left. -/
abbrev Read := StateT (List UInt8) (Except Malformed)

/-- A way to write values as octets, and to read them back. -/
structure Format (α : Type) where
  write : α → List UInt8
  read : Read α

/-- The `width` octets of a number, least significant first. -/
def littleEndian : (width n : Nat) → List UInt8
  | 0, _ => []
  | width + 1, n => UInt8.ofNat (n % 256) :: littleEndian width (n / 256)

/-- The number that octets spell, least significant first. -/
def ofLittleEndian : List UInt8 → Nat
  | [] => 0
  | octet :: rest => octet.toNat + 256 * ofLittleEndian rest

/-- The first `n` octets and those after them, if there are that many. -/
def split? : Nat → List UInt8 → Option (List UInt8 × List UInt8)
  | 0, rest => some ([], rest)
  | _ + 1, [] => none
  | n + 1, octet :: rest => (split? n rest).map fun parts => (octet :: parts.1, parts.2)

/-- Takes exactly `n` octets, or reports `shortage`. -/
def take (n : Nat) (shortage : Malformed) : Read (List UInt8) := fun octets =>
  match split? n octets with
  | some parts => .ok parts
  | none => .error shortage

/-- Reads a number of `width` octets. -/
def number (width : Nat) : Read Nat := do
  return ofLittleEndian (← take width .endOfInput)

/-- Reads `n` values in a row. -/
def repeated (read : Read α) : Nat → Read (List α)
  | 0 => pure []
  | n + 1 => do
    let value ← read
    return value :: (← repeated read n)

/-- The index that opens the written form of a choice. -/
def variant (index : Nat) : List UInt8 := littleEndian 4 index

/-- Reads an index below `bound`. -/
def readVariant (bound : Nat) : Read Nat := do
  let found ← number 4
  if found < bound then return found else throw (.unknownVariant found bound)

namespace Format

def uint8 : Format UInt8 where
  write n := [n]
  read := return UInt8.ofNat (← number 1)

def uint32 : Format UInt32 where
  write n := littleEndian 4 n.toNat
  read := return UInt32.ofNat (← number 4)

def uint64 : Format UInt64 where
  write n := littleEndian 8 n.toNat
  read := return UInt64.ofNat (← number 8)

/-- Signed words are written through their two's complement. -/
def int64 : Format Int64 where
  write n := uint64.write n.toUInt64
  read := return (← uint64.read).toInt64

def bool : Format Bool where
  write b := [if b then 1 else 0]
  read := do
    match ← uint8.read with
    | 0 => return false
    | 1 => return true
    | found => throw (.notTruthValue found)

/-- A length in octets, then the text. -/
def text : Format String where
  write s := littleEndian 8 (Text.Utf8.encode s).length ++ Text.Utf8.encode s
  read := do
    let octets ← take (← number 8) .shortText
    match Text.Utf8.decode octets with
    | .ok s => return s
    | .error reason => throw (.notText reason)

/-- A tag octet, then the value if there is one. -/
def option (format : Format α) : Format (Option α) where
  write
    | none => [0]
    | some value => 1 :: format.write value
  read := do
    match ← uint8.read with
    | 0 => return none
    | 1 => return some (← format.read)
    | found => throw (.notOptionTag found)

/-- A length in values, then the values. -/
def sequence (format : Format α) : Format (List α) where
  write values := littleEndian 8 values.length ++ values.flatMap format.write
  read := do repeated format.read (← number 8)

/-- A bare choice among the listed values, written as its place in the list. -/
def choice [DecidableEq α] (all : List α) : Format α where
  write value := variant (all.idxOf value)
  read := do
    let found ← number 4
    match all[found]? with
    | some value => return value
    | none => throw (.unknownVariant found all.length)

/-- Reads one value and ignores the octets after it. -/
def decode (format : Format α) (octets : List UInt8) : Except Malformed α :=
  (format.read octets).map Prod.fst

end Format
end Moniker.Wire
