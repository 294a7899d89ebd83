import Moniker.Description.OfSymbol
import Moniker.Digest.Xxh3
import Moniker.Event

/-!
# Keys

A key is a portable description of a symbol: made against one compilation, it can be
resolved against another, or against a later snapshot of the same one. It is a sequence of
frames and the version of the format that the frames are in. Keys have a text form
(`render`), a byte form (`toBytes`, `ofBytes`) and a `fingerprint`.
-/

namespace Moniker

/-- Frames, and the version of the format that they are in. -/
structure Key where
  version : UInt32
  frames : List Frame
  deriving Repr, DecidableEq

namespace Key

/-- The version of the format that this library writes and reads. -/
def currentVersion : UInt32 := 1

def ofFrames (frames : List Frame) : Key := ⟨currentVersion, frames⟩

/-- The key of a symbol. -/
def ofSymbol (c : Compilation) (s : SymbolId) : Except Fault Key := do
  return ofFrames (← Description.ofSymbol c [] s).frames

/-- The text form: the version, then the frames. -/
def render (k : Key) : String :=
  " ".intercalate (("v" ++ toString k.version.toNat) :: k.frames.map Frame.render)

/-- Makes the key of a symbol, and says so. -/
def create (c : Compilation) (s : SymbolId) : Except Fault (Key × Event) := do
  let key ← ofSymbol c s
  return (key, .created key.render)

/-- The category of the outermost segment. -/
def category? (k : Key) : Option Category :=
  match k.frames with
  | .kind category :: _ => some category
  | _ => none

/-! ## Byte form -/

def format : Wire.Format Key where
  write k :=
    Wire.Format.uint32.write k.version ++ (Wire.Format.sequence Frame.format).write k.frames
  read := return ⟨← Wire.Format.uint32.read, ← (Wire.Format.sequence Frame.format).read⟩

def toBytes (k : Key) : List UInt8 := format.write k

/-- Reads a key of any version. -/
def ofBytesOfAnyVersion (octets : List UInt8) : Except Defect Key :=
  (format.decode octets).mapError .encoding

def checkVersion (version : UInt32) : Except Defect Unit :=
  if version = currentVersion then .ok () else .error (.version version currentVersion)

/-- Reads a key. The version is looked at before the frames are, so a key in another format
is reported as that and not as garbage. -/
def ofBytes (octets : List UInt8) : Except Defect Key := do
  checkVersion (← (Wire.Format.uint32.decode octets).mapError .encoding)
  ofBytesOfAnyVersion octets

/-! ## Fingerprints -/

/-- What a frame contributes to the fingerprint: a tag that says what follows, then the
content. Texts have their length in front, everything else a fixed one. -/
def fingerprintFrame : Frame → List UInt8
  | .kind category => [0, UInt8.ofNat category.letter.toNat]
  | .text none => [1]
  | .text (some s) =>
    let octets := Text.Utf8.encode s
    2 :: (Wire.littleEndian 8 octets.length ++ octets)
  | .bool b => [3, if b then 1 else 0]
  | .int n => 4 :: Wire.Format.int64.write n
  | .array presence n =>
    let presence := match presence with
      | .absent => 0
      | .empty => 1
      | .populated => 2
    [5, presence] ++ Wire.Format.uint32.write n

/-- The octets that the fingerprint is the digest of. -/
def fingerprintBytes (k : Key) : List UInt8 :=
  Wire.Format.uint32.write k.version ++ k.frames.flatMap fingerprintFrame

/-- A stable digest of the key. -/
def fingerprint (k : Key) : UInt64 := Digest.Xxh3.digest k.fingerprintBytes

/-- The lowest hexadecimal digits of a number, the highest of them first. -/
def hexDigits : (digits n : Nat) → List Char
  | 0, _ => []
  | digits + 1, n => hexDigits digits (n / 16) ++ [(n % 16).digitChar]

/-- The fingerprint in hexadecimal. -/
def fingerprintText (k : Key) : String := String.ofList (hexDigits 16 k.fingerprint.toNat)

/-! ## Equivalence -/

/-- Whether two keys agree frame by frame, if wanted regardless of the case of texts. -/
def equivalent (k other : Key) (ignoreCase : Bool) : Bool :=
  k.version == other.version && k.frames.length == other.frames.length &&
    (k.frames.zip other.frames).all fun pair =>
      if ignoreCase then pair.1.equalsIgnoringCase pair.2 else pair.1 == pair.2

end Key
end Moniker
