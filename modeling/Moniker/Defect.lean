import Moniker.Frame

/-!
# Defects

A defect makes a key, or a call to resolve it, unusable: the frames are not the frames of
one key, the key is nested too deeply, the octets do not decode. A symbol that cannot be
found is not a defect. Each defect is reported as a kind and a message.
-/

namespace Moniker

/-- The sorts of defects that callers tell apart. -/
inductive DefectKind where
  | version
  | malformed
  | truncated
  | tooDeep
  | cancelled
  | encoding
  deriving Repr, DecidableEq

namespace DefectKind

def all : List DefectKind := [.version, .malformed, .truncated, .tooDeep, .cancelled, .encoding]

/-- The kind's name. -/
def title : DefectKind → String
  | .version => "Version"
  | .malformed => "Malformed"
  | .truncated => "Truncated"
  | .tooDeep => "TooDeep"
  | .cancelled => "Cancelled"
  | .encoding => "Encoding"

/-- The words that open the report of a defect. -/
def label : DefectKind → String
  | .version => "version error"
  | .malformed => "malformed key"
  | .truncated => "truncated key"
  | .tooDeep => "nesting error"
  | .cancelled => "cancelled"
  | .encoding => "encoding error"

end DefectKind

/-- The report of a defect. -/
structure DefectReport where
  kind : DefectKind
  message : String
  deriving Repr, DecidableEq

/-- Kind and message in one line. -/
def DefectReport.render (e : DefectReport) : String := e.kind.label ++ ": " ++ e.message

/-- What is wrong with a key, or with a call to resolve it. Positions count frames from
zero. -/
inductive Defect where
  /-- The key was written in a format other than the `supported` one. -/
  | version (found supported : UInt32)
  /-- No frame stands at the position. -/
  | truncated (position : Nat)
  /-- The frame at the position holds something else than what has to stand there. -/
  | unexpected (wanted : Frame.Content) (position : Nat) (found : Frame.Content)
  /-- A name that is never left out is left out. -/
  | missingName (position : Nat)
  | negativeCount (value : Int64) (position : Nat)
  | locationKind (value : Int64) (position : Nat)
  /-- A header whose presence does not admit the number of elements that it announces. -/
  | header (presence : Presence) (announced : Nat) (position : Nat)
  /-- A header that announces more elements than there are frames after it. -/
  | overlong (position announced remaining : Nat)
  /-- Frames are left after the end of the key. -/
  | trailing (remaining position : Nat)
  /-- Keys inside keys beyond the limit. -/
  | tooDeep (limit : Nat)
  | cancelled
  | encoding (reason : Wire.Malformed)
  deriving Repr, DecidableEq

namespace Defect

def kind : Defect → DefectKind
  | .version _ _ => .version
  | .truncated _ => .truncated
  | .tooDeep _ => .tooDeep
  | .cancelled => .cancelled
  | .encoding _ => .encoding
  | .unexpected _ _ _ | .missingName _ | .negativeCount _ _ | .locationKind _ _ | .header _ _ _
  | .overlong _ _ _ | .trailing _ _ => .malformed

/-- What is wrong, in words. -/
def message : Defect → String
  | .version found supported =>
    s!"key format version {found.toNat} is not supported (expected {supported.toNat})"
  | .truncated position => s!"expected a frame at position {position}"
  | .unexpected wanted position found =>
    s!"expected {wanted.label} at frame {position}, found {found.label}"
  | .missingName position => s!"missing name at frame {position}"
  | .negativeCount value position => s!"negative count {value.toInt} at frame {position}"
  | .locationKind value position => s!"unknown location kind {value.toInt} at frame {position}"
  | .header presence announced position =>
    s!"{presence.label} array header announces {announced} element(s) at frame {position}"
  | .overlong position announced remaining =>
    s!"array header at frame {position} announces {announced} element(s), " ++
      s!"only {remaining} frame(s) left"
  | .trailing remaining position => s!"{remaining} trailing frame(s) after position {position}"
  | .tooDeep limit => s!"keys nested deeper than {limit}"
  | .cancelled => "resolution was cancelled"
  | .encoding reason => reason.message

def report (d : Defect) : DefectReport := ⟨d.kind, d.message⟩

end Defect
end Moniker
