import Moniker.Description

/-!
# Scanning frames

A scan walks over frames from some position and reads one slot after the other. A frame is
consumed before its content is looked at, so a frame of the wrong sort counts as read. The
first defect ends the scan: it answers every later read, and no more frames are consumed. A
`Reading` yields a value or that defect; a `Scanner` always yields something, and turns
readings into slots.
-/

namespace Moniker

/-- Where a scan stands: the position of the next frame, the frames from there on, and the
defect that ended the scan if one did. -/
structure Scan where
  position : Nat
  rest : List Frame
  defect : Option Defect := none

/-- A step that yields its result whatever state the scan is in. -/
abbrev Scanner := StateM Scan

/-- A step that yields a value or the defect that ended the scan. -/
abbrev Reading := ExceptT Defect Scanner

namespace Scan

/-- Ends the scan. -/
def raise (d : Defect) : Reading α := do
  modify fun scan => { scan with defect := some d }
  throw d

/-- Fails if the scan has ended before. -/
def resume : Reading Unit := do
  match (← get).defect with
  | some d => throw d
  | none => return ()

/-- The next frame and its position. -/
def next : Reading (Nat × Frame) := do
  resume
  let scan ← get
  match scan.rest with
  | [] => raise (.truncated scan.position)
  | frame :: rest =>
    set { scan with position := scan.position + 1, rest := rest }
    return (scan.position, frame)

/-- The content of the next frame, if it is of the wanted sort. -/
def expect (wanted : Frame.Content) (value? : Frame → Option α) : Reading (Nat × α) := do
  let (position, frame) ← next
  match value? frame with
  | some value => return (position, value)
  | none => raise (.unexpected wanted position frame.content)

def kind : Reading Category :=
  Prod.snd <$> expect .kind fun | .kind category => some category | _ => none

def text : Reading (Option String) :=
  Prod.snd <$> expect .text fun | .text value => some value | _ => none

def bool : Reading Bool :=
  Prod.snd <$> expect .bool fun | .bool value => some value | _ => none

/-- An integer and the position of its frame. -/
def intAt : Reading (Nat × Int64) :=
  expect .int fun | .int value => some value | _ => none

def int : Reading Int64 := Prod.snd <$> intAt

/-- A text that is never left out. -/
def name : Reading String := do
  let (position, value) ← expect .text fun | .text value => some value | _ => none
  match value with
  | some name => return name
  | none => raise (.missingName position)

/-- An integer that is not negative. -/
def count : Reading Nat := do
  let (position, value) ← intAt
  if value < 0 then raise (.negativeCount value position) else return value.toInt.toNat

/-- The header of an array: its presence has to admit the number of elements, and as every
element takes at least one frame there have to be that many frames left. -/
def header : Reading (Presence × Nat) := do
  let (position, presence, announced) ← expect .array fun
    | .array presence n => some (presence, n.toNat)
    | _ => none
  if !presence.admits announced then
    raise (.header presence announced position)
  let remaining := (← get).rest.length
  if remaining < announced then
    raise (.overlong position announced remaining)
  return (presence, announced)

def pos : Reading Pos :=
  return ⟨UInt64.ofNat (← count), UInt64.ofNat (← count), UInt64.ofNat (← count)⟩

/-- A location as it was written; whether its file is known is not a matter of scanning. -/
def location : Reading Location := do
  let (position, value) ← intAt
  match value with
  | 0 => return .nowhere
  | 1 => return .source (← name) ⟨← pos, ← pos⟩
  | other => raise (.locationKind other position)

/-- Runs a step `n` times. -/
def times (step : Scanner α) : Nat → Scanner (List α)
  | 0 => pure []
  | n + 1 => do
    let a ← step
    return a :: (← times step n)

/-- An array whose elements are read by `step`. After a bad header there are none. -/
def array (step : Scanner α) : Scanner (Slot Presence × List α) := do
  match ← header.run with
  | .ok (presence, n) => return (.ok presence, ← times step n)
  | .error d => return (.error d, [])

/-- An array of plain values. -/
def listing (item : Reading α) : Scanner (Listing α) := do
  let (presence, items) ← array item.run
  return ⟨presence, items⟩

end Scan
end Moniker
