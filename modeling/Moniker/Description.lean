import Moniker.Defect
import Moniker.Location

/-!
# Descriptions

The frames of a key are the flat form of a tree: each segment holds names, counts and flags
in slots, and the segments of other symbols inside it. A description is that tree. One made
from a symbol has every slot filled. One read from frames that are not a key has the same
shape as far as they went: the slot where reading stopped and every slot after it hold the
defect that stopped it. Nothing else about a defective key matters, so a description is all
that resolving needs.

`Description.frames` writes the flat form. `Description.ofSymbol` and `Description.ofFrames`
make descriptions, and `Description.resolve` finds what one describes.
-/

namespace Moniker

/-- A value, or the defect that kept it from being read. -/
abbrev Slot := Except Defect

/-- An array of plain values. It has as many items as its header announces. -/
structure Listing (α : Type) where
  presence : Slot Presence
  items : List (Slot α)

/-- The segments of a key. -/
inductive Description where
  /-- No segment begins here. -/
  | unreadable (defect : Defect)
  /-- A namespace segment without the flag that says whether it is the global one. -/
  | unflagged (defect : Defect)
  | global
  | nameSpace (container : Description) (name : Slot String)
  /-- A named type. Its arguments are absent unless it was constructed from a generic
  definition. -/
  | namedType (container : Description) (name : Slot String) (arity : Slot Nat)
      (presence : Slot Presence) (arguments : List Description)
  | arrayType (element : Description) (rank : Slot Nat)
  | pointerType (pointee : Description)
  | tupleType (presence : Slot Presence) (types : List Description)
      (names : Listing (Option String)) (locations : Listing Location)
  | anonymousType (presence : Slot Presence) (types : List Description)
      (names : Listing (Option String)) (readOnly : Listing Bool) (locations : Listing Location)
  | typeParameter (owner : Description) (name : Slot String)
  /-- A type parameter of an enclosing method: the method's place among the methods whose
  signatures are being described, outermost first, and the parameter's place in its list. -/
  | typeParameterOrdinal (depth ordinal : Slot Nat)
  | field (container : Description) (name : Slot String)
  | property (container : Description) (name : Slot String)
      (presence : Slot Presence) (parameters : List Description)
  | method (container : Description) (name : Slot String) (arity : Slot Nat)
      (presence : Slot Presence) (parameters : List Description)
  | parameter (owner : Description) (name : Slot String)
  /-- A local, told apart from others of its name in the same method by its place among
  them. -/
  | localVariable (owner : Description) (name : Slot String) (ordinal : Slot Nat)

namespace Description

/-- The category in the kind frame, if there is one. -/
def category? : Description → Option Category
  | unreadable _ => none
  | unflagged _ | global | nameSpace .. => some .nameSpace
  | namedType .. => some .namedType
  | arrayType .. => some .arrayType
  | pointerType .. => some .pointerType
  | tupleType .. => some .tupleType
  | anonymousType .. => some .anonymousType
  | typeParameter .. => some .typeParameter
  | typeParameterOrdinal .. => some .typeParameterOrdinal
  | field .. => some .field
  | property .. => some .property
  | method .. => some .method
  | parameter .. => some .parameter
  | localVariable .. => some .localVariable

end Description

/-! ## The flat form -/

/-- The frames of a slot. A slot that was not read has none. -/
def Slot.frames (write : α → List Frame) : Slot α → List Frame
  | .ok a => write a
  | .error _ => []

namespace Frame

def ofName (name : String) : List Frame := [.text (some name)]

def ofCount (n : Nat) : List Frame := [.count n]

def ofPos (p : Pos) : List Frame := [.count p.line.toNat, .count p.col.toNat, .count p.offset.toNat]

/-- A location is zero for nowhere; else one, the path and six coordinates. -/
def ofLocation : Location → List Frame
  | .nowhere => [.int 0]
  | .source path span => .int 1 :: .text (some path) :: (ofPos span.start ++ ofPos span.stop)

def ofHeader (presence : Slot Presence) (n : Nat) : List Frame :=
  Slot.frames (fun p => [.header p n]) presence

end Frame

/-- A header, then the items. -/
def Listing.frames (write : α → List Frame) (l : Listing α) : List Frame :=
  Frame.ofHeader l.presence l.items.length ++ l.items.flatMap (Slot.frames write)

/-- The array with these values, or the absent one. -/
def Listing.ofItems? (items : Option (List α)) : Listing α :=
  ⟨.ok (.ofItems? items), (items.getD []).map .ok⟩

namespace Description

/-- A segment: its kind frame, then its body. -/
def withKind (d : Description) (body : List Frame) : List Frame :=
  match d.category? with
  | some category => .kind category :: body
  | none => body

mutual

/-- The frames of a segment after its kind frame. -/
def body : Description → List Frame
  | unreadable _ => []
  | unflagged _ => []
  | global => [.bool true]
  | nameSpace container name =>
    .bool false :: (container.withKind container.body ++ Slot.frames Frame.ofName name)
  | namedType container name arity presence arguments =>
    container.withKind container.body ++ Slot.frames Frame.ofName name ++
      Slot.frames Frame.ofCount arity ++ Frame.ofHeader presence arguments.length ++
      bodies arguments
  | arrayType element rank => element.withKind element.body ++ Slot.frames Frame.ofCount rank
  | pointerType pointee => pointee.withKind pointee.body
  | tupleType presence types names locations =>
    Frame.ofHeader presence types.length ++ bodies types ++
      names.frames (fun name => [.text name]) ++ locations.frames Frame.ofLocation
  | anonymousType presence types names readOnly locations =>
    Frame.ofHeader presence types.length ++ bodies types ++
      names.frames (fun name => [.text name]) ++ readOnly.frames (fun b => [.bool b]) ++
      locations.frames Frame.ofLocation
  | typeParameter owner name => owner.withKind owner.body ++ Slot.frames Frame.ofName name
  | typeParameterOrdinal depth ordinal =>
    Slot.frames Frame.ofCount depth ++ Slot.frames Frame.ofCount ordinal
  | field container name => container.withKind container.body ++ Slot.frames Frame.ofName name
  | property container name presence parameters =>
    container.withKind container.body ++ Slot.frames Frame.ofName name ++
      Frame.ofHeader presence parameters.length ++ bodies parameters
  | method container name arity presence parameters =>
    container.withKind container.body ++ Slot.frames Frame.ofName name ++
      Slot.frames Frame.ofCount arity ++ Frame.ofHeader presence parameters.length ++
      bodies parameters
  | parameter owner name => owner.withKind owner.body ++ Slot.frames Frame.ofName name
  | localVariable owner name ordinal =>
    owner.withKind owner.body ++ Slot.frames Frame.ofName name ++ Slot.frames Frame.ofCount ordinal

/-- The frames of segments in a row. -/
def bodies : List Description → List Frame
  | [] => []
  | d :: rest => d.withKind d.body ++ bodies rest

end

/-- The flat form of a description. -/
def frames (d : Description) : List Frame := d.withKind d.body

/-- How many frames the flat form has. -/
def width (d : Description) : Nat := d.frames.length

end Description
end Moniker
