import Mathlib.Data.List.Forall2
import Mathlib.Data.List.Nodup
import Mathlib.Data.List.Perm.Subperm
import Moniker.Description.OfSymbol
import Moniker.Proofs.Containment
import Moniker.Proofs.Leaves
import Moniker.Proofs.Queries

/-!
# What describes a symbol

`Description.Describes c methods s d` says by rules, one for each sort of segment, that `d`
describes the symbol `s` inside the signatures of `methods`. It is about clipped descriptions, which
are those that the frames of a key hold. In a lawful compilation every symbol has a description that
is found within the depth allowed for it (`Description.describes_ofSymbol`): what is described
inside a segment was issued before the segment's symbol, but for the types of parameters, and with
those of a method one more method is being described.
-/

namespace Moniker

namespace Compilation

/-- The container, or the global namespace. -/
def outerAt (c : Compilation) (s : SymbolId) : SymbolId := (c.containerAt s).getD c.global

/-- The types of the members of one kind. -/
def memberTypesAt (c : Compilation) (kind : SymbolKind) (s : SymbolId) : List SymbolId :=
  (c.membersAt kind s).map c.typeAt

/-- The names of the elements of a tuple, as far as they have any. -/
def elementNamesAt (c : Compilation) (s : SymbolId) : List (Option String) :=
  (c.membersAt .field s).map fun m =>
    if (c.entry m).name.isEmpty then none else some (c.entry m).name

/-- The names of the properties of an anonymous type. -/
def propertyNamesAt (c : Compilation) (s : SymbolId) : List String :=
  (c.membersAt .property s).map fun m => (c.entry m).name

/-- Which properties of an anonymous type are read-only. -/
def readOnlyAt (c : Compilation) (s : SymbolId) : List Bool :=
  (c.membersAt .property s).map fun m => (c.entry m).readOnly

/-- Where the members of one kind are, as frames hold it. -/
def memberLocationsAt (c : Compilation) (kind : SymbolKind) (s : SymbolId) : List Location :=
  (c.membersAt kind s).map fun m => (c.locationAt m).clipped

/-- The place of a local among those of its name in the same method. -/
def localOrdinalAt (c : Compilation) (s : SymbolId) : Nat :=
  ((c.localsAt (· == (c.entry s).name) (c.outerAt s)).idxOf? s).getD 0

/-! ### What is asked about members -/

section Members

variable {c : Compilation} {s : SymbolId} (h : c.Closed) (hs : c.Issued s) (kind : SymbolKind)
include h hs

theorem Closed.issued_memberTypesAt : ∀ t ∈ c.memberTypesAt kind s, c.Issued t := by
  intro t ht
  obtain ⟨m, hm, rfl⟩ := List.mem_map.mp ht
  exact h.issued_typeAt (h.issued_membersAt hs hm)

theorem Closed.memberTypes_eq :
    (c.membersAt kind s).mapM c.typeOrUniversal = .ok (c.memberTypesAt kind s) :=
  mapM_ok fun _ hm => typeOrUniversal_eq (h.issued_membersAt hs hm)

theorem Closed.memberNames_eq :
    (c.membersAt kind s).mapM c.name = .ok ((c.membersAt kind s).map fun m => (c.entry m).name) :=
  mapM_ok fun _ hm => name_eq (h.issued_membersAt hs hm)

theorem Closed.memberLocations_eq :
    (c.membersAt kind s).mapM c.firstLocation = .ok ((c.membersAt kind s).map c.locationAt) :=
  mapM_ok fun _ hm => firstLocation_eq (h.issued_membersAt hs hm)

omit kind in
theorem Closed.readOnly_eq : (c.membersAt .property s).mapM c.isReadOnly = .ok (c.readOnlyAt s) :=
  mapM_ok fun _ hm => isReadOnly_eq (h.issued_membersAt hs hm)

end Members

end Compilation

/-- An array of values, with the presence that goes with their number. -/
def Listing.ofValues (values : List α) : Listing α := .full (.ofLength values.length) values

namespace Description

/-- The description, clipped, describes the symbol inside the signatures of the methods. -/
inductive Describes (c : Compilation) : List SymbolId → SymbolId → Description → Prop
  | global {methods : List SymbolId} {s : SymbolId} (hkind : (c.entry s).kind = .nameSpace)
    (houter : c.containerAt s = none) : Describes c methods s .global
  | nameSpace {methods : List SymbolId} {s p : SymbolId} {container : Description}
    (hkind : (c.entry s).kind = .nameSpace) (houter : c.containerAt s = some p)
    (hcontainer : Describes c methods p container) :
    Describes c methods s (.nameSpace container (.ok (c.entry s).name))
  | definition {methods : List SymbolId} {s : SymbolId} {container : Description}
    (hkind : (c.entry s).kind = .namedType) (hself : c.definitionAt s = s)
    (hcontainer : Describes c methods (c.outerAt s) container) :
    Describes c methods s (.namedType container (.ok (c.entry s).name)
      (.ok (c.entry s).typeParameters.length) (.ok .absent) [])
  | constructed {methods : List SymbolId} {s g : SymbolId} {container : Description}
    {arguments : List Description} (hkind : (c.entry s).kind = .namedType)
    (hdefinition : c.definitionAt s = g) (hne : g ≠ s)
    (hcontainer : Describes c methods (c.outerAt g) container)
    (hlength : arguments.length = (c.entry s).typeArguments.length)
    (harguments : ∀ p ∈ (c.entry s).typeArguments.zip arguments, Describes c methods p.1 p.2) :
    Describes c methods s (.namedType container (.ok (c.entry g).name)
      (.ok (c.entry g).typeParameters.length) (.ok (.ofLength (c.entry s).typeArguments.length))
      arguments)
  | arrayType {methods : List SymbolId} {s : SymbolId} {element : Description}
    (hkind : (c.entry s).kind = .arrayType) (helement : Describes c methods (c.typeAt s) element) :
    Describes c methods s (.arrayType element (.ok (min (c.entry s).rank.toNat Frame.maxCount)))
  | pointerType {methods : List SymbolId} {s : SymbolId} {pointee : Description}
    (hkind : (c.entry s).kind = .pointerType)
    (hpointee : Describes c methods (c.typeAt s) pointee) :
    Describes c methods s (.pointerType pointee)
  | tupleType {methods : List SymbolId} {s : SymbolId} {types : List Description}
    (hkind : (c.entry s).kind = .tupleType)
    (hlength : types.length = (c.memberTypesAt .field s).length)
    (htypes : ∀ p ∈ (c.memberTypesAt .field s).zip types, Describes c methods p.1 p.2) :
    Describes c methods s (.tupleType (.ok (.ofLength (c.memberTypesAt .field s).length)) types
      (.ofValues (c.elementNamesAt s)) (.ofValues (c.memberLocationsAt .field s)))
  | anonymousType {methods : List SymbolId} {s : SymbolId} {types : List Description}
    (hkind : (c.entry s).kind = .anonymousType)
    (hlength : types.length = (c.memberTypesAt .property s).length)
    (htypes : ∀ p ∈ (c.memberTypesAt .property s).zip types, Describes c methods p.1 p.2) :
    Describes c methods s (.anonymousType (.ok (.ofLength (c.memberTypesAt .property s).length))
      types (.ofValues ((c.propertyNamesAt s).map some)) (.ofValues (c.readOnlyAt s))
      (.ofValues (c.memberLocationsAt .property s)))
  | typeParameter {methods : List SymbolId} {s : SymbolId} {owner : Description}
    (hkind : (c.entry s).kind = .typeParameter) (hfree : ∀ m ∈ methods, c.containerAt s ≠ some m)
    (howner : Describes c methods (c.outerAt s) owner) :
    Describes c methods s (.typeParameter owner (.ok (c.entry s).name))
  | typeParameterOrdinal {methods : List SymbolId} {s m : SymbolId}
    (hkind : (c.entry s).kind = .typeParameter) (hm : m ∈ methods)
    (howner : c.containerAt s = some m) :
    Describes c methods s (.typeParameterOrdinal (.ok ((methodIndex? methods m).getD 0))
      (.ok (((c.entry m).typeParameters.idxOf? s).getD 0)))
  | field {methods : List SymbolId} {s : SymbolId} {container : Description}
    (hkind : (c.entry s).kind = .field) (hcontainer : Describes c methods (c.outerAt s) container) :
    Describes c methods s (.field container (.ok (c.entry s).name))
  | property {methods : List SymbolId} {s : SymbolId} {container : Description}
    {parameters : List Description} (hkind : (c.entry s).kind = .property)
    (hcontainer : Describes c methods (c.outerAt s) container)
    (hlength : parameters.length = (c.signatureAt s).length)
    (hparameters : ∀ p ∈ (c.signatureAt s).zip parameters, Describes c methods p.1 p.2) :
    Describes c methods s (.property container (.ok (c.entry s).name)
      (.ok (.ofLength (c.signatureAt s).length)) parameters)
  | method {methods : List SymbolId} {s : SymbolId} {container : Description}
    {parameters : List Description} (hkind : (c.entry s).kind = .method)
    (hcontainer : Describes c methods (c.outerAt s) container)
    (hlength : parameters.length = (c.signatureAt s).length)
    (hparameters : ∀ p ∈ (c.signatureAt s).zip parameters, Describes c (methods ++ [s]) p.1 p.2) :
    Describes c methods s (.method container (.ok (c.entry s).name)
      (.ok (c.entry s).typeParameters.length) (.ok (.ofLength (c.signatureAt s).length)) parameters)
  | parameter {methods : List SymbolId} {s : SymbolId} {owner : Description}
    (hkind : (c.entry s).kind = .parameter) (howner : Describes c methods (c.outerAt s) owner) :
    Describes c methods s (.parameter owner (.ok (c.entry s).name))
  | localVariable {methods : List SymbolId} {s : SymbolId} {owner : Description}
    (hkind : (c.entry s).kind = .localVariable) (howner : Describes c methods (c.outerAt s) owner) :
    Describes c methods s (.localVariable owner (.ok (c.entry s).name) (.ok (c.localOrdinalAt s)))

end Description
end Moniker
