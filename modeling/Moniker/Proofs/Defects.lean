import Mathlib.Tactic.Tauto
import Moniker.Description

/-!
# Defects of a description

Resolving goes through the slots of a description in the order in which they were read, so the
first slot that holds a defect is the one that halts it. `Description.defect?` is that defect,
and an `Intact` description has none.
-/

namespace Moniker

/-- The defect in a slot. -/
def Slot.defect? : Slot α → Option Defect
  | .ok _ => none
  | .error d => some d

/-- What a slot holds, or something else if it holds a defect. -/
def Slot.valueOr (otherwise : α) : Slot α → α
  | .ok a => a
  | .error _ => otherwise

@[simp] theorem Slot.defect?_ok (a : α) : Slot.defect? (.ok a) = none := rfl

@[simp] theorem Slot.defect?_error (d : Defect) : Slot.defect? (.error d : Slot α) = some d := rfl

@[simp] theorem Slot.valueOr_ok (otherwise a : α) : Slot.valueOr otherwise (.ok a) = a := rfl

/-- The items that were read. -/
def Listing.values (l : Listing α) : List α := l.items.filterMap Except.toOption

/-- The first defect of an array of plain values. -/
def Listing.defect? (l : Listing α) : Option Defect :=
  l.presence.defect? <|> l.items.findSome? Slot.defect?

namespace Description

mutual

/-- The first defect, in the order of reading. -/
def defect? : Description → Option Defect
  | unreadable d => some d
  | unflagged d => some d
  | global => none
  | nameSpace container name => container.defect? <|> name.defect?
  | namedType container name arity presence arguments =>
    container.defect? <|> name.defect? <|> arity.defect? <|> presence.defect? <|>
      defects? arguments
  | arrayType element rank => element.defect? <|> rank.defect?
  | pointerType pointee => pointee.defect?
  | tupleType presence types names locations =>
    presence.defect? <|> defects? types <|> names.defect? <|> locations.defect?
  | anonymousType presence types names readOnly locations =>
    presence.defect? <|> defects? types <|> names.defect? <|> readOnly.defect? <|>
      locations.defect?
  | typeParameter owner name => owner.defect? <|> name.defect?
  | typeParameterOrdinal depth ordinal => depth.defect? <|> ordinal.defect?
  | field container name => container.defect? <|> name.defect?
  | property container name presence parameters =>
    container.defect? <|> name.defect? <|> presence.defect? <|> defects? parameters
  | method container name arity presence parameters =>
    container.defect? <|> name.defect? <|> arity.defect? <|> presence.defect? <|>
      defects? parameters
  | parameter owner name => owner.defect? <|> name.defect?
  | localVariable owner name ordinal => owner.defect? <|> name.defect? <|> ordinal.defect?

/-- The first defect of segments in a row. -/
def defects? : List Description → Option Defect
  | [] => none
  | d :: rest => d.defect? <|> defects? rest

end

/-- A description without defects. -/
def Intact (d : Description) : Prop := d.defect? = none

/-- A statement about descriptions holds of all if it holds of every segment of whose parts it
holds. -/
@[elab_as_elim, induction_eliminator]
theorem induct {motive : Description → Prop}
    (unreadable : ∀ d, motive (.unreadable d))
    (unflagged : ∀ d, motive (.unflagged d))
    (global : motive .global)
    (nameSpace : ∀ container name, motive container → motive (.nameSpace container name))
    (namedType : ∀ container name arity presence arguments, motive container →
      (∀ d ∈ arguments, motive d) → motive (.namedType container name arity presence arguments))
    (arrayType : ∀ element rank, motive element → motive (.arrayType element rank))
    (pointerType : ∀ pointee, motive pointee → motive (.pointerType pointee))
    (tupleType : ∀ presence types names locations, (∀ d ∈ types, motive d) →
      motive (.tupleType presence types names locations))
    (anonymousType : ∀ presence types names readOnly locations, (∀ d ∈ types, motive d) →
      motive (.anonymousType presence types names readOnly locations))
    (typeParameter : ∀ owner name, motive owner → motive (.typeParameter owner name))
    (typeParameterOrdinal : ∀ depth ordinal, motive (.typeParameterOrdinal depth ordinal))
    (field : ∀ container name, motive container → motive (.field container name))
    (property : ∀ container name presence parameters, motive container →
      (∀ d ∈ parameters, motive d) → motive (.property container name presence parameters))
    (method : ∀ container name arity presence parameters, motive container →
      (∀ d ∈ parameters, motive d) → motive (.method container name arity presence parameters))
    (parameter : ∀ owner name, motive owner → motive (.parameter owner name))
    (localVariable : ∀ owner name ordinal, motive owner →
      motive (.localVariable owner name ordinal))
    (d : Description) : motive d :=
  @Description.rec motive (fun ds => ∀ d ∈ ds, motive d)
    unreadable unflagged global nameSpace namedType arrayType pointerType tupleType anonymousType
    typeParameter typeParameterOrdinal field property method parameter localVariable
    (fun _ h => nomatch h)
    (fun _ _ hd hrest _ h => by
      rcases List.mem_cons.mp h with rfl | h
      · exact hd
      · exact hrest _ h)
    d

end Description
end Moniker
