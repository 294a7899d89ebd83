import Moniker.Key
import Moniker.Proofs.Depths
import Moniker.Proofs.Programs
import Moniker.Writer

/-!
# Writing ends

`Writer.segment` writes a symbol the way a writer with a stack does: one value after the other,
going inside the signature of a method before the types of its parameters and leaving it after them.
It is strict about the stack: a method that is on it already is not put there a second time
(`Writer.enter`), and the run faults instead.

Writing a type parameter leads to its owner, and a method's parameters can have types that are
issued after it, type parameters of the method itself and of others among them. So indices alone do
not go down. What does is `Compilation.weight`: each method that is put on the stack takes away a
multiple of the number of symbols, and between two of them the index goes down, because a type
parameter does not lead back to a method on the stack. Hence on every compilation made from anchored
requests the strict writer comes to an end with every method left again, and what it has written is
the symbol's key (`Key.create_ends`).
-/

namespace Moniker

namespace Description

open Compilation

variable {c : Compilation} {s : SymbolId} {methods : List SymbolId} {n : Nat}

/-- Whatever comes up inside the methods has a description that is not deeper than the symbol's
weight there. -/
theorem finishes_of_weight_lt (h : c.Founded) (hinside : c.Inside methods s)
    (hlt : c.weight methods s < n) : Finishes c n methods s := by
  induction n generalizing methods s with
  | zero => cases hlt
  | succ n ih =>
      refine (finishes_succ_iff h.closed hinside.issued).mpr fun p hp => ?_
      obtain ⟨hinside', hless⟩ := hinside.inner h hp
      exact ih hinside' (by omega)

end Description

namespace Writer

/-! ## The writer with its stack -/

/-- Goes inside the signature of a method, unless it is inside of it already. -/
def enter (method : SymbolId) (w : Writer) : Except Fault Writer :=
  if method ∈ w.methods then .error .endless else .ok (w.pushMethod method)

section Fill

variable (c : Compilation) (segment : SymbolId → Writer → Except Fault Writer)

/-- Writes an array of segments, each the way `segment` does. -/
def row (items : List SymbolId) (w : Writer) : Except Fault Writer :=
  items.foldlM (fun w s => segment s w) (w.append [.header (.ofLength items.length) items.length])

/-- Writes the body of a segment of the category. -/
def fill (s : SymbolId) : Category → Writer → Except Fault Writer
  | .nameSpace, w => do
    match ← c.container s with
    | none => return w.bool true
    | some container => return (← segment container (w.bool false)).text (some (← c.name s))
  | .namedType, w => do
    let definition ← c.definition s
    let w ← segment (← c.containerOrGlobal definition) w
    let w := w.text (some (← c.name definition))
    let w := w.count (← c.typeParameters definition).length
    if definition = s then
      return w.append [.header .absent 0]
    row segment (← c.typeArguments s) w
  | .arrayType, w => do
    return (← segment (← c.typeOrUniversal s) w).count (← c.rank s).toNat
  | .pointerType, w => do segment (← c.typeOrUniversal s) w
  | .tupleType, w => do
    let elements ← c.membersOfKind .field s
    let names ← elements.mapM c.name
    let locations ← elements.mapM c.firstLocation
    let w ← row segment (← elements.mapM c.typeOrUniversal) w
    let w := w.texts (some (names.map fun name => if name.isEmpty then none else some name))
    return w.locations (some locations)
  | .anonymousType, w => do
    let properties ← c.membersOfKind .property s
    let names ← properties.mapM c.name
    let readOnly ← properties.mapM c.isReadOnly
    let locations ← properties.mapM c.firstLocation
    let w ← row segment (← properties.mapM c.typeOrUniversal) w
    return ((w.texts (some (names.map some))).bools (some readOnly)).locations (some locations)
  | .typeParameterOrdinal, w => do
    match ← c.container s with
    | none => return (w.count 0).count 0
    | some owner =>
      let ordinal := ((← c.typeParameters owner).idxOf? s).getD 0
      return (w.count ((w.methodIndex? owner).getD 0)).count ordinal
  | .typeParameter, w | .field, w | .parameter, w => do
    return (← segment (← c.containerOrGlobal s) w).text (some (← c.name s))
  | .property, w => do
    let w ← segment (← c.containerOrGlobal s) w
    row segment (← c.parameterTypes s) (w.text (some (← c.name s)))
  | .method, w => do
    let w ← segment (← c.containerOrGlobal s) w
    let w := w.text (some (← c.name s))
    let w := w.count (← c.typeParameters s).length
    let types ← c.parameterTypes s
    return (← row segment types (← w.enter s)).popMethod
  | .localVariable, w => do
    let name ← c.name s
    let owner ← c.containerOrGlobal s
    let ordinal := ((← c.localsNamed (· == name) owner).idxOf? s).getD 0
    return ((← segment owner w).text (some name)).count ordinal

end Fill

/-- Writes a segment, going at most so deep. -/
def segment (c : Compilation) : (fuel : Nat) → SymbolId → Writer → Except Fault Writer
  | 0, _, _ => .error .endless
  | fuel + 1, s, w => do
    let category ← Description.categoryOf c w.methods s
    fill c (segment c fuel) s category (w.append [.kind category])

/-! ## What it writes -/

@[simp] theorem append_append (w : Writer) (xs ys : List Frame) :
    (w.append xs).append ys = w.append (xs ++ ys) := by
  simp [append]

@[simp] theorem append_nil (w : Writer) : w.append [] = w := by
  simp [append]

@[simp] theorem methods_append (w : Writer) (xs : List Frame) : (w.append xs).methods = w.methods :=
  rfl

@[simp] theorem text_eq (w : Writer) (value : Option String) :
    w.text value = w.append [.text value] := rfl

@[simp] theorem bool_eq (w : Writer) (value : Bool) : w.bool value = w.append [.bool value] := rfl

@[simp] theorem count_eq (w : Writer) (n : Nat) : w.count n = w.append [.count n] := rfl

@[simp] theorem listing_eq {α : Type} (w : Writer) (write : α → List Frame)
    (items : Option (List α)) :
    listing write items w = w.append ((Listing.ofItems? items).frames write) := rfl

/-- Leaving a signature undoes going inside it, whatever was written in between. -/
theorem popMethod_pushMethod (w : Writer) (m : SymbolId) (xs : List Frame) :
    ((w.pushMethod m).append xs).popMethod = w.append xs := by
  simp [popMethod, pushMethod, append]

theorem enter_eq {w : Writer} {m : SymbolId} (h : m ∉ w.methods) :
    w.enter m = .ok (w.pushMethod m) :=
  if_neg h

/-- Inside the methods, the writer writes the description. -/
def Writes (segment : SymbolId → Writer → Except Fault Writer) (methods : List SymbolId)
    (s : SymbolId) (d : Description) : Prop :=
  ∀ w : Writer, w.methods = methods → segment s w = .ok (w.append d.frames)

section Fill

open Compilation Description

variable {c : Compilation} {segment : SymbolId → Writer →
  Except Fault Writer} {methods : List SymbolId} {s : SymbolId} {w : Writer} {ds : List Description}

/-- An array is written with its header in front. -/
theorem row_eq {items : List SymbolId} (h : List.Forall₂ (Writes segment methods) items ds)
    (w : Writer) (hw : w.methods = methods) :
    row segment items w =
      .ok (w.append (.header (.ofLength items.length) ds.length :: Description.bodies ds)) := by
  have hfold : ∀ w : Writer, w.methods = methods →
      items.foldlM (fun w s => segment s w) w = .ok (w.append (Description.bodies ds)) := by
    clear hw
    induction h with
    | nil =>
        intro w _
        rw [Description.bodies, append_nil]
        rfl
    | cons hhead _ ih =>
        intro w hw
        rw [List.foldlM_cons, hhead w hw]
        refine (ih _ (by simpa using hw)).trans ?_
        rw [append_append]
        rfl
  rw [row, hfold _ (by simpa using hw), append_append, h.length_eq]
  rfl

theorem writes_of_map {items : List SymbolId}
    (h : List.Forall₂ (fun p d => Writes segment p.1 p.2 d) (items.map (methods, ·)) ds) :
    List.Forall₂ (Writes segment methods) items ds := by
  rwa [List.forall₂_map_left_iff] at h

-- in what follows, a body is spelled out frame by frame
attribute [local simp] Compilation.assembledAt Description.body Description.frames Slot.frames
  Frame.ofName Frame.ofCount Frame.ofHeader

/-- Filling a segment writes the body of its description, if a method that is written is not one of
those whose signatures the writer is inside of. -/
theorem fill_eq (h : c.Closed) (hs : c.Issued s) {category : Category}
    (hnested : List.Forall₂ (fun p d => Writes segment p.1 p.2 d) (c.nestedAt w.methods s category)
      ds) (hmethod : category = .method → s ∉ w.methods) :
    fill c segment s category w = .ok (w.append (c.assembledAt w.methods s category ds).body) := by
  have houter : c.Issued (c.outerAt s) := h.issued_container hs
  have hdefinition := h.issued_definition hs
  cases category with
  | nameSpace =>
      simp only [fill, container_eq hs, name_eq hs, bind, Except.bind]
      rw [nestedAt] at hnested
      cases hcontainer : c.containerAt s with
      | none =>
          rw [hcontainer] at hnested
          cases hnested
          rfl
      | some p =>
          rw [hcontainer] at hnested
          obtain ⟨d, -, hd, -, rfl⟩ := List.forall₂_cons_left_iff.mp hnested
          simp only [hd (w.bool false) rfl]
          simp
          rfl
  | namedType =>
      obtain ⟨d, ds, hd, hds, rfl⟩ := List.forall₂_cons_left_iff.mp hnested
      simp only [fill, definition_eq hs, outerAt_eq hdefinition, name_eq hdefinition,
        typeParameters_eq hdefinition, typeArguments_eq hs, bind, Except.bind, hd w rfl]
      by_cases hself : c.definitionAt s = s
      · rw [if_pos hself] at hds
        cases hds
        simp [hself, bodies]
        rfl
      · rw [if_neg hself] at hds
        rw [if_neg hself]
        refine (row_eq (writes_of_map hds) _ (by simp)).trans ?_
        simp [hself]
  | arrayType =>
      obtain ⟨d, -, hd, -, rfl⟩ := List.forall₂_cons_left_iff.mp hnested
      simp only [fill, typeOrUniversal_eq hs, rank_eq hs, bind, Except.bind, hd w rfl]
      simp
      rfl
  | pointerType =>
      obtain ⟨d, -, hd, -, rfl⟩ := List.forall₂_cons_left_iff.mp hnested
      simp only [fill, typeOrUniversal_eq hs, bind, Except.bind, hd w rfl]
      simp
  | tupleType =>
      simp only [fill, h.membersOfKind_eq hs, h.memberTypes_eq hs, h.memberNames_eq hs,
        h.memberLocations_eq hs, bind, Except.bind, row_eq (writes_of_map hnested) w rfl,
          List.map_map]
      simp [texts, locations, elementNamesAt, Function.comp_def]
      rfl
  | anonymousType =>
      simp only [fill, h.membersOfKind_eq hs, h.memberTypes_eq hs, h.memberNames_eq hs,
        h.readOnly_eq hs, h.memberLocations_eq hs, bind, Except.bind,
        row_eq (writes_of_map hnested) w rfl, List.map_map]
      simp [texts, bools, locations, propertyNamesAt, Function.comp_def]
      rfl
  | typeParameterOrdinal =>
      cases hnested
      simp only [fill, container_eq hs, assembledAt, ordinalAt, bind, Except.bind]
      cases hcontainer : c.containerAt s with
      | none =>
          simp
          rfl
      | some m =>
          have hm : c.Issued m := by simpa [hcontainer] using h.issued_container hs
          simp only [typeParameters_eq hm]
          simp
          rfl
  | typeParameter | field | parameter =>
      obtain ⟨d, -, hd, -, rfl⟩ := List.forall₂_cons_left_iff.mp hnested
      simp only [fill, outerAt_eq hs, name_eq hs, bind, Except.bind, hd w rfl]
      simp
      rfl
  | localVariable =>
      obtain ⟨d, -, hd, -, rfl⟩ := List.forall₂_cons_left_iff.mp hnested
      simp only [fill, outerAt_eq hs, name_eq hs, h.localsNamed_eq houter, bind, Except.bind,
        hd w rfl]
      simp
      rfl
  | property =>
      obtain ⟨d, ds, hd, hds, rfl⟩ := List.forall₂_cons_left_iff.mp hnested
      simp only [fill, outerAt_eq hs, name_eq hs, h.parameterTypes_eq hs, bind, Except.bind,
        hd w rfl]
      refine (row_eq (writes_of_map hds) _ (by simp)).trans ?_
      simp
  | method =>
      obtain ⟨d, ds, hd, hds, rfl⟩ := List.forall₂_cons_left_iff.mp hnested
      have hrow := fun xs => row_eq (writes_of_map hds) ((w.append xs).pushMethod s) rfl
      have henter := fun xs => @enter_eq (w.append xs) s (hmethod rfl)
      simp only [fill, outerAt_eq hs, name_eq hs, typeParameters_eq hs,
        h.parameterTypes_eq hs, bind,
        Except.bind, hd w rfl, text_eq, count_eq, append_append, henter, hrow, popMethod_pushMethod]
      simp
      rfl

end Fill

open Compilation Description

variable {c : Compilation} {methods : List SymbolId} {s : SymbolId}

theorem category_assembledAt (category : Category) (ds : List Description) :
    (c.assembledAt methods s category ds).category? = some category := by
  cases category with
  | nameSpace => cases ds <;> rfl
  | _ => rfl

/-- Whatever has a description that comes up inside the methods is written as that, by a writer
inside of them. -/
theorem writes_segment (h : c.Founded) {n : Nat} {d : Description} (hinside : c.Inside methods s)
    (hd : ofSymbolWithin c n methods s = .ok d) : Writes (segment c n) methods s d := by
  induction n generalizing methods s d with
  | zero => cases hd
  | succ n ih =>
      have hs := hinside.issued
      obtain ⟨ds, hds, rfl⟩ := (ofSymbolWithin_eq_ok h.closed hs).mp hd
      have hnested : List.Forall₂ (fun p d => Writes (segment c n) p.1 p.2 d) (inner c methods s)
          ds := by
        have hinner : ∀ p ∈ inner c methods s, c.Inside p.1 p.2 := fun p hp =>
          (hinside.inner h hp).1
        generalize inner c methods s = ps at hds hinner
        clear hd
        induction hds with
        | nil => exact .nil
        | cons hhead _ ihds =>
            exact .cons (ih (hinner _ (by simp)) hhead) (ihds fun p hp => hinner p (by simp [hp]))
      intro w hw
      subst hw
      -- this is where the writer would fault
      have hmethod : c.categoryAt w.methods s = .method → s ∉ w.methods := by
        intro hcategory
        refine hinside.not_mem ?_
        unfold categoryAt at hcategory
        cases hkind : (c.entry s).kind <;> simp only [hkind] at hcategory <;>
          first | rfl | (split at hcategory <;> cases hcategory) | cases hcategory
      -- the parts are written by the induction hypothesis, each inside the methods it belongs to
      have hfill := fill_eq (w := w.append [.kind (c.categoryAt w.methods s)]) h.closed hs
        hnested hmethod
      simp only [segment, categoryOf_eq hs, bind, Except.bind, hfill, append_append]
      rw [Description.frames, withKind, category_assembledAt]
      rfl

end Writer

namespace Key

open Compilation Description

variable {c : Compilation} {s : SymbolId}

end Key

/-- A class with two generic methods, each of which takes the type parameters of both. -/
def Draft.entwined : Draft :=
  ofRequests [.namedType global "C" [], .method ⟨5⟩ "m" ["T"], .method ⟨5⟩ "n" ["U"],
    .structural (.array ⟨9⟩ 1), .parameter ⟨6⟩ "x" ⟨10⟩, .parameter ⟨6⟩ "y" ⟨7⟩,
      .parameter ⟨8⟩ "x" ⟨7⟩,
    .parameter ⟨8⟩ "y" ⟨9⟩]

namespace Key

-- The array's element leads to the other method, inside whose signature there is no way on.
example : (ofSymbol Draft.entwined.finish ⟨6⟩).map (·.frames.drop 21) =
    .ok [.array .populated 2, .kind .typeParameterOrdinal, .int 0, .int 0,
      .kind .typeParameterOrdinal,
      .int 1, .int 0, .text (some "U"), .int 1, .kind .typeParameterOrdinal, .int 0, .int 0] := by
  rfl

end Key
end Moniker
