import Moniker.Proofs.Describing

/-!
# Containers and shapes read off the entries

In a lawful compilation a declared symbol lies in its container, and the answers to queries about a
structural type are what its shape says.
-/

namespace Moniker.Compilation

open SymbolTable

variable {c : Compilation} {s p : SymbolId}

theorem Plain.containerAt_eq (h : c.Plain) (s : SymbolId) :
    c.containerAt s = (c.entry s).container := by
  rw [containerAt, h.hiddenContainers, if_neg (by simp)]

theorem Plain.typeAt_eq (h : c.Plain) (s : SymbolId) :
    c.typeAt s = (c.entry s).type.getD c.universal := by
  rw [typeAt, h.hiddenTypes, if_neg (by simp)]

theorem Lawful.containerAt_eq (h : c.Lawful) (s : SymbolId) :
    c.containerAt s = (c.entry s).container :=
  h.plain.containerAt_eq s

theorem Lawful.typeAt_eq (h : c.Lawful) (s : SymbolId) :
    c.typeAt s = (c.entry s).type.getD c.universal :=
  h.plain.typeAt_eq s

theorem Lawful.outerAt_eq (h : c.Lawful) (hp : (c.entry s).container = some p) :
    c.outerAt s = p := by
  rw [outerAt, h.containerAt_eq, hp]
  rfl

theorem definitionAt_self (h : (c.entry s).definition = none) : c.definitionAt s = s := by
  rw [definitionAt, h]
  rfl

theorem Lawful.typeAt_array {element : SymbolId} {rank : UInt64} (h : c.Lawful)
    (hembodies : c.table.Embodies s (.array element rank)) : c.typeAt s = element := by
  rw [h.typeAt_eq, show (c.entry s).type = some element from hembodies.2.1]
  rfl

theorem Lawful.typeAt_pointer {pointee : SymbolId} (h : c.Lawful)
    (hembodies : c.table.Embodies s (.pointer pointee)) : c.typeAt s = pointee := by
  rw [h.typeAt_eq, show (c.entry s).type = some pointee from hembodies.2.1]
  rfl

theorem membersAt_of_kind {kind : SymbolKind}
    (h : ∀ m ∈ (c.entry s).members, (c.entry m).kind = kind) :
    c.membersAt kind s = (c.entry s).members := by
  refine List.filter_eq_self.mpr fun m hm => ?_
  rw [h m hm]
  exact beq_self_eq_true kind

/-- Each member has one location. -/
theorem length_memberLocationsAt (c : Compilation) (kind : SymbolKind) (s : SymbolId) :
    (c.memberLocationsAt kind s).length = (c.memberTypesAt kind s).length := by
  rw [memberLocationsAt, memberTypesAt, List.length_map, List.length_map]

theorem Plain.map_typeAt (h : c.Plain) {members types : List SymbolId}
    (htypes : members.map (fun m => (c.entry m).type) = types.map some) :
    members.map c.typeAt = types := by
  have hmap : members.map c.typeAt =
      (members.map fun m => (c.entry m).type).map fun type => type.getD c.universal := by
    rw [List.map_map]
    exact List.map_congr_left fun m _ => h.typeAt_eq m
  rw [hmap, htypes, List.map_map]
  exact List.map_id _

theorem Lawful.map_typeAt (h : c.Lawful) {members types : List SymbolId}
    (htypes : members.map (fun m => (c.entry m).type) = types.map some) :
    members.map c.typeAt = types :=
  h.plain.map_typeAt htypes

/-- A symbol that is not constructed lies in its container, unless it is nowhere. -/
theorem Lawful.belongs (h : c.Lawful) (hs : c.Issued s) (hself : (c.entry s).definition = none)
    (houter : (c.entry s).container = some p) :
    c.table.Belongs (c.entry s).kind.role p s :=
  h.table.belongs p (h.table.closed.container hs houter) _ s (h.table.listed s hs hself p houter)

/-- Only the global namespace and the structural types are nowhere. -/
theorem Lawful.exists_container (h : c.Lawful) (hs : c.Issued s)
    (hspace : (c.entry s).kind ≠ .nameSpace) (hshape : (c.entry s).kind.isStructural = false) :
    ∃ p, (c.entry s).container = some p := by
  cases houter : (c.entry s).container with
  | some p => exact ⟨p, rfl⟩
  | none =>
      rcases h.table.orphan s hs houter with rfl | hstructural
      · exact absurd h.table.root.2.1 hspace
      · rw [show (c.table.entry s).kind.isStructural = false from hshape] at hstructural
        cases hstructural

/-- The global namespace is the only one that lies nowhere. -/
theorem Lawful.eq_global (h : c.Lawful) (hs : c.Issued s) (hkind : (c.entry s).kind = .nameSpace)
    (houter : c.containerAt s = none) : s = c.global := by
  rw [h.containerAt_eq] at houter
  rcases h.table.orphan s hs houter with heq | hstructural
  · rw [heq, h.plain.global]
    rfl
  · rw [show (c.table.entry s).kind = _ from hkind] at hstructural
    cases hstructural

/-- Only named types are constructed. -/
theorem Lawful.definition_eq_none (h : c.Lawful) (hs : c.Issued s) {kind : SymbolKind}
    (hkind : (c.entry s).kind = kind) (hnot : kind ≠ .namedType) : (c.entry s).definition = none :=
  h.table.definition_eq_none hs (by rwa [show (c.table.entry s).kind = kind from hkind])

/-- Other symbols lie in their containers. -/
theorem Lawful.outer (h : c.Lawful) (hs : c.Issued s) {kind : SymbolKind}
    (hkind : (c.entry s).kind = kind) (hdefinition : (c.entry s).definition = none)
    (hspace : kind ≠ .nameSpace) (hshape : kind.isStructural = false) :
    c.containerAt s = some (c.outerAt s) ∧ c.Issued (c.outerAt s) ∧
      c.table.Hosts (c.outerAt s) kind := by
  subst hkind
  obtain ⟨p, hp⟩ := h.exists_container hs hspace hshape
  rw [h.outerAt_eq hp, h.containerAt_eq]
  exact ⟨hp, h.table.closed.container hs hp, (h.belongs hs hdefinition hp).host⟩

theorem definition_of_definitionAt {s g : SymbolId} (hdefinition : c.definitionAt s = g)
    (hne : g ≠ s) :
    (c.entry s).definition = some g := by
  unfold definitionAt at hdefinition
  cases hnone : (c.entry s).definition with
  | none =>
      rw [hnone] at hdefinition
      exact absurd hdefinition.symm hne
  | some g' =>
      rw [hnone] at hdefinition
      exact congrArg some hdefinition

/-- No type is constructed from itself. -/
theorem Lawful.definition_of_self (h : c.Lawful) (hs : c.Issued s) (hself : c.definitionAt s = s) :
    (c.entry s).definition = none := by
  cases hdefinition : (c.entry s).definition with
  | none => rfl
  | some g =>
      rw [definitionAt, hdefinition] at hself
      obtain rfl : g = s := hself
      have hlt := (h.table.exists_constructed hs hdefinition).2.2.2.2.1.lt
      exact absurd hlt (Nat.lt_irrefl _)

/-- No local is listed twice. -/
theorem Lawful.nodup_localsAt (h : c.Lawful) (hs : c.Issued s) (accepts : String → Bool) :
    (c.localsAt accepts s).Nodup :=
  ((h.table.nodup s hs .member).filter _).filter _

/-- A constructed type is constructed from a generic definition, with an argument for each type
parameter. -/
theorem Lawful.constructed_from (h : c.Lawful) (hs : c.Issued s) {g : SymbolId}
    (hdefinition : c.definitionAt s = g) (hne : g ≠ s) :
    c.table.IsDefinition g ∧
      c.table.interned.lookup (.constructed g (c.entry s).typeArguments) = some s ∧
      (c.entry g).typeParameters.length = (c.entry s).typeArguments.length ∧
      (c.entry g).typeParameters.length ≠ 0 := by
  have hdefined := definition_of_definitionAt hdefinition hne
  obtain ⟨hlookup, -, -, -, hg, -, hcheck⟩ := h.table.exists_constructed hs hdefined
  obtain ⟨hlength, hsome⟩ := length_of_checkArguments hcheck
  refine ⟨isDefinition_of_checkArguments hg.type.issued hcheck, hlookup, hlength, ?_⟩
  rw [show (c.entry g).typeParameters.length = _ from hlength]
  exact fun hzero => hsome (List.eq_nil_of_length_eq_zero hzero)

/-- The types of parameters are types. -/
theorem Lawful.isType_of_mem_signatureAt (h : c.Lawful) (hs : c.Issued s) {a : SymbolId}
    (ha : a ∈ c.signatureAt s) : c.table.IsType a := by
  obtain ⟨p, hp, rfl⟩ := List.mem_map.mp ha
  have hbelongs := h.table.belongs s hs .parameter p hp
  have hkind : (c.entry p).kind = .parameter := by
    have hrole := hbelongs.role
    cases hkind : (c.entry p).kind <;> rw [hkind] at hrole <;> first | rfl | cases hrole
  obtain ⟨b, htype, hb⟩ := h.table.typed p (h.table.closed.parameters hs hp) hkind
  rw [h.typeAt_eq, show (c.entry p).type = some b from htype]
  exact hb

section Tuple

variable {types : List SymbolId} {names : List (Option String)} (h : c.Lawful)
  (hembodies : c.table.Embodies s (.tuple types names))
include hembodies

theorem membersAt_tuple : c.membersAt .field s = (c.entry s).members :=
  membersAt_of_kind hembodies.2.1

include h in
theorem Lawful.memberTypesAt_tuple : c.memberTypesAt .field s = types := by
  rw [memberTypesAt, membersAt_tuple hembodies]
  exact h.map_typeAt hembodies.2.2.1

theorem elementNamesAt_tuple :
    c.elementNamesAt s = names.map fun name =>
      if (name.getD "").isEmpty then none else some (name.getD "") := by
  have hnames : (c.entry s).members.map (fun m => (c.entry m).name) = names.map (·.getD "") :=
    hembodies.2.2.2.1
  rw [elementNamesAt, membersAt_tuple hembodies]
  have hmap := congrArg (List.map fun name : String => if name.isEmpty then none else some name)
    hnames
  rwa [List.map_map, List.map_map] at hmap

omit hembodies in
/-- An element has a name or has none, but not an empty one. -/
theorem map_elementNamesAt :
    (c.elementNamesAt s).map (fun name => if (name.getD "").isEmpty then none else some
      (name.getD "")) =
      c.elementNamesAt s := by
  rw [elementNamesAt, List.map_map]
  refine List.map_congr_left fun m _ => ?_
  by_cases hempty : (c.entry m).name = ""
  · simp [hempty]
  · simp [hempty]

end Tuple

section Anonymous

variable {types : List SymbolId} {names : List String} {readOnly : List Bool} (h : c.Lawful)
  (hembodies : c.table.Embodies s (.anonymous types names readOnly))
include hembodies

theorem membersAt_anonymous : c.membersAt .property s = (c.entry s).members :=
  membersAt_of_kind fun m hm => (hembodies.2.1 m hm).1

include h in
theorem Lawful.memberTypesAt_anonymous : c.memberTypesAt .property s = types := by
  rw [memberTypesAt, membersAt_anonymous hembodies]
  exact h.map_typeAt hembodies.2.2.1

theorem propertyNamesAt_anonymous : c.propertyNamesAt s = names := by
  rw [propertyNamesAt, membersAt_anonymous hembodies]
  exact hembodies.2.2.2.1

theorem readOnlyAt_anonymous : c.readOnlyAt s = readOnly := by
  rw [readOnlyAt, membersAt_anonymous hembodies]
  exact hembodies.2.2.2.2.1

theorem length_anonymous : names.length = types.length ∧ readOnly.length = types.length ∧
    (c.entry s).members.length = types.length := by
  obtain ⟨-, -, htypes, -, -, -, locations, hcheck⟩ := hembodies
  have hlength := congrArg List.length htypes
  rw [List.length_map, List.length_map] at hlength
  obtain ⟨hnames, hreadOnly, -⟩ := lengths_of_checkAnonymous hcheck
  exact ⟨hnames, hreadOnly, hlength⟩

end Anonymous

/-! ## Parts -/

/-- The types that a type is made of. -/
def partsAt (c : Compilation) (s : SymbolId) : List SymbolId :=
  match (c.entry s).kind with
  | .namedType => if (c.entry s).definition.isSome then (c.entry s).typeArguments else []
  | .arrayType | .pointerType => [c.typeAt s]
  | .tupleType => c.memberTypesAt .field s
  | .anonymousType => c.memberTypesAt .property s
  | _ => []

/-- Namespaces and declared types have no parts. -/
theorem partsAt_declared (h : (c.entry s).kind = .nameSpace ∨ c.table.IsDefinition s) :
    c.partsAt s = [] := by
  rcases h with hkind | hdefinition
  · rw [partsAt, hkind]
  · have hkind : (c.entry s).kind = .namedType := hdefinition.kind
    have hnone : (c.entry s).definition = none := hdefinition.definition
    simp [partsAt, hkind, hnone]

theorem partsAt_array (hkind : (c.entry s).kind = .arrayType) : c.partsAt s = [c.typeAt s] := by
  rw [partsAt, hkind]

theorem partsAt_pointer (hkind : (c.entry s).kind = .pointerType) : c.partsAt s = [c.typeAt s] := by
  rw [partsAt, hkind]

theorem partsAt_tuple (hkind : (c.entry s).kind = .tupleType) :
    c.partsAt s = c.memberTypesAt .field s := by
  rw [partsAt, hkind]

theorem partsAt_anonymous (hkind : (c.entry s).kind = .anonymousType) :
    c.partsAt s = c.memberTypesAt .property s := by
  rw [partsAt, hkind]

theorem partsAt_constructed (hkind : (c.entry s).kind = .namedType) {g : SymbolId}
    (hdefinition : (c.entry s).definition = some g) : c.partsAt s = (c.entry s).typeArguments := by
  rw [partsAt, hkind]
  simp [hdefinition]

theorem Lawful.isType_of_mem_partsAt (h : c.Lawful) (hs : c.Issued s) {a : SymbolId}
    (ha : a ∈ c.partsAt s) : c.table.IsType a := by
  cases hkind : (c.entry s).kind with
  | namedType =>
      cases hdefinition : (c.entry s).definition with
      | none =>
          have hdeclared : c.table.IsDefinition s := ⟨hs, hkind, hdefinition⟩
          rw [partsAt_declared (.inr hdeclared)] at ha
          cases ha
      | some g =>
          rw [partsAt_constructed hkind hdefinition] at ha
          exact ((h.table.exists_constructed hs hdefinition).2.2.2.2.2.1 a ha).type
  | arrayType =>
      obtain ⟨element, rank, -, hembodies⟩ := h.table.exists_array hs hkind
      rw [partsAt_array hkind, h.typeAt_array hembodies, List.mem_singleton] at ha
      rw [ha]
      exact hembodies.2.2.2.type
  | pointerType =>
      obtain ⟨pointee, -, hembodies⟩ := h.table.exists_pointer hs hkind
      rw [partsAt_pointer hkind, h.typeAt_pointer hembodies, List.mem_singleton] at ha
      rw [ha]
      exact hembodies.2.2.type
  | tupleType =>
      obtain ⟨types, names, -, hembodies⟩ := h.table.exists_tuple hs hkind
      rw [partsAt_tuple hkind, h.memberTypesAt_tuple hembodies] at ha
      exact (hembodies.2.2.2.2.1 a ha).type
  | anonymousType =>
      obtain ⟨types, names, readOnly, -, hembodies⟩ := h.table.exists_anonymous hs hkind
      rw [partsAt_anonymous hkind, h.memberTypesAt_anonymous hembodies] at ha
      exact (hembodies.2.2.2.2.2.1 a ha).type
  | nameSpace | typeParameter | field | property | method | parameter | localVariable =>
      rw [partsAt, hkind] at ha
      cases ha

end Moniker.Compilation
