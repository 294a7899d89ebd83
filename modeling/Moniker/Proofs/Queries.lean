import Mathlib.Data.List.Forall2
import Moniker.Lookup
import Moniker.Proofs.Issued

/-!
# Answers to queries

Queries run in `Except`, for a symbol may be out of range. In a closed compilation none that
follows references ever is, and every query about issued symbols has the answer that can be
read off the entries. The equations here replace the searches of `Compilation` by filters
over lists.
-/

namespace Moniker

/-! ## Related lists -/

/-- What stands on the right of related lists has something on the left. -/
theorem exists_left {α β : Type} {R : α → β → Prop} {as : List α} {bs : List β}
    (h : List.Forall₂ R as bs) {b : β} (hb : b ∈ bs) : ∃ a ∈ as, R a b := by
  induction h with
  | nil => cases hb
  | cons hab _ ih =>
      rcases List.mem_cons.mp hb with rfl | hb
      · exact ⟨_, by simp, hab⟩
      · obtain ⟨a, ha, hab⟩ := ih hb
        exact ⟨a, by simp [ha], hab⟩

/-- Where each element has something that it is related to, so has the list. -/
theorem exists_forall₂ {α β : Type} {R : α → β → Prop} {as : List α} (h : ∀ a ∈ as, ∃ b, R a b) :
    ∃ bs, List.Forall₂ R as bs := by
  induction as with
  | nil => exact ⟨[], .nil⟩
  | cons a as ih =>
      obtain ⟨b, hb⟩ := h a (by simp)
      obtain ⟨bs, hbs⟩ := ih fun a ha => h a (by simp [ha])
      exact ⟨b :: bs, .cons hb hbs⟩

/-! ## Searches that do not fail -/

section Searches

variable {α β ε : Type}

theorem mapM_ok {f : α → Except ε β} {g : α → β} {as : List α} (h : ∀ a ∈ as, f a = .ok (g a)) :
    as.mapM f = .ok (as.map g) := by
  induction as with
  | nil => rfl
  | cons a rest ih =>
      have head := h a (by simp)
      have tail := ih fun b hb => h b (by simp [hb])
      simp only [List.mapM_cons, head, tail]
      rfl

theorem expand_ok {children : α → Except ε (List β)} {g : α → List β} {as : List α}
    (h : ∀ a ∈ as, children a = .ok (g a)) : expand children as = .ok (as.flatMap g) := by
  induction as with
  | nil => rfl
  | cons a rest ih =>
      have head := h a (by simp)
      have tail := ih fun b hb => h b (by simp [hb])
      simp only [expand, head, tail]
      rfl

theorem pick_ok {image? : α → Except ε (Option β)} {g : α → Option β} {as : List α}
    (h : ∀ a ∈ as, image? a = .ok (g a)) : pick image? as = .ok (as.filterMap g) := by
  induction as with
  | nil => rfl
  | cons a rest ih =>
      have head := h a (by simp)
      have tail := ih fun b hb => h b (by simp [hb])
      cases himage : g a <;> simp only [pick, head, tail, himage, List.filterMap_cons] <;> rfl

end Searches

namespace Compilation

/-! ## What entries say -/

/-- The container, as far as the compilation reveals it. -/
def containerAt (c : Compilation) (s : SymbolId) : Option SymbolId :=
  if s ∈ c.hiddenContainers then none else (c.entry s).container

/-- The type, or the root type for want of one. -/
def typeAt (c : Compilation) (s : SymbolId) : SymbolId :=
  (if s ∈ c.hiddenTypes then none else (c.entry s).type).getD c.universal

/-- The generic definition of a constructed type; any other symbol is its own definition. -/
def definitionAt (c : Compilation) (s : SymbolId) : SymbolId := (c.entry s).definition.getD s

/-- The types of the parameters. -/
def signatureAt (c : Compilation) (s : SymbolId) : List SymbolId :=
  (c.entry s).parameters.map c.typeAt

/-- The members of one kind, in declaration order. -/
def membersAt (c : Compilation) (kind : SymbolKind) (s : SymbolId) : List SymbolId :=
  (c.entry s).members.filter fun m => (c.entry m).kind == kind

/-- The locals of a method whose names meet the test. -/
def localsAt (c : Compilation) (accepts : String → Bool) (s : SymbolId) : List SymbolId :=
  (c.membersAt .localVariable s).filter fun m => accepts (c.entry m).name

/-- The first declaration site. -/
def locationAt (c : Compilation) (s : SymbolId) : Location := (c.entry s).locations.headD .nowhere

variable {c : Compilation} {s : SymbolId}

theorem get_eq (hs : c.Issued s) : c.get s = .ok (c.entry s) := SymbolTable.get_eq hs

theorem issued_of_get {x : Symbol} (h : c.get s = .ok x) : c.Issued s := by
  refine Nat.lt_of_not_le fun hle => ?_
  have hnone : c.table.symbols[s.index]? = none := Array.getElem?_eq_none_iff.mpr hle
  simp [get, SymbolTable.get, hnone] at h

theorem kind_eq (hs : c.Issued s) : c.kind s = .ok (c.entry s).kind := by
  simp only [kind, get_eq hs]; rfl

theorem name_eq (hs : c.Issued s) : c.name s = .ok (c.entry s).name := by
  simp only [name, get_eq hs]; rfl

theorem container_eq (hs : c.Issued s) : c.container s = .ok (c.containerAt s) := by
  unfold container containerAt
  split
  · rfl
  · simp only [get_eq hs]; rfl

theorem containerOrGlobal_eq (hs : c.Issued s) :
    c.containerOrGlobal s = .ok ((c.containerAt s).getD c.global) := by
  simp only [containerOrGlobal, container_eq hs]; rfl

theorem members_eq (hs : c.Issued s) : c.members s = .ok (c.entry s).members := by
  simp only [members, get_eq hs]; rfl

theorem typeOrUniversal_eq (hs : c.Issued s) : c.typeOrUniversal s = .ok (c.typeAt s) := by
  unfold typeOrUniversal typeOf typeAt
  split
  · rfl
  · simp only [get_eq hs]; rfl

theorem typeParameters_eq (hs : c.Issued s) :
    c.typeParameters s = .ok (c.entry s).typeParameters := by
  simp only [typeParameters, get_eq hs]; rfl

theorem typeArguments_eq (hs : c.Issued s) :
    c.typeArguments s = .ok (c.entry s).typeArguments := by
  simp only [typeArguments, get_eq hs]; rfl

theorem definition_eq (hs : c.Issued s) : c.definition s = .ok (c.definitionAt s) := by
  simp only [definition, get_eq hs]; rfl

theorem parameters_eq (hs : c.Issued s) : c.parameters s = .ok (c.entry s).parameters := by
  simp only [parameters, get_eq hs]; rfl

theorem isReadOnly_eq (hs : c.Issued s) : c.isReadOnly s = .ok (c.entry s).readOnly := by
  simp only [isReadOnly, get_eq hs]; rfl

theorem firstLocation_eq (hs : c.Issued s) : c.firstLocation s = .ok (c.locationAt s) := by
  simp only [firstLocation, locations, get_eq hs]; rfl

theorem rank_eq (hs : c.Issued s) : c.rank s = .ok (c.entry s).rank := by
  simp only [rank, get_eq hs]; rfl

theorem Closed.parameterTypes_eq (h : c.Closed) (hs : c.Issued s) :
    c.parameterTypes s = .ok (c.signatureAt s) := by
  simp only [parameterTypes, parameters_eq hs]
  exact mapM_ok fun p hp => typeOrUniversal_eq (h.table.parameters hs hp)

theorem Closed.membersOfKind_eq (h : c.Closed) (hs : c.Issued s) (kind : SymbolKind) :
    c.membersOfKind kind s = .ok (c.membersAt kind s) := by
  simp only [membersOfKind, members_eq hs]
  refine select_ok fun m hm => ?_
  simp only [kind_eq (h.table.members hs hm)]
  rfl

theorem membersAt_subset {kind : SymbolKind} {m : SymbolId} (hm : m ∈ c.membersAt kind s) :
    m ∈ (c.entry s).members :=
  (List.mem_filter.mp hm).1

theorem mem_membersAt {kind : SymbolKind} {m : SymbolId} :
    m ∈ c.membersAt kind s ↔ m ∈ (c.entry s).members ∧ (c.entry m).kind = kind := by
  simp [membersAt]

theorem Closed.issued_membersAt (h : c.Closed) (hs : c.Issued s) {kind : SymbolKind}
    {m : SymbolId} (hm : m ∈ c.membersAt kind s) : c.Issued m :=
  h.table.members hs (membersAt_subset hm)

theorem Closed.localsNamed_eq (h : c.Closed) (hs : c.Issued s) (accepts : String → Bool) :
    c.localsNamed accepts s = .ok (c.localsAt accepts s) := by
  simp only [localsNamed, h.membersOfKind_eq hs]
  refine select_ok fun m hm => ?_
  simp only [name_eq (h.issued_membersAt hs hm)]
  rfl

theorem Closed.issued_typeAt (h : c.Closed) (hs : c.Issued s) : c.Issued (c.typeAt s) := by
  unfold typeAt
  split
  · exact h.universal
  · cases htype : (c.entry s).type with
    | none => exact h.universal
    | some r => exact h.table.type hs htype

theorem Closed.issued_container (h : c.Closed) (hs : c.Issued s) :
    c.Issued ((c.containerAt s).getD c.global) := by
  unfold containerAt
  split
  · exact h.global
  · cases hcontainer : (c.entry s).container with
    | none => exact h.global
    | some r => exact h.table.container hs hcontainer

theorem Closed.issued_definition (h : c.Closed) (hs : c.Issued s) :
    c.Issued (c.definitionAt s) := by
  unfold definitionAt
  cases hdefinition : (c.entry s).definition with
  | none => exact hs
  | some r => exact h.table.definition hs hdefinition

theorem Closed.issued_signature (h : c.Closed) (hs : c.Issued s) :
    ∀ r ∈ c.signatureAt s, c.Issued r := by
  intro r hr
  obtain ⟨p, hp, rfl⟩ := List.mem_map.mp hr
  exact h.issued_typeAt (h.table.parameters hs hp)

/-! ## Lookups -/

variable (c) (o : ResolveOptions)

/-- Those of the symbols that bear the name. -/
def bearing (symbols : List SymbolId) (name : String) : List SymbolId :=
  symbols.filter fun s => o.namesMatch (c.entry s).name name

/-- The members of one kind that bear the name. -/
def membersBearing (kind : SymbolKind) (containers : List SymbolId) (name : String) :
    List SymbolId :=
  c.bearing o (containers.flatMap (c.membersAt kind)) name

/-- The members of one kind, a name and an arity. -/
def genericsBearing (kind : SymbolKind) (containers : List SymbolId) (name : String)
    (arity : Nat) : List SymbolId :=
  (c.membersBearing o kind containers name).filter fun s =>
    (c.entry s).typeParameters.length == arity

/-- The properties of a name whose parameters have these types. -/
def propertiesBearing (containers : List SymbolId) (name : String) (types : List SymbolId) :
    List SymbolId :=
  (c.membersBearing o .property containers name).filter fun s => c.signatureAt s == types

/-- The parameters that bear the name. -/
def parametersBearing (owners : List SymbolId) (name : String) : List SymbolId :=
  c.bearing o (owners.flatMap fun s => (c.entry s).parameters) name

/-- The type parameters that bear the name. -/
def typeParametersBearing (owners : List SymbolId) (name : String) : List SymbolId :=
  c.bearing o (owners.flatMap fun s => (c.entry s).typeParameters) name

/-- In each method, the local at the given place among those of the name. -/
def localsBearing (methods : List SymbolId) (name : String) (ordinal : Nat) : List SymbolId :=
  methods.filterMap fun m => (c.localsAt (o.namesMatch · name) m)[ordinal]?

variable {c o}

theorem named_eq {entries : SymbolId → Except Fault (List SymbolId)}
    {list : SymbolId → List SymbolId} {owners : List SymbolId} (name : String)
    (hentries : ∀ s ∈ owners, entries s = .ok (list s))
    (hissued : ∀ s ∈ owners, ∀ r ∈ list s, c.Issued r) :
    c.named o entries owners name = .ok (c.bearing o (owners.flatMap list) name) := by
  simp only [named, expand_ok hentries]
  refine select_ok fun r hr => ?_
  obtain ⟨s, hs, hr⟩ := List.mem_flatMap.mp hr
  simp only [name_eq (hissued s hs r hr)]
  rfl

variable {owners : List SymbolId}

theorem Closed.membersNamed_eq (h : c.Closed) (howners : ∀ s ∈ owners, c.Issued s)
    (kind : SymbolKind) (name : String) :
    c.membersNamed o kind owners name = .ok (c.membersBearing o kind owners name) :=
  named_eq name (fun s hs => h.membersOfKind_eq (howners s hs) kind)
    fun s hs _ hr => h.issued_membersAt (howners s hs) hr

theorem Closed.issued_membersBearing (h : c.Closed) (howners : ∀ s ∈ owners, c.Issued s)
    {kind : SymbolKind} {name : String} :
    ∀ r ∈ c.membersBearing o kind owners name, c.Issued r := by
  intro r hr
  obtain ⟨s, hs, hr⟩ := List.mem_flatMap.mp (List.mem_filter.mp hr).1
  exact h.issued_membersAt (howners s hs) hr

theorem Closed.ofArity_membersNamed_eq (h : c.Closed) (howners : ∀ s ∈ owners, c.Issued s)
    (kind : SymbolKind) (name : String) (arity : Nat) :
    (do c.ofArity arity (← c.membersNamed o kind owners name)) =
      .ok (c.genericsBearing o kind owners name arity) := by
  simp only [h.membersNamed_eq howners]
  refine select_ok fun r hr => ?_
  simp only [typeParameters_eq (h.issued_membersBearing howners r hr)]
  rfl

theorem Closed.typesNamed_eq (h : c.Closed) (howners : ∀ s ∈ owners, c.Issued s) (name : String)
    (arity : Nat) :
    c.typesNamed o owners name arity = .ok (c.genericsBearing o .namedType owners name arity) :=
  h.ofArity_membersNamed_eq howners .namedType name arity

theorem Closed.methodsNamed_eq (h : c.Closed) (howners : ∀ s ∈ owners, c.Issued s)
    (name : String) (arity : Nat) :
    c.methodsNamed o owners name arity = .ok (c.genericsBearing o .method owners name arity) :=
  h.ofArity_membersNamed_eq howners .method name arity

theorem Closed.issued_genericsBearing (h : c.Closed) (howners : ∀ s ∈ owners, c.Issued s)
    {kind : SymbolKind} {name : String} {arity : Nat} :
    ∀ r ∈ c.genericsBearing o kind owners name arity, c.Issued r :=
  fun r hr => h.issued_membersBearing howners r (List.mem_filter.mp hr).1

theorem Closed.propertiesNamed_eq (h : c.Closed) (howners : ∀ s ∈ owners, c.Issued s)
    (name : String) (types : List SymbolId) :
    c.propertiesNamed o owners name types = .ok (c.propertiesBearing o owners name types) := by
  simp only [propertiesNamed, h.membersNamed_eq howners]
  refine select_ok fun r hr => ?_
  simp only [h.parameterTypes_eq (h.issued_membersBearing howners r hr)]
  rfl

theorem Closed.issued_propertiesBearing (h : c.Closed) (howners : ∀ s ∈ owners, c.Issued s)
    {name : String} {types : List SymbolId} :
    ∀ r ∈ c.propertiesBearing o owners name types, c.Issued r :=
  fun r hr => h.issued_membersBearing howners r (List.mem_filter.mp hr).1

theorem Closed.parametersNamed_eq (h : c.Closed) (howners : ∀ s ∈ owners, c.Issued s)
    (name : String) :
    c.named o c.parameters owners name = .ok (c.parametersBearing o owners name) :=
  named_eq name (fun s hs => parameters_eq (howners s hs))
    fun s hs _ hr => h.table.parameters (howners s hs) hr

theorem Closed.issued_parametersBearing (h : c.Closed) (howners : ∀ s ∈ owners, c.Issued s)
    {name : String} : ∀ r ∈ c.parametersBearing o owners name, c.Issued r := by
  intro r hr
  obtain ⟨s, hs, hr⟩ := List.mem_flatMap.mp (List.mem_filter.mp hr).1
  exact h.table.parameters (howners s hs) hr

theorem Closed.typeParametersNamed_eq (h : c.Closed) (howners : ∀ s ∈ owners, c.Issued s)
    (name : String) :
    c.named o c.typeParameters owners name = .ok (c.typeParametersBearing o owners name) :=
  named_eq name (fun s hs => typeParameters_eq (howners s hs))
    fun s hs _ hr => h.table.typeParameters (howners s hs) hr

theorem Closed.issued_typeParametersBearing (h : c.Closed) (howners : ∀ s ∈ owners, c.Issued s)
    {name : String} : ∀ r ∈ c.typeParametersBearing o owners name, c.Issued r := by
  intro r hr
  obtain ⟨s, hs, hr⟩ := List.mem_flatMap.mp (List.mem_filter.mp hr).1
  exact h.table.typeParameters (howners s hs) hr

theorem Closed.localsNumbered_eq (h : c.Closed) (howners : ∀ s ∈ owners, c.Issued s)
    (name : String) (ordinal : Nat) :
    c.localsNumbered o owners name ordinal = .ok (c.localsBearing o owners name ordinal) := by
  refine pick_ok fun s hs => ?_
  simp only [h.localsNamed_eq (howners s hs)]
  rfl

theorem Closed.issued_localsBearing (h : c.Closed) (howners : ∀ s ∈ owners, c.Issued s)
    {name : String} {ordinal : Nat} :
    ∀ r ∈ c.localsBearing o owners name ordinal, c.Issued r := by
  intro r hr
  obtain ⟨s, hs, hr⟩ := List.mem_filterMap.mp hr
  have hr := (List.mem_filter.mp (List.mem_of_getElem? hr)).1
  exact h.issued_membersAt (howners s hs) hr

/-- The answer to a request for a constructed type: whether the definition takes the arguments
is all that decides about it. -/
def constructAt (c : Compilation) (arguments : List SymbolId) (definition : SymbolId) :
    Except Rejection SymbolId × Compilation :=
  c.settle ((SymbolTable.checkArguments (c.entry definition) arguments).map fun _ =>
    c.table.constructed definition arguments)

theorem construct_eq {definition : SymbolId} (hd : c.Issued definition)
    (arguments : List SymbolId) :
    c.construct definition arguments = .ok (c.constructAt arguments definition) := by
  simp only [construct, SymbolTable.construct_eq hd]
  rfl

end Compilation
end Moniker
