import Moniker.Proofs.Keeping

/-!
# What is found

`Description.finds` is the list of candidates that locating a description comes to, and there are
none if it fails. For each sort of segment there is one lemma about that list, in terms of what is
found for the container and of the types that the arrays come to, so that nothing after this module
looks into `Description.locate`. Declared symbols are found as children (`Compilation.Child`) of the
candidates for their container, and structural types by their shapes.
-/

namespace Moniker

/-- The candidates of an outcome, in lookup order. -/
def Decode.candidates : Resolved → List SymbolId
  | .ok r => r.candidates
  | .error _ => []

namespace Decode

theorem mem_candidates {resolved : Resolved} {s : SymbolId} :
    s ∈ candidates resolved ↔ ∃ r, resolved = .ok r ∧ s ∈ r.candidates := by
  cases resolved <;> simp [candidates]

theorem first_eq_ok {resolved : Resolved} {s : SymbolId} :
    first resolved = .ok s ↔ (candidates resolved).head? = some s := by
  cases resolved with
  | error reason => simp [first, candidates, bind, Except.bind]
  | ok r =>
      show _ ↔ r.any? = some s
      cases hany : r.any? <;>
        simp [first, hany, bind, Except.bind, pure, Except.pure, throw, throwThe,
          MonadExceptOf.throw]

theorem candidates_ofCandidates {found : List SymbolId} {missing : Failure} :
    candidates (Resolution.ofCandidates found missing) = found.eraseDups := by
  cases hfound : Resolution.ofCandidates found missing with
  | ok r => exact Resolution.candidates_ofCandidates hfound
  | error reason =>
      cases found with
      | nil => rfl
      | cons s rest =>
          obtain ⟨r, hr⟩ := Resolution.ofCandidates_of_mem (List.mem_cons_self (a := s) (l := rest))
            missing
          rw [hr] at hfound
          cases hfound

/-- A segment that goes on with what is found for its container finds nothing if there is
nothing. -/
theorem candidates_bind {resolved : Resolved} {category : Category} {name : String}
    (list : List SymbolId → List SymbolId) {missing : Failure} (hnil : list [] = []) :
    candidates ((part category name resolved).bind fun r =>
      Resolution.ofCandidates (list r.candidates) missing) =
        (list (candidates resolved)).eraseDups := by
  cases resolved with
  | error reason => rw [show candidates (.error reason) = [] from rfl, hnil]; rfl
  | ok r => exact candidates_ofCandidates

end Decode

theorem gathered_map_ok {α : Type} (index : Nat) (items : List α) :
    gathered index (items.map .ok) = .ok items := by
  induction items generalizing index with
  | nil => rfl
  | cons a rest ih => rw [List.map_cons, gathered, ih]; rfl

@[simp] theorem Listing.values_ofValues {α : Type} (values : List α) :
    (Listing.ofValues values).values = values := by
  simp only [Listing.values, Listing.ofValues, Listing.full, List.filterMap_map]
  exact List.filterMap_some

theorem Presence.isAbsent_ofLength (n : Nat) : (Presence.ofLength n).isAbsent = false := by
  unfold ofLength
  split <;> rfl

theorem eq_map_of_forall₂ {α β : Type} {f : α → β} {as : List α} {bs : List β}
    (h : List.Forall₂ (fun a b => b = f a) as bs) : bs = as.map f := by
  induction h with
  | nil => rfl
  | cons hab _ ih => rw [hab, ih, List.map_cons]

/-- An array comes to elements if each of its elements does. -/
theorem gathered_eq_ok {α : Type} {index : Nat} {results : List (Except Failure α)}
    {items : List α} :
    gathered index results = .ok items ↔ results = items.map .ok :=
  ⟨mem_gathered, fun h => h ▸ gathered_map_ok index items⟩

/-- A definition takes as many arguments as it has type parameters. -/
theorem SymbolTable.checkArguments_ok {x : Symbol} {arguments : List SymbolId}
    (hkind : x.kind = .namedType) (hdefinition : x.definition = none)
    (hgeneric : x.typeParameters ≠ []) (hlength : x.typeParameters.length = arguments.length) :
    checkArguments x arguments = .ok () := by
  have hnot : ¬(x.kind ≠ .namedType ∨ x.definition.isSome) := by simp [hkind, hdefinition]
  have hcount : ¬(x.typeParameters = [] ∨ x.typeParameters.length ≠ arguments.length) := by
    simp [hgeneric, hlength]
  rw [checkArguments, if_neg hnot, if_neg hcount]

/-- Whether a tuple is built is a matter of its names and of how many parts there are. -/
theorem SymbolTable.checkTuple_congr {types types' : List SymbolId} {names : List (Option String)}
    {locations locations' : List Location} (h : checkTuple types names locations = .ok ())
    (htypes : types'.length = types.length) (hlocations : locations'.length = types.length) :
    checkTuple types' names locations' = .ok () := by
  have hlength := (lengths_of_checkTuple h).2
  rw [checkTuple, htypes, hlocations]
  rwa [checkTuple, ← hlength] at h

theorem SymbolTable.checkAnonymous_congr {limit : Option Nat} {types types' : List SymbolId}
    {names : List String} {readOnly : List Bool} {locations locations' : List Location}
    (h : checkAnonymous none types names readOnly locations = .ok ())
    (hlimit : ∀ n, limit = some n → types.length ≤ n)
    (htypes : types'.length = types.length) (hlocations : locations'.length = types.length) :
    checkAnonymous limit types' names readOnly locations' = .ok () := by
  have hlength := (lengths_of_checkAnonymous h).2.2
  rw [checkAnonymous, htypes, hlocations]
  rw [checkAnonymous, hlength] at h
  split at h
  · cases h
  · next hlengths =>
      rw [if_neg hlengths]
      cases limit with
      | none => exact h
      | some n =>
          have hn : ¬ types.length > n := Nat.not_lt.mpr (hlimit n rfl)
          simp only [if_neg hn]
          exact h

/-- Parts that fit together are too many for a cap below their number. -/
theorem SymbolTable.checkAnonymous_of_lt {n : Nat} {types types' : List SymbolId}
    {names : List String} {readOnly : List Bool} {locations locations' : List Location}
    (h : checkAnonymous none types names readOnly locations = .ok ()) (hn : n < types.length)
    (htypes : types'.length = types.length) (hlocations : locations'.length = types.length) :
    checkAnonymous (some n) types' names readOnly locations' =
      .error (.tooManyProperties n types.length) := by
  obtain ⟨hnames, hreadOnly, -⟩ := lengths_of_checkAnonymous h
  rw [checkAnonymous, htypes, hlocations, if_neg (by simp [hnames, hreadOnly])]
  simp only [gt_iff_lt, if_pos hn]
  rfl

namespace Compilation

variable {c c' : Compilation} {o : ResolveOptions} {owners : List SymbolId} {name : String}

open SymbolTable

/-- The compilation has the file of every location. -/
def AcceptsAll (c : Compilation) (locations : List Location) : Prop :=
  ∀ l ∈ locations, c.accept l = .ok l

theorem accept_eq_ok {l l' : Location} (h : c.accept l = .ok l') : l' = l := by
  cases l with
  | nowhere => cases h; rfl
  | source path span =>
      simp only [accept] at h
      split at h <;> cases h
      rfl

theorem locations_of_gathered {index : Nat} {locations locations' : List Location}
    (h : gathered index (locations.map c.accept) = .ok locations') : locations' = locations := by
  induction locations generalizing index locations' with
  | nil => cases h; rfl
  | cons l rest ih =>
      have heq := gathered_eq_ok.mp h
      cases locations' with
      | nil => cases heq
      | cons l' rest' =>
          simp only [List.map_cons, List.cons.injEq] at heq
          have htail : gathered 0 (rest.map c.accept) = .ok rest' := gathered_eq_ok.mpr heq.2
          rw [accept_eq_ok heq.1, ih htail]

theorem gathered_accept {locations : List Location} :
    gathered 0 (locations.map c.accept) = .ok locations ↔ c.AcceptsAll locations := by
  rw [gathered_eq_ok, List.map_inj_left]
  rfl

/-- A declared symbol, or a member of a structural type, that some lookup among the owners finds. -/
structure Child (c : Compilation) (o : ResolveOptions) (owners : List SymbolId) (kind : SymbolKind)
    (name : String) (s : SymbolId) : Prop where
  issued : c.Issued s
  definition : (c.entry s).definition = none
  kind : (c.entry s).kind = kind
  inside : ∃ p ∈ owners, c.containerAt s = some p
  named : o.namesMatch (c.entry s).name name = true

theorem Lawful.mem_belongings (h : c.Lawful) {p s : SymbolId} (hp : c.Issued p)
    {role : Attachment} :
    s ∈ (c.entry p).belongings role ↔ c.Issued s ∧ (c.entry s).definition = none ∧
      (c.entry s).kind.role = role ∧ c.containerAt s = some p := by
  rw [h.containerAt_eq]
  constructor
  · intro hs
    have hbelongs := h.table.belongs p hp role s hs
    exact ⟨h.table.issued_belongings hp hs, hbelongs.definition, hbelongs.role, hbelongs.container⟩
  · rintro ⟨hs, hdefinition, rfl, hcontainer⟩
    exact h.table.listed s hs hdefinition p hcontainer

theorem Lawful.mem_bearing (h : c.Lawful) (howners : ∀ p ∈ owners, c.Issued p) {s : SymbolId}
    {kind : SymbolKind} {list : SymbolId → List SymbolId}
    (hlist : ∀ p ∈ owners, s ∈ list p ↔
      s ∈ (c.entry p).belongings kind.role ∧ (c.entry s).kind = kind) :
    s ∈ c.bearing o (owners.flatMap list) name ↔ c.Child o owners kind name s := by
  constructor
  · intro hs
    obtain ⟨hs, hnamed⟩ := List.mem_filter.mp hs
    obtain ⟨p, hp, hs⟩ := List.mem_flatMap.mp hs
    obtain ⟨hs, hkind⟩ := (hlist p hp).mp hs
    obtain ⟨hissued, hdefinition, -, hcontainer⟩ := (h.mem_belongings (howners p hp)).mp hs
    exact ⟨hissued, hdefinition, hkind, ⟨p, hp, hcontainer⟩, hnamed⟩
  · intro hs
    obtain ⟨p, hp, hcontainer⟩ := hs.inside
    refine List.mem_filter.mpr ⟨List.mem_flatMap.mpr ⟨p, hp, (hlist p hp).mpr ⟨?_, hs.kind⟩⟩,
      hs.named⟩
    exact (h.mem_belongings (howners p hp)).mpr
      ⟨hs.issued, hs.definition, by rw [hs.kind], hcontainer⟩

theorem Lawful.mem_membersBearing (h : c.Lawful) (howners : ∀ p ∈ owners, c.Issued p) {s : SymbolId}
    {kind : SymbolKind} (hrole : kind.role = .member) :
    s ∈ c.membersBearing o kind owners name ↔ c.Child o owners kind name s := by
  refine h.mem_bearing howners fun p _ => ?_
  rw [mem_membersAt, hrole]
  rfl

theorem Lawful.mem_genericsBearing (h : c.Lawful) (howners : ∀ p ∈ owners, c.Issued p)
    {s : SymbolId} {kind : SymbolKind} (hrole : kind.role = .member) {arity : Nat} :
    s ∈ c.genericsBearing o kind owners name arity ↔
      c.Child o owners kind name s ∧ (c.entry s).typeParameters.length = arity := by
  rw [genericsBearing, List.mem_filter, h.mem_membersBearing howners hrole, beq_iff_eq]

theorem Lawful.mem_propertiesBearing (h : c.Lawful) (howners : ∀ p ∈ owners, c.Issued p)
    {s : SymbolId} {types : List SymbolId} :
    s ∈ c.propertiesBearing o owners name types ↔
      c.Child o owners .property name s ∧ c.signatureAt s = types := by
  rw [propertiesBearing, List.mem_filter, h.mem_membersBearing howners rfl, beq_iff_eq]

/-- What hangs off a symbol as a parameter or type parameter is of that kind. -/
theorem Lawful.kind_of_mem_belongings (h : c.Lawful) {p s : SymbolId} (hp : c.Issued p)
    {kind : SymbolKind} (hkind : kind = .parameter ∨ kind = .typeParameter)
    (hs : s ∈ (c.entry p).belongings kind.role) : (c.entry s).kind = kind := by
  have hrole := (h.table.belongs p hp kind.role s hs).role
  rw [show (c.table.entry s).kind = (c.entry s).kind from rfl] at hrole
  cases hs : (c.entry s).kind <;> rw [hs] at hrole <;> rcases hkind with rfl | rfl <;>
    first | rfl | cases hrole

theorem Lawful.mem_parametersBearing (h : c.Lawful) (howners : ∀ p ∈ owners, c.Issued p)
    {s : SymbolId} :
    s ∈ c.parametersBearing o owners name ↔ c.Child o owners .parameter name s := by
  refine h.mem_bearing howners fun p hp => ⟨fun hs => ⟨hs, ?_⟩, And.left⟩
  exact h.kind_of_mem_belongings (howners p hp) (.inl rfl) hs

theorem Lawful.mem_typeParametersBearing (h : c.Lawful) (howners : ∀ p ∈ owners, c.Issued p)
    {s : SymbolId} :
    s ∈ c.typeParametersBearing o owners name ↔ c.Child o owners .typeParameter name s := by
  refine h.mem_bearing howners fun p hp => ⟨fun hs => ⟨hs, ?_⟩, And.left⟩
  exact h.kind_of_mem_belongings (howners p hp) (.inr rfl) hs

end Compilation
namespace Description

open Compilation

variable {c c₁ : Compilation} {o : ResolveOptions} {methods around : List SymbolId}
  {container : Description} {name : String}

/-- The candidates for what a description describes. -/
def finds (o : ResolveOptions) (d : Description) (methods : List SymbolId) (c : Compilation) :
    List SymbolId :=
  Decode.candidates (locate o d methods c).1

/-- The compilation after a description was located. -/
def after (o : ResolveOptions) (d : Description) (methods : List SymbolId) (c : Compilation) :
    Compilation :=
  (locate o d methods c).2

/-- The compilation after descriptions were located one after the other. -/
def afterEach (o : ResolveOptions) (ds : List Description) (methods : List SymbolId)
    (c : Compilation) : Compilation :=
  (locateEach o ds methods c).2

/-- The descriptions in a row come to these symbols, each by its first candidate. -/
def ComeTo (o : ResolveOptions) (ds : List Description) (methods : List SymbolId) (c : Compilation)
    (items : List SymbolId) : Prop :=
  (locateEach o ds methods c).1 = items.map .ok

theorem comeTo_of_gathered {category : Category} {part : String} {ds : List Description}
    {items : List SymbolId}
    (h : Moniker.part category part (gathered 0 (locateEach o ds methods c).1) = .ok items) :
    ComeTo o ds methods c items :=
  gathered_eq_ok.mp (part_eq_ok.mp h)

theorem ComeTo.gathered {ds : List Description} {items : List SymbolId}
    (h : ComeTo o ds methods c items) : gathered 0 (locateEach o ds methods c).1 = .ok items :=
  gathered_eq_ok.mpr h

/-! Segments that look something up by name leave the compilation as their containers left it. -/

@[simp] theorem after_nameSpace :
    after o (.nameSpace container (.ok name)) methods c = after o container methods c := by
  simp only [after, locate]

@[simp] theorem after_definition {arity : Nat} :
    after o (.namedType container (.ok name) (.ok arity) (.ok .absent) []) methods c =
      after o container methods c := by
  simp only [after, locate, locateEach, gathered, part_ok]
  cases (locate o container methods c).1 <;> rfl

@[simp] theorem after_typeParameter :
    after o (.typeParameter container (.ok name)) methods c = after o container methods c := by
  simp only [after, locate]

@[simp] theorem after_typeParameterOrdinal {depth ordinal : Nat} :
    after o (.typeParameterOrdinal (.ok depth) (.ok ordinal)) methods c = c := by
  simp only [after, locate]

@[simp] theorem after_field :
    after o (.field container (.ok name)) methods c = after o container methods c := by
  simp only [after, locate]

@[simp] theorem after_property {presence : Slot Presence} {parameters : List Description} :
    after o (.property container (.ok name) presence parameters) methods c =
      afterEach o parameters methods (after o container methods c) := by
  simp only [after, afterEach, locate]

@[simp] theorem after_parameter :
    after o (.parameter container (.ok name)) methods c = after o container methods c := by
  simp only [after, locate]

@[simp] theorem after_localVariable {ordinal : Nat} :
    after o (.localVariable container (.ok name) (.ok ordinal)) methods c =
      after o container methods c := by
  simp only [after, locate]

theorem finds_global : finds o .global methods c = [c.global] := by
  simp only [finds, locate, Decode.candidates, Resolution.candidates]

theorem finds_nameSpace : finds o (.nameSpace container (.ok name)) methods c =
    ((after o container methods c).membersBearing o .nameSpace (finds o container methods c)
      name).eraseDups := by
  simp only [finds, locate]
  exact Decode.candidates_bind ((locate o container methods c).2.membersBearing o .nameSpace · name)
    rfl

theorem finds_definition {arity : Nat} :
    finds o (.namedType container (.ok name) (.ok arity) (.ok .absent) []) methods c =
      ((after o container methods c).genericsBearing o .namedType (finds o container methods c) name
        arity).eraseDups := by
  simp only [finds, locate, locateEach, gathered, part_ok]
  cases (locate o container methods c).1 with
  | error reason => rfl
  | ok r => exact Decode.candidates_ofCandidates

theorem finds_typeParameter : finds o (.typeParameter container (.ok name)) methods c =
    ((after o container methods c).typeParametersBearing o (finds o container methods c)
      name).eraseDups := by
  simp only [finds, locate]
  exact Decode.candidates_bind ((locate o container methods c).2.typeParametersBearing o · name) rfl

theorem finds_typeParameterOrdinal {depth ordinal : Nat} :
    finds o (.typeParameterOrdinal (.ok depth) (.ok ordinal)) methods c =
      ((methods[depth]?).bind fun m => (c.entry m).typeParameters[ordinal]?).toList := by
  simp only [finds, locate, enclosingAt, Slot.valueOr]
  cases methods[depth]? with
  | none => rfl
  | some m =>
      cases hs : (c.entry m).typeParameters[ordinal]? <;>
        simp [hs, Decode.candidates, Resolution.candidates]

theorem finds_field : finds o (.field container (.ok name)) methods c =
    ((after o container methods c).membersBearing o .field (finds o container methods c)
      name).eraseDups := by
  simp only [finds, locate]
  exact Decode.candidates_bind ((locate o container methods c).2.membersBearing o .field · name) rfl

theorem finds_parameter : finds o (.parameter container (.ok name)) methods c =
    ((after o container methods c).parametersBearing o (finds o container methods c)
      name).eraseDups := by
  simp only [finds, locate]
  exact Decode.candidates_bind ((locate o container methods c).2.parametersBearing o · name) rfl

theorem finds_localVariable {ordinal : Nat} :
    finds o (.localVariable container (.ok name) (.ok ordinal)) methods c =
      ((after o container methods c).localsBearing o (finds o container methods c) name
        ordinal).eraseDups := by
  simp only [finds, locate]
  exact Decode.candidates_bind ((locate o container methods c).2.localsBearing o · name ordinal) rfl

section Property

variable {presence : Slot Presence} {parameters : List Description} {items : List SymbolId}

theorem finds_property (hitems : ComeTo o parameters methods (after o container methods c) items) :
    finds o (.property container (.ok name) presence parameters) methods c =
      ((afterEach o parameters methods (after o container methods c)).propertiesBearing o
        (finds o container methods c) name items).eraseDups := by
  have hitems := hitems.gathered
  simp only [after] at hitems
  simp only [finds, locate, hitems]
  exact Decode.candidates_bind
    ((locateEach o parameters methods (locate o container methods c).2).2.propertiesBearing o
      · name items)
    rfl

theorem exists_of_mem_property {s : SymbolId}
    (hs : s ∈ finds o (.property container (.ok name) presence parameters) methods c) :
    ∃ items, ComeTo o parameters methods (after o container methods c) items := by
  obtain ⟨r, hr, -⟩ := Decode.mem_candidates.mp hs
  simp only [locate] at hr
  cases hitems : gathered 0
      (locateEach o parameters methods (locate o container methods c).2).1 with
  | ok items => exact ⟨items, gathered_eq_ok.mp hitems⟩
  | error reason =>
      rw [hitems] at hr
      cases hcontainer : (locate o container methods c).1 <;> rw [hcontainer] at hr <;> cases hr

end Property

section Rebuilt

variable {element : Description} {rank : Nat}

theorem finds_arrayType (h : (after o element methods c).Lawful)
    (htypes : ∀ a ∈ finds o element methods c, (after o element methods c).table.IsType a) :
    (after o element methods c).Grows (after o (.arrayType element (.ok rank)) methods c) ∧
      List.Forall₂ (fun a s =>
        (after o (.arrayType element (.ok rank)) methods c).table.interned.lookup
          (.array a (UInt64.ofNat rank)) = some s)
        (finds o element methods c) (finds o (.arrayType element (.ok rank)) methods c) := by
  unfold finds after at *
  simp only [locate, Slot.valueOr_ok]
  cases hr : (locate o element methods c).1 with
  | error reason => exact ⟨.refl _, .nil⟩
  | ok r =>
      rw [hr] at htypes
      obtain ⟨hgrows, -, hlookup⟩ :=
        Resolution.rebuilt_lawful h htypes fun c' s h' hs => h'.arrayType hs (UInt64.ofNat rank)
      exact ⟨hgrows, hlookup⟩

theorem finds_pointerType (h : (after o element methods c).Lawful)
    (htypes : ∀ a ∈ finds o element methods c, (after o element methods c).table.IsType a) :
    (after o element methods c).Grows (after o (.pointerType element) methods c) ∧
      List.Forall₂ (fun a s => (after o (.pointerType element) methods c).table.interned.lookup
          (.pointer a) = some s)
        (finds o element methods c) (finds o (.pointerType element) methods c) := by
  unfold finds after at *
  simp only [locate]
  cases hr : (locate o element methods c).1 with
  | error reason => exact ⟨.refl _, .nil⟩
  | ok r =>
      rw [hr] at htypes
      obtain ⟨hgrows, -, hlookup⟩ :=
        Resolution.rebuilt_lawful h htypes fun c' s h' hs => h'.pointerType hs
      exact ⟨hgrows, hlookup⟩

end Rebuilt

section Structural

variable {types : List Description} {n : Nat} {names : List (Option String)} {readOnly : List Bool}
  {locations : List Location} {items : List SymbolId}

theorem finds_tupleType (h : (afterEach o types methods c).Lawful)
    (hitems : ComeTo o types methods c items)
    (htypes : ∀ a ∈ items, (afterEach o types methods c).table.IsType a)
    (hlocations : (afterEach o types methods c).AcceptsAll locations)
    (hcheck : SymbolTable.checkTuple items names locations = .ok ()) :
    ∃ s, finds o (.tupleType (.ok (.ofLength n)) types (.ofValues names) (.ofValues locations))
      methods
        c = [s] ∧
      (afterEach o types methods c).Grows (after o (.tupleType (.ok (.ofLength n)) types
        (.ofValues names) (.ofValues locations)) methods c) ∧
      (after o (.tupleType (.ok (.ofLength n)) types (.ofValues names) (.ofValues locations))
        methods
        c).table.interned.lookup (.tuple items names) = some s := by
  have hitems := hitems.gathered
  have hlocations := gathered_accept.mpr hlocations
  unfold finds after afterEach at *
  obtain ⟨s, c', heq, hanswers⟩ := h.tupleType_ok htypes hcheck
  simp only [locate, hitems, Listing.values_ofValues, hlocations, part_ok, Slot.valueOr_ok,
    Fallback.settle, Presence.isAbsent_ofLength, heq]
  exact ⟨s, rfl, hanswers.grows, hanswers.lookup⟩

theorem exists_of_mem_tupleType {s : SymbolId}
    (hs : s ∈ finds o (.tupleType (.ok (.ofLength n)) types (.ofValues names) (.ofValues locations))
      methods c) :
    ∃ items, ComeTo o types methods c items ∧ (afterEach o types methods c).AcceptsAll locations ∧
      SymbolTable.checkTuple items names locations = .ok () := by
  obtain ⟨r, hr, -⟩ := Decode.mem_candidates.mp hs
  simp only [locate, Listing.values_ofValues] at hr
  split at hr
  · cases hr
  · cases hr
  · next items locations' hitems hlocations =>
      have hlocations := part_eq_ok.mp hlocations
      obtain rfl := locations_of_gathered hlocations
      refine ⟨items, comeTo_of_gathered hitems, gathered_accept.mp hlocations, ?_⟩
      simp only [Slot.valueOr_ok, Fallback.settle, Presence.isAbsent_ofLength] at hr
      cases hcheck : SymbolTable.checkTuple items names locations' with
      | ok _ => rfl
      | error rejection =>
          rw [tupleType_error hcheck] at hr
          cases hr

theorem finds_anonymousType {names : List String} (h : (afterEach o types methods c).Lawful)
    (hitems : ComeTo o types methods c items)
    (htypes : ∀ a ∈ items, (afterEach o types methods c).table.IsType a)
    (hlocations : (afterEach o types methods c).AcceptsAll locations)
    (hcheck : SymbolTable.checkAnonymous (afterEach o types methods c).table.maxAnonymousArity items
      names readOnly locations = .ok ()) :
    ∃ s, finds o (.anonymousType (.ok (.ofLength n)) types (.ofValues (names.map some))
        (.ofValues readOnly) (.ofValues locations)) methods c = [s] ∧
      (afterEach o types methods c).Grows (after o (.anonymousType (.ok (.ofLength n)) types
        (.ofValues (names.map some)) (.ofValues readOnly) (.ofValues locations)) methods c) ∧
      (after o (.anonymousType (.ok (.ofLength n)) types (.ofValues (names.map some))
        (.ofValues readOnly) (.ofValues locations)) methods c).table.interned.lookup
        (.anonymous items names readOnly) = some s := by
  have hitems := hitems.gathered
  have hlocations := gathered_accept.mpr hlocations
  have hnames : (names.map some).map (·.getD "") = names := by
    rw [List.map_map]
    exact List.map_id _
  unfold finds after afterEach at *
  obtain ⟨s, c', heq, hanswers⟩ := h.anonymousType_ok htypes hcheck
  simp only [locate, hitems, Listing.values_ofValues, hlocations, part_ok, Slot.valueOr_ok,
    Fallback.settle, Presence.isAbsent_ofLength, hnames, heq]
  exact ⟨s, rfl, hanswers.grows, hanswers.lookup⟩

theorem finds_anonymousType_rejected {names : List String} {rejection : Rejection}
    (hitems : ComeTo o types methods c items)
    (hlocations : (afterEach o types methods c).AcceptsAll locations)
    (hcheck : SymbolTable.checkAnonymous (afterEach o types methods c).table.maxAnonymousArity items
      names readOnly locations = .error rejection) :
    finds o (.anonymousType (.ok (.ofLength n)) types (.ofValues (names.map some))
        (.ofValues readOnly) (.ofValues locations)) methods c =
        [(after o (.anonymousType (.ok (.ofLength n)) types (.ofValues (names.map some))
          (.ofValues readOnly) (.ofValues locations)) methods c).universal] := by
  have hitems := hitems.gathered
  have hlocations := gathered_accept.mpr hlocations
  have hnames : (names.map some).map (·.getD "") = names := by
    rw [List.map_map]
    exact List.map_id _
  unfold finds after afterEach at *
  simp only [locate, hitems, Listing.values_ofValues, hlocations, part_ok, Slot.valueOr_ok,
    Fallback.settle, Presence.isAbsent_ofLength, hnames, anonymousType_error hcheck]
  rfl

theorem exists_of_mem_anonymousType {names : List (Option String)} {s : SymbolId}
    (hs : s ∈ finds o (.anonymousType (.ok (.ofLength n)) types (.ofValues names)
      (.ofValues readOnly) (.ofValues locations)) methods c) :
    ∃ items, ComeTo o types methods c items ∧
      (afterEach o types methods c).AcceptsAll locations := by
  obtain ⟨r, hr, -⟩ := Decode.mem_candidates.mp hs
  simp only [locate, Listing.values_ofValues] at hr
  split at hr
  · cases hr
  · cases hr
  · next items locations' hitems hlocations =>
      have hlocations := part_eq_ok.mp hlocations
      obtain rfl := locations_of_gathered hlocations
      exact ⟨items, comeTo_of_gathered hitems, gathered_accept.mp hlocations⟩

end Structural

section Constructed

variable {arity : Nat} {arguments : List Description} {items : List SymbolId}

theorem Constructs.found {c' : Compilation} {definitions : List SymbolId}
    {answers : List (Except Rejection SymbolId)}
    (h : List.Forall₂ (Constructs c c' items) definitions answers)
    (hcheck : ∀ g ∈ definitions, SymbolTable.checkArguments (c.entry g) items = .ok ()) :
    List.Forall₂ (fun g s => c'.table.interned.lookup (.constructed g items) = some s) definitions
      (answers.filterMap Except.toOption) := by
  induction h with
  | nil => exact .nil
  | cons hhead _ ih =>
      have hrest := ih fun g hg => hcheck g (by simp [hg])
      cases hhead with
      | built _ hlookup => exact .cons hlookup hrest
      | refused hrejected =>
          rw [hcheck _ (by simp)] at hrejected
          cases hrejected

theorem finds_constructed (name : String) (n : Nat)
    (h : (afterEach o arguments methods (after o container methods c)).Lawful)
    (howners : ∀ p ∈ finds o container methods c,
      (afterEach o arguments methods (after o container methods c)).Issued p)
    (hitems : ComeTo o arguments methods (after o container methods c) items)
    (htypes : ∀ a ∈ items,
      (afterEach o arguments methods (after o container methods c)).table.IsType a)
    (harity : arity = items.length) (hpositive : arity ≠ 0) :
    (afterEach o arguments methods (after o container methods c)).Grows
        (after o (.namedType container (.ok name) (.ok arity) (.ok (.ofLength n)) arguments)
          methods c) ∧
      ∃ found, List.Forall₂ (fun g s => (after o (.namedType container (.ok name) (.ok arity)
          (.ok (.ofLength n)) arguments) methods c).table.interned.lookup (.constructed g items) =
            some s)
        ((afterEach o arguments methods (after o container methods c)).genericsBearing o .namedType
          (finds o container methods c) name arity) found ∧
      finds o (.namedType container (.ok name) (.ok arity) (.ok (.ofLength n)) arguments)
        methods c =
        found.eraseDups := by
  have hitems := hitems.gathered
  unfold finds after afterEach at *
  simp only [locate, hitems, part_ok, Slot.valueOr_ok]
  cases hr : (locate o container methods c).1 with
  | error reason => exact ⟨.refl _, [], .nil, rfl⟩
  | ok r =>
      rw [hr] at howners
      have hdefinitions : ∀ g ∈ (locateEach o arguments methods
          (locate o container methods c).2).2.genericsBearing o .namedType r.candidates name arity,
          (locateEach o arguments methods (locate o container methods c).2).2.Issued g ∧
          SymbolTable.checkArguments ((locateEach o arguments methods
            (locate o container methods c).2).2.entry g) items = .ok () := by
        intro g hg
        obtain ⟨hchild, hlength⟩ := (h.mem_genericsBearing howners rfl).mp hg
        refine ⟨hchild.issued, SymbolTable.checkArguments_ok hchild.kind hchild.definition ?_ ?_⟩
        · exact fun hnil => hpositive (by rw [← hlength, hnil]; rfl)
        · rw [hlength, harity]
      simp only [part_ok, constructedAt, Presence.isAbsent_ofLength, Bool.false_or,
        Decode.candidates.eq_1]
      split
      · next hnone =>
          rw [List.isEmpty_iff.mp hnone]
          exact ⟨.refl _, [], .nil, rfl⟩
      · obtain ⟨hgrows, -, hconstructs⟩ :=
          buildEach_constructAt h (fun g hg => (hdefinitions g hg).1) htypes
        exact ⟨hgrows, _, Constructs.found hconstructs fun g hg => (hdefinitions g hg).2,
          Decode.candidates_ofCandidates⟩


theorem exists_of_mem_constructed {presence : Slot Presence} {s : SymbolId}
    (hs : s ∈ finds o (.namedType container (.ok name) (.ok arity) presence arguments) methods c) :
    ∃ items, ComeTo o arguments methods (after o container methods c) items := by
  obtain ⟨r, hr, -⟩ := Decode.mem_candidates.mp hs
  simp only [locate] at hr
  split at hr
  · cases hr
  · cases hr
  · next items _ hitems => exact ⟨items, comeTo_of_gathered hitems⟩

end Constructed

section Method

variable {parameters : List Description}

theorem Replay.candidates_outcome (replay : Replay) :
    Decode.candidates (replay.outcome name) = replay.fitting.eraseDups := by
  unfold outcome
  split
  · next hnone _ => rw [hnone]; rfl
  · exact Decode.candidates_ofCandidates

/-- Going through a signature: what it comes to, and the compilation afterwards. -/
def goThrough (o : ResolveOptions) (parameters : List Description) (methods : List SymbolId)
    (c : Compilation) : Except Failure (List SymbolId) × Compilation :=
  (gathered 0 (locateEach o parameters methods c).1, afterEach o parameters methods c)

/-- A method segment finds the methods that its signature fits, gone through inside each of them. -/
theorem finds_method (name : String) (arity : Nat) (presence : Slot Presence)
    {Q : Compilation → SymbolId → Except Failure (List SymbolId) → Prop}
    {candidates : List SymbolId} (h : (after o container methods c).Lawful)
    (howners : ∀ p ∈ finds o container methods c, (after o container methods c).Issued p)
    (hcandidates : (after o container methods c).genericsBearing o .method
      (finds o container methods c) name arity = candidates)
    (hmethods : ∀ m ∈ methods, (after o container methods c).Issued m)
    (hlater : ∀ (methods : List SymbolId) (c : Compilation), c.Lawful →
      (∀ m ∈ methods, c.Issued m) →
      c.Grows (afterEach o parameters methods c) ∧ (afterEach o parameters methods c).Lawful)
    (hkeep : ∀ c c' m x, c.Grows c' → c.Lawful → Q c m x → Q c' m x)
    (hsignature : ∀ m ∈ candidates, ∀ c', (after o container methods c).Grows c' → c'.Lawful →
      Q (afterEach o parameters (methods ++ [m]) c') m
      (goThrough o parameters (methods ++ [m]) c').1) :
    (after o container methods c).Grows
        (after o (.method container (.ok name) (.ok arity) presence parameters) methods c) ∧
      ∃ outcomes, List.Forall₂
        (Q (after o (.method container (.ok name) (.ok arity) presence parameters) methods c))
        candidates outcomes ∧
      finds o (.method container (.ok name) (.ok arity) presence parameters) methods c =
        (fits (after o container methods c) candidates outcomes).eraseDups := by
  have hissued : ∀ m ∈ candidates, (after o container methods c).Issued m :=
    fun m hm => h.closed.issued_genericsBearing howners m (hcandidates ▸ hm)
  have hstep : ∀ m ∈ candidates, ∀ c', (after o container methods c).Grows c' → c'.Lawful →
      c'.Grows (goThrough o parameters (methods ++ [m]) c').2 ∧
        (goThrough o parameters (methods ++ [m]) c').2.Lawful ∧
        Q (goThrough o parameters (methods ++ [m]) c').2 m
          (goThrough o parameters (methods ++ [m]) c').1 := by
    intro m hm c' hc hlawful
    have hwithin := issued_within (fun m hm => hc.issued (hmethods m hm)) (hc.issued (hissued m hm))
    obtain ⟨hgrows, hlawful'⟩ := hlater _ c' hlawful hwithin
    exact ⟨hgrows, hlawful', hsignature m hm c' hc hlawful⟩
  obtain ⟨hgrows, -, outcomes, houtcomes, hfitting⟩ :=
    replayedAll_keeps h.closed hissued h hkeep (hlater methods _ h hmethods) hstep
  rw [exists_and_left.symm]
  refine ⟨outcomes, ?_⟩
  unfold finds after at *
  simp only [locate, Slot.valueOr_ok]
  cases hr : (locate o container methods c).1 with
  | error reason =>
      rw [hr] at hcandidates
      obtain rfl : [] = candidates := hcandidates
      exact ⟨hgrows, houtcomes, rfl⟩
  | ok r =>
      rw [hr] at hcandidates
      obtain rfl := hcandidates
      exact ⟨hgrows, houtcomes,
        (Replay.candidates_outcome _).trans (congrArg List.eraseDups hfitting)⟩

end Method

section Described

variable {s : SymbolId} {d : Description}

/-- A described symbol is located in a later compilation, which is lawful and knows what was
found. -/
theorem Describes.later (h₁ : c₁.Lawful) (hd : Describes c₁ around s d) (hs : c₁.Issued s)
    (h : c.Lawful) (hmethods : ∀ m ∈ methods, c.Issued m) :
    c.Grows (after o d methods c) ∧ (after o d methods c).Lawful ∧
      ∀ a ∈ finds o d methods c, (after o d methods c).Issued a := by
  obtain ⟨hreaches, hknows⟩ := locate_closed o d methods c h.closed hmethods
  refine ⟨hreaches.grows, (hd.locate_lawful h₁ hs methods c h hmethods).1, fun a ha => ?_⟩
  obtain ⟨r, hr, ha⟩ := Decode.mem_candidates.mp ha
  exact hknows r hr a ha

/-- What is found for a type are types. -/
theorem Describes.isType (h₁ : c₁.Lawful) (hd : Describes c₁ around s d) (hs : c₁.table.IsType s)
    (h : c.Lawful) (hmethods : ∀ m ∈ methods, c.Issued m) :
    ∀ a ∈ finds o d methods c, (after o d methods c).table.IsType a := by
  intro a ha
  obtain ⟨r, hr, ha⟩ := Decode.mem_candidates.mp ha
  exact (hd.locate_lawful h₁ hs.issued methods c h hmethods).2 hs.kind r hr a ha

/-- The descriptions describe the types one by one. -/
structure DescribesEach (c₁ : Compilation) (around ts : List SymbolId) (ds : List Description) :
    Prop where
  length : ds.length = ts.length
  types : ∀ t ∈ ts, c₁.table.IsType t
  each : ∀ p ∈ ts.zip ds, Describes c₁ around p.1 p.2

variable {ts items : List SymbolId} {ds : List Description}

/-- Locating the types of an array keeps what locating each of them keeps. -/
theorem DescribesEach.keeps
    {T : Compilation → SymbolId × Description → Except Failure SymbolId → Prop} (h₁ : c₁.Lawful)
    (hds : DescribesEach c₁ around ts ds) (h : c.Lawful) (hmethods : ∀ m ∈ methods, c.Issued m)
    (hkeep : ∀ c c' p x, c.Grows c' → c.Lawful → T c p x → T c' p x)
    (heach : ∀ p ∈ ts.zip ds, ∀ c', c.Grows c' → c'.Lawful →
      T (after o p.2 methods c') p (Decode.first (locate o p.2 methods c').1)) :
    c.Grows (afterEach o ds methods c) ∧ (afterEach o ds methods c).Lawful ∧
      List.Forall₂ (T (afterEach o ds methods c)) (ts.zip ds) (locateEach o ds methods c).1 := by
  have hkept := locateEach_keeps (f := Prod.snd) hkeep
    (fun p (hp : p ∈ ts.zip ds) c' hc (hlawful : c'.Lawful) => by
      have htype := hds.types p.1 (List.of_mem_zip hp).1
      obtain ⟨hgrows, hlawful', -⟩ := (hds.each p hp).later h₁ htype.issued hlawful
        fun m hm => hc.issued (hmethods m hm)
      exact ⟨hgrows, hlawful', heach p hp c' hc hlawful⟩) c (.refl c) h
  rwa [List.map_snd_zip (Nat.le_of_eq hds.length)] at hkept

theorem DescribesEach.later (h₁ : c₁.Lawful) (hds : DescribesEach c₁ around ts ds) (h : c.Lawful)
    (hmethods : ∀ m ∈ methods, c.Issued m) :
    c.Grows (afterEach o ds methods c) ∧ (afterEach o ds methods c).Lawful := by
  obtain ⟨hgrows, hlawful, -⟩ := hds.keeps (o := o) (T := fun _ _ _ => True) h₁ h hmethods
    (fun _ _ _ _ _ _ _ => trivial) fun _ _ _ _ _ => trivial
  exact ⟨hgrows, hlawful⟩

/-- What an array comes to has what everything found for its elements has. -/
theorem DescribesEach.comeTo {T : Compilation → SymbolId × Description → SymbolId → Prop}
    (h₁ : c₁.Lawful) (hds : DescribesEach c₁ around ts ds) (h : c.Lawful)
    (hmethods : ∀ m ∈ methods, c.Issued m)
    (hkeep : ∀ c c' p a, c.Grows c' → c.Lawful → T c p a → T c' p a)
    (heach : ∀ p ∈ ts.zip ds, ∀ c', c.Grows c' → c'.Lawful → ∀ a ∈ finds o p.2 methods c',
      T (after o p.2 methods c') p a) (hitems : ComeTo o ds methods c items) :
    List.Forall₂ (T (afterEach o ds methods c)) (ts.zip ds) items := by
  have hkept := (hds.keeps (o := o) (T := fun c p x => ∀ a, x = .ok a → T c p a) h₁ h hmethods
    (fun c c' p x hgrows hlawful hx a ha => hkeep c c' p a hgrows hlawful (hx a ha))
    fun p hp c' hc hlawful a ha => by
      refine heach p hp c' hc hlawful a (List.mem_of_head? ?_)
      exact Decode.first_eq_ok.mp ha).2.2
  rw [ComeTo] at hitems
  rw [hitems, List.forall₂_map_right_iff] at hkept
  exact hkept.imp fun p a hpa => hpa a rfl

theorem DescribesEach.isType (h₁ : c₁.Lawful) (hds : DescribesEach c₁ around ts ds) (h : c.Lawful)
    (hmethods : ∀ m ∈ methods, c.Issued m) (hitems : ComeTo o ds methods c items) :
    ∀ a ∈ items, (afterEach o ds methods c).table.IsType a := by
  have htypes := hds.comeTo (T := fun c _ a => c.table.IsType a) h₁ h hmethods
    (fun _ _ _ _ hgrows _ ha => hgrows.isType ha)
    (fun p hp c' hc hlawful => (hds.each p hp).isType h₁ (hds.types p.1 (List.of_mem_zip hp).1)
      hlawful fun m hm => hc.issued (hmethods m hm)) hitems
  intro a ha
  obtain ⟨_, -, ha⟩ := exists_left htypes ha
  exact ha

end Described

end Description
end Moniker
