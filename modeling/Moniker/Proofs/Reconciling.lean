import Moniker.Proofs.Parts
import Moniker.Proofs.Programs
import Moniker.Proofs.Sparing

/-!
# What becomes of structural types

The segment of a tuple or an anonymous type has arrays in it and nothing else. All of them are read
before any of them is looked at, and then the outcome is one of five: the failure of the types or of
the locations, whatever stands in for a type whose shape is absent or is not built, or the type
itself (`Structural.Reconciled`). `Reader.reconciles_exactly` says which of them it is, and that the
type has what was read, in the order in which it was read.
-/

namespace Moniker

/-! ## When a shape is built -/

section Checks

variable {types : List SymbolId} {locations : List Location}

theorem firstDuplicate?_go_eq_none (seen names : List String) :
    firstDuplicate?.go seen names = none ↔ names.Nodup ∧ ∀ name ∈ names, name ∉ seen := by
  induction names generalizing seen with
  | nil => simp [firstDuplicate?.go]
  | cons name rest ih =>
    rw [firstDuplicate?.go]
    by_cases hseen : name ∈ seen
    · simp [hseen]
    · rw [if_neg hseen, ih, List.nodup_cons, List.forall_mem_cons]
      simp only [List.mem_cons, not_or]
      constructor
      · rintro ⟨hnodup, hrest⟩
        exact ⟨⟨fun hmem => (hrest name hmem).1 rfl, hnodup⟩, hseen, fun n hn => (hrest n hn).2⟩
      · rintro ⟨⟨hname, hnodup⟩, -, hrest⟩
        refine ⟨hnodup, fun n hn => ⟨?_, hrest n hn⟩⟩
        rintro rfl
        exact hname hn

theorem firstDuplicate?_eq_none (names : List String) :
    firstDuplicate? names = none ↔ names.Nodup := by
  rw [firstDuplicate?, firstDuplicate?_go_eq_none]
  simp

/-- A tuple is built from lists of one length, of two elements at least whose names are distinct. -/
theorem checkTuple_eq_ok_iff {names : List (Option String)} :
    SymbolTable.checkTuple types names locations = .ok () ↔
      names.length = types.length ∧ locations.length = types.length ∧ 2 ≤ types.length ∧
        (names.filterMap id).Nodup := by
  rw [← firstDuplicate?_eq_none, SymbolTable.checkTuple]
  by_cases hlengths : types.length ≠ names.length ∨ types.length ≠ locations.length
  · rw [if_pos hlengths]
    constructor
    · intro h
      cases h
    · rintro ⟨hnames, hlocations, -, -⟩
      omega
  rw [if_neg hlengths]
  by_cases hfew : types.length < 2
  · rw [if_pos hfew]
    constructor
    · intro h
      cases h
    · rintro ⟨-, -, htwo, -⟩
      omega
  rw [if_neg hfew]
  cases firstDuplicate? (names.filterMap id) with
  | some name => simp
  | none =>
    refine iff_of_true rfl ⟨?_, ?_, ?_, rfl⟩ <;> omega

/-- Names are let through that are distinct and not empty. -/
theorem checkNames_eq_ok_iff (names : List String) :
    (do
      if names.any (·.isEmpty) then throw .unnamedProperty
      match firstDuplicate? names with
      | some name => throw (.duplicateProperty name)
      | none => return () : Except Rejection Unit) = .ok () ↔
        "" ∉ names ∧ firstDuplicate? names = none := by
  have hnamed : names.any (·.isEmpty) = true ↔ "" ∈ names := by
    simp [String.isEmpty_iff]
  rw [← hnamed]
  cases names.any (·.isEmpty) with
  | true =>
    refine iff_of_false (fun h => ?_) fun h => h.1 rfl
    cases h
  | false =>
    cases firstDuplicate? names with
    | some name =>
      refine iff_of_false (fun h => ?_) fun h => ?_
      · cases h
      · cases h.2
    | none => exact iff_of_true rfl ⟨Bool.false_ne_true, rfl⟩

/-- An anonymous type is built from lists of one length that the cap admits, with names that are
distinct and not empty. -/
theorem checkAnonymous_eq_ok_iff {names : List String} {readOnly : List Bool} {limit : Option Nat} :
    SymbolTable.checkAnonymous limit types names readOnly locations = .ok () ↔
      names.length = types.length ∧ readOnly.length = types.length ∧
        locations.length = types.length ∧ (∀ n, limit = some n → types.length ≤ n) ∧
        "" ∉ names ∧ names.Nodup := by
  rw [← firstDuplicate?_eq_none, SymbolTable.checkAnonymous]
  by_cases hlengths : names.length ≠ types.length ∨ readOnly.length ≠ types.length ∨
      locations.length ≠ types.length
  · rw [if_pos hlengths]
    constructor
    · intro h
      cases h
    · rintro ⟨hnames, hreadOnly, hlocations, -⟩
      omega
  rw [if_neg hlengths]
  have hlengths' : names.length = types.length ∧ readOnly.length = types.length ∧
      locations.length = types.length := by omega
  cases limit with
  | none =>
    refine (checkNames_eq_ok_iff names).trans
      ⟨fun h => ⟨hlengths'.1, hlengths'.2.1, hlengths'.2.2, ?_, h⟩, fun h => h.2.2.2.2⟩
    intro n hn
    cases hn
  | some n =>
    show (if types.length > n then Except.error (Rejection.tooManyProperties n types.length)
      else _) = Except.ok () ↔ _
    by_cases hmany : types.length > n
    · rw [if_pos hmany]
      refine iff_of_false (fun h => ?_) fun h => ?_
      · cases h
      · exact absurd (h.2.2.2.1 n rfl) (Nat.not_le_of_gt hmany)
    · rw [if_neg hmany]
      refine (checkNames_eq_ok_iff names).trans
        ⟨fun h => ⟨hlengths'.1, hlengths'.2.1, hlengths'.2.2, ?_, h⟩, fun h => h.2.2.2.2⟩
      intro m hm
      cases hm
      exact Nat.le_of_not_gt hmany

end Checks

/-! ## What is read -/

/-- The types that a key describes by arrays alone. -/
inductive Structural where
  | tuple
  | anonymous

/-- What the arrays of a structural type hold. Tuples have no flags. -/
structure Arrays where
  presence : Presence
  elements : List Resolved
  names : List (Option String)
  readOnly : List Bool
  sites : List Location

namespace Arrays

/-- The first candidates for the elements, or the first failure among them. -/
def types (arrays : Arrays) : Except Failure (List SymbolId) :=
  gathered 0 (arrays.elements.map Decode.first)

/-- The locations, or the first one that is in no file of the compilation. -/
def locations (arrays : Arrays) (c : Compilation) : Except Failure (List Location) :=
  gathered 0 (arrays.sites.map c.accept)

end Arrays

namespace Structural

def category : Structural → Category
  | tuple => .tupleType
  | anonymous => .anonymousType

/-- The name of the array of types. -/
def typesPart : Structural → String
  | tuple => "elementTypes"
  | anonymous => "propertyTypes"

/-- The name of the array of locations. -/
def locationsPart : Structural → String
  | tuple => "elementLocations"
  | anonymous => "propertyLocations"

/-- What stands in for the type if it is not built. -/
def fallback : Structural → Fallback
  | tuple => .fail
  | anonymous => .universal

/-- The shape that is asked for. A property without a name has the empty one. -/
def shape (kind : Structural) (arrays : Arrays) (types : List SymbolId) : Shape :=
  match kind with
  | tuple => .tuple types arrays.names
  | anonymous => .anonymous types (arrays.names.map (·.getD "")) arrays.readOnly

/-- The one request that is made for the type. -/
def request (kind : Structural) (arrays : Arrays) (types : List SymbolId)
    (locations : List Location) (c : Compilation) : Except Rejection SymbolId × Compilation :=
  match kind with
  | tuple => c.tupleType types arrays.names locations
  | anonymous => c.anonymousType types (arrays.names.map (·.getD "")) arrays.readOnly locations

/-- When the parts of the type fit together. -/
def Fits (kind : Structural) (cap : Option Nat) (arrays : Arrays) (types : List SymbolId)
    (locations : List Location) : Prop :=
  match kind with
  | tuple =>
    arrays.names.length = types.length ∧ locations.length = types.length ∧ 2 ≤ types.length ∧
      (arrays.names.filterMap id).Nodup
  | anonymous =>
    arrays.names.length = types.length ∧ arrays.readOnly.length = types.length ∧
      locations.length = types.length ∧ (∀ n, cap = some n → types.length ≤ n) ∧
      "" ∉ arrays.names.map (·.getD "") ∧ (arrays.names.map (·.getD "")).Nodup

variable {kind : Structural} {arrays : Arrays} {types : List SymbolId} {locations : List Location}
  {c : Compilation}

theorem check_eq_ok_iff : (kind.shape arrays types).check c.table locations = .ok () ↔
    kind.Fits c.table.maxAnonymousArity arrays types locations := by
  cases kind with
  | tuple => exact checkTuple_eq_ok_iff
  | anonymous =>
    refine Iff.trans checkAnonymous_eq_ok_iff ?_
    rw [List.length_map]
    exact Iff.rfl

theorem request_eq_ask : kind.request arrays types locations c =
    c.countRequest.ask (kind.shape arrays types) locations := by
  cases kind with
  | tuple => exact Compilation.tupleType_eq_ask _ _ _
  | anonymous => exact Compilation.anonymousType_eq_ask _ _ _ _

/-- What becomes of a structural type whose arrays have been read, and of the compilation. -/
inductive Reconciled (kind : Structural) (arrays : Arrays) (c : Compilation) :
    Resolved → Compilation → Prop
  /-- A type failed. -/
  | types {reason : Failure} (htypes : arrays.types = .error reason) :
    Reconciled kind arrays c (.error (.field kind.category.codec kind.typesPart reason)) c
  /-- No type failed, but a location did. -/
  | locations {types : List SymbolId} {reason : Failure} (htypes : arrays.types = .ok types)
    (hlocations : arrays.locations c = .error reason) :
    Reconciled kind arrays c (.error (.field kind.category.codec kind.locationsPart reason)) c
  /-- Nothing failed, but there is no shape, and nothing is asked for. -/
  | absent {types : List SymbolId} {locations : List Location} (htypes : arrays.types = .ok types)
    (hlocations : arrays.locations c = .ok locations) (habsent : arrays.presence.isAbsent = true) :
    Reconciled kind arrays c (kind.fallback.answer kind.category.codec "no shape recorded" c) c
  /-- The shape is asked for once and is built, or has been built before. The type has the members
  that were read, in the order in which they were read. -/
  | built {types : List SymbolId} {locations : List Location} {s : SymbolId} {c' : Compilation}
    (htypes : arrays.types = .ok types) (hlocations : arrays.locations c = .ok locations)
    (hpresent : arrays.presence.isAbsent = false)
    (hfits : kind.Fits c.table.maxAnonymousArity arrays types locations)
    (hrequest : kind.request arrays types locations c = (.ok s, c'))
    (hcount : c'.structuralRequests = c.structuralRequests + 1)
    (hgives : ∃ places, c'.GivesBack s places (kind.shape arrays types)) :
    Reconciled kind arrays c (.ok (.symbol s)) c'
  /-- The shape is asked for once and is refused, as its parts do not fit together. -/
  | refused {types : List SymbolId} {locations : List Location} {rejection : Rejection}
    (htypes : arrays.types = .ok types) (hlocations : arrays.locations c = .ok locations)
    (hpresent : arrays.presence.isAbsent = false)
    (hmisfit : ¬ kind.Fits c.table.maxAnonymousArity arrays types locations)
    (hrequest : kind.request arrays types locations c = (.error rejection, c.countRequest)) :
    Reconciled kind arrays c (kind.fallback.answer kind.category.codec rejection.reason c)
      c.countRequest

/-- What is settled in a compilation that keeps its records has been asked for or refused as it
should be. -/
theorem reconciled_settle (hplain : c.Plain)
    (hfaithful : c.table.Faithful Symbol.Structural fun _ _ => True)
    (htypes : arrays.types = .ok types) (hlocations : arrays.locations c = .ok locations) :
    kind.Reconciled arrays c
      (kind.fallback.settle kind.category.codec arrays.presence c
        (kind.request arrays types locations c)).1
      (kind.fallback.settle kind.category.codec arrays.presence c
        (kind.request arrays types locations c)).2 := by
  unfold Fallback.settle
  cases hpresence : arrays.presence.isAbsent with
  | true => exact .absent htypes hlocations hpresence
  | false =>
    have hask : kind.request arrays types locations c =
        c.countRequest.ask (kind.shape arrays types) locations := request_eq_ask
    cases hcheck : (kind.shape arrays types).check c.countRequest.table locations with
    | error rejection =>
      have hrequest : kind.request arrays types locations c =
          (.error rejection, c.countRequest) := by
        rw [hask, Compilation.ask, hcheck]
        rfl
      have hmisfit : ¬ kind.Fits c.table.maxAnonymousArity arrays types locations := by
        intro hfits
        have hok : (kind.shape arrays types).check c.countRequest.table locations = .ok () :=
          check_eq_ok_iff.mpr hfits
        rw [hcheck] at hok
        cases hok
      rw [hrequest]
      have hrefused := Reconciled.refused htypes hlocations hpresence hmisfit hrequest
      cases kind <;> exact hrefused
    | ok =>
      have hrequest := hask.trans (Compilation.ask_of_check hcheck)
      rw [hrequest]
      refine .built htypes hlocations hpresence (check_eq_ok_iff.mp hcheck) hrequest rfl ?_
      -- the answer is on record, whether or not it was before
      have hlater : (c.table.ask (kind.shape arrays types) locations).2.Faithful
          Symbol.Structural fun _ _ => True := by
        refine hfaithful.asked (.shape hcheck fun g hg => ?_)
        cases kind <;> cases hg
      obtain ⟨places, -, hanswers⟩ := hlater.answers _ _ (SymbolTable.lookup_intern _ _ _)
      refine ⟨places, Compilation.givesBack_of_answers
        ⟨hplain.global, hplain.universal, hplain.hiddenContainers, hplain.hiddenTypes⟩ hanswers
        ((hanswers.abiding_iff Symbol.Structural).mpr ?_)⟩
      cases kind <;> rfl

end Structural

namespace Structural

/-- What comes of the arrays once all of them have been read. -/
theorem reconciled_of_require {kind : Structural} {arrays : Arrays} {presence : Presence}
    {types : Except Failure (Loan SymbolId)} {locations : Except Failure (Loan Location)}
    {scene scene' : Scene} {resolved : Resolved} (hplain : scene.compilation.Plain)
    (hfaithful : scene.compilation.table.Faithful Symbol.Structural fun _ _ => True)
    (htypes : Decode.Lent arrays.presence types arrays.types)
    (hlocations : Decode.Lent presence locations (arrays.locations scene.compilation))
    (h : (Decode.require kind.category kind.typesPart types fun types =>
      Decode.require kind.category kind.locationsPart locations fun locations =>
        kind.fallback.rebuild kind.category.codec types.presence
          (Decode.build (kind.request arrays types.items locations.items))).run scene =
            (.ok resolved, scene')) :
    kind.Reconciled arrays scene.compilation resolved scene'.compilation := by
  rcases Decode.require_inv h with ⟨reason, rfl, rfl, rfl⟩ | ⟨types, rfl, hrest⟩
  · exact .types (Decode.Lent.of_error htypes)
  obtain ⟨htypes, hpresence⟩ := Decode.Lent.of_ok htypes
  rcases Decode.require_inv hrest with ⟨reason, rfl, rfl, rfl⟩ | ⟨locations, rfl, hrebuild⟩
  · exact .locations htypes (Decode.Lent.of_error hlocations)
  obtain ⟨hlocations, -⟩ := Decode.Lent.of_ok hlocations
  obtain ⟨rfl, hlater⟩ := Decode.rebuild_inv hrebuild
  rw [hlater, hpresence]
  exact reconciled_settle hplain hfaithful htypes hlocations

end Structural

namespace Reader

variable {o : ResolveOptions} {r r' : Reader} {scene scene' : Scene} {resolved : Resolved}

/-- The arrays of a structural type are read to their ends, one after the other. -/
inductive Gathers (o : ResolveOptions) (state : Reader × Scene) (arrays : Arrays) :
    Structural → Reader × Scene → Prop
  | tuple {r₁ r₂ r₃ : Reader} {scene₁ : Scene} {named located : Presence}
    (htypes : ReadsKeys o state arrays.presence arrays.elements (r₁, scene₁))
    (hnames : r₁.ReadsArray Scan.text named arrays.names r₂)
    (hlocations : r₂.ReadsArray Scan.location located arrays.sites r₃) :
    Gathers o state arrays .tuple (r₃, scene₁)
  | anonymous {r₁ r₂ r₃ r₄ : Reader} {scene₁ : Scene} {named flagged located : Presence}
    (htypes : ReadsKeys o state arrays.presence arrays.elements (r₁, scene₁))
    (hnames : r₁.ReadsArray Scan.text named arrays.names r₂)
    (hreadOnly : r₂.ReadsArray Scan.bool flagged arrays.readOnly r₃)
    (hlocations : r₃.ReadsArray Scan.location located arrays.sites r₄) :
    Gathers o state arrays .anonymous (r₄, scene₁)

end Reader

namespace Compilation

/-- A compilation that hides nothing and has a record of every answered request. -/
structure Recording (c : Compilation) : Prop where
  plain : c.Plain
  faithful : c.table.Faithful Symbol.Structural fun _ _ => True

theorem Made.recording {c : Compilation}
    (h : c.Made fun t r => r.Issued t ∧ r.Sparing Symbol.Structural t) : c.Recording where
  plain := (h.table (P := fun _ => True) (fun _ _ hr => hr.1) trivial fun _ _ _ _ => trivial).2
  faithful := h.faithful

theorem Recording.leads {c c' : Compilation} (h : c.Recording) (hleads : c.Leads c') :
    c'.Recording where
  plain := by
    have hgrows := hleads.grows
    exact ⟨hgrows.global.trans h.plain.global, hgrows.universal.trans h.plain.universal,
      hgrows.hiddenContainers.trans h.plain.hiddenContainers,
      hgrows.hiddenTypes.trans h.plain.hiddenTypes⟩
  faithful := hleads.faithful h.faithful

end Compilation

namespace Reader

open Pass

variable {o : ResolveOptions} {r r' : Reader} {scene scene' : Scene} {resolved : Resolved}
  {start : Place}

/-- What is read in the segment of a structural type, and what comes of it. -/
def Reconciles (o : ResolveOptions) (state : Reader × Scene) (kind : Structural)
    (resolved : Resolved) (after : Reader × Scene) : Prop :=
  ∃ arrays inner, Gathers o state arrays kind (after.1, inner) ∧
    (∀ found, .ok found ∈ arrays.elements → ∃ s, found.any? = some s) ∧
    kind.Reconciled arrays inner.compilation resolved after.2.compilation

section Bodies

variable (hready : r.Ready scene) (hrecording : scene.compilation.Recording)
include hready hrecording

theorem reconciles_tuple
    (h : (body .own o (key .own o) start .tupleType).Yields (r, scene) resolved (r', scene')) :
    Reconciles o (r, scene) .tuple resolved (r', scene') := by
  obtain ⟨types, r₁, scene₁, hkeys, hready₁, hlent₁⟩ := hready.segments_inv h
  obtain ⟨after₁, hnamed, rfl⟩ := duringEither_inv hlent₁
  obtain ⟨names, r₂, scene₂, htexts, hready₂, hlent₂⟩ := hready₁.texts_inv hnamed
  obtain ⟨after₂, hlocated, rfl⟩ := during_inv hlent₂
  obtain ⟨locations, r₃, scene₃, hlocations, -, hlent₃⟩ := hready₂.locations_inv hlocated
  obtain ⟨after₃, hlift, rfl⟩ := duringEither_inv hlent₃
  obtain ⟨_, hverdict, heq⟩ := lift_inv hlift
  cases heq
  -- only the segments have built anything
  have hsame₂ := (hready₁.texts htexts).2
  have hsame₃ := (hready₂.locations hlocations).2
  obtain ⟨presence, elements, inner, helements, htypes, hinner⟩ := readKeys_inv hready hkeys
  obtain ⟨presence', sites, hsites, hplaces⟩ := readLocations_inv hready₂ hlocations
  have hcompilation : scene₃.compilation = inner.compilation := hsame₃.trans (hsame₂.trans hinner)
  obtain ⟨hgoes, hcandidates⟩ := ReadsKeys.goes hready helements
  have hlater := hrecording.leads hgoes.leads
  rw [hsame₂, hinner] at hplaces
  rw [← hcompilation] at hplaces hlater
  have hreconciled : Structural.tuple.Reconciled ⟨presence, elements, names.items, [], sites⟩
      scene₃.compilation resolved after₃.compilation :=
    Structural.reconciled_of_require hlater.plain hlater.faithful htypes hplaces hverdict
  refine ⟨⟨presence, elements, names.items, [], sites⟩, inner,
    .tuple helements (readTexts_inv hready₁ htexts) hsites, hcandidates, ?_⟩
  rw [← hcompilation]
  simpa using hreconciled

theorem reconciles_anonymous
    (h : (body .own o (key .own o) start .anonymousType).Yields (r, scene) resolved (r', scene')) :
    Reconciles o (r, scene) .anonymous resolved (r', scene') := by
  obtain ⟨types, r₁, scene₁, hkeys, hready₁, hlent₁⟩ := hready.segments_inv h
  obtain ⟨after₁, hnamed, rfl⟩ := duringEither_inv hlent₁
  obtain ⟨names, r₂, scene₂, htexts, hready₂, hlent₂⟩ := hready₁.texts_inv hnamed
  obtain ⟨after₂, hflagged, rfl⟩ := during_inv hlent₂
  obtain ⟨flags, r₃, scene₃, hbools, hready₃, hlent₃⟩ := hready₂.bools_inv hflagged
  obtain ⟨after₃, hlocated, rfl⟩ := during_inv hlent₃
  obtain ⟨locations, r₄, scene₄, hlocations, -, hlent₄⟩ := hready₃.locations_inv hlocated
  obtain ⟨after₄, hlift, rfl⟩ := duringEither_inv hlent₄
  obtain ⟨_, hverdict, heq⟩ := lift_inv hlift
  cases heq
  have hsame₂ := (hready₁.texts htexts).2
  have hsame₃ := (hready₂.bools hbools).2
  have hsame₄ := (hready₃.locations hlocations).2
  obtain ⟨presence, elements, inner, helements, htypes, hinner⟩ := readKeys_inv hready hkeys
  obtain ⟨presence', sites, hsites, hplaces⟩ := readLocations_inv hready₃ hlocations
  have hcompilation : scene₄.compilation = inner.compilation :=
    hsame₄.trans (hsame₃.trans (hsame₂.trans hinner))
  obtain ⟨hgoes, hcandidates⟩ := ReadsKeys.goes hready helements
  have hlater := hrecording.leads hgoes.leads
  rw [hsame₃, hsame₂, hinner] at hplaces
  rw [← hcompilation] at hplaces hlater
  have hreconciled : Structural.anonymous.Reconciled
      ⟨presence, elements, names.items, flags.items, sites⟩ scene₄.compilation resolved
      after₄.compilation :=
    Structural.reconciled_of_require hlater.plain hlater.faithful htypes hplaces hverdict
  refine ⟨⟨presence, elements, names.items, flags.items, sites⟩, inner,
    .anonymous helements (readTexts_inv hready₁ htexts) (readBools_inv hready₂ hbools) hsites,
    hcandidates, ?_⟩
  rw [← hcompilation]
  simpa using hreconciled

end Bodies

/-- A segment of a structural type that is read to its end comes to what its arrays say, and to
nothing else. -/
theorem reconciles_exactly {c : Compilation}
    (hmade : c.Made fun t r => r.Issued t ∧ r.Sparing Symbol.Structural t)
    (hleads : c.Leads scene.compilation) (hready : r.Ready scene) {kind : Structural}
    (hkind : r.frames[r.place.position]? = some (.kind kind.category))
    (hread : r.readKey o scene = ⟨.ok resolved, r', scene'⟩) :
    ∃ position, r' = r.moved position ∧ Reconciles o (r.entered, scene.entered kind.category r) kind
      resolved (r.entered.moved position, scene') := by
  obtain ⟨category, position, scene₁, hframe, -, -, hbody, rfl, rfl⟩ :=
    readKey_inv hready.inside hread
  obtain rfl : kind.category = category := by
    rw [hkind] at hframe
    cases hframe
    rfl
  have hentered := hready.entered hkind
  have hrecording := hmade.recording.leads hleads
  have hreconciles : Reconciles o (r.entered, scene.entered kind.category r) kind resolved
      (r.entered.moved position, scene₁) := by
    cases kind with
    | tuple => exact reconciles_tuple hentered hrecording hbody
    | anonymous => exact reconciles_anonymous hentered hrecording hbody
  obtain ⟨arrays, inner, hgathers, hcandidates, hreconciled⟩ := hreconciles
  refine ⟨position, rfl, arrays, inner, hgathers, hcandidates, ?_⟩
  rwa [Scene.compilation_left]

/-- An anonymous type with an `int` and a read-only `string` is built. -/
theorem reconciles_exactly_pair :
    let named (name : String) : List Frame := [.kind .namedType, .kind .nameSpace, .bool true,
      .text (some name), .int 0, .array .absent 0]
    let r : Reader := { frames := .kind .anonymousType :: .array .populated 2 :: (named "int" ++
      named "string" ++ [.array .populated 2, .text (some "n"), .text (some "s"),
        .array .populated 2,
        .bool false, .bool true, .array .populated 2, .int 0, .int 0]) }
    let scene : Scene := { compilation := Draft.empty.finish }
    (r.readKey {} scene).value = .ok (.ok (.symbol ⟨5⟩)) ∧
      ∃ position, Reconciles {} (r.entered, scene.entered .anonymousType r) .anonymous
        (.ok (.symbol ⟨5⟩)) (r.entered.moved position, (r.readKey {} scene).scene) := by
  intro named r scene
  have hmade : scene.compilation.Made fun t r => r.Issued t ∧ r.Sparing Symbol.Structural t :=
    .finish .empty
  have hclosed : scene.compilation.Closed := Compilation.Made.closed (.finish .empty)
  have hvalue : (r.readKey {} scene).value = .ok (.ok (.symbol ⟨5⟩)) := by decide +kernel
  have hready : r.Ready scene :=
    ⟨Nat.zero_le _, ⟨hclosed, Arena.clean_empty⟩, fun m hm => nomatch hm⟩
  obtain ⟨position, -, hreconciles⟩ := reconciles_exactly hmade (.refl _) hready
    (show r.frames[r.place.position]? = some (.kind Structural.anonymous.category) from rfl)
    (Outcome.eq_mk hvalue)
  exact ⟨hvalue, position, hreconciles⟩

end Reader

end Moniker
