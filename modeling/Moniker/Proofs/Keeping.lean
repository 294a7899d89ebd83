import Moniker.Proofs.Growth
import Moniker.Proofs.Shapes

/-!
# Locating keeps compilations lawful

Requests for structural types keep a compilation lawful if they are made of types, and their answers
are the types of the shape asked for (`Compilation.Answers`). Descriptions of types come to types,
and what is built while one is located is built from such candidates, so whatever describes a symbol
of a lawful compilation can be located without harm in any other
(`Description.Describes.locate_lawful`).
-/

namespace Moniker

namespace Compilation

open SymbolTable

variable {c c' : Compilation} {s : SymbolId}

/-- What a request for a shape leaves behind: a later state that is lawful and answers the shape. -/
structure Answers (c : Compilation) (shape : Shape) (answer : SymbolId × Compilation) : Prop where
  grows : c.Grows answer.2
  lawful : answer.2.Lawful
  lookup : answer.2.table.interned.lookup shape = some answer.1

/-- A later state is lawful if its table is. -/
theorem Lawful.later (h : c.Lawful) (hgrows : c.Grows c') (htable : c'.table.Lawful) : c'.Lawful :=
  ⟨htable, hgrows.global.trans h.plain.global, hgrows.universal.trans h.plain.universal,
    hgrows.hiddenContainers.trans h.plain.hiddenContainers,
    hgrows.hiddenTypes.trans h.plain.hiddenTypes⟩

theorem Lawful.isType_of_lookup (h : c.Lawful) {shape : Shape}
    (hlookup : c.table.interned.lookup shape = some s) : c.table.IsType s := by
  refine ⟨h.closed.table.interned shape s hlookup, ?_⟩
  rw [(h.table.embodied shape s hlookup).kind]
  cases shape <;> rfl

theorem Answers.isType {shape : Shape} {answer : SymbolId × Compilation}
    (h : c.Answers shape answer) :
    answer.2.table.IsType answer.1 :=
  h.lawful.isType_of_lookup h.lookup

theorem Lawful.arrayType {element : SymbolId} (h : c.Lawful) (he : c.table.IsType element)
    (rank : UInt64) : c.Answers (.array element rank) (c.arrayType element rank) := by
  have hgrows := (h.closed.arrayType he.issued rank).grows
  exact ⟨hgrows, h.later hgrows (h.table.array he rank),
    lookup_intern (.array element rank) (add _) c.table⟩

theorem Lawful.pointerType {pointee : SymbolId} (h : c.Lawful) (hp : c.table.IsType pointee) :
    c.Answers (.pointer pointee) (c.pointerType pointee) := by
  have hgrows := (h.closed.pointerType hp.issued).grows
  exact ⟨hgrows, h.later hgrows (h.table.pointer hp), lookup_intern (.pointer pointee) (add _)
    c.table⟩

theorem Lawful.constructAt_ok {g : SymbolId} {arguments : List SymbolId} (h : c.Lawful)
    (hg : c.Issued g) (ha : ∀ a ∈ arguments, c.table.IsType a)
    (hcheck : checkArguments (c.entry g) arguments = .ok ()) :
    ∃ s c', c.constructAt arguments g = (.ok s, c') ∧
      c.Answers (.constructed g arguments) (s, c') := by
  have heq : c.constructAt arguments g = (.ok (c.table.constructed g arguments).1,
      { c with table := (c.table.constructed g arguments).2 }) := by
    rw [constructAt, hcheck]
    rfl
  have hextends := h.closed.withTable (h.closed.table.constructed hg fun a ham => (ha a ham).issued)
  exact ⟨_, _, heq, hextends.grows, h.later hextends.grows (h.table.constructed hg ha hcheck),
    lookup_intern _ _ _⟩

theorem constructAt_error {g : SymbolId} {arguments : List SymbolId} {rejection : Rejection}
    (hcheck : checkArguments (c.entry g) arguments = .error rejection) :
    c.constructAt arguments g = (.error rejection, c) := by
  rw [constructAt, hcheck]
  rfl

theorem Lawful.countRequest (h : c.Lawful) : c.Grows c.countRequest ∧ c.countRequest.Lawful := by
  have hgrows : c.Grows c.countRequest := ⟨.refl _, rfl, rfl, rfl, rfl, rfl⟩
  exact ⟨hgrows, h.later hgrows h.table⟩

theorem Lawful.tupleType_ok {types : List SymbolId} {names : List (Option String)}
    {locations : List Location} (h : c.Lawful) (htypes : ∀ a ∈ types, c.table.IsType a)
    (hcheck : checkTuple types names locations = .ok ()) :
    ∃ s c', c.tupleType types names locations = (.ok s, c') ∧
      c.Answers (.tuple types names) (s, c') := by
  have hok : c.table.tuple types names locations = .ok (c.table.intern (.tuple types names)
      (addWithMembers { kind := .tupleType, name := "" } (tupleFields types names locations))) := by
    rw [SymbolTable.tuple, hcheck]
    rfl
  have htable := (h.closed.table.tuple (fun a ha => (htypes a ha).issued) hok).grows
  have hgrows : c.Grows { c.countRequest with table := _ } := ⟨htable, rfl, rfl, rfl, rfl, rfl⟩
  refine ⟨_, _, ?_, hgrows, h.later hgrows (h.table.tuple htypes hcheck), lookup_intern _ _ _⟩
  rw [tupleType, hok]
  rfl

theorem tupleType_error {types : List SymbolId} {names : List (Option String)}
    {locations : List Location} {rejection : Rejection}
    (hcheck : checkTuple types names locations = .error rejection) :
    c.tupleType types names locations = (.error rejection, c.countRequest) := by
  rw [tupleType, SymbolTable.tuple, hcheck]
  rfl

theorem Lawful.tupleType {types : List SymbolId} (h : c.Lawful)
    (htypes : ∀ a ∈ types, c.table.IsType a) (names : List (Option String))
    (locations : List Location) :
    (c.tupleType types names locations).2.Lawful ∧ ∀ s,
      (c.tupleType types names locations).1 = .ok s →
        (c.tupleType types names locations).2.table.IsType s := by
  cases hcheck : checkTuple types names locations with
  | error rejection =>
      rw [tupleType_error hcheck]
      exact ⟨h.countRequest.2, fun s hs => by cases hs⟩
  | ok _ =>
      obtain ⟨s, c', heq, hanswers⟩ := h.tupleType_ok htypes hcheck
      rw [heq]
      refine ⟨hanswers.lawful, fun s' hs' => ?_⟩
      cases hs'
      exact hanswers.isType

theorem Lawful.anonymousType_ok {types : List SymbolId} {names : List String} {readOnly : List Bool}
    {locations : List Location} (h : c.Lawful) (htypes : ∀ a ∈ types, c.table.IsType a)
    (hcheck : checkAnonymous c.table.maxAnonymousArity types names readOnly locations = .ok ()) :
    ∃ s c', c.anonymousType types names readOnly locations = (.ok s, c') ∧
      c.Answers (.anonymous types names readOnly) (s, c') := by
  have hok : c.table.anonymous types names readOnly locations =
      .ok (c.table.intern (.anonymous types names readOnly)
        (addWithMembers { kind := .anonymousType, name := "" }
          (anonymousProperties types names readOnly locations))) := by
    rw [SymbolTable.anonymous, hcheck]
    rfl
  have htable := (h.closed.table.anonymous (fun a ha => (htypes a ha).issued) hok).grows
  have hgrows : c.Grows { c.countRequest with table := _ } := ⟨htable, rfl, rfl, rfl, rfl, rfl⟩
  refine ⟨_, _, ?_, hgrows, h.later hgrows (h.table.anonymous htypes hcheck), lookup_intern _ _ _⟩
  rw [anonymousType, hok]
  rfl

theorem anonymousType_error {types : List SymbolId} {names : List String} {readOnly : List Bool}
    {locations : List Location} {rejection : Rejection}
    (hcheck : checkAnonymous c.table.maxAnonymousArity types names readOnly locations =
      .error rejection) :
    c.anonymousType types names readOnly locations = (.error rejection, c.countRequest) := by
  rw [anonymousType, SymbolTable.anonymous, hcheck]
  rfl

theorem Lawful.anonymousType {types : List SymbolId} (h : c.Lawful)
    (htypes : ∀ a ∈ types, c.table.IsType a) (names : List String) (readOnly : List Bool)
    (locations : List Location) :
    (c.anonymousType types names readOnly locations).2.Lawful ∧ ∀ s,
      (c.anonymousType types names readOnly locations).1 = .ok s →
        (c.anonymousType types names readOnly locations).2.table.IsType s := by
  cases hcheck : checkAnonymous c.table.maxAnonymousArity types names readOnly locations with
  | error rejection =>
      rw [anonymousType_error hcheck]
      exact ⟨h.countRequest.2, fun s hs => by cases hs⟩
  | ok _ =>
      obtain ⟨s, c', heq, hanswers⟩ := h.anonymousType_ok htypes hcheck
      rw [heq]
      refine ⟨hanswers.lawful, fun s' hs' => ?_⟩
      cases hs'
      exact hanswers.isType

/-- What an outcome comes to if it was to be a type: every candidate is one. -/
def FindsTypes (c : Compilation) (resolved : Resolved) : Prop :=
  ∀ r, resolved = .ok r → ∀ s ∈ r.candidates, c.table.IsType s

variable {c c' : Compilation} {s : SymbolId}

theorem Grows.isType (h : c.Grows c') (hs : c.table.IsType s) : c'.table.IsType s :=
  h.table.keeps.isType hs

theorem findsTypes_ofCandidates {found : List SymbolId} {missing : Failure}
    (h : ∀ s ∈ found, c.table.IsType s) : c.FindsTypes (Resolution.ofCandidates found missing) :=
  fun _ hr s hs => h s ((Resolution.mem_ofCandidates hr).mp hs)

theorem findsTypes_symbol (h : c.table.IsType s) : c.FindsTypes (.ok (.symbol s)) := by
  intro r hr s' hs'
  cases hr
  rw [List.mem_singleton.mp hs']
  exact h

theorem findsTypes_error {reason : Failure} : c.FindsTypes (.error reason) :=
  fun _ hr => by cases hr

theorem FindsTypes.part_bind {α : Type} {resolved : Except Failure α} {category : Category}
    {name : String} {next : α → Resolved} (h : ∀ a, resolved = .ok a → c.FindsTypes (next a)) :
    c.FindsTypes ((part category name resolved).bind next) := by
  cases resolved with
  | error reason => exact findsTypes_error
  | ok r => exact h r rfl

end Compilation

open Compilation in
theorem Resolution.rebuilt_lawful {build : Compilation → SymbolId → SymbolId × Compilation}
    {shape : SymbolId → Shape} {c : Compilation} {r : Resolution SymbolId} (h : c.Lawful)
    (hr : ∀ s ∈ r.candidates, c.table.IsType s)
    (hbuild : ∀ (c' : Compilation) s, c'.Lawful → c'.table.IsType s →
      c'.Answers (shape s) (build c' s)) :
    c.Grows (r.rebuilt build c).2 ∧ (r.rebuilt build c).2.Lawful ∧
      List.Forall₂ (fun s s' => (r.rebuilt build c).2.table.interned.lookup (shape s) = some s')
        r.candidates (r.rebuilt build c).1.candidates := by
  cases r with
  | symbol s =>
      have hx := hbuild c s h (hr s (by simp [candidates]))
      exact ⟨hx.grows, hx.lawful, .cons hx.lookup .nil⟩
  | ambiguous several =>
      exact buildEach_keeps
        (fun c c' s s' (hg : c.Grows c') _ hlookup => hg.table.interned (shape s) s' hlookup)
        (fun s hs c' hc (hlawful : c'.Lawful) =>
          have hx := hbuild c' s hlawful (hc.isType (hr s hs))
          ⟨hx.grows, hx.lawful, hx.lookup⟩) c (.refl c) h

open Compilation in
/-- What is built from types are types. -/
theorem Resolution.rebuilt_findsTypes {build : Compilation → SymbolId → SymbolId × Compilation}
    {shape : SymbolId → Shape} {c : Compilation} {r : Resolution SymbolId} (h : c.Lawful)
    (hr : ∀ s ∈ r.candidates, c.table.IsType s)
    (hbuild : ∀ (c' : Compilation) s, c'.Lawful → c'.table.IsType s →
      c'.Answers (shape s) (build c' s)) :
    (r.rebuilt build c).2.Lawful ∧
      (r.rebuilt build c).2.FindsTypes (.ok (r.rebuilt build c).1) := by
  obtain ⟨-, hlawful, hlookup⟩ := rebuilt_lawful h hr hbuild
  refine ⟨hlawful, fun r' hr' s' hs' => ?_⟩
  cases hr'
  obtain ⟨_, -, hs'⟩ := exists_left hlookup hs'
  exact hlawful.isType_of_lookup hs'

open Compilation in
/-- Where a structural type cannot be built, nothing is harmed. -/
theorem Fallback.settle_lawful (fallback : Fallback) (codec : String) (presence : Presence)
    {c : Compilation} {request : Except Rejection SymbolId × Compilation} (h : c.Lawful)
    (hrequest : request.2.Lawful ∧ ∀ s, request.1 = .ok s → request.2.table.IsType s) :
    (fallback.settle codec presence c request).2.Lawful ∧
      (fallback.settle codec presence c request).2.FindsTypes
        (fallback.settle codec presence c request).1 := by
  have hanswer : ∀ c' : Compilation, c'.Lawful → ∀ detail,
      c'.FindsTypes (fallback.answer codec detail c') := by
    intro c' hc' detail
    cases fallback with
    | universal =>
        refine findsTypes_symbol ?_
        rw [hc'.plain.universal]
        exact hc'.table.object
    | fail => exact findsTypes_error
  obtain ⟨hlawful, htype⟩ := hrequest
  unfold settle
  split
  · exact ⟨h, hanswer c h _⟩
  · split
    · next s hs => exact ⟨hlawful, findsTypes_symbol (htype s hs)⟩
    · exact ⟨hlawful, hanswer _ hlawful _⟩

namespace Description

open Compilation

variable {c : Compilation} {o : ResolveOptions}

/-- What constructing a type from a definition comes to. -/
inductive Constructs (c c' : Compilation) (arguments : List SymbolId) (g : SymbolId) :
    Except Rejection SymbolId → Prop
  | built {s : SymbolId} (hcheck : SymbolTable.checkArguments (c.entry g) arguments = .ok ())
    (hlookup : c'.table.interned.lookup (.constructed g arguments) = some s) :
    Constructs c c' arguments g (.ok s)
  | refused {rejection : Rejection}
    (hcheck : SymbolTable.checkArguments (c.entry g) arguments = .error rejection) :
    Constructs c c' arguments g (.error rejection)

theorem buildEach_constructAt {definitions arguments : List SymbolId} (h : c.Lawful)
    (hd : ∀ g ∈ definitions, c.Issued g) (ha : ∀ a ∈ arguments, c.table.IsType a) :
    c.Grows (buildEach (·.constructAt arguments) definitions c).2 ∧
      (buildEach (·.constructAt arguments) definitions c).2.Lawful ∧
      List.Forall₂ (Constructs c (buildEach (·.constructAt arguments) definitions c).2 arguments)
        definitions (buildEach (·.constructAt arguments) definitions c).1 := by
  have hkeep : ∀ c' c'' g answer, c'.Grows c'' → c'.Lawful → Constructs c c' arguments g answer →
      Constructs c c'' arguments g answer := by
    intro c' c'' g answer hgrows _ hconstructs
    cases hconstructs with
    | built hcheck hlookup => exact .built hcheck (hgrows.table.interned _ _ hlookup)
    | refused hcheck => exact .refused hcheck
  refine buildEach_keeps hkeep (fun g hg c' hc (hlawful : c'.Lawful) => ?_) c (.refl c) h
  have hentry : c'.entry g = c.entry g := hc.entry (hd g hg)
  cases hcheck : SymbolTable.checkArguments (c.entry g) arguments with
  | error rejection =>
      rw [constructAt_error (hentry ▸ hcheck)]
      exact ⟨.refl c', hlawful, .refused hcheck⟩
  | ok _ =>
      obtain ⟨s, c'', heq, hanswers⟩ := hlawful.constructAt_ok (hc.issued (hd g hg))
        (fun a ham => hc.isType (ha a ham)) (hentry ▸ hcheck)
      rw [heq]
      exact ⟨hanswers.grows, hanswers.lawful, .built hcheck hanswers.lookup⟩

theorem constructedAt_lawful {name : String} {presence : Presence}
    {definitions arguments : List SymbolId} (h : c.Lawful)
    (hd : ∀ g ∈ definitions, c.table.IsType g) (ha : ∀ a ∈ arguments, c.table.IsType a) :
    (constructedAt name presence definitions arguments c).2.Lawful ∧
      (constructedAt name presence definitions arguments c).2.FindsTypes
        (constructedAt name presence definitions arguments c).1 := by
  unfold constructedAt
  split
  · exact ⟨h, findsTypes_ofCandidates hd⟩
  · obtain ⟨-, hlawful, heach⟩ := buildEach_constructAt h (fun g hg => (hd g hg).issued) ha
    refine ⟨hlawful, findsTypes_ofCandidates fun s hs => ?_⟩
    obtain ⟨answer, hanswer, hs⟩ := List.mem_filterMap.mp hs
    obtain ⟨g, -, hconstructs⟩ := exists_left heach hanswer
    cases hconstructs with
    | built hcheck hlookup =>
        cases hs
        exact hlawful.isType_of_lookup hlookup
    | refused hcheck => cases hs

/-- Locating the description leaves lawful compilations lawful, and comes to types if it is to. -/
def LocatesLawful (o : ResolveOptions) (toTypes : Bool) (d : Description) : Prop :=
  ∀ (methods : List SymbolId) (c : Compilation), c.Lawful → (∀ m ∈ methods, c.Issued m) →
    (locate o d methods c).2.Lawful ∧
      (toTypes = true → (locate o d methods c).2.FindsTypes (locate o d methods c).1)

theorem LocatesLawful.types {toTypes : Bool} {d : Description} (h : LocatesLawful o toTypes d)
    (htypes : toTypes = true) : LocatesLawful o true d :=
  htypes ▸ h

/-- Descriptions of types in a row come to types. -/
theorem locateEach_lawful {ds : List Description} {methods : List SymbolId}
    (hds : ∀ d ∈ ds, LocatesLawful o true d) (h : c.Lawful) (hmethods : ∀ m ∈ methods, c.Issued m) :
    (locateEach o ds methods c).2.Lawful ∧
      ∀ index items, gathered index (locateEach o ds methods c).1 = .ok items →
        ∀ a ∈ items, (locateEach o ds methods c).2.table.IsType a := by
  have hkeep : ∀ (c c' : Compilation) (_ : Description) (x : Except Failure SymbolId),
      c.Grows c' → c.Lawful → (∀ a, x = .ok a → c.table.IsType a) → ∀ a, x = .ok a →
          c'.table.IsType a :=
    fun c c' _ x hg _ hx a ha => hg.isType (hx a ha)
  obtain ⟨-, hlawful, htypes⟩ := locateEach_keeps (f := id) hkeep
    (fun d (hd : d ∈ ds) c' hc (hlawful : c'.Lawful) => by
      have hissued : ∀ m ∈ methods, c'.Issued m := fun m hm => hc.issued (hmethods m hm)
      obtain ⟨hlawful', hfinds⟩ := hds d hd methods c' hlawful hissued
      refine ⟨(locate_closed o d methods c' hlawful.closed hissued).1.grows, hlawful',
        fun a ha => ?_⟩
      obtain ⟨r, hr, ha⟩ := mem_of_first ha
      exact hfinds rfl r hr a ha) c (.refl c) h
  rw [List.map_id] at hlawful htypes
  refine ⟨hlawful, fun index items hitems a ha => ?_⟩
  have ha : .ok a ∈ (locateEach o ds methods c).1 := by
    rw [mem_gathered hitems]
    exact List.mem_map.mpr ⟨a, ha, rfl⟩
  obtain ⟨_, -, ha⟩ := exists_left htypes ha
  exact ha a rfl

theorem locate_issued (o : ResolveOptions) (d : Description) {methods : List SymbolId}
    (h : c.Closed) (hmethods : ∀ m ∈ methods, c.Issued m) :
    ∀ m ∈ methods, (locate o d methods c).2.Issued m :=
  fun m hm => (locate_closed o d methods c h hmethods).1.grows.issued (hmethods m hm)

theorem issued_outerAt (h : c.Closed) {s : SymbolId} (hs : c.Issued s) : c.Issued (c.outerAt s) :=
  h.issued_container hs

theorem isType_of_membersBearing {owners : List SymbolId} {name : String} {arity : Nat}
    (h : c.Closed) (howners : ∀ p ∈ owners, c.Issued p) :
    ∀ s ∈ c.genericsBearing o .namedType owners name arity, c.table.IsType s := by
  intro s hs
  refine ⟨h.issued_genericsBearing howners s hs, ?_⟩
  obtain ⟨p, -, hs⟩ := List.mem_flatMap.mp (List.mem_filter.mp (List.mem_filter.mp hs).1).1
  have hkind : (c.entry s).kind = .namedType := (mem_membersAt.mp hs).2
  rw [show (c.table.entry s).kind = .namedType from hkind]
  rfl

theorem isType_of_typeParameters {p s : SymbolId} (h : c.Lawful) (hp : c.Issued p)
    (hs : s ∈ (c.entry p).typeParameters) : c.table.IsType s := by
  have hrole := (h.table.belongs p hp .typeParameter s hs).role
  refine ⟨h.closed.table.typeParameters hp hs, ?_⟩
  cases hkind : (c.table.entry s).kind <;> rw [hkind] at hrole <;> first | rfl | cases hrole

/-! ### Segments -/

section Segments

variable {toTypes : Bool} {d : Description} {ds : List Description} {name : Slot String}
  {arity rank depth ordinal : Slot Nat} {presence : Slot Presence} {names : Listing (Option String)}
  {readOnly : Listing Bool} {locations : Listing Location}

/-- Nothing is asked of the symbols a description comes to if they need not be types. -/
theorem LocatesLawful.untyped (h : ∀ (methods : List SymbolId) (c : Compilation), c.Lawful →
    (∀ m ∈ methods, c.Issued m) → (locate o d methods c).2.Lawful) : LocatesLawful o false d :=
  fun methods c hc hmethods =>
    ⟨h methods c hc hmethods, fun htypes => (Bool.false_ne_true htypes).elim⟩

/-- A segment that looks something up in what another one leaves, and builds nothing. -/
theorem LocatesLawful.lookup {d' : Description} (h : LocatesLawful o toTypes d)
    (hlocate : ∀ methods c, (locate o d' methods c).2 = (locate o d methods c).2) :
    LocatesLawful o false d' := by
  refine .untyped fun methods c hc hmethods => ?_
  rw [hlocate]
  exact (h methods c hc hmethods).1

theorem LocatesLawful.namedType (h : LocatesLawful o toTypes d)
    (hds : ∀ d ∈ ds, LocatesLawful o true d) :
    LocatesLawful o true (.namedType d name arity presence ds) := by
  intro methods c hc hmethods
  obtain ⟨houter, hknows⟩ := locate_closed o d methods c hc.closed hmethods
  have hgrows := (locateEach_reaches o ds methods (locate o d methods c).2 houter.closed
    fun m hm => houter.grows.issued (hmethods m hm)).1.grows
  obtain ⟨hlawful, htypes⟩ := locateEach_lawful hds (h methods c hc hmethods).1
    (locate_issued o d hc.closed hmethods)
  simp only [locate]
  split
  · exact ⟨hlawful, fun _ => findsTypes_error⟩
  · exact ⟨hlawful, fun _ => findsTypes_error⟩
  · next r types hr hitems =>
      have hr := hknows r (part_eq_ok.mp hr)
      obtain ⟨hl, ht⟩ := constructedAt_lawful hlawful
        (isType_of_membersBearing hlawful.closed fun s hs => hgrows.issued (hr s hs))
        (htypes 0 types (part_eq_ok.mp hitems))
      exact ⟨hl, fun _ => ht⟩

theorem LocatesLawful.arrayType (h : LocatesLawful o true d) :
    LocatesLawful o true (.arrayType d rank) := by
  intro methods c hc hmethods
  obtain ⟨hlawful, htypes⟩ := h methods c hc hmethods
  simp only [locate]
  split
  · exact ⟨hlawful, fun _ => findsTypes_error⟩
  · next r hr =>
      obtain ⟨hl, ht⟩ := Resolution.rebuilt_findsTypes hlawful
        (htypes rfl r (part_eq_ok.mp hr)) fun c' s h' hs => h'.arrayType hs _
      exact ⟨hl, fun _ => ht⟩

theorem LocatesLawful.pointerType (h : LocatesLawful o true d) :
    LocatesLawful o true (.pointerType d) := by
  intro methods c hc hmethods
  obtain ⟨hlawful, htypes⟩ := h methods c hc hmethods
  simp only [locate]
  split
  · exact ⟨hlawful, fun _ => findsTypes_error⟩
  · next r hr =>
      obtain ⟨hl, ht⟩ := Resolution.rebuilt_findsTypes hlawful
        (htypes rfl r (part_eq_ok.mp hr)) fun c' s h' hs => h'.pointerType hs
      exact ⟨hl, fun _ => ht⟩

theorem LocatesLawful.tupleType (hds : ∀ d ∈ ds, LocatesLawful o true d) :
    LocatesLawful o true (.tupleType presence ds names locations) := by
  intro methods c hc hmethods
  obtain ⟨hlawful, htypes⟩ := locateEach_lawful hds hc hmethods
  simp only [locate]
  split
  · exact ⟨hlawful, fun _ => findsTypes_error⟩
  · exact ⟨hlawful, fun _ => findsTypes_error⟩
  · next items locations hitems _ =>
      have hitems := htypes 0 items (part_eq_ok.mp hitems)
      obtain ⟨hl, ht⟩ := Fallback.settle_lawful .fail Category.tupleType.codec _ hlawful
        (hlawful.tupleType hitems _ locations)
      exact ⟨hl, fun _ => ht⟩

theorem LocatesLawful.anonymousType (hds : ∀ d ∈ ds, LocatesLawful o true d) :
    LocatesLawful o true (.anonymousType presence ds names readOnly locations) := by
  intro methods c hc hmethods
  obtain ⟨hlawful, htypes⟩ := locateEach_lawful hds hc hmethods
  simp only [locate]
  split
  · exact ⟨hlawful, fun _ => findsTypes_error⟩
  · exact ⟨hlawful, fun _ => findsTypes_error⟩
  · next items locations hitems _ =>
      have hitems := htypes 0 items (part_eq_ok.mp hitems)
      obtain ⟨hl, ht⟩ := Fallback.settle_lawful .universal Category.anonymousType.codec _ hlawful
        (hlawful.anonymousType hitems _ _ locations)
      exact ⟨hl, fun _ => ht⟩

theorem LocatesLawful.typeParameter (h : LocatesLawful o toTypes d) :
    LocatesLawful o true (.typeParameter d name) := by
  intro methods c hc hmethods
  obtain ⟨hlawful, -⟩ := h methods c hc hmethods
  simp only [locate]
  refine ⟨hlawful, fun _ => .part_bind fun r hr => findsTypes_ofCandidates fun s' hs' => ?_⟩
  obtain ⟨p, hp, hs'⟩ := List.mem_flatMap.mp (List.mem_filter.mp hs').1
  have hp := (locate_closed o _ methods c hc.closed hmethods).2 r hr p hp
  exact isType_of_typeParameters hlawful hp hs'

theorem LocatesLawful.typeParameterOrdinal :
    LocatesLawful o true (.typeParameterOrdinal depth ordinal) := by
  intro methods c hc hmethods
  simp only [locate]
  refine ⟨hc, fun _ => ?_⟩
  unfold enclosingAt
  split
  · exact findsTypes_error
  · next owner howner =>
      split
      · exact findsTypes_error
      · next s hs =>
          exact findsTypes_symbol (isType_of_typeParameters hc
            (hmethods owner (List.mem_of_getElem? howner)) (List.mem_of_getElem? hs))

theorem LocatesLawful.property (h : LocatesLawful o toTypes d)
    (hds : ∀ d ∈ ds, LocatesLawful o true d) :
    LocatesLawful o false (.property d name presence ds) := by
  refine .untyped fun methods c hc hmethods => ?_
  simp only [locate]
  exact (locateEach_lawful hds (h methods c hc hmethods).1
    (locate_issued o d hc.closed hmethods)).1

theorem LocatesLawful.method (h : LocatesLawful o toTypes d)
    (hds : ∀ d ∈ ds, LocatesLawful o true d) :
    LocatesLawful o false (.method d name arity presence ds) := by
  refine .untyped fun methods c hc hmethods => ?_
  obtain ⟨hlawful, -⟩ := h methods c hc hmethods
  obtain ⟨houter, hknows⟩ := locate_closed o d methods c hc.closed hmethods
  have hissued := fun m hm => houter.grows.issued (hmethods m hm)
  have hsignature : ∀ (methods : List SymbolId) (c : Compilation), c.Lawful →
      (∀ m ∈ methods, c.Issued m) → c.Grows (locateEach o ds methods c).2 ∧
        (locateEach o ds methods c).2.Lawful :=
    fun methods c hc hmethods => ⟨(locateEach_reaches o ds methods c hc.closed hmethods).1.grows,
      (locateEach_lawful hds hc hmethods).1⟩
  have hreplayed : ∀ candidates : List SymbolId,
      (∀ m ∈ candidates, (locate o d methods c).2.Issued m) →
      (replayedAll (fun methods c => (gathered 0 (locateEach o ds methods c).1,
        (locateEach o ds methods c).2)) methods candidates
        (locate o d methods c).2).2.Lawful := by
    intro candidates hcandidates
    refine (replayedAll_keeps (Q := fun _ _ _ => True) hlawful.closed hcandidates hlawful
      (fun _ _ _ _ _ _ _ => trivial) (hsignature methods _ hlawful hissued) ?_).2.1
    intro m hm c' hc hlawful'
    obtain ⟨hgrows, hl⟩ := hsignature (methods ++ [m]) c' hlawful'
      (issued_within (fun m hm => hc.issued (hissued m hm)) (hc.issued (hcandidates m hm)))
    exact ⟨hgrows, hl, trivial⟩
  simp only [locate]
  cases hr : (locate o d methods c).1 with
  | error reason => exact hreplayed [] (List.forall_mem_nil _)
  | ok r => exact hreplayed _ (hlawful.closed.issued_genericsBearing (hknows r hr))

end Segments

/-- The descriptions that go with the entries of a list are its second components. -/
theorem forall_of_zip {α β : Type} {as : List α} {bs : List β} {P : β → Prop}
    (hlength : bs.length = as.length) (h : ∀ p ∈ as.zip bs, P p.2) : ∀ b ∈ bs, P b := by
  rwa [← List.map_snd_zip (Nat.le_of_eq hlength), List.forall_mem_map]

/-- Locating what describes a symbol of one lawful compilation in another one leaves the other one
lawful, and comes to types if the symbol is a type. -/
theorem Describes.locate_lawful {c₁ : Compilation} {methods₁ : List SymbolId} {s : SymbolId}
    {d : Description} (h₁ : c₁.Lawful) (hd : Describes c₁ methods₁ s d) (hs : c₁.Issued s) :
    LocatesLawful o (c₁.entry s).kind.isType d := by
  induction hd with
  | global hkind houter =>
      rw [hkind]
      exact .untyped fun _ _ h _ => h
  | nameSpace hkind houter hcontainer ih =>
      rw [hkind]
      rw [h₁.containerAt_eq] at houter
      exact (ih (h₁.closed.table.container hs houter)).lookup fun _ _ => by simp only [locate]
  | definition hkind hself hcontainer ih =>
      rw [hkind]
      exact (ih (issued_outerAt h₁.closed hs)).namedType (List.forall_mem_nil _)
  | constructed hkind hdefinition hne hcontainer hlength harguments ih iharguments =>
      rw [hkind]
      obtain ⟨-, -, -, -, hg, hargs, -⟩ :=
        h₁.table.exists_constructed hs (definition_of_definitionAt hdefinition hne)
      refine (ih (issued_outerAt h₁.closed hg.type.issued)).namedType
        (forall_of_zip hlength fun p hp => ?_)
      have htype := (hargs p.1 (List.of_mem_zip hp).1).type
      exact (iharguments p hp htype.issued).types htype.kind
  | arrayType hkind helement ih =>
      rw [hkind]
      obtain ⟨element, rank, -, hembodies⟩ := h₁.table.exists_array hs hkind
      have htype := hembodies.2.2.2.type
      rw [h₁.typeAt_array hembodies] at ih
      exact ((ih htype.issued).types htype.kind).arrayType
  | pointerType hkind hpointee ih =>
      rw [hkind]
      obtain ⟨pointee, -, hembodies⟩ := h₁.table.exists_pointer hs hkind
      have htype := hembodies.2.2.type
      rw [h₁.typeAt_pointer hembodies] at ih
      exact ((ih htype.issued).types htype.kind).pointerType
  | tupleType hkind hlength htypes ih =>
      rw [hkind]
      obtain ⟨types, names, -, hembodies⟩ := h₁.table.exists_tuple hs hkind
      refine .tupleType (forall_of_zip hlength fun p hp => ?_)
      have hmem := (List.of_mem_zip hp).1
      rw [h₁.memberTypesAt_tuple hembodies] at hmem
      have htype := (hembodies.2.2.2.2.1 p.1 hmem).type
      exact (ih p hp htype.issued).types htype.kind
  | anonymousType hkind hlength htypes ih =>
      rw [hkind]
      obtain ⟨types, names, readOnly, -, hembodies⟩ := h₁.table.exists_anonymous hs hkind
      refine .anonymousType (forall_of_zip hlength fun p hp => ?_)
      have hmem := (List.of_mem_zip hp).1
      rw [h₁.memberTypesAt_anonymous hembodies] at hmem
      have htype := (hembodies.2.2.2.2.2.1 p.1 hmem).type
      exact (ih p hp htype.issued).types htype.kind
  | typeParameter hkind hfree howner ih =>
      rw [hkind]
      exact (ih (issued_outerAt h₁.closed hs)).typeParameter
  | typeParameterOrdinal hkind hm howner =>
      rw [hkind]
      exact .typeParameterOrdinal
  | field hkind hcontainer ih =>
      rw [hkind]
      exact (ih (issued_outerAt h₁.closed hs)).lookup fun _ _ => by simp only [locate]
  | property hkind hcontainer hlength hparameters ih ihparameters =>
      rw [hkind]
      refine (ih (issued_outerAt h₁.closed hs)).property (forall_of_zip hlength fun p hp => ?_)
      have htype := h₁.isType_of_mem_signatureAt hs (List.of_mem_zip hp).1
      exact (ihparameters p hp htype.issued).types htype.kind
  | method hkind hcontainer hlength hparameters ih ihparameters =>
      rw [hkind]
      refine (ih (issued_outerAt h₁.closed hs)).method (forall_of_zip hlength fun p hp => ?_)
      have htype := h₁.isType_of_mem_signatureAt hs (List.of_mem_zip hp).1
      exact (ihparameters p hp htype.issued).types htype.kind
  | parameter hkind howner ih | localVariable hkind howner ih =>
      rw [hkind]
      exact (ih (issued_outerAt h₁.closed hs)).lookup fun _ _ => by simp only [locate]

end Description
end Moniker
