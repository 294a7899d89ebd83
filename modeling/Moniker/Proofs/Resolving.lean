import Moniker.Proofs.Steps
import Moniker.Resolver

/-!
# Resolving is locating

Resolving a description from a sound scene never faults. It is halted by the description's
first defect if there is one, and otherwise comes to what locating the description does, with
the compilation that locating leaves: neither the buffers in the arena nor the events matter,
nor does the position. `Description.resolve_ends` says so of a segment,
`Description.resolveAt_run` of a segment from its kind frame on.
-/

namespace Moniker

open Decode

/-- How resolving a description inside the signatures of the methods ends. -/
def Description.Resolves (o : ResolveOptions) (d : Description) (methods : List SymbolId)
    (c : Compilation) (outcome : Slot Resolved) (c' : Compilation) : Prop :=
  match d.defect? with
  | some defect => outcome = .error defect
  | none => outcome = .ok (d.locate o methods c).1 ∧ c' = (d.locate o methods c).2

namespace Decode

/-- What looking at a location amounts to. -/
def Course.ofLocation (item : Slot Location) : Course (Except Failure Location) :=
  ⟨item.defect?, fun c => (c.accept (item.valueOr .nowhere), c)⟩

/-- What resolving an element of an array amounts to. -/
def Course.ofElement (o : ResolveOptions) (methods : List SymbolId) (d : Description) :
    Course (Except Failure SymbolId) :=
  ⟨d.defect?, fun c => (first (d.locate o methods c).1, (d.locate o methods c).2)⟩

section Lent

variable {α : Type} {presence : Presence}

theorem Lent.of_ok {loan : Loan α} {items : Except Failure (List α)}
    (h : Lent presence (.ok loan) items) : items = .ok loan.items ∧ loan.presence = presence := by
  cases items with
  | error reason => cases h
  | ok items =>
      obtain ⟨loan', hloan, rfl, rfl⟩ := h
      cases hloan
      exact ⟨rfl, rfl⟩

theorem Lent.of_error {reason : Failure} {items : Except Failure (List α)}
    (h : Lent presence (.error reason) items) : items = .error reason := by
  cases items with
  | error reason' =>
      cases h
      rfl
  | ok items =>
      obtain ⟨loan, hloan, -, -⟩ := h
      cases hloan

theorem Lent.of_part {lent : Except Failure (Loan α)}
    {items : Except Failure (List α)} {category : Category} {name : String} {reason : Failure}
    (h : Lent presence lent items) (hpart : part category name lent = .error reason) :
    part category name items = .error reason := by
  cases items with
  | error reason' => 
      rw [Lent] at h
      subst h
      cases hpart
      rfl
  | ok items =>
      obtain ⟨loan', rfl, -, -⟩ := h
      cases hpart

end Lent

namespace Ends

variable {α β : Type} {c : Compilation}

/-- A slot read and gone on with. -/
theorem slot {slot : Slot α} {next : α → Decode β} {post : Slot β → Compilation → Prop}
    (herror : ∀ d, slot = .error d → post (.error d) c)
    (hok : ∀ a, slot = .ok a → Ends (next a) c post) :
    Ends (Decode.ofSlot slot >>= next) c post := by
  refine bind (ofSlot ?_)
  cases slot with
  | ok a => exact hok a rfl
  | error d => exact herror d rfl

theorem require {category : Category} {name : String} {resolved : Except Failure α}
    {onward : α → Decode Resolved} {post : Slot Resolved → Compilation → Prop}
    (herror : ∀ reason, part category name resolved = .error reason → post (.ok (.error reason)) c)
    (hok : ∀ a, resolved = .ok a → Ends (onward a) c post) :
    Ends (Decode.require category name resolved onward) c post := by
  cases resolved with
  | ok a => exact hok a rfl
  | error reason => exact done (herror _ rfl)

/-- Working inside a segment adds events only. -/
theorem segment {d : Description} {place : Place} {body : Place → Decode Resolved}
    {post : Slot Resolved → Compilation → Prop}
    (h : ∀ place', place'.methods = place.methods → Ends (body place') c post) :
    Ends (Decode.segment d place body) c post := by
  unfold Decode.segment
  cases d.category? with
  | none => exact h place rfl
  | some category =>
      refine bind (emit (bind ((h place.enter rfl).mono ?_)))
      intro outcome c' _ hpost
      cases outcome with
      | error defect => exact hpost
      | ok resolved =>
          cases resolved with
          | ok r => exact done hpost
          | error reason => exact bind (emit (done hpost))

/-- A location is looked at as the compilation stands. -/
theorem location (item : Slot Location) (c₀ : Compilation) :
    Takes c₀ (Decode.location item) (Course.ofLocation item) := by
  intro c _
  refine slot (fun d hd => by simp [Course.ofLocation, hd]) fun l hl => ?_
  subst hl
  cases l with
  | nowhere => exact done ⟨rfl, rfl⟩
  | source path span =>
      refine look fun scene hc => ?_
      subst hc
      simp only [Course.ofLocation, Slot.valueOr, Compilation.accept]
      split
      · exact done ⟨rfl, rfl⟩
      · exact done ⟨rfl, rfl⟩

/-- Looking at locations one after the other leaves the compilation alone. -/
theorem runEach_ofLocation (items : List (Slot Location)) (c : Compilation) :
    Course.runEach (items.map Course.ofLocation) c =
      (items.map fun item => c.accept (item.valueOr .nowhere), c) := by
  induction items with
  | nil => rfl
  | cons item rest ih =>
      simp only [Course.runEach] at ih
      simp [Course.runEach, Compilation.buildEach, ih, Course.ofLocation]

/-- Without defects every item is a value. -/
theorem valueOr_of_defects {items : List (Slot α)} (a : α)
    (h : items.findSome? Slot.defect? = none) :
    items.map (Slot.valueOr a) = items.filterMap Except.toOption := by
  induction items with
  | nil => rfl
  | cons item rest ih =>
      cases item with
      | error d => simp at h
      | ok b =>
          simp only [List.findSome?_cons] at h
          simp [Except.toOption, ih h]

theorem locations {l : Listing Location}
    {post : Slot (Except Failure (Loan Location)) → Compilation → Prop}
    (herror : ∀ d c', l.defect? = some d → post (.error d) c')
    (hok : ∀ lent, l.defect? = none →
      Lent (l.presence.valueOr .absent) lent (gathered 0 (l.values.map c.accept)) →
      post (.ok lent) c) :
    Ends (Decode.locations l) c post := by
  have hsteps :
      List.Forall₂ (Takes c) (l.items.map Decode.location) (l.items.map Course.ofLocation) := by
    simp only [List.forall₂_map_left_iff, List.forall₂_map_right_iff, List.forall₂_same]
    exact fun item _ => location item c
  have hdefects : (l.items.map Course.ofLocation).findSome? (·.defect?) =
      l.items.findSome? Slot.defect? := by
    rw [List.findSome?_map]
    rfl
  refine elements hsteps (.refl c) (fun d c' hd => herror d c' ?_) ?_
  · rw [hdefects] at hd
    exact hd
  intro lent hnone hlent
  rw [hdefects] at hnone
  rw [runEach_ofLocation] at hlent ⊢
  have hitems : l.items.findSome? Slot.defect? = none := by
    cases hp : l.presence with
    | ok p => simpa [hp] using hnone
    | error d => simp [hp] at hnone
  refine hok lent hnone ?_
  rw [Listing.values, ← valueOr_of_defects .nowhere hitems, List.map_map]
  exact hlent

/-! ### Building -/

/-- Building something out of each of the symbols. -/
theorem buildEach (make : Compilation → SymbolId → SymbolId × Compilation)
    (hmake : ∀ (c' : Compilation) s, c'.Closed → c'.Issued s → c'.Extends (make c' s)) :
    ∀ (several : List SymbolId) (c : Compilation), (∀ s ∈ several, c.Issued s) →
      Ends (several.mapM fun s => Decode.build (make · s)) c fun outcome c' =>
        outcome = .ok (Compilation.buildEach make several c).1 ∧
          c' = (Compilation.buildEach make several c).2 := by
  intro several
  induction several with
  | nil => exact fun c _ => done ⟨rfl, rfl⟩
  | cons s rest ih =>
      intro c hissued
      refine ofClosed fun hclosed => ?_
      have hx := hmake c s hclosed (hissued s (by simp))
      rw [List.mapM_cons]
      refine bind (build hx.reaches
        (bind ((ih _ fun s' hs' => hx.grows.issued (hissued s' ?_)).mono ?_)))
      · simp [hs']
      · rintro outcome c' - ⟨rfl, rfl⟩
        exact done ⟨rfl, rfl⟩

theorem rebuilt (make : Compilation → SymbolId → SymbolId × Compilation)
    (hmake : ∀ (c' : Compilation) s, c'.Closed → c'.Issued s → c'.Extends (make c' s))
    {r : Resolution SymbolId} (hissued : ∀ s ∈ r.candidates, c.Issued s) :
    Ends (r.mapM fun s => Decode.build (make · s)) c fun outcome c' =>
      outcome = .ok (r.rebuilt make c).1 ∧ c' = (r.rebuilt make c).2 := by
  cases r with
  | symbol s =>
      refine ofClosed fun hclosed => ?_
      exact bind (build (hmake c s hclosed (hissued s (by simp [Resolution.candidates]))).reaches
        (done ⟨rfl, rfl⟩))
  | ambiguous several =>
      refine bind ((buildEach make hmake several c hissued).mono ?_)
      rintro outcome c' - ⟨rfl, rfl⟩
      exact done ⟨rfl, rfl⟩

theorem constructEach {place : Place} {arguments : List SymbolId} :
    ∀ (definitions : List SymbolId) (c : Compilation), (∀ d ∈ definitions, c.Issued d) →
      (∀ a ∈ arguments, c.Issued a) →
      Ends (Description.constructEach place arguments definitions) c fun outcome c' =>
        outcome = .ok
            ((Compilation.buildEach (·.constructAt arguments) definitions c).1.filterMap
              Except.toOption,
             (Compilation.buildEach (·.constructAt arguments) definitions c).1.filterMap fun
              | .ok _ => none
              | .error rejection => some rejection.reason) ∧
          c' = (Compilation.buildEach (·.constructAt arguments) definitions c).2 := by
  intro definitions
  induction definitions with
  | nil => exact fun c _ _ => done ⟨rfl, rfl⟩
  | cons definition rest ih =>
      intro c hdefinitions harguments
      refine ofClosed fun hclosed => ?_
      have hissued := hdefinitions definition (by simp)
      obtain ⟨hreaches, -⟩ := hclosed.constructAt hissued harguments
      refine bind (tryBuild (Compilation.construct_eq hissued arguments) hreaches
        (bind ((ih _ (fun d hd => hreaches.grows.issued (hdefinitions d ?_))
          fun a ha => hreaches.grows.issued (harguments a ha)).mono ?_)))
      · simp [hd]
      · rintro outcome c' - ⟨rfl, rfl⟩
        simp only [Compilation.buildEach]
        cases hanswer : (c.constructAt arguments definition).1 with
        | ok s => exact done ⟨rfl, rfl⟩
        | error rejection => exact done ⟨rfl, rfl⟩

theorem constructed {place : Place} {name : String} {definitions : List SymbolId}
    {arguments : Loan SymbolId} (hdefinitions : ∀ d ∈ definitions, c.Issued d)
    (harguments : ∀ a ∈ arguments.items, c.Issued a) :
    Ends (Description.constructed place name definitions arguments) c fun outcome c' =>
      outcome = .ok (Description.constructedAt name arguments.presence definitions
          arguments.items c).1 ∧
        c' = (Description.constructedAt name arguments.presence definitions
          arguments.items c).2 := by
  unfold Description.constructed Description.constructedAt
  split
  · exact done ⟨rfl, rfl⟩
  · refine bind ((constructEach definitions c hdefinitions harguments).mono ?_)
    rintro outcome c' - ⟨rfl, rfl⟩
    exact done ⟨rfl, rfl⟩

theorem outcome {fallback : Fallback} {codec detail : String} :
    Ends (fallback.outcome codec detail) c fun outcome c' =>
      outcome = .ok (fallback.answer codec detail c) ∧ c' = c := by
  cases fallback with
  | universal => exact look fun scene hc => done ⟨by simp [Fallback.answer, hc], rfl⟩
  | fail => exact done ⟨rfl, rfl⟩

theorem rebuild {fallback : Fallback} {codec : String} {presence : Presence}
    {request : Compilation → Except Rejection SymbolId × Compilation}
    (hreaches : c.Reaches (request c).2) :
    Ends (fallback.rebuild codec presence (Decode.build request)) c fun outcome c' =>
      outcome = .ok (fallback.settle codec presence c (request c)).1 ∧
        c' = (fallback.settle codec presence c (request c)).2 := by
  unfold Fallback.rebuild Fallback.settle
  split
  · exact bind (emit outcome)
  · refine bind (build hreaches ?_)
    cases hanswer : (request c).1 with
    | ok s => exact done ⟨rfl, rfl⟩
    | error rejection => exact bind (emit outcome)

theorem enclosing (place : Place) (depth ordinal : Nat)
    (hmethods : ∀ m ∈ place.methods, c.Issued m) :
    Ends (Description.enclosing place depth ordinal) c fun outcome c' =>
      outcome = .ok (Description.enclosingAt c place.methods depth ordinal) ∧ c' = c := by
  unfold Description.enclosing Description.enclosingAt
  cases howner : place.methods[depth]? with
  | none => exact done ⟨rfl, rfl⟩
  | some owner =>
      refine bind (query (Compilation.typeParameters_eq
        (hmethods owner (List.mem_of_getElem? howner))) ?_)
      simp only
      cases hordinal : (c.entry owner).typeParameters[ordinal]? with
      | none => exact done ⟨rfl, rfl⟩
      | some s => exact done ⟨rfl, rfl⟩

/-! ### Signatures -/

/-- How going through a signature ends, if `defect?` is its first defect and `types` what it comes
to. -/
def Reads (signature : Place → Decode (Except Failure (Loan SymbolId))) (presence : Presence)
    (defect? : Option Defect)
    (types : List SymbolId → Compilation → Except Failure (List SymbolId) × Compilation) : Prop :=
  ∀ (place : Place) (c : Compilation), (∀ m ∈ place.methods, c.Issued m) →
    Ends (signature place) c fun outcome c' =>
      match defect? with
      | some d => outcome = .error d
      | none => c' = (types place.methods c).2 ∧
          ∃ lent, outcome = .ok lent ∧ Lent presence lent (types place.methods c).1

variable {signature : Place → Decode (Except Failure (Loan SymbolId))} {presence : Presence}
  {types : List SymbolId → Compilation → Except Failure (List SymbolId) × Compilation}

theorem replay (place : Place) (h : Reads signature presence none types) :
    ∀ (candidates : List SymbolId) (sofar : Description.Replay) (c : Compilation),
      (∀ m ∈ place.methods, c.Issued m) → (∀ m ∈ candidates, c.Issued m) →
      Ends (Description.replay place signature candidates sofar) c fun outcome c' =>
        outcome = .ok (Description.replayed types place.methods candidates sofar c).1 ∧
          c' = (Description.replayed types place.methods candidates sofar c).2 := by
  intro candidates
  induction candidates with
  | nil => exact fun sofar c _ _ => done ⟨rfl, rfl⟩
  | cons candidate rest ih =>
      intro sofar c hmethods hcandidates
      have hwithin : ∀ m ∈ (place.within candidate).methods, c.Issued m := by
        intro m hm
        rcases List.mem_append.mp hm with hm | hm
        · exact hmethods m hm
        · exact hcandidates m (by simp [List.mem_singleton.mp hm])
      refine bind ((h (place.within candidate) c hwithin).mono ?_)
      rintro outcome c' hgrows ⟨rfl, lent, rfl, hlent⟩
      have hrest := fun sofar => ih sofar _ (fun m hm => hgrows.issued (hmethods m hm))
        fun m hm => hgrows.issued (hcandidates m (by simp [hm]))
      simp only [Description.replayed]
      change Lent presence lent (types (place.methods ++ [candidate]) c).1 at hlent
      cases htypes : (types (place.methods ++ [candidate]) c).1 with
      | error reason =>
          rw [htypes] at hlent
          subst hlent
          exact hrest _
      | ok items =>
          rw [htypes] at hlent
          obtain ⟨loan, rfl, rfl, -⟩ := hlent
          refine bind (during (ofClosed fun hclosed => bind (query
            (hclosed.parameterTypes_eq (hgrows.issued (hcandidates candidate (by simp))))
            (done ?_))))
          exact hrest _

theorem replayAll (place : Place) {defect? : Option Defect}
    (h : Reads signature presence defect? types) {candidates : List SymbolId}
    (hmethods : ∀ m ∈ place.methods, c.Issued m) (hcandidates : ∀ m ∈ candidates, c.Issued m)
    {post : Slot Description.Replay → Compilation → Prop}
    (herror : ∀ d c', defect? = some d → post (.error d) c')
    (hok : defect? = none →
      post (.ok (Description.replayedAll types place.methods candidates c).1)
        (Description.replayedAll types place.methods candidates c).2) :
    Ends (Description.replayAll place signature candidates) c post := by
  unfold Description.replayAll
  unfold Description.replayedAll at hok
  cases candidates with
  | nil =>
      refine bind ((h place c hmethods).mono ?_)
      intro outcome c' hgrows hpost
      cases defect? with
      | some d => exact hpost ▸ herror d c' rfl
      | none =>
          obtain ⟨rfl, lent, rfl, -⟩ := hpost
          cases lent with
          | ok loan => exact bind (giveBack (done (hok rfl)))
          | error reason => exact done (hok rfl)
  | cons candidate rest =>
      cases defect? with
      | none => 
          refine (replay place h _ _ c hmethods hcandidates).mono ?_
          rintro outcome c' - ⟨rfl, rfl⟩
          exact hok rfl
      | some d =>
          refine bind ((h (place.within candidate) c ?_).mono ?_)
          · intro m hm
            rcases List.mem_append.mp hm with hm | hm
            · exact hmethods m hm
            · exact hcandidates m (by simp [List.mem_singleton.mp hm])
          · rintro outcome c' - rfl
            exact herror d c' rfl

/-- The last step of a method segment. -/
theorem fitting {replay : Description.Replay} {name : String} :
    Ends (match replay.fitting, replay.failure with
      | [], some reason =>
        pure (.error (.field Category.method.codec "parameterTypes" reason))
      | fitting, _ => pure (Description.found .method name fitting)) c fun outcome c' =>
        outcome = .ok (replay.outcome name) ∧ c' = c := by
  obtain ⟨fitting, failure⟩ := replay
  cases fitting with
  | nil => cases failure <;> exact done ⟨rfl, rfl⟩
  | cons _ _ => exact done ⟨rfl, rfl⟩

end Ends
end Decode

namespace Description

open Ends

variable {o : ResolveOptions}

/-- Resolving a description ends as it should wherever it is resolved. -/
def Follows (o : ResolveOptions) (d : Description) : Prop :=
  ∀ (place : Place) (c : Compilation), (∀ m ∈ place.methods, c.Issued m) →
    Ends (resolve o d place) c (d.Resolves o place.methods c)

variable {β : Type} {c : Compilation} {place : Place}

/-- A nested segment, and what is done with it. -/
theorem Follows.nested {d : Description} (h : Follows o d)
    (hmethods : ∀ m ∈ place.methods, c.Issued m)
    {place' : Place} (hplace : place'.methods = place.methods)
    {next : Resolved → Decode β} {post : Slot β → Compilation → Prop}
    (herror : ∀ e c', d.defect? = some e → post (.error e) c')
    (hok : d.defect? = none →
      Ends (next (locate o d place.methods c).1) (locate o d place.methods c).2 post) :
    Ends (segment d place' (resolve o d) >>= next) c post := by
  refine bind (Ends.segment fun place'' hplace'' => ?_)
  have hplace'' := hplace''.trans hplace
  refine (h place'' c (hplace'' ▸ hmethods)).mono ?_
  intro outcome c' _ hpost
  unfold Resolves at hpost
  rw [hplace''] at hpost
  cases hdefect : d.defect? with
  | some e =>
      rw [hdefect] at hpost
      exact hpost ▸ herror e c' hdefect
  | none =>
      rw [hdefect] at hpost
      obtain ⟨rfl, rfl⟩ := hpost
      exact hok hdefect

theorem takes_element {d : Description} (h : Follows o d) {place' : Place}
    (hplace : place'.methods = place.methods) (hmethods : ∀ m ∈ place.methods, c.Issued m) :
    Takes c (first <$> segment d place' (resolve o d)) (Course.ofElement o place.methods d) := by
  intro c' hgrows
  rw [map_eq_pure_bind]
  refine h.nested (fun m hm => hgrows.issued (hmethods m hm)) hplace ?_ ?_
  · intro e c'' he
    simp [Course.ofElement, he]
  · intro hnone
    refine done ?_
    simp [Course.ofElement, hnone]

theorem takes_resolveEach {ds : List Description} (hds : ∀ d ∈ ds, Follows o d)
    (hmethods : ∀ m ∈ place.methods, c.Issued m) :
    ∀ place' : Place, place'.methods = place.methods →
      List.Forall₂ (Takes c) (resolveEach o ds place')
        (ds.map (Course.ofElement o place.methods)) := by
  induction ds with
  | nil => exact fun _ _ => by simp [resolveEach]
  | cons d rest ih =>
      intro place' hplace
      simp only [resolveEach, List.map_cons]
      exact .cons (takes_element (hds d (by simp)) hplace hmethods)
        (ih (fun d' hd' => hds d' (by simp [hd'])) _ hplace)

theorem findSome?_ofElement {methods : List SymbolId} (ds : List Description) :
    (ds.map (Course.ofElement o methods)).findSome? (·.defect?) = defects? ds := by
  induction ds with
  | nil => rfl
  | cons d rest ih =>
      simp only [List.map_cons, List.findSome?_cons, ih, defects?, Course.ofElement]
      cases d.defect? <;> rfl

theorem runEach_ofElement {methods : List SymbolId} (ds : List Description) :
    ∀ c, Course.runEach (ds.map (Course.ofElement o methods)) c = locateEach o ds methods c := by
  induction ds with
  | nil => exact fun c => by simp [Course.runEach, Compilation.buildEach, locateEach]
  | cons d rest ih =>
      intro c
      simp only [Course.runEach] at ih
      simp [Course.runEach, Compilation.buildEach, locateEach, ih, Course.ofElement]

/-- An array of segments ends in a buffer with the first candidates, unless an element fails. -/
theorem segments {presence : Slot Presence} {ds : List Description} (hds : ∀ d ∈ ds, Follows o d)
    (hmethods : ∀ m ∈ place.methods, c.Issued m)
    {place' : Place} (hplace : place'.methods = place.methods)
    {post : Slot (Except Failure (Loan SymbolId)) → Compilation → Prop}
    (herror : ∀ e c', presence.defect? = some e ∨ presence.defect? = none ∧ defects? ds = some e →
      post (.error e) c')
    (hok : ∀ lent, presence.defect? = none → defects? ds = none →
      Lent (presence.valueOr .absent) lent (gathered 0 (locateEach o ds place.methods c).1) →
      post (.ok lent) (locateEach o ds place.methods c).2) :
    Ends (elements presence (resolveEach o ds place')) c post := by
  have hsteps := takes_resolveEach hds hmethods place' hplace
  refine Ends.elements hsteps (.refl c) ?_ ?_
  · intro e c' he
    rw [findSome?_ofElement] at he
    exact herror e c' (by simpa using he)
  · intro lent hnone hlent
    rw [findSome?_ofElement] at hnone
    rw [runEach_ofElement] at hlent ⊢
    obtain ⟨hp, hds⟩ : presence.defect? = none ∧ defects? ds = none := by simpa using hnone
    exact hok lent hp hds hlent

theorem Resolves.error {d : Description} {methods : List SymbolId} {c' : Compilation} {e : Defect}
    (h : d.defect? = some e) : d.Resolves o methods c (.error e) c' := by
  simp [Resolves, h]

theorem Resolves.ok {d : Description} {methods : List SymbolId} {c' : Compilation} {r : Resolved}
    (h : d.defect? = none) (hlocate : d.locate o methods c = (r, c')) :
    d.Resolves o methods c (.ok r) c' := by
  simp [Resolves, h, hlocate]

/-- A segment that looks a name up among what belongs to another symbol. -/
theorem Follows.lookup {d owner : Description} {name : Slot String} {category : Category}
    {partName : String}
    {question : List SymbolId → String → Compilation → Except Fault (List SymbolId)}
    {answer : Compilation → List SymbolId → String → List SymbolId} (h : Follows o owner)
    (hquestion : ∀ c : Compilation, c.Closed → ∀ owners, (∀ s ∈ owners, c.Issued s) → ∀ name,
      question owners name c = .ok (answer c owners name))
    (hdefect : d.defect? = (owner.defect? <|> name.defect?))
    (hlocate : ∀ methods c, d.locate o methods c =
      ((part category partName (owner.locate o methods c).1).bind fun r =>
          found category (name.valueOr "")
            (answer (owner.locate o methods c).2 r.candidates (name.valueOr "")),
        (owner.locate o methods c).2)) (hmethods : ∀ m ∈ place.methods, c.Issued m) {place' : Place}
    (hplace : place'.methods = place.methods) :
    Ends (do
      let owner ← segment owner place' (resolve o owner)
      let name ← ofSlot name
      require category partName owner fun owner => do
        return found category name (← query place (question owner.candidates name)))
      c (d.Resolves o place.methods c) := by
  refine Ends.ofClosed fun hclosed => ?_
  refine h.nested hmethods hplace (fun e c' he => .error (by simp [hdefect, he])) ?_
  intro hc
  refine Ends.slot (fun e he => .error (by simp [hdefect, hc, he])) fun n hn => ?_
  subst hn
  have hnone : d.defect? = none := by simp [hdefect, hc]
  obtain ⟨hreaches, hknows⟩ := locate_closed o owner place.methods c hclosed hmethods
  refine Ends.require (fun reason hr => .ok hnone (by simp [hlocate, hr, Except.bind])) ?_
  intro r hr
  refine Ends.bind (Ends.query (hquestion _ hreaches.closed _ (hknows r hr) n)
    (Ends.done (.ok hnone ?_)))
  simp [hlocate, hr, Except.bind]

/-! ### Segments -/

section Segments

attribute [local simp] resolve defect? locate

variable {container : Description} {ds : List Description} {name : Slot String}
  {arity rank depth ordinal : Slot Nat} {presence : Slot Presence} {names : Listing (Option String)}
  {readOnly : Listing Bool} {locations : Listing Location}

theorem follows_namedType (ih : Follows o container) (iharguments : ∀ d ∈ ds, Follows o d) :
    Follows o (.namedType container name arity presence ds) := by
  intro place c hmethods
  simp only [resolve]
  refine Ends.ofClosed fun hclosed => ?_
  refine ih.nested hmethods rfl (fun e c' he => .error (by simp [he])) fun hc => ?_
  refine Ends.slot (fun e he => .error (by simp [hc, he])) fun n hn => ?_
  subst hn
  refine Ends.slot (fun e he => .error (by simp [hc, he])) fun k hk => ?_
  subst hk
  obtain ⟨houter, hknows⟩ := locate_closed o container place.methods c hclosed hmethods
  have hmethods' : ∀ m ∈ place.methods, (locate o container place.methods c).2.Issued m :=
    fun m hm => houter.grows.issued (hmethods m hm)
  obtain ⟨hinner, hissued⟩ := locateEach_reaches o ds place.methods _ houter.closed hmethods'
  refine Ends.bind (segments iharguments hmethods' (by rfl) ?_ ?_)
  · exact fun e c' he => .error (by simp [hc, he])
  · intro lent hp harguments hlent
    have hnone : (namedType container (.ok n) (.ok k) presence ds).defect? = none := by
      simp [hc, hp, harguments]
    refine Ends.duringEither (Ends.require ?_ fun r hr => Ends.require ?_ fun types htypes => ?_)
    · intro reason hr
      refine .ok hnone ?_
      simp [hr]
    · intro reason hreason
      refine .ok hnone ?_
      simp [hr, hlent.of_part hreason]
    · subst htypes
      obtain ⟨hitems, hpresence⟩ := hlent.of_ok
      have hr' := fun s hs => hinner.grows.issued (hknows r hr s hs)
      refine Ends.bind (Ends.query (hinner.closed.typesNamed_eq hr' n k)
        ((Ends.constructed (hinner.closed.issued_genericsBearing hr')
          (hissued 0 _ hitems)).mono ?_))
      rintro outcome c' - ⟨rfl, rfl⟩
      refine .ok hnone ?_
      simp [hr, hitems, hpresence]

theorem follows_arrayType (ih : Follows o container) : Follows o (.arrayType container rank) := by
  intro place c hmethods
  simp only [resolve]
  refine Ends.ofClosed fun hclosed => ?_
  refine ih.nested hmethods rfl (fun e c' he => .error (by simp [he])) fun hc => ?_
  refine Ends.slot (fun e he => .error (by simp [hc, he])) fun n hn => ?_
  subst hn
  obtain ⟨houter, hknows⟩ := locate_closed o container place.methods c hclosed hmethods
  have hnone : (arrayType container (.ok n)).defect? = none := by simp [hc]
  refine Ends.require (fun reason hr => .ok hnone (by simp [hr])) fun r hr => ?_
  refine Ends.bind ((Ends.rebuilt (·.arrayType · (UInt64.ofNat n))
    (fun c' s hc' hs => hc'.arrayType hs _) (hknows r hr)).mono ?_)
  rintro outcome c' - ⟨rfl, rfl⟩
  exact Ends.done (.ok hnone (by simp [hr]))

theorem follows_pointerType (ih : Follows o container) : Follows o (.pointerType container) := by
  intro place c hmethods
  simp only [resolve]
  refine Ends.ofClosed fun hclosed => ?_
  refine ih.nested hmethods rfl (fun e c' he => .error (by simp [he])) fun hc => ?_
  obtain ⟨houter, hknows⟩ := locate_closed o container place.methods c hclosed hmethods
  have hnone : (pointerType container).defect? = none := by simp [hc]
  refine Ends.require (fun reason hr => .ok hnone (by simp [hr])) fun r hr => ?_
  refine Ends.bind ((Ends.rebuilt (·.pointerType ·) (fun c' s hc' hs => hc'.pointerType hs)
    (hknows r hr)).mono ?_)
  rintro outcome c' - ⟨rfl, rfl⟩
  exact Ends.done (.ok hnone (by simp [hr]))

theorem follows_tupleType (ih : ∀ d ∈ ds, Follows o d) :
    Follows o (.tupleType presence ds names locations) := by
  intro place c hmethods
  simp only [resolve]
  refine Ends.ofClosed fun hclosed => ?_
  obtain ⟨hinner, hissued⟩ := locateEach_reaches o ds place.methods c hclosed hmethods
  refine Ends.bind (segments ih hmethods (by rfl) ?_ ?_)
  · rintro e c' (he | ⟨hp, he⟩)
    · exact .error (by simp [he])
    · exact .error (by simp [hp, he])
  · intro lent hp htypes hlent
    refine Ends.duringEither (Ends.bind (Ends.listing ?_ ?_))
    · exact fun e he => .error (by simp [hp, htypes, he])
    · intro nameLoan hnames hnameItems hnamePresence
      refine Ends.during (Ends.bind (Ends.locations ?_ ?_))
      · exact fun e c' he => .error (by simp [hp, htypes, hnames, he])
      · intro lentLocations hlocations hlentLocations
        have hnone : (tupleType presence ds names locations).defect? = none := by
          simp [hp, htypes, hnames, hlocations]
        refine Ends.duringEither
          (Ends.require ?_ fun typeLoan h => Ends.require ?_ fun siteLoan h' => ?_)
        · intro reason hreason
          exact .ok hnone (by simp [hlent.of_part hreason])
        · intro reason hreason
          subst h
          obtain ⟨hitems, -⟩ := hlent.of_ok
          exact .ok hnone (by simp [hitems, hlentLocations.of_part hreason])
        · subst h h'
          obtain ⟨hitems, hpresence⟩ := hlent.of_ok
          obtain ⟨hsites, -⟩ := hlentLocations.of_ok
          obtain ⟨hbuilt, -⟩ := hinner.closed.tupleType (hissued 0 _ hitems) nameLoan.items
            siteLoan.items
          refine (Ends.rebuild hbuilt).mono ?_
          rintro outcome c' - ⟨rfl, rfl⟩
          exact .ok hnone (by simp [hitems, hsites, hpresence, hnameItems])

theorem follows_anonymousType (ih : ∀ d ∈ ds, Follows o d) :
    Follows o (.anonymousType presence ds names readOnly locations) := by
  intro place c hmethods
  simp only [resolve]
  refine Ends.ofClosed fun hclosed => ?_
  obtain ⟨hinner, hissued⟩ := locateEach_reaches o ds place.methods c hclosed hmethods
  refine Ends.bind (segments ih hmethods (by rfl) ?_ ?_)
  · rintro e c' (he | ⟨hp, he⟩)
    · exact .error (by simp [he])
    · exact .error (by simp [hp, he])
  · intro lent hp htypes hlent
    refine Ends.duringEither (Ends.bind (Ends.listing ?_ ?_))
    · exact fun e he => .error (by simp [hp, htypes, he])
    · intro nameLoan hnames hnameItems hnamePresence
      refine Ends.during (Ends.bind (Ends.listing ?_ ?_))
      · exact fun e he => .error (by simp [hp, htypes, hnames, he])
      · intro fixedLoan hfixed hfixedItems hfixedPresence
        refine Ends.during (Ends.bind (Ends.locations ?_ ?_))
        · exact fun e c' he => .error (by simp [hp, htypes, hnames, hfixed, he])
        · intro lentLocations hlocations hlentLocations
          have hnone :
              (anonymousType presence ds names readOnly locations).defect? = none := by
            simp [hp, htypes, hnames, hfixed, hlocations]
          refine Ends.duringEither
            (Ends.require ?_ fun typeLoan h => Ends.require ?_ fun siteLoan h' => ?_)
          · intro reason hreason
            exact .ok hnone (by simp [hlent.of_part hreason])
          · intro reason hreason
            subst h
            obtain ⟨hitems, -⟩ := hlent.of_ok
            exact .ok hnone (by simp [hitems, hlentLocations.of_part hreason])
          · subst h h'
            obtain ⟨hitems, hpresence⟩ := hlent.of_ok
            obtain ⟨hsites, -⟩ := hlentLocations.of_ok
            obtain ⟨hbuilt, -⟩ := hinner.closed.anonymousType (hissued 0 _ hitems)
              (nameLoan.items.map (·.getD "")) fixedLoan.items siteLoan.items
            refine (Ends.rebuild hbuilt).mono ?_
            rintro outcome c' - ⟨rfl, rfl⟩
            exact .ok hnone
              (by simp [hitems, hsites, hpresence, hnameItems, hfixedItems])

theorem follows_typeParameterOrdinal : Follows o (.typeParameterOrdinal depth ordinal) := by
  intro place c hmethods
  simp only [resolve]
  refine Ends.slot (fun e he => .error (by simp [he])) fun i hi => ?_
  subst hi
  refine Ends.slot (fun e he => .error (by simp [he])) fun j hj => ?_
  subst hj
  refine (Ends.enclosing (place.forward 2) i j hmethods).mono ?_
  rintro outcome c' - ⟨rfl, rfl⟩
  exact .ok (by simp) (by simp [Place.forward])

theorem follows_property (ih : Follows o container) (ihparameters : ∀ d ∈ ds, Follows o d) :
    Follows o (.property container name presence ds) := by
  intro place c hmethods
  simp only [resolve]
  refine Ends.ofClosed fun hclosed => ?_
  refine ih.nested hmethods rfl (fun e c' he => .error (by simp [he])) fun hc => ?_
  refine Ends.slot (fun e he => .error (by simp [hc, he])) fun n hn => ?_
  subst hn
  obtain ⟨houter, hknows⟩ := locate_closed o container place.methods c hclosed hmethods
  have hmethods' : ∀ m ∈ place.methods, (locate o container place.methods c).2.Issued m :=
    fun m hm => houter.grows.issued (hmethods m hm)
  obtain ⟨hinner, -⟩ := locateEach_reaches o ds place.methods _ houter.closed hmethods'
  refine Ends.bind (segments ihparameters hmethods' (by rfl) ?_ ?_)
  · exact fun e c' he => .error (by simp [hc, he])
  · intro lent hp hparameters hlent
    have hnone : (property container (.ok n) presence ds).defect? = none := by
      simp [hc, hp, hparameters]
    refine Ends.duringEither (Ends.require ?_ fun r hr => Ends.require ?_ fun types htypes => ?_)
    · intro reason hr
      exact .ok hnone (by simp [hr, Except.bind])
    · intro reason hreason
      exact .ok hnone (by simp [hr, hlent.of_part hreason, Except.bind])
    · subst htypes
      obtain ⟨hitems, -⟩ := hlent.of_ok
      have hr' := fun s hs => hinner.grows.issued (hknows r hr s hs)
      refine Ends.bind (Ends.query (hinner.closed.propertiesNamed_eq hr' n types.items)
        (Ends.done (.ok hnone ?_)))
      simp [hr, hitems, Except.bind]

theorem follows_method (ih : Follows o container) (ihparameters : ∀ d ∈ ds, Follows o d) :
    Follows o (.method container name arity presence ds) := by
  intro place c hmethods
  simp only [resolve]
  refine Ends.ofClosed fun hclosed => ?_
  refine ih.nested hmethods rfl (fun e c' he => .error (by simp [he])) fun hc => ?_
  refine Ends.slot (fun e he => .error (by simp [hc, he])) fun n hn => ?_
  subst hn
  refine Ends.slot (fun e he => .error (by simp [hc, he])) fun k hk => ?_
  subst hk
  obtain ⟨houter, hknows⟩ := locate_closed o container place.methods c hclosed hmethods
  have hmethods' : ∀ m ∈ place.methods, (locate o container place.methods c).2.Issued m :=
    fun m hm => houter.grows.issued (hmethods m hm)
  have hsignature : Ends.Reads
      (fun p => elements presence (resolveEach o ds p)) (presence.valueOr .absent)
      (presence.defect? <|> defects? ds)
      (fun methods c =>
        (gathered 0 (locateEach o ds methods c).1, (locateEach o ds methods c).2)) := by
    intro p c hp
    refine segments ihparameters hp (by rfl) ?_ ?_
    · intro e c' he
      simp [show (presence.defect? <|> defects? ds) = some e by simpa using he]
    · intro lent hp hparameters hlent
      simp [show (presence.defect? <|> defects? ds) = none by simp [hp, hparameters],
        hlent]
  have hnone : (presence.defect? <|> defects? ds) = none →
      (method container (.ok n) (.ok k) presence ds).defect? = none := by
    intro h
    simpa [hc] using h
  cases hr : (locate o container place.methods c).1 with
  | error reason =>
      refine Ends.bind (Ends.done (Ends.bind (Ends.replayAll (place.forward _) hsignature
        hmethods' (by simp) ?_ ?_)))
      · exact fun e c' he => .error (by simpa [hc] using he)
      · exact fun h => Ends.done (.ok (hnone h) (by simp [hr, Except.bind, Place.forward]))
  | ok r =>
      refine Ends.bind (Ends.query (houter.closed.methodsNamed_eq (hknows r hr) n k)
        (Ends.bind (Ends.replayAll (place.forward _) hsignature hmethods'
          (houter.closed.issued_genericsBearing (hknows r hr)) ?_ ?_)))
      · exact fun e c' he => .error (by simpa [hc] using he)
      · intro h
        refine Ends.fitting.mono ?_
        rintro outcome c' - ⟨rfl, rfl⟩
        exact .ok (hnone h) (by simp [hr, Except.bind, Place.forward])

theorem follows_localVariable (ih : Follows o container) :
    Follows o (.localVariable container name ordinal) := by
  intro place c hmethods
  simp only [resolve]
  refine Ends.ofClosed fun hclosed => ?_
  refine ih.nested hmethods rfl (fun e c' he => .error (by simp [he])) fun hc => ?_
  refine Ends.slot (fun e he => .error (by simp [hc, he])) fun n hn => ?_
  subst hn
  refine Ends.slot (fun e he => .error (by simp [hc, he])) fun k hk => ?_
  subst hk
  obtain ⟨houter, hknows⟩ := locate_closed o container place.methods c hclosed hmethods
  have hnone : (localVariable container (.ok n) (.ok k)).defect? = none := by simp [hc]
  refine Ends.require (fun reason hr => .ok hnone (by simp [hr, Except.bind])) ?_
  intro r hr
  refine Ends.bind (Ends.query (houter.closed.localsNumbered_eq (hknows r hr) n k)
    (Ends.done (.ok hnone ?_)))
  simp [hr, Except.bind]

end Segments

/-- Resolving a description is halted by its first defect, and otherwise comes to what locating
it does. -/
theorem resolve_ends (o : ResolveOptions) (d : Description) : d.Follows o := by
  induction d with
  | unreadable e | unflagged e =>
      intro place c _
      simp only [resolve]
      exact Ends.halted (.error (by simp [defect?]))
  | global =>
      intro place c _
      simp only [resolve]
      exact Ends.look fun scene hc => Ends.done (.ok (by simp [defect?]) (by simp [locate, hc]))
  | nameSpace container name ih =>
      intro place c hmethods
      simp only [resolve]
      exact ih.lookup (fun c hc owners ho name => hc.membersNamed_eq ho .nameSpace name)
        (by simp [defect?]) (fun methods c => by simp [locate]) hmethods rfl
  | namedType _ _ _ _ _ ih iharguments => exact follows_namedType ih iharguments
  | arrayType _ _ ih => exact follows_arrayType ih
  | pointerType _ ih => exact follows_pointerType ih
  | tupleType _ _ _ _ ih => exact follows_tupleType ih
  | anonymousType _ _ _ _ _ ih => exact follows_anonymousType ih
  | typeParameterOrdinal _ _ => exact follows_typeParameterOrdinal
  | property _ _ _ _ ih ihparameters => exact follows_property ih ihparameters
  | method _ _ _ _ _ ih ihparameters => exact follows_method ih ihparameters
  | localVariable _ _ _ ih => exact follows_localVariable ih
  | typeParameter owner name ih =>
      intro place c hmethods
      simp only [resolve]
      exact ih.lookup (fun c hc owners ho name => hc.typeParametersNamed_eq ho name)
        (by simp [defect?]) (fun methods c => by simp [locate]) hmethods rfl
  | field container name ih =>
      intro place c hmethods
      simp only [resolve]
      exact ih.lookup (fun c hc owners ho name => hc.membersNamed_eq ho .field name)
        (by simp [defect?]) (fun methods c => by simp [locate]) hmethods rfl
  | parameter owner name ih =>
      intro place c hmethods
      simp only [resolve]
      exact ih.lookup (fun c hc owners ho name => hc.parametersNamed_eq ho name)
        (by simp [defect?]) (fun methods c => by simp [locate]) hmethods rfl

end Description

/-! ## Keys -/

/-- A reader takes over how making sense of what it scanned ends, unless that faults. -/
theorem Reader.perform_eq {α β : Type} {r : Reader} {step : Scanner α}
    {meaning : α → Scan → Decode β} {scene scene' : Scene} {a : α} {scan : Scan} {outcome : Slot β}
    (hscan : step.run { position := r.place.position, rest := r.frames.drop r.place.position } =
      (a, scan))
    (hrun : (meaning a scan).run scene = (outcome.mapError .defect, scene')) :
    (r.perform step meaning scene).value = outcome.mapError .defect ∧
      (r.perform step meaning scene).scene = scene' := by
  unfold Reader.perform Reader.scan
  rw [hscan]
  simp only [hrun]
  cases outcome <;> exact ⟨rfl, rfl⟩

namespace Key

/-- What reading the frames of a key yields, and where it stops. -/
def scanned (o : ResolveOptions) (k : Key) : Description × Scan :=
  (Description.ofFrames o o.maxDepth.toNat).run { position := 0, rest := k.frames }

/-- What makes a key unusable: the first defect of its frames, or frames after its end. -/
def defect? (o : ResolveOptions) (k : Key) : Option Defect :=
  (k.scanned o).1.defect? <|>
    if (k.scanned o).2.rest.isEmpty then none
    else some (.trailing (k.scanned o).2.rest.length (k.scanned o).2.position)

/-- The outcome for a key of the supported version. -/
def outcome (o : ResolveOptions) (k : Key) (c : Compilation) : Slot Resolved :=
  match k.defect? o with
  | some e => .error e
  | none => .ok ((k.scanned o).1.locate o [] c).1

/-- What becomes of the compilation, unless the key is unusable. -/
def reached (o : ResolveOptions) (k : Key) (c : Compilation) : Compilation :=
  ((k.scanned o).1.locate o [] c).2

/-- The step that resolves a key of the supported version. -/
def step (o : ResolveOptions) (k : Key) : Decode Resolved := do
  let resolved ← (k.scanned o).1.resolveAt o {}
  if (k.scanned o).2.rest.isEmpty then
    return resolved
  throw (.defect (.trailing (k.scanned o).2.rest.length (k.scanned o).2.position))

theorem step_ends (o : ResolveOptions) (k : Key) (c : Compilation) :
    Decode.Ends (k.step o) c fun outcome c' =>
      outcome = k.outcome o c ∧ (k.defect? o = none → c' = k.reached o c) := by
  have hmethods : ∀ m ∈ ({} : Place).methods, c.Issued m := by simp
  refine (Description.resolve_ends o (k.scanned o).1).nested hmethods rfl ?_ ?_
  · intro e c' he
    simp [outcome, defect?, he]
  · intro hnone
    by_cases hrest : (k.scanned o).2.rest.isEmpty
    · rw [if_pos hrest]
      refine Decode.Ends.done ?_
      simp [outcome, defect?, hnone, hrest, reached]
    · rw [if_neg hrest]
      refine Decode.Ends.halted ?_
      simp [outcome, defect?, hnone, hrest]

variable {o : ResolveOptions} {k : Key} {scene : Scene}

theorem resolveIn_eq (hversion : k.version = currentVersion) (hsound : scene.Sound) :
    (k.resolveIn o scene).1 = (k.outcome o scene.compilation).mapError .defect ∧
      (k.defect? o = none →
        (k.resolveIn o scene).2.compilation = k.reached o scene.compilation) := by
  obtain ⟨outcome, scene', hrun, -, -, rfl, hreached⟩ := step_ends o k _ scene hsound rfl
  have hread : (({ frames := k.frames } : Reader).readRoot o scene).value =
        (k.outcome o scene.compilation).mapError Halt.defect ∧
      (({ frames := k.frames } : Reader).readRoot o scene).scene = scene' := by
    exact Reader.perform_eq rfl hrun
  simp only [resolveIn, checkVersion, hversion, if_true]
  cases k.outcomeEvent? (({ frames := k.frames } : Reader).readRoot o scene).value with
  | none => exact ⟨hread.1, fun h => hread.2 ▸ hreached h⟩
  | some event => exact ⟨hread.1, fun h => hread.2 ▸ hreached h⟩

/-- Resolving a key never faults. -/
theorem resolve_eq (hversion : k.version = currentVersion) (hclosed : scene.compilation.Closed) :
    (k.resolve o scene).1 = (k.outcome o scene.compilation).mapError .defect ∧
      (k.defect? o = none →
        (k.resolve o scene).2.compilation = k.reached o scene.compilation) :=
  have hsound : Scene.Sound { scene with arena := {} } := ⟨hclosed, Arena.clean_empty⟩
  resolveIn_eq hversion hsound

end Key
end Moniker
