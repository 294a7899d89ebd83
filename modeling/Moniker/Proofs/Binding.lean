import Moniker.Proofs.RoundTrip

/-!
# References to type parameters are bound

Inside the signature of a method a type parameter is described by two places: that of its method
among those being described, and its own in the list of that method. Whoever resolves the
description keeps a list of methods too, but of candidates (`Compilation.Stands`): each has as many
type parameters as the method that it stands for. Where there is no candidate none is put on the
list, and what the signature comes to is thrown away. So a failure never has a reference at its root
that refers to nothing (`Description.Describes.staysBound`, `Key.references_bound`).
-/

namespace Moniker

/-- No link of the chain is a reference that refers to nothing. -/
def Failure.Bound (reason : Failure) : Prop := ∀ codec detail, .unbound codec detail ∉ reason.chain

namespace Failure.Bound

variable {reason : Failure}

theorem notFound (codec name : String) : (Failure.notFound codec name).Bound := by
  simp [Failure.Bound, chain]

theorem rejected (codec detail : String) : (Failure.rejected codec detail).Bound := by
  simp [Failure.Bound, chain]

theorem notInCompilation (path : String) : (Failure.notInCompilation path).Bound := by
  simp [Failure.Bound, chain]

theorem field (h : reason.Bound) (codec name : String) :
    (Failure.field codec name reason).Bound := by
  simpa [Failure.Bound, chain] using h

theorem element (h : reason.Bound) (index : Nat) : (Failure.element index reason).Bound := by
  simpa [Failure.Bound, chain] using h

end Failure.Bound

/-- If the outcome is a failure, it is a bound one. -/
def Bound {α : Type} (outcome : Except Failure α) : Prop :=
  ∀ reason, outcome = .error reason → reason.Bound

namespace Bound

variable {α β : Type} {outcome : Except Failure α} {reason : Failure}

theorem ok (a : α) : Bound (.ok a : Except Failure α) := fun _ h => by cases h

theorem error (h : reason.Bound) : Bound (.error reason : Except Failure α) :=
  fun _ heq => Except.error.inj heq ▸ h

theorem bind {next : α → Except Failure β} (h : Bound outcome) (h' : ∀ a, Bound (next a)) :
    Bound (outcome.bind next) := by
  cases outcome with
  | error reason => exact error (h reason rfl)
  | ok a => exact h' a

theorem part (h : Bound outcome) (category : Category) (name : String) :
    Bound (Moniker.part category name outcome) := by
  cases outcome with
  | error reason => exact error ((h reason rfl).field _ name)
  | ok a => exact ok a

theorem ofCandidates {found : List SymbolId} (h : reason.Bound) :
    Bound (Resolution.ofCandidates found reason) := by
  unfold Resolution.ofCandidates
  split
  · exact error h
  · exact ok _
  · exact ok _

theorem found (category : Category) (name : String) (symbols : List SymbolId) :
    Bound (Description.found category name symbols) :=
  ofCandidates (.notFound _ _)

theorem gathered {results : List (Except Failure α)} (h : ∀ x ∈ results, Bound x) (index : Nat) :
    Bound (gathered index results) := by
  induction results generalizing index with
  | nil => exact ok []
  | cons x rest ih =>
      have hrest := ih (fun y hy => h y (by simp [hy])) (index + 1)
      cases x with
      | error reason => exact error ((h _ (by simp) reason rfl).element index)
      | ok a =>
          rw [Moniker.gathered]
          cases hr : Moniker.gathered (index + 1) rest with
          | error reason => exact error (hrest reason hr)
          | ok items => exact ok _

theorem first {resolved : Resolved} (h : Bound resolved) : Bound (Decode.first resolved) := by
  refine bind h fun r => ?_
  cases r.any? with
  | none => exact error (.notFound _ _)
  | some s => exact ok s

theorem locations (c : Compilation) (locations : List Location) :
    Bound (Moniker.gathered 0 (locations.map c.accept)) := by
  refine gathered (fun x hx => ?_) 0
  obtain ⟨l, -, rfl⟩ := List.mem_map.mp hx
  unfold Compilation.accept
  split
  · exact ok _
  · next path span =>
      split
      · exact ok _
      · exact error (.notInCompilation path)

theorem settle (fallback : Fallback) (codec : String) (presence : Presence) (c : Compilation)
    (request : Except Rejection SymbolId × Compilation) :
    Bound (fallback.settle codec presence c request).1 := by
  have hanswer : ∀ detail c, Bound (fallback.answer codec detail c) := by
    intro detail c
    cases fallback
    · exact ok _
    · exact error (.rejected _ _)
  unfold Fallback.settle
  split
  · exact hanswer _ _
  · split
    · exact ok _
    · exact hanswer _ _

theorem constructedAt (name : String) (presence : Presence) (definitions arguments : List SymbolId)
    (c : Compilation) :
    Bound (Description.constructedAt name presence definitions arguments c).1 := by
  unfold Description.constructedAt
  split
  · exact found _ _ _
  · exact ofCandidates (.rejected _ _)

end Bound

/-- The methods stand for those around in order, each with as many type parameters as the method
that it stands for. -/
structure Compilation.Stands (c₁ c : Compilation) (around methods : List SymbolId) : Prop where
  closed : c.Closed
  issued : ∀ m ∈ methods, c.Issued m
  arity : List.Forall₂ (fun m m' =>
    (c.entry m').typeParameters.length = (c₁.entry m).typeParameters.length) around methods

namespace Compilation.Stands

variable {c₁ c c' : Compilation} {around methods : List SymbolId}

theorem later (h : c₁.Stands c around methods) (hreaches : c.Reaches c') :
    c₁.Stands c' around methods where
  closed := hreaches.closed
  issued m hm := hreaches.grows.issued (h.issued m hm)
  arity := by
    refine List.forall₂_iff_zip.mpr ⟨h.arity.length_eq, fun {m m'} hm => ?_⟩
    rw [hreaches.grows.entry (h.issued m' (List.of_mem_zip hm).2)]
    exact (List.forall₂_iff_zip.mp h.arity).2 hm

/-- One more method is being described, and a candidate stands for it. -/
theorem within (h : c₁.Stands c around methods) {m m' : SymbolId} (hm' : c.Issued m')
    (harity : (c.entry m').typeParameters.length = (c₁.entry m).typeParameters.length) :
    c₁.Stands c (around ++ [m]) (methods ++ [m']) where
  closed := h.closed
  issued := Description.issued_within h.issued hm'
  arity := List.rel_append h.arity (.cons harity .nil)

/-- The method at a place stands for the one around at that place. -/
theorem exists_method (h : c₁.Stands c around methods) {i : Nat} {m : SymbolId}
    (hm : around[i]? = some m) : ∃ m', methods[i]? = some m' ∧
      (c.entry m').typeParameters.length = (c₁.entry m).typeParameters.length := by
  obtain ⟨hi, rfl⟩ := List.getElem?_eq_some_iff.mp hm
  have hi' : i < methods.length := h.arity.length_eq ▸ hi
  exact ⟨methods[i], List.getElem?_eq_getElem hi', h.arity.get hi hi'⟩

end Compilation.Stands

namespace Description

/-- Each method being described is at its place. -/
theorem getElem?_methodIndex? {methods : List SymbolId} {m : SymbolId} (hm : m ∈ methods) :
    methods[(methodIndex? methods m).getD 0]? = some m := by
  unfold methodIndex?
  cases hplace : methods.reverse.idxOf? m with
  | none => exact absurd (List.mem_reverse.mpr hm) (List.idxOf?_eq_none_iff.mp hplace)
  | some i =>
      obtain ⟨hi, hget, -⟩ := List.idxOf?_eq_some_iff.mp hplace
      rw [List.length_reverse] at hi
      show methods[methods.length - 1 - i]? = some m
      rw [← hget, List.getElem_reverse]
      exact List.getElem?_eq_getElem _

open Compilation

variable {o : ResolveOptions} {c₁ c : Compilation} {around methods : List SymbolId}

/-- Wherever methods stand for those around, locating the description does not end in a reference
that refers to nothing. -/
def StaysBound (o : ResolveOptions) (c₁ : Compilation) (around : List SymbolId) (d : Description) :
    Prop :=
  ∀ (methods : List SymbolId) (c : Compilation), c₁.Stands c around methods →
    Bound (locate o d methods c).1

theorem StaysBound.reaches (o : ResolveOptions) (h : c₁.Stands c around methods) (d : Description) :
    c₁.Stands (after o d methods c) around methods :=
  h.later (locate_closed o d methods c h.closed h.issued).1

theorem StaysBound.each {ds : List Description} (hds : ∀ d ∈ ds, StaysBound o c₁ around d)
    (h : c₁.Stands c around methods) (index : Nat) :
    Bound (gathered index (locateEach o ds methods c).1) := by
  refine Bound.gathered (fun x hx => ?_) index
  induction ds generalizing c with
  | nil => rw [locateEach] at hx; cases hx
  | cons d rest ih =>
      rw [locateEach] at hx
      rcases List.mem_cons.mp hx with rfl | hx
      · exact (hds d (by simp) methods c h).first
      · exact ih (fun d hd => hds d (by simp [hd])) (StaysBound.reaches o h d) hx

/-- Going through a signature for every candidate comes to no failure but those that come of going
through it. -/
theorem bound_replayed
    {signature : List SymbolId → Compilation → Except Failure (List SymbolId) × Compilation}
    {m : SymbolId}
    (hsignature : ∀ methods c, c₁.Stands c (around ++ [m]) methods →
      c.Reaches (signature methods c).2 ∧ Bound (signature methods c).1)
    {candidates : List SymbolId} (h : c₁.Stands c around methods)
    (hcandidates : ∀ m' ∈ candidates, c.Issued m' ∧
      (c.entry m').typeParameters.length = (c₁.entry m).typeParameters.length) {sofar : Replay}
    (hsofar : ∀ reason, sofar.failure = some reason → reason.Bound) :
    ∀ reason, (replayed signature methods candidates sofar c).1.failure = some reason →
      reason.Bound := by
  induction candidates generalizing sofar c with
  | nil => exact hsofar
  | cons m' rest ih =>
      obtain ⟨hissued, harity⟩ := hcandidates m' (by simp)
      obtain ⟨hreaches, hbound⟩ := hsignature (methods ++ [m']) c (h.within hissued harity)
      rw [replayed]
      refine ih (h.later hreaches) (fun a ha => ?_) fun reason hreason => ?_
      · obtain ⟨hissued, harity⟩ := hcandidates a (by simp [ha])
        rw [hreaches.grows.entry hissued]
        exact ⟨hreaches.grows.issued hissued, harity⟩
      · cases htypes : (signature (methods ++ [m']) c).1 with
        | ok types =>
            rw [htypes, Replay.after] at hreason
            split at hreason <;> exact hsofar reason hreason
        | error reason' =>
            rw [htypes, Replay.after] at hreason
            cases hfailure : sofar.failure with
            | none =>
                rw [hfailure] at hreason
                cases hreason
                exact hbound reason htypes
            | some first =>
                rw [hfailure] at hreason
                cases hreason
                exact hsofar reason hfailure

theorem Replay.bound_outcome {replay : Replay}
    (h : ∀ reason, replay.failure = some reason → reason.Bound) (name : String) :
    Bound (replay.outcome name) := by
  unfold outcome
  split
  · next reason _ hreason => exact .error ((h reason hreason).field _ _)
  · exact .found _ _ _

theorem bound_replayedAll
    {signature : List SymbolId → Compilation → Except Failure (List SymbolId) × Compilation}
    {m : SymbolId}
    (hsignature : ∀ methods c, c₁.Stands c (around ++ [m]) methods →
      c.Reaches (signature methods c).2 ∧ Bound (signature methods c).1)
    {candidates : List SymbolId} (h : c₁.Stands c around methods)
    (hcandidates : ∀ m' ∈ candidates, c.Issued m' ∧
      (c.entry m').typeParameters.length = (c₁.entry m).typeParameters.length) (name : String) :
    Bound ((replayedAll signature methods candidates c).1.outcome name) := by
  refine Replay.bound_outcome ?_ name
  unfold replayedAll
  split
  · -- without candidates nothing is known about the signature, which has not been looked at
    intro reason hreason
    cases hreason
  · exact bound_replayed hsignature h hcandidates fun reason hreason => by cases hreason

/-- What is found for a part is known to the compilation afterwards. -/
theorem StaysBound.knows (o : ResolveOptions) (h : c₁.Stands c around methods) (d : Description) :
    (after o d methods c).Knows (locate o d methods c).1 :=
  (locate_closed o d methods c h.closed h.issued).2

namespace StaysBound

variable {container : Description} {ds : List Description}

theorem namedType (h : StaysBound o c₁ around container) (hds : ∀ d ∈ ds, StaysBound o c₁ around d)
    (name : Slot String) (arity : Slot Nat) (presence : Slot Presence) :
    StaysBound o c₁ around (.namedType container name arity presence ds) := by
  intro methods c hstands
  have houter := (h methods c hstands).part .namedType "containingSymbol"
  have hinner := (each hds (reaches o hstands container) 0).part .namedType "typeArguments"
  rw [locate]
  split
  · next _ reason hreason => exact .error (houter reason hreason)
  · next reason _ hreason => exact .error (hinner reason hreason)
  · exact .constructedAt _ _ _ _ _

theorem arrayType (h : StaysBound o c₁ around container) (rank : Slot Nat) :
    StaysBound o c₁ around (.arrayType container rank) := by
  intro methods c hstands
  have houter := (h methods c hstands).part .arrayType "elementType"
  rw [locate]
  split
  · next reason hreason => exact .error (houter reason hreason)
  · exact .ok _

theorem pointerType (h : StaysBound o c₁ around container) :
    StaysBound o c₁ around (.pointerType container) := by
  intro methods c hstands
  have houter := (h methods c hstands).part .pointerType "pointedAtType"
  rw [locate]
  split
  · next reason hreason => exact .error (houter reason hreason)
  · exact .ok _

theorem tupleType (hds : ∀ d ∈ ds, StaysBound o c₁ around d) (presence : Slot Presence)
    (names : Listing (Option String)) (locations : Listing Location) :
    StaysBound o c₁ around (.tupleType presence ds names locations) := by
  intro methods c hstands
  have hinner := (each hds hstands 0).part .tupleType "elementTypes"
  have hlocations := (Bound.locations (locateEach o ds methods c).2 locations.values).part
    .tupleType "elementLocations"
  rw [locate]
  split
  · next _ reason hreason => exact .error (hinner reason hreason)
  · next reason _ hreason => exact .error (hlocations reason hreason)
  · exact .settle _ _ _ _ _

theorem anonymousType (hds : ∀ d ∈ ds, StaysBound o c₁ around d) (presence : Slot Presence)
    (names : Listing (Option String)) (readOnly : Listing Bool) (locations : Listing Location) :
    StaysBound o c₁ around (.anonymousType presence ds names readOnly locations) := by
  intro methods c hstands
  have hinner := (each hds hstands 0).part .anonymousType "propertyTypes"
  have hlocations := (Bound.locations (locateEach o ds methods c).2 locations.values).part
    .anonymousType "propertyLocations"
  rw [locate]
  split
  · next _ reason hreason => exact .error (hinner reason hreason)
  · next reason _ hreason => exact .error (hlocations reason hreason)
  · exact .settle _ _ _ _ _

theorem property (h : StaysBound o c₁ around container) (hds : ∀ d ∈ ds, StaysBound o c₁ around d)
    (name : Slot String) (presence : Slot Presence) :
    StaysBound o c₁ around (.property container name presence ds) := by
  intro methods c hstands
  rw [locate]
  refine ((h methods c hstands).part _ _).bind fun r => ?_
  exact ((each hds (reaches o hstands container) 0).part _ _).bind fun types => .found _ _ _

theorem typeParameterOrdinal {s m : SymbolId} (hm : m ∈ around)
    (hs : s ∈ (c₁.entry m).typeParameters) :
    StaysBound o c₁ around (.typeParameterOrdinal (.ok ((methodIndex? around m).getD 0))
      (.ok (((c₁.entry m).typeParameters.idxOf? s).getD 0))) := by
  intro methods c hstands
  obtain ⟨m', hm', harity⟩ := hstands.exists_method (getElem?_methodIndex? hm)
  obtain ⟨hplace, -⟩ := List.getElem?_eq_some_iff.mp (getElem?_getD_idxOf? hs)
  rw [locate, enclosingAt]
  simp only [Slot.valueOr_ok, hm']
  rw [List.getElem?_eq_getElem (harity ▸ hplace)]
  exact .ok _

/-- The candidates for a method have as many type parameters as the method, so that each can stand
for it while the signature is gone through. -/
theorem method {m : SymbolId} (h : StaysBound o c₁ around container)
    (hds : ∀ d ∈ ds, StaysBound o c₁ (around ++ [m]) d) (name : Slot String)
    (presence : Slot Presence) :
    StaysBound o c₁ around
      (.method container name (.ok (c₁.entry m).typeParameters.length) presence ds) := by
  intro methods c hstands
  rw [locate]
  have hstands' := reaches o hstands container
  refine ((h methods c hstands).part _ _).bind fun _ => ?_
  refine bound_replayedAll (m := m) (fun methods c hstands => ?_) hstands' (fun m' hm' => ?_) _
  · exact ⟨(locateEach_reaches o ds methods c hstands.closed hstands.issued).1, each hds hstands 0⟩
  · have hknows := knows o hstands container
    cases hr : (locate o container methods c).1 with
    | error reason =>
        rw [hr] at hm'
        cases hm'
    | ok r =>
        rw [hr] at hm'
        exact ⟨hstands'.closed.issued_genericsBearing (hknows r hr) m' hm',
          beq_iff_eq.mp (List.mem_filter.mp hm').2⟩

end StaysBound

/-- A description that fits a symbol has no reference that refers to nothing. -/
theorem Describes.staysBound {s : SymbolId} {d : Description} (h₁ : c₁.Lawful) (hs : c₁.Issued s)
    (hdescribes : Describes c₁ around s d) : StaysBound o c₁ around d := by
  have houter : ∀ {s : SymbolId}, c₁.Issued s → c₁.Issued (c₁.outerAt s) := fun hs =>
    h₁.closed.issued_container hs
  induction hdescribes with
  | global => exact fun methods c _ => .ok _
  | nameSpace hkind hcontainer' hcontainer ih =>
      have hp := h₁.table.closed.container hs (by rw [← h₁.containerAt_eq, hcontainer'])
      intro methods c hstands
      rw [locate]
      exact ((ih hp methods c hstands).part _ _).bind fun r => .found _ _ _
  | definition hkind hself hcontainer ih =>
      exact (ih (houter hs)).namedType (fun _ hd => by cases hd) _ _ _
  | @constructed around s g container arguments hkind hdefinition hne hcontainer hlength
      harguments ih iharguments =>
      have hg : c₁.Issued g := hdefinition ▸ h₁.closed.issued_definition hs
      refine (ih (houter hg)).namedType (forall_of_zip hlength fun p hp => ?_) _ _ _
      exact iharguments p hp (h₁.table.closed.typeArguments hs (List.of_mem_zip hp).1)
  | arrayType hkind helement ih => exact (ih (h₁.closed.issued_typeAt hs)).arrayType _
  | pointerType hkind hpointee ih => exact (ih (h₁.closed.issued_typeAt hs)).pointerType
  | tupleType hkind hlength htypes ih =>
      exact .tupleType (forall_of_zip hlength fun p hp =>
        ih p hp (h₁.closed.issued_memberTypesAt hs _ p.1 (List.of_mem_zip hp).1)) _ _ _
  | anonymousType hkind hlength htypes ih =>
      exact .anonymousType (forall_of_zip hlength fun p hp =>
        ih p hp (h₁.closed.issued_memberTypesAt hs _ p.1 (List.of_mem_zip hp).1)) _ _ _ _
  | @typeParameterOrdinal around s m hkind hm howner =>
      have hself := h₁.definition_eq_none hs hkind (by simp)
      have hp := h₁.table.closed.container hs (by rw [← h₁.containerAt_eq, howner])
      have hmem : s ∈ (c₁.entry m).belongings .typeParameter :=
        (h₁.mem_belongings hp).mpr ⟨hs, hself, by rw [hkind]; rfl, howner⟩
      exact .typeParameterOrdinal hm hmem
  | typeParameter | field | parameter | localVariable =>
      rename_i ih
      intro methods c hstands
      rw [locate]
      exact ((ih (houter hs) methods c hstands).part _ _).bind fun r =>
        .ofCandidates (.notFound _ _)
  | property hkind hcontainer hlength hparameters ih ihparameters =>
      refine (ih (houter hs)).property (forall_of_zip hlength fun p hp => ?_) _ _
      exact ihparameters p hp (h₁.closed.issued_signature hs p.1 (List.of_mem_zip hp).1)
  | method hkind hcontainer hlength hparameters ih ihparameters =>
      refine (ih (houter hs)).method (forall_of_zip hlength fun p hp => ?_) _ _
      exact ihparameters p hp (h₁.closed.issued_signature hs p.1 (List.of_mem_zip hp).1)

end Description

namespace Key

variable {c : Compilation} {s : SymbolId}

/-- Every symbol of a program has a key, and where resolving the key ends in a failure, whatever the
compilation and the options, no link of the failure is a reference that refers to nothing. -/
theorem references_bound (hmade : c.Made Request.Contained) (hsize : c.size < UInt32.size)
    (hs : c.Issued s) :
    ∃ k, ofSymbol c s = .ok k ∧ ∀ (o : ResolveOptions) (scene : Scene),
      (scene.compilation.Made fun t r => r.Issued t) →
      ∀ reason, (k.resolve o scene).1 = .ok (.error reason) →
        ∀ codec detail, .unbound codec detail ∉ reason.chain := by
  have h := hmade.lawful
  obtain ⟨d, k, -, hdescribes, hk, -, hresolve⟩ := resolve_ofSymbol h hs hsize
  refine ⟨k, hk, fun o scene htarget reason hreason => ?_⟩
  obtain ⟨hlocate, -⟩ := hresolve o scene htarget.closed (.inl ⟨_, hreason⟩)
  rw [hlocate, Except.ok.injEq] at hreason
  exact hdescribes.staysBound h hs [] scene.compilation ⟨htarget.closed, by simp, .nil⟩
    reason hreason

/-- The key of a generic method, which refers to its own type parameter, fails for want of the
class. -/
theorem references_bound_generic :
    ∃ k reason, ofSymbol Draft.generic.finish ⟨6⟩ = .ok k ∧
      (k.resolve {} { compilation := Draft.empty.finish }).1 = .ok (.error reason) ∧
      ∀ codec detail, .unbound codec detail ∉ reason.chain := by
  have hissued : Draft.generic.finish.Issued ⟨6⟩ := by
    unfold Compilation.Issued SymbolTable.Issued
    decide
  obtain ⟨k, hk, hbound⟩ := references_bound (.finish Draft.made_generic) (by decide) hissued
  have hreason : (k.resolve {} { compilation := Draft.empty.finish }).1 =
      .ok (.error (.field "MethodSymbolKey" "containingType"
        (.notFound "NamedTypeSymbolKey" "A"))) := by
    cases hk
    decide +kernel
  exact ⟨k, _, hk, hreason, hbound {} _ (.finish .empty) _ hreason⟩

end Key
end Moniker
