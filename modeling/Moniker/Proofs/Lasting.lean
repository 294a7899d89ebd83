import Mathlib.Logic.Relation
import Moniker.Proofs.Building
import Moniker.Proofs.Queries

/-!
# What lasts

Requests for structural types are all that changes a compilation while keys are resolved.
`Compilation.Leads` says that one state comes from another by such requests, whoever makes them
and whatever they mention. Two things last from then on, and neither needs to know that the
symbols concerned were issued:

* a query that was answered is answered the same (`Lasting`), because entries never change;
* a request that was answered is answered the same and adds nothing (`Settled`), because the
  shape it asked for is there by now, or because it is refused for the same reason.

Only the count of requests goes on (`Recounts`).
-/

namespace Moniker

/-! ## Answers that last -/

section Answers

variable {α β ε : Type}

/-- What the first computation answers, the second answers too. -/
def Lasting (x y : Except ε α) : Prop := ∀ a, x = .ok a → y = .ok a

namespace Lasting

theorem refl (x : Except ε α) : Lasting x x := fun _ h => h

theorem bind {x y : Except ε α} {f g : α → Except ε β} (hx : Lasting x y)
    (hf : ∀ a, Lasting (f a) (g a)) : Lasting (x >>= f) (y >>= g) := by
  intro b h
  cases x with
  | error e => cases h
  | ok a =>
    rw [hx a rfl]
    exact hf a b h

theorem map {x y : Except ε α} (hx : Lasting x y) (f : α → β) : Lasting (f <$> x) (f <$> y) := by
  intro b h
  cases x with
  | error e => cases h
  | ok a =>
    rw [hx a rfl]
    exact h

theorem select {test test' : α → Except ε Bool} (h : ∀ a, Lasting (test a) (test' a))
    (as : List α) : Lasting (Moniker.select test as) (Moniker.select test' as) := by
  induction as with
  | nil => exact refl _
  | cons a rest ih =>
    refine (h a).bind fun passes => ?_
    cases passes with
    | true => exact ih.bind fun _ => refl _
    | false => exact ih

theorem expand {children children' : α → Except ε (List β)}
    (h : ∀ a, Lasting (children a) (children' a)) (as : List α) :
    Lasting (Moniker.expand children as) (Moniker.expand children' as) := by
  induction as with
  | nil => exact refl _
  | cons a rest ih => exact (h a).bind fun _ => ih.bind fun _ => refl _

theorem pick {image? image?' : α → Except ε (Option β)}
    (h : ∀ a, Lasting (image? a) (image?' a)) (as : List α) :
    Lasting (Moniker.pick image? as) (Moniker.pick image?' as) := by
  induction as with
  | nil => exact refl _
  | cons a rest ih =>
    refine (h a).bind fun image => ?_
    cases image with
    | some b => exact ih.bind fun _ => refl _
    | none => exact ih

theorem mapM {f g : α → Except ε β} (h : ∀ a, Lasting (f a) (g a)) (as : List α) :
    Lasting (as.mapM f) (as.mapM g) := by
  induction as with
  | nil => exact refl _
  | cons a rest ih =>
    rw [List.mapM_cons, List.mapM_cons]
    exact (h a).bind fun _ => ih.bind fun _ => refl _

end Lasting

end Answers

namespace Compilation

variable {c c' c'' : Compilation}

/-! ## Queries -/

namespace Grows

theorem lasting_get (h : c.Grows c') (s : SymbolId) : Lasting (c.get s) (c'.get s) := by
  intro x hx
  have hs : c.Issued s := issued_of_get hx
  rwa [get_eq (h.issued hs), h.entry hs, ← get_eq hs]

theorem lasting_typeOrUniversal (h : c.Grows c') (s : SymbolId) :
    Lasting (c.typeOrUniversal s) (c'.typeOrUniversal s) := by
  unfold typeOrUniversal typeOf
  rw [h.universal, h.hiddenTypes]
  split
  · exact .refl _
  · exact ((h.lasting_get s).map _).map _

theorem lasting_parameterTypes (h : c.Grows c') (s : SymbolId) :
    Lasting (c.parameterTypes s) (c'.parameterTypes s) :=
  ((h.lasting_get s).map _).bind fun parameters => .mapM h.lasting_typeOrUniversal parameters

theorem lasting_membersOfKind (h : c.Grows c') (kind : SymbolKind) (s : SymbolId) :
    Lasting (c.membersOfKind kind s) (c'.membersOfKind kind s) :=
  ((h.lasting_get s).map _).bind fun members =>
    .select (fun m => ((h.lasting_get m).map _).bind fun _ => .refl _) members

variable (o : ResolveOptions)

theorem lasting_named (h : c.Grows c') {entries entries' : SymbolId → Except Fault (List SymbolId)}
    (hentries : ∀ s, Lasting (entries s) (entries' s)) (owners : List SymbolId) (name : String) :
    Lasting (c.named o entries owners name) (c'.named o entries' owners name) :=
  (Lasting.expand hentries owners).bind fun symbols =>
    .select (fun s => ((h.lasting_get s).map _).bind fun _ => .refl _) symbols

theorem lasting_membersNamed (h : c.Grows c') (kind : SymbolKind) (owners : List SymbolId)
    (name : String) :
    Lasting (c.membersNamed o kind owners name) (c'.membersNamed o kind owners name) :=
  h.lasting_named o (h.lasting_membersOfKind kind) owners name

theorem lasting_ofArity (h : c.Grows c') (arity : Nat) (symbols : List SymbolId) :
    Lasting (c.ofArity arity symbols) (c'.ofArity arity symbols) :=
  .select (fun s => ((h.lasting_get s).map _).bind fun _ => .refl _) symbols

theorem lasting_typesNamed (h : c.Grows c') (owners : List SymbolId) (name : String) (arity : Nat) :
    Lasting (c.typesNamed o owners name arity) (c'.typesNamed o owners name arity) :=
  (h.lasting_membersNamed o .namedType owners name).bind fun found => h.lasting_ofArity arity found

theorem lasting_methodsNamed (h : c.Grows c') (owners : List SymbolId) (name : String)
    (arity : Nat) :
    Lasting (c.methodsNamed o owners name arity) (c'.methodsNamed o owners name arity) :=
  (h.lasting_membersNamed o .method owners name).bind fun found => h.lasting_ofArity arity found

theorem lasting_propertiesNamed (h : c.Grows c') (owners : List SymbolId) (name : String)
    (types : List SymbolId) :
    Lasting (c.propertiesNamed o owners name types) (c'.propertiesNamed o owners name types) :=
  (h.lasting_membersNamed o .property owners name).bind fun found =>
    .select (fun s => (h.lasting_parameterTypes s).bind fun _ => .refl _) found

theorem lasting_localsNumbered (h : c.Grows c') (methods : List SymbolId) (name : String)
    (ordinal : Nat) :
    Lasting (c.localsNumbered o methods name ordinal) (c'.localsNumbered o methods name ordinal) :=
  .pick (fun m => ((h.lasting_membersOfKind .localVariable m).bind fun locals =>
    .select (fun s => ((h.lasting_get s).map _).bind fun _ => .refl _) locals).bind fun _ =>
      .refl _)
    methods

end Grows

end Compilation

/-! ## Requests -/

theorem SymbolTable.grows_intern {t : SymbolTable} {shape : Shape}
    {build : SymbolTable → SymbolId × SymbolTable} (h : t.Grows (build t).2) :
    t.Grows (t.intern shape build).2 := by
  unfold intern
  split
  · exact .refl t
  · next hnone =>
    refine ⟨h.size, h.entry, fun shape' s hs => ?_, h.limit⟩
    have hne : shape' ≠ shape := by
      rintro rfl
      rw [hnone] at hs
      cases hs
    rw [lookup_cons_of_ne hne]
    exact h.interned shape' s hs

namespace Compilation

variable {α : Type} {c c' c'' : Compilation}

theorem Grows.withTable {t : SymbolTable} (h : c.table.Grows t) : c.Grows { c with table := t } :=
  ⟨h, rfl, rfl, rfl, rfl, rfl⟩

theorem grows_countRequest (c : Compilation) : c.Grows c.countRequest :=
  ⟨.refl _, rfl, rfl, rfl, rfl, rfl⟩

theorem grows_settle (c : Compilation) {check : Except Rejection Unit} {shape : Shape}
    {build : SymbolTable → SymbolId × SymbolTable} (h : c.table.Grows (build c.table).2) :
    c.Grows (c.settle (check.map fun _ => c.table.intern shape build)).2 := by
  cases check with
  | error rejection => exact .refl c
  | ok _ => exact .withTable (SymbolTable.grows_intern h)

/-- The second compilation is the first, but for the count of requests. -/
def Recounts (c c' : Compilation) : Prop :=
  c' = { c with structuralRequests := c'.structuralRequests }

theorem Recounts.refl (c : Compilation) : c.Recounts c := rfl

theorem Recounts.trans (h : c.Recounts c') (h' : c'.Recounts c'') : c.Recounts c'' := by
  unfold Recounts at *
  rw [h', h]

theorem Recounts.grows (h : c.Recounts c') : c.Grows c' := by
  rw [h]
  exact ⟨.refl _, rfl, rfl, rfl, rfl, rfl⟩

theorem Recounts.size_eq (h : c.Recounts c') : c'.size = c.size := by
  rw [h]
  rfl

/-- A request that was settled before comes to the same and leaves everything as it is: it is
refused again, or finds the shape that it asks for. -/
theorem settle_of_grows (c c' : Compilation) {check : Except Rejection Unit} {shape : Shape}
    {build : SymbolTable → SymbolId × SymbolTable}
    (hgrows : (c.settle (check.map fun _ => c.table.intern shape build)).2.table.Grows c'.table) :
    c'.settle (check.map fun _ => c'.table.intern shape build) =
      ((c.settle (check.map fun _ => c.table.intern shape build)).1, c') := by
  cases check with
  | error rejection => rfl
  | ok _ =>
    have hlookup : c'.table.interned.lookup shape = some (c.table.intern shape build).1 :=
      hgrows.interned _ _ (SymbolTable.lookup_intern shape build c.table)
    show (Except.ok (c'.table.intern shape build).1,
      { c' with table := (c'.table.intern shape build).2 }) = _
    rw [SymbolTable.intern_of_lookup hlookup]
    rfl

/-- One state comes from another by requests for structural types. -/
def Leads : Compilation → Compilation → Prop :=
  Relation.ReflTransGen fun c c' => ∃ r : TypeRequest, r.run c = .ok c'

theorem Leads.refl (c : Compilation) : c.Leads c := Relation.ReflTransGen.refl

theorem Leads.trans (h : c.Leads c') (h' : c'.Leads c'') : c.Leads c'' :=
  Relation.ReflTransGen.trans h h'

theorem Leads.request {r : TypeRequest} (h : r.run c = .ok c') : c.Leads c' :=
  Relation.ReflTransGen.single ⟨r, h⟩

/-- A constructed type is asked for with a definition that the compilation knows. -/
theorem construct_eq_ok {definition : SymbolId} {arguments : List SymbolId}
    {answer : Except Rejection SymbolId × Compilation}
    (h : c.construct definition arguments = .ok answer) :
    ∃ generic, c.get definition = .ok generic ∧
      answer = c.settle ((SymbolTable.checkArguments generic arguments).map fun _ =>
        c.table.intern (.constructed definition arguments)
          (SymbolTable.add { kind := .namedType, name := generic.name,
                             container := generic.container, definition := some definition,
                             typeArguments := arguments })) := by
  unfold construct SymbolTable.construct at h
  cases hget : c.table.get definition with
  | error fault =>
    rw [hget] at h
    cases h
  | ok generic =>
    rw [hget] at h
    cases h
    exact ⟨generic, hget, rfl⟩

/-- A request only adds to a compilation. -/
theorem grows_request {r : TypeRequest} (h : r.run c = .ok c') : c.Grows c' := by
  cases r with
  | array element rank =>
    cases h
    exact .withTable (SymbolTable.grows_intern (SymbolTable.grows_add _ _))
  | pointer pointee =>
    cases h
    exact .withTable (SymbolTable.grows_intern (SymbolTable.grows_add _ _))
  | constructed definition arguments =>
    rw [TypeRequest.run] at h
    cases hanswer : c.construct definition arguments with
    | error fault =>
      rw [hanswer] at h
      cases h
    | ok answer =>
      rw [hanswer] at h
      cases h
      obtain ⟨generic, -, rfl⟩ := construct_eq_ok hanswer
      exact grows_settle c (SymbolTable.grows_add _ _)
  | tuple types names locations =>
    cases h
    rw [tupleType, SymbolTable.tuple_eq]
    exact (grows_countRequest c).trans (grows_settle _ (SymbolTable.grows_addWithMembers _ _ _))
  | anonymous types names readOnly locations =>
    cases h
    rw [anonymousType, SymbolTable.anonymous_eq]
    exact (grows_countRequest c).trans (grows_settle _ (SymbolTable.grows_addWithMembers _ _ _))

theorem Leads.grows (h : Leads c c') : c.Grows c' := by
  induction h with
  | refl => exact .refl c
  | tail _ hstep ih =>
    obtain ⟨r, hrun⟩ := hstep
    exact ih.trans (grows_request hrun)

/-- A request that a compilation always answers, and that every later state answers the same
without adding anything. -/
structure Settled (request : Compilation → α × Compilation) : Prop where
  leads : ∀ c, Leads c (request c).2
  again : ∀ c c' : Compilation, (request c).2.Grows c' →
    (request c').1 = (request c).1 ∧ c'.Recounts (request c').2

theorem settled_arrayType (element : SymbolId) (rank : UInt64) :
    Settled (·.arrayType element rank) where
  leads c := .request (r := .array element rank) rfl
  again c c' hgrows := by
    have hlookup := hgrows.table.interned _ _ (SymbolTable.lookup_intern (.array element rank)
      (SymbolTable.add { kind := .arrayType, name := "", type := some element, rank := rank })
      c.table)
    simp only [arrayType, SymbolTable.array, SymbolTable.intern_of_lookup hlookup]
    exact ⟨trivial, .refl c'⟩

theorem settled_pointerType (pointee : SymbolId) : Settled (·.pointerType pointee) where
  leads c := .request (r := .pointer pointee) rfl
  again c c' hgrows := by
    have hlookup := hgrows.table.interned _ _ (SymbolTable.lookup_intern (.pointer pointee)
      (SymbolTable.add { kind := .pointerType, name := "", type := some pointee }) c.table)
    simp only [pointerType, SymbolTable.pointer, SymbolTable.intern_of_lookup hlookup]
    exact ⟨trivial, .refl c'⟩

theorem settled_tupleType (types : List SymbolId) (names : List (Option String))
    (locations : List Location) : Settled (·.tupleType types names locations) where
  leads c := .request (r := .tuple types names locations) rfl
  again c c' hgrows := by
    have h : c'.tupleType types names locations =
        ((c.tupleType types names locations).1, c'.countRequest) := by
      simp only [tupleType, SymbolTable.tuple_eq] at hgrows ⊢
      exact settle_of_grows c.countRequest c'.countRequest hgrows.table
    rw [h]
    exact ⟨rfl, rfl⟩

theorem settled_anonymousType (types : List SymbolId) (names : List String) (readOnly : List Bool)
    (locations : List Location) : Settled (·.anonymousType types names readOnly locations) where
  leads c := .request (r := .anonymous types names readOnly locations) rfl
  again c c' hgrows := by
    -- the cap on properties is part of what a compilation never changes
    have hlimit : c'.table.maxAnonymousArity = c.table.maxAnonymousArity :=
      ((grows_request (r := .anonymous types names readOnly locations) rfl).trans
        hgrows).table.limit
    have h : c'.anonymousType types names readOnly locations =
        ((c.anonymousType types names readOnly locations).1, c'.countRequest) := by
      simp only [anonymousType, SymbolTable.anonymous_eq, countRequest, hlimit] at hgrows ⊢
      exact settle_of_grows c.countRequest c'.countRequest hgrows.table
    rw [h]
    exact ⟨rfl, rfl⟩

theorem leads_construct {definition : SymbolId} {arguments : List SymbolId}
    {answer : Except Rejection SymbolId × Compilation}
    (h : c.construct definition arguments = .ok answer) : Leads c answer.2 :=
  .request (r := .constructed definition arguments) (by rw [TypeRequest.run, h]; rfl)

/-- A request for a constructed type that was answered is answered the same later on. -/
theorem construct_again {definition : SymbolId} {arguments : List SymbolId}
    {answer : Except Rejection SymbolId × Compilation}
    (h : c.construct definition arguments = .ok answer) (hgrows : answer.2.Grows c') :
    c'.construct definition arguments = .ok (answer.1, c') := by
  have hbefore : c.Grows c' := (leads_construct h).grows.trans hgrows
  obtain ⟨generic, hget, rfl⟩ := construct_eq_ok h
  have hget' : c'.table.get definition = .ok generic := hbefore.lasting_get definition generic hget
  unfold construct SymbolTable.construct
  rw [hget']
  exact congrArg Except.ok (settle_of_grows c c' hgrows.table)

end Compilation
end Moniker
