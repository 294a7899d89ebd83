import Moniker.Draft
import Moniker.Proofs.Declaring

/-!
# How compilations come about

A compilation is made by a run of requests: declarations to a draft and requests for structural
types, the latter also after the draft is finished. `Compilation.Made allows` is what such runs can
lead to if each request is allowed at the time it is made. `Request.Issued` allows requests that
mention issued symbols only, which is what callers have to see to; under it no request faults
(`Request.run_eq`) and compilations are closed (`Compilation.Made.closed`).
`Request.Contained` also asks for the containment that compilations promise: namespaces under
namespaces, types under namespaces and type definitions, members under type definitions, parameters
under methods and properties, locals under methods, and types where types are expected.
-/

namespace Moniker

/-- A request for a structural type. -/
inductive TypeRequest where
  | array (element : SymbolId) (rank : UInt64)
  | pointer (pointee : SymbolId)
  | constructed (definition : SymbolId) (arguments : List SymbolId)
  | tuple (types : List SymbolId) (names : List (Option String)) (locations : List Location)
  | anonymous (types : List SymbolId) (names : List String) (readOnly : List Bool)
      (locations : List Location)

/-- A request to a draft. -/
inductive Request where
  | file (path : String)
  | limitAnonymousArity (limit : Nat)
  | nameSpace (parent : SymbolId) (name : String)
  | namedType (container : SymbolId) (name : String) (typeParameters : List String)
  | field (owner : SymbolId) (name : String) (type : SymbolId) (location : Location)
  | property (owner : SymbolId) (name : String) (type : SymbolId) (readOnly : Bool)
      (location : Location)
  | indexer (owner : SymbolId) (name : String) (type : SymbolId)
      (parameters : List (String × SymbolId))
  | method (owner : SymbolId) (name : String) (typeParameters : List String)
  | parameter (owner : SymbolId) (name : String) (type : SymbolId)
  | localVariable (owner : SymbolId) (name : String) (type : SymbolId)
  | structural (request : TypeRequest)

namespace TypeRequest

/-- The types that a structural type is made of. -/
def types : TypeRequest → List SymbolId
  | array element _ => [element]
  | pointer pointee => [pointee]
  | constructed _ arguments => arguments
  | tuple types _ _ => types
  | anonymous types _ _ _ => types

/-- The symbols that a request mentions. -/
def symbols : TypeRequest → List SymbolId
  | constructed definition arguments => definition :: arguments
  | r => r.types

/-- What a request makes of a draft. -/
def runDraft : TypeRequest → Draft → Except Fault Draft
  | array element rank, d => .ok (d.array element rank).2
  | pointer pointee, d => .ok (d.pointer pointee).2
  | constructed definition arguments, d => Prod.snd <$> d.construct definition arguments
  | tuple types names locations, d => .ok (d.tuple types names locations).2
  | anonymous types names readOnly locations, d =>
    .ok (d.anonymous types names readOnly locations).2

/-- What a request makes of a compilation. -/
def run : TypeRequest → Compilation → Except Fault Compilation
  | array element rank, c => .ok (c.arrayType element rank).2
  | pointer pointee, c => .ok (c.pointerType pointee).2
  | constructed definition arguments, c => Prod.snd <$> c.construct definition arguments
  | tuple types names locations, c => .ok (c.tupleType types names locations).2
  | anonymous types names readOnly locations, c =>
    .ok (c.anonymousType types names readOnly locations).2

/-- The table after a request. One that is refused leaves the table as it was. -/
def after : TypeRequest → SymbolTable → SymbolTable
  | array element rank, t => (t.array element rank).2
  | pointer pointee, t => (t.pointer pointee).2
  | constructed definition arguments, t =>
    match SymbolTable.checkArguments (t.entry definition) arguments with
    | .ok _ => (t.constructed definition arguments).2
    | .error _ => t
  | tuple types names locations, t =>
    match t.tuple types names locations with
    | .ok answer => answer.2
    | .error _ => t
  | anonymous types names readOnly locations, t =>
    match t.anonymous types names readOnly locations with
    | .ok answer => answer.2
    | .error _ => t

theorem runDraft_eq {d : Draft} (r : TypeRequest) (h : ∀ s ∈ r.symbols, d.table.Issued s) :
    r.runDraft d = .ok { d with table := r.after d.table } := by
  cases r with
  | array element rank => rfl
  | pointer pointee => rfl
  | constructed definition arguments =>
      have hd := h definition (by simp [symbols])
      simp only [runDraft, Draft.construct, SymbolTable.construct_eq hd, after]
      cases SymbolTable.checkArguments (d.table.entry definition) arguments <;> rfl
  | tuple types names locations =>
      simp only [runDraft, Draft.tuple, after]
      cases d.table.tuple types names locations <;> rfl
  | anonymous types names readOnly locations =>
      simp only [runDraft, Draft.anonymous, after]
      cases d.table.anonymous types names readOnly locations <;> rfl

/-- A request to a compilation changes nothing but the table and the count of requests. -/
theorem run_eq {c : Compilation} (r : TypeRequest) (h : ∀ s ∈ r.symbols, c.Issued s) :
    ∃ n, r.run c = .ok { c with table := r.after c.table, structuralRequests := n } := by
  cases r with
  | array element rank => exact ⟨_, rfl⟩
  | pointer pointee => exact ⟨_, rfl⟩
  | constructed definition arguments =>
      have hd := h definition (by simp [symbols])
      simp only [run, Compilation.construct, SymbolTable.construct_eq hd, after]
      refine ⟨c.structuralRequests, ?_⟩
      cases SymbolTable.checkArguments (c.table.entry definition) arguments <;> rfl
  | tuple types names locations =>
      simp only [run, Compilation.tupleType, after]
      refine ⟨c.structuralRequests + 1, ?_⟩
      cases c.table.tuple types names locations <;> rfl
  | anonymous types names readOnly locations =>
      simp only [run, Compilation.anonymousType, after]
      refine ⟨c.structuralRequests + 1, ?_⟩
      cases c.table.anonymous types names readOnly locations <;> rfl

/-- A request leaves a later state of a closed table, which is closed too. -/
theorem after_closed {t : SymbolTable} (r : TypeRequest) (h : t.Closed)
    (hsymbols : ∀ s ∈ r.symbols, t.Issued s) : t.Grows (r.after t) ∧ (r.after t).Closed := by
  cases r with
  | array element rank =>
      have hx := h.array (hsymbols element (by simp [symbols, types])) rank
      exact ⟨hx.grows, hx.closed⟩
  | pointer pointee =>
      have hx := h.pointer (hsymbols pointee (by simp [symbols, types]))
      exact ⟨hx.grows, hx.closed⟩
  | constructed definition arguments =>
      simp only [after]
      split
      · have harguments : ∀ a ∈ arguments, t.Issued a := fun a ha =>
          hsymbols a (by simp [symbols, ha])
        have hx := h.constructed (hsymbols definition (by simp [symbols])) harguments
        exact ⟨hx.grows, hx.closed⟩
      · exact ⟨.refl t, h⟩
  | tuple types names locations =>
      simp only [after]
      split
      · next answer ha =>
          have hx := h.tuple (fun s hs => hsymbols s hs) ha
          exact ⟨hx.grows, hx.closed⟩
      · exact ⟨.refl t, h⟩
  | anonymous types names readOnly locations =>
      simp only [after]
      split
      · next answer ha =>
          have hx := h.anonymous (fun s hs => hsymbols s hs) ha
          exact ⟨hx.grows, hx.closed⟩
      · exact ⟨.refl t, h⟩

end TypeRequest

/-! ## Declarations -/

namespace Draft

variable {d : Draft} {owner : SymbolId} {role : Attachment}

theorem declare_eq (ho : d.table.Issued owner) (x : Symbol) :
    d.declare role owner x =
      .ok (d.table.next, { d with table := d.table.declared role owner x }) := by
  simp only [declare, SymbolTable.declare_eq ho]
  rfl

theorem foldlM_declare_eq {α : Type} (role : Attachment) (f : α → Symbol) (as : List α) :
    ∀ d : Draft, d.table.Issued owner →
      as.foldlM (fun (d : Draft) a => Prod.snd <$> d.declare role owner (f a)) d =
        .ok { d with table := d.table.declaredAll role owner (as.map f) } := by
  induction as with
  | nil => exact fun _ _ => rfl
  | cons a rest ih =>
      intro d ho
      rw [List.foldlM_cons, declare_eq ho]
      exact ih { d with table := d.table.declared role owner (f a) }
        (SymbolTable.issued_declared ho)

/-- A declaration, followed by declarations inside the new symbol. -/
theorem declare_all_eq {α : Type} (ho : d.table.Issued owner) (x : Symbol) (role' : Attachment)
    (f : α → Symbol) (as : List α) :
    (do
      let (id, d) ← d.declare role owner x
      let d ← as.foldlM (fun (d : Draft) a => Prod.snd <$> d.declare role' id (f a)) d
      return (id, d) : Declared) =
      .ok (d.table.next, { d with
        table := (d.table.declared role owner x).declaredAll role' d.table.next (as.map f) }) := by
  have hfold := foldlM_declare_eq role' f as
    { d with table := d.table.declared role owner x } SymbolTable.issued_next_declared
  simp only [declare_eq ho, bind, Except.bind, hfold]
  rfl

end Draft

namespace Request

/-- The symbols that a request mentions. -/
def symbols : Request → List SymbolId
  | file _ | limitAnonymousArity _ => []
  | nameSpace owner _ | namedType owner _ _ | method owner _ _ => [owner]
  | field owner _ type _ | property owner _ type _ _ | parameter owner _ type
  | localVariable owner _ type => [owner, type]
  | indexer owner _ type parameters => owner :: type :: parameters.map (·.2)
  | structural request => request.symbols

/-- What a request makes of a draft. -/
def run : Request → Draft → Except Fault Draft
  | file path, d => .ok (d.file path)
  | limitAnonymousArity limit, d => .ok (d.limitAnonymousArity limit)
  | nameSpace parent name, d => Prod.snd <$> d.nameSpace parent name
  | namedType container name typeParameters, d =>
    Prod.snd <$> d.namedType container name typeParameters
  | field owner name type location, d => Prod.snd <$> d.field owner name type location
  | property owner name type readOnly location, d =>
    Prod.snd <$> d.property owner name type readOnly location
  | indexer owner name type parameters, d => Prod.snd <$> d.indexer owner name type parameters
  | method owner name typeParameters, d => Prod.snd <$> d.method owner name typeParameters
  | parameter owner name type, d => Prod.snd <$> d.parameter owner name type
  | localVariable owner name type, d => Prod.snd <$> d.localVariable owner name type
  | structural request, d => request.runDraft d

/-- An entry for a type parameter. -/
def typeParameterEntry (name : String) : Symbol := { kind := .typeParameter, name := name }

/-- An entry for a parameter. -/
def parameterEntry (parameter : String × SymbolId) : Symbol :=
  { kind := .parameter, name := parameter.1, type := some parameter.2 }

/-- The table after a request. -/
def after : Request → SymbolTable → SymbolTable
  | file _, t => t
  | limitAnonymousArity limit, t => { t with maxAnonymousArity := some limit }
  | nameSpace parent name, t => t.declared .member parent { kind := .nameSpace, name := name }
  | namedType container name typeParameters, t =>
    (t.declared .member container { kind := .namedType, name := name }).declaredAll .typeParameter
      t.next (typeParameters.map typeParameterEntry)
  | field owner name type location, t =>
    t.declared .member owner
      { kind := .field, name := name, type := some type, locations := location.sites }
  | property owner name type readOnly location, t =>
    t.declared .member owner
      { kind := .property, name := name, type := some type, readOnly := readOnly,
        locations := location.sites }
  | indexer owner name type parameters, t =>
    (t.declared .member owner
      { kind := .property, name := name, type := some type, readOnly := true }).declaredAll
        .parameter
      t.next (parameters.map parameterEntry)
  | method owner name typeParameters, t =>
    (t.declared .member owner { kind := .method, name := name }).declaredAll .typeParameter
      t.next (typeParameters.map typeParameterEntry)
  | parameter owner name type, t => t.declared .parameter owner (parameterEntry (name, type))
  | localVariable owner name type, t =>
    t.declared .member owner { kind := .localVariable, name := name, type := some type }
  | structural request, t => request.after t

/-- The draft after a request. -/
def afterDraft (r : Request) (d : Draft) : Draft where
  table := r.after d.table
  files :=
    match r with
    | file path => path :: d.files
    | _ => d.files

/-- Requests that mention issued symbols do not fault. -/
theorem run_eq {d : Draft} (r : Request) (h : ∀ s ∈ r.symbols, d.table.Issued s) :
    r.run d = .ok (r.afterDraft d) := by
  cases r with
  | file path => rfl
  | limitAnonymousArity limit => rfl
  | nameSpace owner name | field owner name type location
  | property owner name type readOnly location | parameter owner name type
  | localVariable owner name type =>
      have ho := h owner (by simp [symbols])
      exact congrArg (Prod.snd <$> ·) (Draft.declare_eq ho _)
  | namedType owner name typeParameters | method owner name typeParameters =>
      have ho := h owner (by simp [symbols])
      exact congrArg (Prod.snd <$> ·)
        (Draft.declare_all_eq ho _ .typeParameter typeParameterEntry typeParameters)
  | indexer owner name type parameters =>
      have ho := h owner (by simp [symbols])
      exact congrArg (Prod.snd <$> ·)
        (Draft.declare_all_eq ho _ .parameter parameterEntry parameters)
  | structural request => exact request.runDraft_eq h

/-- A request leaves no loose ends. -/
theorem after_closed {t : SymbolTable} (r : Request) (h : t.Closed)
    (hsymbols : ∀ s ∈ r.symbols, t.Issued s) :
    (r.after t).Closed ∧ t.size ≤ (r.after t).size := by
  cases r with
  | file path => exact ⟨h, Nat.le_refl _⟩
  | limitAnonymousArity limit => exact ⟨⟨h.references, h.interned⟩, Nat.le_refl _⟩
  | nameSpace owner name =>
      have ho := hsymbols owner (by simp [symbols])
      exact ⟨h.declared ho (by simp [Symbol.references]) _, by simp [after]⟩
  | namedType owner name typeParameters | method owner name typeParameters =>
      have ho := hsymbols owner (by simp [symbols])
      refine ⟨(h.declared ho (by simp [Symbol.references]) _).declaredAll
        SymbolTable.issued_next_declared (fun x hx r hr => ?_) _, ?_⟩
      · obtain ⟨name, -, rfl⟩ := List.mem_map.mp hx
        simp [Symbol.references, typeParameterEntry] at hr
      · simp only [after, SymbolTable.size_declaredAll, SymbolTable.size_declared]
        omega
  | field owner name type location | property owner name type readOnly location
  | parameter owner name type | localVariable owner name type =>
      have ho := hsymbols owner (by simp [symbols])
      have htype := hsymbols type (by simp [symbols])
      exact ⟨h.declared ho (by simpa [Symbol.references, parameterEntry] using htype) _,
        by simp [after]⟩
  | indexer owner name type parameters =>
      have ho := hsymbols owner (by simp [symbols])
      have htype := hsymbols type (by simp [symbols])
      refine ⟨(h.declared ho (by simpa [Symbol.references] using htype) _).declaredAll
        SymbolTable.issued_next_declared (fun x hx r hr => ?_) _, ?_⟩
      · obtain ⟨p, hp, rfl⟩ := List.mem_map.mp hx
        have hr : r = p.2 := by simpa [Symbol.references, parameterEntry] using hr
        refine SymbolTable.issued_declared (hsymbols r ?_)
        simp only [symbols, List.mem_cons, List.mem_map]
        exact .inr (.inr ⟨p, hp, hr.symm⟩)
      · simp only [after, SymbolTable.size_declaredAll, SymbolTable.size_declared]
        omega
  | structural request =>
      obtain ⟨hgrows, hclosed⟩ := request.after_closed h hsymbols
      exact ⟨hclosed, hgrows.size⟩

/-- The request mentions issued symbols only. -/
def Issued (t : SymbolTable) (r : Request) : Prop := ∀ s ∈ r.symbols, t.Issued s

end Request

/-! ## Runs -/

/-- What requests can make of a draft, if each is allowed when it is made. -/
inductive Draft.Made (allows : SymbolTable → Request → Prop) : Draft → Prop
  | empty : Made allows .empty
  | request {d d' : Draft} {r : Request} (hmade : Made allows d) (hallows : allows d.table r)
    (hrun : r.run d = .ok d') : Made allows d'

/-- The compilations that requests lead to, if each is allowed when it is made. -/
inductive Compilation.Made (allows : SymbolTable → Request → Prop) : Compilation → Prop
  | finish {d : Draft} (hmade : d.Made allows) : Made allows d.finish
  | request {c c' : Compilation} {r : TypeRequest} (hmade : Made allows c)
    (hallows : allows c.table (.structural r)) (hrun : r.run c = .ok c') : Made allows c'

/-- A compilation reveals everything, and has the global namespace and the root type that every
draft starts out with. -/
structure Compilation.Plain (c : Compilation) : Prop where
  global : c.global = Draft.global
  universal : c.universal = Draft.object
  hiddenContainers : c.hiddenContainers = []
  hiddenTypes : c.hiddenTypes = []

section Runs

variable {allows : SymbolTable → Request → Prop} (hissued : ∀ t r, allows t r → r.Issued t)
  {P : SymbolTable → Prop} (hempty : P Draft.empty.table)
  (hstep : ∀ t r, P t → allows t r → P (r.after t))

include hissued hempty hstep

/-- What holds of the table of the empty draft and is kept by every request holds of every table
that is made. -/
theorem Draft.Made.table {d : Draft} (h : d.Made allows) : P d.table := by
  induction h with
  | empty => exact hempty
  | request _ hallows hrun ih =>
      rw [Request.run_eq _ (hissued _ _ hallows), Except.ok.injEq] at hrun
      exact hrun ▸ hstep _ _ ih hallows

theorem Compilation.Made.table {c : Compilation} (h : c.Made allows) : P c.table ∧ c.Plain := by
  induction h with
  | finish hmade => exact ⟨hmade.table hissued hempty hstep, rfl, rfl, rfl, rfl⟩
  | request _ hallows hrun ih =>
      obtain ⟨n, hrun'⟩ := TypeRequest.run_eq _ (hissued _ _ hallows)
      rw [hrun', Except.ok.injEq] at hrun
      obtain ⟨htable, hglobal, huniversal, hcontainers, htypes⟩ := ih
      exact hrun ▸ ⟨hstep _ _ htable hallows, hglobal, huniversal, hcontainers, htypes⟩

end Runs

theorem Draft.closed_empty : Draft.empty.table.Closed := by
  have hentries : ∀ i, i < 5 → ∀ r ∈ (Draft.empty.table.entry ⟨i⟩).references, r.index < 5 := by
    decide
  exact ⟨fun s hs r hr => hentries s.index hs r hr, fun shape s hs => by cases hs⟩

/-- Compilations that are made from issued symbols are closed. -/
theorem Compilation.Made.closed {c : Compilation} (h : c.Made fun t r => r.Issued t) :
    c.Closed := by
  obtain ⟨⟨hclosed, hsize⟩, hplain⟩ :=
    h.table (fun _ _ h => h) (P := fun t => t.Closed ∧ 5 ≤ t.size)
      ⟨Draft.closed_empty, by decide⟩ fun t r ht hr => by
        obtain ⟨hclosed, hsize⟩ := r.after_closed ht.1 hr
        exact ⟨hclosed, Nat.le_trans ht.2 hsize⟩
  refine ⟨hclosed, ?_, ?_⟩
  · show c.global.index < c.table.size
    rw [hplain.global]
    exact Nat.lt_of_lt_of_le (by decide) hsize
  · show c.universal.index < c.table.size
    rw [hplain.universal]
    exact Nat.lt_of_lt_of_le (by decide) hsize

end Moniker
