import Moniker.Proofs.Containment
import Moniker.Proofs.Lasting

/-!
# Asking for shapes

The five requests for structural types are one: the parts are looked at, and then the shape is
interned, for which a type is issued together with its members unless the shape has an answer. That
is `Compilation.ask`, and nothing but the shape and the locations of the members goes into it.

A table that comes from another by such requests `Traces` it: what was issued since then goes back
to one shape each that had no answer before, and looks as that shape says (`SymbolTable.Erected`).
-/

namespace Moniker

/-- The entry without its declaration sites. -/
def Symbol.unplaced (x : Symbol) : Symbol := { x with locations := [] }

namespace Shape

/-- The symbols that a shape mentions. -/
def symbols : Shape → List SymbolId
  | array element _ => [element]
  | pointer pointee => [pointee]
  | constructed definition arguments => definition :: arguments
  | tuple types _ => types
  | anonymous types _ _ => types

/-- The entry of the types of a shape, but for their members. -/
def head (t : SymbolTable) : Shape → Symbol
  | array element rank => { kind := .arrayType, name := "", type := some element, rank := rank }
  | pointer pointee => { kind := .pointerType, name := "", type := some pointee }
  | constructed definition arguments =>
    { kind := .namedType, name := (t.entry definition).name,
      container := (t.entry definition).container, definition := some definition,
      typeArguments := arguments }
  | tuple _ _ => { kind := .tupleType, name := "" }
  | anonymous _ _ _ => { kind := .anonymousType, name := "" }

/-- The entries of the members of a type of a shape, which lie where they are said to. -/
def fields (locations : List Location) : Shape → List Symbol
  | tuple types names => SymbolTable.tupleFields types names locations
  | anonymous types names readOnly =>
    SymbolTable.anonymousProperties types names readOnly locations
  | _ => []

/-- The entries of the members without their places. -/
def members (shape : Shape) : List Symbol := shape.fields (shape.symbols.map fun _ => .nowhere)

/-- Whether the parts of a shape fit together. -/
def check (t : SymbolTable) (locations : List Location) : Shape → Except Rejection Unit
  | constructed definition arguments =>
    SymbolTable.checkArguments (t.entry definition) arguments
  | tuple types names => SymbolTable.checkTuple types names locations
  | anonymous types names readOnly =>
    SymbolTable.checkAnonymous t.maxAnonymousArity types names readOnly locations
  | _ => .ok ()

/-- The generic definition that a type of the shape is made from. -/
def generic? : Shape → Option SymbolId
  | constructed definition _ => some definition
  | _ => none

theorem mem_symbols_of_generic? {g : SymbolId} (shape : Shape) (hg : shape.generic? = some g) :
    g ∈ shape.symbols := by
  cases shape with
  | constructed definition arguments => exact Option.some.inj hg ▸ List.mem_cons_self
  | array _ _ | pointer _ | tuple _ _ | anonymous _ _ _ => cases hg

theorem kind_head (t : SymbolTable) (shape : Shape) : (shape.head t).kind = shape.kind := by
  cases shape <;> rfl

/-- A head only depends on the entry of the definition. -/
theorem head_congr {t t' : SymbolTable} {shape : Shape}
    (h : ∀ g, shape.generic? = some g → t'.entry g = t.entry g) : shape.head t' = shape.head t := by
  cases shape with
  | constructed g arguments => rw [head, head, h g rfl]
  | array _ _ | pointer _ | tuple _ _ | anonymous _ _ _ => rfl

/-- Whether parts fit together is a matter of the entry of the definition and of the arity cap. -/
theorem check_congr {t t' : SymbolTable} {sites : List Location} {shape : Shape}
    (h : ∀ g, shape.generic? = some g → t'.entry g = t.entry g)
    (hlimit : t'.maxAnonymousArity = t.maxAnonymousArity) :
    shape.check t' sites = shape.check t sites := by
  cases shape with
  | constructed g arguments => rw [check, check, h g rfl]
  | anonymous types names readOnly => rw [check, check, hlimit]
  | array _ _ | pointer _ | tuple _ _ => rfl

theorem tupleFields_unplaced (types : List SymbolId) (names : List (Option String))
    (locations : List Location) (h : types.length = locations.length) :
    (SymbolTable.tupleFields types names locations).map Symbol.unplaced =
      SymbolTable.tupleFields types names (types.map fun _ => .nowhere) := by
  induction types generalizing names locations with
  | nil => rfl
  | cons type types ih =>
    cases locations with
    | nil => cases h
    | cons location locations =>
      cases names with
      | nil => rfl
      | cons name names =>
        exact congrArg (List.cons _) (ih names locations (Nat.succ.inj h))

theorem anonymousProperties_unplaced (types : List SymbolId) (names : List String)
    (readOnly : List Bool) (locations : List Location) (h : types.length = locations.length) :
    (SymbolTable.anonymousProperties types names readOnly locations).map Symbol.unplaced =
      SymbolTable.anonymousProperties types names readOnly (types.map fun _ => .nowhere) := by
  induction types generalizing names readOnly locations with
  | nil => rfl
  | cons type types ih =>
    cases locations with
    | nil => cases h
    | cons location locations =>
      cases names with
      | nil => rfl
      | cons name names =>
        cases readOnly with
        | nil => rfl
        | cons fixed readOnly =>
          exact congrArg (List.cons _) (ih names readOnly locations (Nat.succ.inj h))

/-- Where there is a place for every member, the members are those of the shape. -/
theorem fields_unplaced {t : SymbolTable} {locations : List Location} {shape : Shape}
    (hcheck : shape.check t locations = .ok ()) :
    (shape.fields locations).map Symbol.unplaced = shape.members := by
  cases shape with
  | array _ _ | pointer _ | constructed _ _ => rfl
  | tuple types names =>
    exact tupleFields_unplaced types names locations (SymbolTable.lengths_of_checkTuple hcheck).2
  | anonymous types names readOnly =>
    exact anonymousProperties_unplaced types names readOnly locations
      (SymbolTable.lengths_of_checkAnonymous hcheck).2.2.symm

end Shape

/-! ## Requests -/

namespace SymbolTable

variable {t t' t₀ : SymbolTable} {shape shape' : Shape} {locations : List Location} {s : SymbolId}

/-- The answer to a shape whose parts fit together. -/
def ask (shape : Shape) (locations : List Location) (t : SymbolTable) : SymbolId × SymbolTable :=
  t.intern shape (addWithMembers (shape.head t) (shape.fields locations))

theorem array_eq_ask (element : SymbolId) (rank : UInt64) :
    t.array element rank = t.ask (.array element rank) [] :=
  congrArg (t.intern _) (funext fun t => add_eq_addWithMembers rfl t)

theorem pointer_eq_ask (pointee : SymbolId) : t.pointer pointee = t.ask (.pointer pointee) [] :=
  congrArg (t.intern _) (funext fun t => add_eq_addWithMembers rfl t)

theorem constructed_eq_ask (definition : SymbolId) (arguments : List SymbolId) :
    t.constructed definition arguments = t.ask (.constructed definition arguments) [] :=
  congrArg (t.intern _) (funext fun t => add_eq_addWithMembers rfl t)

theorem grows_ask (shape : Shape) (locations : List Location) (t : SymbolTable) :
    t.Grows (t.ask shape locations).2 :=
  grows_intern (grows_addWithMembers _ _ _)

/-- Asking for a shape of issued symbols leaves no loose ends. -/
theorem Closed.ask (h : t.Closed) (hsymbols : ∀ p ∈ shape.symbols, t.Issued p)
    (locations : List Location) : t.Extends (t.ask shape locations) := by
  refine .intern h (h.extends_addWithMembers (fun r hr => ?_) fun x hx r hr => hsymbols r ?_)
  · cases shape with
    | array element rank | pointer pointee =>
      simp only [Shape.head, Symbol.references, Option.toList_some, Option.toList_none,
        List.append_nil, List.nil_append] at hr
      exact hsymbols r hr
    | constructed definition arguments =>
      have hdefinition : t.Issued definition := hsymbols definition (by simp [Shape.symbols])
      simp only [Shape.head, Symbol.references, Option.toList_some, Option.toList_none,
        List.append_nil, List.mem_append, Option.mem_toList, List.mem_singleton] at hr
      rcases hr with (hr | hr) | rfl
      · exact h.container hdefinition hr
      · exact hsymbols r (by simp [Shape.symbols, hr])
      · exact hdefinition
    | tuple types names | anonymous types names readOnly =>
      simp [Shape.head, Symbol.references] at hr
  · cases shape with
    | array _ _ | pointer _ | constructed _ _ => cases hx
    | tuple types names => exact references_tupleFields x hx r hr
    | anonymous types names readOnly => exact references_anonymousProperties x hx r hr

/-- What a new answer leaves behind. -/
theorem ask_of_none (h : t.interned.lookup shape = none) :
    t.ask shape locations = (t.next, { (t.addWithMembers (shape.head t) (shape.fields locations)).2
      with interned := (shape, t.next) :: t.interned }) := by
  unfold ask intern
  rw [h]
  rfl

/-- Every shape but the one asked for has the answer that it had before. -/
theorem lookup_ask (hs : (t.ask shape locations).2.interned.lookup shape' = some s) :
    t.interned.lookup shape' = some s ∨ shape' = shape := by
  by_cases heq : shape' = shape
  · exact .inr heq
  · left
    cases h : t.interned.lookup shape with
    | some _ => rwa [ask, intern_of_lookup h] at hs
    | none => rwa [ask_of_none h, lookup_cons_of_ne heq] at hs

/-! ## What was issued since -/

/-- A shape without an answer in the first table has one in the second. -/
structure New (t₀ t : SymbolTable) (shape : Shape) (s : SymbolId) : Prop where
  before : t₀.interned.lookup shape = none
  now : t.interned.lookup shape = some s

/-- A type that was issued since the first table, with its members, looks as its shape says. -/
structure Erected (t₀ t : SymbolTable) (shape : Shape) (s : SymbolId) : Prop where
  new : ¬ t₀.Issued s
  issued : t.Issued s
  entry : t.entry s = { shape.head t with members := (t.entry s).members }
  generic : ∀ g, shape.generic? = some g → t.Issued g
  nodup : (t.entry s).members.Nodup
  member : ∀ m ∈ (t.entry s).members, ¬ t₀.Issued m ∧ t.Issued m
  members : (t.entry s).members.map (fun m => (t.entry m).unplaced) =
    shape.members.map fun x => { x with container := some s }

theorem Erected.kind (h : t₀.Erected t shape s) : (t.entry s).kind = shape.kind := by
  rw [h.entry]
  exact shape.kind_head t

/-- The entry of a member is that of the shape's member at its place. -/
theorem Erected.entry_member (h : t₀.Erected t shape s) {m : SymbolId} {i : Nat}
    (hm : (t.entry s).members[i]? = some m) :
    ∃ x, shape.members[i]? = some x ∧
      (t.entry m).unplaced = { x with container := some s } := by
  have hat := congrArg (fun xs : List Symbol => xs[i]?) h.members
  simp only [List.getElem?_map, hm, Option.map_some] at hat
  cases hx : shape.members[i]? with
  | none =>
    rw [hx] at hat
    cases hat
  | some x =>
    rw [hx] at hat
    exact ⟨x, rfl, Option.some.inj hat⟩

theorem Erected.grows (h : t₀.Erected t shape s) (hgrows : t.Grows t') : t₀.Erected t' shape s := by
  have hentry : t'.entry s = t.entry s := hgrows.entry s h.issued
  have hhead : shape.head t' = shape.head t :=
    Shape.head_congr fun g hg => hgrows.entry g (h.generic g hg)
  refine ⟨h.new, hgrows.issued h.issued, ?_, fun g hg => hgrows.issued (h.generic g hg), ?_, ?_, ?_⟩
  · rw [hentry, hhead]
    exact h.entry
  · rw [hentry]
    exact h.nodup
  · rw [hentry]
    exact fun m hm => ⟨(h.member m hm).1, hgrows.issued (h.member m hm).2⟩
  · rw [hentry, ← h.members]
    exact List.map_congr_left fun m hm => by rw [hgrows.entry m (h.member m hm).2]

/-- What is built for a shape looks as the shape says. -/
theorem erected_ask (hgrows : t₀.Grows t) (hnone : t.interned.lookup shape = none)
    (hcheck : shape.check t locations = .ok ())
    (hgeneric : ∀ g, shape.generic? = some g → t.Issued g) :
    t₀.Erected (t.ask shape locations).2 shape t.next := by
  have hlater := grows_ask shape locations t
  have hsize : t₀.size ≤ t.size := hgrows.size
  have hentry : (t.ask shape locations).2.entry t.next =
      { shape.head t with members := t.memberIds (shape.fields locations).length } := by
    rw [ask_of_none hnone]
    exact entry_addWithMembers_next _ _ t
  have hissued : ∀ s : SymbolId, (t.ask shape locations).2.Issued s ↔
      s.index < t.size + 1 + (shape.fields locations).length := by
    intro s
    rw [ask_of_none hnone, ← size_addWithMembers (shape.head t)]
    rfl
  have hhead : shape.head (t.ask shape locations).2 = shape.head t :=
    Shape.head_congr fun g hg => hlater.entry g (hgeneric g hg)
  refine ⟨?_, ?_, ?_, fun g hg => hlater.issued (hgeneric g hg), ?_, ?_, ?_⟩
  · show ¬ t.size < t₀.size
    omega
  · rw [hissued]
    show t.size < _
    omega
  · rw [hentry, hhead]
  · rw [hentry]
    exact nodup_memberIds t _
  · rw [hentry]
    intro m hm
    obtain ⟨i, hi, rfl⟩ := mem_memberIds.mp hm
    rw [hissued]
    refine ⟨?_, ?_⟩
    · show ¬ t.size + 1 + i < t₀.size
      omega
    · show t.size + 1 + i < _
      omega
  · rw [hentry, ← Shape.fields_unplaced hcheck]
    refine List.ext_getElem (by simp) fun i hi hi' => ?_
    have hlt : i < (shape.fields locations).length := by simpa using hi'
    have hmember : (t.ask shape locations).2.entry ⟨t.size + 1 + i⟩ =
        { (shape.fields locations)[i] with container := some t.next } := by
      rw [ask_of_none hnone]
      exact entry_addWithMembers_member hlt
    simp only [memberIds, List.getElem_map, List.getElem_range, hmember]
    rfl

/-- The second table is a later state of the first, and what is new in it goes back to shapes. -/
structure Traces (t₀ t : SymbolTable) : Prop where
  grows : t₀.Grows t
  erected : ∀ shape s, t₀.New t shape s → t₀.Erected t shape s
  injective : ∀ shape shape' s, t₀.New t shape s → t₀.New t shape' s → shape = shape'

theorem Traces.refl (t : SymbolTable) : t.Traces t where
  grows := .refl t
  erected shape s hnew := by
    have := hnew.before.symm.trans hnew.now
    cases this
  injective shape shape' s hnew _ := by
    have := hnew.before.symm.trans hnew.now
    cases this

theorem Traces.ask (h : t₀.Traces t) (hcheck : shape.check t locations = .ok ())
    (hgeneric : ∀ g, shape.generic? = some g → t.Issued g) :
    t₀.Traces (t.ask shape locations).2 := by
  cases hlookup : t.interned.lookup shape with
  | some s =>
    rw [SymbolTable.ask, intern_of_lookup hlookup]
    exact h
  | none =>
    have hgrows := grows_ask shape locations t
    have herected := erected_ask h.grows hlookup hcheck hgeneric
    have hnow : (t.ask shape locations).2.interned.lookup shape = some t.next := by
      rw [ask_of_none hlookup]
      exact List.lookup_cons_self
    -- a new answer is the one just given, or was new before
    have hcases : ∀ shape' s, t₀.New (t.ask shape locations).2 shape' s →
        (shape' = shape ∧ s = t.next) ∨ t₀.New t shape' s := by
      intro shape' s hnew
      rcases lookup_ask hnew.now with hold | rfl
      · exact .inr ⟨hnew.before, hold⟩
      · exact .inl ⟨rfl, Option.some.inj (hnew.now.symm.trans hnow)⟩
    refine ⟨h.grows.trans hgrows, fun shape' s hnew => ?_, fun shape₁ shape₂ s hnew₁ hnew₂ => ?_⟩
    · rcases hcases shape' s hnew with ⟨rfl, rfl⟩ | hold
      · exact herected
      · exact (h.erected shape' s hold).grows hgrows
    · have hne : ∀ shape', t₀.New t shape' s → s ≠ t.next := by
        rintro shape' hold rfl
        exact not_issued_next (h.erected shape' _ hold).issued
      rcases hcases shape₁ s hnew₁ with ⟨rfl, heq⟩ | hold₁ <;>
        rcases hcases shape₂ s hnew₂ with ⟨rfl, heq'⟩ | hold₂
      · rfl
      · exact absurd heq (hne _ hold₂)
      · exact absurd heq' (hne _ hold₁)
      · exact h.injective shape₁ shape₂ s hold₁ hold₂

/-- What may become of a table that is asked for a shape: nothing, or the shape has an answer. -/
inductive Asked (t : SymbolTable) : SymbolTable → Prop
  | same : Asked t t
  | shape {shape : Shape} {locations : List Location} (hcheck : shape.check t locations = .ok ())
    (hgeneric : ∀ g, shape.generic? = some g → t.Issued g) : Asked t (t.ask shape locations).2

theorem Traces.asked (h : t₀.Traces t) (hasked : t.Asked t') : t₀.Traces t' := by
  cases hasked with
  | same => exact h
  | shape hcheck hgeneric => exact h.ask hcheck hgeneric

/-! ## Shapes of issued symbols -/

/-- Shapes with an answer mention issued symbols only. -/
def Grounded (t : SymbolTable) : Prop :=
  ∀ shape s, t.interned.lookup shape = some s → ∀ p ∈ shape.symbols, t.Issued p

theorem Grounded.ask (h : t.Grounded) (hsymbols : ∀ p ∈ shape.symbols, t.Issued p) :
    (t.ask shape locations).2.Grounded := by
  intro shape' s hs p hp
  apply (grows_ask shape locations t).issued
  rcases lookup_ask hs with hold | rfl
  · exact h shape' s hold p hp
  · exact hsymbols p hp

theorem interned_declaredAll {role : Attachment} {owner : SymbolId} (xs : List Symbol)
    (t : SymbolTable) : (t.declaredAll role owner xs).interned = t.interned := by
  induction xs generalizing t with
  | nil => rfl
  | cons x rest ih => rw [declaredAll_cons, ih, interned_declared]

end SymbolTable

open SymbolTable

theorem TypeRequest.after_grounded {t : SymbolTable} (r : TypeRequest) (h : t.Grounded)
    (hsymbols : ∀ s ∈ r.symbols, t.Issued s) : (r.after t).Grounded := by
  cases r with
  | array element rank =>
    rw [after, array_eq_ask]
    exact h.ask hsymbols
  | pointer pointee =>
    rw [after, pointer_eq_ask]
    exact h.ask hsymbols
  | constructed definition arguments =>
    simp only [after]
    split
    · rw [constructed_eq_ask]
      exact h.ask hsymbols
    · exact h
  | tuple types names locations =>
    simp only [after, tuple_eq]
    cases checkTuple types names locations with
    | error _ => exact h
    | ok _ =>
      have hask : (t.ask (.tuple types names) locations).2.Grounded := h.ask hsymbols
      exact hask
  | anonymous types names readOnly locations =>
    simp only [after, anonymous_eq]
    cases checkAnonymous t.maxAnonymousArity types names readOnly locations with
    | error _ => exact h
    | ok _ =>
      have hask : (t.ask (.anonymous types names readOnly) locations).2.Grounded := h.ask hsymbols
      exact hask

/-- Declarations leave the answers as they are. -/
theorem Request.interned_after {t : SymbolTable} {r : Request}
    (hr : ∀ request, r ≠ .structural request) :
    (r.after t).interned = t.interned := by
  cases r with
  | file _ | limitAnonymousArity _ | nameSpace _ _ | field _ _ _ _ | property _ _ _ _ _
  | parameter _ _ _ | localVariable _ _ _ => rfl
  | namedType _ _ _ | method _ _ _ | indexer _ _ _ _ => exact interned_declaredAll _ _
  | structural request => exact absurd rfl (hr request)

theorem Request.after_grounded {t : SymbolTable} (r : Request) (hclosed : t.Closed)
    (h : t.Grounded) (hr : r.Issued t) : (r.after t).Grounded := by
  by_cases hstructural : ∃ request, r = .structural request
  · obtain ⟨request, rfl⟩ := hstructural
    exact request.after_grounded h hr
  · intro shape s hs p hp
    rw [interned_after fun request heq => hstructural ⟨request, heq⟩] at hs
    exact Nat.lt_of_lt_of_le (h shape s hs p hp) (r.after_closed hclosed hr).2

namespace Compilation

variable {c c' c₀ : Compilation}

/-- Compilations that are made from issued symbols have answers for shapes of issued symbols. -/
theorem Made.grounded (h : c.Made fun t r => r.Issued t) : c.table.Grounded :=
  (h.table (fun _ _ hr => hr) (P := fun t => t.Closed ∧ t.Grounded)
    ⟨Draft.closed_empty, fun shape s hs => by cases hs⟩ fun t r ht hr =>
      ⟨(r.after_closed ht.1 hr).1, r.after_grounded ht.1 ht.2 hr⟩).1.2

/-! ## Asking compilations -/

/-- What a request for a shape comes to. -/
def ask (shape : Shape) (locations : List Location) (c : Compilation) :
    Except Rejection SymbolId × Compilation :=
  c.settle ((shape.check c.table locations).map fun _ => c.table.ask shape locations)

theorem arrayType_eq_ask (element : SymbolId) (rank : UInt64) :
    c.ask (.array element rank) [] =
      (.ok (c.arrayType element rank).1, (c.arrayType element rank).2) := by
  rw [arrayType, array_eq_ask]
  rfl

theorem pointerType_eq_ask (pointee : SymbolId) :
    c.ask (.pointer pointee) [] = (.ok (c.pointerType pointee).1, (c.pointerType pointee).2) := by
  rw [pointerType, pointer_eq_ask]
  rfl

theorem constructAt_eq_ask (arguments : List SymbolId) (definition : SymbolId) :
    c.constructAt arguments definition = c.ask (.constructed definition arguments) [] := by
  rw [constructAt, constructed_eq_ask]
  rfl

theorem tupleType_eq_ask (types : List SymbolId) (names : List (Option String))
    (locations : List Location) :
    c.tupleType types names locations = c.countRequest.ask (.tuple types names) locations := by
  rw [tupleType, tuple_eq]
  rfl

theorem anonymousType_eq_ask (types : List SymbolId) (names : List String) (readOnly : List Bool)
    (locations : List Location) :
    c.anonymousType types names readOnly locations =
      c.countRequest.ask (.anonymous types names readOnly) locations := by
  rw [anonymousType, anonymous_eq]
  rfl

/-- A shape whose parts fit together is asked of the table. -/
theorem ask_of_check {shape : Shape} {locations : List Location}
    (hcheck : shape.check c.table locations = .ok ()) :
    c.ask shape locations = (.ok (c.table.ask shape locations).1,
      { c with table := (c.table.ask shape locations).2 }) := by
  rw [ask, hcheck]
  rfl

theorem grows_ask (shape : Shape) (locations : List Location) (c : Compilation) :
    c.Grows (c.ask shape locations).2 :=
  grows_settle c (grows_addWithMembers _ _ _)

theorem asked_ask (shape : Shape) (locations : List Location)
    (hgeneric : ∀ g, shape.generic? = some g → c.Issued g) :
    c.table.Asked (c.ask shape locations).2.table := by
  unfold ask
  cases hcheck : shape.check c.table locations with
  | error _ => exact .same
  | ok _ => exact .shape hcheck hgeneric

/-- A request leaves what it finds, or what asking for a shape leaves. -/
theorem asked_run {r : TypeRequest} (hrun : r.run c = .ok c') : c.table.Asked c'.table := by
  cases r with
  | array element rank =>
    cases hrun
    have hask := asked_ask (c := c) (.array element rank) [] (by simp [Shape.generic?])
    rwa [arrayType_eq_ask] at hask
  | pointer pointee =>
    cases hrun
    have hask := asked_ask (c := c) (.pointer pointee) [] (by simp [Shape.generic?])
    rwa [pointerType_eq_ask] at hask
  | constructed definition arguments =>
    rw [TypeRequest.run] at hrun
    cases hanswer : c.construct definition arguments with
    | error fault =>
      rw [hanswer] at hrun
      cases hrun
    | ok answer =>
      rw [hanswer] at hrun
      cases hrun
      obtain ⟨generic, hget, -⟩ := construct_eq_ok hanswer
      have hissued : c.Issued definition := issued_of_get hget
      rw [construct_eq hissued, Except.ok.injEq] at hanswer
      rw [← hanswer, constructAt_eq_ask]
      exact asked_ask _ _ fun g hg => Option.some.inj hg ▸ hissued
  | tuple types names locations =>
    cases hrun
    rw [tupleType_eq_ask]
    exact asked_ask (c := c.countRequest) _ _ (by simp [Shape.generic?])
  | anonymous types names readOnly locations =>
    cases hrun
    rw [anonymousType_eq_ask]
    exact asked_ask (c := c.countRequest) _ _ (by simp [Shape.generic?])

/-- What is new after any number of requests goes back to shapes. -/
theorem Leads.traces (h : Leads c c') : c.table.Traces c'.table := by
  induction h with
  | refl => exact .refl _
  | tail _ hstep ih =>
    obtain ⟨r, hrun⟩ := hstep
    exact ih.asked (asked_run hrun)

end Compilation
end Moniker
