import Moniker.Program
import Moniker.Proofs.Programs
import Moniker.Proofs.Sparing

/-!
# Exact interning

A `Program.History` is any run of declarations and requests for types, before and after the program
is finished, with what it answered. All of it may be in any order; it only has to mention issued
symbols and to declare nothing in types without a declaration. `Program.Interned` is what then holds
at every point: a type that is asked for again is the same one, and it is still what it was asked
for at first. The invariant is `Program.Recorded`: the table is faithful to the first request for
each shape.
-/

namespace Moniker

namespace TypeRequest

/-- The shape that is asked for. -/
def shape : TypeRequest → Shape
  | array element rank => .array element rank
  | pointer pointee => .pointer pointee
  | constructed definition arguments => .constructed definition arguments
  | tuple types names _ => .tuple types names
  | anonymous types names readOnly _ => .anonymous types names readOnly

/-- Where the members are said to be. -/
def places : TypeRequest → List Location
  | tuple _ _ locations | anonymous _ _ _ locations => locations
  | array _ _ | pointer _ | constructed _ _ => []

/-- The request without the places. -/
def unplaced : TypeRequest → TypeRequest
  | tuple types names _ => tuple types names []
  | anonymous types names readOnly _ => anonymous types names readOnly []
  | r => r

/-- A shape is what a request asks for, but for the places. -/
theorem shape_eq_iff {r r' : TypeRequest} : r.shape = r'.shape ↔ r.unplaced = r'.unplaced := by
  cases r <;> cases r' <;> simp [shape, unplaced]

/-- What a request comes to in a table. -/
def answer (r : TypeRequest) (t : SymbolTable) : Except Rejection SymbolId × SymbolTable :=
  match r.shape.check t r.places with
  | .ok _ => (.ok (t.ask r.shape r.places).1, (t.ask r.shape r.places).2)
  | .error rejection => (.error rejection, t)

end TypeRequest

namespace Program

/-- The compilation that a program is, or would be if it were finished as it stands. -/
def compilation : Program → Compilation
  | draft d => d.finish
  | finished c => c

def table (p : Program) : SymbolTable := p.compilation.table

/-- What a program makes of a request for a type. -/
def ask : TypeRequest → Program → Requested
  | .array element rank, p => return (p.array element rank).map .ok id
  | .pointer pointee, p => return (p.pointer pointee).map .ok id
  | .constructed definition arguments, p => p.construct definition arguments
  | .tuple types names locations, p => return p.tuple types names locations
  | .anonymous types names readOnly locations, p =>
      return p.anonymous types names readOnly locations

/-- A draft that is asked for a type keeps the table that the answer leaves. -/
theorem ask_draft {d : Draft} (r : TypeRequest) (h : ∀ s ∈ r.symbols, d.table.Issued s) :
    (draft d).ask r = .ok ((r.answer d.table).1,
      draft { d with table := (r.answer d.table).2 }) := by
  cases r with
  | array element rank =>
    simp only [ask, array, Draft.array, SymbolTable.array_eq_ask]
    rfl
  | pointer pointee =>
    simp only [ask, pointer, Draft.pointer, SymbolTable.pointer_eq_ask]
    rfl
  | constructed definition arguments =>
    have hdefinition : d.table.Issued definition := h definition List.mem_cons_self
    simp only [ask, construct, Draft.construct, SymbolTable.construct_eq hdefinition,
      SymbolTable.constructed_eq_ask, TypeRequest.answer, TypeRequest.shape, Shape.check]
    cases SymbolTable.checkArguments (d.table.entry definition) arguments <;> rfl
  | tuple types names locations =>
    simp only [ask, tuple, Draft.tuple, SymbolTable.tuple_eq, TypeRequest.answer, TypeRequest.shape,
      TypeRequest.places, Shape.check]
    cases SymbolTable.checkTuple types names locations <;> rfl
  | anonymous types names readOnly locations =>
    simp only [ask, anonymous, Draft.anonymous, SymbolTable.anonymous_eq, TypeRequest.answer,
      TypeRequest.shape, TypeRequest.places, Shape.check]
    cases SymbolTable.checkAnonymous d.table.maxAnonymousArity types names readOnly locations <;>
      rfl

/-- So does a compilation, which also counts requests. -/
theorem ask_finished {c : Compilation} (r : TypeRequest) (h : ∀ s ∈ r.symbols, c.Issued s) :
    ∃ n, (finished c).ask r = .ok ((r.answer c.table).1,
      finished { c with table := (r.answer c.table).2, structuralRequests := n }) := by
  cases r with
  | array element rank =>
    refine ⟨c.structuralRequests, ?_⟩
    simp only [ask, array, Compilation.arrayType, SymbolTable.array_eq_ask]
    rfl
  | pointer pointee =>
    refine ⟨c.structuralRequests, ?_⟩
    simp only [ask, pointer, Compilation.pointerType, SymbolTable.pointer_eq_ask]
    rfl
  | constructed definition arguments =>
    refine ⟨c.structuralRequests, ?_⟩
    have hdefinition : c.Issued definition := h definition List.mem_cons_self
    simp only [ask, construct, Compilation.construct_eq hdefinition, Compilation.constructAt_eq_ask,
      Compilation.ask, TypeRequest.answer, TypeRequest.shape, TypeRequest.places]
    cases Shape.check c.table [] (.constructed definition arguments) <;> rfl
  | tuple types names locations =>
    refine ⟨c.structuralRequests + 1, ?_⟩
    simp only [ask, tuple, Compilation.tupleType_eq_ask, Compilation.ask, Compilation.countRequest,
      TypeRequest.answer, TypeRequest.shape, TypeRequest.places]
    cases Shape.check c.table locations (.tuple types names) <;> rfl
  | anonymous types names readOnly locations =>
    refine ⟨c.structuralRequests + 1, ?_⟩
    simp only [ask, anonymous, Compilation.anonymousType_eq_ask, Compilation.ask,
      Compilation.countRequest, TypeRequest.answer, TypeRequest.shape, TypeRequest.places]
    cases Shape.check c.table locations (.anonymous types names readOnly) <;> rfl

/-- A request that mentions issued symbols is answered, at either stage. -/
theorem ask_eq {p : Program} (r : TypeRequest) (h : ∀ s ∈ r.symbols, p.table.Issued s) :
    ∃ p', p.ask r = .ok ((r.answer p.table).1, p') ∧ p'.table = (r.answer p.table).2 ∧
      (p.compilation.Plain → p'.compilation.Plain) := by
  cases p with
  | draft d => exact ⟨_, ask_draft r h, rfl, fun _ => ⟨rfl, rfl, rfl, rfl⟩⟩
  | finished c =>
    obtain ⟨n, hask⟩ := ask_finished r h
    exact ⟨_, hask, rfl, fun hplain => ⟨hplain.global, hplain.universal, hplain.hiddenContainers,
      hplain.hiddenTypes⟩⟩

/-! ## Histories -/

/-- What there is to remember about a program: a symbol that was declared, or a request and its
answer. -/
inductive Entry where
  | declared (s : SymbolId)
  | answered (request : TypeRequest) (s : SymbolId)

/-- The symbols that were issued between two states of a table. -/
def issuedBetween (t t' : SymbolTable) : List SymbolId :=
  ((List.range t'.size).drop t.size).map SymbolId.mk

/-- The runs of declarations and requests, each with what is remembered of it. A refused request is
not remembered. -/
inductive History : List Entry → Program → Prop
  | start : History ((issuedBetween {} Draft.empty.table).map .declared) (.draft .empty)
  | declare {log : List Entry} {d d' : Draft} {r : Request} (hlog : History log (.draft d))
    (hissued : r.Issued d.table) (hsparing : r.Sparing Symbol.Derived d.table)
    (hplain : ∀ request, r ≠ .structural request) (hrun : r.run d = .ok d') :
    History (log ++ (issuedBetween d.table d'.table).map .declared) (.draft d')
  | answer {log : List Entry} {p p' : Program} {r : TypeRequest} {s : SymbolId}
    (hlog : History log p) (hissued : ∀ a ∈ r.symbols, p.table.Issued a)
    (hask : p.ask r = .ok (.ok s, p')) : History (log ++ [.answered r s]) p'
  | refuse {log : List Entry} {p p' : Program} {r : TypeRequest} {rejection : Rejection}
    (hlog : History log p) (hissued : ∀ a ∈ r.symbols, p.table.Issued a)
    (hask : p.ask r = .ok (.error rejection, p')) : History log p'
  | finish {log : List Entry} {d : Draft} (hlog : History log (.draft d)) :
    History log (.finished d.finish)

/-- The first request for a shape that was answered. -/
def first? (shape : Shape) (log : List Entry) : Option TypeRequest :=
  log.findSome? fun
    | .answered r _ => if r.shape = shape then some r else none
    | .declared _ => none

variable {log rest : List Entry} {shape : Shape} {p : Program} {r : TypeRequest} {s : SymbolId}

theorem mem_issuedBetween {t t' : SymbolTable} :
    s ∈ issuedBetween t t' ↔ t'.Issued s ∧ ¬ t.Issued s := by
  unfold issuedBetween SymbolTable.Issued
  rw [List.mem_map]
  constructor
  · rintro ⟨i, hi, rfl⟩
    obtain ⟨k, hk⟩ := List.mem_iff_getElem?.mp hi
    rw [List.getElem?_drop, List.getElem?_eq_some_iff] at hk
    obtain ⟨hlt, heq⟩ := hk
    rw [List.length_range] at hlt
    rw [List.getElem_range] at heq
    show i < t'.size ∧ ¬ i < t.size
    omega
  · rintro ⟨hnew, hold⟩
    refine ⟨s.index, List.mem_iff_getElem?.mpr ⟨s.index - t.size, ?_⟩, rfl⟩
    rw [List.getElem?_drop, List.getElem?_eq_some_iff]
    refine ⟨?_, ?_⟩
    · rw [List.length_range]
      omega
    · rw [List.getElem_range]
      omega

theorem first?_append (shape : Shape) (log rest : List Entry) :
    first? shape (log ++ rest) = (first? shape log).or (first? shape rest) :=
  List.findSome?_append

/-- What was first stays first. -/
theorem first?_append_of_some (rest : List Entry) (h : first? shape log = some r) :
    first? shape (log ++ rest) = some r := by
  rw [first?_append, h]
  rfl

theorem first?_eq_some (h : first? shape log = some r) :
    r.shape = shape ∧ ∃ s, .answered r s ∈ log := by
  obtain ⟨entry, hmem, hentry⟩ := List.exists_of_findSome?_eq_some h
  cases entry with
  | declared s => cases hentry
  | answered request s =>
    simp only at hentry
    split at hentry
    · next hshape =>
      cases hentry
      exact ⟨hshape, s, hmem⟩
    · cases hentry

/-! ## The invariant -/

/-- What a history has to do with the table: its answers are those that the table has, with the
places of the first request, and its declarations made no types that are asked for. -/
structure Recorded (log : List Entry) (p : Program) : Prop where
  plain : p.compilation.Plain
  faithful : p.table.Faithful Symbol.Derived fun shape places =>
    ∃ request, first? shape log = some request ∧ request.places = places
  answered : ∀ r s, .answered r s ∈ log → p.table.interned.lookup r.shape = some s
  declared : ∀ s, .declared s ∈ log → p.table.Issued s ∧ ¬ (p.table.entry s).Derived

namespace Recorded

theorem start : Recorded ((issuedBetween {} Draft.empty.table).map .declared) (.draft .empty) where
  plain := ⟨rfl, rfl, rfl, rfl⟩
  faithful := .empty rfl
  answered r s hmem := by
    obtain ⟨a, -, ha⟩ := List.mem_map.mp hmem
    cases ha
  declared s hmem := by
    obtain ⟨a, ha, heq⟩ := List.mem_map.mp hmem
    cases heq
    have hall : ∀ a ∈ issuedBetween {} Draft.empty.table,
        Draft.empty.table.Issued a ∧ ¬ (Draft.empty.table.entry a).Derived := by decide
    exact hall s ha

/-- Only the table matters, as long as the compilation hides nothing. -/
theorem of_table {p' : Program} (h : Recorded log p) (htable : p'.table = p.table)
    (hplain : p'.compilation.Plain) : Recorded log p' := by
  refine ⟨hplain, ?_, ?_, ?_⟩ <;> rw [htable]
  · exact h.faithful
  · exact h.answered
  · exact h.declared

theorem declare {d d' : Draft} {r : Request} (h : Recorded log (.draft d))
    (hissued : r.Issued d.table) (hsparing : r.Sparing Symbol.Derived d.table)
    (hplain : ∀ request, r ≠ .structural request) (hrun : r.run d = .ok d') :
    Recorded (log ++ (issuedBetween d.table d'.table).map .declared) (.draft d') := by
  rw [Request.run_eq r hissued, Except.ok.injEq] at hrun
  subst hrun
  have hspares : d.table.Spares Symbol.Derived (r.after d.table) :=
    Request.spares_after hissued hsparing hplain
  refine ⟨⟨rfl, rfl, rfl, rfl⟩, ?_, fun r' s hmem => ?_, fun s hmem => ?_⟩
  · refine (h.faithful.spared hspares).mono fun shape s places _ hplaces => ?_
    obtain ⟨request, hfirst, heq⟩ := hplaces
    exact ⟨request, first?_append_of_some _ hfirst, heq⟩
  · show (r.after d.table).interned.lookup r'.shape = some s
    rw [hspares.interned]
    rcases List.mem_append.mp hmem with hold | hnew
    · exact h.answered r' s hold
    · obtain ⟨a, -, ha⟩ := List.mem_map.mp hnew
      cases ha
  · show (r.after d.table).Issued s ∧ ¬ ((r.after d.table).entry s).Derived
    rcases List.mem_append.mp hmem with hold | hnew
    · obtain ⟨hs, hderived⟩ : d.table.Issued s ∧ ¬ (d.table.entry s).Derived := h.declared s hold
      rw [hspares.abiding_iff hs Symbol.Derived]
      exact ⟨hspares.issued hs, hderived⟩
    · obtain ⟨a, ha, heq⟩ := List.mem_map.mp hnew
      cases heq
      obtain ⟨hs, hfresh⟩ := mem_issuedBetween.mp ha
      exact ⟨hs, hspares.declared s hs hfresh⟩

theorem answer {p' : Program} (h : Recorded log p) (hissued : ∀ a ∈ r.symbols, p.table.Issued a)
    (hask : p.ask r = .ok (.ok s, p')) : Recorded (log ++ [.answered r s]) p' := by
  obtain ⟨p'', heq, htable, hplain⟩ := ask_eq r hissued
  rw [heq, Except.ok.injEq, Prod.mk.injEq] at hask
  obtain ⟨hanswer, rfl⟩ := hask
  unfold TypeRequest.answer at hanswer htable
  cases hcheck : r.shape.check p.table r.places with
  | error rejection =>
    rw [hcheck] at hanswer
    cases hanswer
  | ok =>
    rw [hcheck] at hanswer htable
    obtain rfl : (p.table.ask r.shape r.places).1 = s := Except.ok.inj hanswer
    have hgrows := SymbolTable.grows_ask r.shape r.places p.table
    have hgeneric : ∀ g, r.shape.generic? = some g → p.table.Issued g := by
      intro g hg
      cases r with
      | constructed definition arguments => exact Option.some.inj hg ▸ hissued _ List.mem_cons_self
      | array _ _ | pointer _ | tuple _ _ _ | anonymous _ _ _ _ => cases hg
    refine ⟨hplain h.plain, ?_, ?_, ?_⟩
    · rw [htable]
      refine h.faithful.ask hcheck hgeneric (fun shape s places _ hplaces => ?_) fun hnone => ?_
      · obtain ⟨request, hfirst, hplace⟩ := hplaces
        exact ⟨request, first?_append_of_some _ hfirst, hplace⟩
      · -- a shape without an answer has not been asked for before
        have hnew : first? r.shape log = none := by
          rw [Option.eq_none_iff_forall_ne_some]
          intro request hfirst
          obtain ⟨hshape, s, hmem⟩ := first?_eq_some hfirst
          have hlookup := h.answered request s hmem
          rw [hshape, hnone] at hlookup
          cases hlookup
        refine ⟨r, ?_, rfl⟩
        rw [first?_append, hnew]
        simp [first?]
    · intro r' s' hmem
      rw [htable]
      rcases List.mem_append.mp hmem with hold | hnew
      · exact hgrows.interned _ _ (h.answered r' s' hold)
      · obtain ⟨rfl, rfl⟩ := Entry.answered.inj (List.mem_singleton.mp hnew)
        exact SymbolTable.lookup_intern _ _ _
    · intro s' hmem
      rw [htable]
      rcases List.mem_append.mp hmem with hold | hnew
      · obtain ⟨hs, hderived⟩ := h.declared s' hold
        rw [hgrows.entry s' hs]
        exact ⟨hgrows.issued hs, hderived⟩
      · cases List.mem_singleton.mp hnew

theorem refuse {p' : Program} {rejection : Rejection} (h : Recorded log p)
    (hissued : ∀ a ∈ r.symbols, p.table.Issued a) (hask : p.ask r = .ok (.error rejection, p')) :
    Recorded log p' := by
  obtain ⟨p'', heq, htable, hplain⟩ := ask_eq r hissued
  rw [heq, Except.ok.injEq, Prod.mk.injEq] at hask
  obtain ⟨hanswer, rfl⟩ := hask
  refine h.of_table ?_ (hplain h.plain)
  rw [htable]
  unfold TypeRequest.answer at hanswer ⊢
  split at hanswer
  · cases hanswer
  · rfl

end Recorded

theorem History.recorded (h : History log p) : Recorded log p := by
  induction h with
  | start => exact .start
  | declare _ hissued hsparing hplain hrun ih => exact ih.declare hissued hsparing hplain hrun
  | answer _ hissued hask ih => exact ih.answer hissued hask
  | refuse _ hissued hask ih => exact ih.refuse hissued hask
  | finish _ ih => exact ih.of_table rfl ⟨rfl, rfl, rfl, rfl⟩

/-! ## Exactness -/

/-- What a program has to show for its history. -/
structure Interned (log : List Entry) (p : Program) : Prop where
  /-- Two requests have the same answer just if they ask for the same, wherever members are. -/
  same : ∀ r s r' s', .answered r s ∈ log → .answered r' s' ∈ log →
    (s = s' ↔ r.unplaced = r'.unplaced)
  /-- No answer is a declared symbol. -/
  undeclared : ∀ r s, .answered r s ∈ log → .declared s ∉ log
  /-- No answer is a member of another. -/
  outside : ∀ r s r' s', .answered r s ∈ log → .answered r' s' ∈ log →
    ∃ members, p.compilation.members s' = .ok members ∧ s ∉ members
  /-- An answer is what it was asked for, with members where they were first said to be. -/
  kept : ∀ r s, .answered r s ∈ log → ∃ request, first? r.shape log = some request ∧
    p.compilation.GivesBack s request.places r.shape
  /-- A request that mentions issued symbols has an answer, and if it is refused the table stays. -/
  refused : ∀ r, (∀ a ∈ r.symbols, p.table.Issued a) → ∃ answer p', p.ask r = .ok (answer, p') ∧
    ∀ rejection, answer = .error rejection → p'.table = p.table

/-- Interning is exact at every point of every history. -/
theorem History.interned_exactly (h : History log p) : Interned log p := by
  have hrecorded := h.recorded
  have hplain := hrecorded.plain
  have hfaithful := hrecorded.faithful
  refine ⟨fun r s r' s' hr hr' => ?_, fun r s hr hdeclared => ?_, fun r s r' s' hr hr' => ?_,
    fun r s hr => ?_, fun r hr => ?_⟩
  · have hs := hrecorded.answered r s hr
    have hs' := hrecorded.answered r' s' hr'
    rw [← TypeRequest.shape_eq_iff]
    constructor
    · rintro rfl
      exact hfaithful.injective _ _ _ hs hs'
    · intro hshape
      rw [hshape, hs'] at hs
      exact (Option.some.inj hs).symm
  · obtain ⟨_, -, hanswers⟩ := hfaithful.answers _ s (hrecorded.answered r s hr)
    exact (hrecorded.declared s hdeclared).2 hanswers.derived
  · obtain ⟨_, -, hanswers⟩ := hfaithful.answers _ s (hrecorded.answered r s hr)
    obtain ⟨_, -, hanswers'⟩ := hfaithful.answers _ s' (hrecorded.answered r' s' hr')
    exact ⟨_, Compilation.members_eq hanswers'.issued, fun hmem =>
      hanswers'.not_derived_member hanswers'.derived hmem hanswers.derived⟩
  · obtain ⟨_, ⟨request, hfirst, rfl⟩, hanswers⟩ :=
      hfaithful.answers _ s (hrecorded.answered r s hr)
    exact ⟨request, hfirst, Compilation.givesBack_of_answers hplain hanswers hanswers.derived⟩
  · obtain ⟨p', hask, htable, -⟩ := ask_eq r hr
    refine ⟨_, p', hask, fun rejection hrejection => ?_⟩
    rw [htable]
    unfold TypeRequest.answer at hrejection ⊢
    split at hrejection
    · cases hrejection
    · rfl

instance (t : SymbolTable) (r : Request) : Decidable (r.Issued t) :=
  inferInstanceAs (Decidable (∀ s ∈ r.symbols, t.Issued s))

/-- A pair of an `int` and a `string` is asked for, a generic class is declared and the draft
finished, a property without a name is refused, and the pair is asked for again with its elements
elsewhere. -/
theorem interned_pair_twice : ∃ log p, History log p ∧
    .answered (.tuple [⟨2⟩, ⟨3⟩] [some "a", none] [.nowhere, .nowhere]) ⟨5⟩ ∈ log ∧
    .answered (.tuple [⟨2⟩, ⟨3⟩] [some "a", none]
      [.source "f" ⟨⟨0, 4, 4⟩, ⟨0, 5, 5⟩⟩, .nowhere]) ⟨5⟩ ∈ log ∧
    Interned log p := by
  have hasked := History.start.answer (s := ⟨5⟩)
    (r := .tuple [⟨2⟩, ⟨3⟩] [some "a", none] [.nowhere, .nowhere]) (by decide) rfl
  have hdeclared := hasked.declare (r := .namedType Draft.global "C" ["T"]) (by decide) (by decide)
    (fun request h => by cases h) rfl
  have hrefused := hdeclared.finish.refuse (r := .anonymous [⟨2⟩] [""] [true] [.nowhere])
    (by decide) rfl
  have hagain := hrefused.answer (s := ⟨5⟩)
    (r := .tuple [⟨2⟩, ⟨3⟩] [some "a", none] [.source "f" ⟨⟨0, 4, 4⟩, ⟨0, 5, 5⟩⟩, .nowhere])
    (by decide) rfl
  exact ⟨_, _, hagain, by simp, by simp, hagain.interned_exactly⟩

end Program
end Moniker
