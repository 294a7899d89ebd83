import Moniker.Proofs.Branching
import Moniker.Proofs.Owners

/-!
# Finding what was there

Which of the symbols that a compilation has are found for a description, under whatever options? For
each sort of segment there is one answer, in terms of the compilation as it is before the run: of
the candidates for the container, what these list, the answers that shapes have, and the first
candidates for the elements of an array (`Description.Reads`). What the run builds on the way does
not matter, for no symbol from before is listed by a new one, nor answers for a shape that had no
answer before.
-/

namespace Moniker

open List SymbolTable Compilation

namespace SymbolTable

variable {t t₀ : SymbolTable} {shape : Shape} {p s m : SymbolId} {role : Attachment}

/-- A new type lists new members only. -/
theorem Erected.not_listed (h : t₀.Erected t shape p) (hs : t₀.Issued s) :
    s ∉ (t.entry p).belongings role := by
  intro hlisted
  cases role with
  | member => exact (h.member s hlisted).1 hs
  | parameter | typeParameter =>
      rw [h.entry] at hlisted
      cases shape <;> cases hlisted

/-- A member of a new type lists nothing. -/
theorem Erected.not_listed_member (h : t₀.Erected t shape p) {i : Nat}
    (hm : (t.entry p).members[i]? = some m) : s ∉ (t.entry m).belongings role := by
  obtain ⟨x, hx, hentry⟩ := h.entry_member hm
  have hfresh : Fresh .member x := fresh_fields (List.mem_of_getElem? hx)
  have hnone : (t.entry m).unplaced.belongings role = [] := by
    rw [hentry]
    exact hfresh.belongings role
  intro hlisted
  cases role <;> exact absurd (hnone ▸ hlisted) List.not_mem_nil

end SymbolTable

namespace Compilation

variable {c c' : Compilation} {s p : SymbolId} {kind : SymbolKind} {shape : Shape}
  {locations : List Location}

/-- A symbol of the compilation lists the other one. -/
structure Holds (c : Compilation) (kind : SymbolKind) (p s : SymbolId) : Prop where
  issued : c.Issued p
  listed : s ∈ c.listed kind p

/-- What is asked for a shape answers a symbol from before if the shape had that answer before, and
its parts still fit together. -/
theorem Descends.ask_eq_ok (hc : c.Descends c') (hs : c.Issued s)
    (hgeneric : ∀ g, shape.generic? = some g → c'.Issued g) :
    (c'.ask shape locations).1 = .ok s ↔
      shape.check c'.table locations = .ok () ∧ c.table.interned.lookup shape = some s := by
  cases hcheck : shape.check c'.table locations with
  | error rejection =>
      rw [Compilation.ask, hcheck]
      exact iff_of_false (by rintro ⟨⟩) (by simp)
  | ok _ =>
      have hnow : (c'.table.ask shape locations).2.interned.lookup shape =
          some (c'.table.ask shape locations).1 := lookup_intern shape _ c'.table
      have htraces := hc.traces.ask hcheck hgeneric
      rw [ask_of_check hcheck]
      constructor
      · intro hanswer
        obtain rfl := Except.ok.inj hanswer
        exact ⟨rfl, htraces.lookup_old hs hnow⟩
      · rintro ⟨-, hlookup⟩
        exact congrArg Except.ok
          (Option.some.inj (hnow.symm.trans (htraces.grows.interned shape s hlookup)))

namespace Orderly

variable (h : c.Orderly)
include h

theorem start : c.Descends c := (Leads.refl c).descends h.discerns.stem.closed

/-- A listed symbol names the one that lists it. -/
theorem inside (hholds : c.Holds kind p s) : c.table.Inside p s :=
  h.owned.inside p hholds.issued kind.role s (belongings_of_listed hholds.listed)

theorem containerAt_eq (s : SymbolId) : c.containerAt s = (c.entry s).container :=
  h.start.containerAt_eq h.discerns.stem s

theorem outerAt_eq (hholds : c.Holds kind p s) : c.outerAt s = p := by
  rw [outerAt, h.containerAt_eq, show (c.entry s).container = some p from
    (h.inside hholds).container]
  rfl

theorem definitionAt_eq (hholds : c.Holds kind p s) : c.definitionAt s = s := by
  rw [definitionAt, show (c.entry s).definition = none from (h.inside hholds).definition]
  rfl

theorem definitionAt_constructed {g : SymbolId} {arguments : List SymbolId}
    (hlookup : c.table.interned.lookup (.constructed g arguments) = some s) :
    c.definitionAt s = g := by
  rw [definitionAt, show (c.entry s).definition = some g from
    (h.owned.shows _ _ hlookup).definition]
  rfl

/-- An array type or a pointer type says what it was built over. -/
theorem typeAt_eq (hlookup : c.table.interned.lookup shape = some s)
    (htype : (shape.head c.table).type = some p) : c.typeAt s = p := by
  have hshows : (c.entry s).type = (shape.head c.table).type := (h.owned.shows _ _ hlookup).type
  rw [h.start.typeAt_eq h.discerns.stem, hshows, htype]
  rfl

end Orderly

end Compilation

theorem Resolution.rebuilt_eq (r : Resolution SymbolId)
    (build : Compilation → SymbolId → SymbolId × Compilation) (c : Compilation) :
    (r.rebuilt build c).1.candidates = (buildEach build r.candidates c).1 ∧
      (r.rebuilt build c).2 = (buildEach build r.candidates c).2 := by
  cases r <;> exact ⟨rfl, rfl⟩

namespace Description

variable {c c₁ : Compilation} {o : ResolveOptions} {d container : Description}
  {ds : List Description}
  {methods ts : List SymbolId} {s p : SymbolId} {name : String} {kind : SymbolKind}

section Found

variable (h : c.Orderly)
include h

/-- What lists a symbol from before was there before. -/
theorem issued_owner (hp : p ∈ finds o d [] c) (hgrows : (after o d [] c).Grows c₁)
    (hs : c.Issued s) (hlisted : s ∈ c₁.listed kind p) : c.Issued p := by
  have hdescends := descends_after h.discerns.stem h.start (issued_nil c) o d
  have htwin := twin_of_mem_finds h.discerns.stem h.start (issued_nil c) hp
  have hbelongs := belongings_of_listed hlisted
  rw [hgrows.entry (htwin.issued hdescends.traces hdescends.traces).1] at hbelongs
  cases htwin with
  | old hold => exact hold
  | built hnew _ _ _ => exact absurd hbelongs ((hdescends.traces.erected _ _ hnew).not_listed hs)
  | member hnew _ _ _ hm _ =>
      exact absurd hbelongs ((hdescends.traces.erected _ _ hnew).not_listed_member hm)

variable (hs : c.Issued s)
include hs

/-- A lookup among what the candidates for the container list. -/
theorem mem_bearing_iff (kind : SymbolKind) (name : String)
    (hgrows : (after o container [] c).Grows c₁) :
    s ∈ c₁.bearing o ((finds o container [] c).flatMap (c₁.listed kind)) name ↔
      ∃ p ∈ finds o container [] c, c.Holds kind p s ∧
        o.namesMatch (c.entry s).name name = true := by
  have hstart := (descends_after h.discerns.stem h.start (issued_nil c) o container).grows.trans
    hgrows
  have hlisted : ∀ p ∈ finds o container [] c, (s ∈ c₁.listed kind p ↔ c.Holds kind p s) := by
    intro p hp
    constructor
    · intro hmem
      have hissued := issued_owner h hp hgrows hs hmem
      exact ⟨hissued, hstart.listed h.discerns.stem.closed kind hissued ▸ hmem⟩
    · intro hholds
      exact (hstart.listed h.discerns.stem.closed kind hholds.issued).symm ▸ hholds.listed
  rw [bearing, mem_filter, mem_flatMap, hstart.entry hs]
  constructor
  · rintro ⟨⟨p, hp, hmem⟩, hnamed⟩
    exact ⟨p, hp, (hlisted p hp).mp hmem, hnamed⟩
  · rintro ⟨p, hp, hholds, hnamed⟩
    exact ⟨⟨p, hp, (hlisted p hp).mpr hholds⟩, hnamed⟩

theorem mem_nameSpace_iff : s ∈ finds o (.nameSpace container (.ok name)) [] c ↔
    ∃ p ∈ finds o container [] c, c.Holds .nameSpace p s ∧
      o.namesMatch (c.entry s).name name = true := by
  rw [finds_nameSpace, List.mem_eraseDups]
  exact mem_bearing_iff h hs .nameSpace name (.refl _)

theorem mem_typeParameter_iff : s ∈ finds o (.typeParameter container (.ok name)) [] c ↔
    ∃ p ∈ finds o container [] c, c.Holds .typeParameter p s ∧
      o.namesMatch (c.entry s).name name = true := by
  rw [finds_typeParameter, List.mem_eraseDups]
  exact mem_bearing_iff h hs .typeParameter name (.refl _)

theorem mem_field_iff : s ∈ finds o (.field container (.ok name)) [] c ↔
    ∃ p ∈ finds o container [] c, c.Holds .field p s ∧
      o.namesMatch (c.entry s).name name = true := by
  rw [finds_field, List.mem_eraseDups]
  exact mem_bearing_iff h hs .field name (.refl _)

theorem mem_parameter_iff : s ∈ finds o (.parameter container (.ok name)) [] c ↔
    ∃ p ∈ finds o container [] c, c.Holds .parameter p s ∧
      o.namesMatch (c.entry s).name name = true := by
  rw [finds_parameter, List.mem_eraseDups]
  exact mem_bearing_iff h hs .parameter name (.refl _)

omit hs in
/-- Methods that are looked up were there before. -/
theorem issued_methodsBearing {arity : Nat} :
    ∀ m ∈ (after o container [] c).genericsBearing o .method (finds o container [] c) name arity,
      c.Issued m := by
  have hmatched := locate_branches h.discerns.stem h.start (issued_nil c) o container h.start
  have hbranches : c.Branches (after o container [] c) (after o container [] c) := hmatched.branches
  have htwins := hbranches.genericsBearing o (forall₂_same.mpr fun p hp =>
    twin_of_mem_finds h.discerns.stem h.start (issued_nil c) hp) .method name arity
  intro m hm
  have hkind : ((after o container [] c).entry m).kind = .method := by
    obtain ⟨p, -, hp⟩ := mem_flatMap.mp (mem_filter.mp (mem_filter.mp hm).1).1
    exact (mem_membersAt.mp hp).2
  -- types that are built are no methods, nor are their members
  cases forall₂_same.mp htwins m hm with
  | old hold => exact hold
  | @built shape _ _ _ hnew _ _ _ =>
      have hshape := (hbranches.left.traces.erected _ _ hnew).kind
      rw [show ((after o container [] c).table.entry m).kind = _ from hkind] at hshape
      cases shape <;> cases hshape
  | member hnew _ _ _ hm _ =>
      obtain ⟨x, hx, hentry⟩ := (hbranches.left.traces.erected _ _ hnew).entry_member hm
      have hmember : ((after o container [] c).table.entry m).unplaced.kind = x.kind := by
        rw [hentry]
      have hmember : SymbolKind.method = x.kind := hkind.symm.trans hmember
      rcases Shape.kind_member (mem_of_getElem? hx) with hfield | hproperty
      · cases hmember.trans hfield
      · cases hmember.trans hproperty

/-- Generic types and methods are looked up by their arity, too. -/
theorem mem_genericsBearing_iff {arity : Nat} (hkind : kind = .namedType ∨ kind = .method)
    (hgrows : (after o container [] c).Grows c₁) :
    s ∈ c₁.genericsBearing o kind (finds o container [] c) name arity ↔
      ∃ p ∈ finds o container [] c, c.Holds kind p s ∧ o.namesMatch (c.entry s).name name = true ∧
        (c.entry s).typeParameters.length = arity := by
  have hstart := (descends_after h.discerns.stem h.start (issued_nil c) o container).grows.trans
    hgrows
  have hmembers : s ∈ c₁.membersBearing o kind (finds o container [] c) name ↔
      ∃ p ∈ finds o container [] c, c.Holds kind p s ∧
          o.namesMatch (c.entry s).name name = true := by
    rcases hkind with rfl | rfl
    · exact mem_bearing_iff h hs .namedType name hgrows
    · exact mem_bearing_iff h hs .method name hgrows
  rw [genericsBearing, mem_filter, hmembers, beq_iff_eq, hstart.entry hs]
  constructor
  · rintro ⟨⟨p, hp, hholds, hnamed⟩, harity⟩
    exact ⟨p, hp, hholds, hnamed, harity⟩
  · rintro ⟨p, hp, hholds, hnamed, harity⟩
    exact ⟨⟨p, hp, hholds, hnamed⟩, harity⟩

theorem mem_definition_iff {arity : Nat} :
    s ∈ finds o (.namedType container (.ok name) (.ok arity) (.ok .absent) []) [] c ↔
      ∃ p ∈ finds o container [] c, c.Holds .namedType p s ∧
        o.namesMatch (c.entry s).name name = true ∧
        (c.entry s).typeParameters.length = arity := by
  rw [finds_definition, List.mem_eraseDups]
  exact mem_genericsBearing_iff h hs (.inl rfl) (.refl _)

theorem mem_localVariable_iff {ordinal : Nat} :
    s ∈ finds o (.localVariable container (.ok name) (.ok ordinal)) [] c ↔
      ∃ p ∈ finds o container [] c, c.Holds .localVariable p s ∧
        (c.localsAt (o.namesMatch · name) p)[ordinal]? = some s := by
  have hstart := (descends_after h.discerns.stem h.start (issued_nil c) o container).grows
  have hclosed := h.discerns.stem.closed
  rw [finds_localVariable, List.mem_eraseDups, localsBearing, mem_filterMap]
  constructor
  · rintro ⟨p, hp, hplace⟩
    have hlisted : s ∈ (after o container [] c).listed .localVariable p :=
      (mem_filter.mp (mem_of_getElem? hplace)).1
    have hissued := issued_owner h hp (.refl _) hs hlisted
    rw [hstart.localsAt hclosed hissued] at hplace
    exact ⟨p, hp, ⟨hissued, hstart.listed hclosed _ hissued ▸ hlisted⟩, hplace⟩
  · rintro ⟨p, hp, hholds, hplace⟩
    exact ⟨p, hp, by rwa [hstart.localsAt hclosed hholds.issued]⟩

theorem mem_property_iff {presence : Slot Presence} :
    s ∈ finds o (.property container (.ok name) presence ds) [] c ↔
      ∃ p ∈ finds o container [] c, c.Holds .property p s ∧
        o.namesMatch (c.entry s).name name = true ∧
        Reads o c ds [] (c.signatureAt s) := by
  have hclosed := h.discerns.stem.closed
  have houter := descends_after h.discerns.stem h.start (issued_nil c) o container
  have hinner := descends_afterEach h.discerns.stem houter (issued_nil c) o ds
  have hreads : ComeTo o ds [] (after o container [] c) (c.signatureAt s) ↔
      Reads o c ds [] (c.signatureAt s) :=
    comeTo_iff h.discerns.stem houter (issued_nil c) h.start (hclosed.issued_signature hs)
  have hgrows : (after o container [] c).Grows (afterEach o ds [] (after o container [] c)) :=
    (locateEach_reaches o ds [] _ houter.closed (issued_nil _)).1.grows
  have hfound : ∀ {items}, ComeTo o ds [] (after o container [] c) items →
      (s ∈ finds o (.property container (.ok name) presence ds) [] c ↔
        (∃ p ∈ finds o container [] c, c.Holds .property p s ∧
          o.namesMatch (c.entry s).name name = true) ∧ c.signatureAt s = items) := by
    intro items hitems
    rw [finds_property hitems, List.mem_eraseDups, propertiesBearing, mem_filter, beq_iff_eq,
      hinner.grows.signatureAt hclosed hs]
    exact and_congr_left' (mem_bearing_iff h hs .property name hgrows)
  constructor
  · intro hmem
    obtain ⟨items, hitems⟩ := exists_of_mem_property hmem
    obtain ⟨⟨p, hp, hholds, hnamed⟩, rfl⟩ := (hfound hitems).mp hmem
    exact ⟨p, hp, hholds, hnamed, hreads.mp hitems⟩
  · rintro ⟨p, hp, hholds, hnamed, hread⟩
    exact (hfound (hreads.mpr hread)).mpr ⟨⟨p, hp, hholds, hnamed⟩, rfl⟩

omit hs in
/-- A method segment finds the methods that the signature, read inside each alone, is that of. -/
theorem finds_method_eq {arity : Nat} {presence : Slot Presence} :
    finds o (.method container (.ok name) (.ok arity) presence ds) [] c =
      (((after o container [] c).genericsBearing o .method
          (finds o container [] c) name arity).filter
        fun m => aside o ds [] c m = .ok (c.signatureAt m)).eraseDups := by
  have houter := descends_after h.discerns.stem h.start (issued_nil c) o container
  have hmethods : ∀ m ∈ (after o container [] c).genericsBearing o .method
      (finds o container [] c) name arity, c.Issued m := issued_methodsBearing h
  have hfitting :=
    (replayedAll_aside o ds ⟨h.discerns.stem, houter, h.start⟩ (issued_nil c) hmethods).1
  unfold finds after at *
  simp only [locate, Slot.valueOr_ok]
  cases hr : (locate o container [] c).1 with
  | error reason => rfl
  | ok r =>
      rw [hr] at hfitting
      exact (Replay.candidates_outcome _).trans (congrArg List.eraseDups hfitting)

theorem mem_method_iff {arity : Nat} {presence : Slot Presence} :
    s ∈ finds o (.method container (.ok name) (.ok arity) presence ds) [] c ↔
      ∃ p ∈ finds o container [] c, c.Holds .method p s ∧
        o.namesMatch (c.entry s).name name = true ∧
        (c.entry s).typeParameters.length = arity ∧ Reads o c ds [s] (c.signatureAt s) := by
  have hwithin : ∀ m ∈ [s], c.Issued m := fun m hm => mem_singleton.mp hm ▸ hs
  have hreads : ComeTo o ds [s] c (c.signatureAt s) ↔ Reads o c ds [s] (c.signatureAt s) :=
    comeTo_iff h.discerns.stem h.start hwithin h.start
      (h.discerns.stem.closed.issued_signature hs)
  have haside : aside o ds [] c s = .ok (c.signatureAt s) ↔ Reads o c ds [s] (c.signatureAt s) := by
    rw [← hreads]
    exact gathered_eq_ok
  rw [finds_method_eq h, List.mem_eraseDups, mem_filter,
    mem_genericsBearing_iff h hs (.inr rfl) (.refl _), decide_eq_true_eq, haside]
  constructor
  · rintro ⟨⟨p, hp, hholds, hnamed, harity⟩, hread⟩
    exact ⟨p, hp, hholds, hnamed, harity, hread⟩
  · rintro ⟨p, hp, hholds, hnamed, harity, hread⟩
    exact ⟨⟨p, hp, hholds, hnamed, harity⟩, hread⟩

/-! ### Built types -/

/-- A segment that builds a type out of each candidate for another type finds the one that answers
for its shape. -/
theorem mem_rebuilt_iff {element : Description}
    {build : Compilation → SymbolId → SymbolId × Compilation} {shape : SymbolId → Shape}
    (hbuilds : BuildsOver build shape) (category : Category) (part : String)
    (hlocate : locate o d [] c =
      match Moniker.part category part (locate o element [] c).1 with
      | .error reason => (.error reason, (locate o element [] c).2)
      | .ok r => (.ok (r.rebuilt build (locate o element [] c).2).1,
          (r.rebuilt build (locate o element [] c).2).2)) :
    s ∈ finds o d [] c ↔
      ∃ p ∈ finds o element [] c, c.table.interned.lookup (shape p) = some s := by
  have hdescends := descends_after h.discerns.stem h.start (issued_nil c) o d
  have hanswers : Forall₂ (fun p a => (after o d [] c).table.interned.lookup (shape p) = some a)
      (finds o element [] c) (finds o d [] c) := by
    unfold finds after
    rw [hlocate]
    cases (locate o element [] c).1 with
    | error reason => exact .nil
    | ok r =>
        obtain ⟨hcandidates, hafter⟩ := Resolution.rebuilt_eq r build (locate o element [] c).2
        simp only [part_ok, Decode.candidates, hcandidates, hafter]
        exact (hbuilds.answers r.candidates _).2
  constructor
  · intro hmem
    obtain ⟨p, hp, hlookup⟩ := exists_left hanswers hmem
    exact ⟨p, hp, hdescends.traces.lookup_old hs hlookup⟩
  · rintro ⟨p, hp, hlookup⟩
    obtain ⟨a, ha, hanswer⟩ := exists_left hanswers.flip hp
    obtain rfl := Option.some.inj ((hdescends.grows.table.interned _ _ hlookup).symm.trans hanswer)
    exact ha

theorem mem_arrayType_iff {element : Description} {rank : Nat} :
    s ∈ finds o (.arrayType element (.ok rank)) [] c ↔ ∃ p ∈ finds o element [] c,
      c.table.interned.lookup (.array p (UInt64.ofNat rank)) = some s :=
  mem_rebuilt_iff h hs (buildsOver_arrayType (UInt64.ofNat rank)) .arrayType "elementType"
    ((locate.eq_def o _ [] c).trans rfl)

theorem mem_pointerType_iff {pointee : Description} :
    s ∈ finds o (.pointerType pointee) [] c ↔ ∃ p ∈ finds o pointee [] c,
      c.table.interned.lookup (.pointer p) = some s :=
  mem_rebuilt_iff h hs buildsOver_pointerType .pointerType "pointedAtType"
    ((locate.eq_def o _ [] c).trans rfl)

omit h hs in
theorem finds_constructed_eq {arity : Nat} {presence : Presence}
    (hpresent : presence.isAbsent = false) {items : List SymbolId}
    (hitems : ComeTo o ds methods (after o container methods c) items) :
    finds o (.namedType container (.ok name) (.ok arity) (.ok presence) ds) methods c =
      ((buildEach (·.constructAt items)
        ((afterEach o ds methods (after o container methods c)).genericsBearing o .namedType
          (finds o container methods c) name arity)
        (afterEach o ds methods (after o container methods c))).1.filterMap
          Except.toOption).eraseDups := by
  have hitems := hitems.gathered
  unfold finds after afterEach at *
  simp only [locate, hitems, part_ok, Slot.valueOr_ok]
  cases (locate o container methods c).1 with
  | error reason => rfl
  | ok r =>
      simp only [part_ok, constructedAt, hpresent, Bool.false_or, Decode.candidates.eq_1]
      split
      · next hnone =>
          rw [List.isEmpty_iff.mp hnone]
          rfl
      · exact Decode.candidates_ofCandidates

omit h hs in
/-- What is constructed from each of some definitions. -/
theorem mem_buildEach_constructAt (hc : c.Descends c₁) {definitions items : List SymbolId}
    (hdefinitions : ∀ g ∈ definitions, c₁.Issued g) (hitems : ∀ a ∈ items, c₁.Issued a)
    (hs : c.Issued s) :
    s ∈ (buildEach (·.constructAt items) definitions c₁).1.filterMap Except.toOption ↔
      ∃ g ∈ definitions, checkArguments (c₁.entry g) items = .ok () ∧
        c.table.interned.lookup (.constructed g items) = some s := by
  have hbuild : ∀ g ∈ definitions, ∀ now, c₁.Grows now → c.Descends now →
      now.Grows (now.constructAt items g).2 ∧ c.Descends (now.constructAt items g).2 ∧
        ((now.constructAt items g).1 = .ok s ↔ checkArguments (c₁.entry g) items = .ok () ∧
          c.table.interned.lookup (.constructed g items) = some s) := by
    intro g hg now hgrows hnow
    have hsymbols : ∀ p ∈ (Shape.constructed g items).symbols, now.Issued p := fun p hp =>
      (mem_cons.mp hp).elim (fun hp => hp ▸ hgrows.issued (hdefinitions g hg))
        fun hp => hgrows.issued (hitems p hp)
    rw [constructAt_eq_ask]
    refine ⟨grows_ask _ _ now, hnow.ask hsymbols _, ?_⟩
    rw [← hgrows.entry (hdefinitions g hg)]
    exact hnow.ask_eq_ok hs fun g hg => hsymbols g (Shape.mem_symbols_of_generic? _ hg)
  have hanswers := (buildEach_keeps (P := c.Descends)
    (Q := fun _ g (x : Except Rejection SymbolId) =>
      x = .ok s ↔ checkArguments (c₁.entry g) items = .ok () ∧
        c.table.interned.lookup (.constructed g items) = some s)
    (fun _ _ _ _ _ _ hx => hx) hbuild c₁ (.refl c₁) hc).2.2
  rw [mem_filterMap]
  constructor
  · rintro ⟨x, hx, hs⟩
    obtain ⟨g, hg, hanswer⟩ := exists_left hanswers hx
    cases x with
    | error rejection => cases hs
    | ok a => exact ⟨g, hg, hanswer.mp (congrArg Except.ok (Option.some.inj hs))⟩
  · rintro ⟨g, hg, hlookup⟩
    obtain ⟨x, hx, hanswer⟩ := exists_left hanswers.flip hg
    exact ⟨x, hx, by rw [hanswer.mpr hlookup]; rfl⟩

/-- Out of the definitions, the one is found that answers for its shape, if it takes the
arguments. -/
theorem mem_constructed_iff {arity : Nat} {presence : Presence}
    (hpresent : presence.isAbsent = false) :
    s ∈ finds o (.namedType container (.ok name) (.ok arity) (.ok presence) ds) [] c ↔
      ∃ p ∈ finds o container [] c, ∃ g items, c.Holds .namedType p g ∧
        o.namesMatch (c.entry g).name name = true ∧ (c.entry g).typeParameters.length = arity ∧
        Reads o c ds [] items ∧ checkArguments (c.entry g) items = .ok () ∧
        c.table.interned.lookup (.constructed g items) = some s := by
  have hstem := h.discerns.stem
  have houter := descends_after hstem h.start (issued_nil c) o container
  have hinner := descends_afterEach hstem houter (issued_nil c) o ds
  obtain ⟨hreaches, hissued⟩ := locateEach_reaches o ds [] _ houter.closed (issued_nil _)
  have hdefinitions : ∀ g ∈ (afterEach o ds [] (after o container [] c)).genericsBearing o
      .namedType (finds o container [] c) name arity,
        (afterEach o ds [] (after o container [] c)).Issued g :=
    hinner.closed.issued_genericsBearing fun p hp =>
      have htwin := twin_of_mem_finds hstem h.start (issued_nil c) hp
      hreaches.grows.issued (htwin.issued houter.traces houter.traces).1
  -- only shapes over symbols from before have the symbol for their answer
  have hgrounded : ∀ {g items}, c.table.interned.lookup (.constructed g items) = some s →
      c.Issued g ∧ ∀ a ∈ items, c.Issued a := fun hlookup =>
    have hsymbols := hstem.grounded _ _ hlookup
    ⟨hsymbols _ mem_cons_self, fun a ha => hsymbols a (mem_cons_of_mem _ ha)⟩
  have hfound : ∀ {items}, ComeTo o ds [] (after o container [] c) items →
      (s ∈ finds o (.namedType container (.ok name) (.ok arity) (.ok presence) ds) [] c ↔
        ∃ g ∈ (afterEach o ds [] (after o container [] c)).genericsBearing o .namedType
            (finds o container [] c) name arity,
          checkArguments ((afterEach o ds [] (after o container [] c)).entry g) items = .ok () ∧
          c.table.interned.lookup (.constructed g items) = some s) := by
    intro items hitems
    rw [finds_constructed_eq hpresent hitems, List.mem_eraseDups]
    exact mem_buildEach_constructAt hinner hdefinitions (hissued 0 items hitems.gathered) hs
  constructor
  · intro hmem
    obtain ⟨items, hitems⟩ := exists_of_mem_constructed hmem
    obtain ⟨g, hg, hcheck, hlookup⟩ := (hfound hitems).mp hmem
    obtain ⟨hold, hitemsold⟩ := hgrounded hlookup
    obtain ⟨p, hp, hholds, hnamed, harity⟩ :=
      (mem_genericsBearing_iff h hold (.inl rfl) hreaches.grows).mp hg
    rw [hinner.grows.entry hold] at hcheck
    exact ⟨p, hp, g, items, hholds, hnamed, harity,
      (comeTo_iff hstem houter (issued_nil c) h.start hitemsold).mp hitems, hcheck, hlookup⟩
  · rintro ⟨p, hp, g, items, hholds, hnamed, harity, hread, hcheck, hlookup⟩
    obtain ⟨hold, hitemsold⟩ := hgrounded hlookup
    have hitems := (comeTo_iff hstem houter (issued_nil c) h.start hitemsold).mpr hread
    refine (hfound hitems).mpr ⟨g, ?_, by rwa [hinner.grows.entry hold], hlookup⟩
    exact (mem_genericsBearing_iff h hold (.inl rfl) hreaches.grows).mpr
      ⟨p, hp, hholds, hnamed, harity⟩

end Found

/-! ### Structural types -/

/-- A shape that is absent, or whose parts do not fit together, is not built. -/
def Refused (c : Compilation) (presence : Presence) (sites : List Location) (shape : Shape) :
    Prop :=
  presence.isAbsent = true ∨ shape.check c.table sites ≠ .ok ()

/-- What is asked for comes to the fallback if the shape is refused, and else to a symbol from
before if that is its answer. -/
theorem mem_settle_iff {c' : Compilation} {shape : Shape} {sites : List Location}
    {presence : Presence} (hstem : c.Stem) (hc : c.Descends c') (hs : c.Issued s)
    (hgeneric : shape.generic? = none) (fallback : Fallback) (codec : String) :
    s ∈ Decode.candidates
        (fallback.settle codec presence c' (c'.countRequest.ask shape sites)).1 ↔
      Refused c presence sites shape ∧ fallback = .universal ∧ s = c.universal ∨
        ¬ Refused c presence sites shape ∧ c.table.interned.lookup shape = some s := by
  have hcounted : c.Descends c'.countRequest := (Branches.countRequest ⟨hstem, hc, hc⟩).left
  have hcheck : shape.check c'.countRequest.table sites = shape.check c.table sites :=
    Shape.check_congr (by simp [hgeneric]) hc.grows.table.limit
  have hask : (c'.countRequest.ask shape sites).1 = .ok s ↔ _ :=
    hcounted.ask_eq_ok hs (by simp [hgeneric])
  have hanswer : ∀ {c' : Compilation}, c.Grows c' → ∀ detail,
      (s ∈ Decode.candidates (fallback.answer codec detail c') ↔
        fallback = .universal ∧ s = c.universal) := by
    intro c' hgrows detail
    rw [← hgrows.universal]
    cases fallback <;> simp [Fallback.answer, Decode.candidates, Resolution.candidates]
  rw [hcheck] at hask
  cases habsent : presence.isAbsent with
  | true => simp [Fallback.settle, Refused, habsent, hanswer hc.grows]
  | false =>
      cases hok : shape.check c.table sites with
      | error rejection =>
          have hrequest : c'.countRequest.ask shape sites =
              (.error rejection, c'.countRequest) := by
            rw [Compilation.ask, hcheck, hok]
            rfl
          simp [Fallback.settle, Refused, habsent, hok, hrequest, hanswer hcounted.grows]
      | ok _ =>
          rw [ask_of_check (hcheck.trans hok)] at hask ⊢
          have hbuilt : (c'.countRequest.table.ask shape sites).1 = s ↔
              c.table.interned.lookup shape = some s := by
            simpa [hok] using hask
          simp [Fallback.settle, Refused, habsent, hok, Decode.candidates, Resolution.candidates,
            ← hbuilt, eq_comm]

/-- A segment that asks for a shape over what its array comes to, in whose place a fallback
answers. -/
structure AsksFor (d : Description) (types : List Description) (shape : List SymbolId → Shape)
    (sites : List Location) (presence : Presence) (fallback : Fallback) : Prop where
  symbols : ∀ items, (shape items).symbols = items
  generic : ∀ items, (shape items).generic? = none
  check : ∀ {items items' : List SymbolId} (t : SymbolTable), items'.length = items.length →
    (shape items').check t sites = (shape items).check t sites
  locate : ∃ category typesPart sitesPart, ∀ o methods c,
    let inner := locateEach o types methods c
    locate o d methods c =
      match part category typesPart (gathered 0 inner.1),
          part category sitesPart (gathered 0 (sites.map inner.2.accept)) with
      | .error reason, _ => (.error reason, inner.2)
      | .ok _, .error reason => (.error reason, inner.2)
      | .ok items, .ok sites =>
        fallback.settle category.codec presence inner.2
          (inner.2.countRequest.ask (shape items) sites)

theorem asksFor_tupleType (presence : Presence) (types : List Description)
    (names : Listing (Option String)) (locations : Listing Location) :
    AsksFor (.tupleType (.ok presence) types names locations) types (.tuple · names.values)
      locations.values presence .fail where
  symbols _ := rfl
  generic _ := rfl
  check _ hlength := by simp only [Shape.check, checkTuple, hlength]
  locate := ⟨.tupleType, "elementTypes", "elementLocations", fun o methods c => by
    simp only [locate, ← tupleType_eq_ask]
    rfl⟩

theorem asksFor_anonymousType (presence : Presence) (types : List Description)
    (names : Listing (Option String)) (readOnly : Listing Bool) (locations : Listing Location) :
    AsksFor (.anonymousType (.ok presence) types names readOnly locations) types
      (.anonymous · (names.values.map (·.getD "")) readOnly.values) locations.values presence
      .universal where
  symbols _ := rfl
  generic _ := rfl
  check _ hlength := by simp only [Shape.check, checkAnonymous, hlength]
  locate := ⟨.anonymousType, "propertyTypes", "propertyLocations", fun o methods c => by
    simp only [locate, ← anonymousType_eq_ask]
    rfl⟩

/-- A segment that asks for a shape finds what asking comes to, for what its array comes to. -/
theorem AsksFor.mem_finds_iff {types : List Description} {shape : List SymbolId → Shape}
    {sites : List Location} {presence : Presence} {fallback : Fallback} (h : c.Orderly)
    (hs : c.Issued s) (hasks : AsksFor d types shape sites presence fallback) :
    s ∈ finds o d [] c ↔ c.AcceptsAll sites ∧ ∃ items, ComeTo o types [] c items ∧
      (Refused c presence sites (shape items) ∧ fallback = .universal ∧ s = c.universal ∨
        ¬ Refused c presence sites (shape items) ∧
          c.table.interned.lookup (shape items) = some s) := by
  have hinner := descends_afterEach h.discerns.stem h.start (issued_nil c) o types
  obtain ⟨category, typesPart, sitesPart, hlocate⟩ := hasks.locate
  have haccepts : (afterEach o types [] c).AcceptsAll sites ↔ c.AcceptsAll sites := by
    rw [AcceptsAll, AcceptsAll, hinner.grows.accept]
  have hsettle : ∀ items, s ∈ Decode.candidates (fallback.settle _ presence (afterEach o types [] c)
      ((afterEach o types [] c).countRequest.ask (shape items) sites)).1 ↔ _ := fun items =>
    mem_settle_iff h.discerns.stem hinner hs (hasks.generic items) fallback category.codec
  rw [finds, hlocate, ← haccepts]
  constructor
  · intro hmem
    split at hmem
    · cases hmem
    · cases hmem
    · next items sites' hitems hsites =>
        have hsites := part_eq_ok.mp hsites
        obtain rfl := locations_of_gathered hsites
        exact ⟨gathered_accept.mp hsites, items, comeTo_of_gathered hitems,
          (hsettle items).mp hmem⟩
  · rintro ⟨hsites, items, hitems, hcase⟩
    have hsites := gathered_accept.mpr hsites
    have hgathered := hitems.gathered
    unfold afterEach at hsites hsettle
    rw [hgathered, hsites]
    exact (hsettle items).mpr hcase

/-- So it finds the root type, if the shape is refused but may be left out, or the symbol that
answers for the shape of the first candidates. -/
theorem AsksFor.mem_iff {types : List Description} {shape : List SymbolId → Shape}
    {sites : List Location} {presence : Presence} {fallback : Fallback} (h : c.Orderly)
    (hs : c.Issued s) (hasks : AsksFor d types shape sites presence fallback) :
    s ∈ finds o d [] c ↔ c.AcceptsAll sites ∧
      ((fallback = .universal ∧ s = c.universal ∧
          (∀ items, items.length = types.length → Refused c presence sites (shape items)) ∧
          ∀ e ∈ types, ∃ t, (finds o e [] c).head? = some t) ∨
        ∃ items, Reads o c types [] items ∧ ¬ Refused c presence sites (shape items) ∧
          c.table.interned.lookup (shape items) = some s) := by
  have hstem := h.discerns.stem
  have hrefused : ∀ {items : List SymbolId}, items.length = types.length →
      Refused c presence sites (shape items) → ∀ items', items'.length = types.length →
        Refused c presence sites (shape items') := by
    intro items hitems hrefused items' hitems'
    rwa [Refused, hasks.check c.table (hitems'.trans hitems.symm)]
  -- only shapes over symbols from before have the symbol for their answer
  have hgrounded : ∀ {items}, c.table.interned.lookup (shape items) = some s →
      ∀ a ∈ items, c.Issued a := fun hlookup a ha =>
    hstem.grounded _ _ hlookup a ((hasks.symbols _).symm ▸ ha)
  rw [hasks.mem_finds_iff h hs]
  refine and_congr_right fun _ => ?_
  constructor
  · rintro ⟨items, hitems, ⟨hnot, hfallback, hroot⟩ | ⟨hbuilt, hlookup⟩⟩
    · exact .inl ⟨hfallback, hroot, hrefused hitems.length_eq hnot,
        (exists_comeTo_iff hstem h.start (issued_nil c) h.start).mp ⟨items, hitems⟩⟩
    · exact .inr ⟨items, (comeTo_iff hstem h.start (issued_nil c) h.start
        (hgrounded hlookup)).mp hitems, hbuilt, hlookup⟩
  · rintro (⟨hfallback, hroot, hnot, heach⟩ | ⟨items, hread, hbuilt, hlookup⟩)
    · obtain ⟨items, hitems⟩ :=
        (exists_comeTo_iff hstem h.start (issued_nil c) h.start).mpr heach
      exact ⟨items, hitems, .inl ⟨hnot items hitems.length_eq, hfallback, hroot⟩⟩
    · exact ⟨items, (comeTo_iff hstem h.start (issued_nil c) h.start (hgrounded hlookup)).mpr hread,
        .inr ⟨hbuilt, hlookup⟩⟩

end Description
end Moniker
