import Moniker.Proofs.Asking

/-!
# Declarations that spare types

A type without a declaration is asked for, and gets its members when it is built. Nobody has to
declare anything in it afterwards. Requests are `Request.Sparing` if they see to that for certain
such types, be it all of them or the structural ones. What a table then has on record for a shape,
member by member and place by place, stays there whatever else is declared or asked for
(`SymbolTable.Faithful`), and the queries of a compilation give it back (`Compilation.GivesBack`).
-/

namespace Moniker

/-- What declarations leave alone of an entry: they only add to its lists. -/
def Symbol.lasting (x : Symbol) : Symbol :=
  { x with members := [], parameters := [], typeParameters := [] }

/-- A type without a declaration: a structural one, or one made from a generic definition. -/
def Symbol.Derived (x : Symbol) : Prop := x.kind.isStructural = true ∨ x.definition ≠ none

instance (x : Symbol) : Decidable x.Derived := inferInstanceAs (Decidable (_ ∨ _))

/-- A structural type. -/
def Symbol.Structural (x : Symbol) : Prop := x.kind.isStructural = true

instance (x : Symbol) : Decidable x.Structural := inferInstanceAs (Decidable (_ = _))

/-- Entries with the same lasting part agree in all that is read off it. -/
theorem Symbol.eq_of_lasting {α : Type} {x y : Symbol} (f : Symbol → α)
    (hf : ∀ x, f x.lasting = f x) (h : x.lasting = y.lasting) : f x = f y := by
  rw [← hf x, h, hf y]

/-- Some of the types without a declaration, which stay among them whatever is declared. -/
class Symbol.Abiding (D : Symbol → Prop) : Prop where
  derived : ∀ x, D x → x.Derived
  lasting : ∀ x, D x.lasting = D x

instance : Symbol.Abiding Symbol.Derived := ⟨fun _ h => h, fun _ => rfl⟩

instance : Symbol.Abiding Symbol.Structural := ⟨fun _ h => .inl h, fun _ => rfl⟩

theorem Symbol.abiding_congr (D : Symbol → Prop) [Abiding D] {x y : Symbol}
    (h : x.lasting = y.lasting) : D x ↔ D y :=
  iff_of_eq (eq_of_lasting D Abiding.lasting h)

@[simp] theorem Location.headD_sites (l : Location) : l.sites.headD .nowhere = l := by
  cases l <;> rfl

namespace Shape

variable {t t' : SymbolTable} {shape : Shape} {locations : List Location} {x : Symbol}

/-- The types of a shape have no declaration. -/
theorem derived_head (t : SymbolTable) (shape : Shape) : (shape.head t).Derived := by
  cases shape with
  | constructed definition arguments => exact .inr (by simp [head])
  | array _ _ | pointer _ | tuple _ _ | anonymous _ _ _ => exact .inl rfl

/-- Declarations leave the head of a shape as it is. -/
theorem head_lasting (h : ∀ g, shape.generic? = some g →
      (t'.entry g).lasting = (t.entry g).lasting) :
    shape.head t' = shape.head t := by
  cases shape with
  | constructed g arguments =>
    have hname : (t'.entry g).name = (t.entry g).name :=
      Symbol.eq_of_lasting Symbol.name (fun _ => rfl) (h g rfl)
    have hcontainer : (t'.entry g).container = (t.entry g).container :=
      Symbol.eq_of_lasting Symbol.container (fun _ => rfl) (h g rfl)
    rw [head, head, hname, hcontainer]
  | array _ _ | pointer _ | tuple _ _ | anonymous _ _ _ => rfl

/-- The members of a type have nothing of their own, and they are no types. -/
theorem fresh_fields (hx : x ∈ shape.fields locations) : SymbolTable.Fresh .member x := by
  cases shape with
  | array _ _ | pointer _ | constructed _ _ => cases hx
  | tuple types names => exact (SymbolTable.mem_tupleFields x hx).1
  | anonymous types names readOnly => exact (SymbolTable.mem_anonymousProperties x hx).1

end Shape

namespace SymbolTable

variable {D : Symbol → Prop} {t t' t'' : SymbolTable} {shape : Shape} {s owner : SymbolId}
  {role : Attachment} {x : Symbol} {locations : List Location} {P P' : Shape → List Location → Prop}

theorem Fresh.lasting (h : Fresh role x) : x.lasting = x := by
  obtain ⟨hmembers, hparameters, htypeParameters, -, -, -⟩ := h
  cases x
  simp only [Symbol.lasting, Symbol.mk.injEq] at *
  simp [hmembers, hparameters, htypeParameters]

theorem Fresh.not_derived (h : Fresh role x) : ¬ x.Derived := by
  intro hderived
  rcases hderived with hkind | hdefinition
  · rw [h.declared] at hkind
    cases hkind
  · exact hdefinition h.definition

/-! ## What is spared -/

/-- The second table is a later state of the first, in which more has been declared, but nothing in
certain types. -/
structure Spares (D : Symbol → Prop) (t t' : SymbolTable) : Prop where
  size : t.size ≤ t'.size
  lasting : ∀ s, t.Issued s → (t'.entry s).lasting = (t.entry s).lasting
  members : ∀ s, t.Issued s → D (t.entry s) → (t'.entry s).members = (t.entry s).members
  interned : t'.interned = t.interned
  declared : ∀ s, t'.Issued s → ¬ t.Issued s → ¬ (t'.entry s).Derived

namespace Spares

theorem refl (t : SymbolTable) : t.Spares D t where
  size := Nat.le_refl _
  lasting _ _ := rfl
  members _ _ _ := rfl
  interned := rfl
  declared _ hs hnew := absurd hs hnew

theorem issued (h : t.Spares D t') (hs : t.Issued s) : t'.Issued s := Nat.lt_of_lt_of_le hs h.size

theorem abiding_iff (h : t.Spares D t') (hs : t.Issued s) (D' : Symbol → Prop) [Symbol.Abiding D'] :
    D' (t'.entry s) ↔ D' (t.entry s) :=
  Symbol.abiding_congr D' (h.lasting s hs)

theorem trans [Symbol.Abiding D] (h : t.Spares D t') (h' : t'.Spares D t'') : t.Spares D t'' where
  size := Nat.le_trans h.size h'.size
  lasting s hs := (h'.lasting s (h.issued hs)).trans (h.lasting s hs)
  members s hs hderived := by
    rw [h'.members s (h.issued hs) ((h.abiding_iff hs D).mpr hderived), h.members s hs hderived]
  interned := h'.interned.trans h.interned
  declared s hs hnew := by
    by_cases hmid : t'.Issued s
    · rw [h'.abiding_iff hmid Symbol.Derived]
      exact h.declared s hmid hnew
    · exact h'.declared s hs hmid

end Spares

theorem spares_declared (ho : t.Issued owner) (hplain : ¬ D (t.entry owner)) (hx : ¬ x.Derived) :
    t.Spares D (t.declared role owner x) := by
  refine ⟨by simp, fun s hs => ?_, fun s hs hderived => ?_, rfl, fun s hs hnew => ?_⟩
  · rw [entry_declared_eq ho hs]
    split
    · cases role <;> rfl
    · rfl
  · have hne : s ≠ owner := by
      rintro rfl
      exact hplain hderived
    rw [entry_declared hs hne]
  · obtain rfl := (issued_of_declared hs).resolve_left hnew
    rw [entry_declared_next]
    exact hx

theorem spares_declaredAll [Symbol.Abiding D] {xs : List Symbol} (ho : t.Issued owner)
    (hplain : ¬ D (t.entry owner)) (hxs : ∀ x ∈ xs, ¬ x.Derived) :
    t.Spares D (t.declaredAll role owner xs) := by
  induction xs generalizing t with
  | nil => exact .refl t
  | cons x rest ih =>
    have hstep : t.Spares D (t.declared role owner x) :=
      spares_declared ho hplain (hxs x List.mem_cons_self)
    refine hstep.trans (ih (hstep.issued ho) ?_ fun y hy => hxs y (List.mem_cons_of_mem _ hy))
    rwa [hstep.abiding_iff ho D]

/-- A declaration followed by declarations in the new symbol. -/
theorem spares_declared_all [Symbol.Abiding D] {role' : Attachment} {xs : List Symbol}
    (ho : t.Issued owner) (hplain : ¬ D (t.entry owner)) (hx : ¬ x.Derived)
    (hxs : ∀ x ∈ xs, ¬ x.Derived) :
    t.Spares D ((t.declared role owner x).declaredAll role' t.next xs) := by
  refine (spares_declared ho hplain hx).trans (spares_declaredAll issued_next_declared ?_ hxs)
  rw [entry_declared_next]
  intro hD
  have hderived := Symbol.Abiding.derived _ hD
  exact hx hderived

/-! ## What is on record -/

/-- What a table has on record for a shape: the type looks as the shape says, and so do its members,
which were declared at the given places, if nothing is declared in the type. -/
structure Answers (D : Symbol → Prop) (t : SymbolTable) (shape : Shape) (s : SymbolId)
    (locations : List Location) : Prop where
  issued : t.Issued s
  entry : (t.entry s).lasting = shape.head t
  generic : ∀ g, shape.generic? = some g → t.Issued g
  checked : ∃ t₀ : SymbolTable, shape.check t₀ locations = .ok ()
  member : D (t.entry s) → ∀ m ∈ (t.entry s).members, t.Issued m
  members : D (t.entry s) → (t.entry s).members.map (fun m => (t.entry m).lasting) =
    (shape.fields locations).map fun x => { x with container := some s }

namespace Answers

/-- Whether a type is one of those that abide can be told from its shape. -/
theorem abiding_iff (h : t.Answers D shape s locations) (D' : Symbol → Prop) [Symbol.Abiding D'] :
    D' (t.entry s) ↔ D' (shape.head t) := by
  refine Symbol.abiding_congr D' ?_
  rw [h.entry]
  cases shape <;> rfl

/-- The type of a shape has no declaration. -/
theorem derived (h : t.Answers D shape s locations) : (t.entry s).Derived :=
  (h.abiding_iff Symbol.Derived).mpr (shape.derived_head t)

/-- A member is no type. -/
theorem not_derived_member (h : t.Answers D shape s locations) (hs : D (t.entry s)) {m : SymbolId}
    (hm : m ∈ (t.entry s).members) : ¬ (t.entry m).Derived := by
  have hmem : (t.entry m).lasting ∈
      (t.entry s).members.map (fun m => (t.entry m).lasting) := List.mem_map.mpr ⟨m, hm, rfl⟩
  rw [h.members hs] at hmem
  obtain ⟨x, hx, heq⟩ := List.mem_map.mp hmem
  have hlasting : (t.entry m).lasting = ({ x with container := some s } : Symbol).lasting := by
    rw [← heq]
    exact congrArg (fun y : Symbol => { y with container := some s })
      (Shape.fresh_fields hx).lasting.symm
  rw [Symbol.abiding_congr Symbol.Derived hlasting]
  exact (Shape.fresh_fields hx).not_derived

/-- What is recorded of the members, as far as neither declarations nor containers matter. -/
theorem map_members (h : t.Answers D shape s locations) (hs : D (t.entry s)) {α : Type}
    (f : Symbol → α) (hlasting : ∀ x, f x.lasting = f x)
    (hcontainer : ∀ x p, f { x with container := p } = f x) :
    (t.entry s).members.map (fun m => f (t.entry m)) = (shape.fields locations).map f := by
  have hmap := congrArg (List.map f) (h.members hs)
  simp only [List.map_map, Function.comp_def, hlasting, hcontainer] at hmap
  exact hmap

theorem container_member (h : t.Answers D shape s locations) (hs : D (t.entry s)) :
    (t.entry s).members.map (fun m => (t.entry m).container) =
      (t.entry s).members.map fun _ => some s := by
  have hmap := congrArg (List.map Symbol.container) (h.members hs)
  have hlength : (t.entry s).members.length = (shape.fields locations).length := by
    simpa using congrArg List.length (h.members hs)
  simp only [List.map_map, Function.comp_def, List.map_const'] at hmap ⊢
  rw [hlength]
  exact hmap

theorem grows (h : t.Answers D shape s locations) (hgrows : t.Grows t') :
    t'.Answers D shape s locations where
  issued := hgrows.issued h.issued
  entry := by
    rw [hgrows.entry s h.issued, h.entry]
    exact (Shape.head_congr fun g hg => hgrows.entry g (h.generic g hg)).symm
  generic g hg := hgrows.issued (h.generic g hg)
  checked := h.checked
  member hs m hm := by
    rw [hgrows.entry s h.issued] at hs hm
    exact hgrows.issued (h.member hs m hm)
  members hs := by
    rw [hgrows.entry s h.issued] at hs ⊢
    rw [← h.members hs]
    exact List.map_congr_left fun m hm => by rw [hgrows.entry m (h.member hs m hm)]

theorem spared [Symbol.Abiding D] (h : t.Answers D shape s locations) (hspares : t.Spares D t') :
    t'.Answers D shape s locations := by
  have hmembers (hs : D (t'.entry s)) :
      D (t.entry s) ∧ (t'.entry s).members = (t.entry s).members := by
    have hbefore := (hspares.abiding_iff h.issued D).mp hs
    exact ⟨hbefore, hspares.members s h.issued hbefore⟩
  refine ⟨hspares.issued h.issued, ?_, fun g hg => hspares.issued (h.generic g hg), h.checked,
    fun hs => ?_, fun hs => ?_⟩
  · rw [hspares.lasting s h.issued, h.entry]
    exact (Shape.head_lasting fun g hg => hspares.lasting g (h.generic g hg)).symm
  · obtain ⟨hbefore, hsame⟩ := hmembers hs
    rw [hsame]
    exact fun m hm => hspares.issued (h.member hbefore m hm)
  · obtain ⟨hbefore, hsame⟩ := hmembers hs
    rw [hsame, ← h.members hbefore]
    exact List.map_congr_left fun m hm => hspares.lasting m (h.member hbefore m hm)

end Answers

/-- A shape that is asked for the first time is put on record. -/
theorem answers_ask (hnone : t.interned.lookup shape = none)
    (hcheck : shape.check t locations = .ok ())
    (hgeneric : ∀ g, shape.generic? = some g → t.Issued g) :
    (t.ask shape locations).2.Answers D shape t.next locations := by
  have hgrows := grows_ask shape locations t
  have herected := erected_ask (.refl t) hnone hcheck hgeneric
  have hentry : (t.ask shape locations).2.entry t.next =
      { shape.head t with members := t.memberIds (shape.fields locations).length } := by
    rw [ask_of_none hnone]
    exact entry_addWithMembers_next _ _ t
  refine ⟨herected.issued, ?_, herected.generic, ⟨t, hcheck⟩,
    fun _ m hm => (herected.member m hm).2, fun _ => ?_⟩
  · rw [hentry, Shape.head_congr fun g hg => hgrows.entry g (hgeneric g hg)]
    cases shape <;> rfl
  · rw [hentry]
    refine List.ext_getElem (by simp) fun i hi hi' => ?_
    have hlt : i < (shape.fields locations).length := by simpa using hi'
    have hmember : (t.ask shape locations).2.entry ⟨t.size + 1 + i⟩ =
        { (shape.fields locations)[i] with container := some t.next } := by
      rw [ask_of_none hnone]
      exact entry_addWithMembers_member hlt
    simp only [memberIds, List.getElem_map, List.getElem_range, hmember]
    exact congrArg (fun y : Symbol => { y with container := some t.next })
      (Shape.fresh_fields (List.getElem_mem hlt)).lasting

/-! ## Tables that keep their records -/

/-- Every answered shape is on record with places of which `P` holds, and no two shapes have the
same answer. -/
structure Faithful (D : Symbol → Prop) (P : Shape → List Location → Prop) (t : SymbolTable) :
    Prop where
  answers : ∀ shape s, t.interned.lookup shape = some s →
    ∃ locations, P shape locations ∧ t.Answers D shape s locations
  injective : ∀ shape shape' s, t.interned.lookup shape = some s →
    t.interned.lookup shape' = some s → shape = shape'

namespace Faithful

theorem empty (h : t.interned = []) : t.Faithful D P := by
  refine ⟨fun shape s hs => ?_, fun shape shape' s hs _ => ?_⟩ <;>
  · rw [h] at hs
    cases hs

theorem spared [Symbol.Abiding D] (h : t.Faithful D P) (hspares : t.Spares D t') :
    t'.Faithful D P := by
  refine ⟨fun shape s hs => ?_, fun shape shape' s hs hs' => ?_⟩
  · rw [hspares.interned] at hs
    obtain ⟨locations, hplaces, hanswers⟩ := h.answers shape s hs
    exact ⟨locations, hplaces, hanswers.spared hspares⟩
  · rw [hspares.interned] at hs hs'
    exact h.injective shape shape' s hs hs'

/-- Places can be told otherwise, as long as all that is on record can. -/
theorem mono (h : t.Faithful D P) (hP : ∀ shape s locations, t.interned.lookup shape = some s →
    P shape locations → P' shape locations) : t.Faithful D P' := by
  refine ⟨fun shape s hs => ?_, h.injective⟩
  obtain ⟨locations, hplaces, hanswers⟩ := h.answers shape s hs
  exact ⟨locations, hP shape s locations hs hplaces, hanswers⟩

/-- A request adds at most its own shape to the record, with its own places. -/
theorem ask (h : t.Faithful D P) (hcheck : shape.check t locations = .ok ())
    (hgeneric : ∀ g, shape.generic? = some g → t.Issued g)
    (hold : ∀ shape' s places, t.interned.lookup shape' = some s →
      P shape' places → P' shape' places)
    (hnew : t.interned.lookup shape = none → P' shape locations) :
    (t.ask shape locations).2.Faithful D P' := by
  cases hlookup : t.interned.lookup shape with
  | some s =>
    rw [SymbolTable.ask, intern_of_lookup hlookup]
    exact h.mono hold
  | none =>
    have hgrows := grows_ask shape locations t
    have hnow : (t.ask shape locations).2.interned.lookup shape = some t.next := by
      rw [ask_of_none hlookup]
      exact List.lookup_cons_self
    -- the new answer has just been issued, and every other one had been before
    have hcases : ∀ shape' s, (t.ask shape locations).2.interned.lookup shape' = some s →
        (shape' = shape ∧ s = t.next) ∨ t.interned.lookup shape' = some s ∧ t.Issued s := by
      intro shape' s hs
      rcases lookup_ask hs with hbefore | rfl
      · obtain ⟨_, _, hanswers⟩ := h.answers shape' s hbefore
        exact .inr ⟨hbefore, hanswers.issued⟩
      · exact .inl ⟨rfl, Option.some.inj (hs.symm.trans hnow)⟩
    refine ⟨fun shape' s hs => ?_, fun shape₁ shape₂ s hs₁ hs₂ => ?_⟩
    · rcases hcases shape' s hs with ⟨rfl, rfl⟩ | ⟨hbefore, -⟩
      · exact ⟨locations, hnew hlookup, answers_ask hlookup hcheck hgeneric⟩
      · obtain ⟨places, hplaces, hanswers⟩ := h.answers shape' s hbefore
        exact ⟨places, hold shape' s places hbefore hplaces, hanswers.grows hgrows⟩
    · rcases hcases shape₁ s hs₁ with ⟨rfl, rfl⟩ | ⟨hbefore₁, hissued₁⟩ <;>
        rcases hcases shape₂ _ hs₂ with ⟨rfl, heq⟩ | ⟨hbefore₂, hissued₂⟩
      · rfl
      · exact absurd hissued₂ not_issued_next
      · rw [heq] at hissued₁
        exact absurd hissued₁ not_issued_next
      · exact h.injective shape₁ shape₂ s hbefore₁ hbefore₂

end Faithful

/-! ## Members, part by part -/

/-- The elements of a tuple are writable, and lie where they are said to. -/
theorem tupleFields_rest {types : List SymbolId} {names : List (Option String)}
    {locations : List Location} (hnames : types.length = names.length)
    (hlocations : types.length = locations.length) :
    (tupleFields types names locations).map (·.readOnly) = types.map (fun _ => false) ∧
      (tupleFields types names locations).map (·.locations.headD .nowhere) = locations := by
  induction types generalizing names locations with
  | nil =>
    rw [List.eq_nil_of_length_eq_zero hlocations.symm]
    exact ⟨rfl, rfl⟩
  | cons type types ih =>
    cases names with
    | nil => cases hnames
    | cons name names =>
      cases locations with
      | nil => cases hlocations
      | cons location locations =>
        obtain ⟨hfixed, hplaces⟩ := ih (Nat.succ.inj hnames) (Nat.succ.inj hlocations)
        refine ⟨congrArg (List.cons false) hfixed, ?_⟩
        rw [tupleFields, List.map_cons, hplaces]
        exact congrArg (· :: locations) location.headD_sites

/-- The properties of an anonymous type lie where they are said to. -/
theorem anonymousProperties_places {types : List SymbolId} {names : List String}
    {readOnly : List Bool} {locations : List Location} (hnames : names.length = types.length)
    (hreadOnly : readOnly.length = types.length) (hlocations : locations.length = types.length) :
    (anonymousProperties types names readOnly locations).map (·.locations.headD .nowhere) =
      locations := by
  induction types generalizing names readOnly locations with
  | nil =>
    rw [List.eq_nil_of_length_eq_zero hlocations]
    rfl
  | cons type types ih =>
    cases names with
    | nil => cases hnames
    | cons name names =>
      cases readOnly with
      | nil => cases hreadOnly
      | cons fixed readOnly =>
        cases locations with
        | nil => cases hlocations
        | cons location locations =>
          have hplaces := ih (Nat.succ.inj hnames) (Nat.succ.inj hreadOnly)
            (Nat.succ.inj hlocations)
          rw [anonymousProperties, List.map_cons, hplaces]
          exact congrArg (· :: locations) location.headD_sites

end SymbolTable

/-! ## Requests -/

namespace Request

/-- The symbol in which a request declares something. -/
def owner? : Request → Option SymbolId
  | nameSpace owner _ | namedType owner _ _ | method owner _ _ | field owner _ _ _
  | property owner _ _ _ _ | parameter owner _ _ | localVariable owner _ _ | indexer owner _ _ _ =>
    some owner
  | file _ | limitAnonymousArity _ | structural _ => none

/-- The request declares nothing in certain types. -/
def Sparing (D : Symbol → Prop) (t : SymbolTable) (r : Request) : Prop :=
  ∀ owner, r.owner? = some owner → ¬ D (t.entry owner)

instance (D : Symbol → Prop) [DecidablePred D] (t : SymbolTable) (r : Request) :
    Decidable (r.Sparing D t) :=
  match h : r.owner? with
  | none => isTrue fun owner ho => by rw [h] at ho; cases ho
  | some p =>
    decidable_of_iff (¬ D (t.entry p))
      ⟨fun hp owner ho => by rw [h] at ho; cases ho; exact hp, fun hr => hr p h⟩

theorem not_derived_typeParameterEntry {x : Symbol} {names : List String}
    (hx : x ∈ names.map typeParameterEntry) : ¬ x.Derived := by
  obtain ⟨name, -, rfl⟩ := List.mem_map.mp hx
  exact (fresh_typeParameter name).not_derived

theorem not_derived_parameterEntry {x : Symbol} {parameters : List (String × SymbolId)}
    (hx : x ∈ parameters.map parameterEntry) : ¬ x.Derived := by
  obtain ⟨p, -, rfl⟩ := List.mem_map.mp hx
  exact (fresh_parameter p).not_derived

variable {D : Symbol → Prop} [Symbol.Abiding D] {t : SymbolTable} {r : Request}

/-- What a sparing request that is no request for a type does to a table. -/
theorem spares_after (hissued : r.Issued t) (hsparing : r.Sparing D t)
    (hplain : ∀ request, r ≠ .structural request) : t.Spares D (r.after t) := by
  -- no entry that a request declares is that of a type without a declaration
  have hentry : ∀ x : Symbol, x.kind.isStructural = false → x.definition = none → ¬ x.Derived := by
    intro x hkind hdefinition hderived
    rcases hderived with h | h
    · rw [hkind] at h
      cases h
    · exact h hdefinition
  cases r with
  | file path => exact .refl t
  | limitAnonymousArity limit => exact ⟨Nat.le_refl _, fun _ _ => rfl, fun _ _ _ => rfl, rfl,
      fun s hs hnew => absurd hs hnew⟩
  | nameSpace owner name | field owner name type location
  | property owner name type readOnly location | parameter owner name type
  | localVariable owner name type =>
    exact SymbolTable.spares_declared (hissued owner (by simp [symbols])) (hsparing owner rfl)
      (hentry _ rfl rfl)
  | namedType owner name typeParameters | method owner name typeParameters =>
    exact SymbolTable.spares_declared_all (hissued owner (by simp [symbols])) (hsparing owner rfl)
      (hentry _ rfl rfl) fun x hx => not_derived_typeParameterEntry hx
  | indexer owner name type parameters =>
    exact SymbolTable.spares_declared_all (hissued owner (by simp [symbols])) (hsparing owner rfl)
      (hentry _ rfl rfl) fun x hx => not_derived_parameterEntry hx
  | structural request => exact absurd rfl (hplain request)

end Request

/-! ## Compilations that keep their records -/

/-- Wherever members are said to be, a table stays faithful when it is asked for a shape. -/
theorem SymbolTable.Faithful.asked {D : Symbol → Prop} {t t' : SymbolTable}
    (h : t.Faithful D fun _ _ => True) (hasked : t.Asked t') : t'.Faithful D fun _ _ => True := by
  cases hasked with
  | same => exact h
  | shape hcheck hgeneric =>
    exact h.ask hcheck hgeneric (fun _ _ _ _ _ => trivial) fun _ => trivial

/-- A request leaves what it finds, or what asking for a shape leaves. -/
theorem TypeRequest.asked_after {t : SymbolTable} (r : TypeRequest)
    (hsymbols : ∀ s ∈ r.symbols, t.Issued s) : t.Asked (r.after t) := by
  cases r with
  | array element rank =>
    rw [after, SymbolTable.array_eq_ask]
    exact .shape rfl (by simp [Shape.generic?])
  | pointer pointee =>
    rw [after, SymbolTable.pointer_eq_ask]
    exact .shape rfl (by simp [Shape.generic?])
  | constructed definition arguments =>
    simp only [after]
    split
    · next hcheck =>
      rw [SymbolTable.constructed_eq_ask]
      refine .shape hcheck fun g hg => ?_
      exact Option.some.inj hg ▸ hsymbols definition List.mem_cons_self
    · exact .same
  | tuple types names locations =>
    simp only [after, SymbolTable.tuple_eq]
    cases hcheck : SymbolTable.checkTuple types names locations with
    | error _ => exact .same
    | ok _ =>
      have hask : t.Asked (t.ask (.tuple types names) locations).2 :=
        .shape hcheck (by simp [Shape.generic?])
      exact hask
  | anonymous types names readOnly locations =>
    simp only [after, SymbolTable.anonymous_eq]
    cases hcheck : SymbolTable.checkAnonymous t.maxAnonymousArity types names readOnly
        locations with
    | error _ => exact .same
    | ok _ =>
      have hask : t.Asked (t.ask (.anonymous types names readOnly) locations).2 :=
        .shape hcheck (by simp [Shape.generic?])
      exact hask

namespace Compilation

variable {D : Symbol → Prop} {c c' : Compilation}

theorem Made.faithful [Symbol.Abiding D] (h : c.Made fun t r => r.Issued t ∧ r.Sparing D t) :
    c.table.Faithful D fun _ _ => True := by
  refine (h.table (fun _ _ hr => hr.1) (.empty rfl) fun t r ht hr => ?_).1
  cases r with
  | structural request => exact ht.asked (request.asked_after hr.1)
  | file _ | limitAnonymousArity _ | nameSpace _ _ | namedType _ _ _ | method _ _ _ | field _ _ _ _
  | property _ _ _ _ _ | parameter _ _ _ | localVariable _ _ _ | indexer _ _ _ _ =>
    exact ht.spared (Request.spares_after hr.1 hr.2 fun _ h => nomatch h)

theorem Leads.faithful (h : c.Leads c') (hfaithful : c.table.Faithful D fun _ _ => True) :
    c'.table.Faithful D fun _ _ => True := by
  induction h with
  | refl => exact hfaithful
  | tail _ hstep ih =>
    obtain ⟨r, hrun⟩ := hstep
    exact ih.asked (asked_run hrun)

end Compilation

/-! ## Queries -/

namespace Compilation

/-- The members of a type, in order: what each is, and where it was declared. -/
structure Lists (c : Compilation) (s : SymbolId) (kind : SymbolKind) (types : List SymbolId)
    (names : List String) (readOnly : List Bool) (locations : List Location)
    (members : List SymbolId) : Prop where
  listed : c.members s = .ok members
  kinds : members.mapM c.kind = .ok (members.map fun _ => kind)
  containers : members.mapM c.container = .ok (members.map fun _ => some s)
  typed : members.mapM c.typeOf = .ok (types.map some)
  named : members.mapM c.name = .ok names
  fixed : members.mapM c.isReadOnly = .ok readOnly
  placed : members.mapM c.firstLocation = .ok locations

/-- The queries about a type give back what it was asked for with, and where its members are said to
be. A tuple element without a name has the empty one. -/
def GivesBack (c : Compilation) (s : SymbolId) (locations : List Location) : Shape → Prop
  | .array element rank =>
    c.kind s = .ok .arrayType ∧ c.typeOf s = .ok (some element) ∧ c.rank s = .ok rank
  | .pointer pointee => c.kind s = .ok .pointerType ∧ c.typeOf s = .ok (some pointee)
  | .constructed definition arguments =>
    c.kind s = .ok .namedType ∧ c.definition s = .ok definition ∧
      c.typeArguments s = .ok arguments ∧ c.members s = .ok []
  | .tuple types names =>
    c.kind s = .ok .tupleType ∧ ∃ members, c.Lists s .field types (names.map (·.getD ""))
      (types.map fun _ => false) locations members
  | .anonymous types names readOnly =>
    c.kind s = .ok .anonymousType ∧ ∃ members,
      c.Lists s .property types names readOnly locations members

variable {D : Symbol → Prop} {c : Compilation} {s : SymbolId} {shape : Shape}
  {locations : List Location}

theorem typeOf_eq (htypes : c.hiddenTypes = []) (hs : c.Issued s) :
    c.typeOf s = .ok (c.entry s).type := by
  unfold typeOf
  rw [htypes, if_neg List.not_mem_nil, get_eq hs]
  rfl

theorem container_eq_entry (hcontainers : c.hiddenContainers = []) (hs : c.Issued s) :
    c.container s = .ok (c.entry s).container := by
  unfold container
  rw [hcontainers, if_neg List.not_mem_nil, get_eq hs]
  rfl

/-- The members on record, as the queries tell about them. -/
theorem lists_of_answers (hplain : c.Plain) (h : c.table.Answers D shape s locations)
    (hs : D (c.entry s))
    {kind : SymbolKind} {types : List SymbolId} {names : List String} {readOnly : List Bool}
    (hkind : ∀ x ∈ shape.fields locations, x.kind = kind)
    (htypes : (shape.fields locations).map (·.type) = types.map some)
    (hnames : (shape.fields locations).map (·.name) = names)
    (hreadOnly : (shape.fields locations).map (·.readOnly) = readOnly)
    (hplaces : (shape.fields locations).map (·.locations.headD .nowhere) = locations) :
    c.Lists s kind types names readOnly locations (c.entry s).members := by
  have hall : ∀ {α : Type} (f : SymbolId → Except Fault α) (g : Symbol → α),
      (∀ m, c.Issued m → f m = .ok (g (c.entry m))) →
        (c.entry s).members.mapM f = .ok ((c.entry s).members.map fun m => g (c.entry m)) :=
    fun f g hfg => mapM_ok fun m hm => hfg m (h.member hs m hm)
  refine ⟨members_eq h.issued, ?_, ?_, ?_, ?_, ?_, ?_⟩
  · rw [hall c.kind Symbol.kind fun m hm => kind_eq hm, Except.ok.injEq,
      h.map_members hs Symbol.kind (fun _ => rfl) fun _ _ => rfl, List.map_congr_left hkind,
      List.map_const', List.map_const']
    simpa using (congrArg List.length (h.members hs)).symm
  · rw [hall c.container Symbol.container fun m hm => container_eq_entry hplain.hiddenContainers hm,
      Except.ok.injEq]
    exact h.container_member hs
  · rw [hall c.typeOf Symbol.type fun m hm => typeOf_eq hplain.hiddenTypes hm, Except.ok.injEq,
      h.map_members hs Symbol.type (fun _ => rfl) fun _ _ => rfl, htypes]
  · rw [hall c.name Symbol.name fun m hm => name_eq hm, Except.ok.injEq,
      h.map_members hs Symbol.name (fun _ => rfl) fun _ _ => rfl, hnames]
  · rw [hall c.isReadOnly Symbol.readOnly fun m hm => isReadOnly_eq hm, Except.ok.injEq,
      h.map_members hs Symbol.readOnly (fun _ => rfl) fun _ _ => rfl, hreadOnly]
  · rw [hall c.firstLocation (·.locations.headD .nowhere) fun m hm => firstLocation_eq hm,
      Except.ok.injEq,
      h.map_members hs (·.locations.headD .nowhere) (fun _ => rfl) fun _ _ => rfl, hplaces]

/-- What is on record is given back. -/
theorem givesBack_of_answers (hplain : c.Plain) (h : c.table.Answers D shape s locations)
    (hs : D (c.entry s)) : c.GivesBack s locations shape := by
  have hkind : c.kind s = .ok shape.kind := by
    rw [kind_eq h.issued, ← shape.kind_head c.table, ← h.entry]
    rfl
  obtain ⟨t₀, hcheck⟩ := h.checked
  cases shape with
  | array element rank =>
    refine ⟨hkind, ?_, ?_⟩
    · rw [typeOf_eq hplain.hiddenTypes h.issued]
      exact congrArg (fun x => Except.ok x.type) h.entry
    · rw [rank_eq h.issued]
      exact congrArg (fun x => Except.ok x.rank) h.entry
  | pointer pointee =>
    refine ⟨hkind, ?_⟩
    rw [typeOf_eq hplain.hiddenTypes h.issued]
    exact congrArg (fun x => Except.ok x.type) h.entry
  | constructed definition arguments =>
    refine ⟨hkind, ?_, ?_, ?_⟩
    · have hdefinition : (c.entry s).definition = some definition :=
        congrArg Symbol.definition h.entry
      rw [definition_eq h.issued, definitionAt, hdefinition]
      rfl
    · rw [typeArguments_eq h.issued]
      exact congrArg (fun x => Except.ok x.typeArguments) h.entry
    · rw [members_eq h.issued, List.map_eq_nil_iff.mp (h.members hs)]
  | tuple types names =>
    obtain ⟨hnames, hlocations⟩ := SymbolTable.lengths_of_checkTuple hcheck
    obtain ⟨htypes, hnamed⟩ := SymbolTable.map_tupleFields types names locations hnames hlocations
    obtain ⟨hfixed, hplaces⟩ := SymbolTable.tupleFields_rest hnames hlocations
    exact ⟨hkind, _, lists_of_answers hplain h hs (fun x hx => (SymbolTable.mem_tupleFields x hx).2)
      htypes hnamed hfixed hplaces⟩
  | anonymous types names readOnly =>
    obtain ⟨hnames, hreadOnly, hlocations⟩ := SymbolTable.lengths_of_checkAnonymous hcheck
    obtain ⟨htypes, hnamed, hfixed⟩ :=
      SymbolTable.map_anonymousProperties types names readOnly locations hnames hreadOnly hlocations
    exact ⟨hkind, _, lists_of_answers hplain h hs
      (fun x hx => (SymbolTable.mem_anonymousProperties x hx).2) htypes hnamed hfixed
      (SymbolTable.anonymousProperties_places hnames hreadOnly hlocations)⟩

end Compilation
end Moniker
