import Mathlib.Data.List.Nodup
import Moniker.Proofs.Building
import Moniker.Proofs.Lawful

/-!
# Containment

`Request.Contained` allows the requests that respect containment: namespaces go under namespaces,
types under namespaces and type definitions, members under type definitions, parameters under
methods and properties, locals under methods, and where a type is expected there is one.
Compilations that are made this way have lawful tables (`Compilation.Made.lawful`), and so has
whatever requests for structural types make of them.
-/

namespace Moniker

namespace SymbolTable

variable {t : SymbolTable} {s : SymbolId}

/-! ## Structural types -/

theorem mem_memberIds {n : Nat} {m : SymbolId} :
    m ∈ t.memberIds n ↔ ∃ i, i < n ∧ m = ⟨t.size + 1 + i⟩ := by
  simp only [memberIds, List.mem_map, List.mem_range]
  constructor
  · intro h
    obtain ⟨i, hi, rfl⟩ := h
    exact ⟨i, hi, rfl⟩
  · intro h
    obtain ⟨i, hi, rfl⟩ := h
    exact ⟨i, hi, rfl⟩

theorem nodup_memberIds (t : SymbolTable) (n : Nat) : (t.memberIds n).Nodup := by
  refine List.Nodup.map ?_ List.nodup_range
  intro i j hij
  simp only [SymbolId.mk.injEq] at hij
  omega

/-- A type without members is added alone. -/
theorem add_eq_addWithMembers {x : Symbol} (h : x.members = []) (t : SymbolTable) :
    t.add x = t.addWithMembers x [] := by
  have hx : { x with members := [] } = x := by rw [← h]
  simp [add, addWithMembers, hx]

/-- A structural type, or one constructed from a definition, together with its members. -/
structure Builds (t : SymbolTable) (type : Symbol) (members : List Symbol) : Prop where
  references : ∀ r ∈ type.references, t.Issued r
  parameters : type.parameters = []
  typeParameters : type.typeParameters = []
  kind : type.kind ≠ .parameter
  shape : type.kind.isStructural = true ∧ type.container = none ∧ type.definition = none ∨
    type.kind = .namedType ∧ type.container ≠ none ∧ type.definition ≠ none
  memberReferences : ∀ x ∈ members, ∀ r ∈ x.references, t.Issued r
  member : ∀ x ∈ members, Fresh .member x ∧ (type.kind = .tupleType ∧ x.kind = .field ∨
    type.kind = .anonymousType ∧ x.kind = .property)

theorem Builds.belongings {type : Symbol} {members : List Symbol} (h : t.Builds type members)
    (role : Attachment) :
    ({ type with members := t.memberIds members.length } : Symbol).belongings role =
      if role = .member then t.memberIds members.length else [] := by
  cases role with
  | member => rfl
  | parameter => exact h.parameters
  | typeParameter => exact h.typeParameters

/-- The second table is the first with a type and its members, which answer the shape. -/
structure Built (t t' : SymbolTable) (shape : Shape) (type : Symbol) (members : List Symbol) :
    Prop where
  grows : t.Grows t'
  closed : t'.Closed
  issued : ∀ s, t'.Issued s →
    t.Issued s ∨ s = t.next ∨ ∃ i, i < members.length ∧ s = ⟨t.size + 1 + i⟩
  next : t'.entry t.next = { type with members := t.memberIds members.length }
  member : ∀ i (hi : i < members.length),
    t'.entry ⟨t.size + 1 + i⟩ = { members[i] with container := some t.next }
  interned : t'.interned = (shape, t.next) :: t.interned
  unanswered : t.interned.lookup shape = none

namespace Built

variable {t' : SymbolTable} {shape : Shape} {type : Symbol} {members : List Symbol}
  (hbuilt : Built t t' shape type members) (h : t.Lawful) (hbuilds : t.Builds type members)

include hbuilt

/-- What the members' entries say is what was asked for, but for their container. -/
theorem map_members {α : Type} (f : Symbol → α) (hf : ∀ x c, f { x with container := c } = f x) :
    (t'.entry t.next).members.map (fun m => f (t'.entry m)) = members.map f := by
  rw [hbuilt.next]
  refine List.ext_getElem (by simp) fun i hi hi' => ?_
  have hlt : i < members.length := by simpa using hi'
  simp only [memberIds, List.getElem_map, List.getElem_range]
  rw [hbuilt.member i hlt, hf]

theorem mem_members {m : SymbolId} (hm : m ∈ (t'.entry t.next).members) :
    ∃ x ∈ members, t'.entry m = { x with container := some t.next } := by
  rw [hbuilt.next] at hm
  obtain ⟨i, hi, rfl⟩ := mem_memberIds.mp hm
  exact ⟨members[i], List.getElem_mem hi, hbuilt.member i hi⟩

include hbuilds

theorem belongings_next (role : Attachment) :
    (t'.entry t.next).belongings role =
      if role = .member then t.memberIds members.length else [] := by
  rw [hbuilt.next, hbuilds.belongings]

theorem belongings_member {i : Nat} (hi : i < members.length) (role : Attachment) :
    (t'.entry ⟨t.size + 1 + i⟩).belongings role = [] := by
  rw [hbuilt.member i hi]
  exact (hbuilds.member _ (List.getElem_mem hi)).1.belongings role

theorem belongs_next {i : Nat} (hi : i < members.length) :
    t'.Belongs .member t.next ⟨t.size + 1 + i⟩ := by
  obtain ⟨hfresh, hkind⟩ := hbuilds.member _ (List.getElem_mem hi)
  have hentry := hbuilt.member i hi
  refine ⟨?_, by rw [hentry], by rw [hentry]; exact hfresh.role,
    by rw [hentry]; exact hfresh.definition, ?_⟩
  · show t.size < t.size + 1 + i
    omega
  · rw [hentry]
    show t'.Hosts t.next members[i].kind
    rcases hkind with ⟨htype, hmember⟩ | ⟨htype, hmember⟩
    · rw [hmember]
      exact .inr (by rw [hbuilt.next, htype])
    · rw [hmember]
      exact .inr (by rw [hbuilt.next, htype])

include h

theorem belongs {p s : SymbolId} {role : Attachment} (hp : t'.Issued p)
    (hs : s ∈ (t'.entry p).belongings role) : t'.Belongs role p s := by
  rcases hbuilt.issued p hp with hp | rfl | ⟨i, hi, rfl⟩
  · rw [hbuilt.grows.entry p hp] at hs
    exact hbuilt.grows.keeps.belongs hp (h.issued_belongings hp hs) (h.belongs p hp role s hs)
  · rw [hbuilt.belongings_next hbuilds] at hs
    split at hs
    · next hrole =>
        obtain ⟨i, hi, rfl⟩ := mem_memberIds.mp hs
        rw [hrole]
        exact hbuilt.belongs_next hbuilds hi
    · cases hs
  · rw [hbuilt.belongings_member hbuilds hi] at hs
    cases hs

theorem nodup {p : SymbolId} (hp : t'.Issued p) (role : Attachment) :
    ((t'.entry p).belongings role).Nodup := by
  rcases hbuilt.issued p hp with hp | rfl | ⟨i, hi, rfl⟩
  · rw [hbuilt.grows.entry p hp]
    exact h.nodup p hp role
  · rw [hbuilt.belongings_next hbuilds]
    split
    · exact nodup_memberIds t _
    · exact List.nodup_nil
  · rw [hbuilt.belongings_member hbuilds hi]
    exact List.nodup_nil

theorem listed {s p : SymbolId} (hs : t'.Issued s) (hdefinition : (t'.entry s).definition = none)
    (hcontainer : (t'.entry s).container = some p) :
    s ∈ (t'.entry p).belongings (t'.entry s).kind.role := by
  rcases hbuilt.issued s hs with hs | rfl | ⟨i, hi, rfl⟩
  · rw [hbuilt.grows.entry s hs] at hdefinition hcontainer ⊢
    rw [hbuilt.grows.entry p (h.closed.container hs hcontainer)]
    exact h.listed s hs hdefinition p hcontainer
  · rw [hbuilt.next] at hdefinition hcontainer
    rcases hbuilds.shape with ⟨-, hnone, -⟩ | ⟨-, -, hsome⟩
    · rw [show type.container = some p from hcontainer] at hnone
      cases hnone
    · exact absurd hdefinition hsome
  · obtain ⟨hfresh, -⟩ := hbuilds.member _ (List.getElem_mem hi)
    rw [hbuilt.member i hi] at hcontainer ⊢
    cases hcontainer
    rw [hbuilt.belongings_next hbuilds, if_pos hfresh.role]
    exact mem_memberIds.mpr ⟨i, hi, rfl⟩

theorem orphan {s : SymbolId} (hs : t'.Issued s) (hcontainer : (t'.entry s).container = none) :
    s = ⟨0⟩ ∨ (t'.entry s).kind.isStructural = true := by
  rcases hbuilt.issued s hs with hs | rfl | ⟨i, hi, rfl⟩
  · rw [hbuilt.grows.entry s hs] at hcontainer ⊢
    exact h.orphan s hs hcontainer
  · rw [hbuilt.next] at hcontainer ⊢
    rcases hbuilds.shape with ⟨hstructural, -⟩ | ⟨-, hsome, -⟩
    · exact .inr hstructural
    · exact absurd hcontainer hsome
  · rw [hbuilt.member i hi] at hcontainer
    cases hcontainer

theorem named {s : SymbolId} (hs : t'.Issued s) (hdefinition : (t'.entry s).definition ≠ none) :
    (t'.entry s).kind = .namedType := by
  rcases hbuilt.issued s hs with hs | rfl | ⟨i, hi, rfl⟩
  · rw [hbuilt.grows.entry s hs] at hdefinition ⊢
    exact h.named s hs hdefinition
  · rw [hbuilt.next] at hdefinition ⊢
    rcases hbuilds.shape with ⟨-, -, hnone⟩ | ⟨hkind, -⟩
    · exact absurd hnone hdefinition
    · exact hkind
  · obtain ⟨hfresh, -⟩ := hbuilds.member _ (List.getElem_mem hi)
    rw [hbuilt.member i hi] at hdefinition
    exact absurd hfresh.definition hdefinition

theorem answered {s : SymbolId} (hs : t'.Issued s)
    (hshape : (t'.entry s).kind.isStructural = true ∨ (t'.entry s).definition ≠ none) :
    ∃ shape, t'.interned.lookup shape = some s := by
  rcases hbuilt.issued s hs with hs | rfl | ⟨i, hi, rfl⟩
  · rw [hbuilt.grows.entry s hs] at hshape
    obtain ⟨shape', hlookup⟩ := h.answered s hs hshape
    exact ⟨shape', hbuilt.grows.interned shape' s hlookup⟩
  · exact ⟨shape, by simp [hbuilt.interned]⟩
  · obtain ⟨hfresh, -⟩ := hbuilds.member _ (List.getElem_mem hi)
    rw [hbuilt.member i hi] at hshape
    rcases hshape with hshape | hshape
    · rw [show members[i].kind.isStructural = false from hfresh.declared] at hshape
      cases hshape
    · exact absurd hfresh.definition hshape

omit hbuilds in
theorem embodied (hembodies : t'.Embodies t.next shape) {shape' : Shape} {s : SymbolId}
    (hlookup : t'.interned.lookup shape' = some s) : t'.Embodies s shape' := by
  by_cases heq : shape' = shape
  · rw [hbuilt.interned, heq, List.lookup_cons_self, Option.some.injEq] at hlookup
    rw [heq, ← hlookup]
    exact hembodies
  · rw [hbuilt.interned, lookup_cons_of_ne heq] at hlookup
    have hs := h.closed.interned shape' s hlookup
    have hold := hbuilt.grows.entry
    exact hbuilt.grows.keeps.embodies hs (fun m hm => h.closed.members hs hm) (by rw [hold s hs])
      (fun m hm _ => by rw [hold m (h.closed.members hs hm)]) (fun g _ hg => by rw [hold g hg])
      (h.embodied shape' s hlookup)

theorem typed {s : SymbolId} (hs : t'.Issued s) (hkind : (t'.entry s).kind = .parameter) :
    ∃ a, (t'.entry s).type = some a ∧ t'.IsType a := by
  rcases hbuilt.issued s hs with hs | rfl | ⟨i, hi, rfl⟩
  · rw [hbuilt.grows.entry s hs] at hkind ⊢
    obtain ⟨a, htype, ha⟩ := h.typed s hs hkind
    exact ⟨a, htype, hbuilt.grows.keeps.isType ha⟩
  · rw [hbuilt.next] at hkind
    exact absurd hkind hbuilds.kind
  · obtain ⟨hfresh, -⟩ := hbuilds.member _ (List.getElem_mem hi)
    rw [hbuilt.member i hi] at hkind
    have hrole := hfresh.role
    rw [show members[i].kind = .parameter from hkind] at hrole
    cases hrole

/-- Building a type that looks the way its shape says, and answering its shape with it, keeps a
table lawful. -/
theorem lawful (hembodies : t'.Embodies t.next shape) : t'.Lawful where
  closed := hbuilt.closed
  root := by
    obtain ⟨hroot, hkind, hcontainer⟩ := h.root
    exact ⟨hbuilt.grows.issued hroot, by rw [hbuilt.grows.entry _ hroot, hkind],
      by rw [hbuilt.grows.entry _ hroot, hcontainer]⟩
  object := hbuilt.grows.keeps.isType h.object
  belongs p hp role s hs := hbuilt.belongs h hbuilds hp hs
  nodup p hp role := hbuilt.nodup h hbuilds hp role
  listed s hs hdefinition p hcontainer := hbuilt.listed h hbuilds hs hdefinition hcontainer
  orphan s hs hcontainer := hbuilt.orphan h hbuilds hs hcontainer
  named s hs hdefinition := hbuilt.named h hbuilds hs hdefinition
  answered s hs hshape := hbuilt.answered h hbuilds hs hshape
  embodied shape' s hlookup := hbuilt.embodied h hembodies hlookup
  typed s hs hkind := hbuilt.typed h hbuilds hs hkind

end Built

/-- A request for a shape is answered from before, or the type is built. -/
theorem Lawful.intern {shape : Shape} {type : Symbol} {members : List Symbol} (h : t.Lawful)
    (hbuilds : t.Builds type members)
    (hembodies : ∀ t', Built t t' shape type members → t'.Embodies t.next shape) :
    (t.intern shape (addWithMembers type members)).2.Lawful := by
  have hextends : t.Extends (t.intern shape (addWithMembers type members)) :=
    .intern h.closed (h.closed.extends_addWithMembers hbuilds.references hbuilds.memberReferences)
  unfold SymbolTable.intern at hextends ⊢
  cases hnone : t.interned.lookup shape with
  | some s => exact h
  | none =>
      simp only [hnone] at hextends ⊢
      have hbuilt : Built t _ shape type members :=
        ⟨hextends.grows, hextends.closed, fun s hs => issued_addWithMembers hs,
          entry_addWithMembers_next type members t, fun i hi => entry_addWithMembers_member hi, rfl,
          hnone⟩
      exact hbuilt.lawful h hbuilds (hembodies _ hbuilt)

/-! ### Each shape -/

theorem IsType.earlier_next {a : SymbolId} (ha : t.IsType a) {t' : SymbolTable}
    (hgrows : t.Grows t') : t'.Earlier t.next a :=
  ⟨hgrows.keeps.isType ha, ha.issued⟩

/-- A type that has neither members nor type parameters nor parameters. -/
theorem Lawful.intern_add {shape : Shape} {type : Symbol} (h : t.Lawful)
    (hmembers : type.members = []) (hbuilds : t.Builds type [])
    (hembodies : ∀ t', t.Grows t' → t'.entry t.next = type → t'.Embodies t.next shape) :
    (t.intern shape (add type)).2.Lawful := by
  have hadd : add type = addWithMembers type [] := funext (add_eq_addWithMembers hmembers)
  rw [hadd]
  refine h.intern hbuilds fun t' hbuilt => hembodies t' hbuilt.grows ?_
  rw [hbuilt.next]
  show { type with members := [] } = type
  rw [← hmembers]

theorem Lawful.array {element : SymbolId} (h : t.Lawful) (helement : t.IsType element)
    (rank : UInt64) : (t.array element rank).2.Lawful := by
  refine h.intern_add rfl ?_ fun t' hgrows hentry => ?_
  · refine ⟨?_, rfl, rfl, by simp, .inl ⟨rfl, rfl, rfl⟩, by simp, by simp⟩
    simpa [Symbol.references] using helement.issued
  · refine ⟨by rw [hentry], by rw [hentry], by rw [hentry], helement.earlier_next hgrows⟩

theorem Lawful.pointer {pointee : SymbolId} (h : t.Lawful) (hpointee : t.IsType pointee) :
    (t.pointer pointee).2.Lawful := by
  refine h.intern_add rfl ?_ fun t' hgrows hentry => ?_
  · refine ⟨?_, rfl, rfl, by simp, .inl ⟨rfl, rfl, rfl⟩, by simp, by simp⟩
    simpa [Symbol.references] using hpointee.issued
  · exact ⟨by rw [hentry], by rw [hentry], hpointee.earlier_next hgrows⟩

/-- Whatever takes type arguments is a definition. -/
theorem isDefinition_of_checkArguments {g : SymbolId} {arguments : List SymbolId}
    (hg : t.Issued g) (hcheck : checkArguments (t.entry g) arguments = .ok ()) :
    t.IsDefinition g := by
  unfold checkArguments at hcheck
  split at hcheck
  · cases hcheck
  · next hgeneric =>
      have hgeneric := not_or.mp hgeneric
      refine ⟨hg, not_not.mp hgeneric.1, ?_⟩
      simpa using hgeneric.2

theorem length_of_checkArguments {x : Symbol} {arguments : List SymbolId}
    (hcheck : checkArguments x arguments = .ok ()) :
    x.typeParameters.length = arguments.length ∧ arguments ≠ [] := by
  unfold checkArguments at hcheck
  split at hcheck
  · cases hcheck
  · split at hcheck
    · cases hcheck
    · next hlength =>
        have hlength := not_or.mp hlength
        refine ⟨not_not.mp hlength.2, fun hnil => hlength.1 ?_⟩
        have hzero := not_not.mp hlength.2
        rw [hnil] at hzero
        exact List.eq_nil_of_length_eq_zero hzero

theorem IsDefinition.isType {g : SymbolId} (h : t.IsDefinition g) : t.IsType g :=
  ⟨h.issued, by rw [h.kind]; rfl⟩

/-- Only the global namespace and the structural types are nowhere. -/
theorem Lawful.container_ne_none (h : t.Lawful) {g : SymbolId} (hg : t.IsDefinition g) :
    (t.entry g).container ≠ none := by
  intro hnone
  rcases h.orphan g hg.issued hnone with rfl | hstructural
  · have hroot := h.root.2.1
    rw [hg.kind] at hroot
    cases hroot
  · rw [hg.kind] at hstructural
    cases hstructural

theorem Lawful.constructed {g : SymbolId} {arguments : List SymbolId} (h : t.Lawful)
    (hg : t.Issued g) (harguments : ∀ a ∈ arguments, t.IsType a)
    (hcheck : checkArguments (t.entry g) arguments = .ok ()) :
    (t.constructed g arguments).2.Lawful := by
  have hdefinition := isDefinition_of_checkArguments hg hcheck
  refine h.intern_add rfl ?_ fun t' hgrows hentry => ?_
  · refine ⟨fun r hr => ?_, rfl, rfl, by simp, .inr ⟨rfl, h.container_ne_none hdefinition,
      by simp⟩, by simp, by simp⟩
    simp only [Symbol.references, Option.toList_some, Option.toList_none, List.append_nil,
      List.mem_append, Option.mem_toList, List.mem_singleton] at hr
    rcases hr with (hr | hr) | rfl
    · exact h.closed.container hg hr
    · exact (harguments r hr).issued
    · exact hg
  · refine ⟨by rw [hentry], by rw [hentry], by rw [hentry],
      hdefinition.isType.earlier_next hgrows,
      fun a ha => (harguments a ha).earlier_next hgrows, ?_⟩
    rw [hgrows.entry g hg, hcheck]

theorem map_tupleFields (types : List SymbolId) (names : List (Option String))
    (locations : List Location) (hnames : types.length = names.length)
    (hlocations : types.length = locations.length) :
    (tupleFields types names locations).map (·.type) = types.map some ∧
      (tupleFields types names locations).map (·.name) = names.map (·.getD "") := by
  fun_induction tupleFields with
  | case1 type types name names location locations ih =>
      simp only [List.length_cons, Nat.add_right_cancel_iff] at hnames hlocations
      obtain ⟨htypes, hnames⟩ := ih hnames hlocations
      exact ⟨by rw [List.map_cons, htypes, List.map_cons],
        by rw [List.map_cons, hnames, List.map_cons]⟩
  | case2 types names locations hnone =>
      cases types with
      | nil =>
          rw [List.eq_nil_of_length_eq_zero hnames.symm]
          exact ⟨rfl, rfl⟩
      | cons type types =>
          cases names with
          | nil => cases hnames
          | cons name names =>
              cases locations with
              | nil => cases hlocations
              | cons location locations =>
                  exact absurd rfl (hnone type types name names location _ rfl rfl)

theorem mem_tupleFields {types : List SymbolId} {names : List (Option String)}
    {locations : List Location} :
    ∀ x ∈ tupleFields types names locations, Fresh .member x ∧ x.kind = .field := by
  fun_induction tupleFields with
  | case1 type types name names location locations ih =>
      intro x hx
      rcases List.mem_cons.mp hx with rfl | hx
      · exact ⟨⟨rfl, rfl, rfl, rfl, rfl, rfl⟩, rfl⟩
      · exact ih x hx
  | case2 => simp

theorem map_anonymousProperties (types : List SymbolId) (names : List String)
    (readOnly : List Bool) (locations : List Location) (hnames : names.length = types.length)
    (hreadOnly : readOnly.length = types.length) (hlocations : locations.length = types.length) :
    (anonymousProperties types names readOnly locations).map (·.type) = types.map some ∧
      (anonymousProperties types names readOnly locations).map (·.name) = names ∧
      (anonymousProperties types names readOnly locations).map (·.readOnly) = readOnly := by
  fun_induction anonymousProperties with
  | case1 type types name names fixed readOnly location locations ih =>
      simp only [List.length_cons, Nat.add_right_cancel_iff] at hnames hreadOnly hlocations
      obtain ⟨htypes, hnames, hreadOnly⟩ := ih hnames hreadOnly hlocations
      exact ⟨by rw [List.map_cons, htypes, List.map_cons], by rw [List.map_cons, hnames],
        by rw [List.map_cons, hreadOnly]⟩
  | case2 types names readOnly locations hnone =>
      cases types with
      | nil =>
          rw [List.eq_nil_of_length_eq_zero hnames, List.eq_nil_of_length_eq_zero hreadOnly]
          exact ⟨rfl, rfl, rfl⟩
      | cons type types =>
          cases names with
          | nil => cases hnames
          | cons name names =>
              cases readOnly with
              | nil => cases hreadOnly
              | cons fixed readOnly =>
                  cases locations with
                  | nil => cases hlocations
                  | cons location locations =>
                      exact absurd rfl (hnone type types name names fixed readOnly location _ rfl
                        rfl rfl)

theorem mem_anonymousProperties {types : List SymbolId} {names : List String}
    {readOnly : List Bool} {locations : List Location} :
    ∀ x ∈ anonymousProperties types names readOnly locations,
      Fresh .member x ∧ x.kind = .property := by
  fun_induction anonymousProperties with
  | case1 type types name names fixed readOnly location locations ih =>
      intro x hx
      rcases List.mem_cons.mp hx with rfl | hx
      · exact ⟨⟨rfl, rfl, rfl, rfl, rfl, rfl⟩, rfl⟩
      · exact ih x hx
  | case2 => simp

theorem lengths_of_checkTuple {types : List SymbolId} {names : List (Option String)}
    {locations : List Location} (h : checkTuple types names locations = .ok ()) :
    types.length = names.length ∧ types.length = locations.length := by
  unfold checkTuple at h
  split at h
  · cases h
  · next hlengths => exact ⟨by omega, by omega⟩

theorem lengths_of_checkAnonymous {limit : Option Nat} {types : List SymbolId} {names : List String}
    {readOnly : List Bool} {locations : List Location}
    (h : checkAnonymous limit types names readOnly locations = .ok ()) :
    names.length = types.length ∧ readOnly.length = types.length ∧
      locations.length = types.length := by
  unfold checkAnonymous at h
  split at h
  · cases h
  · next hlengths => exact ⟨by omega, by omega, by omega⟩

/-- What is built under a cap would be built without one. -/
theorem checkAnonymous_none {limit : Option Nat} {types : List SymbolId} {names : List String}
    {readOnly : List Bool} {locations : List Location}
    (h : checkAnonymous limit types names readOnly locations = .ok ()) :
    checkAnonymous none types names readOnly locations = .ok () := by
  cases limit with
  | none => exact h
  | some limit =>
      unfold checkAnonymous at h ⊢
      split at h
      · cases h
      · next hlengths =>
          rw [if_neg hlengths]
          simp only at h ⊢
          by_cases hlimit : types.length > limit
          · rw [if_pos hlimit] at h
            cases h
          · rw [if_neg hlimit] at h
            exact h

theorem Lawful.tuple {types : List SymbolId} {names : List (Option String)}
    {locations : List Location} (h : t.Lawful) (htypes : ∀ a ∈ types, t.IsType a)
    (hcheck : checkTuple types names locations = .ok ()) :
    (t.intern (.tuple types names)
      (addWithMembers { kind := .tupleType, name := "" }
        (tupleFields types names locations))).2.Lawful := by
  obtain ⟨hnames, hlocations⟩ := lengths_of_checkTuple hcheck
  obtain ⟨hmaptypes, hmapnames⟩ := map_tupleFields types names locations hnames hlocations
  refine h.intern ?_ fun t' hbuilt => ?_
  · refine ⟨by simp [Symbol.references], rfl, rfl, by simp, .inl ⟨rfl, rfl, rfl⟩, ?_, ?_⟩
    · intro x hx r hr
      exact (htypes r (references_tupleFields x hx r hr)).issued
    · intro x hx
      obtain ⟨hfresh, hkind⟩ := mem_tupleFields x hx
      exact ⟨hfresh, .inl ⟨rfl, hkind⟩⟩
  · refine ⟨by rw [hbuilt.next], fun m hm => ?_, ?_, ?_,
      fun a ha => (htypes a ha).earlier_next hbuilt.grows, locations, hcheck⟩
    · obtain ⟨x, hx, hentry⟩ := hbuilt.mem_members hm
      rw [hentry]
      exact (mem_tupleFields x hx).2
    · rw [hbuilt.map_members (·.type) (fun _ _ => rfl), hmaptypes]
    · rw [hbuilt.map_members (·.name) (fun _ _ => rfl), hmapnames]

theorem Lawful.anonymous {limit : Option Nat} {types : List SymbolId} {names : List String}
    {readOnly : List Bool} {locations : List Location} (h : t.Lawful)
    (htypes : ∀ a ∈ types, t.IsType a)
    (hcheck : checkAnonymous limit types names readOnly locations = .ok ()) :
    (t.intern (.anonymous types names readOnly)
      (addWithMembers { kind := .anonymousType, name := "" }
        (anonymousProperties types names readOnly locations))).2.Lawful := by
  obtain ⟨hnames, hreadOnly, hlocations⟩ := lengths_of_checkAnonymous hcheck
  obtain ⟨hmaptypes, hmapnames, hmapreadOnly⟩ :=
    map_anonymousProperties types names readOnly locations hnames hreadOnly hlocations
  refine h.intern ?_ fun t' hbuilt => ?_
  · refine ⟨by simp [Symbol.references], rfl, rfl, by simp, .inl ⟨rfl, rfl, rfl⟩, ?_, ?_⟩
    · intro x hx r hr
      exact (htypes r (references_anonymousProperties x hx r hr)).issued
    · intro x hx
      obtain ⟨hfresh, hkind⟩ := mem_anonymousProperties x hx
      exact ⟨hfresh, .inr ⟨rfl, hkind⟩⟩
  · refine ⟨by rw [hbuilt.next], fun m hm => ?_, ?_, ?_, ?_,
      fun a ha => (htypes a ha).earlier_next hbuilt.grows, locations, checkAnonymous_none hcheck⟩
    · obtain ⟨x, hx, hentry⟩ := hbuilt.mem_members hm
      obtain ⟨hfresh, hkind⟩ := mem_anonymousProperties x hx
      rw [hentry]
      exact ⟨hkind, hfresh.parameters⟩
    · rw [hbuilt.map_members (·.type) (fun _ _ => rfl), hmaptypes]
    · rw [hbuilt.map_members (·.name) (fun _ _ => rfl), hmapnames]
    · rw [hbuilt.map_members (·.readOnly) (fun _ _ => rfl), hmapreadOnly]

/-! ### What structural types look like -/

section Looks

variable (h : t.Lawful) (hs : t.Issued s)
include h hs

theorem Lawful.exists_shape
    (hshape : (t.entry s).kind.isStructural = true ∨ (t.entry s).definition ≠ none) :
    ∃ shape, t.interned.lookup shape = some s ∧ t.Embodies s shape ∧
      shape.kind = (t.entry s).kind := by
  obtain ⟨shape, hlookup⟩ := h.answered s hs hshape
  have hembodies := h.embodied shape s hlookup
  exact ⟨shape, hlookup, hembodies, hembodies.kind.symm⟩

theorem Lawful.exists_array (hkind : (t.entry s).kind = .arrayType) :
    ∃ element rank, t.interned.lookup (.array element rank) = some s ∧
      t.Embodies s (.array element rank) := by
  obtain ⟨shape, hlookup, hembodies, hshape⟩ := h.exists_shape hs (.inl (by rw [hkind]; rfl))
  rw [hkind] at hshape
  cases shape with
  | array element rank => exact ⟨element, rank, hlookup, hembodies⟩
  | pointer _ | constructed _ _ | tuple _ _ | anonymous _ _ _ => cases hshape

theorem Lawful.exists_pointer (hkind : (t.entry s).kind = .pointerType) :
    ∃ pointee, t.interned.lookup (.pointer pointee) = some s ∧ t.Embodies s (.pointer pointee) := by
  obtain ⟨shape, hlookup, hembodies, hshape⟩ := h.exists_shape hs (.inl (by rw [hkind]; rfl))
  rw [hkind] at hshape
  cases shape with
  | pointer pointee => exact ⟨pointee, hlookup, hembodies⟩
  | array _ _ | constructed _ _ | tuple _ _ | anonymous _ _ _ => cases hshape

theorem Lawful.exists_tuple (hkind : (t.entry s).kind = .tupleType) :
    ∃ types names, t.interned.lookup (.tuple types names) = some s ∧
      t.Embodies s (.tuple types names) := by
  obtain ⟨shape, hlookup, hembodies, hshape⟩ := h.exists_shape hs (.inl (by rw [hkind]; rfl))
  rw [hkind] at hshape
  cases shape with
  | tuple types names => exact ⟨types, names, hlookup, hembodies⟩
  | array _ _ | pointer _ | constructed _ _ | anonymous _ _ _ => cases hshape

theorem Lawful.exists_anonymous (hkind : (t.entry s).kind = .anonymousType) :
    ∃ types names readOnly, t.interned.lookup (.anonymous types names readOnly) = some s ∧
      t.Embodies s (.anonymous types names readOnly) := by
  obtain ⟨shape, hlookup, hembodies, hshape⟩ := h.exists_shape hs (.inl (by rw [hkind]; rfl))
  rw [hkind] at hshape
  cases shape with
  | anonymous types names readOnly => exact ⟨types, names, readOnly, hlookup, hembodies⟩
  | array _ _ | pointer _ | constructed _ _ | tuple _ _ => cases hshape

/-- What is constructed is constructed from the definition that it names. -/
theorem Lawful.exists_constructed {g : SymbolId} (hdefinition : (t.entry s).definition = some g) :
    t.interned.lookup (.constructed g (t.entry s).typeArguments) = some s ∧
      t.Embodies s (.constructed g (t.entry s).typeArguments) := by
  have hne : (t.entry s).definition ≠ none := by simp [hdefinition]
  obtain ⟨shape, hlookup, hembodies, hshape⟩ := h.exists_shape hs (.inr hne)
  rw [h.named s hs hne] at hshape
  cases shape with
  | constructed g' arguments =>
      obtain ⟨-, hdefinition', harguments, -⟩ := id hembodies
      rw [hdefinition, Option.some.injEq] at hdefinition'
      rw [hdefinition', harguments]
      exact ⟨hlookup, hembodies⟩
  | array _ _ | pointer _ | tuple _ _ | anonymous _ _ _ => cases hshape

end Looks

end SymbolTable

/-! ## Requests -/

namespace TypeRequest

variable {t : SymbolTable}

/-- The request mentions issued symbols, and types where types are expected. -/
def Contained (t : SymbolTable) (r : TypeRequest) : Prop :=
  (∀ s ∈ r.symbols, t.Issued s) ∧ ∀ a ∈ r.types, t.IsType a

theorem after_lawful (r : TypeRequest) (h : t.Lawful) (hr : r.Contained t) :
    (r.after t).Lawful := by
  obtain ⟨hsymbols, htypes⟩ := hr
  cases r with
  | array element rank => exact h.array (htypes element (by simp [types])) rank
  | pointer pointee => exact h.pointer (htypes pointee (by simp [types]))
  | constructed definition arguments =>
      simp only [after]
      split
      · next hcheck =>
          exact h.constructed (hsymbols definition (by simp [symbols])) htypes hcheck
      · exact h
  | tuple types names locations =>
      simp only [after]
      split
      · next answer ha =>
          obtain ⟨hcheck, rfl⟩ := SymbolTable.tuple_eq_ok.mp ha
          exact h.tuple htypes hcheck
      · exact h
  | anonymous types names readOnly locations =>
      simp only [after]
      split
      · next answer ha =>
          obtain ⟨hcheck, rfl⟩ := SymbolTable.anonymous_eq_ok.mp ha
          exact h.anonymous htypes hcheck
      · exact h

end TypeRequest

namespace Request

open SymbolTable

variable {t : SymbolTable}

/-- The request respects containment. -/
def Contained (t : SymbolTable) : Request → Prop
  | file _ | limitAnonymousArity _ => True
  | nameSpace parent _ => t.Issued parent ∧ t.Hosts parent .nameSpace
  | namedType container _ _ => t.Issued container ∧ t.Hosts container .namedType
  | field owner _ type _ | property owner _ type _ _ => t.IsDefinition owner ∧ t.IsType type
  | indexer owner _ type parameters =>
    t.IsDefinition owner ∧ t.IsType type ∧ ∀ p ∈ parameters, t.IsType p.2
  | method owner _ _ => t.IsDefinition owner
  | parameter owner _ type =>
    t.Issued owner ∧ t.Hosts owner .parameter ∧ t.IsType type ∧
      ∀ p, (t.entry owner).container = some p → t.IsDefinition p
  | localVariable owner _ type => t.Issued owner ∧ t.Hosts owner .localVariable ∧ t.IsType type
  | structural request => request.Contained t

theorem Contained.issued {r : Request} (h : r.Contained t) : r.Issued t := by
  intro s hs
  cases r with
  | file path | limitAnonymousArity limit => cases hs
  | nameSpace owner name | namedType owner name typeParameters =>
      rw [List.mem_singleton.mp hs]
      exact h.1
  | method owner name typeParameters =>
      rw [List.mem_singleton.mp hs]
      exact IsDefinition.issued h
  | field owner name type location | property owner name type readOnly location =>
      simp only [symbols, List.mem_cons, List.not_mem_nil, or_false] at hs
      rcases hs with rfl | rfl
      · exact h.1.issued
      · exact h.2.issued
  | parameter owner name type | localVariable owner name type =>
      simp only [symbols, List.mem_cons, List.not_mem_nil, or_false] at hs
      rcases hs with rfl | rfl
      · exact h.1
      · first | exact h.2.2.1.issued | exact h.2.2.issued
  | indexer owner name type parameters =>
      simp only [symbols, List.mem_cons, List.mem_map] at hs
      rcases hs with rfl | rfl | ⟨p, hp, rfl⟩
      · exact h.1.issued
      · exact h.2.1.issued
      · exact (h.2.2 p hp).issued
  | structural request => exact h.1 s hs

theorem fresh_typeParameter (name : String) : Fresh .typeParameter (typeParameterEntry name) :=
  ⟨rfl, rfl, rfl, rfl, rfl, rfl⟩

theorem fresh_parameter (p : String × SymbolId) : Fresh .parameter (parameterEntry p) :=
  ⟨rfl, rfl, rfl, rfl, rfl, rfl⟩

end Request

namespace SymbolTable

open Request

variable {t : SymbolTable} {owner s p : SymbolId} {x : Symbol} {role : Attachment}

theorem Lawful.definition_eq_none (h : t.Lawful) (hs : t.Issued s)
    (hkind : (t.entry s).kind ≠ .namedType) : (t.entry s).definition = none := by
  by_cases hdefinition : (t.entry s).definition = none
  · exact hdefinition
  · exact absurd (h.named s hs hdefinition) hkind

/-- A symbol lies where its kind may lie. -/
theorem Lawful.hosts (h : t.Lawful) (hs : t.Issued s) (hdefinition : (t.entry s).definition = none)
    (hcontainer : (t.entry s).container = some p) : t.Hosts p (t.entry s).kind :=
  (h.belongs p (h.closed.container hs hcontainer) _ s (h.listed s hs hdefinition p hcontainer)).host

/-- Namespaces, definitions and methods take whatever may lie in them. -/
theorem Lawful.welcomes (h : t.Lawful) (ho : t.Issued owner) (hhosts : t.Hosts owner x.kind)
    (howner : (t.entry owner).kind = .nameSpace ∨ t.IsDefinition owner ∨
      (t.entry owner).kind = .method ∨ (t.entry owner).kind = .property ∧
        ∀ p, (t.entry owner).container = some p → t.IsDefinition p)
    (hreferences : ∀ r ∈ x.references, t.Issued r)
    (htyped : x.kind = .parameter → ∃ a, x.type = some a ∧ t.IsType a)
    (hrole : role ≠ .typeParameter) :
    t.Welcomes role owner x := by
  have hdefinition : (t.entry owner).definition = none := by
    rcases howner with hkind | hdefinition | hkind | ⟨hkind, -⟩
    · exact h.definition_eq_none ho (by simp [hkind])
    · exact hdefinition.definition
    · exact h.definition_eq_none ho (by simp [hkind])
    · exact h.definition_eq_none ho (by simp [hkind])
  refine ⟨ho, hhosts, ?_, hdefinition, fun p hp => ?_, hreferences, htyped,
    fun hr => absurd hr hrole⟩
  · rcases howner with hkind | hdefinition | hkind | ⟨hkind, -⟩
    · rw [hkind]; rfl
    · rw [hdefinition.kind]; rfl
    · rw [hkind]; rfl
    · rw [hkind]; rfl
  · have hhost := h.hosts ho hdefinition hp
    rcases howner with hkind | hdefinition | hkind | ⟨hkind, hcontainer⟩
    · rw [hkind] at hhost
      simp [show (t.entry p).kind = .nameSpace from hhost]
    · rw [hdefinition.kind] at hhost
      rcases hhost with hhost | hhost
      · simp [hhost]
      · simp [hhost.kind]
    · rw [hkind] at hhost
      simp [IsDefinition.kind hhost]
    · simp [(hcontainer p hp).kind]

end SymbolTable

namespace Request

open SymbolTable

variable {t : SymbolTable}

/-- A request that respects containment keeps a table lawful. -/
theorem after_lawful (r : Request) (h : t.Lawful) (hr : r.Contained t) : (r.after t).Lawful := by
  cases r with
  | file path => exact h
  | limitAnonymousArity limit =>
      have hkeeps : t.Keeps ((limitAnonymousArity limit).after t) := by
        refine ⟨Nat.le_refl _, ?_, ?_, ?_, ?_, ?_, ?_, ?_, ?_⟩ <;> intro s _ <;> rfl
      refine ⟨⟨h.closed.references, h.closed.interned⟩, h.root, hkeeps.isType h.object, ?_, h.nodup,
        h.listed, h.orphan, h.named, h.answered, ?_, ?_⟩
      · intro p hp role s hs
        exact hkeeps.belongs hp (h.issued_belongings hp hs) (h.belongs p hp role s hs)
      · intro shape s hlookup
        have hs := h.closed.interned shape s hlookup
        exact hkeeps.embodies hs (fun m hm => h.closed.members hs hm) rfl (fun _ _ _ => rfl)
          (fun _ _ _ => rfl) (h.embodied shape s hlookup)
      · intro s hs hkind
        obtain ⟨a, htype, ha⟩ := h.typed s hs hkind
        exact ⟨a, htype, hkeeps.isType ha⟩
  | nameSpace parent name =>
      obtain ⟨hp, hhosts⟩ := hr
      refine h.declared ⟨rfl, rfl, rfl, rfl, rfl, rfl⟩ ?_
      exact h.welcomes hp hhosts (.inl hhosts) (by simp [Symbol.references]) (by simp) (by simp)
  | namedType container name typeParameters =>
      obtain ⟨hc, hhosts⟩ := hr
      have howner : (t.entry container).kind = .nameSpace ∨ t.IsDefinition container := hhosts
      have hfresh : Fresh .member { kind := .namedType, name := name } :=
        ⟨rfl, rfl, rfl, rfl, rfl, rfl⟩
      have hwelcome : t.Welcomes .member container { kind := .namedType, name := name } := by
        refine h.welcomes hc hhosts ?_ (by simp [Symbol.references]) (by simp) (by simp)
        exact howner.imp_right .inl
      refine (h.declared hfresh hwelcome).declaredAll (fun x hx => ?_) fun x hx => ?_
      · obtain ⟨name, -, rfl⟩ := List.mem_map.mp hx
        exact fresh_typeParameter name
      · obtain ⟨name, -, rfl⟩ := List.mem_map.mp hx
        refine h.welcomes_next hc hfresh ?_ (.inl ⟨issued_next_declared, ?_, ?_⟩)
          (by simp [Symbol.references, typeParameterEntry]) (by simp [typeParameterEntry])
        · rcases howner with hkind | hdefinition
          · simp [hkind]
          · simp [hdefinition.kind]
        · rw [entry_declared_next]
        · rw [entry_declared_next]
  | method owner name typeParameters =>
      have hdefinition : t.IsDefinition owner := hr
      have ho := hdefinition.issued
      have hfresh : Fresh .member { kind := .method, name := name } :=
        ⟨rfl, rfl, rfl, rfl, rfl, rfl⟩
      have hwelcome : t.Welcomes .member owner { kind := .method, name := name } :=
        h.welcomes ho hdefinition (.inr (.inl hdefinition)) (by simp [Symbol.references]) (by simp)
          (by simp)
      refine (h.declared hfresh hwelcome).declaredAll (fun x hx => ?_) fun x hx => ?_
      · obtain ⟨name, -, rfl⟩ := List.mem_map.mp hx
        exact fresh_typeParameter name
      · obtain ⟨name, -, rfl⟩ := List.mem_map.mp hx
        refine h.welcomes_next ho hfresh (by simp [hdefinition.kind]) (.inr ?_)
          (by simp [Symbol.references, typeParameterEntry]) (by simp [typeParameterEntry])
        rw [entry_declared_next]
  | indexer owner name type parameters =>
      obtain ⟨hdefinition, htype, hparameters⟩ := hr
      have ho := hdefinition.issued
      have hfresh : Fresh .member
          { kind := .property, name := name, type := some type, readOnly := true } :=
        ⟨rfl, rfl, rfl, rfl, rfl, rfl⟩
      have hwelcome : t.Welcomes .member owner
          { kind := .property, name := name, type := some type, readOnly := true } :=
        h.welcomes ho (.inl hdefinition) (.inr (.inl hdefinition))
          (by simpa [Symbol.references] using htype.issued) (by simp) (by simp)
      refine (h.declared hfresh hwelcome).declaredAll (fun x hx => ?_) fun x hx => ?_
      · obtain ⟨p, -, rfl⟩ := List.mem_map.mp hx
        exact fresh_parameter p
      · obtain ⟨p, hp, rfl⟩ := List.mem_map.mp hx
        refine h.welcomes_next ho hfresh (by simp [hdefinition.kind]) (.inr ?_) ?_
          fun _ => ⟨p.2, rfl, hparameters p hp⟩
        · rw [entry_declared_next]
        · simpa [Symbol.references, parameterEntry] using (hparameters p hp).issued
  | field owner name type location | property owner name type readOnly location =>
      obtain ⟨hdefinition, htype⟩ := hr
      refine h.declared ⟨rfl, rfl, rfl, rfl, rfl, rfl⟩ ?_
      exact h.welcomes hdefinition.issued (.inl hdefinition) (.inr (.inl hdefinition))
        (by simpa [Symbol.references] using htype.issued) (by simp) (by simp)
  | parameter owner name type =>
      obtain ⟨ho, hhosts, htype, hcontainer⟩ := hr
      refine h.declared (fresh_parameter _) ?_
      refine h.welcomes ho hhosts ?_
        (by simpa [Symbol.references, parameterEntry] using htype.issued)
        (fun _ => ⟨type, rfl, htype⟩) (by simp)
      exact .inr (.inr (hhosts.imp_right fun hkind => ⟨hkind, hcontainer⟩))
  | localVariable owner name type =>
      obtain ⟨ho, hhosts, htype⟩ := hr
      refine h.declared ⟨rfl, rfl, rfl, rfl, rfl, rfl⟩ ?_
      exact h.welcomes ho hhosts (.inr (.inr (.inl hhosts)))
        (by simpa [Symbol.references] using htype.issued) (by simp) (by simp)
  | structural request => exact request.after_lawful h hr

end Request

/-- The empty draft consists of the global namespace and the built-in types in it. -/
theorem Draft.entry_empty {s : SymbolId} (hs : Draft.empty.table.Issued s) :
    s = global ∨ s ∈ [object, int, string, bool] ∧
      ∃ name, Draft.empty.table.entry s = builtin name := by
  obtain ⟨i⟩ := s
  have hlt : i < 5 := hs
  have hcases : i = 0 ∨ i = 1 ∨ i = 2 ∨ i = 3 ∨ i = 4 := by omega
  rcases hcases with rfl | rfl | rfl | rfl | rfl
  · exact .inl rfl
  all_goals exact .inr ⟨by decide, _, rfl⟩

theorem Draft.lawful_empty : Draft.empty.table.Lawful := by
  have hmembers : ∀ s ∈ [object, int, string, bool],
      Draft.empty.table.Issued s ∧ 0 < s.index ∧
          ∃ name, Draft.empty.table.entry s = builtin name := by
    intro s hs
    simp only [List.mem_cons, List.not_mem_nil, or_false] at hs
    rcases hs with rfl | rfl | rfl | rfl <;>
      exact ⟨by unfold SymbolTable.Issued; decide, by decide, _, rfl⟩
  have hroot : Draft.empty.table.Issued global := by unfold SymbolTable.Issued; decide
  refine ⟨closed_empty, ⟨hroot, rfl, rfl⟩, ⟨(hmembers object (by decide)).1, rfl⟩, ?_, ?_,
    ?_, ?_, ?_, ?_, ?_, ?_⟩
  · intro p hp role s hs
    rcases entry_empty hp with rfl | ⟨-, name, hentry⟩
    · cases role with
      | member =>
          obtain ⟨hissued, hlt, name, hentry⟩ := hmembers s hs
          refine ⟨hlt, by rw [hentry]; rfl, by rw [hentry]; rfl, by rw [hentry]; rfl, ?_⟩
          rw [hentry]
          exact .inl rfl
      | parameter | typeParameter => cases hs
    · rw [hentry] at hs
      cases role <;> cases hs
  · intro p hp role
    rcases entry_empty hp with rfl | ⟨-, name, hentry⟩
    · cases role <;> decide
    · rw [hentry]
      cases role <;> exact List.nodup_nil
  · intro s hs hdefinition p hcontainer
    rcases entry_empty hs with rfl | ⟨hs, name, hentry⟩
    · cases hcontainer
    · rw [hentry] at hcontainer ⊢
      cases hcontainer
      exact hs
  · intro s hs hcontainer
    rcases entry_empty hs with rfl | ⟨hs, name, hentry⟩
    · exact .inl rfl
    · rw [hentry] at hcontainer
      cases hcontainer
  · intro s hs hdefinition
    rcases entry_empty hs with rfl | ⟨hs, name, hentry⟩
    · exact absurd rfl hdefinition
    · rw [hentry]
      rfl
  · intro s hs hshape
    rcases entry_empty hs with rfl | ⟨hs, name, hentry⟩
    · rcases hshape with hshape | hshape
      · cases hshape
      · exact absurd rfl hshape
    · rw [hentry] at hshape
      rcases hshape with hshape | hshape
      · cases hshape
      · exact absurd rfl hshape
  · intro shape s hlookup
    cases hlookup
  · intro s hs hkind
    rcases entry_empty hs with rfl | ⟨hs, name, hentry⟩
    · cases hkind
    · rw [hentry] at hkind
      cases hkind

/-- A compilation that respects containment and hides nothing. -/
structure Compilation.Lawful (c : Compilation) : Prop where
  table : c.table.Lawful
  plain : c.Plain

theorem Compilation.Lawful.closed {c : Compilation} (h : c.Lawful) : c.Closed := by
  refine ⟨h.table.closed, ?_, ?_⟩
  · rw [h.plain.global]
    exact h.table.root.1
  · rw [h.plain.universal]
    exact h.table.object.issued

/-- Compilations are lawful if every request respects containment. -/
theorem Compilation.Made.lawful {c : Compilation} (h : c.Made Request.Contained) : c.Lawful := by
  obtain ⟨htable, hplain⟩ := h.table (fun _ _ hr => hr.issued) Draft.lawful_empty
    fun _ r ht hr => r.after_lawful ht hr
  exact ⟨htable, hplain⟩

section Mono

variable {allows allows' : SymbolTable → Request → Prop} (h : ∀ t r, allows t r → allows' t r)
include h

theorem Draft.Made.mono {d : Draft} (hmade : d.Made allows) : d.Made allows' := by
  induction hmade with
  | empty => exact .empty
  | request _ hallows hrun ih => exact .request ih (h _ _ hallows) hrun

theorem Compilation.Made.mono {c : Compilation} (hmade : c.Made allows) : c.Made allows' := by
  induction hmade with
  | finish hmade => exact .finish (hmade.mono h)
  | request _ hallows hrun ih => exact .request ih (h _ _ hallows) hrun

end Mono

end Moniker
