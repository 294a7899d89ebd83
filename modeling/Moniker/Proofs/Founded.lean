import Moniker.Proofs.Containment

/-!
# Founded tables

That descriptions end takes less than containment. `Request.Anchored` asks of a request only that
namespaces, types and methods go under namespaces and named types, declared or constructed, that
types stand where types are expected, and that no elements are added to a tuple or an anonymous
type, which has those of its shape. Fields, properties, parameters and locals may be declared
anywhere else, and parameters at any time.

In a table that is made this way an entry rests on symbols that were issued before it
(`SymbolTable.Anchored`): its container, its definition and type arguments, the types of its
elements. Parameters alone can have types that were issued after their owner. Every request keeps
this up (`Request.after_founded`), as a request refers to nothing that is yet to be issued.
-/

namespace Moniker

/-- Whether symbols of the kind are the elements of types of the other kind. -/
def SymbolKind.IsElementOf (kind type : SymbolKind) : Prop :=
  type = .tupleType ∧ kind = .field ∨ type = .anonymousType ∧ kind = .property

/-- Whether the kind stands at the outside of descriptions only. -/
def SymbolKind.isOuter : SymbolKind → Bool
  | .field | .property | .parameter | .localVariable => true
  | _ => false

theorem SymbolKind.isOuter_of_isType {kind : SymbolKind} (h : kind.isType = true) :
    kind.isOuter = false := by
  cases kind <;> first | rfl | cases h

namespace SymbolTable

variable {t t' : SymbolTable} {s p owner : SymbolId} {x : Symbol} {role : Attachment}

/-- What can be around a symbol of the kind. -/
def Bears (t : SymbolTable) (p : SymbolId) : SymbolKind → Prop
  | .nameSpace | .namedType | .method =>
    (t.entry p).kind = .nameSpace ∨ (t.entry p).kind = .namedType
  | .typeParameter => (t.entry p).kind = .namedType ∨ (t.entry p).kind = .method
  | .arrayType | .pointerType | .tupleType | .anonymousType => False
  | .field | .property | .parameter | .localVariable => True

/-- What a symbol's entry refers to was there before the symbol, but for the types of parameters. -/
structure Anchored (t : SymbolTable) (s : SymbolId) : Prop where
  container : (t.entry s).definition = none → ∀ p, (t.entry s).container = some p →
    p.index < s.index ∧ t.Bears p (t.entry s).kind
  definition : ∀ g, (t.entry s).definition = some g → (t.entry s).kind = .namedType ∧
    t.IsDefinition g ∧ g.index < s.index ∧ ∀ a ∈ (t.entry s).typeArguments, t.Earlier s a
  element : (t.entry s).kind = .arrayType ∨ (t.entry s).kind = .pointerType →
    ∃ a, (t.entry s).type = some a ∧ t.Earlier s a
  elements : ∀ m ∈ (t.entry s).members, (t.entry m).kind.IsElementOf (t.entry s).kind →
    ∃ a, (t.entry m).type = some a ∧ t.Earlier s a
  parameters : ∀ m ∈ (t.entry s).parameters, ∃ a, (t.entry m).type = some a ∧ t.IsType a

/-- A table in which every symbol is anchored, the global namespace being the first. -/
structure Founded (t : SymbolTable) : Prop where
  closed : t.Closed
  root : t.Issued ⟨0⟩ ∧ (t.entry ⟨0⟩).kind = .nameSpace
  anchored : ∀ s, t.Issued s → t.Anchored s

/-- What can be around an outer symbol only is one itself. -/
theorem isOuter_of_bears {kind : SymbolKind} (hbears : t.Bears p kind)
    (hp : (t.entry p).kind.isOuter = true) : kind.isOuter = true := by
  cases kind <;> first
    | rfl
    | exact hbears.elim
    | (rcases hbears with hkind | hkind <;> rw [hkind] at hp <;> cases hp)

theorem Keeps.bears (h : t.Keeps t') {kind : SymbolKind} (hp : t.Issued p)
    (hbears : t.Bears p kind) : t'.Bears p kind := by
  have hkind := h.kind p hp
  cases kind <;> simp only [Bears, hkind] at hbears ⊢ <;> exact hbears

/-- A symbol stays anchored while it gains no elements and its new parameters have types. -/
theorem Anchored.later (h : t.Anchored s) (hclosed : t.Closed) (hs : t.Issued s)
    (hkeeps : t.Keeps t')
    (hmembers : ∀ m ∈ (t'.entry s).members,
      m ∈ (t.entry s).members ∨ ¬ (t'.entry m).kind.IsElementOf (t.entry s).kind)
    (hparameters : ∀ m ∈ (t'.entry s).parameters,
      m ∈ (t.entry s).parameters ∨ ∃ a, (t'.entry m).type = some a ∧ t'.IsType a) :
    t'.Anchored s where
  container hself p hp := by
    rw [hkeeps.definition s hs] at hself
    rw [hkeeps.container s hs] at hp
    obtain ⟨hlt, hbears⟩ := h.container hself p hp
    rw [hkeeps.kind s hs]
    exact ⟨hlt, hkeeps.bears (hclosed.container hs hp) hbears⟩
  definition g hg := by
    rw [hkeeps.definition s hs] at hg
    obtain ⟨hkind, hdefinition, hlt, harguments⟩ := h.definition g hg
    rw [hkeeps.kind s hs, hkeeps.typeArguments s hs]
    exact ⟨hkind, hkeeps.isDefinition hdefinition, hlt,
      fun a ha => hkeeps.earlier (harguments a ha)⟩
  element hkind := by
    rw [hkeeps.kind s hs] at hkind
    obtain ⟨a, htype, ha⟩ := h.element hkind
    exact ⟨a, by rw [hkeeps.type s hs, htype], hkeeps.earlier ha⟩
  elements m hm hkind := by
    rw [hkeeps.kind s hs] at hkind
    rcases hmembers m hm with hm | hnot
    · have hissued := hclosed.members hs hm
      rw [hkeeps.kind m hissued] at hkind
      obtain ⟨a, htype, ha⟩ := h.elements m hm hkind
      exact ⟨a, by rw [hkeeps.type m hissued, htype], hkeeps.earlier ha⟩
    · exact absurd hkind hnot
  parameters m hm := by
    rcases hparameters m hm with hm | hnew
    · obtain ⟨a, htype, ha⟩ := h.parameters m hm
      exact ⟨a, by rw [hkeeps.type m (hclosed.parameters hs hm), htype], hkeeps.isType ha⟩
    · exact hnew

/-- What a table has been asked for is no part of its entries. -/
theorem keeps_of_symbols (h : t'.symbols = t.symbols) : t.Keeps t' := by
  have hentry : ∀ s, t'.entry s = t.entry s := fun s => by rw [entry, entry, h]
  have hsize : t.size ≤ t'.size := Nat.le_of_eq (by rw [size, size, h])
  refine ⟨hsize, ?_, ?_, ?_, ?_, ?_, ?_, ?_, ?_⟩ <;> intro s _ <;> rw [hentry]

/-- Where nothing is declared, every symbol stays anchored. -/
theorem Anchored.grows (h : t.Anchored s) (hclosed : t.Closed) (hs : t.Issued s)
    (hgrows : t.Grows t') :
    t'.Anchored s := by
  refine h.later hclosed hs hgrows.keeps (fun m hm => .inl ?_) fun m hm => .inl ?_
  · rwa [hgrows.entry s hs] at hm
  · rwa [hgrows.entry s hs] at hm

/-- What is fresh is anchored in whatever was there before and can be around it. -/
theorem anchored_fresh (hentry : t.entry s = { x with container := some owner })
    (hfresh : Fresh role x)
    (hlt : owner.index < s.index) (hbears : t.Bears owner x.kind) : t.Anchored s := by
  refine ⟨fun _ p hp => ?_, fun g hg => ?_, fun hkind => ?_, fun m hm => ?_, fun m hm => ?_⟩
  · rw [hentry] at hp ⊢
    cases hp
    exact ⟨hlt, hbears⟩
  · rw [hentry] at hg
    cases hfresh.definition.symm.trans hg
  · rw [hentry] at hkind
    have hdeclared := hfresh.declared
    rcases hkind with hkind | hkind <;>
      · rw [show x.kind = _ from hkind] at hdeclared
        cases hdeclared
  · rw [hentry, show ({ x with container := some owner } : Symbol).members = [] from
      hfresh.members] at hm
    cases hm
  · rw [hentry, show ({ x with container := some owner } : Symbol).parameters = [] from
      hfresh.parameters] at hm
    cases hm

/-! ## Declarations -/

/-- Whether an entry may be declared in an owner: the owner can be around it, an element is not
added to a structural type, and a parameter has a type. -/
structure Joins (t : SymbolTable) (role : Attachment) (owner : SymbolId) (x : Symbol) : Prop where
  issued : t.Issued owner
  bears : t.Bears owner x.kind
  outside : ¬ x.kind.IsElementOf (t.entry owner).kind
  references : ∀ r ∈ x.references, t.Issued r
  typed : role = .parameter → ∃ a, x.type = some a ∧ t.IsType a

theorem Joins.later (h : t.Joins role owner x) (hkeeps : t.Keeps t') : t'.Joins role owner x where
  issued := hkeeps.issued h.issued
  bears := hkeeps.bears h.issued h.bears
  outside := by
    rw [hkeeps.kind owner h.issued]
    exact h.outside
  references r hr := hkeeps.issued (h.references r hr)
  typed hrole := by
    obtain ⟨a, htype, ha⟩ := h.typed hrole
    exact ⟨a, htype, hkeeps.isType ha⟩

namespace Founded

variable (h : t.Founded)
include h

/-- Declaring a fresh entry that may join its owner keeps a table founded. -/
theorem declared (hfresh : Fresh role x) (hjoins : t.Joins role owner x) :
    (t.declared role owner x).Founded := by
  have ho := hjoins.issued
  have hkeeps := keeps_declared ho role x
  refine ⟨h.closed.declared ho hjoins.references role,
    ⟨hkeeps.issued h.root.1, by rw [hkeeps.kind _ h.root.1, h.root.2]⟩, fun s hs => ?_⟩
  rcases issued_of_declared hs with hs | rfl
  -- an entry from before gains the new one at most, and only if it is the owner
  · refine (h.anchored s hs).later h.closed hs hkeeps (fun m hm => ?_) fun m hm => ?_
    · rcases mem_belongings_declared ho hfresh (hkeeps.issued hs) .member hm with
        ⟨-, hm⟩ | ⟨rfl, -, rfl⟩
      · exact .inl hm
      · rw [entry_declared_next]
        exact .inr hjoins.outside
    · rcases mem_belongings_declared ho hfresh (hkeeps.issued hs) .parameter hm with
        ⟨-, hm⟩ | ⟨-, hrole, rfl⟩
      · exact .inl hm
      · obtain ⟨a, htype, ha⟩ := hjoins.typed hrole.symm
        rw [entry_declared_next]
        exact .inr ⟨a, htype, hkeeps.isType ha⟩
  · exact anchored_fresh entry_declared_next hfresh ho (hkeeps.bears ho hjoins.bears)

theorem declaredAll {xs : List Symbol} (hfresh : ∀ x ∈ xs, Fresh role x)
    (hjoins : ∀ x ∈ xs, t.Joins role owner x) : (t.declaredAll role owner xs).Founded := by
  induction xs generalizing t with
  | nil => exact h
  | cons x rest ih =>
      have hx := hjoins x (by simp)
      refine ih (h.declared (hfresh x (by simp)) hx) (fun y hy => hfresh y (by simp [hy]))
        fun y hy => ?_
      exact (hjoins y (by simp [hy])).later (keeps_declared hx.issued role x)

end Founded

/-! ## Structural types -/

/-- A type to add, with its members: what it is made of are types that have been issued. -/
structure Rests (t : SymbolTable) (type : Symbol) (members : List Symbol) : Prop where
  references : ∀ r ∈ type.references, t.Issued r
  parameters : type.parameters = []
  container : type.definition = none → type.container = none
  definition : ∀ g, type.definition = some g → type.kind = .namedType ∧ t.IsDefinition g ∧
    ∀ a ∈ type.typeArguments, t.IsType a
  element : type.kind = .arrayType ∨ type.kind = .pointerType → ∃ a, type.type = some a ∧ t.IsType a
  fresh : ∀ x ∈ members, Fresh .member x ∧ x.kind.isOuter = true
  typed : ∀ x ∈ members, (∀ r ∈ x.references, t.Issued r) ∧ ∃ a, x.type = some a ∧ t.IsType a

namespace Founded

variable (h : t.Founded)
include h

/-- Adding a type keeps a table founded. -/
theorem anchored_addWithMembers {members : List Symbol} (hrests : t.Rests x members)
    (hs : (t.addWithMembers x members).2.Issued s) : (t.addWithMembers x members).2.Anchored s := by
  have hgrows := grows_addWithMembers x members t
  have hmember : ∀ i (hi : i < members.length),
      (t.addWithMembers x members).2.entry ⟨t.size + 1 + i⟩ =
        { members[i] with container := some t.next } := fun i hi => entry_addWithMembers_member hi
  -- an entry from before, the type, or one of its members
  rcases issued_addWithMembers hs with hs | rfl | ⟨i, hi, rfl⟩
  · exact (h.anchored s hs).grows h.closed hs hgrows
  · have hnext := entry_addWithMembers_next x members t
    refine ⟨fun hself p hp => ?_, fun g hg => ?_, fun hkind => ?_, fun m hm _ => ?_, fun m hm => ?_⟩
    · rw [hnext] at hself hp
      cases (hrests.container hself).symm.trans hp
    · rw [hnext] at hg ⊢
      obtain ⟨hkind, hdefinition, harguments⟩ := hrests.definition g hg
      exact ⟨hkind, hgrows.keeps.isDefinition hdefinition, hdefinition.issued,
        fun a ha => (harguments a ha).earlier_next hgrows⟩
    · rw [hnext] at hkind ⊢
      obtain ⟨a, htype, ha⟩ := hrests.element hkind
      exact ⟨a, htype, ha.earlier_next hgrows⟩
    · rw [hnext] at hm
      obtain ⟨i, hi, rfl⟩ := mem_memberIds.mp hm
      obtain ⟨-, a, htype, ha⟩ := hrests.typed _ (List.getElem_mem hi)
      exact ⟨a, by rw [hmember i hi, htype], ha.earlier_next hgrows⟩
    · rw [hnext, show ({ x with members := t.memberIds members.length } : Symbol).parameters =
        [] from hrests.parameters] at hm
      cases hm
  · obtain ⟨hfresh, houter⟩ := hrests.fresh _ (List.getElem_mem hi)
    refine anchored_fresh (hmember i hi) hfresh ?_ ?_
    · show t.size < t.size + 1 + i
      omega
    · cases hkind : members[i].kind <;> rw [hkind] at houter <;> trivial

/-- A request for a shape is answered from before, or the type is added. -/
theorem intern {shape : Shape} {members : List Symbol} (hrests : t.Rests x members) :
    (t.intern shape (addWithMembers x members)).2.Founded := by
  have hextends : t.Extends (t.intern shape (addWithMembers x members)) :=
    .intern h.closed (h.closed.extends_addWithMembers hrests.references fun x hx =>
      (hrests.typed x hx).1)
  have hkeeps := hextends.grows.keeps
  refine ⟨hextends.closed, ⟨hkeeps.issued h.root.1, by rw [hkeeps.kind _ h.root.1, h.root.2]⟩, ?_⟩
  intro s hs
  unfold SymbolTable.intern at hs ⊢
  cases hnone : t.interned.lookup shape with
  | some answer =>
      simp only [hnone] at hs ⊢
      exact h.anchored s hs
  | none =>
      simp only [hnone] at hs ⊢
      -- taking down the answer changes no entry
      have hclosed := h.closed.addWithMembers hrests.references fun x hx => (hrests.typed x hx).1
      exact (h.anchored_addWithMembers hrests hs).later hclosed hs (keeps_of_symbols rfl)
        (fun m hm => .inl hm) fun m hm => .inl hm

theorem intern_add {shape : Shape} (hmembers : x.members = []) (hrests : t.Rests x []) :
    (t.intern shape (add x)).2.Founded := by
  rw [show add x = addWithMembers x [] from funext (add_eq_addWithMembers hmembers)]
  exact h.intern hrests

theorem array {element : SymbolId} (helement : t.IsType element) (rank : UInt64) :
    (t.array element rank).2.Founded := by
  refine h.intern_add rfl ⟨?_, rfl,
    fun _ => rfl, by simp, fun _ => ⟨element, rfl, helement⟩, by simp,
    by simp⟩
  simpa [Symbol.references] using helement.issued

theorem pointer {pointee : SymbolId} (hpointee : t.IsType pointee) :
    (t.pointer pointee).2.Founded := by
  refine h.intern_add rfl ⟨?_, rfl,
    fun _ => rfl, by simp, fun _ => ⟨pointee, rfl, hpointee⟩, by simp,
    by simp⟩
  simpa [Symbol.references] using hpointee.issued

theorem constructed {definition : SymbolId} {arguments : List SymbolId}
    (hissued : t.Issued definition) (harguments : ∀ a ∈ arguments, t.IsType a)
    (hcheck : checkArguments (t.entry definition) arguments = .ok ()) :
    (t.constructed definition arguments).2.Founded := by
  refine h.intern_add rfl ⟨fun r hr => ?_, rfl, by simp, fun g hg => ?_, by simp, by simp, by simp⟩
  · simp only [Symbol.references, Option.toList_some, Option.toList_none, List.append_nil,
      List.mem_append, Option.mem_toList, List.mem_singleton] at hr
    rcases hr with (hr | hr) | rfl
    · exact h.closed.container hissued hr
    · exact (harguments r hr).issued
    · exact hissued
  · cases hg
    exact ⟨rfl, isDefinition_of_checkArguments hissued hcheck, harguments⟩

theorem tuple {types : List SymbolId} {names : List (Option String)} {locations : List Location}
    {answer : SymbolId × SymbolTable} (htypes : ∀ a ∈ types, t.IsType a)
    (ha : t.tuple types names locations = .ok answer) : answer.2.Founded := by
  obtain ⟨hcheck, rfl⟩ := tuple_eq_ok.mp ha
  obtain ⟨hnames, hlocations⟩ := lengths_of_checkTuple hcheck
  obtain ⟨hmap, -⟩ := map_tupleFields types names locations hnames hlocations
  refine h.intern ⟨by simp [Symbol.references], rfl, fun _ => rfl, by simp, by simp, fun x hx => ?_,
    fun x hx => ⟨fun r hr => ?_, ?_⟩⟩
  · obtain ⟨hfresh, hkind⟩ := mem_tupleFields x hx
    exact ⟨hfresh, by rw [hkind]; rfl⟩
  · exact (htypes r (references_tupleFields x hx r hr)).issued
  · obtain ⟨a, ha, htype⟩ := List.mem_map.mp (hmap ▸ List.mem_map_of_mem hx)
    exact ⟨a, htype.symm, htypes a ha⟩

theorem anonymous {types : List SymbolId} {names : List String} {readOnly : List Bool}
    {locations : List Location} {answer : SymbolId × SymbolTable} (htypes : ∀ a ∈ types, t.IsType a)
    (ha : t.anonymous types names readOnly locations = .ok answer) : answer.2.Founded := by
  obtain ⟨hcheck, rfl⟩ := anonymous_eq_ok.mp ha
  obtain ⟨hnames, hreadOnly, hlocations⟩ := lengths_of_checkAnonymous hcheck
  obtain ⟨hmap, -⟩ := map_anonymousProperties types names readOnly locations hnames hreadOnly
    hlocations
  refine h.intern ⟨by simp [Symbol.references], rfl, fun _ => rfl, by simp, by simp, fun x hx => ?_,
    fun x hx => ⟨fun r hr => ?_, ?_⟩⟩
  · obtain ⟨hfresh, hkind⟩ := mem_anonymousProperties x hx
    exact ⟨hfresh, by rw [hkind]; rfl⟩
  · exact (htypes r (references_anonymousProperties x hx r hr)).issued
  · obtain ⟨a, ha, htype⟩ := List.mem_map.mp (hmap ▸ List.mem_map_of_mem hx)
    exact ⟨a, htype.symm, htypes a ha⟩

end Founded

/-! ## Lawful tables -/

theorem bears_of_hosts {kind : SymbolKind} (h : t.Hosts p kind) : t.Bears p kind := by
  cases kind with
  | nameSpace => exact .inl h
  | namedType => exact h.imp_right fun h => h.kind
  | method => exact .inr (IsDefinition.kind h)
  | typeParameter => exact h.imp_left fun h => h.kind
  | arrayType | pointerType | tupleType | anonymousType => exact h
  | field | property | parameter | localVariable => trivial

/-- The elements of a structural type have the types of its shape. -/
theorem Lawful.exists_elementType (h : t.Lawful) (hs : t.Issued s) {m : SymbolId}
    (hm : m ∈ (t.entry s).members) (hkind : (t.entry m).kind.IsElementOf (t.entry s).kind) :
    ∃ a, (t.entry m).type = some a ∧ t.Earlier s a := by
  have hmem : (t.entry m).type ∈ (t.entry s).members.map fun m => (t.entry m).type :=
    List.mem_map_of_mem hm
  rcases hkind with ⟨hkind, -⟩ | ⟨hkind, -⟩
  · obtain ⟨types, names, -, hembodies⟩ := h.exists_tuple hs hkind
    rw [hembodies.2.2.1] at hmem
    obtain ⟨a, ha, htype⟩ := List.mem_map.mp hmem
    exact ⟨a, htype.symm, hembodies.2.2.2.2.1 a ha⟩
  · obtain ⟨types, names, readOnly, -, hembodies⟩ := h.exists_anonymous hs hkind
    rw [hembodies.2.2.1] at hmem
    obtain ⟨a, ha, htype⟩ := List.mem_map.mp hmem
    exact ⟨a, htype.symm, hembodies.2.2.2.2.2.1 a ha⟩

theorem Lawful.anchored (h : t.Lawful) (hs : t.Issued s) : t.Anchored s where
  container hself p hp := by
    have hlisted := h.listed s hs hself p hp
    -- the container lists the symbol, and lists only what may be in it
    have hbelongs := h.belongs p (h.closed.container hs hp) _ s hlisted
    exact ⟨hbelongs.lt, bears_of_hosts hbelongs.host⟩
  definition g hg := by
    obtain ⟨-, hkind, -, -, hearlier, harguments, hcheck⟩ := h.exists_constructed hs hg
    exact ⟨hkind, isDefinition_of_checkArguments hearlier.type.issued hcheck, hearlier.lt,
      harguments⟩
  element hkind := by
    rcases hkind with hkind | hkind
    · obtain ⟨a, rank, -, -, htype, -, ha⟩ := h.exists_array hs hkind
      exact ⟨a, htype, ha⟩
    · obtain ⟨a, -, -, htype, ha⟩ := h.exists_pointer hs hkind
      exact ⟨a, htype, ha⟩
  elements m hm hkind := h.exists_elementType hs hm hkind
  parameters m hm := by
    have hrole := (h.belongs s hs .parameter m hm).role
    have hkind : (t.entry m).kind = .parameter := by
      cases hkind : (t.entry m).kind <;> rw [hkind] at hrole <;> first | rfl | cases hrole
    exact h.typed m (h.closed.parameters hs hm) hkind

theorem Lawful.founded (h : t.Lawful) : t.Founded :=
  ⟨h.closed, ⟨h.root.1, h.root.2.1⟩, fun _ hs => h.anchored hs⟩

end SymbolTable

/-! ## Requests -/

namespace TypeRequest

open SymbolTable

variable {t : SymbolTable}

theorem after_founded (r : TypeRequest) (h : t.Founded) (hr : r.Contained t) :
    (r.after t).Founded := by
  obtain ⟨hsymbols, htypes⟩ := hr
  cases r with
  | array element rank => exact h.array (htypes element (by simp [types])) rank
  | pointer pointee => exact h.pointer (htypes pointee (by simp [types]))
  | constructed definition arguments =>
      simp only [after]
      split
      · next hcheck => exact h.constructed (hsymbols definition (by simp [symbols])) htypes hcheck
      · exact h
  | tuple types names locations =>
      simp only [after]
      split
      · next answer ha => exact h.tuple htypes ha
      · exact h
  | anonymous types names readOnly locations =>
      simp only [after]
      split
      · next answer ha => exact h.anonymous htypes ha
      · exact h

end TypeRequest

namespace Request

open SymbolTable

variable {t : SymbolTable}

/-- The request puts namespaces, types and methods under namespaces and named types, types where
types are expected, and no elements in structural types. -/
def Anchored (t : SymbolTable) : Request → Prop
  | file _ | limitAnonymousArity _ => True
  | nameSpace container _ => t.Issued container ∧ t.Bears container .nameSpace
  | namedType container _ _ => t.Issued container ∧ t.Bears container .namedType
  | method owner _ _ => t.Issued owner ∧ t.Bears owner .method
  | field owner _ type _ =>
    t.Issued owner ∧ (t.entry owner).kind ≠ .tupleType ∧ t.IsType type
  | property owner _ type _ _ =>
    t.Issued owner ∧ (t.entry owner).kind ≠ .anonymousType ∧ t.IsType type
  | indexer owner _ type parameters =>
    t.Issued owner ∧ (t.entry owner).kind ≠ .anonymousType ∧ t.IsType type ∧
      ∀ p ∈ parameters, t.IsType p.2
  | parameter owner _ type | localVariable owner _ type => t.Issued owner ∧ t.IsType type
  | structural request => request.Contained t

theorem Anchored.issued {r : Request} (h : r.Anchored t) : r.Issued t := by
  intro s hs
  cases r with
  | file path | limitAnonymousArity limit => cases hs
  | nameSpace owner name | namedType owner name typeParameters | method owner name typeParameters =>
      rw [List.mem_singleton.mp hs]
      exact h.1
  | field owner name type location | property owner name type readOnly location =>
      simp only [symbols, List.mem_cons, List.not_mem_nil, or_false] at hs
      rcases hs with rfl | rfl
      · exact h.1
      · exact h.2.2.issued
  | parameter owner name type | localVariable owner name type =>
      simp only [symbols, List.mem_cons, List.not_mem_nil, or_false] at hs
      rcases hs with rfl | rfl
      · exact h.1
      · exact h.2.issued
  | indexer owner name type parameters =>
      simp only [symbols, List.mem_cons, List.mem_map] at hs
      rcases hs with rfl | rfl | ⟨p, hp, rfl⟩
      · exact h.1
      · exact h.2.2.1.issued
      · exact (h.2.2.2 p hp).issued
  | structural request => exact h.1 s hs

/-- Containment asks for more. -/
theorem Contained.anchored {r : Request} (h : r.Contained t) : r.Anchored t := by
  have hdefinition : ∀ {owner}, t.IsDefinition owner →
      t.Issued owner ∧ (t.entry owner).kind = .namedType := fun h => ⟨h.issued, h.kind⟩
  cases r with
  | file path | limitAnonymousArity limit => trivial
  | nameSpace owner name => exact ⟨h.1, .inl h.2⟩
  | namedType owner name typeParameters => exact ⟨h.1, h.2.imp_right fun h => h.kind⟩
  | method owner name typeParameters => exact ⟨IsDefinition.issued h, .inr (IsDefinition.kind h)⟩
  | field owner name type location | property owner name type readOnly location =>
      exact ⟨h.1.issued, by simp [h.1.kind], h.2⟩
  | indexer owner name type parameters => exact ⟨h.1.issued, by simp [h.1.kind], h.2.1, h.2.2⟩
  | parameter owner name type => exact ⟨h.1, h.2.2.1⟩
  | localVariable owner name type => exact ⟨h.1, h.2.2⟩
  | structural request => exact h

theorem not_isElementOf {kind type : SymbolKind} (h : kind.isOuter = false) :
    ¬ kind.IsElementOf type := by
  rintro (⟨-, rfl⟩ | ⟨-, rfl⟩) <;> cases h

/-- A declaration that brings type parameters. -/
theorem founded_generic {owner : SymbolId} {kind : SymbolKind} (h : t.Founded)
    (hkind : kind = .namedType ∨ kind = .method) (ho : t.Issued owner) (hbears : t.Bears owner kind)
    (name : String) (typeParameters : List String) :
    ((t.declared .member owner { kind := kind, name := name }).declaredAll .typeParameter t.next
      (typeParameters.map typeParameterEntry)).Founded := by
  have hfresh : Fresh .member { kind := kind, name := name } := by
    rcases hkind with rfl | rfl <;> exact ⟨rfl, rfl, rfl, rfl, rfl, rfl⟩
  have houter : kind.isOuter = false := by rcases hkind with rfl | rfl <;> rfl
  refine (h.declared hfresh ⟨ho, hbears, not_isElementOf houter, by simp [Symbol.references],
    by simp⟩).declaredAll (fun x hx => ?_) fun x hx => ?_
  · obtain ⟨name, -, rfl⟩ := List.mem_map.mp hx
    exact fresh_typeParameter name
  · obtain ⟨name, -, rfl⟩ := List.mem_map.mp hx
    refine ⟨issued_next_declared, ?_,
      not_isElementOf rfl, by simp [Symbol.references, typeParameterEntry],
      by simp⟩
    simpa [Bears, typeParameterEntry, entry_declared_next] using hkind

/-- A request that is anchored keeps a table founded. -/
theorem after_founded (r : Request) (h : t.Founded) (hr : r.Anchored t) : (r.after t).Founded := by
  cases r with
  | file path => exact h
  | limitAnonymousArity limit =>
      have hkeeps : t.Keeps ((limitAnonymousArity limit).after t) := keeps_of_symbols rfl
      exact ⟨⟨h.closed.references, h.closed.interned⟩, h.root, fun s hs =>
        (h.anchored s hs).later h.closed hs hkeeps (fun m hm => .inl hm) fun m hm => .inl hm⟩
  | nameSpace owner name =>
      exact h.declared ⟨rfl, rfl, rfl, rfl, rfl, rfl⟩
        ⟨hr.1, hr.2, not_isElementOf rfl, by simp [Symbol.references], by simp⟩
  | namedType owner name typeParameters =>
      exact founded_generic h (.inl rfl) hr.1 hr.2 name typeParameters
  | method owner name typeParameters =>
      exact founded_generic h (.inr rfl) hr.1 hr.2 name typeParameters
  | field owner name type location =>
      obtain ⟨ho, hkind, htype⟩ := hr
      exact h.declared ⟨rfl, rfl, rfl, rfl, rfl, rfl⟩
        ⟨ho, trivial, by simp [SymbolKind.IsElementOf, hkind],
          by simpa [Symbol.references] using htype.issued, by simp⟩
  | property owner name type readOnly location =>
      obtain ⟨ho, hkind, htype⟩ := hr
      exact h.declared ⟨rfl, rfl, rfl, rfl, rfl, rfl⟩
        ⟨ho, trivial, by simp [SymbolKind.IsElementOf, hkind],
          by simpa [Symbol.references] using htype.issued, by simp⟩
  | indexer owner name type parameters =>
      obtain ⟨ho, hkind, htype, hparameters⟩ := hr
      have hfresh : Fresh .member
          { kind := .property, name := name, type := some type, readOnly := true } :=
        ⟨rfl, rfl, rfl, rfl, rfl, rfl⟩
      refine (h.declared hfresh ⟨ho, trivial, by simp [SymbolKind.IsElementOf, hkind],
        by simpa [Symbol.references] using htype.issued, by simp⟩).declaredAll (fun x hx => ?_)
        fun x hx => ?_
      · obtain ⟨p, -, rfl⟩ := List.mem_map.mp hx
        exact fresh_parameter p
      · obtain ⟨p, hp, rfl⟩ := List.mem_map.mp hx
        have hp := hparameters p hp
        refine ⟨issued_next_declared, trivial, by simp [SymbolKind.IsElementOf, parameterEntry], ?_,
          fun _ => ⟨p.2, rfl, (keeps_declared ho _ _).isType hp⟩⟩
        simpa [Symbol.references, parameterEntry] using issued_declared hp.issued
  | parameter owner name type =>
      exact h.declared (fresh_parameter _)
        ⟨hr.1, trivial, by simp [SymbolKind.IsElementOf, parameterEntry],
        by simpa [Symbol.references, parameterEntry] using hr.2.issued, fun _ => ⟨type, rfl, hr.2⟩⟩
  | localVariable owner name type =>
      exact h.declared ⟨rfl, rfl, rfl, rfl, rfl, rfl⟩
        ⟨hr.1, trivial, by simp [SymbolKind.IsElementOf],
        by simpa [Symbol.references] using hr.2.issued, by simp⟩
  | structural request => exact request.after_founded h hr

end Request

theorem Draft.founded_empty : Draft.empty.table.Founded := by
  refine ⟨closed_empty, ⟨by unfold SymbolTable.Issued; decide, rfl⟩, fun s hs => ?_⟩
  -- the global namespace, or one of the types that are there from the start
  rcases entry_empty hs with rfl | ⟨hs, name, hentry⟩
  · refine ⟨fun _ p hp => ?_, fun g hg => ?_, fun hkind => ?_, fun m hm hkind => ?_, fun m hm => ?_⟩
    · cases hp
    · cases hg
    · rcases hkind with hkind | hkind <;> cases hkind
    · rcases hkind with ⟨hkind, -⟩ | ⟨hkind, -⟩ <;> cases hkind
    · cases hm
  · have hlt : 0 < s.index := by
      simp only [List.mem_cons, List.not_mem_nil, or_false] at hs
      rcases hs with rfl | rfl | rfl | rfl <;> decide
    have hfresh : SymbolTable.Fresh .member { kind := .namedType, name := name } :=
      ⟨rfl, rfl, rfl, rfl, rfl, rfl⟩
    exact SymbolTable.anchored_fresh hentry hfresh hlt (.inl rfl)

/-- A compilation with a founded table that hides nothing. -/
structure Compilation.Founded (c : Compilation) : Prop where
  table : c.table.Founded
  plain : c.Plain
  closed : c.Closed

theorem Compilation.Lawful.founded {c : Compilation} (h : c.Lawful) : c.Founded :=
  ⟨h.table.founded, h.plain, h.closed⟩

/-- Compilations are founded if every request is anchored. -/
theorem Compilation.Made.founded {c : Compilation} (h : c.Made Request.Anchored) : c.Founded := by
  obtain ⟨htable, hplain⟩ := h.table (fun _ _ hr => hr.issued) Draft.founded_empty
    fun _ r ht hr => r.after_founded ht hr
  exact ⟨htable, hplain, (h.mono fun _ _ hr => hr.issued).closed⟩

end Moniker
