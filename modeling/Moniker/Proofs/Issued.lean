import Mathlib.Tactic.Tauto
import Moniker.Compilation

/-!
# Issued symbols

A symbol table only ever grows: an issued symbol keeps its entry when a structural type is
built, and a shape that has an answer keeps it. `SymbolTable.Closed` says that no entry refers
to a symbol that has not been issued, so that queries along references are never out of range;
`SymbolTable.Grows` says that one table is a later state of another as far as requests for
structural types go. Every request keeps the first and brings about the second.
-/

namespace Moniker

/-- The symbols that an entry refers to. -/
def Symbol.references (x : Symbol) : List SymbolId :=
  x.container.toList ++ x.members ++ x.type.toList ++ x.typeParameters ++ x.typeArguments ++
    x.definition.toList ++ x.parameters

namespace SymbolTable

/-- The table has issued the symbol. -/
def Issued (t : SymbolTable) (s : SymbolId) : Prop := s.index < t.size

/-- The entry of an issued symbol. -/
def entry (t : SymbolTable) (s : SymbolId) : Symbol :=
  t.symbols[s.index]?.getD { kind := .nameSpace, name := "" }

/-- Entries refer to issued symbols only, and so do the answers to requests. -/
structure Closed (t : SymbolTable) : Prop where
  references : ∀ s, t.Issued s → ∀ r ∈ (t.entry s).references, t.Issued r
  interned : ∀ shape s, t.interned.lookup shape = some s → t.Issued s

/-- The second table is a later state of the first, with more structural types. -/
structure Grows (t t' : SymbolTable) : Prop where
  size : t.size ≤ t'.size
  entry : ∀ s, t.Issued s → t'.entry s = t.entry s
  interned : ∀ shape s, t.interned.lookup shape = some s → t'.interned.lookup shape = some s
  limit : t'.maxAnonymousArity = t.maxAnonymousArity

theorem Grows.refl (t : SymbolTable) : t.Grows t :=
  ⟨Nat.le_refl _, fun _ _ => rfl, fun _ _ h => h, rfl⟩

theorem Grows.issued {t t' : SymbolTable} (h : t.Grows t') {s : SymbolId} (hs : t.Issued s) :
    t'.Issued s :=
  Nat.lt_of_lt_of_le hs h.size

theorem Grows.trans {t t' t'' : SymbolTable} (h : t.Grows t') (h' : t'.Grows t'') :
    t.Grows t'' where
  size := Nat.le_trans h.size h'.size
  entry s hs := by rw [h'.entry s (h.issued hs), h.entry s hs]
  interned shape s hs := h'.interned shape s (h.interned shape s hs)
  limit := h'.limit.trans h.limit

theorem get_eq {t : SymbolTable} {s : SymbolId} (hs : t.Issued s) : t.get s = .ok (t.entry s) := by
  have hlt : s.index < t.symbols.size := hs
  simp [get, entry, Array.getElem?_eq_getElem hlt]

section References

variable {t : SymbolTable} {s r : SymbolId}

theorem Closed.container (h : t.Closed) (hs : t.Issued s) (hr : (t.entry s).container = some r) :
    t.Issued r :=
  h.references s hs r (by simp [Symbol.references, hr])

theorem Closed.members (h : t.Closed) (hs : t.Issued s) (hr : r ∈ (t.entry s).members) :
    t.Issued r :=
  h.references s hs r (by simp [Symbol.references, hr])

theorem Closed.type (h : t.Closed) (hs : t.Issued s) (hr : (t.entry s).type = some r) :
    t.Issued r :=
  h.references s hs r (by simp [Symbol.references, hr])

theorem Closed.typeParameters (h : t.Closed) (hs : t.Issued s)
    (hr : r ∈ (t.entry s).typeParameters) : t.Issued r :=
  h.references s hs r (by simp [Symbol.references, hr])

theorem Closed.typeArguments (h : t.Closed) (hs : t.Issued s)
    (hr : r ∈ (t.entry s).typeArguments) : t.Issued r :=
  h.references s hs r (by simp [Symbol.references, hr])

theorem Closed.definition (h : t.Closed) (hs : t.Issued s)
    (hr : (t.entry s).definition = some r) : t.Issued r :=
  h.references s hs r (by simp [Symbol.references, hr])

theorem Closed.parameters (h : t.Closed) (hs : t.Issued s) (hr : r ∈ (t.entry s).parameters) :
    t.Issued r :=
  h.references s hs r (by simp [Symbol.references, hr])

end References

/-! ## Adding symbols -/

@[simp] theorem size_add (x : Symbol) (t : SymbolTable) : (t.add x).2.size = t.size + 1 := by
  simp [add, size]

theorem entry_add_next (x : Symbol) (t : SymbolTable) : (t.add x).2.entry t.next = x := by
  simp [add, entry, next, size]

theorem entry_add {t : SymbolTable} {s : SymbolId} (x : Symbol) (hs : t.Issued s) :
    (t.add x).2.entry s = t.entry s := by
  have hlt : s.index < t.symbols.size := hs
  simp [add, entry, Array.getElem?_push_lt hlt, Array.getElem?_eq_getElem hlt]

/-- What is issued after adding a symbol is that symbol, or was issued before. -/
theorem issued_add {t : SymbolTable} {s : SymbolId} {x : Symbol} (hs : (t.add x).2.Issued s) :
    t.Issued s ∨ s = t.next := by
  rcases Nat.lt_or_ge s.index t.size with h | h
  · exact .inl h
  · right
    have : s.index < t.size + 1 := by simpa [Issued] using hs
    have : s.index = t.size := by omega
    cases s
    simp_all [next]

theorem grows_add (x : Symbol) (t : SymbolTable) : t.Grows (t.add x).2 where
  size := by simp
  entry _ hs := entry_add x hs
  interned _ _ h := h
  limit := rfl

theorem Closed.add {t : SymbolTable} {x : Symbol} (h : t.Closed)
    (hx : ∀ r ∈ x.references, t.Issued r) : (t.add x).2.Closed where
  references s hs r hr := by
    apply (grows_add x t).issued
    rcases issued_add hs with hs | rfl
    · rw [entry_add x hs] at hr
      exact h.references s hs r hr
    · rw [entry_add_next] at hr
      exact hx r hr
  interned shape s hs := (grows_add x t).issued (h.interned shape s hs)

/-- The members of a type that is issued together with `n` members. -/
def memberIds (t : SymbolTable) (n : Nat) : List SymbolId :=
  (List.range n).map fun i => ⟨t.size + 1 + i⟩

@[simp] theorem length_memberIds (t : SymbolTable) (n : Nat) : (t.memberIds n).length = n := by
  simp [memberIds]

@[simp] theorem size_addWithMembers (type : Symbol) (members : List Symbol) (t : SymbolTable) :
    (t.addWithMembers type members).2.size = t.size + 1 + members.length := by
  simp [addWithMembers, size, Nat.add_assoc, Nat.add_comm 1]

theorem entry_addWithMembers_next (type : Symbol) (members : List Symbol) (t : SymbolTable) :
    (t.addWithMembers type members).2.entry t.next =
      { type with members := t.memberIds members.length } := by
  simp [addWithMembers, entry, next, size, memberIds]

theorem entry_addWithMembers_member {type : Symbol} {members : List Symbol} {t : SymbolTable}
    {i : Nat} (hi : i < members.length) :
    (t.addWithMembers type members).2.entry ⟨t.size + 1 + i⟩ =
      { members[i] with container := some t.next } := by
  simp only [addWithMembers, entry, size]
  rw [Array.getElem?_append_right (by simp)]
  simp [hi]

theorem entry_addWithMembers {t : SymbolTable} {s : SymbolId} (type : Symbol)
    (members : List Symbol) (hs : t.Issued s) :
    (t.addWithMembers type members).2.entry s = t.entry s := by
  have hlt : s.index < t.symbols.size := hs
  simp only [addWithMembers, entry]
  rw [Array.getElem?_append_left (by simp; omega), Array.getElem?_push_lt hlt,
    Array.getElem?_eq_getElem hlt]

/-- What is issued after adding a type is the type, one of its members, or was issued before. -/
theorem issued_addWithMembers {type : Symbol} {members : List Symbol} {t : SymbolTable}
    {s : SymbolId} (hs : (t.addWithMembers type members).2.Issued s) :
    t.Issued s ∨ s = t.next ∨ ∃ i, i < members.length ∧ s = ⟨t.size + 1 + i⟩ := by
  have hlt : s.index < t.size + 1 + members.length := by simpa [Issued] using hs
  rcases Nat.lt_trichotomy s.index t.size with h | h | h
  · exact .inl h
  · exact .inr (.inl (by cases s; simp_all [next]))
  · refine .inr (.inr ⟨s.index - (t.size + 1), by omega, ?_⟩)
    cases s
    simp only [SymbolId.mk.injEq] at *
    omega

theorem grows_addWithMembers (type : Symbol) (members : List Symbol) (t : SymbolTable) :
    t.Grows (t.addWithMembers type members).2 where
  size := by simp; omega
  entry _ hs := entry_addWithMembers type members hs
  interned _ _ h := h
  limit := rfl

theorem Closed.addWithMembers {t : SymbolTable} {type : Symbol} {members : List Symbol}
    (h : t.Closed) (htype : ∀ r ∈ type.references, t.Issued r)
    (hmembers : ∀ x ∈ members, ∀ r ∈ x.references, t.Issued r) :
    (t.addWithMembers type members).2.Closed := by
  have grows := grows_addWithMembers type members t
  refine ⟨fun s hs r hr => ?_, fun shape s hs => grows.issued (h.interned shape s hs)⟩
  rcases issued_addWithMembers hs with hs | rfl | ⟨i, hi, rfl⟩
  · rw [entry_addWithMembers type members hs] at hr
    exact grows.issued (h.references s hs r hr)
  · rw [entry_addWithMembers_next] at hr
    have hr : r ∈ t.memberIds members.length ∨ r ∈ type.references := by
      simp only [Symbol.references, List.mem_append] at hr ⊢
      tauto
    rcases hr with hr | hr
    · obtain ⟨i, hi, rfl⟩ := List.mem_map.mp hr
      have := List.mem_range.mp hi
      simp only [Issued, size_addWithMembers]
      omega
    · exact grows.issued (htype r hr)
  · rw [entry_addWithMembers_member hi] at hr
    have hr : r = t.next ∨ r ∈ members[i].references := by
      simp only [Symbol.references, Option.toList_some, List.mem_append, List.mem_singleton] at hr ⊢
      tauto
    rcases hr with rfl | hr
    · simp only [Issued, next, size_addWithMembers]
      omega
    · exact grows.issued (hmembers members[i] (List.getElem_mem hi) r hr)

/-! ## Requests for structural types -/

/-- What a request leaves behind: an issued symbol, in a later state without loose ends. -/
structure Extends (t : SymbolTable) (answer : SymbolId × SymbolTable) : Prop where
  grows : t.Grows answer.2
  closed : answer.2.Closed
  issued : answer.2.Issued answer.1

variable {t : SymbolTable}

theorem Closed.extends_add {x : Symbol} (h : t.Closed) (hx : ∀ r ∈ x.references, t.Issued r) :
    t.Extends (t.add x) where
  grows := grows_add x t
  closed := h.add hx
  issued := by
    have : (t.add x).1 = t.next := rfl
    simp [Issued, this, next]

theorem Closed.extends_addWithMembers {type : Symbol} {members : List Symbol} (h : t.Closed)
    (htype : ∀ r ∈ type.references, t.Issued r)
    (hmembers : ∀ x ∈ members, ∀ r ∈ x.references, t.Issued r) :
    t.Extends (t.addWithMembers type members) where
  grows := grows_addWithMembers type members t
  closed := h.addWithMembers htype hmembers
  issued := by
    have : (t.addWithMembers type members).1 = t.next := rfl
    simp only [Issued, this, next, size_addWithMembers]
    omega

theorem intern_of_lookup {shape : Shape} {s : SymbolId} (hs : t.interned.lookup shape = some s)
    (build : SymbolTable → SymbolId × SymbolTable) : t.intern shape build = (s, t) := by
  simp [intern, hs]

/-- A shape that has been asked for has the answer that it got. -/
theorem lookup_intern (shape : Shape) (build : SymbolTable → SymbolId × SymbolTable)
    (t : SymbolTable) :
    (t.intern shape build).2.interned.lookup shape = some (t.intern shape build).1 := by
  unfold intern
  split
  · assumption
  · simp

theorem lookup_cons_of_ne {shape shape' : Shape} {s : SymbolId} {rest : List (Shape × SymbolId)}
    (h : shape' ≠ shape) : ((shape, s) :: rest).lookup shape' = rest.lookup shape' := by
  have : (shape' == shape) = false := by simpa using h
  simp [List.lookup_cons, this]

theorem Extends.intern {shape : Shape} {build : SymbolTable → SymbolId × SymbolTable}
    (h : t.Closed) (hbuild : t.Extends (build t)) : t.Extends (t.intern shape build) := by
  unfold SymbolTable.intern
  split
  · next s hs => exact ⟨.refl t, h, h.interned shape s hs⟩
  · next hnone =>
      refine ⟨⟨hbuild.grows.size, hbuild.grows.entry, fun shape' s hs => ?_, hbuild.grows.limit⟩,
        ⟨hbuild.closed.references, fun shape' s hs => ?_⟩, hbuild.issued⟩
      · have hne : shape' ≠ shape := by
          rintro rfl
          rw [hnone] at hs
          cases hs
        rw [lookup_cons_of_ne hne]
        exact hbuild.grows.interned shape' s hs
      · by_cases heq : shape' = shape
        · have : (build t).1 = s := by simpa [heq] using hs
          exact this ▸ hbuild.issued
        · rw [lookup_cons_of_ne heq] at hs
          exact hbuild.closed.interned shape' s hs

theorem Closed.array {element : SymbolId} (h : t.Closed) (he : t.Issued element) (rank : UInt64) :
    t.Extends (t.array element rank) :=
  .intern h (h.extends_add (by simpa [Symbol.references] using he))

theorem Closed.pointer {pointee : SymbolId} (h : t.Closed) (hp : t.Issued pointee) :
    t.Extends (t.pointer pointee) :=
  .intern h (h.extends_add (by simpa [Symbol.references] using hp))

/-- A type constructed from a definition that takes the arguments. -/
def constructed (t : SymbolTable) (definition : SymbolId) (arguments : List SymbolId) :
    SymbolId × SymbolTable :=
  t.intern (.constructed definition arguments)
    (add { kind := .namedType, name := (t.entry definition).name,
           container := (t.entry definition).container, definition := some definition,
           typeArguments := arguments })

theorem construct_eq {definition : SymbolId} (hd : t.Issued definition)
    (arguments : List SymbolId) :
    t.construct definition arguments =
      .ok ((checkArguments (t.entry definition) arguments).map fun _ =>
        t.constructed definition arguments) := by
  simp only [construct, get_eq hd]
  rfl

theorem Closed.constructed {definition : SymbolId} {arguments : List SymbolId} (h : t.Closed)
    (hd : t.Issued definition) (ha : ∀ a ∈ arguments, t.Issued a) :
    t.Extends (t.constructed definition arguments) := by
  refine .intern h (h.extends_add fun r hr => ?_)
  simp only [Symbol.references, Option.toList_some, Option.toList_none, List.append_nil,
    List.mem_append, Option.mem_toList, List.mem_singleton] at hr
  rcases hr with (hr | hr) | rfl
  · exact h.container hd hr
  · exact ha r hr
  · exact hd

theorem references_tupleFields {types : List SymbolId} {names : List (Option String)}
    {locations : List Location} :
    ∀ x ∈ tupleFields types names locations, ∀ r ∈ x.references, r ∈ types := by
  fun_induction tupleFields with
  | case1 type types name names location locations ih =>
      intro x hx r hr
      rcases List.mem_cons.mp hx with rfl | hx
      · simp_all [Symbol.references]
      · exact List.mem_cons_of_mem _ (ih x hx r hr)
  | case2 => simp

theorem references_anonymousProperties {types : List SymbolId} {names : List String}
    {readOnly : List Bool} {locations : List Location} :
    ∀ x ∈ anonymousProperties types names readOnly locations, ∀ r ∈ x.references, r ∈ types := by
  fun_induction anonymousProperties with
  | case1 type types name names fixed readOnly location locations ih =>
      intro x hx r hr
      rcases List.mem_cons.mp hx with rfl | hx
      · simp_all [Symbol.references]
      · exact List.mem_cons_of_mem _ (ih x hx r hr)
  | case2 => simp

theorem tuple_eq (t : SymbolTable) (types : List SymbolId) (names : List (Option String))
    (locations : List Location) :
    t.tuple types names locations =
      (checkTuple types names locations).map fun _ => t.intern (.tuple types names)
        (addWithMembers { kind := .tupleType, name := "" }
          (tupleFields types names locations)) := by
  unfold tuple
  cases checkTuple types names locations <;> rfl

theorem anonymous_eq (t : SymbolTable) (types : List SymbolId) (names : List String)
    (readOnly : List Bool) (locations : List Location) :
    t.anonymous types names readOnly locations =
      (checkAnonymous t.maxAnonymousArity types names readOnly locations).map fun _ =>
        t.intern (.anonymous types names readOnly)
          (addWithMembers { kind := .anonymousType, name := "" }
            (anonymousProperties types names readOnly locations)) := by
  unfold anonymous
  cases checkAnonymous t.maxAnonymousArity types names readOnly locations <;> rfl

/-- What a table answers has passed the check. -/
theorem tuple_eq_ok {types : List SymbolId} {names : List (Option String)}
    {locations : List Location} {answer : SymbolId × SymbolTable} :
    t.tuple types names locations = .ok answer ↔
      checkTuple types names locations = .ok () ∧ t.intern (.tuple types names)
        (addWithMembers { kind := .tupleType, name := "" } (tupleFields types names locations)) =
          answer := by
  rw [tuple_eq]
  cases checkTuple types names locations <;> simp [Except.map]

theorem anonymous_eq_ok {types : List SymbolId} {names : List String} {readOnly : List Bool}
    {locations : List Location} {answer : SymbolId × SymbolTable} :
    t.anonymous types names readOnly locations = .ok answer ↔
      checkAnonymous t.maxAnonymousArity types names readOnly locations = .ok () ∧
        t.intern (.anonymous types names readOnly)
          (addWithMembers { kind := .anonymousType, name := "" }
            (anonymousProperties types names readOnly locations)) = answer := by
  rw [anonymous_eq]
  cases checkAnonymous t.maxAnonymousArity types names readOnly locations <;> simp [Except.map]

theorem Closed.tuple {types : List SymbolId} {names : List (Option String)}
    {locations : List Location} {answer : SymbolId × SymbolTable} (h : t.Closed)
    (ht : ∀ s ∈ types, t.Issued s) (ha : t.tuple types names locations = .ok answer) :
    t.Extends answer := by
  obtain ⟨-, rfl⟩ := tuple_eq_ok.mp ha
  exact .intern h (h.extends_addWithMembers (by simp [Symbol.references])
    fun x hx r hr => ht r (references_tupleFields x hx r hr))

theorem Closed.anonymous {types : List SymbolId} {names : List String} {readOnly : List Bool}
    {locations : List Location} {answer : SymbolId × SymbolTable} (h : t.Closed)
    (ht : ∀ s ∈ types, t.Issued s) (ha : t.anonymous types names readOnly locations = .ok answer) :
    t.Extends answer := by
  obtain ⟨-, rfl⟩ := anonymous_eq_ok.mp ha
  exact .intern h (h.extends_addWithMembers (by simp [Symbol.references])
    fun x hx r hr => ht r (references_anonymousProperties x hx r hr))

end SymbolTable

/-! ## Compilations -/

namespace Compilation

/-- The compilation has issued the symbol. -/
abbrev Issued (c : Compilation) (s : SymbolId) : Prop := c.table.Issued s

/-- The entry of an issued symbol. -/
abbrev entry (c : Compilation) (s : SymbolId) : Symbol := c.table.entry s

/-- No reference leads to a symbol that has not been issued. -/
structure Closed (c : Compilation) : Prop where
  table : c.table.Closed
  global : c.Issued c.global
  universal : c.Issued c.universal

/-- The second compilation is a later state of the first, with more structural types. -/
structure Grows (c c' : Compilation) : Prop where
  table : c.table.Grows c'.table
  files : c'.files = c.files
  global : c'.global = c.global
  universal : c'.universal = c.universal
  hiddenContainers : c'.hiddenContainers = c.hiddenContainers
  hiddenTypes : c'.hiddenTypes = c.hiddenTypes

theorem Grows.refl (c : Compilation) : c.Grows c := ⟨.refl _, rfl, rfl, rfl, rfl, rfl⟩

theorem Grows.trans {c c' c'' : Compilation} (h : c.Grows c') (h' : c'.Grows c'') :
    c.Grows c'' :=
  ⟨h.table.trans h'.table, h'.files.trans h.files, h'.global.trans h.global,
    h'.universal.trans h.universal, h'.hiddenContainers.trans h.hiddenContainers,
    h'.hiddenTypes.trans h.hiddenTypes⟩

theorem Grows.issued {c c' : Compilation} (h : c.Grows c') {s : SymbolId} (hs : c.Issued s) :
    c'.Issued s :=
  h.table.issued hs

theorem Grows.entry {c c' : Compilation} (h : c.Grows c') {s : SymbolId} (hs : c.Issued s) :
    c'.entry s = c.entry s :=
  h.table.entry s hs

/-- What a request leaves behind: an issued symbol, in a later state without loose ends. -/
structure Extends (c : Compilation) (answer : SymbolId × Compilation) : Prop where
  grows : c.Grows answer.2
  closed : answer.2.Closed
  issued : answer.2.Issued answer.1

variable {c : Compilation}

theorem Closed.withTable (h : c.Closed) {answer : SymbolId × SymbolTable}
    (ha : c.table.Extends answer) : c.Extends (answer.1, { c with table := answer.2 }) where
  grows := ⟨ha.grows, rfl, rfl, rfl, rfl, rfl⟩
  closed := ⟨ha.closed, ha.grows.issued h.global, ha.grows.issued h.universal⟩
  issued := ha.issued

theorem Closed.arrayType {element : SymbolId} (h : c.Closed) (he : c.Issued element)
    (rank : UInt64) : c.Extends (c.arrayType element rank) :=
  h.withTable (h.table.array he rank)

theorem Closed.pointerType {pointee : SymbolId} (h : c.Closed) (hp : c.Issued pointee) :
    c.Extends (c.pointerType pointee) :=
  h.withTable (h.table.pointer hp)

end Compilation
end Moniker
