import Moniker.Proofs.Declaring

/-!
# Lawful tables

Under the containment that compilations promise, a symbol table is `Lawful`: what belongs to a
symbol lies inside it and is listed once, a declared symbol is listed where it is contained, and the
answered shapes are exactly the structural types, which look the way their shapes say. Declarations
and requests for structural types keep a table lawful.
-/

namespace Moniker

/-- The list of its owner in which a symbol of the kind is found. -/
def SymbolKind.role : SymbolKind → Attachment
  | .parameter => .parameter
  | .typeParameter => .typeParameter
  | _ => .member

/-- The kinds of types. -/
def SymbolKind.isType : SymbolKind → Bool
  | .namedType | .arrayType | .pointerType | .tupleType | .anonymousType | .typeParameter => true
  | _ => false

/-- The kinds of types without a declaration. -/
def SymbolKind.isStructural : SymbolKind → Bool
  | .arrayType | .pointerType | .tupleType | .anonymousType => true
  | _ => false

/-- What hangs off a symbol in one way. -/
def Symbol.belongings (role : Attachment) (x : Symbol) : List SymbolId :=
  match role with
  | .member => x.members
  | .parameter => x.parameters
  | .typeParameter => x.typeParameters

/-- The kind of the types of a shape. -/
def Shape.kind : Shape → SymbolKind
  | .array _ _ => .arrayType
  | .pointer _ => .pointerType
  | .constructed _ _ => .namedType
  | .tuple _ _ => .tupleType
  | .anonymous _ _ _ => .anonymousType

namespace SymbolTable

/-- A type as it was declared. -/
structure IsDefinition (t : SymbolTable) (s : SymbolId) : Prop where
  issued : t.Issued s
  kind : (t.entry s).kind = .namedType
  definition : (t.entry s).definition = none

structure IsType (t : SymbolTable) (s : SymbolId) : Prop where
  issued : t.Issued s
  kind : (t.entry s).kind.isType = true

/-- The containers of symbols of a kind. -/
def Hosts (t : SymbolTable) (p : SymbolId) : SymbolKind → Prop
  | .nameSpace => (t.entry p).kind = .nameSpace
  | .namedType => (t.entry p).kind = .nameSpace ∨ t.IsDefinition p
  | .field => t.IsDefinition p ∨ (t.entry p).kind = .tupleType
  | .property => t.IsDefinition p ∨ (t.entry p).kind = .anonymousType
  | .method => t.IsDefinition p
  | .localVariable => (t.entry p).kind = .method
  | .parameter => (t.entry p).kind = .method ∨ (t.entry p).kind = .property
  | .typeParameter => t.IsDefinition p ∨ (t.entry p).kind = .method
  | _ => False

/-- A type that was issued before another symbol. -/
structure Earlier (t : SymbolTable) (s a : SymbolId) : Prop where
  type : t.IsType a
  lt : a.index < s.index

/-- The symbol looks the way that the shape says. -/
def Embodies (t : SymbolTable) (s : SymbolId) : Shape → Prop
  | .array element rank => (t.entry s).kind = .arrayType ∧ (t.entry s).type = some element ∧
      (t.entry s).rank = rank ∧ t.Earlier s element
  | .pointer pointee => (t.entry s).kind = .pointerType ∧ (t.entry s).type = some pointee ∧
      t.Earlier s pointee
  | .constructed definition arguments => (t.entry s).kind = .namedType ∧
      (t.entry s).definition = some definition ∧ (t.entry s).typeArguments = arguments ∧
      t.Earlier s definition ∧ (∀ a ∈ arguments, t.Earlier s a) ∧
      checkArguments (t.entry definition) arguments = .ok ()
  | .tuple types names => (t.entry s).kind = .tupleType ∧
      (∀ m ∈ (t.entry s).members, (t.entry m).kind = .field) ∧
      (t.entry s).members.map (fun m => (t.entry m).type) = types.map some ∧
      (t.entry s).members.map (fun m => (t.entry m).name) = names.map (·.getD "") ∧
      (∀ a ∈ types, t.Earlier s a) ∧ ∃ locations, checkTuple types names locations = .ok ()
  | .anonymous types names readOnly => (t.entry s).kind = .anonymousType ∧
      (∀ m ∈ (t.entry s).members,
        (t.entry m).kind = .property ∧ (t.entry m).parameters = []) ∧
      (t.entry s).members.map (fun m => (t.entry m).type) = types.map some ∧
      (t.entry s).members.map (fun m => (t.entry m).name) = names ∧
      (t.entry s).members.map (fun m => (t.entry m).readOnly) = readOnly ∧
      (∀ a ∈ types, t.Earlier s a) ∧
      ∃ locations, checkAnonymous none types names readOnly locations = .ok ()

theorem Embodies.kind {t : SymbolTable} {s : SymbolId} {shape : Shape} (h : t.Embodies s shape) :
    (t.entry s).kind = shape.kind := by
  cases shape <;> exact h.1

theorem Embodies.structural {t : SymbolTable} {s : SymbolId} {shape : Shape}
    (h : t.Embodies s shape) :
    (t.entry s).kind.isStructural = true ∨ (t.entry s).definition ≠ none := by
  cases shape with
  | constructed definition arguments => exact .inr (by rw [h.2.1]; simp)
  | array _ _ | pointer _ | tuple _ _ | anonymous _ _ _ => exact .inl (by rw [h.kind]; rfl)

/-- How a symbol stands to the one that it belongs to. -/
structure Belongs (t : SymbolTable) (role : Attachment) (p s : SymbolId) : Prop where
  lt : p.index < s.index
  container : (t.entry s).container = some p
  role : (t.entry s).kind.role = role
  definition : (t.entry s).definition = none
  host : t.Hosts p (t.entry s).kind

/-- What containment comes to in a symbol table. -/
structure Lawful (t : SymbolTable) : Prop where
  closed : t.Closed
  root : t.Issued ⟨0⟩ ∧ (t.entry ⟨0⟩).kind = .nameSpace ∧ (t.entry ⟨0⟩).container = none
  object : t.IsType ⟨1⟩
  belongs : ∀ p, t.Issued p → ∀ role, ∀ s ∈ (t.entry p).belongings role, t.Belongs role p s
  nodup : ∀ p, t.Issued p → ∀ role, ((t.entry p).belongings role).Nodup
  listed : ∀ s, t.Issued s → (t.entry s).definition = none → ∀ p, (t.entry s).container = some p →
    s ∈ (t.entry p).belongings (t.entry s).kind.role
  orphan : ∀ s, t.Issued s → (t.entry s).container = none →
    s = ⟨0⟩ ∨ (t.entry s).kind.isStructural = true
  named : ∀ s, t.Issued s → (t.entry s).definition ≠ none → (t.entry s).kind = .namedType
  answered : ∀ s, t.Issued s →
    (t.entry s).kind.isStructural = true ∨ (t.entry s).definition ≠ none →
    ∃ shape, t.interned.lookup shape = some s
  embodied : ∀ shape s, t.interned.lookup shape = some s → t.Embodies s shape
  typed : ∀ s, t.Issued s → (t.entry s).kind = .parameter →
    ∃ a, (t.entry s).type = some a ∧ t.IsType a

/-! ## What later states keep -/

/-- The second table is a later state of the first, in which entries may have gained
belongings. -/
structure Keeps (t t' : SymbolTable) : Prop where
  size : t.size ≤ t'.size
  kind : ∀ s, t.Issued s → (t'.entry s).kind = (t.entry s).kind
  name : ∀ s, t.Issued s → (t'.entry s).name = (t.entry s).name
  container : ∀ s, t.Issued s → (t'.entry s).container = (t.entry s).container
  type : ∀ s, t.Issued s → (t'.entry s).type = (t.entry s).type
  typeArguments : ∀ s, t.Issued s → (t'.entry s).typeArguments = (t.entry s).typeArguments
  definition : ∀ s, t.Issued s → (t'.entry s).definition = (t.entry s).definition
  readOnly : ∀ s, t.Issued s → (t'.entry s).readOnly = (t.entry s).readOnly
  rank : ∀ s, t.Issued s → (t'.entry s).rank = (t.entry s).rank

variable {t t' : SymbolTable} {s p a : SymbolId}

theorem Grows.keeps (h : t.Grows t') : t.Keeps t' := by
  refine ⟨h.size, ?_, ?_, ?_, ?_, ?_, ?_, ?_, ?_⟩ <;> intro s hs <;> rw [h.entry s hs]

namespace Keeps

variable (h : t.Keeps t')
include h

theorem issued (hs : t.Issued s) : t'.Issued s := Nat.lt_of_lt_of_le hs h.size

theorem isDefinition (hs : t.IsDefinition s) : t'.IsDefinition s :=
  ⟨h.issued hs.issued, (h.kind s hs.issued).trans hs.kind,
    (h.definition s hs.issued).trans hs.definition⟩

theorem isType (hs : t.IsType s) : t'.IsType s :=
  ⟨h.issued hs.issued, by rw [h.kind s hs.issued, hs.kind]⟩

theorem earlier (ha : t.Earlier s a) : t'.Earlier s a := ⟨h.isType ha.type, ha.lt⟩

theorem hosts {kind : SymbolKind} (hp : t.Issued p) (hhosts : t.Hosts p kind) :
    t'.Hosts p kind := by
  have hkind := h.kind p hp
  cases kind <;> simp only [Hosts, hkind] at hhosts ⊢ <;> try exact hhosts
  all_goals first
    | exact h.isDefinition hhosts
    | exact hhosts.imp_left h.isDefinition
    | exact hhosts.imp_right h.isDefinition

theorem belongs {role : Attachment} (hp : t.Issued p) (hs : t.Issued s)
    (hbelongs : t.Belongs role p s) : t'.Belongs role p s where
  lt := hbelongs.lt
  container := (h.container s hs).trans hbelongs.container
  role := by rw [h.kind s hs, hbelongs.role]
  definition := (h.definition s hs).trans hbelongs.definition
  host := by
    rw [h.kind s hs]
    exact h.hosts hp hbelongs.host

/-- A structural type looks as before if nothing was declared in it, nor in its members, and its
definition takes the arguments that it took. -/
theorem embodies {shape : Shape} (hs : t.Issued s) (hissued : ∀ m ∈ (t.entry s).members, t.Issued m)
    (hmembers : (t'.entry s).members = (t.entry s).members)
    (hparameters : ∀ m ∈ (t.entry s).members, (t.entry s).kind = .anonymousType →
      (t'.entry m).parameters = (t.entry m).parameters)
    (htypeParameters : ∀ g, (t.entry s).definition = some g → t.Issued g →
      (t'.entry g).typeParameters = (t.entry g).typeParameters)
    (hembodies : t.Embodies s shape) : t'.Embodies s shape := by
  cases shape with
  | array element rank =>
      obtain ⟨hkind, htype, hrank, helement⟩ := hembodies
      exact ⟨by rw [h.kind s hs, hkind], by rw [h.type s hs, htype], by rw [h.rank s hs, hrank],
        h.earlier helement⟩
  | pointer pointee =>
      obtain ⟨hkind, htype, hpointee⟩ := hembodies
      exact ⟨by rw [h.kind s hs, hkind], by rw [h.type s hs, htype], h.earlier hpointee⟩
  | constructed definition arguments =>
      obtain ⟨hkind, hdefinition, harguments, hearlier, heach, hcheck⟩ := hembodies
      have hg := hearlier.type.issued
      refine ⟨by rw [h.kind s hs, hkind], by rw [h.definition s hs, hdefinition],
        by rw [h.typeArguments s hs, harguments], h.earlier hearlier,
        fun a ha => h.earlier (heach a ha), ?_⟩
      unfold checkArguments at hcheck ⊢
      rwa [h.kind definition hg, h.name definition hg, h.definition definition hg,
        htypeParameters definition hdefinition hg]
  | tuple types names =>
      obtain ⟨hkind, hfields, htypes, hnames, hearlier, hcheck⟩ := hembodies
      refine ⟨by rw [h.kind s hs, hkind], ?_, ?_, ?_, fun a ha => h.earlier (hearlier a ha), hcheck⟩
      · rw [hmembers]
        exact fun m hm => (h.kind m (hissued m hm)).trans (hfields m hm)
      · rw [hmembers, ← htypes]
        exact List.map_congr_left fun m hm => h.type m (hissued m hm)
      · rw [hmembers, ← hnames]
        exact List.map_congr_left fun m hm => h.name m (hissued m hm)
  | anonymous types names readOnly =>
      obtain ⟨hkind, hproperties, htypes, hnames, hfixed, hearlier, hcheck⟩ := hembodies
      refine ⟨by rw [h.kind s hs, hkind], ?_, ?_, ?_, ?_, fun a ha => h.earlier (hearlier a ha),
        hcheck⟩
      · rw [hmembers]
        exact fun m hm => ⟨(h.kind m (hissued m hm)).trans (hproperties m hm).1,
          (hparameters m hm hkind).trans (hproperties m hm).2⟩
      · rw [hmembers, ← htypes]
        exact List.map_congr_left fun m hm => h.type m (hissued m hm)
      · rw [hmembers, ← hnames]
        exact List.map_congr_left fun m hm => h.name m (hissued m hm)
      · rw [hmembers, ← hfixed]
        exact List.map_congr_left fun m hm => h.readOnly m (hissued m hm)

end Keeps

/-! ## Declarations -/

/-- An entry to declare: it has nothing yet, and it is a type only if it is a definition. -/
structure Fresh (role : Attachment) (x : Symbol) : Prop where
  members : x.members = []
  parameters : x.parameters = []
  typeParameters : x.typeParameters = []
  definition : x.definition = none
  role : x.kind.role = role
  declared : x.kind.isStructural = false

/-- Whether an entry may be declared in an owner: containment allows it, the owner is no structural
type and not inside one, and no type has been constructed from the owner if its type parameters
change. -/
structure Welcomes (t : SymbolTable) (role : Attachment) (owner : SymbolId) (x : Symbol) :
    Prop where
  issued : t.Issued owner
  hosts : t.Hosts owner x.kind
  declared : (t.entry owner).kind.isStructural = false
  definition : (t.entry owner).definition = none
  outside : ∀ p, (t.entry owner).container = some p → (t.entry p).kind ≠ .anonymousType
  references : ∀ r ∈ x.references, t.Issued r
  typed : x.kind = .parameter → ∃ a, x.type = some a ∧ t.IsType a
  unused : role = .typeParameter → ∀ s, t.Issued s → (t.entry s).definition ≠ some owner

variable {role : Attachment} {owner : SymbolId} {x : Symbol}

theorem entry_declared_eq (ho : t.Issued owner) (hs : t.Issued s) :
    (t.declared role owner x).entry s =
      if s = owner then attach role t.next (t.entry s) else t.entry s := by
  split
  · next h => rw [h, entry_declared_owner ho]
  · next h => rw [entry_declared hs h]

theorem keeps_declared (ho : t.Issued owner) (role : Attachment) (x : Symbol) :
    t.Keeps (t.declared role owner x) := by
  refine ⟨by simp, ?_, ?_, ?_, ?_, ?_, ?_, ?_, ?_⟩ <;> intro s hs <;>
    rw [entry_declared_eq ho hs] <;> split <;> first | rfl | (cases role <;> rfl)

theorem belongings_attach (role role' : Attachment) (id : SymbolId) (x : Symbol) :
    (attach role id x).belongings role' =
      if role' = role then x.belongings role' ++ [id] else x.belongings role' := by
  cases role <;> cases role' <;> rfl

/-- Only one list changes, and it gains the new symbol. -/
theorem belongings_declared (ho : t.Issued owner) (hs : t.Issued s) (role role' : Attachment)
    (x : Symbol) :
    ((t.declared role owner x).entry s).belongings role' =
      if s = owner ∧ role' = role then (t.entry s).belongings role' ++ [t.next]
      else (t.entry s).belongings role' := by
  rw [entry_declared_eq ho hs]
  by_cases h : s = owner
  · simp [h, belongings_attach]
  · simp [h]

theorem not_issued_next : ¬ t.Issued t.next := by simp [Issued, next]

theorem Fresh.belongings (h : Fresh role x) (role' : Attachment) :
    ({ x with container := some owner } : Symbol).belongings role' = [] := by
  cases role'
  · exact h.members
  · exact h.parameters
  · exact h.typeParameters

/-- What is listed after a declaration was listed before it, or it is the new symbol. -/
theorem mem_belongings_declared (ho : t.Issued owner) (hfresh : Fresh role x)
    (hp : (t.declared role owner x).Issued p) (role' : Attachment)
    (hs : s ∈ ((t.declared role owner x).entry p).belongings role') :
    t.Issued p ∧ s ∈ (t.entry p).belongings role' ∨ p = owner ∧ role' = role ∧ s = t.next := by
  rcases issued_of_declared hp with hp | rfl
  · rw [belongings_declared ho hp] at hs
    split at hs
    · next heq =>
        rcases List.mem_append.mp hs with hs | hs
        · exact .inl ⟨hp, hs⟩
        · exact .inr ⟨heq.1, heq.2, List.mem_singleton.mp hs⟩
    · exact .inl ⟨hp, hs⟩
  · rw [entry_declared_next, hfresh.belongings] at hs
    cases hs

/-- Symbols are listed once if they were before, as the new one was not there. -/
theorem nodup_belongings_declared (ho : t.Issued owner) (hfresh : Fresh role x)
    (hissued : ∀ p, t.Issued p → ∀ role, ∀ s ∈ (t.entry p).belongings role, t.Issued s)
    (hnodup : ∀ p, t.Issued p → ∀ role, ((t.entry p).belongings role).Nodup)
    (hp : (t.declared role owner x).Issued p) (role' : Attachment) :
    (((t.declared role owner x).entry p).belongings role').Nodup := by
  rcases issued_of_declared hp with hp | rfl
  · rw [belongings_declared ho hp]
    split
    · refine List.nodup_append.mpr ⟨hnodup p hp role', by simp, ?_⟩
      intro a ha b hb heq
      obtain rfl := List.mem_singleton.mp hb
      exact not_issued_next (heq ▸ hissued p hp role' a ha)
    · exact hnodup p hp role'
  · rw [entry_declared_next, hfresh.belongings]
    exact List.nodup_nil

namespace Lawful

theorem issued_belongings (h : t.Lawful) (hp : t.Issued p) {m : SymbolId}
    (hm : m ∈ (t.entry p).belongings role) : t.Issued m := by
  refine h.closed.references p hp m ?_
  cases role <;> simp only [Symbol.belongings] at hm <;> simp [Symbol.references, hm]

/-! ### A fresh entry that is declared where it is welcome -/

section Declared

variable (h : t.Lawful) (hfresh : Fresh role x) (hwelcome : t.Welcomes role owner x)
include h hfresh hwelcome

/-- The lists that there were keep what is in them, and the new symbol is in one of them. -/
theorem belongs_declared {p s : SymbolId} {role' : Attachment}
    (hp : (t.declared role owner x).Issued p)
    (hs : s ∈ ((t.declared role owner x).entry p).belongings role') :
    (t.declared role owner x).Belongs role' p s := by
  have ho := hwelcome.issued
  have hkeeps := keeps_declared ho role x
  rcases mem_belongings_declared ho hfresh hp role' hs with ⟨hp, hs⟩ | ⟨rfl, rfl, rfl⟩
  · exact hkeeps.belongs hp (h.issued_belongings hp hs) (h.belongs p hp role' s hs)
  · have hentry := @entry_declared_next t role' p x
    refine ⟨ho, by rw [hentry], by rw [hentry]; exact hfresh.role,
      by rw [hentry]; exact hfresh.definition, ?_⟩
    rw [hentry]
    exact hkeeps.hosts ho hwelcome.hosts

theorem listed_declared {s p : SymbolId} (hs : (t.declared role owner x).Issued s)
    (hdefinition : ((t.declared role owner x).entry s).definition = none)
    (hcontainer : ((t.declared role owner x).entry s).container = some p) :
    s ∈ ((t.declared role owner x).entry p).belongings
      ((t.declared role owner x).entry s).kind.role := by
  have ho := hwelcome.issued
  have hkeeps := keeps_declared ho role x
  rcases issued_of_declared hs with hs | rfl
  · rw [hkeeps.definition s hs] at hdefinition
    rw [hkeeps.container s hs] at hcontainer
    have hp := h.closed.container hs hcontainer
    have hlisted := h.listed s hs hdefinition p hcontainer
    rw [hkeeps.kind s hs, belongings_declared ho hp]
    split
    · exact List.mem_append_left _ hlisted
    · exact hlisted
  · rw [entry_declared_next] at hcontainer ⊢
    cases hcontainer
    rw [belongings_declared ho ho, if_pos ⟨rfl, hfresh.role⟩]
    simp

/-- The new symbol embodies no shape, and what does embody one does not change. -/
theorem embodied_declared {shape : Shape} {s : SymbolId}
    (hlookup : t.interned.lookup shape = some s) : (t.declared role owner x).Embodies s shape := by
  have ho := hwelcome.issued
  have hs := h.closed.interned shape s hlookup
  have hembodies := h.embodied shape s hlookup
  have hne : s ≠ owner := by
    rintro rfl
    rcases hembodies.structural with hstructural | hdefinition
    · rw [hwelcome.declared] at hstructural
      cases hstructural
    · exact hdefinition hwelcome.definition
  refine (keeps_declared ho role x).embodies hs (fun m hm => h.closed.members hs hm) ?_ ?_ ?_
    hembodies
  · rw [entry_declared hs hne]
  · intro m hm hkind
    have hmember := h.belongs s hs .member m hm
    have hm' : m ≠ owner := by
      rintro rfl
      exact hwelcome.outside s hmember.container hkind
    rw [entry_declared (h.closed.members hs hm) hm']
  · intro g hg hissued
    rw [entry_declared_eq ho hissued]
    split
    · next heq =>
        cases role with
        | typeParameter => exact absurd (heq ▸ hg) (hwelcome.unused rfl s hs)
        | member | parameter => rfl
    · rfl

/-- The new symbol is neither structural nor constructed. -/
theorem answered_declared {s : SymbolId} (hs : (t.declared role owner x).Issued s)
    (hshape : ((t.declared role owner x).entry s).kind.isStructural = true ∨
      ((t.declared role owner x).entry s).definition ≠ none) :
    ∃ shape, t.interned.lookup shape = some s := by
  have hkeeps := keeps_declared hwelcome.issued role x
  rcases issued_of_declared hs with hs | rfl
  · rw [hkeeps.kind s hs, hkeeps.definition s hs] at hshape
    exact h.answered s hs hshape
  · rw [entry_declared_next] at hshape
    rcases hshape with hshape | hshape
    · rw [hfresh.declared] at hshape
      cases hshape
    · exact absurd hfresh.definition hshape

/-- Declaring a fresh entry where it is welcome keeps a table lawful. -/
theorem declared : (t.declared role owner x).Lawful := by
  have hkeeps := keeps_declared hwelcome.issued role x
  exact {
    closed := h.closed.declared hwelcome.issued hwelcome.references role
    root := by
      obtain ⟨hissued, hkind, hcontainer⟩ := h.root
      exact ⟨hkeeps.issued hissued, by rw [hkeeps.kind _ hissued, hkind],
        by rw [hkeeps.container _ hissued, hcontainer]⟩
    object := hkeeps.isType h.object
    belongs := fun _ hp _ _ hs => h.belongs_declared hfresh hwelcome hp hs
    nodup := fun _ hp =>
      nodup_belongings_declared hwelcome.issued hfresh (fun _ hp _ _ => h.issued_belongings hp)
        h.nodup hp
    listed := fun _ hs hdefinition _ hcontainer =>
      h.listed_declared hfresh hwelcome hs hdefinition hcontainer
    orphan := by
      intro s hs hcontainer
      rcases issued_of_declared hs with hs | rfl
      · rw [hkeeps.container s hs] at hcontainer
        rw [hkeeps.kind s hs]
        exact h.orphan s hs hcontainer
      · rw [entry_declared_next] at hcontainer
        cases hcontainer
    named := by
      intro s hs hdefinition
      rcases issued_of_declared hs with hs | rfl
      · rw [hkeeps.definition s hs] at hdefinition
        rw [hkeeps.kind s hs]
        exact h.named s hs hdefinition
      · rw [entry_declared_next] at hdefinition
        exact absurd hfresh.definition hdefinition
    answered := fun _ hs hshape => h.answered_declared hfresh hwelcome hs hshape
    embodied := fun _ _ hlookup => h.embodied_declared hfresh hwelcome hlookup
    typed := by
      intro s hs hkind
      rcases issued_of_declared hs with hs | rfl
      · rw [hkeeps.kind s hs] at hkind
        obtain ⟨a, htype, ha⟩ := h.typed s hs hkind
        exact ⟨a, by rw [hkeeps.type s hs, htype], hkeeps.isType ha⟩
      · rw [entry_declared_next] at hkind ⊢
        obtain ⟨a, htype, ha⟩ := hwelcome.typed hkind
        exact ⟨a, htype, hkeeps.isType ha⟩ }

end Declared

theorem next_welcomes (h : t.Lawful) (hfresh : Fresh role x) {y : Symbol}
    (hx : t.Welcomes role owner x) (hy : t.Welcomes role owner y) :
    (t.declared role owner x).Welcomes role owner y := by
  have ho := hx.issued
  have hkeeps := keeps_declared ho role x
  refine ⟨hkeeps.issued ho, hkeeps.hosts ho hy.hosts, by rw [hkeeps.kind owner ho, hy.declared],
    (hkeeps.definition owner ho).trans hy.definition, ?_,
    fun r hr => hkeeps.issued (hy.references r hr), ?_, ?_⟩
  · intro p hp
    rw [hkeeps.container owner ho] at hp
    rw [hkeeps.kind p (h.closed.container ho hp)]
    exact hy.outside p hp
  · intro hkind
    obtain ⟨a, htype, ha⟩ := hy.typed hkind
    exact ⟨a, htype, hkeeps.isType ha⟩
  · intro hrole s hs
    rcases issued_of_declared hs with hs | rfl
    · rw [hkeeps.definition s hs]
      exact hy.unused hrole s hs
    · rw [entry_declared_next]
      show x.definition ≠ some owner
      rw [hfresh.definition]
      simp

theorem declaredAll {xs : List Symbol} (h : t.Lawful) (hfresh : ∀ x ∈ xs, Fresh role x)
    (hwelcome : ∀ x ∈ xs, t.Welcomes role owner x) : (t.declaredAll role owner xs).Lawful := by
  induction xs generalizing t with
  | nil => exact h
  | cons x rest ih =>
      have hx := hfresh x (by simp)
      have hwelcomex := hwelcome x (by simp)
      refine ih (h.declared hx hwelcomex) (fun y hy => hfresh y (by simp [hy])) fun y hy => ?_
      exact h.next_welcomes hx hwelcomex (hwelcome y (by simp [hy]))

/-- A symbol that has just been declared in no anonymous type is open to declarations. -/
theorem welcomes_next (h : t.Lawful) (ho : t.Issued owner) (hfresh : Fresh role x)
    (howner : (t.entry owner).kind ≠ .anonymousType) {role' : Attachment} {y : Symbol}
    (hhosts : (t.declared role owner x).Hosts t.next y.kind)
    (hreferences : ∀ r ∈ y.references, t.Issued r)
    (htyped : y.kind = .parameter → ∃ a, y.type = some a ∧ t.IsType a) :
    (t.declared role owner x).Welcomes role' t.next y := by
  have hkeeps := keeps_declared ho role x
  have hentry := @entry_declared_next t role owner x
  refine ⟨issued_next_declared, hhosts, by rw [hentry]; exact hfresh.declared,
    by rw [hentry]; exact hfresh.definition, ?_, fun r hr => hkeeps.issued (hreferences r hr),
    ?_, ?_⟩
  · intro p hp
    rw [hentry] at hp
    cases hp
    rwa [hkeeps.kind owner ho]
  · intro hkind
    obtain ⟨a, htype, ha⟩ := htyped hkind
    exact ⟨a, htype, hkeeps.isType ha⟩
  · intro _ s hs hdefinition
    -- Nothing that was issued before can have been constructed from the new symbol.
    rcases issued_of_declared hs with hs | rfl
    · rw [hkeeps.definition s hs] at hdefinition
      exact not_issued_next (h.closed.definition hs hdefinition)
    · rw [hentry] at hdefinition
      rw [show x.definition = none from hfresh.definition] at hdefinition
      cases hdefinition

end Lawful

end SymbolTable
end Moniker
