import Mathlib.Data.List.Zip
import Moniker.Proofs.Asking
import Moniker.Proofs.Resembling

/-!
# Twins

Two later states of one compilation number what is new in them differently. A symbol of the one is
the twin of a symbol of the other (`SymbolTable.Twin`) if it is a symbol that was there before, or
if it is a new type whose shape is that of the other over twins, or if both stand at the same place
among the members of such types. Every symbol has one twin at most, and the entries of twins say the
same over twins, locations apart; so twins resemble each other (`Compilation.Branches.resembles`),
and lookups among twins find twins.
-/

namespace Moniker

open List Relator

/-! ## Shapes over different symbols -/

/-- The shapes are the same but for the symbols that they mention. -/
inductive Shape.Like : Shape → Shape → Prop
  | array {a b : SymbolId} (rank : UInt64) : Like (.array a rank) (.array b rank)
  | pointer {a b : SymbolId} : Like (.pointer a) (.pointer b)
  | constructed {g g' : SymbolId} {as bs : List SymbolId} (hlength : as.length = bs.length) :
    Like (.constructed g as) (.constructed g' bs)
  | tuple {as bs : List SymbolId} (names : List (Option String)) (hlength : as.length = bs.length) :
    Like (.tuple as names) (.tuple bs names)
  | anonymous {as bs : List SymbolId} (names : List String) (readOnly : List Bool)
    (hlength : as.length = bs.length) :
    Like (.anonymous as names readOnly) (.anonymous bs names readOnly)

namespace Shape.Like

variable {shape shape' other : Shape}

theorem length_eq (h : shape.Like shape') : shape.symbols.length = shape'.symbols.length := by
  cases h with
  | array _ | pointer => rfl
  | constructed hlength => exact congrArg (· + 1) hlength
  | tuple _ hlength | anonymous _ _ hlength => exact hlength

theorem symm (h : shape.Like shape') : shape'.Like shape := by
  cases h with
  | array rank => exact .array rank
  | pointer => exact .pointer
  | constructed hlength => exact .constructed hlength.symm
  | tuple names hlength => exact .tuple names hlength.symm
  | anonymous names readOnly hlength => exact .anonymous names readOnly hlength.symm

theorem refl (shape : Shape) : shape.Like shape := by
  cases shape with
  | array element rank => exact .array rank
  | pointer pointee => exact .pointer
  | constructed definition arguments => exact .constructed rfl
  | tuple types names => exact .tuple names rfl
  | anonymous types names readOnly => exact .anonymous names readOnly rfl

/-- The symbols are all that tells like shapes apart. -/
theorem eq_of_symbols (h : shape.Like shape') (h' : shape.Like other)
    (hsymbols : shape'.symbols = other.symbols) : shape' = other := by
  cases h <;> cases h' <;> simp_all [Shape.symbols]

end Shape.Like

/-- Members of structural types are fields and properties. -/
theorem Shape.kind_member {shape : Shape} {x : Symbol} (hx : x ∈ shape.members) :
    x.kind = .field ∨ x.kind = .property := by
  cases shape with
  | array _ _ | pointer _ | constructed _ _ => cases hx
  | tuple types names => exact .inl (SymbolTable.mem_tupleFields x hx).2
  | anonymous types names readOnly => exact .inr (SymbolTable.mem_anonymousProperties x hx).2

/-- The types of members are among the symbols of the shape. -/
theorem Shape.type_member {shape : Shape} {x : Symbol} (hx : x ∈ shape.members) {a : SymbolId}
    (ha : x.type = some a) : a ∈ shape.symbols := by
  have hreference : a ∈ x.references := by simp [Symbol.references, ha]
  cases shape with
  | array _ _ | pointer _ | constructed _ _ => cases hx
  | tuple types names => exact SymbolTable.references_tupleFields x hx a hreference
  | anonymous types names readOnly =>
    exact SymbolTable.references_anonymousProperties x hx a hreference

/-- Members of structural types have no parameters. -/
theorem Shape.parameters_member {shape : Shape} {x : Symbol} (hx : x ∈ shape.members) :
    x.parameters = [] := by
  cases shape with
  | array _ _ | pointer _ | constructed _ _ => cases hx
  | tuple types names => exact (SymbolTable.mem_tupleFields x hx).1.parameters
  | anonymous types names readOnly => exact (SymbolTable.mem_anonymousProperties x hx).1.parameters

/-! ## Entries over different symbols -/

/-- The entries say the same over related symbols, locations apart. -/
structure Symbol.Related (R : SymbolId → SymbolId → Prop) (x y : Symbol) : Prop where
  kind : y.kind = x.kind
  name : y.name = x.name
  readOnly : y.readOnly = x.readOnly
  rank : y.rank = x.rank
  container : Option.Rel R x.container y.container
  type : Option.Rel R x.type y.type
  definition : Option.Rel R x.definition y.definition
  members : Forall₂ R x.members y.members
  typeParameters : Forall₂ R x.typeParameters y.typeParameters
  typeArguments : Forall₂ R x.typeArguments y.typeArguments
  parameters : Forall₂ R x.parameters y.parameters

section Entries

variable {R : SymbolId → SymbolId → Prop} {x y : Symbol}

theorem Symbol.related_self (h : ∀ r ∈ x.references, R r r) : x.Related R x := by
  have hoption : ∀ r? : Option SymbolId, (∀ r ∈ r?.toList, R r r) → Option.Rel R r? r? := by
    intro r? hr
    cases r? with
    | none => exact .none
    | some r => exact .some (hr r (by simp))
  have hlist : ∀ rs : List SymbolId, (∀ r ∈ rs, R r r) → Forall₂ R rs rs := fun rs hrs =>
    forall₂_same.mpr hrs
  simp only [references, mem_append] at h
  exact ⟨rfl, rfl, rfl, rfl, hoption _ fun r hr => h r (by simp [hr]),
    hoption _ fun r hr => h r (by simp [hr]), hoption _ fun r hr => h r (by simp [hr]),
    hlist _ fun r hr => h r (by simp [hr]), hlist _ fun r hr => h r (by simp [hr]),
    hlist _ fun r hr => h r (by simp [hr]), hlist _ fun r hr => h r (by simp [hr])⟩

theorem Symbol.Related.of_unplaced (h : x.unplaced.Related R y.unplaced) : x.Related R y :=
  ⟨h.kind, h.name, h.readOnly, h.rank, h.container, h.type, h.definition, h.members,
    h.typeParameters, h.typeArguments, h.parameters⟩

theorem Symbol.Related.inside (h : x.Related R y) {s s' : SymbolId} (hs : R s s') :
    Symbol.Related R { x with container := some s } { y with container := some s' } :=
  ⟨h.kind, h.name, h.readOnly, h.rank, .some hs, h.type, h.definition, h.members,
    h.typeParameters, h.typeArguments, h.parameters⟩

theorem Symbol.Related.withMembers (h : x.Related R y) {ms ms' : List SymbolId}
    (hms : Forall₂ R ms ms') :
    Symbol.Related R { x with members := ms } { y with members := ms' } :=
  ⟨h.kind, h.name, h.readOnly, h.rank, h.container, h.type, h.definition, hms,
    h.typeParameters, h.typeArguments, h.parameters⟩

theorem tupleFields_related {as bs : List SymbolId} (h : Forall₂ R as bs)
    (names : List (Option String)) :
    Forall₂ (Symbol.Related R) (SymbolTable.tupleFields as names (as.map fun _ => .nowhere))
      (SymbolTable.tupleFields bs names (bs.map fun _ => .nowhere)) := by
  induction h generalizing names with
  | nil => exact .nil
  | cons hab _ ih =>
    cases names with
    | nil => exact .nil
    | cons name names =>
      exact .cons ⟨rfl, rfl, rfl, rfl, .none, .some hab, .none, .nil, .nil, .nil, .nil⟩ (ih names)

theorem anonymousProperties_related {as bs : List SymbolId} (h : Forall₂ R as bs)
    (names : List String) (readOnly : List Bool) :
    Forall₂ (Symbol.Related R)
      (SymbolTable.anonymousProperties as names readOnly (as.map fun _ => .nowhere))
      (SymbolTable.anonymousProperties bs names readOnly (bs.map fun _ => .nowhere)) := by
  induction h generalizing names readOnly with
  | nil => exact .nil
  | cons hab _ ih =>
    cases names with
    | nil => exact .nil
    | cons name names =>
      cases readOnly with
      | nil => exact .nil
      | cons fixed readOnly =>
        exact .cons ⟨rfl, rfl, rfl, rfl, .none, .some hab, .none, .nil, .nil, .nil, .nil⟩
          (ih names readOnly)

variable {shape shape' : Shape}

/-- Like shapes over related symbols have related members. -/
theorem Shape.Like.members (hlike : shape.Like shape')
    (hsymbols : Forall₂ R shape.symbols shape'.symbols) :
    Forall₂ (Symbol.Related R) shape.members shape'.members := by
  cases hlike with
  | array _ | pointer | constructed _ => exact .nil
  | tuple names _ => exact tupleFields_related hsymbols names
  | anonymous names readOnly _ => exact anonymousProperties_related hsymbols names readOnly

/-- Like shapes over related symbols have related heads, if the entries of definitions are
related. -/
theorem Shape.Like.head {t t' : SymbolTable} (hlike : shape.Like shape')
    (hsymbols : Forall₂ R shape.symbols shape'.symbols)
    (hentries : ∀ p ∈ shape.symbols.zip shape'.symbols, (t.entry p.1).Related R (t'.entry p.2)) :
    (shape.head t).Related R (shape'.head t') := by
  cases hlike with
  | array rank | pointer =>
    cases hsymbols with
    | cons hab _ => exact ⟨rfl, rfl, rfl, rfl, .none, .some hab, .none, .nil, .nil, .nil, .nil⟩
  | @constructed g g' as bs _ =>
    have hentry := hentries (g, g') (by simp [Shape.symbols])
    cases hsymbols with
    | cons hg has =>
      exact ⟨rfl, hentry.name, rfl, rfl, hentry.container, .none, .some hg, .nil, .nil, has, .nil⟩
  | tuple _ _ | anonymous _ _ _ =>
    exact ⟨rfl, rfl, rfl, rfl, .none, .none, .none, .nil, .nil, .nil, .nil⟩

end Entries

namespace SymbolTable

variable {t₀ t t' u u' : SymbolTable} {s s' : SymbolId}

/-! ## Twins -/

/-- The symbols correspond in two later states of a table. -/
inductive Twin (t₀ t t' : SymbolTable) : SymbolId → SymbolId → Prop
  | old {s : SymbolId} (h : t₀.Issued s) : Twin t₀ t t' s s
  | built {shape shape' : Shape} {s s' : SymbolId} (hs : t₀.New t shape s)
    (hs' : t₀.New t' shape' s') (hlike : shape.Like shape')
    (hsymbols : ∀ p ∈ shape.symbols.zip shape'.symbols, Twin t₀ t t' p.1 p.2) : Twin t₀ t t' s s'
  | member {shape shape' : Shape} {s s' m m' : SymbolId} {i : Nat} (hs : t₀.New t shape s)
    (hs' : t₀.New t' shape' s') (hlike : shape.Like shape')
    (hsymbols : ∀ p ∈ shape.symbols.zip shape'.symbols, Twin t₀ t t' p.1 p.2)
    (hm : (t.entry s).members[i]? = some m) (hm' : (t'.entry s').members[i]? = some m') :
    Twin t₀ t t' m m'

theorem Twin.symm (h : t₀.Twin t t' s s') : t₀.Twin t' t s' s := by
  -- swapping the tables swaps the pairs of symbols that the shapes mention
  have hswap : ∀ {as bs : List SymbolId}, (∀ p ∈ as.zip bs, t₀.Twin t' t p.2 p.1) →
      ∀ p ∈ bs.zip as, t₀.Twin t' t p.1 p.2 := by
    intro as bs heach p hp
    rw [← zip_swap] at hp
    obtain ⟨q, hq, rfl⟩ := mem_map.mp hp
    exact heach q hq
  induction h with
  | old h => exact .old h
  | built hs hs' hlike _ ih => exact .built hs' hs hlike.symm (hswap ih)
  | member hs hs' hlike _ hm hm' ih => exact .member hs' hs hlike.symm (hswap ih) hm' hm

theorem New.later {shape : Shape} (h : t₀.New t shape s) (hgrows : t.Grows u) : t₀.New u shape s :=
  ⟨h.before, hgrows.interned shape s h.now⟩

section Later

variable (h : t₀.Traces t) (h' : t₀.Traces t')
include h h'

theorem Twin.issued (htwin : t₀.Twin t t' s s') : t.Issued s ∧ t'.Issued s' := by
  cases htwin with
  | old hs => exact ⟨h.grows.issued hs, h'.grows.issued hs⟩
  | built hs hs' _ _ => exact ⟨(h.erected _ _ hs).issued, (h'.erected _ _ hs').issued⟩
  | member hs hs' _ _ hm hm' =>
    exact ⟨((h.erected _ _ hs).member _ (mem_of_getElem? hm)).2,
      ((h'.erected _ _ hs').member _ (mem_of_getElem? hm')).2⟩

/-- Twins stay twins. -/
theorem Twin.later (hgrows : t.Grows u) (hgrows' : t'.Grows u') (htwin : t₀.Twin t t' s s') :
    t₀.Twin u u' s s' := by
  induction htwin with
  | old hs => exact .old hs
  | built hs hs' hlike _ ih => exact .built (hs.later hgrows) (hs'.later hgrows') hlike ih
  | member hs hs' hlike _ hm hm' ih =>
    rw [← hgrows.entry _ (h.erected _ _ hs).issued] at hm
    rw [← hgrows'.entry _ (h'.erected _ _ hs').issued] at hm'
    exact .member (hs.later hgrows) (hs'.later hgrows') hlike ih hm hm'

/-- A symbol that was there before is its own twin. -/
theorem Twin.eq_of_old (htwin : t₀.Twin t t' s s') (hold : t₀.Issued s ∨ t₀.Issued s') :
    s' = s := by
  cases htwin with
  | old _ => rfl
  | built hs hs' _ _ =>
    exact (hold.elim (h.erected _ _ hs).new (h'.erected _ _ hs').new).elim
  | member hs hs' _ _ hm hm' =>
    exact (hold.elim ((h.erected _ _ hs).member _ (mem_of_getElem? hm)).1
      ((h'.erected _ _ hs').member _ (mem_of_getElem? hm')).1).elim

end Later

/-! ## Every symbol has one twin -/

theorem Erected.not_member {shape shape' : Shape} {i : Nat} {p : SymbolId}
    (h : t₀.Erected t shape s) (hp : t₀.Erected t shape' p) : (t.entry p).members[i]? ≠ some s := by
  intro hm
  obtain ⟨x, hx, hentry⟩ := hp.entry_member hm
  have hkind : (t.entry s).unplaced.kind = x.kind := by rw [hentry]
  change (t.entry s).kind = x.kind at hkind
  rw [h.kind] at hkind
  rcases Shape.kind_member (mem_of_getElem? hx) with hfield | hfield <;>
    rw [hfield] at hkind <;> cases shape <;> cases hkind

theorem twin_rightUnique (h : t₀.Traces t) : RightUnique (t₀.Twin t t') := by
  -- a new symbol goes back to one shape, and the symbols of that have one twin each
  have hshape : ∀ {shape other shape' other' : Shape} {s : SymbolId}, t₀.New t shape s →
      t₀.New t other s → shape.Like shape' → other.Like other' →
      (∀ p ∈ shape.symbols.zip shape'.symbols, ∀ b, t₀.Twin t t' p.1 b → p.2 = b) →
      (∀ p ∈ other.symbols.zip other'.symbols, t₀.Twin t t' p.1 p.2) → shape' = other' := by
    intro shape other shape' other' s hs hother hlike hlike' ih htwins
    obtain rfl := h.injective _ _ _ hs hother
    exact hlike.eq_of_symbols hlike'
      (eq_of_zip hlike.length_eq.symm hlike'.length_eq.symm ih htwins)
  intro a b c hab hac
  -- old symbols, new types and members of new types are three kinds that do not mix
  induction hab generalizing c with
  | old hold =>
    cases hac with
    | old _ => rfl
    | built hs _ _ _ => exact absurd hold (h.erected _ _ hs).new
    | member hs _ _ _ hm _ => exact absurd hold ((h.erected _ _ hs).member _ (mem_of_getElem? hm)).1
  | built hs hs' hlike _ ih =>
    cases hac with
    | old hold => exact absurd hold (h.erected _ _ hs).new
    | built hother hother' hlike' htwins =>
      obtain rfl := hshape hs hother hlike hlike' (fun p hp b => @ih p hp b) htwins
      exact Option.some.inj (hs'.now.symm.trans hother'.now)
    | member hother _ _ _ hm _ =>
      exact absurd hm ((h.erected _ _ hs).not_member (h.erected _ _ hother))
  | member hs hs' hlike _ hm hm' ih =>
    cases hac with
    | old hold => exact absurd hold ((h.erected _ _ hs).member _ (mem_of_getElem? hm)).1
    | built hother _ _ _ => exact absurd hm ((h.erected _ _ hother).not_member (h.erected _ _ hs))
    | member hother hother' hlike' htwins hm₂ hm₂' =>
      have herected := h.erected _ _ hs
      obtain ⟨x, -, hx⟩ := herected.entry_member hm
      obtain ⟨y, -, hy⟩ := (h.erected _ _ hother).entry_member hm₂
      obtain rfl := Option.some.inj (congrArg Symbol.container (hx.symm.trans hy))
      obtain rfl := hshape hs hother hlike hlike' (fun p hp b => @ih p hp b) htwins
      obtain rfl := Option.some.inj (hs'.now.symm.trans hother'.now)
      -- members are all different, so the place is the same one too
      obtain ⟨hlt, -⟩ := List.getElem?_eq_some_iff.mp hm
      obtain rfl := (List.getElem?_inj hlt herected.nodup).mp (hm.trans hm₂.symm)
      exact Option.some.inj (hm'.symm.trans hm₂')

theorem twin_biUnique (h : t₀.Traces t) (h' : t₀.Traces t') : BiUnique (t₀.Twin t t') :=
  ⟨fun _ _ _ hab hcb => twin_rightUnique h' hab.symm hcb.symm, twin_rightUnique h⟩

/-! ## What the entries of twins say -/

/-- The entries of twins say the same over twins. -/
theorem Twin.entry (hclosed : t₀.Closed) (h : t₀.Traces t) (h' : t₀.Traces t')
    (htwin : t₀.Twin t t' s s') : (t.entry s).Related (t₀.Twin t t') (t'.entry s') := by
  have htwins : ∀ {shape shape' : Shape}, shape.Like shape' →
      (∀ p ∈ shape.symbols.zip shape'.symbols, t₀.Twin t t' p.1 p.2) →
      Forall₂ (t₀.Twin t t') shape.symbols shape'.symbols :=
    fun hlike heach => forall₂_iff_zip.mpr ⟨hlike.length_eq, fun hp => heach _ hp⟩
  induction htwin with
  | old hs =>
    rw [h.grows.entry _ hs, h'.grows.entry _ hs]
    exact Symbol.related_self fun r hr => .old (hclosed.references _ hs r hr)
  | @built shape shape' s s' hs hs' hlike heach ih =>
    have herected := h.erected _ _ hs
    have herected' := h'.erected _ _ hs'
    rw [herected.entry, herected'.entry]
    refine (hlike.head (htwins hlike heach) ih).withMembers ?_
    -- the members are numbered differently, but there are as many, one for each place
    have hlength : (t.entry s).members.length = (t'.entry s').members.length := by
      have hleft := congrArg length herected.members
      have hright := congrArg length herected'.members
      rw [length_map, length_map] at hleft hright
      rw [hleft, hright, (hlike.members (htwins hlike heach)).length_eq]
    refine forall₂_iff_get.mpr ⟨hlength, fun i hi hi' => ?_⟩
    exact .member hs hs' hlike heach (getElem?_eq_getElem hi) (getElem?_eq_getElem hi')
  | @member shape shape' s s' m m' i hs hs' hlike heach hm hm' ih =>
    obtain ⟨x, hx, hentry⟩ := (h.erected _ _ hs).entry_member hm
    obtain ⟨y, hy, hentry'⟩ := (h'.erected _ _ hs').entry_member hm'
    have hxy := getElem?_related (hlike.members (htwins hlike heach)) i
    rw [hx, hy, Option.rel_some_some] at hxy
    -- where a member lies depends on who asked for the type first
    refine .of_unplaced ?_
    rw [hentry, hentry']
    exact hxy.inside (.built hs hs' hlike heach)

end SymbolTable

/-! ## Branches of a compilation -/

namespace Compilation

/-- A compilation without loose ends that reveals everything. -/
structure Stem (c₀ : Compilation) : Prop where
  closed : c₀.Closed
  grounded : c₀.table.Grounded
  hiddenContainers : c₀.hiddenContainers = []
  hiddenTypes : c₀.hiddenTypes = []

theorem Made.stem {c₀ : Compilation} (h : c₀.Made fun t r => r.Issued t) : c₀.Stem := by
  obtain ⟨-, hplain⟩ := h.table (fun _ _ hr => hr) (P := fun _ => True) trivial fun _ _ _ _ =>
    trivial
  exact ⟨h.closed, h.grounded, hplain.hiddenContainers, hplain.hiddenTypes⟩

/-- A later state of a compilation, in which what is new goes back to shapes. -/
structure Descends (c₀ c : Compilation) : Prop where
  grows : c₀.Grows c
  closed : c.Closed
  traces : c₀.table.Traces c.table

theorem Leads.descends {c₀ c : Compilation} (hleads : c₀.Leads c) (hclosed : c.Closed) :
    c₀.Descends c :=
  ⟨hleads.grows, hclosed, hleads.traces⟩

theorem Descends.containerAt_eq {c₀ c : Compilation} (h : c₀.Descends c) (hstem : c₀.Stem)
    (s : SymbolId) : c.containerAt s = (c.entry s).container := by
  have hhidden : c.hiddenContainers = [] := h.grows.hiddenContainers.trans hstem.hiddenContainers
  simp [containerAt, hhidden]

theorem Descends.typeAt_eq {c₀ c : Compilation} (h : c₀.Descends c) (hstem : c₀.Stem)
    (s : SymbolId) : c.typeAt s = (c.entry s).type.getD c.universal := by
  have hhidden : c.hiddenTypes = [] := h.grows.hiddenTypes.trans hstem.hiddenTypes
  simp [typeAt, hhidden]

/-- Two later states of one compilation. -/
structure Branches (c₀ c c' : Compilation) : Prop where
  stem : c₀.Stem
  left : c₀.Descends c
  right : c₀.Descends c'

/-- The symbols correspond in two later states of a compilation. -/
abbrev Twin (c₀ c c' : Compilation) : SymbolId → SymbolId → Prop := c₀.table.Twin c.table c'.table

namespace Branches

variable {c₀ c c' d d' : Compilation} (h : c₀.Branches c c') {s s' : SymbolId}
include h

theorem unique : BiUnique (c₀.Twin c c') := SymbolTable.twin_biUnique h.left.traces h.right.traces

theorem later (hgrows : c.Grows d) (hgrows' : c'.Grows d') (hs : c₀.Twin c c' s s') :
    c₀.Twin d d' s s' :=
  hs.later h.left.traces h.right.traces hgrows.table hgrows'.table

theorem twin_global : c₀.Twin c c' c.global c'.global := by
  rw [h.left.grows.global, h.right.grows.global]
  exact .old h.stem.closed.global

theorem twin_universal : c₀.Twin c c' c.universal c'.universal := by
  rw [h.left.grows.universal, h.right.grows.universal]
  exact .old h.stem.closed.universal

section Twins

variable (hs : c₀.Twin c c' s s')
include hs

theorem entry : (c.entry s).Related (c₀.Twin c c') (c'.entry s') :=
  SymbolTable.Twin.entry h.stem.closed.table h.left.traces h.right.traces hs

theorem containerAt : Option.Rel (c₀.Twin c c') (c.containerAt s) (c'.containerAt s') := by
  rw [h.left.containerAt_eq h.stem, h.right.containerAt_eq h.stem]
  exact (h.entry hs).container

theorem outerAt : c₀.Twin c c' (c.outerAt s) (c'.outerAt s') := by
  unfold Compilation.outerAt
  generalize c.containerAt s = owner, c'.containerAt s' = owner', h.containerAt hs = hrel
  cases hrel with
  | none => exact h.twin_global
  | some hm => exact hm

theorem typeAt : c₀.Twin c c' (c.typeAt s) (c'.typeAt s') := by
  rw [h.left.typeAt_eq h.stem, h.right.typeAt_eq h.stem]
  generalize (c.entry s).type = type, (c'.entry s').type = type', (h.entry hs).type = hrel
  cases hrel with
  | none => exact h.twin_universal
  | some ht => exact ht

theorem definitionAt : c₀.Twin c c' (c.definitionAt s) (c'.definitionAt s') := by
  unfold Compilation.definitionAt
  generalize (c.entry s).definition = definition, (c'.entry s').definition = definition',
    (h.entry hs).definition = hrel
  cases hrel with
  | none => exact hs
  | some hg => exact hg

theorem signatureAt : Forall₂ (c₀.Twin c c') (c.signatureAt s) (c'.signatureAt s') :=
  rel_map (fun _ _ hp => h.typeAt hp) (h.entry hs).parameters

theorem membersAt (kind : SymbolKind) :
    Forall₂ (c₀.Twin c c') (c.membersAt kind s) (c'.membersAt kind s') := by
  refine rel_filter (fun m m' hm => ?_) (h.entry hs).members
  show ((c.entry m).kind == kind) = true ↔ ((c'.entry m').kind == kind) = true
  rw [(h.entry hm).kind]

theorem localsAt (accepts : String → Bool) :
    Forall₂ (c₀.Twin c c') (c.localsAt accepts s) (c'.localsAt accepts s') := by
  refine rel_filter (fun m m' hm => ?_) (h.membersAt hs .localVariable)
  show accepts (c.entry m).name = true ↔ accepts (c'.entry m').name = true
  rw [(h.entry hm).name]

end Twins

/-- Twins resemble each other, but for the locations of the members of new types. -/
theorem resembles : c.Resembles (fun _ => .nowhere) (c₀.Twin c c') c' where
  unique := h.unique
  issued hs := hs.issued h.left.traces h.right.traces
  kind hs := (h.entry hs).kind
  name hs := (h.entry hs).name
  readOnly hs := (h.entry hs).readOnly
  rank hs := (h.entry hs).rank
  location _ := rfl
  container hs := h.containerAt hs
  outer hs := h.outerAt hs
  type hs := h.typeAt hs
  definition hs := h.definitionAt hs
  typeParameters hs := (h.entry hs).typeParameters
  typeArguments hs := (h.entry hs).typeArguments
  signature hs := h.signatureAt hs
  members hs _ := (h.entry hs).members
  localOrdinal hs _ := by
    rw [localOrdinalAt, localOrdinalAt, (h.entry hs).name]
    rw [idxOf?_related h.unique (h.localsAt (h.outerAt hs) _) hs]

/-! ## Lookups -/

variable (o : ResolveOptions) {owners owners' : List SymbolId}

theorem bearing {symbols symbols' : List SymbolId}
    (hsymbols : Forall₂ (c₀.Twin c c') symbols symbols') (name : String) :
    Forall₂ (c₀.Twin c c') (c.bearing o symbols name) (c'.bearing o symbols' name) := by
  refine rel_filter (fun r r' hr => ?_) hsymbols
  show o.namesMatch (c.entry r).name name = true ↔ o.namesMatch (c'.entry r').name name = true
  rw [(h.entry hr).name]

variable (howners : Forall₂ (c₀.Twin c c') owners owners')
include howners

theorem membersBearing (kind : SymbolKind) (name : String) : Forall₂ (c₀.Twin c c')
    (c.membersBearing o kind owners name) (c'.membersBearing o kind owners' name) :=
  h.bearing o (rel_flatMap howners fun _ _ hs => h.membersAt hs kind) name

theorem genericsBearing (kind : SymbolKind) (name : String) (arity : Nat) : Forall₂ (c₀.Twin c c')
    (c.genericsBearing o kind owners name arity)
      (c'.genericsBearing o kind owners' name arity) := by
  refine rel_filter (fun r r' hr => ?_) (h.membersBearing o howners kind name)
  show ((c.entry r).typeParameters.length == arity) = true ↔
    ((c'.entry r').typeParameters.length == arity) = true
  rw [(h.entry hr).typeParameters.length_eq]

theorem propertiesBearing (name : String) {types types' : List SymbolId}
    (htypes : Forall₂ (c₀.Twin c c') types types') : Forall₂ (c₀.Twin c c')
    (c.propertiesBearing o owners name types) (c'.propertiesBearing o owners' name types') := by
  refine rel_filter (fun r r' hr => ?_) (h.membersBearing o howners .property name)
  show (c.signatureAt r == types) = true ↔ (c'.signatureAt r' == types') = true
  rw [list_beq_related h.unique (h.signatureAt hr) htypes]

theorem parametersBearing (name : String) : Forall₂ (c₀.Twin c c')
    (c.parametersBearing o owners name) (c'.parametersBearing o owners' name) :=
  h.bearing o (rel_flatMap howners fun _ _ hs => (h.entry hs).parameters) name

theorem typeParametersBearing (name : String) : Forall₂ (c₀.Twin c c')
    (c.typeParametersBearing o owners name) (c'.typeParametersBearing o owners' name) :=
  h.bearing o (rel_flatMap howners fun _ _ hs => (h.entry hs).typeParameters) name

theorem localsBearing (name : String) (ordinal : Nat) : Forall₂ (c₀.Twin c c')
    (c.localsBearing o owners name ordinal) (c'.localsBearing o owners' name ordinal) :=
  rel_filterMap (fun s s' (hs : c₀.Twin c c' s s') =>
    getElem?_related (h.localsAt hs (o.namesMatch · name)) ordinal) howners

end Branches

end Compilation
end Moniker
