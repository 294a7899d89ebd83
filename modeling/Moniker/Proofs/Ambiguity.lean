import Mathlib.Logic.Relation
import Moniker.Proofs.Programs
import Moniker.Proofs.Recalling
import Moniker.Proofs.RoundTrip

/-!
# Ambiguous siblings

Siblings that cannot be told apart share their key, which resolves to all of them. What hangs off
them is looked up in all of them, so that nothing gets lost that way. An element of an array,
however, stands for one type only, and that is the first candidate for it. So a symbol is among the
candidates for its key exactly if each type in the arrays of its segment, and of those that it hangs
off, is the first candidate for what describes it (`Key.leads_back_iff`).

The proof is an induction over the description. What is found for the container and what the array
comes to decide whether a segment finds the symbol, and an array comes to the types in it wherever
it is read (`Description.DescribesEach.reads_iff`), so that the statement can look where the run
ends.
-/

namespace Moniker

namespace Compilation

variable {c : Compilation} {s : SymbolId}

/-- What the segment of a symbol hangs off: its container, or the type that it is built from. -/
def hostAt (c : Compilation) (s : SymbolId) : Option SymbolId :=
  match (c.entry s).kind with
  | .nameSpace => c.containerAt s
  | .namedType => some (c.outerAt (c.definitionAt s))
  | .arrayType | .pointerType => some (c.typeAt s)
  | .tupleType | .anonymousType => none
  | .typeParameter | .field | .property | .method | .parameter | .localVariable =>
      some (c.outerAt s)

/-- The types in the array of a symbol's segment. -/
def elementsAt (c : Compilation) (s : SymbolId) : List SymbolId :=
  match (c.entry s).kind with
  | .namedType | .tupleType | .anonymousType => c.partsAt s
  | .property | .method => c.signatureAt s
  | .nameSpace | .arrayType | .pointerType | .typeParameter | .field | .parameter
  | .localVariable => []

/-- The methods that the types in the array are described inside of. -/
def withinAt (c : Compilation) (s : SymbolId) : List SymbolId :=
  if (c.entry s).kind = .method then [s] else []

end Compilation

namespace Description

open Compilation

variable {c₁ c c' : Compilation} {o : ResolveOptions} {methods : List SymbolId} {s p : SymbolId}
  {d container : Description}

/-! ## Elements of arrays -/

/-- Inside the methods, the type is the first candidate for what describes it. -/
def Leads (o : ResolveOptions) (c₁ c : Compilation) (methods : List SymbolId) (t : SymbolId) :
    Prop :=
  ∃ d, Describes c₁ methods t d ∧ (finds o d methods c).head? = some t

/-- In the array of a symbol's segment, and in those of the segments that it hangs off, no type is
mistaken for another one. -/
def Unmistaken (o : ResolveOptions) (c₁ c : Compilation) (s : SymbolId) : Prop :=
  ∀ x, Relation.ReflTransGen (fun a b => c₁.hostAt a = some b) s x →
    ∀ t ∈ c₁.elementsAt x, Leads o c₁ c (c₁.withinAt x) t

theorem unmistaken_iff_of_host (hhost : c₁.hostAt s = some p) :
    Unmistaken o c₁ c s ↔
      (∀ t ∈ c₁.elementsAt s, Leads o c₁ c (c₁.withinAt s) t) ∧ Unmistaken o c₁ c p := by
  constructor
  · exact fun h => ⟨h s .refl, fun x hx => h x (.head hhost hx)⟩
  · rintro ⟨hs, hp⟩ x hx
    rcases hx.cases_head with rfl | ⟨p', hhost', hx⟩
    · exact hs
    · rw [hhost, Option.some.injEq] at hhost'
      exact hp x (hhost' ▸ hx)

theorem unmistaken_iff_of_none (hhost : c₁.hostAt s = none) :
    Unmistaken o c₁ c s ↔ ∀ t ∈ c₁.elementsAt s, Leads o c₁ c (c₁.withinAt s) t := by
  constructor
  · exact fun h => h s .refl
  · intro hs x hx
    rcases hx.cases_head with rfl | ⟨p', hhost', -⟩
    · exact hs
    · rw [hhost] at hhost'
      cases hhost'

variable {ts : List SymbolId} {ds : List Description}

/-- An array comes to the types that it was made for exactly if none of them is mistaken, and that
can be seen wherever the compilation has got to. -/
theorem DescribesEach.reads_iff (h : c₁.Orderly) (hc' : c₁.Descends c')
    (hmethods : ∀ m ∈ methods, c₁.Issued m) (hds : DescribesEach c₁ methods ts ds) :
    Reads o c₁ ds methods ts ↔ ∀ t ∈ ts, Leads o c₁ c' methods t := by
  have hsame : ∀ t ∈ ts, ∀ d, ((finds o d methods c₁).head? = some t ↔
      (finds o d methods c').head? = some t) := fun t ht d =>
    head?_finds_iff h.discerns.stem h.start hmethods hc' (hds.types t ht).issued
  constructor
  · intro hread t ht
    obtain ⟨d, hd⟩ := exists_mem_zip hds.length.symm ht
    exact ⟨d, hds.each _ hd, (hsame t ht d).mp (List.forall₂_zip hread.flip hd)⟩
  · intro hleads
    have hfirst : List.Forall₂ (fun t d => (finds o d methods c₁).head? = some t) ts ds := by
      refine List.forall₂_iff_zip.mpr ⟨hds.length.symm, fun {t d} hp => ?_⟩
      -- the description that leads to the type is the one in the array, for there is no other
      have ht := (List.of_mem_zip hp).1
      obtain ⟨d', hd', hhead⟩ := hleads t ht
      obtain rfl : d = d' := (hds.each _ hp).unique hd'
      exact (hsame t ht d).mpr hhead
    exact hfirst.flip

/-! ## Segments -/

/-- The symbol is found for its description exactly if no type in an array is mistaken. -/
def Returns (o : ResolveOptions) (c₁ c' : Compilation) (s : SymbolId) (d : Description) : Prop :=
  s ∈ finds o d [] c₁ ↔ Unmistaken o c₁ c' s

/-- A segment that finds the symbol in what it hangs off, if its array comes to the right types. -/
theorem Returns.hosted {fits : SymbolId → Prop} (ih : Returns o c₁ c' p container)
    (hhost : c₁.hostAt s = some p)
    (hfinds : s ∈ finds o d [] c₁ ↔ ∃ q ∈ finds o container [] c₁, fits q)
    (hfits : ∀ q, fits q ↔ q = p ∧ ∀ t ∈ c₁.elementsAt s, Leads o c₁ c' (c₁.withinAt s) t) :
    Returns o c₁ c' s d := by
  rw [Returns] at ih
  rw [Returns, hfinds, unmistaken_iff_of_host hhost, ← ih]
  simp only [hfits]
  constructor
  · rintro ⟨q, hq, rfl, hleads⟩
    exact ⟨hleads, hq⟩
  · rintro ⟨hleads, hq⟩
    exact ⟨p, hq, rfl, hleads⟩

section Rules

variable (h : c₁.Orderly) (h₁ : c₁.Lawful) (hs : c₁.Issued s)
include h h₁ hs

/-- A symbol that lies in its container is looked up there by its name. -/
theorem Returns.member {kind : SymbolKind} (more : Prop) (ih : Returns o c₁ c' p container)
    (hkind : (c₁.entry s).kind = kind) (hself : (c₁.entry s).definition = none)
    (hinside : c₁.containerAt s = some p) (hhost : c₁.hostAt s = some p)
    (hfinds : s ∈ finds o d [] c₁ ↔ ∃ q ∈ finds o container [] c₁, c₁.Holds kind q s ∧
      o.namesMatch (c₁.entry s).name (c₁.entry s).name = true ∧ more)
    (hmore : more ↔ ∀ t ∈ c₁.elementsAt s, Leads o c₁ c' (c₁.withinAt s) t) :
    Returns o c₁ c' s d := by
  refine ih.hosted hhost hfinds fun q => ?_
  rw [h.containerAt_eq] at hinside
  have hp : c₁.Issued p := h₁.closed.table.container hs hinside
  constructor
  · rintro ⟨hholds, -, hm⟩
    exact ⟨Option.some.inj ((h.inside hholds).container.symm.trans hinside), hmore.mp hm⟩
  · rintro ⟨rfl, hleads⟩
    refine ⟨⟨hp, listed_of_belongings ?_ hkind⟩, o.namesMatch_self _, hmore.mpr hleads⟩
    exact (h₁.mem_belongings hp).mpr ⟨hs, hself, by rw [hkind], by rw [h.containerAt_eq, hinside]⟩

/-- A property or a method is found if its signature is read rightly. -/
theorem Returns.signature {kind : SymbolKind} (more : Prop) (hc' : c₁.Descends c')
    (ih : Returns o c₁ c' (c₁.outerAt s) container) (hkind : (c₁.entry s).kind = kind)
    (hsignature : kind = .property ∨ kind = .method)
    (hlength : ds.length = (c₁.signatureAt s).length)
    (hds : ∀ p ∈ (c₁.signatureAt s).zip ds, Describes c₁ (c₁.withinAt s) p.1 p.2)
    (hfinds : s ∈ finds o d [] c₁ ↔ ∃ q ∈ finds o container [] c₁, c₁.Holds kind q s ∧
      o.namesMatch (c₁.entry s).name (c₁.entry s).name = true ∧ more ∧
        Reads o c₁ ds (c₁.withinAt s) (c₁.signatureAt s))
    (hmore : more) : Returns o c₁ c' s d := by
  have hself := h₁.definition_eq_none hs hkind (by rcases hsignature with rfl | rfl <;> simp)
  obtain ⟨hinside, -⟩ := h₁.outer hs hkind hself (by rcases hsignature with rfl | rfl <;> simp)
    (by rcases hsignature with rfl | rfl <;> rfl)
  have hwithin : ∀ m ∈ c₁.withinAt s, c₁.Issued m := by
    intro m hm
    rw [withinAt] at hm
    split at hm
    · rwa [List.mem_singleton.mp hm]
    · cases hm
  have hreads := DescribesEach.reads_iff (o := o) h hc' hwithin
    ⟨hlength, fun t ht => h₁.isType_of_mem_signatureAt hs ht, hds⟩
  refine ih.member h h₁ hs _ hkind hself hinside ?_ hfinds ?_
  · rcases hsignature with rfl | rfl <;> rw [hostAt, hkind]
  · rw [hreads, show c₁.elementsAt s = c₁.signatureAt s by
      rcases hsignature with rfl | rfl <;> rw [elementsAt, hkind]]
    exact and_iff_right hmore

/-- A local is found in its place among those of its name. -/
theorem Returns.localVariable {owner : Description} (hcase : o.ignoreCase = false)
    (hkind : (c₁.entry s).kind = .localVariable) (ih : Returns o c₁ c' (c₁.outerAt s) owner) :
    Returns o c₁ c' s
      (.localVariable owner (.ok (c₁.entry s).name) (.ok (c₁.localOrdinalAt s))) := by
  have hself := h₁.definition_eq_none hs hkind (by simp)
  obtain ⟨hinside, hp, -⟩ := h₁.outer hs hkind hself (by simp) rfl
  have hmatch : (o.namesMatch · (c₁.entry s).name) = (· == (c₁.entry s).name) := by
    funext a
    rw [ResolveOptions.namesMatch, hcase]
    rfl
  refine ih.hosted (by rw [hostAt, hkind]) (mem_localVariable_iff h hs) fun q => ?_
  rw [elementsAt, hkind, hmatch]
  constructor
  · exact fun hfits => ⟨(h.outerAt_eq hfits.1).symm, by simp⟩
  · rintro ⟨rfl, -⟩
    refine ⟨⟨hp, listed_of_belongings ?_ hkind⟩, localsAt_localOrdinalAt h₁ hs hkind⟩
    exact (h₁.mem_belongings hp).mpr ⟨hs, hself, by rw [hkind], hinside⟩

/-! ### Built types -/

section Built

variable (hr : c₁.Rebuildable) {l : Label} (hlabel : c₁.labelAt s = some l)
include hr hlabel

omit h in
/-- The shape of a type with the label answers the type exactly if the parts are those of the
type. -/
theorem lookup_shape_iff {items : List SymbolId} (hlength : items.length = (c₁.partsAt s).length) :
    c₁.table.interned.lookup (l.shape items) = some s ↔ items = c₁.partsAt s := by
  constructor
  · exact fun hlookup => (h₁.label_of_lookup (admits_of_labelAt hlabel hlength) hlookup).2.symm
  · rintro rfl
    exact hr.lookup h₁ hs hlabel

omit h in
/-- A type that is rebuilt from each candidate for another one. -/
theorem Returns.rebuilt {t : SymbolId} (ih : Returns o c₁ c' t container)
    (hparts : c₁.partsAt s = [t]) (hhost : c₁.hostAt s = some t) (helements : c₁.elementsAt s = [])
    (hfinds : s ∈ finds o d [] c₁ ↔ ∃ q ∈ finds o container [] c₁,
      c₁.table.interned.lookup (l.shape [q]) = some s) : Returns o c₁ c' s d := by
  refine ih.hosted hhost hfinds fun q => ?_
  rw [lookup_shape_iff h₁ hs hr hlabel (by rw [hparts]; rfl), hparts, helements]
  simp

/-- A type that is asked for once, from what its array comes to. -/
theorem returns_asksFor {sites : List Location} {presence : Presence} {fallback : Fallback}
    (hc' : c₁.Descends c') (hasks : AsksFor d ds l.shape sites presence fallback)
    (hhost : c₁.hostAt s = none) (helements : c₁.elementsAt s = c₁.partsAt s)
    (hwithin : c₁.withinAt s = []) (hlength : ds.length = (c₁.partsAt s).length)
    (hds : ∀ p ∈ (c₁.partsAt s).zip ds, Describes c₁ [] p.1 p.2)
    (hsites : c₁.AcceptsAll sites)
    (hbuilt : ¬ Refused c₁ presence sites (l.shape (c₁.partsAt s))) :
    Returns o c₁ c' s d := by
  have hreads := DescribesEach.reads_iff (o := o) h hc' (issued_nil _)
    ⟨hlength, fun t ht => h₁.isType_of_mem_partsAt hs ht, hds⟩
  rw [Returns, hasks.mem_iff h hs, unmistaken_iff_of_none hhost, helements, hwithin, ← hreads]
  constructor
  · rintro ⟨-, ⟨-, -, hrefused, -⟩ | ⟨items, hread, -, hlookup⟩⟩
    · exact absurd (hrefused _ hlength.symm) hbuilt
    · have hcount := hread.length_eq.symm.trans hlength
      rwa [← (lookup_shape_iff h₁ hs hr hlabel hcount).mp hlookup]
  · exact fun hread => ⟨hsites, .inr ⟨_, hread, hbuilt,
      (lookup_shape_iff h₁ hs hr hlabel rfl).mpr rfl⟩⟩

end Built

variable (hr : c₁.Rebuildable)
include hr

theorem returns_tupleType (hc' : c₁.Descends c') (hkind : (c₁.entry s).kind = .tupleType)
    (hlength : ds.length = (c₁.memberTypesAt .field s).length)
    (hds : ∀ p ∈ (c₁.memberTypesAt .field s).zip ds, Describes c₁ [] p.1 p.2) :
    Returns o c₁ c' s (.tupleType (.ok (.ofLength (c₁.memberTypesAt .field s).length)) ds
      (.ofValues (c₁.elementNamesAt s)) (.ofValues (c₁.memberLocationsAt .field s))) := by
  have hparts := partsAt_tuple hkind
  have hasks := asksFor_tupleType (.ofLength (c₁.memberTypesAt .field s).length) ds
    (.ofValues (c₁.elementNamesAt s)) (.ofValues (c₁.memberLocationsAt .field s))
  simp only [Listing.values_ofValues] at hasks
  refine returns_asksFor h h₁ hs hr (labelAt_tuple hkind) hc' hasks
    (by rw [hostAt, hkind]) (by rw [elementsAt, hkind]) (by rw [withinAt, hkind]; rfl)
    (by rw [hparts, hlength]) (by rwa [hparts])
    (hr.accepts (.refl c₁) hs (by rw [hkind]; rfl) .field) ?_
  rw [hparts]
  simp [Refused, Presence.isAbsent_ofLength, Label.shape, Shape.check,
    hr.checkTuple h₁ hs hkind rfl]

theorem returns_anonymousType (hc' : c₁.Descends c') (hkind : (c₁.entry s).kind = .anonymousType)
    (hlength : ds.length = (c₁.memberTypesAt .property s).length)
    (hds : ∀ p ∈ (c₁.memberTypesAt .property s).zip ds, Describes c₁ [] p.1 p.2) :
    Returns o c₁ c' s (.anonymousType (.ok (.ofLength (c₁.memberTypesAt .property s).length)) ds
      (.ofValues ((c₁.propertyNamesAt s).map some)) (.ofValues (c₁.readOnlyAt s))
      (.ofValues (c₁.memberLocationsAt .property s))) := by
  have hparts := partsAt_anonymous hkind
  have hasks := asksFor_anonymousType (.ofLength (c₁.memberTypesAt .property s).length) ds
    (.ofValues ((c₁.propertyNamesAt s).map some)) (.ofValues (c₁.readOnlyAt s))
    (.ofValues (c₁.memberLocationsAt .property s))
  have hnames : ((c₁.propertyNamesAt s).map some).map (·.getD "") = c₁.propertyNamesAt s := by
    rw [List.map_map]
    exact List.map_id _
  simp only [Listing.values_ofValues, hnames] at hasks
  refine returns_asksFor h h₁ hs hr (labelAt_anonymous hkind) hc' hasks
    (by rw [hostAt, hkind]) (by rw [elementsAt, hkind]) (by rw [withinAt, hkind]; rfl)
    (by rw [hparts, hlength]) (by rwa [hparts])
    (hr.accepts (.refl c₁) hs (by rw [hkind]; rfl) .property) ?_
  rw [hparts]
  simp [Refused, Presence.isAbsent_ofLength, Label.shape, Shape.check,
    hr.checkAnonymous h₁ hs hkind (.refl c₁) rfl]

theorem Returns.constructed {g : SymbolId} (hc' : c₁.Descends c')
    (ih : Returns o c₁ c' (c₁.outerAt g) container) (hkind : (c₁.entry s).kind = .namedType)
    (hdefinition : c₁.definitionAt s = g) (hne : g ≠ s)
    (hlength : ds.length = (c₁.entry s).typeArguments.length)
    (hds : ∀ p ∈ (c₁.entry s).typeArguments.zip ds, Describes c₁ [] p.1 p.2) :
    Returns o c₁ c' s (.namedType container (.ok (c₁.entry g).name)
      (.ok (c₁.entry g).typeParameters.length) (.ok (.ofLength (c₁.entry s).typeArguments.length))
      ds) := by
  have hdefined := definition_of_definitionAt hdefinition hne
  have hparts := partsAt_constructed hkind hdefined
  have hlabel := labelAt_constructed hkind hdefined
  obtain ⟨hg, -, harity, hpositive⟩ := h₁.constructed_from hs hdefinition hne
  obtain ⟨hinside, hp, -⟩ := h₁.outer hg.issued hg.kind hg.definition (by simp) rfl
  have hreads := DescribesEach.reads_iff (o := o) h hc' (issued_nil _)
    (show DescribesEach c₁ [] (c₁.partsAt s) ds from
      ⟨by rw [hparts, hlength], fun t ht => h₁.isType_of_mem_partsAt hs ht, by rwa [hparts]⟩)
  refine ih.hosted (by rw [hostAt, hkind, hdefinition])
    (mem_constructed_iff h hs (Presence.isAbsent_ofLength _)) fun q => ?_
  rw [show c₁.elementsAt s = c₁.partsAt s by rw [elementsAt, hkind],
    show c₁.withinAt s = [] by rw [withinAt, hkind]; rfl, ← hreads]
  constructor
  · rintro ⟨g', items, hholds, -, -, hread, -, hlookup⟩
    -- `s` is constructed from one definition and with one list of arguments
    obtain ⟨hlabel', hparts'⟩ := h₁.label_of_lookup (l := .constructed g') trivial hlookup
    obtain rfl : g = g' := by simpa using hlabel.symm.trans hlabel'
    exact ⟨(h.outerAt_eq hholds).symm, hparts' ▸ hread⟩
  · rintro ⟨rfl, hread⟩
    refine ⟨g, _, ⟨hp, listed_of_belongings ?_ hg.kind⟩, o.namesMatch_self _, rfl, hread, ?_,
      (lookup_shape_iff h₁ hs hr hlabel rfl).mpr rfl⟩
    · exact (h₁.mem_belongings hp).mpr ⟨hg.issued, hg.definition, by rw [hg.kind], hinside⟩
    · exact SymbolTable.checkArguments_ok hg.kind hg.definition
        (fun hnil => hpositive (by rw [hnil]; rfl)) (by rw [hparts]; exact harity)

end Rules

/-- A symbol is found for its description exactly if no type in an array is mistaken. -/
theorem Describes.returns {around : List SymbolId} (h : c₁.Orderly) (h₁ : c₁.Lawful)
    (hr : c₁.Rebuildable) (hc' : c₁.Descends c') (hcase : o.ignoreCase = false)
    (hd : Describes c₁ around s d) (hs : c₁.Issued s) (haround : around = []) :
    Returns o c₁ c' s d := by
  -- symbols that are looked up by their names only, and whose segments have no arrays
  have hplain : ∀ {s p d container kind}, c₁.Issued s → Returns o c₁ c' p container →
      (c₁.entry s).kind = kind → (c₁.entry s).definition = none → c₁.containerAt s = some p →
      c₁.hostAt s = some p → c₁.elementsAt s = [] →
      (s ∈ finds o d [] c₁ ↔ ∃ q ∈ finds o container [] c₁, c₁.Holds kind q s ∧
        o.namesMatch (c₁.entry s).name (c₁.entry s).name = true) → Returns o c₁ c' s d :=
    fun hs ih hkind hself hinside hhost helements hfinds =>
      ih.member h h₁ hs True hkind hself hinside hhost (by simpa using hfinds)
        (by simp [helements])
  induction hd with
  | @global around s hkind houter =>
      rw [Returns, finds_global, unmistaken_iff_of_none (by rw [hostAt, hkind, houter]),
        show c₁.elementsAt s = [] by rw [elementsAt, hkind]]
      simp [h₁.eq_global hs hkind houter]
  | @nameSpace around s p container hkind houter hcontainer ih =>
      subst haround
      have hp : c₁.Issued p := h₁.table.closed.container hs (by rw [← h₁.containerAt_eq, houter])
      exact hplain hs (ih hp rfl) hkind (h₁.definition_eq_none hs hkind (by simp)) houter
        (by rw [hostAt, hkind, houter]) (by rw [elementsAt, hkind]) (mem_nameSpace_iff h hs)
  | @definition around s container hkind hself hcontainer ih =>
      subst haround
      have hnone := h₁.definition_of_self hs hself
      obtain ⟨hinside, hp, -⟩ := h₁.outer hs hkind hnone (by simp) rfl
      have helements : c₁.elementsAt s = [] := by
        rw [elementsAt, hkind]
        exact partsAt_declared (.inr ⟨hs, hkind, hnone⟩)
      exact (ih hp rfl).member h h₁ hs _ hkind hnone hinside (by rw [hostAt, hkind, hself])
        (mem_definition_iff h hs) (by simp [helements])
  | constructed hkind hdefinition hne hcontainer hlength harguments ih =>
      subst haround
      obtain ⟨hg, -⟩ := h₁.constructed_from hs hdefinition hne
      obtain ⟨-, hp, -⟩ := h₁.outer hg.issued hg.kind hg.definition (by simp) rfl
      exact (ih hp rfl).constructed h h₁ hs hr hc' hkind hdefinition hne hlength harguments
  | @arrayType around s element hkind helement ih =>
      subst haround
      have htype := h₁.isType_of_mem_partsAt hs (partsAt_array hkind ▸ List.mem_singleton.mpr rfl)
      refine (ih htype.issued rfl).rebuilt h₁ hs hr (labelAt_array hkind) (partsAt_array hkind)
        (by rw [hostAt, hkind]) (by rw [elementsAt, hkind]) ?_
      rw [mem_arrayType_iff h hs, hr.rank_eq hs]
      rfl
  | pointerType hkind hpointee ih =>
      subst haround
      have htype := h₁.isType_of_mem_partsAt hs (partsAt_pointer hkind ▸ List.mem_singleton.mpr rfl)
      exact (ih htype.issued rfl).rebuilt h₁ hs hr (labelAt_pointer hkind) (partsAt_pointer hkind)
        (by rw [hostAt, hkind]) (by rw [elementsAt, hkind]) (mem_pointerType_iff h hs)
  | tupleType hkind hlength htypes =>
      subst haround
      exact returns_tupleType h h₁ hs hr hc' hkind hlength htypes
  | anonymousType hkind hlength htypes =>
      subst haround
      exact returns_anonymousType h h₁ hs hr hc' hkind hlength htypes
  | typeParameter hkind _ howner ih =>
      subst haround
      have hself := h₁.definition_eq_none hs hkind (by simp)
      obtain ⟨hinside, hp, -⟩ := h₁.outer hs hkind hself (by simp) rfl
      exact hplain hs (ih hp rfl) hkind hself hinside (by rw [hostAt, hkind])
        (by rw [elementsAt, hkind]) (mem_typeParameter_iff h hs)
  | typeParameterOrdinal _ hm =>
      -- outside of methods no type parameter is counted
      subst haround
      cases hm
  | field hkind hcontainer ih =>
      subst haround
      have hself := h₁.definition_eq_none hs hkind (by simp)
      obtain ⟨hinside, hp, -⟩ := h₁.outer hs hkind hself (by simp) rfl
      exact hplain hs (ih hp rfl) hkind hself hinside (by rw [hostAt, hkind])
        (by rw [elementsAt, hkind]) (mem_field_iff h hs)
  | @property around s container parameters hkind hcontainer hlength hparameters ih =>
      subst haround
      have hwithin : c₁.withinAt s = [] := by rw [withinAt, hkind]; rfl
      obtain ⟨-, hp, -⟩ := h₁.outer hs hkind (h₁.definition_eq_none hs hkind (by simp))
        (by simp) rfl
      exact (ih hp rfl).signature h h₁ hs True hc' hkind (.inl rfl) hlength
        (by rwa [hwithin]) (by simpa [hwithin] using mem_property_iff h hs) trivial
  | @method around s container parameters hkind hcontainer hlength hparameters ih =>
      subst haround
      have hwithin : c₁.withinAt s = [s] := by rw [withinAt, if_pos hkind]
      obtain ⟨-, hp, -⟩ := h₁.outer hs hkind (h₁.definition_eq_none hs hkind (by simp))
        (by simp) rfl
      exact (ih hp rfl).signature h h₁ hs _ hc' hkind (.inr rfl) hlength (by rwa [hwithin])
        (by rw [hwithin]; exact mem_method_iff h hs) rfl
  | parameter hkind howner ih =>
      subst haround
      have hself := h₁.definition_eq_none hs hkind (by simp)
      obtain ⟨hinside, hp, -⟩ := h₁.outer hs hkind hself (by simp) rfl
      exact hplain hs (ih hp rfl) hkind hself hinside (by rw [hostAt, hkind])
        (by rw [elementsAt, hkind]) (mem_parameter_iff h hs)
  | localVariable hkind howner ih =>
      subst haround
      obtain ⟨-, hp, -⟩ := h₁.outer hs hkind (h₁.definition_eq_none hs hkind (by simp))
        (by simp) rfl
      exact (ih hp rfl).localVariable h h₁ hs hcase hkind

end Description

/-! ## Keys -/

theorem Draft.rebuildable_rivals : (rivals "A").finish.Rebuildable where
  named types names s h := by
    have hnone : (rivals "A").finish.table.interned = [] := by decide
    rw [hnone] at h
    cases h
  ranked s hs := by
    have hranks : ∀ i < 15, ((rivals "A").finish.entry ⟨i⟩).rank.toNat ≤ Frame.maxCount := by
      decide
    exact hranks s.index hs
  located s hs hkind := by
    have hkinds : ∀ i < 15, ((rivals "A").finish.entry ⟨i⟩).kind.isStructural = false := by
      decide
    rw [hkinds s.index hs] at hkind
    cases hkind
  capped s hs hkind n hn := by
    have hnone : (rivals "A").finish.table.maxAnonymousArity = none := by decide
    rw [hnone] at hn
    cases hn

namespace Key

variable {c : Compilation} {s : SymbolId}

/-- Every symbol of a program has a key, and however many siblings share it, the symbol is among the
candidates for it, unless one of the types in the arrays of the key is mistaken for another type,
and only then it is not. -/
theorem leads_back_iff (hmade : c.Made Request.Contained) (hsize : c.size < UInt32.size)
    (hr : c.Rebuildable) (hs : c.Issued s) :
    ∃ k depth, ofSymbol c s = .ok k ∧ depth < UInt64.size ∧
      (∀ n, Grammar.Derives n k.frames ↔ depth ≤ n) ∧
      ∀ (o : ResolveOptions) (scene : Scene), scene.compilation = c → o.ignoreCase = false →
        o.cancelled = false → depth ≤ o.maxDepth.toNat →
        ((∃ r, (k.resolve o scene).1 = .ok (.ok r) ∧ s ∈ r.candidates) ↔
          Description.Unmistaken o c (k.resolve o scene).2.compilation s) := by
  have h := hmade.lawful
  obtain ⟨d, k, -, hdescribes, hk, ⟨n, hn, hderives⟩, hresolve⟩ := resolve_ofSymbol h hs hsize
  obtain ⟨depth, hdepth⟩ := hderives.exists_depth
  refine ⟨k, depth, hk, Nat.lt_of_le_of_lt ((hdepth n).mp hderives) hn, hdepth, ?_⟩
  intro o scene hscene hcase hlive hle
  obtain ⟨houtcome, hafter⟩ :=
    hresolve o scene (hscene ▸ h.closed) (.inr ⟨hlive, (hdepth _).mpr hle⟩)
  rw [hscene] at houtcome hafter
  have horderly := Compilation.Made.orderly (hmade.mono fun _ _ hr => hr.issued)
  have hlater := Description.descends_after horderly.discerns.stem horderly.start
    (Description.issued_nil c) o d.clipped
  have hreturns := hdescribes.returns horderly h hr hlater hcase hs rfl
  rw [Description.Returns] at hreturns
  rw [houtcome, hafter, ← hreturns, Description.finds, Decode.mem_candidates]
  simp only [Except.ok.injEq]

/-- Two classes `A` share a key, and the second one is among the candidates for it. -/
theorem leads_back_rival :
    ∃ k r, ofSymbol (Draft.rivals "A").finish ⟨6⟩ = .ok k ∧
      (k.resolve {} { compilation := (Draft.rivals "A").finish }).1 = .ok (.ok r) ∧
      ⟨6⟩ ∈ r.candidates ∧ r = .ambiguous [⟨5⟩, ⟨6⟩] := by
  obtain ⟨k, depth, hk, -, hdepth, hresolve⟩ := leads_back_iff
    (.finish (Draft.made_rivals (by simp))) (by decide) Draft.rebuildable_rivals
    (show (Draft.rivals "A").finish.Issued ⟨6⟩ by decide)
  have hkey : ofSymbol (Draft.rivals "A").finish ⟨6⟩ = .ok (ofFrames [.kind .namedType,
      .kind .nameSpace, .bool true, .text (some "A"), .int 0, .array .absent 0]) := by decide
  obtain rfl := Except.ok.inj (hk.symm.trans hkey)
  have hle : depth ≤ ({} : ResolveOptions).maxDepth.toNat :=
    (hdepth _).mp ((defect?_eq_none_iff rfl).mp (by decide))
  -- neither the class nor the global namespace has an array
  have hhosts : (Draft.rivals "A").finish.hostAt ⟨6⟩ = some ⟨0⟩ ∧
      (Draft.rivals "A").finish.hostAt ⟨0⟩ = none ∧
      (Draft.rivals "A").finish.elementsAt ⟨6⟩ = [] ∧
      (Draft.rivals "A").finish.elementsAt ⟨0⟩ = [] := by decide
  obtain ⟨r, hr, hmem⟩ :=
    (hresolve {} { compilation := (Draft.rivals "A").finish } rfl rfl rfl hle).mpr
    (by
      rw [Description.unmistaken_iff_of_host hhosts.1,
        Description.unmistaken_iff_of_none hhosts.2.1, hhosts.2.2.1, hhosts.2.2.2]
      simp)
  refine ⟨_, r, hk, hr, hmem, ?_⟩
  have hboth : ((ofFrames [.kind .namedType, .kind .nameSpace, .bool true, .text (some "A"), .int 0,
      .array .absent 0]).resolve {} { compilation := (Draft.rivals "A").finish }).1 =
      .ok (.ok (.ambiguous [⟨5⟩, ⟨6⟩])) := by decide
  exact Except.ok.inj (Except.ok.inj (hr.symm.trans hboth))

/-- The property `P` that takes the second class `A` is lost: its parameter is taken for the
first. -/
theorem ambiguity_loses :
    (Draft.rivals "A").finish.Made Request.Contained ∧ (Draft.rivals "A").finish.Rebuildable ∧
      (Draft.rivals "A").finish.Issued ⟨8⟩ ∧
      ofSymbol (Draft.rivals "A").finish ⟨8⟩ = .ok Draft.rivalKey ∧
      (Draft.rivalKey.resolve {} { compilation := (Draft.rivals "A").finish }).1 =
        .ok (.error (.notFound "PropertySymbolKey" "P")) :=
  ⟨.finish (Draft.made_rivals (by simp)), Draft.rebuildable_rivals, by decide, by decide,
    by decide⟩

end Key
end Moniker
