import Mathlib.Tactic.IntervalCases
import Moniker.Proofs.Capping
import Moniker.Proofs.Keys
import Moniker.Proofs.Scoping

/-!
# Resolving finds nothing that the key does not describe

Case-sensitive lookups compare what descriptions record, and structural types are rebuilt from the
parts that were found, so each candidate for a description is described by it again, but for the
locations of members, which are no part of a shape, and for the anonymous types that a cap rejects,
in whose place the root type is found (`Description.Describes.fitsCapped`). Without a cap, seen from
outside, the key of a candidate is the key that was resolved (`Key.candidates_sound`).
-/

namespace Moniker

theorem ResolveOptions.namesMatch_iff {o : ResolveOptions} (hcase : o.ignoreCase = false)
    {a b : String} : o.namesMatch a b = true ↔ a = b := by
  simp [namesMatch, hcase]

/-- A clipped number fits a machine word. -/
theorem Frame.toNat_ofNat_min (n : Nat) :
    (UInt64.ofNat (min n maxCount)).toNat = min n maxCount := by
  have hle : min n maxCount ≤ maxCount := Nat.min_le_right _ _
  have hmax : maxCount < UInt64.size := by decide
  exact UInt64.toNat_ofNat_of_lt' (by omega)

/-- A clipped number is not clipped again. -/
theorem Frame.min_ofNat_min (n : Nat) :
    min (UInt64.ofNat (min n maxCount)).toNat maxCount = min n maxCount := by
  rw [toNat_ofNat_min, Nat.min_assoc, Nat.min_self]

/-- In a list without repetitions an entry stands at one place only. -/
theorem getD_idxOf? {symbols : List SymbolId} {s : SymbolId} {i : Nat} (hnodup : symbols.Nodup)
    (hs : symbols[i]? = some s) : (symbols.idxOf? s).getD 0 = i := by
  obtain ⟨hi, rfl⟩ := List.getElem?_eq_some_iff.mp hs
  have hplace : symbols.idxOf? symbols[i] = some i := by
    refine List.idxOf?_eq_some_iff.mpr ⟨hi, rfl, fun j hj heq => ?_⟩
    have hij := (hnodup.getElem_inj_iff).mp heq
    omega
  rw [hplace]
  rfl

/-- Entries without their contents differ in nothing but their number. -/
theorem Listing.erased_ofValues {l l' : List Location} (hlength : l.length = l'.length) :
    (Listing.ofValues l).map (fun _ => Location.nowhere) =
      (Listing.ofValues l').map fun _ => .nowhere := by
  have herased : ∀ l : List Location,
      (Listing.ofValues l).map (fun _ => Location.nowhere) =
        ⟨.ok (.ofLength l.length), List.replicate l.length (.ok .nowhere)⟩ := by
    intro l
    simp only [ofValues, full, map, List.map_map]
    congr 1
    exact List.map_const'
  rw [herased, herased, hlength]

namespace Description

open Compilation

variable {c c' c₁ : Compilation} {o : ResolveOptions} {around methods : List SymbolId}
  {s : SymbolId} {d : Description}

/-- The description describes the symbol up to the contents of locations. -/
def Fits (c : Compilation) (methods : List SymbolId) (s : SymbolId) (d : Description) : Prop :=
  ∃ d', Describes c methods s d' ∧ d'.withoutLocations = d.withoutLocations

theorem Fits.grows (h : Fits c methods s d) (hgrows : c.Grows c') (hclosed : c.Closed)
    (hs : c.Issued s) : Fits c' methods s d := by
  obtain ⟨d', hd', heq⟩ := h
  exact ⟨d', hd'.grows hgrows hclosed hs, heq⟩

/-- A symbol that fits what a cap leaves of a description is of the kind of the symbol that was
described, or a named type in the place of an anonymous one. -/
theorem Fits.kind {s₁ : SymbolId} {cap : Option Nat} (h : Fits c methods s (d.capped cap))
    (hd : Describes c₁ around s₁ d) :
    (c.entry s).kind = (c₁.entry s₁).kind ∨ (c.entry s).kind = .namedType := by
  obtain ⟨d', hd', heq⟩ := h
  have hcategory := congrArg category? heq
  rw [withoutLocations, withoutLocations, category?_mapLeaves, category?_mapLeaves] at hcategory
  have hkind := hd'.kind
  rw [hcategory] at hkind
  rcases @category?_capped cap d with hsame | hnamed
  · rw [hsame, hd.kind] at hkind
    exact .inl (Option.some.inj hkind).symm
  · rw [hnamed] at hkind
    exact .inr (Option.some.inj hkind).symm

/-! Structural types that are rebuilt from fitted parts are fitted. -/

section Embodied

variable {t : SymbolId} (h : c.Lawful)
include h

theorem Fits.array {element : Description} {n : Nat}
    (hembodies : c.table.Embodies s (.array t (UInt64.ofNat (min n Frame.maxCount))))
    (ht : Fits c methods t element) :
    Fits c methods s (.arrayType element (.ok (min n Frame.maxCount))) := by
  obtain ⟨d', hd', heq⟩ := ht
  have hrank : (c.entry s).rank = UInt64.ofNat (min n Frame.maxCount) := hembodies.2.2.1
  refine ⟨_, .arrayType hembodies.1 (by rw [h.typeAt_array hembodies]; exact hd'), ?_⟩
  simp only [withoutLocations, mapLeaves] at heq ⊢
  rw [heq, hrank, Frame.min_ofNat_min]

theorem Fits.pointer {pointee : Description} (hembodies : c.table.Embodies s (.pointer t))
    (ht : Fits c methods t pointee) : Fits c methods s (.pointerType pointee) := by
  obtain ⟨d', hd', heq⟩ := ht
  refine ⟨_, .pointerType hembodies.1 (by rw [h.typeAt_pointer hembodies]; exact hd'), ?_⟩
  simp only [withoutLocations, mapLeaves] at heq ⊢
  rw [heq]

/-- The descriptions fit the symbols one by one. -/
def FitsEach (c : Compilation) (methods items : List SymbolId) (ds : List Description) : Prop :=
  ∃ ds', ds'.length = items.length ∧ (∀ p ∈ items.zip ds', Describes c methods p.1 p.2) ∧
    ds'.map withoutLocations = ds.map withoutLocations

variable {items : List SymbolId} {ds : List Description} {locations : List Location}

theorem Fits.tuple {names : List (Option String)}
    (hembodies : c.table.Embodies s (.tuple items names))
    (hnames : names.map (fun name => if (name.getD "").isEmpty then none else some (name.getD "")) =
      names) (hlocations : locations.length = items.length) (heach : FitsEach c methods items ds) :
    Fits c methods s (.tupleType (.ok (.ofLength items.length)) ds (.ofValues names)
      (.ofValues locations)) := by
  obtain ⟨ds', hlength, heach, hmap⟩ := heach
  have htypes := h.memberTypesAt_tuple hembodies
  refine ⟨_, .tupleType hembodies.1 (by rw [htypes]; exact hlength) (by rw [htypes]; exact heach),
    ?_⟩
  have hcount : (c.memberLocationsAt .field s).length = locations.length := by
    rw [length_memberLocationsAt, htypes, hlocations]
  have hmap : ds'.map (mapLeaves id fun _ => .nowhere) = ds.map (mapLeaves id fun _ => .nowhere) :=
    hmap
  simp only [withoutLocations, mapLeaves, mapLeavesEach_eq]
  rw [hmap, htypes, elementNamesAt_tuple hembodies, hnames, Listing.erased_ofValues hcount]

theorem Fits.anonymous {names : List String} {readOnly : List Bool}
    (hembodies : c.table.Embodies s (.anonymous items names readOnly))
    (hlocations : locations.length = items.length) (heach : FitsEach c methods items ds) :
    Fits c methods s (.anonymousType (.ok (.ofLength items.length)) ds (.ofValues (names.map some))
      (.ofValues readOnly) (.ofValues locations)) := by
  obtain ⟨ds', hlength, heach, hmap⟩ := heach
  have htypes := h.memberTypesAt_anonymous hembodies
  refine ⟨_, .anonymousType hembodies.1 (by rw [htypes]; exact hlength)
    (by rw [htypes]; exact heach), ?_⟩
  have hcount : (c.memberLocationsAt .property s).length = locations.length := by
    rw [length_memberLocationsAt, htypes, hlocations]
  have hmap : ds'.map (mapLeaves id fun _ => .nowhere) = ds.map (mapLeaves id fun _ => .nowhere) :=
    hmap
  simp only [withoutLocations, mapLeaves, mapLeavesEach_eq]
  rw [hmap, htypes, propertyNamesAt_anonymous hembodies, readOnlyAt_anonymous hembodies,
    Listing.erased_ofValues hcount]

omit h in
theorem Fits.constructed {container : Description} {g : SymbolId}
    (hembodies : c.table.Embodies s (.constructed g items))
    (hlies : Fits c methods (c.outerAt g) container) (heach : FitsEach c methods items ds) :
    Fits c methods s (.namedType container (.ok (c.entry g).name)
      (.ok (c.entry g).typeParameters.length) (.ok (.ofLength items.length)) ds) := by
  obtain ⟨d', hd', heq⟩ := hlies
  obtain ⟨ds', hlength, heach, hmap⟩ := heach
  obtain ⟨hkind, hdefinition, harguments, hearlier, -⟩ := hembodies
  have harguments : (c.entry s).typeArguments = items := harguments
  have hself : c.definitionAt s = g := by
    rw [definitionAt, show (c.entry s).definition = some g from hdefinition]
    rfl
  have hne : g ≠ s := fun heq => absurd hearlier.lt (by rw [heq]; exact Nat.lt_irrefl _)
  refine ⟨_, .constructed hkind hself hne hd' (by rw [harguments]; exact hlength)
    (by rw [harguments]; exact heach), ?_⟩
  have hmap : ds'.map (mapLeaves id fun _ => .nowhere) = ds.map (mapLeaves id fun _ => .nowhere) :=
    hmap
  simp only [withoutLocations, mapLeaves, mapLeavesEach_eq] at heq ⊢
  rw [heq, hmap, harguments]

end Embodied

/-- Where elements are fitted one by one, the array is. -/
theorem fitsEach {ts items : List SymbolId} {ds : List Description}
    (hlength : ds.length = ts.length)
    (h : List.Forall₂ (fun p a => Fits c methods a p.2) (ts.zip ds) items) :
    FitsEach c methods items ds := by
  have hds : List.Forall₂ (fun d a => Fits c methods a d) ds items := by
    rw [← List.map_snd_zip (Nat.le_of_eq hlength)]
    exact List.forall₂_map_left_iff.mpr h
  clear h hlength
  induction hds with
  | nil => exact ⟨[], rfl, by simp, rfl⟩
  | cons hhead _ ih =>
      obtain ⟨d', hd', heq⟩ := hhead
      obtain ⟨ds', hlength, heach, hmap⟩ := ih
      refine ⟨d' :: ds', by simp [hlength], fun p hp => ?_, by simp [heq, hmap]⟩
      rcases List.mem_cons.mp hp with rfl | hp
      · exact hd'
      · exact heach p hp

theorem FitsEach.grows {items : List SymbolId} {ds : List Description}
    (h : FitsEach c methods items ds) (hgrows : c.Grows c') (hclosed : c.Closed)
    (hitems : ∀ a ∈ items, c.table.IsType a) : FitsEach c' methods items ds := by
  obtain ⟨ds', hlength, heach, hmap⟩ := h
  refine ⟨ds', hlength, fun p hp => ?_, hmap⟩
  exact (heach p hp).grows hgrows hclosed (hitems p.1 (List.of_mem_zip hp).1).issued

/-- Wherever the description of a symbol is tried, everything found fits what the cap leaves of
it. -/
def FitsCapped (o : ResolveOptions) (c₁ : Compilation) (around : List SymbolId) (s : SymbolId)
    (d : Description) : Prop :=
  ∀ (methods : List SymbolId) (c : Compilation), Within c₁ c around methods s → c.Lawful →
    c.FallsBack → ∀ a ∈ finds o d methods c,
      Fits (after o d methods c) methods a (d.capped c.table.maxAnonymousArity)

/-- What is found inside a container that is fitted lies in one that is described alike, and bears
the name. -/
theorem FitsCapped.lies {p a : SymbolId} {container : Description} {kind : SymbolKind}
    {name : String} (hfits : FitsCapped o c₁ around p container) (hcase : o.ignoreCase = false)
    (hwithin : Within c₁ c around methods p) (h : c.Lawful) (hback : c.FallsBack)
    (hlawful : (after o container methods c).Lawful)
    (hissued : ∀ p ∈ finds o container methods c, (after o container methods c).Issued p)
    (hgrows : (after o container methods c).Grows c')
    (ha : c'.Child o (finds o container methods c) kind name a) :
    Fits c' methods (c'.outerAt a) (container.capped c.table.maxAnonymousArity) ∧
      (c'.entry a).name = name := by
  refine ⟨?_, (ResolveOptions.namesMatch_iff hcase).mp ha.named⟩
  obtain ⟨p', hp', hcontainer'⟩ := ha.inside
  have houter : c'.outerAt a = p' := by
    rw [outerAt, hcontainer']
    rfl
  rw [houter]
  exact (hfits methods c hwithin h hback p' hp').grows hgrows hlawful.closed (hissued p' hp')

section Rules

variable (h₁ : c₁.Lawful)
include h₁

theorem fitsCapped_arrayType {element : Description} (hs : c₁.Issued s)
    (hkind : (c₁.entry s).kind = .arrayType) (helement : Describes c₁ around (c₁.typeAt s) element)
    (ih : FitsCapped o c₁ around (c₁.typeAt s) element) :
    FitsCapped o c₁ around s
      (.arrayType element (.ok (min (c₁.entry s).rank.toNat Frame.maxCount))) := by
  intro methods c hwithin h hback a ha
  have hpart : c₁.typeAt s ∈ c₁.partsAt s := by simp [partsAt_array hkind]
  have htype := h₁.isType_of_mem_partsAt hs hpart
  have hwithin' := hwithin.part h₁ hs hpart
  have hmethods := hwithin.issued
  obtain ⟨-, hlawful, hissued⟩ := helement.later h₁ htype.issued h hmethods
  obtain ⟨hgrows, hrebuilt⟩ := finds_arrayType hlawful (helement.isType h₁ htype h hmethods)
  obtain ⟨-, hlawful', -⟩ := (Describes.arrayType hkind helement).later h₁ hs h hmethods
  obtain ⟨e, he, hlookup⟩ := exists_left hrebuilt ha
  simp only [capped]
  exact Fits.array hlawful' (hlawful'.table.embodied _ _ hlookup)
    ((ih methods c hwithin' h hback e he).grows hgrows hlawful.closed (hissued e he))

theorem fitsCapped_pointerType {pointee : Description} (hs : c₁.Issued s)
    (hkind : (c₁.entry s).kind = .pointerType)
    (hpointee : Describes c₁ around (c₁.typeAt s) pointee)
    (ih : FitsCapped o c₁ around (c₁.typeAt s) pointee) :
    FitsCapped o c₁ around s (.pointerType pointee) := by
  intro methods c hwithin h hback a ha
  have hpart : c₁.typeAt s ∈ c₁.partsAt s := by simp [partsAt_pointer hkind]
  have htype := h₁.isType_of_mem_partsAt hs hpart
  have hwithin' := hwithin.part h₁ hs hpart
  have hmethods := hwithin.issued
  obtain ⟨-, hlawful, hissued⟩ := hpointee.later h₁ htype.issued h hmethods
  obtain ⟨hgrows, hrebuilt⟩ := finds_pointerType hlawful (hpointee.isType h₁ htype h hmethods)
  obtain ⟨-, hlawful', -⟩ := (Describes.pointerType hkind hpointee).later h₁ hs h hmethods
  obtain ⟨e, he, hlookup⟩ := exists_left hrebuilt ha
  simp only [capped]
  exact Fits.pointer hlawful' (hlawful'.table.embodied _ _ hlookup)
    ((ih methods c hwithin' h hback e he).grows hgrows hlawful.closed (hissued e he))

/-- What an array comes to is described by what the cap leaves of the array, element by element. -/
theorem FitsCapped.each {ts items : List SymbolId} {ds : List Description}
    (hds : DescribesEach c₁ around ts ds) (ih : ∀ p ∈ ts.zip ds, FitsCapped o c₁ around p.1 p.2)
    (hwithin : ∀ t ∈ ts, Within c₁ c around methods t) (hmethods : ∀ m ∈ methods, c.Issued m)
    (h : c.Lawful) (hback : c.FallsBack) (hitems : ComeTo o ds methods c items) :
    items.length = ts.length ∧ FitsEach (afterEach o ds methods c) methods items
      (ds.map (capped c.table.maxAnonymousArity)) := by
  have hfits := hds.comeTo (T := fun c' p a =>
      c'.Issued a ∧ Fits c' methods a (p.2.capped c.table.maxAnonymousArity)) h₁ h hmethods
    (fun c c' p a hgrows hlawful ha =>
      ⟨hgrows.issued ha.1, ha.2.grows hgrows hlawful.closed ha.1⟩)
    (fun p hp c' hc hlawful a ha => by
      have ht := (List.of_mem_zip hp).1
      have hissued := (hds.each p hp).later (o := o) h₁ (hds.types p.1 ht).issued hlawful
        fun m hm => hc.issued (hmethods m hm)
      refine ⟨hissued.2.2 a ha, ?_⟩
      rw [← hc.table.limit]
      exact ih p hp methods c' ((hwithin p.1 ht).later hc) hlawful (hback.later hc h.closed) a ha)
    hitems
  constructor
  · rw [← hfits.length_eq, List.length_zip, hds.length, Nat.min_self]
  · have hlength : (ds.map (capped c.table.maxAnonymousArity)).length = ts.length := by
      rw [List.length_map, hds.length]
    refine fitsEach hlength ?_
    rw [List.zip_map_right, List.forall₂_map_left_iff]
    exact hfits.imp fun _ _ ha => ha.2

theorem fitsCapped_tupleType {types : List Description} (hs : c₁.Issued s)
    (hkind : (c₁.entry s).kind = .tupleType)
    (hlength : types.length = (c₁.memberTypesAt .field s).length)
    (htypes : ∀ p ∈ (c₁.memberTypesAt .field s).zip types, Describes c₁ around p.1 p.2)
    (ih : ∀ p ∈ (c₁.memberTypesAt .field s).zip types, FitsCapped o c₁ around p.1 p.2) :
    FitsCapped o c₁ around s (.tupleType (.ok (.ofLength (c₁.memberTypesAt .field s).length)) types
      (.ofValues (c₁.elementNamesAt s)) (.ofValues (c₁.memberLocationsAt .field s))) := by
  intro methods c hwithin h hback a ha
  have hparts := partsAt_tuple hkind
  have hds : DescribesEach c₁ around (c₁.memberTypesAt .field s) types :=
    ⟨hlength, fun t ht => h₁.isType_of_mem_partsAt hs (hparts ▸ ht), htypes⟩
  have hwithin' : ∀ t ∈ c₁.memberTypesAt .field s, Within c₁ c around methods t :=
    fun t ht => hwithin.part h₁ hs (hparts ▸ ht)
  have hmethods := hwithin.issued
  obtain ⟨-, hlawful⟩ := hds.later (o := o) h₁ h hmethods
  obtain ⟨items, hitems, haccepts, hcheck⟩ := exists_of_mem_tupleType ha
  obtain ⟨hcount, heach⟩ := FitsCapped.each h₁ hds ih hwithin' hmethods h hback hitems
  have hissued := hds.isType h₁ h hmethods hitems
  rw [← hcount] at ha ⊢
  obtain ⟨a', hfound, hgrows, hlookup⟩ :=
    finds_tupleType (n := items.length) hlawful hitems hissued haccepts hcheck
  rw [hfound, List.mem_singleton] at ha
  subst ha
  obtain ⟨-, hlawful', -⟩ :=
    (Describes.tupleType hkind hlength htypes).later (o := o) h₁ hs h hmethods
  rw [← hcount] at hlawful'
  simp only [capped, cappedEach_eq]
  exact Fits.tuple hlawful' (hlawful'.table.embodied _ _ hlookup) map_elementNamesAt
    (by rw [length_memberLocationsAt, hcount]) (heach.grows hgrows hlawful.closed hissued)

theorem fitsCapped_anonymousType {types : List Description} (hs : c₁.Issued s)
    (hkind : (c₁.entry s).kind = .anonymousType)
    (hlength : types.length = (c₁.memberTypesAt .property s).length)
    (htypes : ∀ p ∈ (c₁.memberTypesAt .property s).zip types, Describes c₁ around p.1 p.2)
    (ih : ∀ p ∈ (c₁.memberTypesAt .property s).zip types, FitsCapped o c₁ around p.1 p.2) :
    FitsCapped o c₁ around s
      (.anonymousType (.ok (.ofLength (c₁.memberTypesAt .property s).length)) types
      (.ofValues ((c₁.propertyNamesAt s).map some)) (.ofValues (c₁.readOnlyAt s))
      (.ofValues (c₁.memberLocationsAt .property s))) := by
  intro methods c hwithin h hback a ha
  have hparts := partsAt_anonymous hkind
  have hds : DescribesEach c₁ around (c₁.memberTypesAt .property s) types :=
    ⟨hlength, fun t ht => h₁.isType_of_mem_partsAt hs (hparts ▸ ht), htypes⟩
  have hwithin' : ∀ t ∈ c₁.memberTypesAt .property s, Within c₁ c around methods t :=
    fun t ht => hwithin.part h₁ hs (hparts ▸ ht)
  have hmethods := hwithin.issued
  obtain ⟨hlater, hlawful⟩ := hds.later (o := o) h₁ h hmethods
  obtain ⟨items, hitems, haccepts⟩ := exists_of_mem_anonymousType ha
  obtain ⟨hcount, heach⟩ := FitsCapped.each h₁ hds ih hwithin' hmethods h hback hitems
  have hissued := hds.isType h₁ h hmethods hitems
  obtain ⟨hgrows', hlawful', -⟩ :=
    (Describes.anonymousType hkind hlength htypes).later (o := o) h₁ hs h hmethods
  -- the parts fit together as they do in the type that was described, so only the cap decides
  obtain ⟨ts, names, readOnly, -, hembodies⟩ := h₁.table.exists_anonymous hs hkind
  obtain ⟨locations, hcheck⟩ := hembodies.2.2.2.2.2.2
  have hts := h₁.memberTypesAt_anonymous hembodies
  have hlocations : (c₁.memberLocationsAt .property s).length = ts.length := by
    rw [length_memberLocationsAt, hts]
  rw [hts] at hcount hlength
  simp only [capped, cappedEach_eq]
  split
  · next hexceeds =>
    obtain ⟨n, hcap, hn⟩ := (Option.any_eq_true _ _).mp hexceeds
    have hrejected := SymbolTable.checkAnonymous_of_lt hcheck
      (by rw [← hlength]; exact of_decide_eq_true hn) hcount hlocations
    rw [← hcap, ← hlater.table.limit, ← propertyNamesAt_anonymous hembodies,
      ← readOnlyAt_anonymous hembodies] at hrejected
    rw [finds_anonymousType_rejected hitems haccepts hrejected, List.mem_singleton] at ha
    subst ha
    have hback' := hback.later hgrows' h.closed
    exact ⟨root, hback' (by rw [hgrows'.table.limit, hcap]; simp) methods, rfl⟩
  · next hwithinCap =>
    have haccepted : SymbolTable.checkAnonymous
      (afterEach o types methods c).table.maxAnonymousArity
        items (c₁.propertyNamesAt s) (c₁.readOnlyAt s) (c₁.memberLocationsAt .property s) =
            .ok () := by
      rw [hlater.table.limit, propertyNamesAt_anonymous hembodies, readOnlyAt_anonymous hembodies]
      refine SymbolTable.checkAnonymous_congr hcheck (fun n hn => ?_) hcount hlocations
      rw [hn, hlength, Option.any_some, decide_eq_true_eq] at hwithinCap
      exact Nat.le_of_not_lt hwithinCap
    rw [hts, ← hcount] at ha ⊢
    obtain ⟨a', hfound, hgrows, hlookup⟩ :=
      finds_anonymousType (n := items.length) hlawful hitems hissued haccepts haccepted
    rw [hfound, List.mem_singleton] at ha
    subst ha
    rw [hts, ← hcount] at hlawful'
    exact Fits.anonymous hlawful' (hlawful'.table.embodied _ _ hlookup)
      (hlocations.trans hcount.symm) (heach.grows hgrows hlawful.closed hissued)

theorem fitsCapped_constructed {g : SymbolId} {container : Description}
    {arguments : List Description} (hcase : o.ignoreCase = false) (hs : c₁.Issued s)
    (hkind : (c₁.entry s).kind = .namedType) (hdefinition : c₁.definitionAt s = g) (hne : g ≠ s)
    (hcontainer : Describes c₁ around (c₁.outerAt g) container)
    (hlength : arguments.length = (c₁.entry s).typeArguments.length)
    (harguments : ∀ p ∈ (c₁.entry s).typeArguments.zip arguments, Describes c₁ around p.1 p.2)
    (ih : FitsCapped o c₁ around (c₁.outerAt g) container)
    (iharguments : ∀ p ∈ (c₁.entry s).typeArguments.zip arguments, FitsCapped o c₁ around p.1 p.2) :
    FitsCapped o c₁ around s (.namedType container (.ok (c₁.entry g).name)
      (.ok (c₁.entry g).typeParameters.length) (.ok (.ofLength (c₁.entry s).typeArguments.length))
      arguments) := by
  intro methods c hwithin h hback a ha
  have hparts := partsAt_constructed hkind (definition_of_definitionAt hdefinition hne)
  obtain ⟨hg, -, harity, hpositive⟩ := h₁.constructed_from hs hdefinition hne
  obtain ⟨-, hp, hhost⟩ := h₁.outer hg.issued hg.kind hg.definition (by simp) rfl
  have hds : DescribesEach c₁ around (c₁.entry s).typeArguments arguments :=
    ⟨hlength, fun t ht => h₁.isType_of_mem_partsAt hs (hparts ▸ ht), harguments⟩
  have hmethods := hwithin.issued
  have houter := hwithin.declared hhost
  obtain ⟨hgrows₁, hlawful₁, hissued₁⟩ := hcontainer.later (o := o) h₁ hp h hmethods
  have hmethods₁ := fun m hm => hgrows₁.issued (hmethods m hm)
  have hback₁ := hback.later hgrows₁ h.closed
  obtain ⟨hgrows₂, hlawful₂⟩ := hds.later (o := o) h₁ hlawful₁ hmethods₁
  obtain ⟨items, hitems⟩ := exists_of_mem_constructed ha
  obtain ⟨hcount, heach⟩ := FitsCapped.each h₁ hds iharguments
    (fun t ht => (hwithin.part h₁ hs (hparts ▸ ht)).later hgrows₁) hmethods₁ hlawful₁ hback₁ hitems
  have hissued₂ := hds.isType h₁ hlawful₁ hmethods₁ hitems
  rw [← hcount] at ha harity ⊢
  have howners := fun p hp => hgrows₂.issued (hissued₁ p hp)
  obtain ⟨hgrows₃, found, hfound, heq⟩ := finds_constructed (c₁.entry g).name items.length hlawful₂
    howners hitems hissued₂ harity hpositive
  rw [heq, List.mem_eraseDups] at ha
  obtain ⟨g', hg', hlookup⟩ := exists_left hfound ha
  obtain ⟨hchild, harity'⟩ := (hlawful₂.mem_genericsBearing howners rfl).mp hg'
  obtain ⟨hlies, hname⟩ := ih.lies hcase houter h hback hlawful₁ hissued₁ hgrows₂ hchild
  have hlies := hlies.grows hgrows₃ hlawful₂.closed (hlawful₂.closed.issued_container hchild.issued)
  obtain ⟨-, hlawful', -⟩ := (Describes.constructed hkind hdefinition hne hcontainer hlength
    harguments).later (o := o) h₁ hs h hmethods
  rw [← hcount] at hlawful'
  have hfits := Fits.constructed (hlawful'.table.embodied _ _ hlookup)
    (by rw [hgrows₃.outerAt hchild.issued]; exact hlies)
    (heach.grows hgrows₃ hlawful₂.closed hissued₂)
  simp only [capped, cappedEach_eq]
  rwa [hgrows₃.entry hchild.issued, hname, harity', hgrows₁.table.limit] at hfits

theorem fitsCapped_property {container : Description} {parameters : List Description}
    (hcase : o.ignoreCase = false) (hs : c₁.Issued s) (hkind : (c₁.entry s).kind = .property)
    (hcontainer : Describes c₁ around (c₁.outerAt s) container)
    (hlength : parameters.length = (c₁.signatureAt s).length)
    (hparameters : ∀ p ∈ (c₁.signatureAt s).zip parameters, Describes c₁ around p.1 p.2)
    (ih : FitsCapped o c₁ around (c₁.outerAt s) container)
    (ihparameters : ∀ p ∈ (c₁.signatureAt s).zip parameters, FitsCapped o c₁ around p.1 p.2) :
    FitsCapped o c₁ around s (.property container (.ok (c₁.entry s).name)
      (.ok (.ofLength (c₁.signatureAt s).length)) parameters) := by
  intro methods c hwithin h hback a ha
  obtain ⟨rfl, rfl⟩ := hwithin.eq_nil (by rw [hkind]; simp) (by rw [hkind]; rfl)
  have hp := issued_outerAt h₁.closed hs
  have hds : DescribesEach c₁ [] (c₁.signatureAt s) parameters :=
    ⟨hlength, fun t ht => h₁.isType_of_mem_signatureAt hs ht, hparameters⟩
  obtain ⟨hgrows₁, hlawful₁, hissued₁⟩ := hcontainer.later (o := o) h₁ hp h (issued_nil c)
  have hback₁ := hback.later hgrows₁ h.closed
  obtain ⟨hgrows₂, hlawful₂⟩ := hds.later (o := o) h₁ hlawful₁ (issued_nil _)
  obtain ⟨items, hitems⟩ := exists_of_mem_property ha
  obtain ⟨hcount, heach⟩ :=
    FitsCapped.each h₁ hds ihparameters (fun _ _ => .outside) (issued_nil _) hlawful₁
    hback₁ hitems
  rw [finds_property hitems, List.mem_eraseDups,
    hlawful₂.mem_propertiesBearing fun p hp => hgrows₂.issued (hissued₁ p hp)] at ha
  obtain ⟨hchild, hsignature⟩ := ha
  obtain ⟨⟨d', hd', heq⟩, hname⟩ := ih.lies hcase .outside h hback hlawful₁ hissued₁ hgrows₂ hchild
  obtain ⟨ds', hlength', heach', hmap⟩ := heach
  rw [after_property]
  refine ⟨_, .property hchild.kind hd' (by rw [hsignature]; exact hlength')
    (by rw [hsignature]; exact heach'), ?_⟩
  have hmap : ds'.map (mapLeaves id fun _ => .nowhere) =
      (parameters.map (capped c.table.maxAnonymousArity)).map (mapLeaves id fun _ => .nowhere) := by
    rw [← hgrows₁.table.limit]
    exact hmap
  simp only [capped, cappedEach_eq, withoutLocations, mapLeaves, mapLeavesEach_eq] at heq ⊢
  rw [heq, hmap, hname, hsignature, hcount]

/-- What a signature that was gone through inside a method comes to is described by it there. -/
def FitsInside (parameters : List Description) (c : Compilation) (m : SymbolId)
    (outcome : Except Failure (List SymbolId)) : Prop :=
  ∀ items, outcome = .ok items → (∀ t ∈ items, c.table.IsType t) ∧
    items.length = parameters.length ∧ FitsEach c [m] items parameters

omit h₁ in
theorem FitsInside.grows {parameters : List Description} {m : SymbolId}
    {outcome : Except Failure (List SymbolId)} (hgrows : c.Grows c') (h : c.Lawful)
    (hfits : FitsInside parameters c m outcome) : FitsInside parameters c' m outcome := by
  intro items hitems
  obtain ⟨htypes, hcount, heach⟩ := hfits items hitems
  exact ⟨fun t ht => hgrows.isType (htypes t ht), hcount, heach.grows hgrows h.closed htypes⟩

theorem fitsCapped_method {container : Description} {parameters : List Description}
    (hcase : o.ignoreCase = false) (hscoped : c₁.Scoped) (hs : c₁.Issued s)
    (hkind : (c₁.entry s).kind = .method)
    (hcontainer : Describes c₁ around (c₁.outerAt s) container)
    (hlength : parameters.length = (c₁.signatureAt s).length)
    (hparameters : ∀ p ∈ (c₁.signatureAt s).zip parameters, Describes c₁ (around ++ [s]) p.1 p.2)
    (ih : FitsCapped o c₁ around (c₁.outerAt s) container)
    (ihparameters : ∀ p ∈ (c₁.signatureAt s).zip parameters,
      FitsCapped o c₁ (around ++ [s]) p.1 p.2) :
    FitsCapped o c₁ around s (.method container (.ok (c₁.entry s).name)
      (.ok (c₁.entry s).typeParameters.length) (.ok (.ofLength (c₁.signatureAt s).length))
      parameters) := by
  intro methods c hwithin h hback a ha
  obtain ⟨rfl, rfl⟩ := hwithin.eq_nil (by rw [hkind]; simp) (by rw [hkind]; rfl)
  have hp := issued_outerAt h₁.closed hs
  have hds : DescribesEach c₁ [s] (c₁.signatureAt s) parameters :=
    ⟨hlength, fun t ht => h₁.isType_of_mem_signatureAt hs ht, hparameters⟩
  obtain ⟨hgrows₁, hlawful₁, hissued₁⟩ := hcontainer.later (o := o) h₁ hp h (issued_nil c)
  have hsignature : ∀ m ∈ (after o container [] c).genericsBearing o .method
    (finds o container [] c)
      (c₁.entry s).name (c₁.entry s).typeParameters.length, ∀ c',
        (after o container [] c).Grows c' →
      c'.Lawful → FitsInside (parameters.map (capped c.table.maxAnonymousArity))
        (afterEach o parameters ([] ++ [m]) c') m (goThrough o parameters ([] ++ [m]) c').1 := by
    intro m hm c' hc hlawful items hitems
    obtain ⟨hchild, harity⟩ := (hlawful₁.mem_genericsBearing hissued₁ rfl).mp hm
    have hm' := hc.issued hchild.issued
    have hcounterpart : Counterpart c₁ c' s m := by
      refine ⟨hs, hkind, hm', ?_, ?_⟩ <;> rw [hc.entry hchild.issued]
      · exact hchild.kind
      · exact harity
    have hmethods : ∀ m' ∈ [m], c'.Issued m' := fun m' hm => by rwa [List.mem_singleton.mp hm]
    have hlimit := (hgrows₁.trans hc).table.limit
    have hback' := hback.later (hgrows₁.trans hc) h.closed
    have hitems := gathered_eq_ok.mp hitems
    obtain ⟨hcount, heach⟩ := FitsCapped.each h₁ hds ihparameters
      (fun t ht => hscoped.within hcounterpart ht (hds.types t ht)) hmethods hlawful hback' hitems
    refine ⟨hds.isType h₁ hlawful hmethods hitems, by rw [hcount, List.length_map, hlength], ?_⟩
    rwa [hlimit] at heach
  obtain ⟨hgrows₂, outcomes, houtcomes, heq⟩ := finds_method (c₁.entry s).name
    (c₁.entry s).typeParameters.length (.ok (.ofLength (c₁.signatureAt s).length)) hlawful₁
      hissued₁ rfl
    (issued_nil _) (fun _ _ h hm => hds.later h₁ h hm)
    (fun _ _ _ _ hgrows hlawful hfits => hfits.grows hgrows hlawful) hsignature
  rw [heq, List.mem_eraseDups] at ha
  have hmem := mem_fits.mp ha
  obtain ⟨hchild, harity⟩ := (hlawful₁.mem_genericsBearing hissued₁ rfl).mp (List.of_mem_zip hmem).1
  obtain ⟨-, hcount, ds', hlength', heach', hmap⟩ :=
    (List.forall₂_iff_zip.mp houtcomes).2 hmem _ rfl
  obtain ⟨hlies, hname⟩ := ih.lies hcase .outside h hback hlawful₁ hissued₁ (.refl _) hchild
  obtain ⟨d', hd', heq⟩ := hlies.grows hgrows₂ hlawful₁.closed
    (hlawful₁.closed.issued_container hchild.issued)
  have hsame := hgrows₂.signatureAt hlawful₁.closed hchild.issued
  have hentry := hgrows₂.entry hchild.issued
  refine ⟨_, .method (by rw [hentry]; exact hchild.kind)
    (by rw [hgrows₂.outerAt hchild.issued]; exact hd') (by rw [hsame]; exact hlength')
    (by rw [hsame]; exact heach'), ?_⟩
  have hmap : ds'.map (mapLeaves id fun _ => .nowhere) =
      (parameters.map (capped c.table.maxAnonymousArity)).map (mapLeaves id fun _ => .nowhere) :=
        hmap
  rw [List.length_map] at hcount
  simp only [capped, cappedEach_eq, withoutLocations, mapLeaves, mapLeavesEach_eq] at heq ⊢
  rw [heq, hmap, hentry, hname, harity, hsame, hcount, hlength]

omit h₁ in
theorem fitsCapped_typeParameterOrdinal {m : SymbolId} (hm : m ∈ around) :
    FitsCapped o c₁ around s (.typeParameterOrdinal (.ok ((methodIndex? around m).getD 0))
      (.ok (((c₁.entry m).typeParameters.idxOf? s).getD 0))) := by
  intro methods c hwithin h hback a ha
  cases hwithin with
  | outside => cases hm
  | @inside _ m' _ hmethods _ _ =>
      have hissued := hmethods.issued
      obtain rfl := List.mem_singleton.mp hm
      rw [methodIndex?_singleton] at ha ⊢
      rw [finds_typeParameterOrdinal, Option.mem_toList] at ha
      have hmem : a ∈ (c.entry m').belongings .typeParameter := List.mem_of_getElem? ha
      obtain ⟨-, -, -, hcontainer⟩ := (h.mem_belongings hissued).mp hmem
      have hordinal := getD_idxOf? (h.table.nodup m' hissued .typeParameter) ha
      rw [after_typeParameterOrdinal]
      simp only [capped]
      refine ⟨_, .typeParameterOrdinal (h.kind_of_mem_belongings hissued (.inr rfl) hmem) (by simp)
        hcontainer, ?_⟩
      rw [methodIndex?_singleton, show ((c.entry m').typeParameters.idxOf? a).getD 0 = _ from
        hordinal]

theorem fitsCapped_localVariable {owner : Description} (hcase : o.ignoreCase = false)
    (hs : c₁.Issued s) (hkind : (c₁.entry s).kind = .localVariable)
    (howner : Describes c₁ around (c₁.outerAt s) owner)
    (ih : FitsCapped o c₁ around (c₁.outerAt s) owner) :
    FitsCapped o c₁ around s
      (.localVariable owner (.ok (c₁.entry s).name) (.ok (c₁.localOrdinalAt s))) := by
  intro methods c hwithin h hback a ha
  obtain ⟨rfl, rfl⟩ := hwithin.eq_nil (by rw [hkind]; simp) (by rw [hkind]; rfl)
  obtain ⟨-, hlawful, hissued⟩ := howner.later (o := o) h₁ (issued_outerAt h₁.closed hs) h
    (issued_nil c)
  rw [finds_localVariable, List.mem_eraseDups] at ha
  rw [after_localVariable]
  obtain ⟨p, hp, ha⟩ := List.mem_filterMap.mp ha
  have hlocals : (after o owner [] c).localsAt (o.namesMatch · (c₁.entry s).name) p =
      (after o owner [] c).localsAt (· == (c₁.entry s).name) p := by
    refine List.filter_congr fun m _ => ?_
    rw [Bool.eq_iff_iff, ResolveOptions.namesMatch_iff hcase, beq_iff_eq]
  rw [hlocals] at ha
  obtain ⟨hmember, hname⟩ := List.mem_filter.mp (List.mem_of_getElem? ha)
  have hname := beq_iff_eq.mp hname
  obtain ⟨hmember, hlocal⟩ := mem_membersAt.mp hmember
  have hbelongs : a ∈ ((after o owner [] c).entry p).belongings .member := hmember
  obtain ⟨-, -, -, hcontainer⟩ := (hlawful.mem_belongings (hissued p hp)).mp hbelongs
  have houter : (after o owner [] c).outerAt a = p := by
    rw [outerAt, hcontainer]
    rfl
  have hordinal : (after o owner [] c).localOrdinalAt a = c₁.localOrdinalAt s := by
    rw [localOrdinalAt, houter, hname]
    exact getD_idxOf? (hlawful.nodup_localsAt (hissued p hp) _) ha
  obtain ⟨d', hd', heq⟩ := ih [] c .outside h hback p hp
  refine ⟨_, .localVariable hlocal (by rw [houter]; exact hd'), ?_⟩
  simp only [capped, withoutLocations, mapLeaves] at heq ⊢
  rw [heq, hname, hordinal]

/-- Whatever is found for a description is described by what the cap leaves of it, up to the
contents of locations. -/
theorem Describes.fitsCapped (hcase : o.ignoreCase = false) (hscoped : c₁.Scoped)
    (hd : Describes c₁ around s d) (hs : c₁.Issued s) : FitsCapped o c₁ around s d := by
  induction hd with
  | global hkind houter =>
      intro methods c _ h _ a ha
      rw [finds_global, List.mem_singleton] at ha
      subst ha
      have hglobal : after o .global methods c = c := by simp only [after, locate]
      rw [hglobal, h.plain.global]
      exact ⟨_, .global h.table.root.2.1 (by rw [h.containerAt_eq]; exact h.table.root.2.2), rfl⟩
  | @nameSpace around s p container hkind houter hcontainer ih =>
      intro methods c hwithin h hback a ha
      have hcontainer' : (c₁.entry s).container = some p := by rw [← h₁.containerAt_eq, houter]
      have hp := h₁.table.closed.container hs hcontainer'
      have hnone := h₁.definition_eq_none hs hkind (by simp)
      have hhost := (h₁.belongs hs hnone hcontainer').host
      rw [show (c₁.table.entry s).kind = _ from hkind] at hhost
      obtain ⟨-, hlawful, hissued⟩ := hcontainer.later (o := o) h₁ hp h hwithin.issued
      rw [finds_nameSpace, List.mem_eraseDups, hlawful.mem_membersBearing hissued rfl] at ha
      obtain ⟨⟨d', hd', heq⟩, hname⟩ :=
        (ih hp).lies hcase (hwithin.declared (.inl hhost)) h hback hlawful
        hissued (.refl _) ha
      rw [after_nameSpace]
      obtain ⟨p', -, hp'⟩ := ha.inside
      have houter' : (after o container methods c).outerAt a = p' := by
        rw [outerAt, hp']
        rfl
      refine ⟨_, .nameSpace ha.kind hp' (houter' ▸ hd'), ?_⟩
      simp only [capped, withoutLocations, mapLeaves] at heq ⊢
      rw [heq, hname]
  | @definition around s container hkind hself hcontainer ih =>
      intro methods c hwithin h hback a ha
      have hnone := h₁.definition_of_self hs hself
      obtain ⟨-, hp, hhost⟩ := h₁.outer hs hkind hnone (by simp) rfl
      obtain ⟨-, hlawful, hissued⟩ := hcontainer.later (o := o) h₁ hp h hwithin.issued
      rw [finds_definition, List.mem_eraseDups, hlawful.mem_genericsBearing hissued rfl] at ha
      obtain ⟨hchild, harity⟩ := ha
      obtain ⟨⟨d', hd', heq⟩, hname⟩ := (ih hp).lies hcase (hwithin.declared hhost) h hback hlawful
        hissued (.refl _) hchild
      rw [after_definition]
      refine ⟨_, .definition hchild.kind (definitionAt_self hchild.definition) hd', ?_⟩
      simp only [capped, cappedEach, withoutLocations, mapLeaves, mapLeavesEach] at heq ⊢
      rw [heq, hname, harity]
  | constructed hkind hdefinition hne hcontainer hlength harguments ih iharguments =>
      have hdefined := definition_of_definitionAt hdefinition hne
      have hparts := partsAt_constructed hkind hdefined
      have hg := (h₁.constructed_from hs hdefinition hne).1.issued
      exact fitsCapped_constructed h₁ hcase hs hkind hdefinition hne hcontainer hlength harguments
        (ih (issued_outerAt h₁.closed hg)) fun p hp => iharguments p hp
          (h₁.isType_of_mem_partsAt hs (hparts ▸ (List.of_mem_zip hp).1)).issued
  | arrayType hkind helement ih =>
      exact fitsCapped_arrayType h₁ hs hkind helement (ih (h₁.closed.issued_typeAt hs))
  | pointerType hkind hpointee ih =>
      exact fitsCapped_pointerType h₁ hs hkind hpointee (ih (h₁.closed.issued_typeAt hs))
  | tupleType hkind hlength htypes ih =>
      have hparts := partsAt_tuple hkind
      exact fitsCapped_tupleType h₁ hs hkind hlength htypes fun p hp => ih p hp
        (h₁.isType_of_mem_partsAt hs (hparts ▸ (List.of_mem_zip hp).1)).issued
  | anonymousType hkind hlength htypes ih =>
      have hparts := partsAt_anonymous hkind
      exact fitsCapped_anonymousType h₁ hs hkind hlength htypes fun p hp => ih p hp
        (h₁.isType_of_mem_partsAt hs (hparts ▸ (List.of_mem_zip hp).1)).issued
  | @typeParameter around s owner hkind hfree howner ih =>
      intro methods c hwithin h hback a ha
      have hnone := h₁.definition_eq_none hs hkind (by simp)
      obtain ⟨hcontainer, hp, hhost⟩ := h₁.outer hs hkind hnone (by simp) rfl
      have hwithin' := hwithin.owner hkind hcontainer hfree hhost
      obtain ⟨hgrows, hlawful, hissued⟩ := howner.later (o := o) h₁ hp h hwithin.issued
      rw [finds_typeParameter, List.mem_eraseDups, hlawful.mem_typeParametersBearing hissued] at ha
      obtain ⟨hfits, hname⟩ := (ih hp).lies hcase hwithin' h hback hlawful hissued (.refl _) ha
      have hkind' := hfits.kind howner
      obtain ⟨d', hd', heq⟩ := hfits
      rw [after_typeParameter]
      refine ⟨_, .typeParameter ha.kind (fun m hm hm' => ?_) hd', ?_⟩
      · have houter : (after o owner methods c).outerAt a = m := by
          rw [outerAt, hm']
          rfl
        rw [houter, (hwithin.later hgrows).method m hm] at hkind'
        rcases hkind' with hmethod | hnamed
        · exact hwithin'.ne_method hm hmethod.symm
        · cases hnamed
      · simp only [capped, withoutLocations, mapLeaves] at heq ⊢
        rw [heq, hname]
  | typeParameterOrdinal hkind hm howner => exact fitsCapped_typeParameterOrdinal hm
  | @field around s container hkind hcontainer ih =>
      intro methods c hwithin h hback a ha
      obtain ⟨rfl, rfl⟩ := hwithin.eq_nil (by rw [hkind]; simp) (by rw [hkind]; rfl)
      have hp := issued_outerAt h₁.closed hs
      obtain ⟨-, hlawful, hissued⟩ := hcontainer.later (o := o) h₁ hp h hwithin.issued
      rw [finds_field, List.mem_eraseDups, hlawful.mem_membersBearing hissued rfl] at ha
      obtain ⟨⟨d', hd', heq⟩, hname⟩ :=
        (ih hp).lies hcase .outside h hback hlawful hissued (.refl _) ha
      rw [after_field]
      refine ⟨_, .field ha.kind hd', ?_⟩
      simp only [capped, withoutLocations, mapLeaves] at heq ⊢
      rw [heq, hname]
  | property hkind hcontainer hlength hparameters ih ihparameters =>
      exact fitsCapped_property h₁ hcase hs hkind hcontainer hlength hparameters
        (ih (issued_outerAt h₁.closed hs)) fun p hp => ihparameters p hp
          (h₁.isType_of_mem_signatureAt hs (List.of_mem_zip hp).1).issued
  | method hkind hcontainer hlength hparameters ih ihparameters =>
      exact fitsCapped_method h₁ hcase hscoped hs hkind hcontainer hlength hparameters
        (ih (issued_outerAt h₁.closed hs)) fun p hp => ihparameters p hp
          (h₁.isType_of_mem_signatureAt hs (List.of_mem_zip hp).1).issued
  | @parameter around s owner hkind howner ih =>
      intro methods c hwithin h hback a ha
      obtain ⟨rfl, rfl⟩ := hwithin.eq_nil (by rw [hkind]; simp) (by rw [hkind]; rfl)
      have hp := issued_outerAt h₁.closed hs
      obtain ⟨-, hlawful, hissued⟩ := howner.later (o := o) h₁ hp h hwithin.issued
      rw [finds_parameter, List.mem_eraseDups, hlawful.mem_parametersBearing hissued] at ha
      obtain ⟨⟨d', hd', heq⟩, hname⟩ :=
        (ih hp).lies hcase .outside h hback hlawful hissued (.refl _) ha
      rw [after_parameter]
      refine ⟨_, .parameter ha.kind hd', ?_⟩
      simp only [capped, withoutLocations, mapLeaves] at heq ⊢
      rw [heq, hname]
  | localVariable hkind howner ih =>
      exact fitsCapped_localVariable h₁ hcase hs hkind howner (ih (issued_outerAt h₁.closed hs))

/-- Wherever the description of a symbol is tried without a cap on anonymous types, everything found
fits it. -/
def OnlyFits (o : ResolveOptions) (c₁ : Compilation) (around : List SymbolId) (s : SymbolId)
    (d : Description) : Prop :=
  ∀ (methods : List SymbolId) (c : Compilation), Within c₁ c around methods s → c.Lawful →
    c.table.maxAnonymousArity = none →
    ∀ a ∈ finds o d methods c, Fits (after o d methods c) methods a d

theorem Describes.onlyFits (hcase : o.ignoreCase = false) (hscoped : c₁.Scoped)
    (hd : Describes c₁ around s d) (hs : c₁.Issued s) : OnlyFits o c₁ around s d := by
  intro methods c hwithin h hcap a ha
  have hfits := hd.fitsCapped h₁ hcase hscoped hs methods c hwithin h
    (fun hsome => absurd hcap hsome) a ha
  rwa [hcap, capped_none] at hfits

end Rules

end Description

open Draft in
/-- A class `A` with a generic method `m` that takes its own type parameter. -/
def Draft.generic : Draft where
  table := (Request.parameter ⟨6⟩ "x" ⟨7⟩).after ((Request.method ⟨5⟩ "m" ["T"]).after
    ((Request.namedType global "A" []).after empty.table))
  files := []

theorem Draft.made_generic : generic.Made Request.Contained := by
  have hclass := Made.request (r := .namedType global "A" []) .empty
    (show Request.Contained _ _ from ⟨by unfold SymbolTable.Issued; decide, .inl rfl⟩) rfl
  have hmethod := hclass.request (r := .method ⟨5⟩ "m" ["T"])
    (show Request.Contained _ _ from ⟨by unfold SymbolTable.Issued; decide, rfl, rfl⟩) rfl
  refine hmethod.request (r := .parameter ⟨6⟩ "x" ⟨7⟩) (show Request.Contained _ _ from ?_) rfl
  refine ⟨by unfold SymbolTable.Issued; decide, .inl rfl, ?_, ?_⟩
  · exact ⟨by unfold SymbolTable.Issued; decide, rfl⟩
  · rintro p hp
    cases hp
    exact ⟨by unfold SymbolTable.Issued; decide, rfl, rfl⟩

theorem Draft.scoped_generic : generic.finish.Scoped := by
  intro m hm hkind t ht a hmentions hparameter q hq _
  obtain ⟨i⟩ := m
  have hi : i < 9 := hm
  obtain rfl : i = 6 := by interval_cases i <;> first | rfl | cases hkind
  have ht : t ∈ [⟨7⟩] := ht
  obtain rfl := List.mem_singleton.mp ht
  cases hmentions with
  | self => cases hq; rfl
  | part ha _ => cases ha

namespace Key

variable {c₁ : Compilation} {s₁ : SymbolId} {scene : Scene}

/-- The key of a symbol with the contents of its location entries erased. -/
def outline (c : Compilation) (s : SymbolId) : Except Fault Key := do
  return ofFrames (← Description.ofSymbol c [] s).withoutLocations.frames

/-- Every symbol of a program has a key, and whatever a case-sensitive resolution of it finds in a
program without a cap on anonymous types has that key too, once the contents of location entries are
erased. -/
theorem candidates_sound (hmade₁ : c₁.Made Request.Contained)
    (hmade : scene.compilation.Made Request.Contained) (hsize : c₁.size < UInt32.size)
    (hscoped : c₁.Scoped) (hcap : scene.compilation.table.maxAnonymousArity = none)
    (hs : c₁.Issued s₁) :
    ∃ k erased, ofSymbol c₁ s₁ = .ok k ∧ outline c₁ s₁ = .ok erased ∧
      ∀ o : ResolveOptions, o.ignoreCase = false → ∀ r, (k.resolve o scene).1 = .ok (.ok r) →
        ∀ s ∈ r.candidates, outline (k.resolve o scene).2.compilation s = .ok erased := by
  have h₁ := hmade₁.lawful
  have h := hmade.lawful
  obtain ⟨d, k, hd, hdescribes, hkey, -, hresolve⟩ := resolve_ofSymbol h₁ hs hsize
  refine ⟨k, ofFrames d.withoutLocations.frames, hkey, by rw [outline, hd]; rfl, ?_⟩
  intro o hcase r hr s hs'
  obtain ⟨hlocate, hafter⟩ := hresolve o scene h.closed (.inl ⟨_, hr⟩)
  rw [hlocate] at hr
  have hfound : s ∈ d.clipped.finds o [] scene.compilation :=
    Decode.mem_candidates.mpr ⟨r, Except.ok.inj hr, hs'⟩
  obtain ⟨-, hlawful, hissued⟩ :=
    hdescribes.later (o := o) h₁ hs h (Description.issued_nil scene.compilation)
  obtain ⟨d', hd', heq⟩ :=
    hdescribes.onlyFits h₁ hcase hscoped hs [] scene.compilation .outside h hcap s hfound
  -- what fits the candidate is the description that its own key is made from
  obtain ⟨d₂, hd₂, hdescribes₂, -⟩ := Description.describes_ofSymbol hlawful (hissued s hfound)
  obtain rfl := hdescribes₂.unique hd'
  have hframes : d₂.withoutLocations.frames = d.withoutLocations.frames := by
    rw [← Description.frames_clipped_withoutLocations, heq,
      Description.frames_clipped_withoutLocations]
  rw [outline, hafter, hd₂, ← hframes]
  rfl

/-- The key of a generic method is resolved to the method, which has that key. -/
theorem candidates_sound_generic :
    ∃ k erased, ofSymbol Draft.generic.finish ⟨6⟩ = .ok k ∧
      (k.resolve {} { compilation := Draft.generic.finish }).1 = .ok (.ok (.symbol ⟨6⟩)) ∧
      outline Draft.generic.finish ⟨6⟩ = .ok erased ∧
      outline (k.resolve {} { compilation := Draft.generic.finish }).2.compilation ⟨6⟩ =
          .ok erased := by
  have hmade : Draft.generic.finish.Made Request.Contained := .finish Draft.made_generic
  have hissued : Draft.generic.finish.Issued ⟨6⟩ := by
    unfold Compilation.Issued SymbolTable.Issued
    decide
  obtain ⟨k, erased, hk, herased, hsound⟩ := @candidates_sound Draft.generic.finish ⟨6⟩
    { compilation := Draft.generic.finish } hmade hmade (by decide) Draft.scoped_generic rfl hissued
  have hfound : (k.resolve {} { compilation := Draft.generic.finish }).1 =
      .ok (.ok (.symbol ⟨6⟩)) := by
    cases hk
    decide +kernel
  exact ⟨k, erased, hk, hfound, herased,
    hsound {} rfl _ hfound ⟨6⟩ (by simp [Resolution.candidates])⟩

end Key
end Moniker
