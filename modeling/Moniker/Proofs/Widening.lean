import Mathlib.Logic.Relation
import Moniker.Proofs.Acceptance
import Moniker.Proofs.Independent
import Moniker.Proofs.Keys
import Moniker.Proofs.Programs
import Moniker.Proofs.Recalling

/-!
# Ignoring case widens

Under options that match more names a lookup finds what it found before, and more, so that
containers have more candidates, and so has what is looked up in them. Two things do not widen: the
elements of arrays, of which only the first candidate counts, and the numbers of locals. So what a
key resolved to may get lost when case is ignored (`Key.ignoreCase_loses`).

It does not get lost if, in each segment that it hangs off, every element of the array keeps its
first candidate and no local newly matches before the one found (`Description.Kept`). And this is
all that can go wrong: a symbol that a description finds is found under the wider options exactly if
it is kept (`Description.locate_widens`), with a lemma for every sort of segment. The theorem about
keys is `Key.ignoreCase_widens`.
-/

namespace Moniker

open List SymbolTable Compilation

/-- Options under which more names match. -/
def ResolveOptions.Wider (o o' : ResolveOptions) : Prop :=
  ∀ a b, o.namesMatch a b = true → o'.namesMatch a b = true

theorem ResolveOptions.wider_ignoreCase (o : ResolveOptions) (hcase : o.ignoreCase = false) :
    o.Wider { o with ignoreCase := true } := by
  intro a b hmatch
  obtain rfl : a = b := by simpa [namesMatch, hcase] using hmatch
  simp [namesMatch]

/-! ## Places in a filtered list -/

section Places

variable {α : Type} {a : α} {front rest : List α} {p q : α → Bool} {n : Nat}

/-- What passes a filter comes right after what passes it of all that is in front. -/
theorem getElem?_filter_eq_some_iff (hnodup : (front ++ a :: rest).Nodup) :
    ((front ++ a :: rest).filter p)[n]? = some a ↔ p a = true ∧ n = (front.filter p).length := by
  constructor
  · intro hplace
    have ha : p a = true := (mem_filter.mp (mem_of_getElem? hplace)).2
    refine ⟨ha, ?_⟩
    have hfront : ((front ++ a :: rest).filter p)[(front.filter p).length]? = some a := by
      simp [filter_append, ha]
    have hlt : n < ((front ++ a :: rest).filter p).length := (List.getElem?_eq_some_iff.mp hplace).1
    exact (getElem?_inj hlt (hnodup.filter p)).mp (hplace.trans hfront.symm)
  · rintro ⟨ha, rfl⟩
    simp [filter_append, ha]

/-- A wider filter leaves an element at its place if it lets no more pass in front of it. -/
theorem getElem?_filter_iff_of_imp {l : List α} (hnodup : l.Nodup)
    (himp : ∀ b, p b = true → q b = true) (hplace : (l.filter p)[n]? = some a) :
    (l.filter q)[n]? = some a ↔
      ∀ front rest, l = front ++ a :: rest → ∀ b ∈ front, q b = true → p b = true := by
  have hsame : ∀ front rest, l = front ++ a :: rest → ((l.filter q)[n]? = some a ↔
      ∀ b ∈ front, q b = true → p b = true) := by
    rintro front rest rfl
    obtain ⟨ha, rfl⟩ := (getElem?_filter_eq_some_iff hnodup).mp hplace
    rw [getElem?_filter_eq_some_iff hnodup]
    have hsub : front.filter p <+ front.filter q := monotone_filter_right front himp
    constructor
    · rintro ⟨-, hlength⟩ b hb hq
      have hb' : b ∈ front.filter p := hsub.eq_of_length hlength ▸ mem_filter.mpr ⟨hb, hq⟩
      exact (mem_filter.mp hb').2
    · intro hall
      refine ⟨himp a ha, congrArg length (filter_congr fun b hb => ?_)⟩
      exact Bool.eq_iff_iff.mpr ⟨himp b, hall b hb⟩
  constructor
  · exact fun hq front rest hl => (hsame front rest hl).mp hq
  · intro hall
    obtain ⟨front, rest, hl⟩ := append_of_mem (mem_filter.mp (mem_of_getElem? hplace)).1
    exact (hsame front rest hl).mpr (hall front rest hl)

end Places

namespace Description

variable {c : Compilation} {o o' : ResolveOptions} {d container : Description}
  {ds : List Description} {methods ts : List SymbolId} {s p : SymbolId} {n : Nat}

/-! ## What is kept -/

/-- The segments in the array of a segment: type arguments, parameter types, or types of members. -/
def elements : Description → List Description
  | namedType _ _ _ _ arguments => arguments
  | tupleType _ types _ _ => types
  | anonymousType _ types _ _ _ => types
  | property _ _ _ parameters => parameters
  | method _ _ _ _ parameters => parameters
  | _ => []

/-- The methods inside which the array of a segment is read, where the segment found the symbol. -/
def within : Description → SymbolId → List SymbolId
  | method _ _ _ _ _, m => [m]
  | _, _ => []

/-- What a segment hangs off, and the symbol there that a symbol found by the segment belongs to. -/
def host (c : Compilation) : Description → SymbolId → Option (Description × SymbolId)
  | nameSpace container _, s | typeParameter container _, s | field container _, s
  | property container _ _ _, s | method container _ _ _ _, s | parameter container _, s
  | localVariable container _ _, s => some (container, c.outerAt s)
  | namedType container _ _ _ _, s => some (container, c.outerAt (c.definitionAt s))
  | arrayType element _, s | pointerType element, s => some (element, c.typeAt s)
  | _, _ => none

/-- The root type stands in for an anonymous type that is not built. -/
def StandsIn (c : Compilation) : Description → SymbolId → Prop
  | anonymousType _ _ _ _ _, s => s = c.universal
  | _, _ => False

/-- Under the other options the segment does not lose the symbol, as far as its own array and number
go: each element of the array has the same first candidate, or still has one where the root type
stands in for what is built of them, and no local newly matches that comes before the symbol. -/
structure KeptAt (o o' : ResolveOptions) (c : Compilation) (d : Description) (s : SymbolId) :
    Prop where
  elements : ∀ e ∈ d.elements, ∃ t, (finds o' e (d.within s) c).head? = some t ∧
    ((finds o e (d.within s) c).head? = some t ∨ StandsIn c d s)
  locals : ∀ owner name ordinal, d = .localVariable owner (.ok name) ordinal →
    ∀ front rest, c.membersAt .localVariable (c.outerAt s) = front ++ s :: rest →
      ∀ a ∈ front, o'.namesMatch (c.entry a).name name = true →
        o.namesMatch (c.entry a).name name = true

/-- Nor is it lost in a segment that this one hangs off. -/
def Kept (o o' : ResolveOptions) (c : Compilation) (d : Description) (s : SymbolId) : Prop :=
  ∀ x, Relation.ReflTransGen (fun a b => host c a.1 a.2 = some b) (d, s) x → KeptAt o o' c x.1 x.2

theorem kept_iff_of_host (hhost : host c d s = some (container, p)) :
    Kept o o' c d s ↔ KeptAt o o' c d s ∧ Kept o o' c container p := by
  constructor
  · exact fun h => ⟨h _ .refl, fun x hx => h x (.head hhost hx)⟩
  · rintro ⟨hs, hp⟩ x hx
    rcases hx.cases_head with rfl | ⟨q, hhost', hx⟩
    · exact hs
    · obtain rfl := Option.some.inj (hhost.symm.trans hhost')
      exact hp x hx

theorem kept_iff_of_none (hhost : host c d s = none) : Kept o o' c d s ↔ KeptAt o o' c d s := by
  constructor
  · exact fun h => h _ .refl
  · intro hs x hx
    rcases hx.cases_head with rfl | ⟨q, hhost', -⟩
    · exact hs
    · cases hhost.symm.trans hhost'

/-- A segment without an array that is not that of a local has nothing to lose by itself. -/
theorem keptAt_of_plain (helements : d.elements = [])
    (hlocal : ∀ owner name ordinal, d ≠ .localVariable owner name ordinal) : KeptAt o o' c d s where
  elements e he := by
    rw [helements] at he
    cases he
  locals _ _ _ hd := absurd hd (hlocal _ _ _)

/-- An array that comes to some symbols comes to the same under the other options if the first
candidate for each element stays what it is. -/
theorem Reads.iff_each (h : Reads o c ds methods ts) : Reads o' c ds methods ts ↔
    ∀ e ∈ ds, ∃ t, (finds o' e methods c).head? = some t ∧
      (finds o e methods c).head? = some t := by
  induction h with
  | nil => simp [Reads]
  | @cons d t ds ts ht _ ih =>
      rw [Reads] at ih ⊢
      rw [forall₂_cons, ih, forall_mem_cons]
      simp [ht]

/-- Where no root type stands in and no locals are numbered, the array decides. -/
theorem keptAt_iff_reads (hread : Reads o c d.elements (d.within s) ts) (hroot : ¬ StandsIn c d s)
    (hlocal : ∀ owner name ordinal, d ≠ .localVariable owner name ordinal) :
    Reads o' c d.elements (d.within s) ts ↔ KeptAt o o' c d s := by
  rw [hread.iff_each]
  constructor
  · intro heach
    refine ⟨fun e he => ?_, fun _ _ _ hd => absurd hd (hlocal _ _ _)⟩
    obtain ⟨t, ht', ht⟩ := heach e he
    exact ⟨t, ht', .inl ht⟩
  · intro hkept e he
    obtain ⟨t, ht', ht⟩ := hkept.elements e he
    exact ⟨t, ht', ht.resolve_right hroot⟩

/-! ## Segments -/

/-- Of the symbols that a description finds, it finds those under the other options that are
kept. -/
def Widens (o o' : ResolveOptions) (c : Compilation) (d : Description) : Prop :=
  ∀ s, c.Issued s → s ∈ finds o d [] c → (s ∈ finds o' d [] c ↔ Kept o o' c d s)

/-- A segment that finds a symbol in the one that it hangs off. -/
theorem widens_hosted {fits : ResolveOptions → SymbolId → SymbolId → Prop}
    (hfinds : ∀ o s, c.Issued s →
      (s ∈ finds o d [] c ↔ ∃ p ∈ finds o container [] c, fits o p s))
    (hhost : ∀ o p s, fits o p s → c.Issued p ∧ host c d s = some (container, p))
    (hkept : ∀ p s, fits o p s → (fits o' p s ↔ KeptAt o o' c d s))
    (hcontainer : Widens o o' c container) : Widens o o' c d := by
  intro s hs hmem
  obtain ⟨p, hp, hfits⟩ := (hfinds o s hs).mp hmem
  obtain ⟨hissued, howner⟩ := hhost o p s hfits
  rw [kept_iff_of_host howner, ← hkept p s hfits, ← hcontainer p hissued hp, hfinds o' s hs]
  constructor
  · rintro ⟨p', hp', hfits'⟩
    obtain rfl : p = p' := by
      simpa using howner.symm.trans (hhost o' p' s hfits').2
    exact ⟨hfits', hp'⟩
  · rintro ⟨hfits', hp'⟩
    exact ⟨p, hp', hfits'⟩

/-- A segment that hangs off nothing and does not depend on how names compare. -/
theorem widens_of_eq (hfinds : finds o' d [] c = finds o d [] c) (hhost : ∀ s, host c d s = none)
    (helements : d.elements = [])
    (hlocal : ∀ owner name ordinal, d ≠ .localVariable owner name ordinal) : Widens o o' c d := by
  intro s _ hmem
  rw [hfinds, kept_iff_of_none (hhost s)]
  exact iff_of_true hmem (keptAt_of_plain helements hlocal)

/-- A segment that looks up a name among what its container lists. -/
theorem widens_lookup {kind : SymbolKind} {name : String} (more : SymbolId → Prop)
    (hwider : o.Wider o')
    (hfinds : ∀ o s, c.Issued s → (s ∈ finds o d [] c ↔ ∃ p ∈ finds o container [] c,
      c.Holds kind p s ∧ o.namesMatch (c.entry s).name name = true ∧ more s))
    (hhost : ∀ p s, c.Holds kind p s → host c d s = some (container, p))
    (helements : d.elements = [])
    (hlocal : ∀ owner name ordinal, d ≠ .localVariable owner name ordinal)
    (hcontainer : Widens o o' c container) : Widens o o' c d := by
  refine widens_hosted hfinds (fun o p s hfits => ⟨hfits.1.issued, hhost p s hfits.1⟩) ?_ hcontainer
  rintro p s ⟨hholds, hnamed, hmore⟩
  exact iff_of_true ⟨hholds, hwider _ _ hnamed, hmore⟩ (keptAt_of_plain helements hlocal)

/-- A segment that looks up a name and an array of types. -/
theorem widens_signature {kind : SymbolKind} {name : String} (more : SymbolId → Prop)
    (hwider : o.Wider o')
    (hfinds : ∀ o s, c.Issued s → (s ∈ finds o d [] c ↔ ∃ p ∈ finds o container [] c,
      c.Holds kind p s ∧ o.namesMatch (c.entry s).name name = true ∧ more s ∧
        Reads o c d.elements (d.within s) (c.signatureAt s)))
    (hhost : ∀ p s, c.Holds kind p s → host c d s = some (container, p))
    (hroot : ∀ s, ¬ StandsIn c d s)
    (hlocal : ∀ owner name ordinal, d ≠ .localVariable owner name ordinal)
    (hcontainer : Widens o o' c container) : Widens o o' c d := by
  refine widens_hosted hfinds (fun o p s hfits => ⟨hfits.1.issued, hhost p s hfits.1⟩) ?_ hcontainer
  rintro p s ⟨hholds, hnamed, hmore, hread⟩
  rw [← keptAt_iff_reads hread (hroot s) hlocal]
  constructor
  · exact fun hfits => hfits.2.2.2
  · exact fun hread' => ⟨hholds, hwider _ _ hnamed, hmore, hread'⟩

section Found

variable (h : c.Orderly)
include h

/-- A segment that looks up nothing but a name. -/
theorem widens_named {kind : SymbolKind} {name : String} (hwider : o.Wider o')
    (hfinds : ∀ o s, c.Issued s → (s ∈ finds o d [] c ↔ ∃ p ∈ finds o container [] c,
      c.Holds kind p s ∧ o.namesMatch (c.entry s).name name = true))
    (hhost : ∀ s, host c d s = some (container, c.outerAt s)) (helements : d.elements = [])
    (hlocal : ∀ owner name ordinal, d ≠ .localVariable owner name ordinal)
    (hcontainer : Widens o o' c container) : Widens o o' c d :=
  widens_lookup (fun _ => True) hwider (fun o s hs => by simpa using hfinds o s hs)
    (fun p s hholds => by rw [hhost, h.outerAt_eq hholds]) helements hlocal hcontainer

/-- A segment that looks up a local by its number among those of its name. -/
theorem widens_localVariable {name : String} {ordinal : Nat} (hwider : o.Wider o')
    (hcontainer : Widens o o' c container) :
    Widens o o' c (.localVariable container (.ok name) (.ok ordinal)) := by
  refine widens_hosted (fun o s hs => mem_localVariable_iff h hs)
    (fun o p s hfits => ⟨hfits.1.issued, by rw [host, h.outerAt_eq hfits.1]⟩) ?_ hcontainer
  rintro p s ⟨hholds, hplace⟩
  have hnodup : (c.membersAt .localVariable p).Nodup :=
    (h.owned.nodup p hholds.issued .member).filter _
  have hsame := getElem?_filter_iff_of_imp hnodup
    (q := fun a => o'.namesMatch (c.entry a).name name) (fun a => hwider _ _) hplace
  constructor
  · rintro ⟨-, hplace'⟩
    refine ⟨fun e he => (by cases he), fun owner name' ordinal' hd => ?_⟩
    cases hd
    rw [h.outerAt_eq hholds]
    exact hsame.mp hplace'
  · intro hkept
    have hlocals := hkept.locals container name (.ok ordinal) rfl
    rw [h.outerAt_eq hholds] at hlocals
    exact ⟨hholds, hsame.mpr hlocals⟩

/-- A segment that builds a type over another one. -/
theorem widens_built {element : Description} (shape : SymbolId → Shape)
    (hfinds : ∀ o s, c.Issued s → (s ∈ finds o d [] c ↔ ∃ p ∈ finds o element [] c,
      c.table.interned.lookup (shape p) = some s))
    (hsymbols : ∀ p, p ∈ (shape p).symbols) (htype : ∀ p, ((shape p).head c.table).type = some p)
    (hhost : ∀ s, host c d s = some (element, c.typeAt s)) (helements : d.elements = [])
    (hlocal : ∀ owner name ordinal, d ≠ .localVariable owner name ordinal)
    (helement : Widens o o' c element) : Widens o o' c d := by
  refine widens_hosted hfinds (fun o p s hlookup => ?_) (fun p s hlookup => ?_) helement
  · refine ⟨h.discerns.stem.grounded _ _ hlookup p (hsymbols p), ?_⟩
    rw [hhost, h.typeAt_eq hlookup (htype p)]
  · exact iff_of_true hlookup (keptAt_of_plain helements hlocal)

/-- A segment that constructs a type. -/
theorem widens_constructed {name : String} {arity : Nat} {presence : Presence}
    (hpresent : presence.isAbsent = false) (hwider : o.Wider o')
    (hcontainer : Widens o o' c container) :
    Widens o o' c (.namedType container (.ok name) (.ok arity) (.ok presence) ds) := by
  refine widens_hosted (fun o s hs => mem_constructed_iff h hs hpresent) ?_ ?_ hcontainer
  · rintro o p s ⟨g, items, hholds, -, -, -, -, hlookup⟩
    refine ⟨hholds.issued, ?_⟩
    rw [host, h.definitionAt_constructed hlookup, h.outerAt_eq hholds]
  · rintro p s ⟨g, items, hholds, hnamed, harity, hread, hcheck, hlookup⟩
    rw [← keptAt_iff_reads (d := .namedType container _ _ _ ds) hread id (by simp)]
    constructor
    · rintro ⟨g', items', -, -, -, hread', -, hlookup'⟩
      cases h.discerns.apart _ _ s hlookup hlookup'
      exact hread'
    · exact fun hread' => ⟨g, items, hholds, hwider _ _ hnamed, harity, hread', hcheck, hlookup⟩

/-- A segment that asks for a shape over its array. -/
theorem widens_asksFor {shape : List SymbolId → Shape} {sites : List Location}
    {presence : Presence} {fallback : Fallback}
    (hasks : AsksFor d d.elements shape sites presence fallback)
    (hroot : ∀ s, StandsIn c d s ↔ fallback = .universal ∧ s = c.universal)
    (hhost : ∀ s, host c d s = none) (hwithin : ∀ s, d.within s = [])
    (hlocal : ∀ owner name ordinal, d ≠ .localVariable owner name ordinal) :
    Widens o o' c d := by
  intro s hs hmem
  rw [hasks.mem_iff h hs] at hmem ⊢
  rw [kept_iff_of_none (hhost s)]
  obtain ⟨hsites, ⟨hfallback, hstands, hrefused, heach⟩ | ⟨items, hread, hbuilt, hlookup⟩⟩ := hmem
  · -- the root type is found for anything that comes to something
    have hs' : StandsIn c d s := (hroot s).mpr ⟨hfallback, hstands⟩
    constructor
    · rintro ⟨-, ⟨-, -, -, heach'⟩ | ⟨items, hread, hbuilt, -⟩⟩
      · refine ⟨fun e he => ?_, fun _ _ _ hd => absurd hd (hlocal _ _ _)⟩
        obtain ⟨t, ht⟩ := heach' e he
        exact ⟨t, by rwa [hwithin], .inr hs'⟩
      · exact absurd (hrefused items hread.length_eq.symm) hbuilt
    · intro hkept
      refine ⟨hsites, .inl ⟨hfallback, hstands, hrefused, fun e he => ?_⟩⟩
      obtain ⟨t, ht, -⟩ := hkept.elements e he
      rw [hwithin] at ht
      exact ⟨t, ht⟩
  · -- what was built is found for its own items only, and it is not the root type
    have hroot' : s ≠ c.universal := fun heq => h.root _ (heq ▸ hlookup)
    have hs' : ¬ StandsIn c d s := fun hstands => hroot' ((hroot s).mp hstands).2
    rw [← hwithin s] at hread
    rw [← keptAt_iff_reads hread hs' hlocal, hwithin]
    constructor
    · rintro ⟨-, ⟨-, hstands, -, -⟩ | ⟨items', hread', -, hlookup'⟩⟩
      · exact absurd hstands hroot'
      · have hsame := congrArg Shape.symbols (h.discerns.apart _ _ s hlookup hlookup')
        rw [hasks.symbols, hasks.symbols] at hsame
        exact hsame ▸ hread'
    · exact fun hread' => ⟨hsites, .inr ⟨items, hread', hbuilt, hlookup⟩⟩

/-- A symbol that a description finds is found under the wider options exactly if it is kept. -/
theorem locate_widens (hwider : o.Wider o') (hshaped : d.Shaped n) : Widens o o' c d := by
  have houter : ∀ {kind p s}, c.Holds kind p s → c.outerAt s = p := fun hholds =>
    h.outerAt_eq hholds
  induction hshaped with
  | global => exact widens_of_eq rfl (fun _ => rfl) rfl (by simp)
  | typeParameterOrdinal _ _ => exact widens_of_eq rfl (fun _ => rfl) rfl (by simp)
  | nameSpace _ ih =>
      exact widens_named h hwider (fun o s hs => mem_nameSpace_iff h hs) (fun _ => rfl) rfl
        (by simp) ih
  | typeParameter _ ih =>
      exact widens_named h hwider (fun o s hs => mem_typeParameter_iff h hs) (fun _ => rfl) rfl
        (by simp) ih
  | field _ ih =>
      exact widens_named h hwider (fun o s hs => mem_field_iff h hs) (fun _ => rfl) rfl (by simp) ih
  | parameter _ ih =>
      exact widens_named h hwider (fun o s hs => mem_parameter_iff h hs) (fun _ => rfl) rfl
        (by simp) ih
  | localVariable _ _ ih => exact widens_localVariable h hwider ih
  | @arrayType _ element rank _ _ ih =>
      exact widens_built h (.array · (UInt64.ofNat rank))
        (fun o s hs => mem_arrayType_iff h hs) (fun p => by simp [Shape.symbols]) (fun _ => rfl)
        (fun _ => rfl) rfl (by simp) ih
  | @pointerType _ pointee _ ih =>
      exact widens_built h .pointer
        (fun o s hs => mem_pointerType_iff h hs) (fun p => by simp [Shape.symbols]) (fun _ => rfl)
        (fun _ => rfl) rfl (by simp) ih
  | @tupleType _ presence types names locations _ _ _ _ =>
      exact widens_asksFor h (asksFor_tupleType presence types names locations)
        (fun s => by simp [StandsIn]) (fun _ => rfl) (fun _ => rfl) (by simp)
  | @anonymousType _ presence types names readOnly locations _ _ _ _ _ =>
      exact widens_asksFor h (asksFor_anonymousType presence types names readOnly locations)
        (fun s => by simp [StandsIn]) (fun _ => rfl) (fun _ => rfl) (by simp)
  | @namedType _ container name arity presence arguments _ _ hheader _ ih _ =>
      cases habsent : presence.isAbsent with
      | false => exact widens_constructed h habsent hwider ih
      | true =>
          -- a definition has no type arguments
          obtain rfl : presence = .absent := by simpa [Presence.isAbsent] using habsent
          obtain rfl : arguments = [] := by
            simpa [Presence.admits, List.length_eq_zero_iff] using hheader.admits
          refine widens_lookup _ hwider (fun o s hs => mem_definition_iff h hs)
            (fun p s hholds => ?_) rfl (by simp) ih
          rw [host, h.definitionAt_eq hholds, houter hholds]
  | @property _ container name presence parameters _ _ _ ih _ =>
      exact widens_signature (fun _ => True) hwider
        (fun o s hs => by simpa [Description.elements, within] using mem_property_iff h hs)
        (fun p s hholds => by rw [host, houter hholds]) (fun _ => id) (by simp) ih
  | @method _ container name arity presence parameters _ _ _ _ ih _ =>
      exact widens_signature _ hwider (fun o s hs => mem_method_iff h hs)
        (fun p s hholds => by rw [host, houter hholds]) (fun _ => id) (by simp) ih

end Found

end Description

/-! ## Outcomes -/

theorem Resolution.Proper.candidates_ne_nil {α : Type} {r : Resolution α} (h : r.Proper) :
    r.candidates ≠ [] := by
  cases r with
  | symbol s => exact cons_ne_nil _ _
  | ambiguous several =>
      rintro rfl
      cases h.1

/-- An outcome has several candidates, and so is no failure, if it has each of them. -/
theorem Decode.subset_candidates_iff {resolved : Resolved} {found : List SymbolId}
    (hfound : found ≠ []) : (∃ r, resolved = .ok r ∧ found ⊆ r.candidates) ↔
      ∀ s ∈ found, s ∈ Decode.candidates resolved := by
  constructor
  · rintro ⟨r, rfl, hsubset⟩ s hs
    exact hsubset hs
  · intro heach
    obtain ⟨s, hs⟩ := exists_mem_of_ne_nil found hfound
    obtain ⟨r, hr, -⟩ := Decode.mem_candidates.mp (heach s hs)
    exact ⟨r, hr, fun s hs => by simpa [hr, Decode.candidates] using heach s hs⟩

/-! ## Keys -/

namespace Key

variable {k : Key} {o : ResolveOptions} {scene scene' : Scene}

/-- Only keys of the supported version resolve to anything. -/
theorem version_of_ok {resolved : Resolved} (hresolved : (k.resolve o scene).1 = .ok resolved) :
    k.version = currentVersion := by
  by_contra hversion
  simp only [resolve, resolveIn, checkVersion, if_neg hversion] at hresolved
  cases hresolved

/-- Ignoring case widens. What a key resolved to when case mattered, it resolves to when case is
ignored afterwards, and to all of it, exactly if each candidate is kept: in the segment of the key,
and in each that it hangs off, every element of the array has the same first candidate as before (or
still has one, where the root type stands in for what is built of them), and no local newly matches
the name of the local found that comes before it. -/
theorem ignoreCase_widens (hmade : scene.compilation.Made fun t r => r.Issued t)
    (hcase : o.ignoreCase = false) {r : Resolution SymbolId}
    (hr : (k.resolve o scene).1 = .ok (.ok r))
    (hafter : scene'.compilation = (k.resolve o scene).2.compilation) :
    (∃ r', (k.resolve { o with ignoreCase := true } scene').1 = .ok (.ok r') ∧
        r.candidates ⊆ r'.candidates) ↔
      ∀ s ∈ r.candidates, Description.Kept o { o with ignoreCase := true } scene'.compilation
        (k.scanned o).1 s := by
  have hclosed := hmade.closed
  have hversion := version_of_ok hr
  have husable := usable_of_ok hversion hclosed hr
  obtain ⟨houtcome, hreached⟩ := resolve_eq (o := o) hversion hclosed
  obtain ⟨hleads, hclosed', hagain⟩ := k.resolve_again o hclosed
  rw [← hafter] at hleads hclosed'
  have horderly : scene'.compilation.Orderly := hmade.orderly.later hleads hclosed'
  -- reading the frames has no use for the way names compare, so that the same segments are located
  obtain ⟨o', ho'⟩ : ∃ o', o' = { o with ignoreCase := true } := ⟨_, rfl⟩
  have hscanned : k.scanned o' = k.scanned o := scanned_congr (by rw [ho']) (by rw [ho'])
  have husable' : k.defect? o' = none :=
    (defect?_congr (by rw [ho']) (by rw [ho'])).trans husable
  have hwider : o.Wider o' := ho' ▸ o.wider_ignoreCase hcase
  have hlocated : (k.resolve o scene').1 =
      .ok ((k.scanned o).1.locate o [] scene'.compilation).1 := by
    rw [(resolve_eq hversion hclosed').1, outcome, husable]
    rfl
  have hlocated' : (k.resolve o' scene').1 =
      .ok ((k.scanned o).1.locate o' [] scene'.compilation).1 := by
    rw [(resolve_eq hversion hclosed').1, outcome, husable', hscanned]
    rfl
  -- where case matters, the key resolves again to what it resolved to
  have hr' : ((k.scanned o).1.locate o [] scene'.compilation).1 = .ok r :=
    Except.ok.inj (hlocated.symm.trans ((hagain scene' (hafter ▸ .refl _)).trans hr))
  have hfinds : Description.finds o (k.scanned o).1 [] scene'.compilation = r.candidates := by
    rw [Description.finds, hr']
    rfl
  have hproper : r.Proper :=
    Description.locate_proper horderly.discerns (Description.issued_nil _) hr'
  have hissued : ∀ s ∈ r.candidates, scene'.compilation.Issued s := by
    rw [houtcome, outcome, husable] at hr
    rw [hafter, hreached husable, reached]
    exact (Description.locate_closed o (k.scanned o).1 [] scene.compilation hclosed
      (Description.issued_nil _)).2 r (Except.ok.inj hr)
  rw [← ho', hlocated']
  simp only [Except.ok.injEq]
  rw [Decode.subset_candidates_iff hproper.candidates_ne_nil]
  refine forall₂_congr fun s hs => ?_
  exact Description.locate_widens horderly hwider (shaped_scanned husable).1 s (hissued s hs)
    (hfinds.symm ▸ hs)

/-- The property `P` is found again, along with the property `p`: its parameter is still taken for
an `A`, whatever a class in another namespace is called. -/
theorem ignoreCase_widens_rivals :
    ofSymbol Draft.rivalsElsewhere.finish ⟨7⟩ = .ok Draft.rivalKey ∧
      (Draft.rivalKey.resolve {} { compilation := Draft.rivalsElsewhere.finish }).1 =
        .ok (.ok (.symbol ⟨7⟩)) ∧
      ∃ r, (Draft.rivalKey.resolve { ignoreCase := true }
          (Draft.rivalKey.resolve {} { compilation := Draft.rivalsElsewhere.finish }).2).1 =
            .ok (.ok r) ∧
        ⟨7⟩ ∈ r.candidates ∧ r = .ambiguous [⟨7⟩, ⟨9⟩] := by
  have hmade := Compilation.Made.finish Draft.made_rivalsElsewhere
  have hfound : (Draft.rivalKey.resolve {} { compilation := Draft.rivalsElsewhere.finish }).1 =
      .ok (.ok (.symbol ⟨7⟩)) := by decide
  obtain ⟨scene, hscene⟩ : ∃ scene,
      scene = (Draft.rivalKey.resolve {} { compilation := Draft.rivalsElsewhere.finish }).2 :=
    ⟨_, rfl⟩
  -- the parameter type, the class that has the property and the global namespace
  have hparameter : ∀ o : ResolveOptions, o = {} ∨ o = { ignoreCase := true } →
      (Description.finds o (.namedType .global (.ok "A") (.ok 0) (.ok .absent) []) []
        scene.compilation).head? = some ⟨5⟩ := by
    rw [hscene]
    rintro o (rfl | rfl) <;> decide
  have hscanned : (Draft.rivalKey.scanned {}).1 =
      .property (.namedType .global (.ok "C") (.ok 0) (.ok .absent) []) (.ok "P") (.ok .populated)
        [.namedType .global (.ok "A") (.ok 0) (.ok .absent) []] := by rfl
  have hkept : Description.Kept {} { ignoreCase := true } scene.compilation
      (Draft.rivalKey.scanned {}).1 ⟨7⟩ := by
    have howner : scene.compilation.outerAt ⟨7⟩ = ⟨6⟩ := by rw [hscene]; decide
    have hclass : scene.compilation.outerAt (scene.compilation.definitionAt ⟨6⟩) = ⟨0⟩ := by
      rw [hscene]
      decide
    rw [hscanned, Description.kept_iff_of_host rfl, howner, Description.kept_iff_of_host rfl,
      hclass, Description.kept_iff_of_none rfl]
    refine ⟨⟨fun e he => ?_, fun _ _ _ hd => by cases hd⟩, ?_, ?_⟩
    · rw [List.mem_singleton.mp he]
      exact ⟨⟨5⟩, hparameter _ (.inr rfl), .inl (hparameter _ (.inl rfl))⟩
    · exact Description.keptAt_of_plain rfl (by simp)
    · exact Description.keptAt_of_plain rfl (by simp)
  obtain ⟨r, hr, hsubset⟩ := (ignoreCase_widens (hmade.mono fun _ _ h => h.issued) rfl hfound
    (congrArg Scene.compilation hscene)).mpr fun s hs => (List.mem_singleton.mp hs) ▸ hkept
  have hboth : (Draft.rivalKey.resolve { ignoreCase := true } scene).1 =
      .ok (.ok (.ambiguous [⟨7⟩, ⟨9⟩])) := by
    rw [hscene]
    decide +kernel
  rw [← hscene]
  exact ⟨by decide, hfound, r, hr, hsubset (List.mem_singleton.mpr rfl),
    Except.ok.inj (Except.ok.inj (hr.symm.trans hboth))⟩

/-- A property can be lost: where a class `a` comes before the class `A`, the parameter of `P` is
taken for an `a` when case is ignored. And a local can be lost to another one: ignoring case, `v` is
the first of the locals `V`. -/
theorem ignoreCase_loses :
    (Draft.rivals "a").finish.Made Request.Contained ∧
      (ofSymbol (Draft.rivals "a").finish ⟨8⟩ = .ok Draft.rivalKey ∧
        (Draft.rivalKey.resolve {} { compilation := (Draft.rivals "a").finish }).1 =
          .ok (.ok (.symbol ⟨8⟩)) ∧
        (Draft.rivalKey.resolve { ignoreCase := true }
            (Draft.rivalKey.resolve {} { compilation := (Draft.rivals "a").finish }).2).1 =
          .ok (.error (.notFound "PropertySymbolKey" "P"))) ∧
      ∃ k, ofSymbol (Draft.rivals "a").finish ⟨14⟩ = .ok k ∧
        (k.resolve {} { compilation := (Draft.rivals "a").finish }).1 = .ok (.ok (.symbol ⟨14⟩)) ∧
        (k.resolve { ignoreCase := true }
            (k.resolve {} { compilation := (Draft.rivals "a").finish }).2).1 =
          .ok (.ok (.symbol ⟨13⟩)) := by
  refine ⟨.finish (Draft.made_rivals (by simp)), by decide,
    ofFrames [.kind .localVariable, .kind .method, .kind .namedType, .kind .nameSpace, .bool true,
      .text (some "C"), .int 0, .array .absent 0, .text (some "m"), .int 0, .array .empty 0,
      .text (some "V"), .int 0], ?_⟩
  decide

end Key
end Moniker
