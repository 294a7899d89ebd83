import Moniker.Proofs.Finding
import Moniker.Proofs.Pairing

/-!
# Symbols from before, in any branch

Wherever in a branch of a compilation a description is located, a symbol from before is its first
candidate there if it is anywhere (`Description.head?_finds_iff`), for the runs come to twins and
symbols from before are their own twins. So whether an array comes to symbols from before can be
told by looking at its elements one by one, in one state (`Description.comeTo_iff`).
-/

namespace Moniker

open List Relator

namespace Compilation

variable {c c' : Compilation} {kind : SymbolKind} {p s : SymbolId}

/-- The symbols of a kind that are listed under a symbol. Parameters and type parameters have lists
of their own, which are not looked through for the kind. -/
def listed (c : Compilation) (kind : SymbolKind) (p : SymbolId) : List SymbolId :=
  match kind with
  | .parameter => (c.entry p).parameters
  | .typeParameter => (c.entry p).typeParameters
  | kind => c.membersAt kind p

/-- Those listed under a symbol are among its belongings. -/
theorem belongings_of_listed (hs : s ∈ c.listed kind p) : s ∈ (c.entry p).belongings kind.role := by
  unfold listed at hs
  split at hs
  · exact hs
  · exact hs
  · next hparameter htypeParameter =>
      have hrole : kind.role = .member := by
        cases kind <;> first | rfl | exact absurd rfl hparameter | exact absurd rfl htypeParameter
      rw [hrole]
      exact membersAt_subset hs

/-- Belongings of the kind are listed. -/
theorem listed_of_belongings (hs : s ∈ (c.entry p).belongings kind.role)
    (hkind : (c.entry s).kind = kind) : s ∈ c.listed kind p := by
  cases kind <;> first | exact hs | exact mem_membersAt.mpr ⟨hs, hkind⟩

theorem Grows.listed (h : c.Grows c') (hclosed : c.Closed) (kind : SymbolKind) (hp : c.Issued p) :
    c'.listed kind p = c.listed kind p := by
  unfold Compilation.listed
  split <;> simp only [h.entry hp, h.membersAt hclosed hp]

end Compilation

namespace Description

open Compilation

variable {c₀ c c' : Compilation} {o : ResolveOptions} {methods : List SymbolId} {d : Description}
  {ds : List Description} {s t : SymbolId} {ts : List SymbolId}

/-- In the state, each of the symbols is the first candidate for the description at its place. -/
def Reads (o : ResolveOptions) (c : Compilation) (ds : List Description) (methods : List SymbolId)
    (ts : List SymbolId) : Prop :=
  Forall₂ (fun d t => (finds o d methods c).head? = some t) ds ts

theorem length_locateEach (o : ResolveOptions) (ds : List Description) (methods : List SymbolId)
    (c : Compilation) : (locateEach o ds methods c).1.length = ds.length := by
  induction ds generalizing c with
  | nil => rfl
  | cons d rest ih => simp [locateEach, ih]

theorem ComeTo.length_eq (h : ComeTo o ds methods c ts) : ts.length = ds.length := by
  rw [← length_locateEach o ds methods c, h, length_map]

variable (hstem : c₀.Stem) (h : c₀.Descends c) (hmethods : ∀ m ∈ methods, c₀.Issued m)
include hstem h hmethods

theorem locate_branches (o : ResolveOptions) (d : Description) (h' : c₀.Descends c') :
    c₀.Matched c c' Corresponds (locate o d methods c) (locate o d methods c') :=
  locate_matched o c₀ d ⟨hstem, h, h'⟩ (forall₂_same.mpr fun m hm => .old (hmethods m hm))

/-- Locating leads further along the branch. -/
theorem descends_after (o : ResolveOptions) (d : Description) : c₀.Descends (after o d methods c) :=
  (locate_branches hstem h hmethods o d h).branches.left

theorem descends_afterEach (o : ResolveOptions) (ds : List Description) :
    c₀.Descends (afterEach o ds methods c) :=
  (locateEach_matched (fun d _ => locate_matched o c₀ d) ⟨hstem, h, h⟩
    (forall₂_same.mpr fun m hm => .old (hmethods m hm))).branches.left

/-- What is found in a run is its own twin: it was there before, or it was built on the way. -/
theorem twin_of_mem_finds (hs : s ∈ finds o d methods c) :
    c₀.Twin (after o d methods c) (after o d methods c) s s := by
  have hmatched := locate_branches hstem h hmethods o d h
  obtain ⟨r, hr, hs⟩ := Decode.mem_candidates.mp hs
  have hrelated := hmatched.related
  rw [hr] at hrelated
  cases hrelated with
  | ok hrr => exact forall₂_same.mp hrr.candidates s hs

variable (h' : c₀.Descends c')
include h'

/-- A symbol from before is the first candidate for a description here if it is elsewhere. -/
theorem head?_finds_iff (ht : c₀.Issued t) :
    (finds o d methods c).head? = some t ↔ (finds o d methods c').head? = some t := by
  have hmatched := locate_branches hstem h hmethods o d h'
  have hunique := hmatched.branches.unique
  have htwin : c₀.Twin (after o d methods c) (after o d methods c') t t := .old ht
  rw [finds, finds, ← Decode.first_eq_ok, ← Decode.first_eq_ok]
  generalize Decode.first (locate o d methods c).1 = x, Decode.first (locate o d methods c').1 = y,
    first_related hmatched.related = hxy
  cases hxy with
  | error reason => exact Iff.rfl
  | @ok a b hab =>
      constructor
      · rintro ⟨⟩
        rw [hunique.2 hab htwin]
      · rintro ⟨⟩
        rw [hunique.1 hab htwin]

/-- There is a candidate for a description here if there is one elsewhere. -/
theorem exists_head?_iff :
    (∃ t, (finds o d methods c).head? = some t) ↔ ∃ t, (finds o d methods c').head? = some t := by
  have hmatched := locate_branches hstem h hmethods o d h'
  simp only [finds, ← Decode.first_eq_ok]
  generalize Decode.first (locate o d methods c).1 = x, Decode.first (locate o d methods c').1 = y,
    first_related hmatched.related = hxy
  cases hxy with
  | error reason => exact Iff.rfl
  | @ok a b hab => exact iff_of_true ⟨a, rfl⟩ ⟨b, rfl⟩

/-- An array comes to symbols from before if each is the first candidate for its description,
wherever that is located. -/
theorem comeTo_iff (hts : ∀ t ∈ ts, c₀.Issued t) :
    ComeTo o ds methods c ts ↔ Reads o c' ds methods ts := by
  induction ds generalizing c ts with
  | nil =>
      cases ts with
      | nil => simp [ComeTo, locateEach, Reads]
      | cons t ts => simp [ComeTo, locateEach, Reads]
  | cons d rest ih =>
      cases ts with
      | nil => simp [ComeTo, locateEach, Reads]
      | cons t ts =>
          have hts' : ∀ t' ∈ ts, c₀.Issued t' := fun t' ht' => hts t' (mem_cons_of_mem t ht')
          have hrest := ih (descends_after hstem h hmethods o d) hts'
          rw [ComeTo, Reads] at hrest
          rw [Reads, forall₂_cons, ← hrest, ← head?_finds_iff hstem h hmethods h' (hts t (by simp)),
            finds, ← Decode.first_eq_ok, ComeTo]
          simp only [locateEach, map_cons, cons.injEq]
          exact Iff.rfl

/-- An array comes to something if there is a candidate for each of its elements. -/
theorem exists_comeTo_iff :
    (∃ items, ComeTo o ds methods c items) ↔
      ∀ d ∈ ds, ∃ t, (finds o d methods c').head? = some t := by
  induction ds generalizing c with
  | nil => simp [ComeTo, locateEach]
  | cons d rest ih =>
      have hrest := ih (descends_after hstem h hmethods o d)
      rw [forall_mem_cons, ← hrest, ← exists_head?_iff hstem h hmethods h']
      simp only [ComeTo, locateEach, finds, ← Decode.first_eq_ok]
      constructor
      · rintro ⟨items, hitems⟩
        cases items with
        | nil => cases hitems
        | cons t ts =>
            simp only [map_cons, cons.injEq] at hitems
            exact ⟨⟨t, hitems.1⟩, ts, hitems.2⟩
      · rintro ⟨⟨t, ht⟩, ts, hts⟩
        exact ⟨t :: ts, by simp only [map_cons, cons.injEq]; exact ⟨ht, hts⟩⟩

end Description
end Moniker
