import Mathlib.Data.Finset.Prod
import Mathlib.Data.Nat.Find
import Moniker.Key
import Moniker.Proofs.Emission
import Moniker.Proofs.Growth
import Moniker.Proofs.Nesting
import Moniker.Proofs.Terminating

/-!
# How deep descriptions are

`Description.ofSymbol` gives up at `Description.depthBound`. It loses nothing by that: whether a
description ends depends on its symbol and on which methods are being described, and not on their
order. On a shortest path inwards that is too deep for a smaller bound no symbol comes up twice
among the same methods, and methods are only added along it, so such a path is not longer than the
bound (`Description.exists_path`, `Description.ofSymbol_eq_ok`).
-/

namespace Moniker

namespace Compilation

variable {c : Compilation} {methods methods' : List SymbolId} {s : SymbolId}

/-- The methods at hand are handed on to what is described inside. -/
theorem nestedAt_eq_map (methods : List SymbolId) (s : SymbolId) (category : Category) :
    c.nestedAt methods s category =
      (c.nestedAt [] s category).map fun p => (methods ++ p.1, p.2) := by
  cases category <;> simp [nestedAt, Function.comp_def]
  all_goals split <;> simp

/-- Only the symbol itself is added to the methods. -/
theorem methods_nestedAt {category : Category} {p : List SymbolId × SymbolId}
    (hp : p ∈ c.nestedAt methods s category) : p.1 = methods ∨ p.1 = methods ++ [s] := by
  cases category with
  | namedType =>
      rcases List.mem_cons.mp hp with rfl | hp
      · exact .inl rfl
      · split at hp
        · cases hp
        · obtain ⟨t, -, rfl⟩ := List.mem_map.mp hp
          exact .inl rfl
  | property | method =>
      rcases List.mem_cons.mp hp with rfl | hp
      · exact .inl rfl
      · obtain ⟨t, -, rfl⟩ := List.mem_map.mp hp
        simp
  | nameSpace | tupleType | anonymousType =>
      obtain ⟨t, -, rfl⟩ := List.mem_map.mp hp
      exact .inl rfl
  | typeParameterOrdinal => cases hp
  | arrayType | pointerType | typeParameter | field | parameter | localVariable =>
      obtain rfl := List.mem_singleton.mp hp
      exact .inl rfl

theorem categoryAt_congr (h : ∀ m, m ∈ methods ↔ m ∈ methods') :
    c.categoryAt methods s = c.categoryAt methods' s := by
  unfold categoryAt
  simp only [h]

end Compilation

namespace Description

variable {c : Compilation} {methods methods' : List SymbolId} {s : SymbolId} {n m : Nat}
  {d : Description}

/-- Whether the symbol has a description at most so deep. -/
def Finishes (c : Compilation) (n : Nat) (methods : List SymbolId) (s : SymbolId) : Prop :=
  ∃ d, ofSymbolWithin c n methods s = .ok d

theorem not_finishes_zero : ¬ Finishes c 0 methods s := fun ⟨_, hd⟩ => by cases hd

theorem finishes_succ_iff (h : c.Closed) (hs : c.Issued s) :
    Finishes c (n + 1) methods s ↔ ∀ p ∈ inner c methods s, Finishes c n p.1 p.2 := by
  constructor
  · rintro ⟨d, hd⟩ p hp
    obtain ⟨ds, hds, -⟩ := (ofSymbolWithin_eq_ok h hs).mp hd
    obtain ⟨d', -, hd'⟩ := exists_left hds.flip hp
    exact ⟨d', hd'⟩
  · intro hinner
    obtain ⟨ds, hds⟩ := exists_forall₂ hinner
    exact ⟨_, (ofSymbolWithin_eq_ok h hs).mpr ⟨ds, hds, rfl⟩⟩

theorem Finishes.mono (h : c.Closed) (hs : c.Issued s) (hfinishes : Finishes c n methods s)
    (hle : n ≤ m) :
    Finishes c m methods s :=
  hfinishes.imp fun _ hd => ofSymbolWithin_mono h hs hd hle

/-- The order of the methods, and how often each is among them, is no matter. -/
theorem Finishes.congr (h : c.Closed) (hs : c.Issued s) (hfinishes : Finishes c n methods s)
    (hmethods : ∀ m, m ∈ methods ↔ m ∈ methods') : Finishes c n methods' s := by
  induction n generalizing methods methods' s with
  | zero => exact absurd hfinishes not_finishes_zero
  | succ n ih =>
      refine (finishes_succ_iff h hs).mpr fun p hp => ?_
      have hp' : p ∈ c.nestedAt methods' s (c.categoryAt methods s) := by
        rwa [Compilation.categoryAt_congr hmethods]
      rw [Compilation.nestedAt_eq_map] at hp'
      obtain ⟨q, hmem, rfl⟩ := List.mem_map.mp hp'
      have hq' : (methods ++ q.1, q.2) ∈ inner c methods s := by
        rw [inner, Compilation.nestedAt_eq_map]
        exact List.mem_map.mpr ⟨q, hmem, rfl⟩
      have hq := (finishes_succ_iff h hs).mp hfinishes _ hq'
      exact ih (h.issued_nestedAt hs hp) hq fun m => by simp [hmethods m]

/-- Where a description that ends is too deep for a bound, there is a path inwards that is longer
than the bound. Each step of it is marked by its symbol and the number of its methods, and no two
marks agree. -/
theorem exists_path (h : c.Closed) (hs : c.Issued s) (hmethods : ∀ m ∈ methods, c.Issued m)
    (hdeep : ¬ Finishes c n methods s) (hfinishes : Finishes c (n + 1) methods s) :
    ∃ path : List (Nat × Nat), path.Nodup ∧ path.length = n + 1 ∧
      ∀ mark ∈ path, ∃ methods' s', mark = (methods'.toFinset.card, s'.index) ∧
        methods ⊆ methods' ∧ (∀ m ∈ methods', c.Issued m) ∧ c.Issued s' ∧
        Finishes c (n + 1) methods' s' := by
  induction n generalizing methods s with
  | zero =>
      refine ⟨[(methods.toFinset.card, s.index)], List.nodup_singleton _, rfl, fun mark hmark => ?_⟩
      exact ⟨methods, s, List.mem_singleton.mp hmark, List.Subset.refl _, hmethods, hs, hfinishes⟩
  | succ n ih =>
      obtain ⟨p, hp, hdeep'⟩ : ∃ p ∈ inner c methods s, ¬ Finishes c n p.1 p.2 := by
        have hnot := mt (finishes_succ_iff h hs).mpr hdeep
        push Not at hnot
        exact hnot
      have hfinishes' := (finishes_succ_iff h hs).mp hfinishes p hp
      have hgrows : methods ⊆ p.1 ∧ ∀ m ∈ p.1, c.Issued m := by
        rcases Compilation.methods_nestedAt hp with hp | hp <;> rw [hp]
        · exact ⟨List.Subset.refl _, hmethods⟩
        · refine ⟨List.subset_append_left _ _, fun m hm => ?_⟩
          rcases List.mem_append.mp hm with hm | hm
          · exact hmethods m hm
          · exact List.mem_singleton.mp hm ▸ hs
      obtain ⟨path, hnodup, hlength, hmarks⟩ :=
        ih (h.issued_nestedAt hs hp) hgrows.2 hdeep' hfinishes'
      refine ⟨(methods.toFinset.card, s.index) :: path,
        List.nodup_cons.mpr ⟨fun hmem => ?_, hnodup⟩,
        by rw [List.length_cons, hlength], fun mark hmark => ?_⟩
      · -- the same symbol among as many methods would be there among the same ones
        obtain ⟨methods', s', hmark, hsubset, -, -, hfinishes''⟩ := hmarks _ hmem
        obtain ⟨hcard, hindex⟩ := Prod.mk.injEq .. ▸ hmark
        have hsame : methods.toFinset = methods'.toFinset :=
          Finset.eq_of_subset_of_card_le (fun m hm => List.mem_toFinset.mpr
            (hsubset (hgrows.1 (List.mem_toFinset.mp hm)))) hcard.ge
        obtain rfl : s = s' := by
          cases s
          cases s'
          exact congrArg SymbolId.mk hindex
        refine hdeep (hfinishes''.congr h hs fun m => ?_)
        rw [← List.mem_toFinset, ← hsame, List.mem_toFinset]
      · rcases List.mem_cons.mp hmark with rfl | hmark
        · exact ⟨methods, s, rfl, List.Subset.refl _, hmethods, hs, hfinishes⟩
        · obtain ⟨methods', s', hmark, hsubset, hmethods', hs', hfinishes''⟩ := hmarks _ hmark
          exact ⟨methods', s', hmark, List.Subset.trans hgrows.1 hsubset, hmethods', hs',
            hfinishes''.mono h hs' (Nat.le_succ _)⟩

/-- The bound on depths is no restriction: what has a description at all has one within it. -/
theorem ofSymbol_eq_ok (h : c.Closed) (hs : c.Issued s) (hmethods : ∀ m ∈ methods, c.Issued m) :
    ofSymbol c methods s = .ok d ↔ ∃ n, ofSymbolWithin c n methods s = .ok d := by
  refine ⟨fun hd => ⟨_, hd⟩, fun ⟨n, hd⟩ => ?_⟩
  by_cases hle : n ≤ depthBound c
  · exact ofSymbolWithin_mono h hs hd hle
  -- the least depth at which there is a description is within the bound
  classical
  have hexists : ∃ n, Finishes c n methods s := ⟨n, d, hd⟩
  obtain ⟨least, hleast⟩ : ∃ least, Nat.find hexists = least + 1 := by
    cases hfind : Nat.find hexists with
    | zero => exact absurd (hfind ▸ Nat.find_spec hexists) not_finishes_zero
    | succ least => exact ⟨least, rfl⟩
  have hfinishes : Finishes c (least + 1) methods s := hleast ▸ Nat.find_spec hexists
  obtain ⟨path, hnodup, hlength, hmarks⟩ :=
    exists_path h hs hmethods (Nat.find_min hexists (hleast ▸ Nat.lt_succ_self least)) hfinishes
  have hsubset : path.toFinset ⊆ Finset.range (c.size + 1) ×ˢ Finset.range c.size := by
    intro mark hmark
    obtain ⟨methods', s', rfl, -, hmethods', hs', -⟩ := hmarks mark (List.mem_toFinset.mp hmark)
    refine Finset.mem_product.mpr ⟨Finset.mem_range.mpr (Nat.lt_succ_of_le ?_),
      Finset.mem_range.mpr hs'⟩
    rw [List.card_toFinset]
    exact Compilation.length_le_size (List.nodup_dedup _) fun m hm =>
      hmethods' m (List.mem_dedup.mp hm)
  have hcard := Finset.card_le_card hsubset
  rw [List.toFinset_card_of_nodup hnodup, hlength, Finset.card_product, Finset.card_range,
    Finset.card_range, Nat.mul_comm] at hcard
  obtain ⟨d', hd'⟩ := hfinishes
  have hbound : least + 1 ≤ depthBound c := Nat.le_succ_of_le hcard
  have hsame := ofSymbolWithin_mono h hs hd' (Nat.le_trans hbound (Nat.le_of_not_le hle))
  rw [hd, Except.ok.injEq] at hsame
  exact hsame ▸ ofSymbolWithin_mono h hs hd' hbound

end Description

/-- The key of a symbol holds the frames of what describes the symbol. -/
theorem Key.ofSymbol_eq_ok_iff {c : Compilation} {s : SymbolId} {k : Key} (h : c.Closed)
    (hs : c.Issued s) :
    ofSymbol c s = .ok k ↔ ∃ n d, Description.ofSymbolWithin c n [] s = .ok d ∧
      k = ofFrames d.frames := by
  constructor
  · intro hk
    unfold ofSymbol at hk
    cases hd : Description.ofSymbol c [] s with
    | error fault =>
        rw [hd] at hk
        cases hk
    | ok d =>
        rw [hd] at hk
        cases hk
        exact ⟨_, d, hd, rfl⟩
  · rintro ⟨n, d, hd, rfl⟩
    rw [ofSymbol, (Description.ofSymbol_eq_ok h hs (by simp)).mpr ⟨n, hd⟩]
    rfl

/-- The frames of a key nest no more deeply than what describes the symbol. -/
theorem Key.derives_of_finishes {c : Compilation} {s : SymbolId} {k : Key} {n : Nat} (h : c.Closed)
    (hroomy : c.table.Roomy) (hsize : c.size < UInt32.size) (hs : c.Issued s)
    (hk : ofSymbol c s = .ok k) (hn : Description.Finishes c n [] s) :
    Grammar.Derives n k.frames := by
  obtain ⟨d, hd⟩ := hn
  have hk' := (ofSymbol_eq_ok_iff h hs).mpr ⟨n, d, hd, rfl⟩
  rw [hk] at hk'
  cases hk'
  exact Description.derives_ofSymbolWithin h hroomy hsize hs hd

end Moniker
