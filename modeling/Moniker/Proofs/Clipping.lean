import Moniker.Proofs.Rebuilding

/-!
# Counts that no frame holds

Ranks and coordinates are machine words, and frames hold counts up to the greatest signed word. A
greater one is not refused but clipped, when it is written. So the key of an array type with such a
rank leads to another array type, and the key of a tuple or anonymous type whose members have such
coordinates leads to a type with clipped ones, unless there is one already (`Key.counts_kept_iff`).
Array types of ranks that are clipped to the same have the same key (`Key.arrays_meet_iff`).
-/

namespace Moniker

open List

/-! ## What clipping keeps -/

theorem Frame.clipped_eq_self_iff {w : UInt64} :
    UInt64.ofNat (min w.toNat maxCount) = w ↔ w.toNat ≤ maxCount := by
  rw [← UInt64.toNat_inj, toNat_ofNat_min]
  omega

theorem Pos.clipped_eq_self_iff {p : Pos} : p.clipped = p ↔ p.Fits := by
  obtain ⟨line, col, offset⟩ := p
  simp only [clipped, Pos.mk.injEq, Frame.clipped_eq_self_iff]
  exact ⟨fun h => ⟨h.1, h.2.1, h.2.2⟩, fun h => ⟨h.line, h.col, h.offset⟩⟩

theorem Location.clipped_eq_self_iff {l : Location} : l.clipped = l ↔ l.Fits := by
  cases l with
  | nowhere => exact ⟨fun _ => trivial, fun _ => rfl⟩
  | source path span =>
      obtain ⟨start, stop⟩ := span
      simp only [clipped, source.injEq, Span.mk.injEq, true_and, Pos.clipped_eq_self_iff, Fits]

theorem Location.map_clipped_eq_self_iff {sites : List Location} :
    sites.map clipped = sites ↔ ∀ l ∈ sites, l.Fits := by
  simp only [map_eq_self_iff, clipped_eq_self_iff]

namespace Compilation

variable {c : Compilation} {shape shape' : Shape} {s : SymbolId} {sites : List Location}

/-- The rank on record is that of the shape, and only array types have one. -/
theorem rank_of_answers {t : SymbolTable} (h : c.table.Answers Symbol.Structural shape s sites) :
    (c.entry s).rank = (shape.head t).rank := by
  have hrank : (c.entry s).lasting.rank = (shape.head c.table).rank := congrArg Symbol.rank h.entry
  refine hrank.trans ?_
  cases shape <;> rfl

theorem rank_recorded {t : SymbolTable} (hlike : shape.recorded.Like shape') :
    (shape'.head t).rank = UInt64.ofNat (min (shape.head t).rank.toNat Frame.maxCount) := by
  cases shape <;> cases hlike <;> rfl

end Compilation

/-- A draft with array types of `int`, of the given ranks. -/
def Draft.arrays (ranks : List UInt64) : Draft :=
  ofRequests ((ranks.map (TypeRequest.array int)).map .structural)

theorem Draft.made_arrays (ranks : List UInt64) :
    (arrays ranks).Made fun t r => r.Issued t ∧ r.Sparing Symbol.Structural t := by
  have hint : empty.table.Issued int := by decide
  refine made_structural .empty _ fun r hr => ?_
  obtain ⟨rank, -, rfl⟩ := List.mem_map.mp hr
  simpa [TypeRequest.symbols, TypeRequest.types] using hint

/-- A place in a file, on a line and up to an offset that no frame holds. -/
def Location.remote : Location :=
  .source "f" ⟨⟨9223372036854775808, 2, 3⟩, ⟨9223372036854775808, 4, 9223372036854775809⟩⟩

/-- A draft with one file, and with the types that are asked for. -/
def Draft.located (rs : List TypeRequest) : Draft := ofRequests (.file "f" :: rs.map .structural)

theorem Draft.made_located {rs : List TypeRequest}
    (h : ∀ r ∈ rs, ∀ s ∈ r.symbols, empty.table.Issued s) :
    (located rs).Made fun t r => r.Issued t ∧ r.Sparing Symbol.Structural t := by
  refine made_structural (d := empty.file "f") (.request .empty (r := .file "f") ⟨?_, ?_⟩ rfl) rs h
  · rintro s ⟨⟩
  · rintro owner ⟨⟩

namespace Key

open Compilation

/-- What the key of an array, pointer, tuple or anonymous type leads to has the rank of the type,
but for a rank that no frame holds, which is clipped. If there is no such type yet once the keys of
its parts are resolved, the members lie in the places that the members of the type lie in, but for
coordinates that no frame holds, which are clipped, too. What has such a count is not kept as it
was. -/
theorem counts_kept_iff {c : Compilation} {shape : Shape} {s : SymbolId} {keys : List Key}
    (hmade : c.Made fun t r => r.Issued t ∧ r.Sparing Symbol.Structural t)
    (hsize : c.size < UInt32.size) (hs : c.table.interned.lookup shape = some s)
    (hgeneric : shape.generic? = none)
    (hkeys : Forall₂ (fun e ke => ofSymbol c e = .ok ke) shape.symbols keys) :
    ∃ k depth, ofSymbol c s = .ok k ∧ (∀ n, Grammar.Derives n k.frames ↔ depth ≤ n) ∧
      ∀ (o : ResolveOptions) (scene later : Scene) (symbols : List SymbolId), o.cancelled = false →
        depth ≤ o.maxDepth.toNat →
        (scene.compilation.Made fun t r => r.Issued t ∧ r.Sparing Symbol.Structural t) →
        scene.arena.Clean → Decoded scene later →
        Forall₂ (fun ke a => (ke.resolve o scene).1 = .ok (.ok (.symbol a))) keys symbols →
        scene.compilation.AcceptsAll (c.placesAt s) →
        (shape.kind = .anonymousType → ∀ n, scene.compilation.table.maxAnonymousArity = some n →
          shape.symbols.length ≤ n) →
        ∃ (shape' : Shape) (a : SymbolId) (after : Compilation),
          (k.resolve o later).1 = .ok (.ok (.symbol a)) ∧
          (k.resolve o later).2.compilation = after ∧
          shape.recorded.Like shape' ∧
          (resolveEach o keys later).1 = shape'.symbols.map (fun a => .ok (.ok (.symbol a))) ∧
          Forall₂ (fun a a' => scene.compilation.Issued a → a' = a) symbols shape'.symbols ∧
          after.table.interned.lookup shape' = some a ∧
          after.rank a = .ok (UInt64.ofNat (min (c.entry s).rank.toNat Frame.maxCount)) ∧
          (after.rank a = c.rank s ↔ (c.entry s).rank.toNat ≤ Frame.maxCount) ∧
          ((resolveEach o keys later).2.compilation.table.interned.lookup shape' = none →
            after.placesAt a = (c.placesAt s).map Location.clipped ∧
            (after.placesAt a = c.placesAt s ↔ ∀ l ∈ c.placesAt s, l.Fits)) := by
  obtain ⟨-, hanswers⟩ := recorded_of_lookup hmade hs hgeneric
  obtain ⟨k, depth, hk, hdepth, hresolve⟩ := rebuilds hmade hsize hs hgeneric hkeys
  refine ⟨k, depth, hk, hdepth, ?_⟩
  intro o scene later symbols hlive hle hscene hclean hdecoded hsymbols haccepts hcap
  have hissued : scene.compilation.Made fun t r => r.Issued t := hscene.mono fun _ _ hr => hr.1
  obtain ⟨hleads, hsound⟩ := hdecoded.leads ⟨hissued.closed, hclean⟩
  have hstart := (Leads.refl scene.compilation).descends hissued.closed
  obtain ⟨shape', a, hlike, hresolves, heach, ha, hlookup, hnew⟩ := hresolve o scene later symbols
    hlive hle ⟨hissued.stem, hstart, hleads.descends hsound.closed⟩ hsymbols haccepts hcap
  obtain ⟨hleads', -, -⟩ := k.resolve_again o hsound.closed
  obtain ⟨sites, -, hanswers'⟩ :=
    ((hleads.trans hleads').faithful hscene.faithful).answers (D := Symbol.Structural) shape'
      a hlookup
  have hrank : (k.resolve o later).2.compilation.rank a =
      .ok (UInt64.ofNat (min (c.entry s).rank.toNat Frame.maxCount)) := by
    rw [rank_eq hanswers'.issued, rank_of_answers (t := c.table) hanswers', rank_recorded hlike,
      rank_of_answers hanswers]
  refine ⟨shape', a, _, ha, rfl, hlike, hresolves, heach, hlookup, hrank, ?_,
    fun hnone => ⟨hnew hnone, ?_⟩⟩
  · rw [hrank, rank_eq hanswers.issued, Except.ok.injEq, Frame.clipped_eq_self_iff]
  · rw [hnew hnone, Location.map_clipped_eq_self_iff]

/-- The key of an array type leads to one of the greatest rank that frames hold, and the key of a
pair that has an element on a line that is out of reach, in a program without such a pair, leads to
a pair with that element on the last line that frames hold. -/
theorem counts_kept_remote :
    let c := (Draft.located [.array Draft.int 9223372036854775808,
      .tuple [Draft.int, Draft.string] [some "n", none] [Location.remote, .nowhere]]).finish
    let scene : Scene := { compilation := (Draft.located []).finish }
    (c.rank ⟨5⟩ = .ok 9223372036854775808 ∧ c.placesAt ⟨6⟩ = [Location.remote, .nowhere]) ∧
      (∃ k a, ofSymbol c ⟨5⟩ = .ok k ∧ (k.resolve {} scene).1 = .ok (.ok (.symbol a)) ∧
        (k.resolve {} scene).2.compilation.rank a = .ok 9223372036854775807) ∧
      ∃ k a, ofSymbol c ⟨6⟩ = .ok k ∧ (k.resolve {} scene).1 = .ok (.ok (.symbol a)) ∧
        (k.resolve {} scene).2.compilation.placesAt a =
          [.source "f" ⟨⟨9223372036854775807, 2, 3⟩, ⟨9223372036854775807, 4, 9223372036854775807⟩⟩,
            .nowhere] ∧
        (k.resolve {} scene).2.compilation.placesAt a ≠ c.placesAt ⟨6⟩ := by
  intro c scene
  have hbuiltin : ∀ s ∈ [Draft.int, Draft.string], Draft.empty.table.Issued s := by decide
  have hmade : c.Made fun t r => r.Issued t ∧ r.Sparing Symbol.Structural t := by
    refine .finish (Draft.made_located ?_)
    simpa [TypeRequest.symbols, TypeRequest.types] using hbuiltin
  have hscene : scene.compilation.Made fun t r => r.Issued t ∧ r.Sparing Symbol.Structural t :=
    .finish (Draft.made_located (by simp))
  have hissued : c.Made fun t r => r.Issued t := hmade.mono fun _ _ hr => hr.1
  have hint : ofSymbol c Draft.int = .ok (ofFrames (builtinFrames "int")) := by decide +kernel
  have hstring : ofSymbol c Draft.string = .ok (ofFrames (builtinFrames "string")) := by
    decide +kernel
  have hint' : ((ofFrames (builtinFrames "int")).resolve {} scene).1 =
      .ok (.ok (.symbol Draft.int)) := by decide +kernel
  have hstring' : ((ofFrames (builtinFrames "string")).resolve {} scene).1 =
      .ok (.ok (.symbol Draft.string)) := by decide +kernel
  have hplaces : c.placesAt ⟨6⟩ = [Location.remote, .nowhere] := by decide +kernel
  refine ⟨⟨rfl, hplaces⟩, ?_, ?_⟩
  · obtain ⟨k, depth, hk, hdepth, hresolve⟩ := @counts_kept_iff c
      (.array Draft.int 9223372036854775808) ⟨5⟩ _ hmade (by decide) (by decide) rfl
      (.cons hint .nil)
    have hderives := derives_of_finishes hissued.closed hissued.roomy (by decide) (by decide) hk
      (n := 64) ⟨_, rfl⟩
    obtain ⟨-, a, -, ha, rfl, -, -, -, -, hrank, -⟩ := hresolve {} scene scene [Draft.int] rfl
      ((hdepth 64).mp hderives) hscene Arena.clean_empty (.none _) (.cons hint' .nil)
      (by unfold AcceptsAll; decide) (by rintro ⟨⟩)
    exact ⟨k, a, hk, ha, hrank⟩
  · obtain ⟨k, depth, hk, hdepth, hresolve⟩ := @counts_kept_iff c
      (.tuple [Draft.int, Draft.string] [some "n", none]) ⟨6⟩ _ hmade (by decide) (by decide) rfl
      (.cons hint (.cons hstring .nil))
    have hderives := derives_of_finishes hissued.closed hissued.roomy (by decide) (by decide) hk
      (n := 64) ⟨_, rfl⟩
    obtain ⟨shape', a, -, ha, rfl, hlike, -, heach, -, -, -, hnew⟩ := hresolve {} scene scene
      [Draft.int, Draft.string] rfl ((hdepth 64).mp hderives) hscene Arena.clean_empty (.none _)
      (.cons hint' (.cons hstring' .nil)) (by rw [hplaces]; unfold AcceptsAll; decide)
      (by rintro ⟨⟩)
    -- the pair is asked for over the built-in types, and the program does not have it
    obtain rfl : shape' = .tuple [Draft.int, Draft.string] [some "n", none] := by
      have hsame : [Draft.int, Draft.string] = shape'.symbols := by
        rw [← forall₂_eq_eq_eq]
        exact ((forall₂_and_left _ _).mpr ⟨hbuiltin, heach⟩).imp fun _ _ h => (h.2 h.1).symm
      exact hlike.eq_of_symbols (.refl _) (by rw [← hsame]; rfl)
    obtain ⟨hafter, hiff⟩ := hnew (by decide +kernel)
    rw [hplaces] at hafter hiff
    refine ⟨k, a, hk, ha, hafter, fun hkept => ?_⟩
    rw [hplaces] at hkept
    have hline : 9223372036854775808 ≤ Frame.maxCount :=
      (hiff.mp hkept Location.remote (by simp)).1.line
    exact absurd hline (by decide)

/-- Two array types whose ranks differ have the same key, and it leads to the one whose rank it
holds. -/
theorem arrays_met :
    let c := (Draft.arrays [9223372036854775807, 9223372036854775808]).finish
    c.Made (fun t r => r.Issued t ∧ r.Sparing Symbol.Structural t) ∧
      c.rank ⟨5⟩ = .ok 9223372036854775807 ∧ c.rank ⟨6⟩ = .ok 9223372036854775808 ∧
      ∃ k, ofSymbol c ⟨5⟩ = .ok k ∧ ofSymbol c ⟨6⟩ = .ok k ∧
        (k.resolve {} { compilation := c }).1 = .ok (.ok (.symbol ⟨5⟩)) :=
  ⟨.finish (Draft.made_arrays _), rfl, rfl,
    ofFrames (.kind .arrayType :: builtinFrames "int" ++
      [.int 9223372036854775807]), by decide +kernel,
    by decide +kernel, by decide +kernel⟩

section Arrays

variable {c : Compilation} {element : SymbolId} {ke : Key}
  (hmade : c.Made fun t r => r.Issued t ∧ r.Sparing Symbol.Structural t)
  (hsize : c.size < UInt32.size)
  (hke : ofSymbol c element = .ok ke)
include hmade hsize hke

/-- The key of an array type holds the key of its element type and the clipped rank, and leads to
what is then on record for these. -/
theorem array_resolves {rank : UInt64} {s : SymbolId}
    (hs : c.table.interned.lookup (.array element rank) = some s) :
    ∃ k, ofSymbol c s = .ok k ∧
      k = ofFrames (.kind .arrayType :: ke.frames ++ [.count (min rank.toNat Frame.maxCount)]) ∧
      ∀ {o : ResolveOptions} {scene : Scene} {e : SymbolId}, k.defect? o = none →
        scene.compilation.Closed → (ke.resolve o scene).1 = .ok (.ok (.symbol e)) →
        (ke.resolve o scene).2.compilation.Grows (k.resolve o scene).2.compilation ∧
        ∃ a, (k.resolve o scene).1 = .ok (.ok (.symbol a)) ∧
          (k.resolve o scene).2.compilation.table.interned.lookup
            (.array e (UInt64.ofNat (min rank.toNat Frame.maxCount))) = some a := by
  obtain ⟨n, parts, hshaped, hparts, hk⟩ := exists_parts hmade hsize hs rfl (.cons hke .nil)
  cases hparts with
  | @cons _ d _ _ hd hrest =>
    cases hrest
    obtain ⟨rfl, hpart⟩ := hd
    refine ⟨_, hk, ?_, ?_⟩
    · simp only [Shape.recorded, Shape.description, Description.frames, Description.withKind,
        Description.category?, Description.body, Slot.frames, Frame.ofCount, List.headD_cons,
        Frame.toNat_ofNat_min]
      rfl
    · intro o scene e husable hclosed he
      obtain ⟨-, hafter⟩ := resolve_of_frames (k := ofFrames d.frames) hpart rfl rfl hclosed
        (usable_of_ok rfl hclosed he)
      obtain ⟨hresolve, hafter'⟩ := resolve_of_frames hshaped rfl rfl hclosed husable
      have hlocate := locate_of_resolve hpart rfl rfl hclosed he
      rw [Description.after] at hafter hafter'
      rw [hafter', hresolve, hafter]
      simp only [Shape.recorded, Shape.description, List.headD_cons, Description.locate, hlocate,
        part_ok, Resolution.rebuilt, Slot.valueOr_ok, UInt64.ofNat_toNat, Compilation.arrayType,
        SymbolTable.array_eq_ask]
      exact ⟨.withTable (SymbolTable.grows_ask _ _ _), _, rfl, SymbolTable.lookup_intern _ _ _⟩

/-- Where the key of the element type leads to one type, the keys of two array types that differ in
their ranks only lead to the same type if and only if the ranks are clipped to the same, and then
they are the same key. -/
theorem arrays_meet_iff {rank₁ rank₂ : UInt64} {s₁ s₂ : SymbolId}
    (h₁ : c.table.interned.lookup (.array element rank₁) = some s₁)
    (h₂ : c.table.interned.lookup (.array element rank₂) = some s₂) :
    ∃ k₁ k₂, ofSymbol c s₁ = .ok k₁ ∧ ofSymbol c s₂ = .ok k₂ ∧
      (min rank₁.toNat Frame.maxCount = min rank₂.toNat Frame.maxCount → k₁ = k₂) ∧
      ∀ {o : ResolveOptions} {scene later : Scene} {e : SymbolId}, k₁.defect? o = none →
        k₂.defect? o = none →
        (scene.compilation.Made fun t r => r.Issued t ∧ r.Sparing Symbol.Structural t) →
        (ke.resolve o scene).1 = .ok (.ok (.symbol e)) →
        (k₁.resolve o scene).2.compilation.Leads later.compilation → later.compilation.Closed →
        ∃ a₁ a₂, (k₁.resolve o scene).1 = .ok (.ok (.symbol a₁)) ∧
          (k₂.resolve o later).1 = .ok (.ok (.symbol a₂)) ∧
          (a₁ = a₂ ↔ min rank₁.toNat Frame.maxCount = min rank₂.toNat Frame.maxCount) := by
  obtain ⟨k₁, hk₁, hframes₁, hresolve₁⟩ := array_resolves hmade hsize hke h₁
  obtain ⟨k₂, hk₂, hframes₂, hresolve₂⟩ := array_resolves hmade hsize hke h₂
  refine ⟨k₁, k₂, hk₁, hk₂, fun hsame => by rw [hframes₁, hframes₂, hsame], ?_⟩
  intro o scene later e husable₁ husable₂ hscene he hleads hclosed'
  have hclosed : scene.compilation.Closed := (hscene.mono fun _ _ hr => hr.1).closed
  obtain ⟨hgrows, a₁, ha₁, hlookup₁⟩ := hresolve₁ husable₁ hclosed he
  -- the element type is found again in the later state
  have he' : (ke.resolve o later).1 = .ok (.ok (.symbol e)) :=
    ((ke.resolve_again o hclosed).2.2 later (hgrows.trans hleads.grows)).trans he
  obtain ⟨-, a₂, ha₂, hlookup₂⟩ := hresolve₂ husable₂ hclosed' he'
  obtain ⟨hstart, -⟩ := k₁.resolve_again o hclosed
  obtain ⟨hstep, -⟩ := k₂.resolve_again o hclosed'
  have hkept := (hleads.trans hstep).grows.table.interned _ a₁ hlookup₁
  have hinjective :=
    (((hstart.trans hleads).trans hstep).faithful (D := Symbol.Structural)
      hscene.faithful).injective
  refine ⟨a₁, a₂, ha₁, ha₂, ?_⟩
  constructor
  · rintro rfl
    have hrank := congrArg UInt64.toNat (Shape.array.inj (hinjective _ _ _ hkept hlookup₂)).2
    rwa [Frame.toNat_ofNat_min, Frame.toNat_ofNat_min] at hrank
  · intro hsame
    rw [hsame, hlookup₂] at hkept
    exact (Option.some.inj hkept).symm

end Arrays

end Key
end Moniker
