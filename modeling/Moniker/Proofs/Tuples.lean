import Moniker.Proofs.Rebuilding

/-!
# Tuples with empty names

An element of a tuple may go without a name, and it may have an empty one. The fields of the tuple
do not tell the two apart, and neither do keys: both are held as the missing name. Shapes do tell
them apart, so that a tuple with an empty name and the tuple that is the same without it are two
types. The key of either leads to the one without empty names (`Key.tuple_returns_iff`).
-/

namespace Moniker

/-- Frames hold the shape of a tuple as it is, but for empty names. -/
theorem Shape.recorded_tuple_eq_iff (types : List SymbolId) {names : List (Option String)} :
    (tuple types names).recorded = tuple types names ↔ some "" ∉ names := by
  have hsame : (tuple types names).recorded = tuple types names ↔
      names.map (·.filter (· != "")) = names := by
    simp only [recorded, tuple.injEq, true_and]
  rw [hsame, map_eq_self_iff]
  constructor
  · intro hkept hempty
    cases hkept _ hempty
  · intro hnamed name hname
    cases name with
    | none => rfl
    | some name =>
        have hne : name ≠ "" := by
          rintro rfl
          exact hnamed hname
        simp [Option.filter, hne]

/-- A draft with a pair of an `int`, under the given name, and a `string` without a name. -/
def Draft.pair (name : Option String) : Draft :=
  ofRequests [.structural (.tuple [int, string] [name, none] [.nowhere, .nowhere])]

theorem Draft.made_pair (name : Option String) :
    (pair name).Made fun t r => r.Issued t ∧ r.Sparing Symbol.Structural t := by
  have hissued : ∀ s ∈ [int, string], empty.table.Issued s := by
    unfold SymbolTable.Issued
    decide
  refine made_structural .empty [.tuple [int, string] [name, none] [.nowhere, .nowhere]] ?_
  simpa [TypeRequest.symbols, TypeRequest.types] using hissued

namespace Key

open Compilation

/-- The key of a tuple type leads to the type of that shape without empty names, if the keys of its
element types lead back to them. So it leads back if and only if no name is empty. -/
theorem tuple_returns_iff {c : Compilation} {types : List SymbolId} {names : List (Option String)}
    {s : SymbolId} (hmade : c.Made fun t r => r.Issued t ∧ r.Sparing Symbol.Structural t)
    (hsize : c.size < UInt32.size) (hs : c.table.interned.lookup (.tuple types names) = some s)
    (hkeys : ∀ e ∈ types, ∃ k, ofSymbol c e = .ok k) :
    ∃ k depth, ofSymbol c s = .ok k ∧ (∀ n, Grammar.Derives n k.frames ↔ depth ≤ n) ∧
      ∀ (o : ResolveOptions) (scene : Scene), scene.compilation = c → o.cancelled = false →
        depth ≤ o.maxDepth.toNat → c.AcceptsAll (c.placesAt s) →
        (∀ e ∈ types, ∃ k, ofSymbol c e = .ok k ∧ (k.resolve o scene).1 = .ok (.ok (.symbol e))) →
        ∃ a, (k.resolve o scene).1 = .ok (.ok (.symbol a)) ∧
          (k.resolve o scene).2.compilation.table.interned.lookup
            (.tuple types (names.map (·.filter (· != "")))) = some a ∧
          (a = s ↔ some "" ∉ names) := by
  have hissued : c.Made fun t r => r.Issued t := hmade.mono fun _ _ hr => hr.1
  have hfaithful : c.table.Faithful Symbol.Structural fun _ _ => True := hmade.faithful
  obtain ⟨keys, hkeys⟩ := exists_forall₂ hkeys
  obtain ⟨k, depth, hk, hdepth, hresolve⟩ := rebuilds hmade hsize hs rfl hkeys
  refine ⟨k, depth, hk, hdepth, ?_⟩
  rintro o scene rfl hlive hle haccepts helements
  have hstart := (Leads.refl scene.compilation).descends hissued.closed
  have hunique : List.Forall₂ (fun ke a => (ke.resolve o scene).1 = .ok (.ok (.symbol a))) keys
      types := by
    refine ((List.forall₂_and_left _ _).mpr ⟨helements, hkeys⟩).flip.imp fun ke e hke => ?_
    obtain ⟨⟨k, hk, hresolve⟩, hke⟩ := hke
    rwa [Except.ok.inj (hke.symm.trans hk)]
  obtain ⟨shape', a, hlike, -, heach, ha, hlookup, -⟩ := hresolve o scene scene types hlive hle
    ⟨hissued.stem, hstart, hstart⟩ hunique haccepts (by rintro ⟨⟩)
  -- the elements are found as they are, so what is asked for is the shape as frames hold it
  obtain rfl : shape' = (Shape.tuple types names).recorded := by
    have hsame : types = shape'.symbols := by
      rw [← List.forall₂_eq_eq_eq]
      exact ((List.forall₂_and_left _ _).mpr ⟨hissued.grounded _ s hs, heach⟩).imp
        fun _ _ h => (h.2 h.1).symm
    exact hlike.eq_of_symbols (.refl _) (by rw [← hsame]; rfl)
  obtain ⟨hleads, -⟩ := k.resolve_again o hissued.closed
  have hinjective := (hleads.faithful hfaithful).injective
  have hkept := hleads.grows.table.interned _ s hs
  refine ⟨a, ha, hlookup, ?_⟩
  rw [← Shape.recorded_tuple_eq_iff types]
  constructor
  · rintro rfl
    exact hinjective _ _ _ hlookup hkept
  · intro hrecorded
    rw [hrecorded, hkept] at hlookup
    exact (Option.some.inj hlookup).symm

/-- The types of its elements are known to a pair's program, and their keys lead back to them. -/
theorem elements_pair (name : Option String) (hname : name ∈ [some "n", some ""]) :
    ∀ e ∈ [Draft.int, Draft.string], ∃ k, ofSymbol (Draft.pair name).finish e = .ok k ∧
      (k.resolve {} { compilation := (Draft.pair name).finish }).1 = .ok (.ok (.symbol e)) := by
  simp only [List.mem_cons, List.not_mem_nil, or_false] at hname
  simp only [List.forall_mem_cons]
  rcases hname with rfl | rfl <;>
    exact ⟨⟨ofFrames (builtinFrames "int"), by decide +kernel, by decide +kernel⟩,
      ⟨ofFrames (builtinFrames "string"), by decide +kernel, by decide +kernel⟩, by simp⟩

/-- The key of a pair whose first element is named leads back to the pair. -/
theorem tuple_returns_pair :
    let c := (Draft.pair (some "n")).finish
    ∃ k, ofSymbol c ⟨5⟩ = .ok k ∧
        (k.resolve {} { compilation := c }).1 = .ok (.ok (.symbol ⟨5⟩)) := by
  intro c
  have hmade : c.Made fun t r => r.Issued t ∧ r.Sparing Symbol.Structural t :=
    .finish (Draft.made_pair _)
  have helements := elements_pair (some "n") (by simp)
  have hs : c.Issued ⟨5⟩ := by
    unfold Compilation.Issued SymbolTable.Issued
    decide
  have hissued : c.Made fun t r => r.Issued t := hmade.mono fun _ _ hr => hr.1
  obtain ⟨k, depth, hk, hdepth, hresolve⟩ := @tuple_returns_iff c [Draft.int, Draft.string]
    [some "n", none] ⟨5⟩ hmade (by decide) (by decide)
    fun e he => (helements e he).imp fun _ h => h.1
  have hderives := derives_of_finishes hissued.closed hissued.roomy (by decide) hs hk (n := 64)
    ⟨_, rfl⟩
  obtain ⟨a, ha, -, hiff⟩ := hresolve {} { compilation := c } rfl rfl ((hdepth 64).mp hderives)
    (by unfold AcceptsAll; decide) helements
  rw [hiff.mpr (by decide)] at ha
  exact ⟨_, hk, ha⟩

/-- The types of the elements are found, but the key of a pair whose first element has an empty name
leads to a new type. -/
theorem tuple_emptyName_rebuilt :
    let c := (Draft.pair (some "")).finish
    c.Made (fun t r => r.Issued t ∧ r.Sparing Symbol.Structural t) ∧
      c.table.interned.lookup (.tuple [Draft.int, Draft.string] [some "", none]) = some ⟨5⟩ ∧
      (∀ e ∈ [Draft.int, Draft.string], ∃ k, ofSymbol c e = .ok k ∧
        (k.resolve {} { compilation := c }).1 = .ok (.ok (.symbol e))) ∧
      ∃ k, ofSymbol c ⟨5⟩ = .ok k ∧
          (k.resolve {} { compilation := c }).1 = .ok (.ok (.symbol ⟨8⟩)) := by
  refine ⟨.finish (Draft.made_pair _), by decide, elements_pair _ (by simp),
    ofFrames (.kind .tupleType :: .array .populated 2 ::
      (builtinFrames "int" ++ builtinFrames "string" ++
        [.array .populated 2, .text none, .text none,
        .array .populated 2, .int 0, .int 0])), by decide +kernel, by decide +kernel⟩

end Key
end Moniker
