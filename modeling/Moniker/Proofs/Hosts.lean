import Moniker.Proofs.Depths
import Moniker.Proofs.Emission
import Moniker.Proofs.Limits
import Moniker.Proofs.Soundness

/-!
# Keys are usable everywhere

A compilation need not reveal the containers and types of its symbols (`Compilation.Host`). Whatever
it keeps to itself, the key of a symbol is usable against any other compilation, if not for the
depth to which keys may nest: reading it always comes to its end (`Key.readable`).
-/

namespace Moniker

/-- The compilations that are made from issued symbols, when they may keep the containers of some
symbols and the types of some to themselves. -/
inductive Compilation.Host : Compilation → Prop
  | made {c : Compilation} (hmade : c.Made fun t r => r.Issued t) : Host c
  | hideContainer {c : Compilation} (h : Host c) (s : SymbolId) : Host (c.hideContainer s)
  | hideType {c : Compilation} (h : Host c) (s : SymbolId) : Host (c.hideType s)
  | request {c c' : Compilation} {r : TypeRequest} (h : Host c) (hissued : ∀ s ∈ r.symbols,
    c.Issued s) (hrun : r.run c = .ok c') : Host c'

namespace Compilation.Host

variable {c : Compilation}

theorem closed (h : c.Host) : c.Closed := by
  induction h with
  | made hmade => exact hmade.closed
  | hideContainer _ s ih | hideType _ s ih => exact ⟨ih.table, ih.global, ih.universal⟩
  | request _ hissued hrun ih =>
      obtain ⟨n, hrun'⟩ := TypeRequest.run_eq _ hissued
      rw [hrun', Except.ok.injEq] at hrun
      obtain ⟨hgrows, hclosed⟩ := TypeRequest.after_closed _ ih.table hissued
      exact hrun ▸ ⟨hclosed, hgrows.issued ih.global, hgrows.issued ih.universal⟩

theorem roomy (h : c.Host) : c.table.Roomy := by
  induction h with
  | made hmade => exact hmade.roomy
  | hideContainer _ s ih | hideType _ s ih => exact ih
  | request _ hissued hrun ih =>
      obtain ⟨n, hrun'⟩ := TypeRequest.run_eq _ hissued
      rw [hrun', Except.ok.injEq] at hrun
      exact hrun ▸ TypeRequest.after_roomy _ ih hissued

end Compilation.Host

/-- Unless it faults, a reader is left where the scan stopped. -/
theorem Reader.reader_perform {α β : Type} {r : Reader} {step : Scanner α}
    {meaning : α → Scan → Decode β} {scene : Scene} {value : β}
    (h : (r.perform step meaning scene).value = .ok value) :
    (r.perform step meaning scene).reader = (r.scan step).2.1 := by
  unfold perform at h ⊢
  simp only at h ⊢
  split at h
  · cases h
  · rfl

namespace Key

variable {o : ResolveOptions} {k : Key} {scene : Scene}

/-- A key whose frames are a segment has been read to its end when it is resolved. -/
theorem isAtEnd_of_derives (hversion : k.version = currentVersion) (hlive : o.cancelled = false)
    (hderives : Grammar.Derives o.maxDepth.toNat k.frames) (hclosed : scene.compilation.Closed) :
    ∃ resolved, (k.resolve o scene).1 = .ok resolved ∧
      (({ frames := k.frames } : Reader).readRoot o { scene with arena := {} }).reader.isAtEnd =
        true := by
  obtain ⟨d, hshaped, hframes⟩ := Grammar.exists_description hderives
  have hresolve := (resolve_of_frames hshaped hversion hframes.symm hclosed
    ((defect?_eq_none_iff hlive).mpr hderives)).1
  refine ⟨_, hresolve, ?_⟩
  have hvalue : (({ frames := k.frames } : Reader).readRoot o { scene with arena := {} }).value =
      (k.resolve o scene).1 := by
    simp only [resolve, resolveIn, checkVersion, hversion, if_true]
    split <;> rfl
  rw [hresolve] at hvalue
  rw [Reader.isAtEnd, Reader.readRoot, Reader.reader_perform hvalue]
  have hscanned := scanned_eq hlive hshaped hframes.symm
  have hscan : (({ frames := k.frames } : Reader).scan
      (Description.ofFrames o (({ frames := k.frames } : Reader).budget o))).2.1 =
        { frames := k.frames, place := { position := (k.scanned o).2.position } } := rfl
  rw [hscan, hscanned, hframes]
  exact beq_self_eq_true _

/-- Where describing a symbol ends, its key is usable against every compilation under every limit
that its depth does not exceed: it resolves or fails with a reason, with all frames read. Under any
other limit it is too deep, and nothing else is ever wrong with it. -/
theorem readable {c : Compilation} {s : SymbolId} (hhost : c.Host) (hsize : c.size < UInt32.size)
    (hs : c.Issued s) (hends : ∃ n d, Description.ofSymbolWithin c n [] s = .ok d) :
    ∃ k depth, ofSymbol c s = .ok k ∧ (∀ n, Grammar.Derives n k.frames ↔ depth ≤ n) ∧
      ∀ (o : ResolveOptions) (scene : Scene), o.cancelled = false → scene.compilation.Host →
        (depth ≤ o.maxDepth.toNat → ∃ resolved, (k.resolve o scene).1 = .ok resolved ∧
          (({ frames := k.frames } : Reader).readRoot o { scene with arena := {} }).reader.isAtEnd =
            true) ∧
        (o.maxDepth.toNat < depth →
          (k.resolve o scene).1 = .error (.defect (.tooDeep o.maxDepth.toNat))) := by
  obtain ⟨n, d, hd⟩ := hends
  have hderives := Description.derives_ofSymbolWithin hhost.closed hhost.roomy hsize hs hd
  obtain ⟨depth, hdepth⟩ := hderives.exists_depth
  have hkey : ofSymbol c s = .ok (ofFrames d.frames) := by
    rw [ofSymbol, (Description.ofSymbol_eq_ok hhost.closed hs (by simp)).mpr ⟨n, hd⟩]
    rfl
  refine ⟨_, depth, hkey, hdepth, fun o scene hlive htarget => ⟨fun hle => ?_, fun hlt => ?_⟩⟩
  · exact isAtEnd_of_derives rfl hlive ((hdepth _).mpr hle) htarget.closed
  · rw [(resolve_eq rfl htarget.closed).1, outcome]
    rcases defect?_of_derives (o := o) (k := ofFrames d.frames) hlive hderives with hnone | hdeep
    · exact absurd ((hdepth _).mp ((defect?_eq_none_iff hlive).mp hnone)) (Nat.not_le_of_lt hlt)
    · rw [hdeep]
      rfl

/-- The key of a method whose container is not revealed can be read where there is no such
method. -/
theorem readable_generic :
    ∃ k depth, ofSymbol (Draft.generic.finish.hideContainer ⟨6⟩) ⟨6⟩ = .ok k ∧
      (∀ n, Grammar.Derives n k.frames ↔ depth ≤ n) ∧
      ∃ resolved, (k.resolve {} { compilation := Draft.empty.finish }).1 = .ok resolved := by
  have hhost : (Draft.generic.finish.hideContainer ⟨6⟩).Host :=
    .hideContainer (.made (.finish (Draft.made_generic.mono fun _ _ h => h.issued))) ⟨6⟩
  have hs : (Draft.generic.finish.hideContainer ⟨6⟩).Issued ⟨6⟩ := by
    unfold Compilation.Issued SymbolTable.Issued
    decide
  have hd : ∃ d, Description.ofSymbolWithin (Draft.generic.finish.hideContainer ⟨6⟩) 64 [] ⟨6⟩ =
      .ok d :=
    ⟨_, rfl⟩
  obtain ⟨k, depth, hk, hdepth, hread⟩ := readable hhost (by decide) hs ⟨64, hd⟩
  obtain ⟨d, hd⟩ := hd
  have hframes : k.frames = d.frames := by
    rw [ofSymbol, (Description.ofSymbol_eq_ok hhost.closed hs (by simp)).mpr ⟨64, hd⟩] at hk
    cases hk
    rfl
  have hderives := Description.derives_ofSymbolWithin hhost.closed hhost.roomy (by decide) hs hd
  have hle : depth ≤ 64 := (hdepth 64).mp (hframes ▸ hderives)
  obtain ⟨resolved, hresolved, -⟩ :=
    (hread {} { compilation := Draft.empty.finish } rfl (.made (.finish .empty))).1 hle
  exact ⟨k, depth, hk, hdepth, resolved, hresolved⟩

end Key
end Moniker
