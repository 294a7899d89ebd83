import Moniker.Proofs.Finding
import Moniker.Proofs.Grammar
import Moniker.Proofs.Terminating

/-!
# Keys of symbols

The key of a symbol holds the frames of the symbol's description. Whatever limit it is read under,
if it is usable it is read as that description, with ranks and locations clipped, so that resolving
the key comes to locating the description (`Key.resolve_ofSymbol`).
-/

namespace Moniker.Key

variable {c : Compilation} {s : SymbolId} {o : ResolveOptions} {k : Key} {d : Description} {n : Nat}
  {scene : Scene}

/-- A usable key with the frames of a description is resolved by locating the description. -/
theorem resolve_of_frames (hshaped : d.Shaped n) (hversion : k.version = currentVersion)
    (hframes : k.frames = d.frames) (hclosed : scene.compilation.Closed)
    (husable : k.defect? o = none) :
    (k.resolve o scene).1 = .ok (d.locate o [] scene.compilation).1 ∧
      (k.resolve o scene).2.compilation = d.after o [] scene.compilation := by
  obtain ⟨hscanned, hframes'⟩ := shaped_scanned husable
  have hsame : (k.scanned o).1 = d := hscanned.eq_of_frames hshaped (hframes'.symm.trans hframes)
  obtain ⟨houtcome, hreached⟩ := resolve_eq (o := o) hversion hclosed
  rw [outcome, husable, hsame] at houtcome
  refine ⟨houtcome, ?_⟩
  rw [hreached husable, reached, hsame]
  rfl

/-- Only usable keys resolve to anything. -/
theorem usable_of_ok (hversion : k.version = currentVersion) (hclosed : scene.compilation.Closed)
    {resolved : Resolved} (hresolved : (k.resolve o scene).1 = .ok resolved) :
    k.defect? o = none := by
  rw [(resolve_eq hversion hclosed).1, outcome] at hresolved
  cases hdefect : k.defect? o with
  | none => rfl
  | some e =>
      rw [hdefect] at hresolved
      cases hresolved

/-- What a key resolves to is what locating the description of its frames comes to. -/
theorem locate_of_resolve (hshaped : d.Shaped n) (hversion : k.version = currentVersion)
    (hframes : k.frames = d.frames) (hclosed : scene.compilation.Closed) {resolved : Resolved}
    (hresolved : (k.resolve o scene).1 = .ok resolved) :
    (d.locate o [] scene.compilation).1 = resolved := by
  have hlocate := (resolve_of_frames hshaped hversion hframes hclosed
    (usable_of_ok hversion hclosed hresolved)).1
  rw [hresolved] at hlocate
  exact (Except.ok.inj hlocate).symm

/-- Every symbol has a key. It is usable under some limit, and whenever it is, resolving it comes to
locating what describes the symbol. -/
theorem resolve_ofSymbol (h : c.Lawful) (hs : c.Issued s) (hsize : c.size < UInt32.size) :
    ∃ d k, Description.ofSymbol c [] s = .ok d ∧ Description.Describes c [] s d.clipped ∧
      ofSymbol c s = .ok k ∧ (∃ n < UInt64.size, Grammar.Derives n k.frames) ∧
      ∀ o scene, scene.compilation.Closed →
        ((∃ resolved, (k.resolve o scene).1 = .ok resolved) ∨
          o.cancelled = false ∧ Grammar.Derives o.maxDepth.toNat k.frames) →
        (k.resolve o scene).1 = .ok (d.clipped.locate o [] scene.compilation).1 ∧
          (k.resolve o scene).2.compilation = d.clipped.after o [] scene.compilation := by
  obtain ⟨d, hd, hdescribes, hshaped⟩ := Description.describes_ofSymbol h hs
  have hkey : ofSymbol c s = .ok (ofFrames d.frames) := by
    simp only [ofSymbol, hd]
    rfl
  have hbound : Description.depthBound c < UInt64.size := by
    have hle : c.size * (c.size + 1) ≤ (UInt32.size - 1) * UInt32.size :=
      Nat.mul_le_mul (by omega) (by omega)
    have hlt : (UInt32.size - 1) * UInt32.size + 1 < UInt64.size := by decide
    unfold Description.depthBound
    omega
  have hderives : Grammar.Derives (Description.depthBound c) d.frames := by
    have hderives := Grammar.derives_frames (hshaped hsize)
    rwa [Description.frames_clipped] at hderives
  refine ⟨d, ofFrames d.frames, hd, hdescribes, hkey, ⟨_, hbound, hderives⟩, ?_⟩
  intro o scene hclosed husable
  refine resolve_of_frames (hshaped hsize) rfl (Description.frames_clipped d).symm hclosed ?_
  rcases husable with ⟨resolved, hresolved⟩ | ⟨hlive, hdepth⟩
  · exact usable_of_ok rfl hclosed hresolved
  · exact (defect?_eq_none_iff hlive).mpr hdepth

end Moniker.Key
