import Moniker.Proofs.Acceptance
import Moniker.Proofs.Keys
import Moniker.Proofs.Lockstep

/-!
# Keys are prefix-free

No part at the beginning of a usable key is usable, nor is a usable key with more frames after it.
What is cut short is read in lockstep with the whole: it goes as the whole does until the frames are
used up or a header announces more elements than are left, and the whole never gets too deep. So the
cut is what is reported (`Key.accepted_prefix_free`), whatever is wrong further on.
-/

namespace Moniker

/-- Frames stand in lockstep with themselves as they go on behind a cut. -/
theorem Scan.aligned_cut (cut : List Frame) : Aligned fun rest rest' => rest' = rest ++ cut := by
  intro f g rest rest' h _ _ _
  obtain ⟨rfl, rfl⟩ := List.cons.inj h
  exact ⟨rfl, rfl⟩

namespace Key

variable {o : ResolveOptions} {k : Key} {front frames extra : List Frame} {scene : Scene}
  {resolved : Resolved}

/-- What a usable key begins with is broken. -/
theorem broken_front (husable : (ofFrames frames).defect? o = none) (hfront : front <+: frames)
    (hproper : front ≠ frames) : ∃ d, (ofFrames front).defect? o = some d ∧ d.Broken := by
  have hlive := live_of_usable husable
  obtain ⟨cut, hcut⟩ := hfront
  obtain ⟨hshaped, hframes⟩ := shaped_scanned husable
  have hwhole := scanned_eq hlive hshaped hframes
  have hrun := (Description.lockstep_ofFrames (Scan.aligned_cut cut) hlive o.maxDepth.toNat).level 0
    (show frames = front ++ cut from hcut.symm)
  change Scan.Level _ ((ofFrames front).scanned o) ((ofFrames frames).scanned o) at hrun
  generalize hread : (ofFrames front).scanned o = read at hrun
  generalize (ofFrames frames).scanned o = read' at hrun hwhole
  cases hrun with
  | broken hd hbroken => exact ⟨_, defect?_of_ended (hread ▸ hd), hbroken⟩
  | ended hd =>
      rw [hwhole] at hd
      cases hd
  | @level a position rest rest' h =>
      -- the whole is read to its end, so nothing was cut off
      obtain rfl : rest' = [] := congrArg (fun read => read.2.rest) hwhole
      obtain ⟨-, rfl⟩ := List.append_eq_nil_iff.mp h.symm
      exact absurd ((List.append_nil front).symm.trans hcut) hproper

/-- What stands after a usable key is left over. -/
theorem trailing_extra (husable : (ofFrames frames).defect? o = none) (hextra : extra ≠ []) :
    (ofFrames (frames ++ extra)).defect? o = some (.trailing extra.length frames.length) := by
  obtain ⟨hshaped, hframes⟩ := shaped_scanned husable
  generalize ((ofFrames frames).scanned o).1 = d at hshaped hframes
  obtain rfl : frames = d.frames := hframes
  have hrun := hshaped.yields (live_of_usable husable) 0 extra
  rw [Nat.zero_add] at hrun
  rw [defect?, scanned, ofFrames, hrun, show d.defect? = none from hshaped.intact,
    if_neg (by simpa using hextra)]
  rfl

/-- The frames of usable keys are prefix-free. If frames resolve without a defect against some
compilation, then under the same options and against any other one everything that they properly
begin with is truncated or malformed, and with anything after them they are malformed. All that is
asked of the compilations is what being made from issued symbols provides
(`Compilation.Made.closed`). -/
theorem accepted_prefix_free (hclosed : scene.compilation.Closed)
    (hresolved : ((ofFrames frames).resolve o scene).1 = .ok resolved) :
    ∀ scene' : Scene, scene'.compilation.Closed →
      (∀ front, front <+: frames → front ≠ frames → ∃ d,
        ((ofFrames front).resolve o scene').1 = .error (.defect d) ∧
          (d.kind = .truncated ∨ d.kind = .malformed)) ∧
      ∀ extra, extra ≠ [] → ∃ d,
        ((ofFrames (frames ++ extra)).resolve o scene').1 = .error (.defect d) ∧
          d.kind = .malformed := by
  have husable := usable_of_ok rfl hclosed hresolved
  intro scene' hclosed'
  refine ⟨fun front hfront hproper => ?_, fun extra hextra => ?_⟩
  · obtain ⟨d, hd, hbroken⟩ := broken_front husable hfront hproper
    exact ⟨d, (resolve_error_iff rfl hclosed' _).mpr ⟨d, hd, rfl⟩, hbroken⟩
  · exact ⟨_, (resolve_error_iff rfl hclosed' _).mpr ⟨_, trailing_extra husable hextra, rfl⟩, rfl⟩

/-- A method with one parameter is described. Cut off behind the header of its parameters, the
frames announce more than is left. -/
theorem accepted_prefix_free_method :
    let frames : List Frame :=
      [.kind .method, .kind .nameSpace, .bool true, .text (some "f"), .int 0,
      .array .populated 1, .kind .nameSpace, .bool true]
    let scene : Scene := { compilation := Draft.empty.finish }
    (∃ resolved, ((ofFrames frames).resolve {} scene).1 = .ok resolved) ∧
      (∃ d, ((ofFrames (frames.take 6)).resolve {} scene).1 = .error (.defect d) ∧
        (d.kind = .truncated ∨ d.kind = .malformed)) ∧
      ∃ d, ((ofFrames (frames ++ [.int 0])).resolve {} scene).1 = .error (.defect d) ∧
        d.kind = .malformed := by
  intro frames scene
  have hclosed : scene.compilation.Closed := Compilation.Made.closed (.finish .empty)
  obtain ⟨resolved, hresolved⟩ :
      ∃ resolved, ((ofFrames frames).resolve {} scene).1 = .ok resolved := ⟨_, rfl⟩
  obtain ⟨hfront, hextra⟩ := accepted_prefix_free hclosed hresolved scene hclosed
  exact ⟨⟨resolved, hresolved⟩, hfront _ (List.take_prefix 6 frames) (by decide),
    hextra _ (by decide)⟩

end Key
end Moniker
