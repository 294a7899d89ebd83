import Moniker.Proofs.Building
import Moniker.Proofs.Grammar
import Moniker.Proofs.Programs

/-!
# Which keys are usable

Whether a key is usable is a matter of its frames and of the depth to which keys may nest, whatever
compilation it is resolved against. The signature of a method is gone through once per candidate
and lookups are skipped where a part has failed, but neither shows in the defects: resolving ends
with the first defect that reading the frames has found (`Description.resolve_ends`).
-/

namespace Moniker

/-- Reading frames has no use for the way names compare. -/
theorem Description.ofFrames_congr {o o' : ResolveOptions} (hdepth : o'.maxDepth = o.maxDepth)
    (hcancelled : o'.cancelled = o.cancelled) (n : Nat) : ofFrames o' n = ofFrames o n := by
  have hadmission : admission o' = admission o := by rw [admission, admission, hcancelled]
  induction n with
  | zero => rw [ofFrames, ofFrames, hadmission, hdepth]
  | succ n ih => rw [ofFrames, ofFrames, hadmission, ih]

namespace Key

variable {o o' : ResolveOptions} {k : Key} {scene scene' : Scene}

theorem scanned_congr (hdepth : o'.maxDepth = o.maxDepth)
    (hcancelled : o'.cancelled = o.cancelled) :
    k.scanned o' = k.scanned o := by
  rw [scanned, scanned, Description.ofFrames_congr hdepth hcancelled, hdepth]

theorem defect?_congr (hdepth : o'.maxDepth = o.maxDepth)
    (hcancelled : o'.cancelled = o.cancelled) :
    k.defect? o' = k.defect? o := by
  rw [defect?, defect?, scanned_congr hdepth hcancelled]

/-- A key is usable only in a call that is not cancelled. -/
theorem live_of_usable (h : k.defect? o = none) : o.cancelled = false := by
  by_contra hcancelled
  obtain ⟨d, hrun, -⟩ := Description.run_ofFrames_refused (n := o.maxDepth.toNat)
    (.inl (by simpa using hcancelled)) { position := 0, rest := k.frames }
  rw [defect?, scanned, hrun] at h
  cases h

/-- Resolving ends with a defect exactly if the key has that defect. -/
theorem resolve_error_iff (hversion : k.version = currentVersion)
    (hclosed : scene.compilation.Closed) (halt : Halt) :
    (k.resolve o scene).1 = .error halt ↔ ∃ d, k.defect? o = some d ∧ halt = .defect d := by
  rw [(resolve_eq hversion hclosed).1, outcome]
  cases k.defect? o with
  | none => simp [Except.mapError]
  | some d => simp [Except.mapError, eq_comm]

/-- A key of the supported version is unusable if and only if its frames are not exactly one segment
nested at most as deeply as allowed. The defect does not depend on the compilation, nor on how
names compare, and resolving never faults. -/
theorem unusable_iff (hversion : k.version = currentVersion)
    (hmade : scene.compilation.Made fun t r => r.Issued t)
    (hmade' : scene'.compilation.Made fun t r => r.Issued t)
    (hcancelled : o.cancelled = false) (hcancelled' : o'.cancelled = false)
    (hdepth : o'.maxDepth = o.maxDepth) :
    ((∃ d, (k.resolve o scene).1 = .error (.defect d)) ↔
        ¬ Grammar.Derives o.maxDepth.toNat k.frames) ∧
      (∀ d, (k.resolve o scene).1 = .error (.defect d) ↔
        (k.resolve o' scene').1 = .error (.defect d)) ∧
      ∀ fault place, (k.resolve o scene).1 ≠ .error (.fault fault place) := by
  have herror := resolve_error_iff (o := o) hversion hmade.closed
  have herror' := resolve_error_iff (o := o') hversion hmade'.closed
  refine ⟨?_, fun d => ?_, fun fault place h => ?_⟩
  · rw [← defect?_eq_none_iff hcancelled]
    constructor
    · rintro ⟨d, hd⟩ hnone
      obtain ⟨d', hd', -⟩ := (herror _).mp hd
      rw [hnone] at hd'
      cases hd'
    · intro hsome
      obtain ⟨d, hd⟩ := Option.ne_none_iff_exists'.mp hsome
      exact ⟨d, (herror _).mpr ⟨d, hd, rfl⟩⟩
  · rw [herror, herror', defect?_congr hdepth (hcancelled'.trans hcancelled.symm)]
  · obtain ⟨d, -, hd⟩ := (herror _).mp h
    cases hd

/-- The key of the method `m` of the class `C` with one parameter, whose type `int` has as many type
parameters as the frame says. -/
def ofSignature (arity : Int64) : Key :=
  .ofFrames [.kind .method, .kind .namedType, .kind .nameSpace, .bool true,
    .text (some "C"), .int 0,
    .array .absent 0, .text (some "m"), .int 0, .array .populated 1, .kind .namedType,
    .kind .nameSpace, .bool true, .text (some "int"), .int arity, .array .absent 0]

/-- The signature is read twice where `C` has two methods `m`, and once where it has none. Either
way the key is usable, and with a negative number of type parameters it has the same defect. -/
theorem unusable_replayed :
    let overloaded := (Draft.ofRequests [.namedType Draft.global "C" [], .method ⟨5⟩ "m" [],
      .parameter ⟨6⟩ "x" Draft.int, .method ⟨5⟩ "m" [], .parameter ⟨8⟩ "x" Draft.string]).finish
    let bare := (Draft.ofRequests [.namedType Draft.global "C" []]).finish
    overloaded.genericsBearing {} .method [⟨5⟩] "m" 0 = [⟨6⟩, ⟨8⟩] ∧
      bare.genericsBearing {} .method [⟨5⟩] "m" 0 = [] ∧
      (¬ ∃ d, ((ofSignature 0).resolve {} { compilation := overloaded }).1 = .error (.defect d)) ∧
      (¬ ∃ d, ((ofSignature 0).resolve { ignoreCase := true } { compilation := bare }).1 =
        .error (.defect d)) ∧
      ((ofSignature (-1)).resolve {} { compilation := overloaded }).1 =
        .error (.defect (.negativeCount (-1) 14)) ∧
      ((ofSignature (-1)).resolve { ignoreCase := true } { compilation := bare }).1 =
        .error (.defect (.negativeCount (-1) 14)) := by
  intro overloaded bare
  have hoverloaded : overloaded.Made fun t r => r.Issued t :=
    .finish ((Draft.made_ofRequests (by decide)).mono fun _ _ h => h.issued)
  have hbare : bare.Made fun t r => r.Issued t :=
    .finish ((Draft.made_ofRequests (by decide)).mono fun _ _ h => h.issued)
  have hiff (arity : Int64) := @unusable_iff {} { ignoreCase := true } (ofSignature arity)
    { compilation := overloaded } { compilation := bare } rfl hoverloaded hbare rfl rfl rfl
  have husable : ¬ ∃ d, ((ofSignature 0).resolve {} { compilation := overloaded }).1 =
      .error (.defect d) := by
    rw [(hiff 0).1, not_not, ← defect?_eq_none_iff rfl]
    decide
  have hdefect : ((ofSignature (-1)).resolve {} { compilation := overloaded }).1 =
      .error (.defect (.negativeCount (-1) 14)) :=
    (resolve_error_iff rfl hoverloaded.closed _).mpr ⟨_, by decide, rfl⟩
  have husable' : ¬ ∃ d, ((ofSignature 0).resolve { ignoreCase := true }
      { compilation := bare }).1 = .error (.defect d) :=
    fun ⟨d, hd⟩ => husable ⟨d, ((hiff 0).2.1 d).mpr hd⟩
  exact ⟨by decide, by decide, husable, husable', hdefect, ((hiff (-1)).2.1 _).mp hdefect⟩

end Key
end Moniker
