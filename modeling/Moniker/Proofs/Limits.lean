import Mathlib.Data.Nat.Find
import Moniker.Proofs.Grammar

/-!
# How deeply keys nest

Reading under a lower limit goes like reading under a higher one until the limit is reached, and
ends with that (`Scan.Curbs`). So a key whose frames are a segment is read in the same way under
every limit that its depth does not exceed, and under any other the only thing wrong with it is its
depth (`Key.defect?_of_derives`).
-/

namespace Moniker

namespace Scan

variable {α β : Type} {limit : Nat}

/-- The first step does as the second one, unless it reaches the limit. Whatever it does, it leaves
a defect that has ended the scan. -/
structure Curbs (limit : Nat) (step step' : Scanner α) : Prop where
  keeps : ∀ scan : Scan, ∀ d, scan.defect = some d → (step.run scan).2.defect = some d
  same : ∀ scan : Scan, step.run scan = step'.run scan ∨
    (step.run scan).2.defect = some (.tooDeep limit)

theorem Tracks.keeps {step : Scanner α} {post : α → Option Defect → List Frame → Prop}
    (h : Tracks step post) {scan : Scan} {d : Defect} (hd : scan.defect = some d) :
    (step.run scan).2.defect = some d := by
  obtain ⟨e, frames, hdefect, -⟩ := h scan
  rw [hdefect, hd]
  rfl

/-- A step that the limit has no part in. -/
theorem Tracks.curbs {step : Scanner α} {post : α → Option Defect → List Frame → Prop}
    (h : Tracks step post) : Curbs limit step step :=
  ⟨fun _ _ hd => h.keeps hd, fun _ => .inl rfl⟩

namespace Curbs

theorem done (a : α) : Curbs limit (pure a) (pure a) := ⟨fun _ _ hd => hd, fun _ => .inl rfl⟩

theorem bind {step step' : Scanner α} {next next' : α → Scanner β} (h : Curbs limit step step')
    (h' : ∀ a, Curbs limit (next a) (next' a)) :
    Curbs limit (step >>= next) (step' >>= next') := by
  refine ⟨fun scan d hd => (h' _).keeps _ d (h.keeps scan d hd), fun scan => ?_⟩
  rw [run_bind, run_bind]
  rcases h.same scan with hsame | hlimit
  · rw [hsame]
    exact (h' _).same _
  · exact .inr ((h' _).keeps _ _ hlimit)

theorem times {step step' : Scanner α} (h : Curbs limit step step') (n : Nat) :
    Curbs limit (Scan.times step n) (Scan.times step' n) := by
  induction n with
  | zero => exact done []
  | succ n ih => exact h.bind fun a => ih.bind fun rest => done (a :: rest)

theorem array {step step' : Scanner α} (h : Curbs limit step step') :
    Curbs limit (Scan.array step) (Scan.array step') := by
  refine Tracks.header.curbs.bind fun slot => ?_
  cases slot with
  | error d => exact done _
  | ok read => exact (h.times read.2).bind fun items => done _

end Curbs
end Scan

namespace Description

open Scan

variable {o : ResolveOptions} {n m : Nat}

/-- What is read of a body depends on the limit by the segments inside it only. -/
theorem curbs_body {limit : Nat} {nested nested' : Scanner Description}
    (h : Curbs limit nested nested') (category : Category) :
    Curbs limit (bodyOfFrames nested category) (bodyOfFrames nested' category) := by
  cases category with
  | nameSpace =>
      refine Tracks.bool.curbs.bind fun slot => ?_
      cases slot with
      | error d => exact .done _
      | ok flag =>
          cases flag with
          | true => exact .done _
          | false => exact h.bind fun _ => Tracks.name.curbs.bind fun _ => .done _
  | namedType | method =>
      exact h.bind fun _ => Tracks.name.curbs.bind fun _ => Tracks.count.curbs.bind fun _ =>
        h.array.bind fun _ => .done _
  | arrayType => exact h.bind fun _ => Tracks.count.curbs.bind fun _ => .done _
  | pointerType => exact h.bind fun _ => .done _
  | tupleType =>
      exact h.array.bind fun _ => (Tracks.listing Tracks.text).curbs.bind fun _ =>
        (Tracks.listing Tracks.location).curbs.bind fun _ => .done _
  | anonymousType =>
      exact h.array.bind fun _ => (Tracks.listing Tracks.text).curbs.bind fun _ =>
        (Tracks.listing Tracks.bool).curbs.bind fun _ =>
          (Tracks.listing Tracks.location).curbs.bind fun _ => .done _
  | typeParameterOrdinal =>
      exact Tracks.count.curbs.bind fun _ => Tracks.count.curbs.bind fun _ => .done _
  | typeParameter | field | parameter =>
      exact h.bind fun _ => Tracks.name.curbs.bind fun _ => .done _
  | property =>
      exact h.bind fun _ => Tracks.name.curbs.bind fun _ => h.array.bind fun _ => .done _
  | localVariable =>
      exact h.bind fun _ => Tracks.name.curbs.bind fun _ => Tracks.count.curbs.bind fun _ => .done _

theorem run_ofFrames_zero (hlive : o.cancelled = false) {scan : Scan} (hscan : scan.defect = none) :
    ((ofFrames o 0).run scan).2.defect = some (.tooDeep o.maxDepth.toNat) := by
  obtain ⟨position, rest, defect⟩ := scan
  obtain rfl : defect = none := hscan
  have hadmitted : (admission o).run.run { position := position, rest := rest } =
      (.ok (), { position := position, rest := rest }) := by
    unfold admission
    rw [hlive]
    rfl
  rw [ofFrames, run_map, run_readings, hadmitted]
  rfl

/-- Once the scan has ended, the limit is no matter. -/
theorem run_ofFrames_ended {scan : Scan} {d : Defect} (hscan : scan.defect = some d) :
    (ofFrames o n).run scan = (unreadable d, scan) := by
  obtain ⟨position, rest, defect⟩ := scan
  obtain rfl : defect = some d := hscan
  cases n <;> rfl

/-- Under a smaller budget a segment is read as under a greater one, or found too deep. -/
theorem curbs_ofFrames (hlive : o.cancelled = false) (hle : n ≤ m) :
    Curbs o.maxDepth.toNat (ofFrames o n) (ofFrames o m) := by
  induction n generalizing m with
  | zero =>
      refine ⟨fun _ _ hd => (tracks_ofFrames o 0).keeps hd, fun scan => ?_⟩
      cases hscan : scan.defect with
      | none => exact .inr (run_ofFrames_zero hlive hscan)
      | some d => exact .inl (by rw [run_ofFrames_ended hscan, run_ofFrames_ended hscan])
  | succ n ih =>
      obtain ⟨m, rfl⟩ : ∃ m', m = m' + 1 := ⟨m - 1, by omega⟩
      rw [ofFrames_eq hlive, ofFrames_eq hlive]
      refine Tracks.kind.curbs.bind fun slot => ?_
      cases slot with
      | error d => exact .done _
      | ok category => exact curbs_body (ih (Nat.le_of_succ_le_succ hle)) category

end Description

namespace Grammar

variable {n m : Nat} {frames : List Frame}

/-- What is not nested too deeply for one limit is not for a greater one. -/
theorem Derives.mono (h : Derives n frames) (hle : n ≤ m) : Derives m frames := by
  obtain ⟨d, hshaped, rfl⟩ := exists_description h
  exact derives_frames (hshaped.mono hle)

/-- A segment has a depth, which is the least limit under which it is one. -/
theorem Derives.exists_depth (h : Derives n frames) :
    ∃ depth, ∀ n, Derives n frames ↔ depth ≤ n := by
  classical
  have hexists : ∃ n, Derives n frames := ⟨n, h⟩
  exact ⟨Nat.find hexists, fun n =>
    ⟨fun h => Nat.find_min' hexists h, fun hle => (Nat.find_spec hexists).mono hle⟩⟩

end Grammar

/-- The defect that ends the reading of a key's frames is what is wrong with the key. -/
theorem Key.defect?_of_ended {o : ResolveOptions} {k : Key} {d : Defect}
    (h : (k.scanned o).2.defect = some d) : k.defect? o = some d := by
  obtain ⟨e, frames, hdefect, -, hread, -⟩ :=
    Description.tracks_ofFrames o o.maxDepth.toNat { position := 0, rest := k.frames }
  change (k.scanned o).2.defect = e at hdefect
  change (k.scanned o).1.defect? = e at hread
  rw [defect?, hread, ← hdefect, h]
  rfl

/-- Where the frames of a key are a segment, there is nothing wrong with the key but its depth. -/
theorem Key.defect?_of_derives {o : ResolveOptions} {k : Key} {n : Nat}
    (hlive : o.cancelled = false) (h : Grammar.Derives n k.frames) :
    k.defect? o = none ∨ k.defect? o = some (.tooDeep o.maxDepth.toNat) := by
  by_cases hle : n ≤ o.maxDepth.toNat
  · exact .inl ((defect?_eq_none_iff hlive).mpr (h.mono hle))
  obtain ⟨d, hshaped, hframes⟩ := Grammar.exists_description h
  have hrun := hshaped.yields hlive 0 []
  rw [List.append_nil, hframes] at hrun
  rcases (Description.curbs_ofFrames hlive (Nat.le_of_not_le hle)).same
    { position := 0, rest := k.frames } with hsame | hlimit
  · refine .inl ?_
    rw [defect?, scanned, hsame, hrun]
    simp [show d.defect? = none from hshaped.intact]
  · exact .inr (defect?_of_ended hlimit)

end Moniker
