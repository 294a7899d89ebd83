import Moniker.Proofs.Abreast
import Moniker.Proofs.Fused

/-!
# Descending into a key

The position of a reader does not only grow: signatures are replayed, and each time the reader goes
back to where the signature begins. It never goes back to the kind frame of the segment whose
signature it is, though, so the segments inside a segment all begin further on than it does, and
there are only so many frames. A recursion that is unfolded once more than there are frames left
comes to an end by itself, at any depth that the options may allow and for any number of candidates.
-/

namespace Moniker

/-- Two runs that do not differ. -/
def Discipline.equal : Discipline where
  rel _ scene scene' := scene' = scene
  alike _ l l' := l' = l
  content h := congrArg Loan.content h
  push h a := congrArg (Loan.push · a) h
  quiet := fun _ _ _ _ h => h ▸ ⟨rfl, rfl⟩
  acquire := fun h _ _ => h ▸ ⟨rfl, rfl⟩
  release := fun hloan h => h ▸ hloan ▸ rfl

namespace Pass

/-- Runs a pass beyond the position, and another one at the position or before. -/
def beyond (position : Nat) (other pass : Pass α) : Pass α := do
  if (← Pass.position) ≤ position then other else pass

/-- Plain values, at most so many of which are read. -/
def listingUpTo [Lends α] (limit : Nat) (item : Pass α) : Pass (Loan α) := do
  let (presence, n) ← header
  let loan ← lift (Decode.borrow presence n)
  gather item (min n limit) loan

/-- Elements that may fail, at most so many of which are read. -/
def elementsUpTo [Lends α] (limit : Nat) (item : Pass (Except Failure α)) :
    Pass (Except Failure (Loan α)) := do
  let (presence, n) ← header
  let loan ← lift (Decode.borrow presence n)
  collect item 0 (min n limit) loan none

variable {f : Factories} {o : ResolveOptions} {frames : List Frame} {low : Nat}

theorem Abreast.run_eq {pass pass' : Pass α} (h : Abreast .equal frames low 0 pass pass' .plain)
    {r : Reader} (hstands : Stands frames low r) (scene : Scene) :
    pass'.run (r, scene) = pass.run (r, scene) := by
  have hmeets := h 0 r scene scene hstands rfl
  generalize pass.run (r, scene) = run, pass'.run (r, scene) = run' at hmeets
  cases hmeets with
  | done hplain _ hrel =>
    obtain ⟨rfl, -⟩ := hplain
    exact congrArg (fun scene => (_, _, scene)) hrel
  | halted _ hrel => exact congrArg (fun scene => (_, _, scene)) hrel

/-- A recursion that is unfolded often enough is the whole of it. -/
theorem Abreast.deepen_key {D : Discipline} (other : Pass Resolved) {n : Nat}
    (hn : frames.length - low < n) :
    Abreast D frames low 0 (Pass.deepen f o other n) (Pass.key f o) .plain := by
  intro keep r scene scene' hstands hrel
  rw [run_key, hstands.frames_eq]
  exact deepen _ _ hn (by omega) keep r scene scene' hstands hrel

theorem Abreast.beyond {D : Discipline} {pass pass' : Pass α} {post : Post α} {position : Nat}
    (h : Abreast D frames (position + 1) 0 pass pass' post) (other : Pass α) :
    Abreast D frames (position + 1) 0 pass (Pass.beyond position other pass') post := by
  intro keep r scene scene' hstands hrel
  have hle := hstands.le
  unfold Pass.beyond
  rw [run_position, if_neg (by omega)]
  exact h keep r scene scene' hstands hrel

theorem refused_ne_ok (report : Nat → Defect) (next : Unit → Pass α) (state : Reader × Scene)
    (a : α) (after : Reader × Scene) :
    (last >>= fun position => defect (report position) >>= next).run state ≠ (.ok a, after) := by
  obtain ⟨r, scene⟩ := state
  rw [run_bind, run_last, run_minus]
  split <;> exact fun h => nomatch h

/-- An array that is gone into has at most as many elements as there are frames left. -/
theorem header_count {r : Reader} {scene : Scene} {presence : Presence} {n : Nat}
    {after : Reader × Scene} (h : header.run (r, scene) = (.ok (presence, n), after)) :
    n ≤ r.frames.length - (r.place.position + 1) := by
  unfold header expect at h
  rw [bind_assoc, run_bind, run_next] at h
  cases hframe : r.frames[r.place.position]? with
  | none =>
    rw [hframe] at h
    cases h
  | some frame =>
    have hlt : r.place.position < r.frames.length := (List.getElem?_eq_some_iff.mp hframe).1
    rw [hframe] at h
    cases frame with
    | array shape announced =>
      simp only [pure_bind] at h
      split at h
      · exact absurd h (refused_ne_ok _ _ _ _ _)
      -- the count is compared with the frames that are left after the header
      · have hleft : left.run ({ r with place := r.place.forward 1 }, scene) =
            (.ok (r.frames.length - (r.place.position + 1)),
              { r with place := r.place.forward 1 }, scene) := by
          rw [run_left, run_minus]
          exact if_pos hlt
        rw [run_bind, hleft] at h
        dsimp only at h
        split at h
        · exact absurd h (refused_ne_ok _ _ _ _ _)
        · cases h
          exact Nat.le_of_not_lt ‹_›
    | _ => cases h

/-- The loop over an array runs at most as often as there are frames left after its header. -/
theorem run_elementsUpTo [Lends α] (item : Pass (Except Failure α)) (r : Reader) (scene : Scene) :
    (elementsUpTo (r.frames.length - (r.place.position + 1)) item).run (r, scene) =
      (elements item).run (r, scene) := by
  unfold elementsUpTo elements
  rw [run_bind, run_bind]
  rcases hheader : header.run (r, scene) with ⟨outcome, after⟩
  cases outcome with
  | error halt => rfl
  | ok read =>
    dsimp only
    rw [Nat.min_eq_left (header_count hheader)]

theorem run_listingUpTo [Lends α] (item : Pass α) (r : Reader) (scene : Scene) :
    (listingUpTo (r.frames.length - (r.place.position + 1)) item).run (r, scene) =
      (listing item).run (r, scene) := by
  unfold listingUpTo listing
  rw [run_bind, run_bind]
  rcases hheader : header.run (r, scene) with ⟨outcome, after⟩
  cases outcome with
  | error halt => rfl
  | ok read =>
    dsimp only
    rw [Nat.min_eq_left (header_count hheader)]

/-- Reading a segment comes to an end, whatever the frames, the compilation and the options are,
and wherever the reader stands. It takes no more levels of recursion than there are frames left, and
one, since nothing depends on what is done below them; a segment is read by reading those
inside it, of which none begins at the kind frame of the segment or before; and no loop over an
array runs more often than there are frames left after its header. With the compilation's own
builders this is how keys resolve. -/
theorem key_terminates (f : Factories) (o : ResolveOptions) (r : Reader) (scene : Scene) :
    (∀ more other, (deepen f o other (r.frames.length - r.place.position + 1 + more)).run
      (r, scene) =
      (key f o).run (r, scene)) ∧
    (segment f o (key f o)).run (r, scene) = (key f o).run (r, scene) ∧
    (∀ other, (segment f o (beyond r.place.position other (key f o))).run (r, scene) =
      (key f o).run (r, scene)) ∧
    (∀ (α : Type) [Lends α] (item : Pass α),
      (listingUpTo (r.frames.length - (r.place.position + 1)) item).run (r, scene) =
        (listing item).run (r, scene)) ∧
    (∀ (α : Type) [Lends α] (item : Pass (Except Failure α)),
      (elementsUpTo (r.frames.length - (r.place.position + 1)) item).run (r, scene) =
        (elements item).run (r, scene)) ∧
    ∀ k : Key, k.resolveThrough .own o scene = k.resolveIn o scene := by
  have hself : Stands r.frames r.place.position r := ⟨rfl, Nat.le_refl _⟩
  have hunfolded : (segment f o (key f o)).run (r, scene) = (key f o).run (r, scene) := by
    rw [run_key, deepen]
    exact (Abreast.segment fun _ => .deepen_key _ (by omega)).run_eq hself scene
  refine ⟨fun more other => ?_, hunfolded, fun other => ?_,
    fun _ _ item => run_listingUpTo item r scene,
    fun _ _ item => run_elementsUpTo item r scene, fun k => k.resolveThrough_own o scene⟩
  · exact ((Abreast.deepen_key other (by omega)).run_eq hself scene).symm
  -- inside a segment nobody is at the kind frame any more
  · rw [← hunfolded]
    exact (Abreast.segment fun _ => Abreast.key.beyond other).run_eq hself scene

end Pass
end Moniker
