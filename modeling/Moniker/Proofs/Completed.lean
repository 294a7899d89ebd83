import Moniker.Proofs.Fused

/-!
# Completed reads

A pass that ends with a value consists of steps that end with values, one after the other, and there
is an inversion for each way to put steps together. `Pass.Fuses.perform_iff` says that a completed
pass is a completed read of a `Reader`, so that what a segment is made of can be told in terms of
readers alone: `Reader.readKey_inv` takes a completed read of a segment apart into its kind frame
and the read of its body.
-/

namespace Moniker

namespace Reader

/-- The second reader is the first one at a position further on. -/
def Advances (r r' : Reader) : Prop :=
  ∃ position, r.place.position ≤ position ∧ position ≤ r.frames.length ∧ r' = r.moved position

/-- The reader is among its frames. -/
def Inside (r : Reader) : Prop := r.place.position ≤ r.frames.length

variable {r r' r'' : Reader}

theorem Inside.refl (h : r.Inside) : r.Advances r := ⟨r.place.position, Nat.le_refl _, h, rfl⟩

theorem Advances.inside (h : r.Advances r') : r'.Inside := by
  obtain ⟨position, -, hinside, rfl⟩ := h
  exact hinside

theorem Advances.trans (h : r.Advances r') (h' : r'.Advances r'') : r.Advances r'' := by
  obtain ⟨position, hle, -, rfl⟩ := h
  obtain ⟨position', hle', hinside, rfl⟩ := h'
  exact ⟨position', Nat.le_trans hle hle', hinside, rfl⟩

theorem Advances.le (h : r.Advances r') : r.place.position ≤ r'.place.position := by
  obtain ⟨position, hle, -, rfl⟩ := h
  exact hle

theorem Advances.frames (h : r.Advances r') : r'.frames = r.frames := by
  obtain ⟨position, -, -, rfl⟩ := h
  rfl

theorem Advances.methods (h : r.Advances r') : r'.place.methods = r.place.methods := by
  obtain ⟨position, -, -, rfl⟩ := h
  rfl

/-- What the reader is about to scan. -/
def ahead (r : Reader) : Scan :=
  { position := r.place.position, rest := r.frames.drop r.place.position }

theorem Inside.faces (h : r.Inside) : r.Faces r.ahead := faces_self h

theorem Outcome.eq_mk {α : Type} {outcome : Outcome α} {a : α} (h : outcome.value = .ok a) :
    outcome = ⟨.ok a, outcome.reader, outcome.scene⟩ := by
  rw [← h]

/-- The reader after the kind frame, inside the segment. -/
def entered (r : Reader) : Reader := { r with place := r.place.enter }

end Reader

/-! ## Scenes -/

namespace Scene

/-- Inside the segment that begins where the reader stands. -/
def entered (scene : Scene) (category : Category) (r : Reader) : Scene :=
  { scene with events := scene.events.push (.entered category r.entered.place.position) }

/-- After a segment that came to this. -/
def left (scene : Scene) (category : Category) : Resolved → Scene
  | .ok _ => scene
  | .error reason => { scene with events := scene.events.push (.failed category reason) }

/-- After a buffer has been borrowed. -/
def lending (α : Type) [Lends α] (scene : Scene) (presence : Presence) (n : Nat) : Scene :=
  { scene with arena := (scene.arena.acquire presence n : Loan α × Arena).2 }

/-- After a buffer has been given back. -/
def returned [Lends α] (scene : Scene) (loan : Loan α) : Scene :=
  { scene with arena := scene.arena.release loan }

/-- After the buffer of an array is given back, if the array has one. -/
def returnedEither [Lends α] (scene : Scene) : Except Failure (Loan α) → Scene
  | .ok loan => scene.returned loan
  | .error _ => scene

variable (scene : Scene)

@[simp] theorem compilation_entered (category : Category) (r : Reader) :
    (scene.entered category r).compilation = scene.compilation := rfl

@[simp] theorem compilation_left (category : Category) (resolved : Resolved) :
    (scene.left category resolved).compilation = scene.compilation := by
  cases resolved <;> rfl

@[simp] theorem compilation_returned [Lends α] (loan : Loan α) :
    (scene.returned loan).compilation = scene.compilation := rfl

@[simp] theorem compilation_returnedEither [Lends α] (lent : Except Failure (Loan α)) :
    (scene.returnedEither lent).compilation = scene.compilation := by
  cases lent <;> rfl

@[simp] theorem compilation_lending (α : Type) [Lends α] (presence : Presence) (n : Nat) :
    (scene.lending α presence n).compilation = scene.compilation := rfl

end Scene

/-! ## Inversions -/

namespace Decode

variable {α β : Type} {step : Decode α} {scene scene' : Scene} {b : β}

theorem bind_inv {next : α → Decode β} (h : (step >>= next).run scene = (.ok b, scene')) :
    ∃ a mid, step.run scene = (.ok a, mid) ∧ (next a).run mid = (.ok b, scene') := by
  rw [run_bind] at h
  rcases hstep : step.run scene with ⟨outcome, mid⟩
  rw [hstep] at h
  cases outcome with
  | ok a => exact ⟨a, mid, rfl, h⟩
  | error halt => cases h

theorem query_inv {place : Place} {question : Compilation → Except Fault α} {a : α}
    (h : (query place question).run scene = (.ok a, scene')) :
    question scene.compilation = .ok a ∧ scene' = scene := by
  obtain ⟨now, mid, hget, hrest⟩ := bind_inv h
  cases hget
  cases hquestion : question scene.compilation with
  | ok answer =>
    simp only [hquestion] at hrest
    cases hrest
    exact ⟨rfl, rfl⟩
  | error fault =>
    simp only [hquestion] at hrest
    cases hrest

theorem build_inv {request : Compilation → α × Compilation} {a : α}
    (h : (build request).run scene = (.ok a, scene')) :
    a = (request scene.compilation).1 ∧
      scene' = { scene with compilation := (request scene.compilation).2 } := by
  cases h
  exact ⟨rfl, rfl⟩

/-- A part that failed is the outcome, and one that resolved is gone on with. -/
theorem require_inv {category : Category} {part : String} {resolved : Except Failure α}
    {onward : α → Decode Resolved} {outcome : Resolved}
    (h : (require category part resolved onward).run scene = (.ok outcome, scene')) :
    (∃ reason, resolved = .error reason ∧ outcome = .error (.field category.codec part reason) ∧
      scene' = scene) ∨
    ∃ a, resolved = .ok a ∧ (onward a).run scene = (.ok outcome, scene') := by
  cases resolved with
  | ok a => exact .inr ⟨a, rfl, h⟩
  | error reason =>
    cases h
    exact .inl ⟨reason, rfl, rfl, rfl⟩

end Decode

namespace Pass

/-- From one state, the pass ends with a value in another. -/
def Yields (pass : Pass α) (state : Reader × Scene) (a : α) (after : Reader × Scene) : Prop :=
  pass.run state = (.ok a, after)

variable {α β : Type} {step : Pass α} {pass : Pass β} {state after : Reader × Scene} {a : α} {b : β}
  {r r' : Reader} {scene scene' : Scene}

theorem pure_inv {a' : α} (h : (pure a : Pass α).Yields state a' after) :
    a' = a ∧ after = state := by
  cases h
  exact ⟨rfl, rfl⟩

theorem bind_inv {next : α → Pass β} (h : (step >>= next).Yields state b after) :
    ∃ a mid, step.Yields state a mid ∧ (next a).Yields mid b after := by
  unfold Yields at *
  rw [run_bind] at h
  rcases hstep : step.run state with ⟨outcome, mid⟩
  rw [hstep] at h
  cases outcome with
  | ok a => exact ⟨a, mid, rfl, h⟩
  | error halt => cases h

theorem map_inv {f : α → β} (h : (f <$> step).Yields state b after) :
    ∃ a, step.Yields state a after ∧ b = f a := by
  rw [map_eq_pure_bind] at h
  obtain ⟨a, mid, hstep, hrest⟩ := bind_inv h
  obtain ⟨rfl, rfl⟩ := pure_inv hrest
  exact ⟨a, hstep, rfl⟩

theorem lift_inv {step : Decode α} (h : (lift step).Yields (r, scene) a after) :
    ∃ scene', step.run scene = (.ok a, scene') ∧ after = (r, scene') := by
  unfold Yields at h
  rw [run_lift] at h
  rcases hstep : step.run scene with ⟨outcome, mid⟩
  rw [hstep] at h
  cases h
  exact ⟨mid, rfl, rfl⟩

theorem orGiveBack_inv [Lends α] {loan : Loan α} (h : (orGiveBack loan pass).Yields state b after) :
    pass.Yields state b after := by
  unfold Yields at *
  rw [run_orGiveBack] at h
  rcases hpass : pass.run state with ⟨outcome, mid⟩
  rw [hpass] at h
  cases outcome with
  | ok b' => exact h
  | error halt => cases h

theorem during_inv [Lends α] {loan : Loan α} (h : (during loan pass).Yields state b (r', scene')) :
    ∃ scene, pass.Yields state b (r', scene) ∧ scene' = scene.returned loan := by
  obtain ⟨b', ⟨reader, mid⟩, hpass, hrest⟩ := bind_inv h
  obtain ⟨_, _, hgive, hdone⟩ := bind_inv hrest
  obtain ⟨_, hrun, rfl⟩ := lift_inv hgive
  obtain ⟨rfl, heq⟩ := pure_inv hdone
  cases hrun
  cases heq
  exact ⟨mid, orGiveBack_inv hpass, rfl⟩

theorem duringEither_inv [Lends α] {lent : Except Failure (Loan α)}
    (h : (duringEither lent pass).Yields state b (r', scene')) :
    ∃ scene, pass.Yields state b (r', scene) ∧ scene' = scene.returnedEither lent := by
  cases lent with
  | ok loan => exact during_inv h
  | error reason => exact ⟨scene', h, rfl⟩

theorem afterwards_inv {undo : Pass Unit} (h : (afterwards step undo).Yields state a after) :
    ∃ mid, step.Yields state a mid ∧ undo.Yields mid () after := by
  unfold Yields at *
  rw [run_afterwards] at h
  rcases hstep : step.run state with ⟨outcome, mid⟩
  rw [hstep] at h
  cases outcome with
  | ok value =>
    obtain ⟨u, last, hundo, hdone⟩ := bind_inv h
    obtain ⟨rfl, rfl⟩ := pure_inv hdone
    exact ⟨mid, rfl, hundo⟩
  | error halt =>
    cases halt with
    | defect d =>
      -- a defect is thrown again
      have hthrown : (undo >>= fun _ => defect d : Pass α).Yields mid a after := h
      obtain ⟨u, last, -, hthrow⟩ := bind_inv hthrown
      cases hthrow
    | fault fault place => cases h

/-! ## Segments -/

/-- The reader at another depth. -/
def atDepth (r : Reader) (depth : Nat) : Reader :=
  { r with place := { r.place with depth := depth } }

theorem deeper_inv {u : Unit} (h : deeper.Yields (r, scene) u after) :
    after = (atDepth r (r.place.depth + 1), scene) := by
  have hplace : place.run (r, scene) = (.ok r.place, r, scene) := rfl
  unfold Yields deeper at h
  rw [run_bind, hplace] at h
  dsimp only at h
  split at h
  · cases h
    rfl
  · cases h

theorem shallower_inv {u : Unit} (h : shallower.Yields (r, scene) u after) :
    after = (atDepth r (r.place.depth - 1), scene) := by
  have hplace : place.run (r, scene) = (.ok r.place, r, scene) := rfl
  unfold Yields shallower at h
  rw [run_bind, hplace] at h
  dsimp only at h
  rw [run_bind, run_minus] at h
  by_cases hle : 1 ≤ r.place.depth
  · rw [if_pos hle] at h
    cases h
    rfl
  · rw [if_neg hle] at h
    cases h

theorem inside_inv {pass : Place → Pass β} (h : (inside pass).Yields (r, scene) b after) :
    ∃ r₁ scene₁, (pass (atDepth r (r.place.depth + 1)).place).Yields
      (atDepth r (r.place.depth + 1), scene) b (r₁, scene₁) ∧
        after = (atDepth r₁ (r₁.place.depth - 1), scene₁) := by
  obtain ⟨u, mid, hdeeper, hrest⟩ := bind_inv h
  obtain rfl := deeper_inv hdeeper
  obtain ⟨⟨r₁, scene₁⟩, hpass, hshallower⟩ := afterwards_inv hrest
  exact ⟨r₁, scene₁, hpass, shallower_inv hshallower⟩

theorem opened_inv {f : Factories} {o : ResolveOptions} {nested : Pass Resolved}
    {category : Category} {resolved : Resolved}
    (h : (opened f o nested category).Yields (r.moved (r.place.position + 1), scene)
      resolved (r', scene')) :
    ∃ r₁ scene₁, (body f o nested r.entered.place category).Yields
      (r.entered, scene.entered category r) resolved (r₁, scene₁) ∧
        r' = atDepth r₁ (r₁.place.depth - 1) ∧ scene' = scene₁.left category resolved := by
  obtain ⟨_, _, hposition, hrest⟩ := bind_inv h
  cases hposition
  obtain ⟨_, _, hemit, hrest⟩ := bind_inv hrest
  obtain ⟨_, hrun, rfl⟩ := lift_inv hemit
  cases hrun
  obtain ⟨resolved', _, hinside, hrest⟩ := bind_inv hrest
  obtain ⟨r₁, scene₁, hbody, rfl⟩ := inside_inv hinside
  cases resolved' with
  | ok resolution =>
    obtain ⟨rfl, heq⟩ := pure_inv hrest
    cases heq
    exact ⟨r₁, scene', hbody, rfl, rfl⟩
  | error reason =>
    obtain ⟨_, _, hemit, hdone⟩ := bind_inv hrest
    obtain ⟨_, hrun, rfl⟩ := lift_inv hemit
    cases hrun
    obtain ⟨rfl, heq⟩ := pure_inv hdone
    cases heq
    exact ⟨r₁, scene₁, hbody, rfl, rfl⟩

theorem segment_inv {f : Factories} {o : ResolveOptions} {nested : Pass Resolved}
    {resolved : Resolved} (h : (segment f o nested).Yields (r, scene) resolved after) :
    ∃ category mid, kind.Yields (r, scene) category mid ∧
      (opened f o nested category).Yields mid resolved after := by
  unfold segment at h
  by_cases hcancelled : o.cancelled
  · rw [if_pos hcancelled] at h
    cases h
  rw [if_neg hcancelled] at h
  by_cases hdeep : o.maxDepth.toNat ≤ r.place.depth
  · obtain ⟨place, _, hplace, hrest⟩ := bind_inv h
    cases hplace
    rw [if_pos hdeep] at hrest
    cases hrest
  · obtain ⟨place, _, hplace, hrest⟩ := bind_inv h
    cases hplace
    rw [if_neg hdeep] at hrest
    obtain ⟨category, mid, hkind, hopened⟩ := bind_inv hrest
    exact ⟨category, mid, hkind, hopened⟩

theorem expect_inv {wanted : Frame.Content} {value? : Frame → Option α}
    (h : (expect wanted value?).Yields (r, scene) a after) :
    ∃ frame, r.frames[r.place.position]? = some frame ∧ value? frame = some a ∧
      after = (r.moved (r.place.position + 1), scene) := by
  unfold Yields expect at h
  rw [run_bind, run_next] at h
  cases hframe : r.frames[r.place.position]? with
  | none =>
    rw [hframe] at h
    cases h
  | some frame =>
    rw [hframe] at h
    dsimp only at h
    cases hvalue : value? frame with
    | some value =>
      rw [hvalue] at h
      cases h
      exact ⟨frame, rfl, hvalue, rfl⟩
    | none =>
      rw [hvalue] at h
      obtain ⟨_, mid, -, hdefect⟩ := bind_inv (b := a) h
      cases hdefect

theorem kind_inv {category : Category} (h : kind.Yields (r, scene) category after) :
    r.frames[r.place.position]? = some (.kind category) ∧
      after = (r.moved (r.place.position + 1), scene) := by
  obtain ⟨frame, hframe, hvalue, hafter⟩ := expect_inv h
  refine ⟨?_, hafter⟩
  rw [hframe]
  cases frame <;> cases hvalue
  rfl

/-! ## Passes and readers -/

/-- A pass that does what scanning and resolving do is completed just as the read of a reader is. -/
theorem Fuses.perform_iff {scanner : Scanner α} (meaning : α → Scan → Decode β)
    (h : Fuses r (scanner.run r.ahead).2 (meaning (scanner.run r.ahead).1 (scanner.run r.ahead).2)
      pass) :
    pass.Yields (r, scene) b (r', scene') ↔
      r.perform scanner meaning scene = ⟨.ok b, r', scene'⟩ := by
  have hagrees := h scene
  unfold Yields
  have hscan : scanner.run r.ahead = ((scanner.run r.ahead).1, (scanner.run r.ahead).2) := rfl
  rw [Reader.perform_match meaning hscan]
  generalize (meaning _ _).run scene = run, pass.run (r, scene) = run' at hagrees
  cases hagrees with
  | done hreaches => constructor <;> intro heq <;> cases heq <;> rfl
  | defect hscan hle hinside => constructor <;> intro hfalse <;> cases hfalse
  | fault => constructor <;> intro hfalse <;> cases hfalse

/-- A completed pass moves the reader on. -/
theorem Fuses.advances {final : Scan} {meaning : Decode β} (h : Fuses r final meaning pass)
    (hyields : pass.Yields (r, scene) b (r', scene')) :
    r.Advances r' ∧ r' = r.moved final.position := by
  have hagrees := h scene
  unfold Yields at hyields
  rw [hyields] at hagrees
  generalize meaning.run scene = run at hagrees
  cases hagrees with
  | done hreaches => exact ⟨⟨_, hreaches.le, hreaches.faces.inside, rfl⟩, rfl⟩

/-- A slot is read just as the pass reads it, which leaves the scene alone. -/
theorem Spells.read_iff {reading : Reading α} {pass : Pass α} (h : Spells r r.ahead reading pass) :
    pass.Yields (r, scene) a (r', scene') ↔ r.read reading = (.ok a, r') ∧ scene' = scene := by
  have hagrees := h scene
  unfold Yields Reader.read Reader.scan
  rcases hscan : reading.run.run r.ahead with ⟨slot, final⟩
  have hhere : reading.run.run
      { position := r.place.position, rest := r.frames.drop r.place.position } =
        (slot, final) := hscan
  rw [hscan] at hagrees
  rw [hhere]
  cases slot with
  | ok value =>
    have hslot : (Decode.ofSlot (.ok value : Slot α)).run scene = (.ok value, scene) := rfl
    rw [hslot] at hagrees
    generalize pass.run (r, scene) = run' at hagrees
    cases hagrees with
    | done hreaches =>
      constructor
      · intro heq
        cases heq
        exact ⟨rfl, rfl⟩
      · rintro ⟨heq, rfl⟩
        cases heq
        rfl
  | error d =>
    have hslot : (Decode.ofSlot (.error d : Slot α)).run scene = (.error (.defect d), scene) := rfl
    rw [hslot] at hagrees
    generalize pass.run (r, scene) = run' at hagrees
    cases hagrees with
    | defect hscan hle hinside =>
      constructor
      · intro hfalse
        cases hfalse
      · rintro ⟨hfalse, -⟩
        cases hfalse

/-- A segment in one pass, as often as it is unfolded. -/
theorem nested_key (o : ResolveOptions) (frames : List Frame) (depth start : Nat) :
    Nested o (o.maxDepth.toNat - depth) frames depth start (key .own o) := by
  intro r scan _ hdepth _ hfaces scene
  rw [run_key]
  have hfuses := fuses_deepen o (fault .endless) (n := r.frames.length + 1) (by omega) hfaces
  have hbudget : r.budget o = o.maxDepth.toNat - depth := by rw [Reader.budget, hdepth]
  rw [hbudget] at hfuses
  exact hfuses scene

end Pass

namespace Reader

open Pass

variable {o : ResolveOptions} {r r' : Reader} {scene scene' : Scene}

theorem nested (r : Reader) (o : ResolveOptions) :
    Nested o (r.budget o) r.frames r.place.depth r.place.position (key .own o) :=
  nested_key o r.frames r.place.depth r.place.position

section Iffs

variable (h : r.Inside)
include h

theorem fuses_key : Fuses r ((Description.ofFrames o (r.budget o)).run r.ahead).2
    (((Description.ofFrames o (r.budget o)).run r.ahead).1.resolveAt o r.place) (key .own o) :=
  (r.nested o).part h.faces

theorem fuses_keys : Fuses r ((Scan.array (Description.ofFrames o (r.budget o))).run r.ahead).2
    (Decode.elements ((Scan.array (Description.ofFrames o (r.budget o))).run r.ahead).1.1
      (Description.resolveEach o
        ((Scan.array (Description.ofFrames o (r.budget o))).run r.ahead).1.2
        (r.place.forward 1))) (keys (key .own o)) :=
  (r.nested o).keys (q := r.place.position) rfl (Nat.le_refl _) h.faces

theorem key_iff {resolved : Resolved} : (key .own o).Yields (r, scene) resolved (r', scene') ↔
    r.readKey o scene = ⟨.ok resolved, r', scene'⟩ :=
  (fuses_key h).perform_iff fun (d : Description) _ => d.resolveAt o r.place

theorem keys_iff {lent : Except Failure (Loan SymbolId)} :
    (keys (key .own o)).Yields (r, scene) lent (r', scene') ↔
      r.readKeys o scene = ⟨.ok lent, r', scene'⟩ :=
  (fuses_keys h).perform_iff fun (array : Slot Presence × List Description) _ =>
    Decode.elements array.1 (Description.resolveEach o array.2 (r.place.forward 1))

theorem texts_iff {loan : Loan (Option String)} :
    (listing text).Yields (r, scene) loan (r', scene') ↔
      r.readTexts scene = ⟨.ok loan, r', scene'⟩ :=
  (Fuses.listing halts_text (fun _ _ => Spells.text) h.faces).perform_iff
    fun l _ => Decode.listing l

theorem bools_iff {loan : Loan Bool} :
    (listing bool).Yields (r, scene) loan (r', scene') ↔
      r.readBools scene = ⟨.ok loan, r', scene'⟩ :=
  (Fuses.listing halts_bool (fun _ _ => Spells.bool) h.faces).perform_iff
    fun l _ => Decode.listing l

theorem locations_iff {lent : Except Failure (Loan Location)} :
    (elements location).Yields (r, scene) lent (r', scene') ↔
      r.readLocations scene = ⟨.ok lent, r', scene'⟩ :=
  (Fuses.locations h.faces).perform_iff fun l _ => Decode.locations l

end Iffs

/-- A completed read of a segment begins at its kind frame and consists of the read of its body, one
segment further in. -/
theorem readKey_inv {resolved : Resolved} (h : r.Inside)
    (hread : r.readKey o scene = ⟨.ok resolved, r', scene'⟩) :
    ∃ category position scene₁, r.frames[r.place.position]? = some (.kind category) ∧
      r.entered.Inside ∧ r.entered.Advances (r.entered.moved position) ∧
      (body .own o (key .own o) r.entered.place category).Yields
        (r.entered, scene.entered category r)
        resolved (r.entered.moved position, scene₁) ∧
      r' = r.moved position ∧ scene' = scene₁.left category resolved := by
  have hinner : Nested o (r.budget o - 1) r.frames (r.place.depth + 1) (r.place.position + 1)
      (key .own o) := by
    have hbudget : r.budget o - 1 = o.maxDepth.toNat - (r.place.depth + 1) := Nat.sub_sub _ _ _
    rw [hbudget]
    exact nested_key o _ _ _
  have hsegment : (segment .own o (key .own o)).Yields (r, scene) resolved (r', scene') :=
    ((hinner.segment h.faces).perform_iff fun (d : Description) _ => d.resolveAt o r.place).mpr
      hread
  obtain ⟨category, mid, hkind, hopened⟩ := segment_inv hsegment
  obtain ⟨hframe, rfl⟩ := kind_inv hkind
  have hinside : r.entered.Inside := (List.getElem?_eq_some_iff.mp hframe).1
  obtain ⟨r₁, scene₁, hbody, rfl, rfl⟩ := opened_inv hopened
  obtain ⟨hadvances, hposition⟩ := ((r.entered.nested o).body hinside.faces category).advances hbody
  rw [hposition] at hadvances hbody ⊢
  exact ⟨category, _, scene₁, hframe, hinside, hadvances, hbody, rfl, rfl⟩

end Reader
end Moniker
