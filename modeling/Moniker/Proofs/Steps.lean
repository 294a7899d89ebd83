import Mathlib.Data.List.Forall2
import Moniker.Proofs.Growth

/-!
# How decoding steps end

`Decode.Ends step c post` says how a step ends from the compilation `c`: it does not fault, it
leaves a later state of the compilation, and what it leaves and its outcome (a value, or the
defect that halts it) satisfy `post`. There is one rule for each kind of step, so that a step put
together from others is followed without looking into the monad, the arena or the events. Scenes
are kept `Sound`: the compilation is closed, and the buffers that wait in the arena are empty, so
that nothing read before shows in a buffer lent later.
-/

namespace Moniker

/-! ## Arenas -/

/-- No idle buffer has anything in it. -/
def Pool.Clean (p : Pool α) : Prop := ∀ b ∈ p.idle, b.items = #[]

/-- No idle buffer of any pool has anything in it. -/
structure Arena.Clean (a : Arena) : Prop where
  symbols : a.symbols.Clean
  strings : a.strings.Clean
  bools : a.bools.Clean
  locations : a.locations.Clean

theorem Arena.clean_empty : ({} : Arena).Clean := by
  constructor <;> intro b hb <;> cases hb

/-- The pool of an element type is one of those that an arena keeps. -/
class Lends.Lawful (α : Type) [Lends α] : Prop where
  pool_clean : ∀ {a : Arena}, a.Clean → (Lends.pool a : Pool α).Clean
  setPool_clean : ∀ {a : Arena} {p : Pool α}, a.Clean → p.Clean → (Lends.setPool p a).Clean

instance : Lends.Lawful SymbolId := ⟨(·.symbols), fun h hp => { h with symbols := hp }⟩
instance : Lends.Lawful (Option String) := ⟨(·.strings), fun h hp => { h with strings := hp }⟩
instance : Lends.Lawful Bool := ⟨(·.bools), fun h hp => { h with bools := hp }⟩
instance : Lends.Lawful Location := ⟨(·.locations), fun h hp => { h with locations := hp }⟩

@[simp] theorem Buffer.items_reserve (b : Buffer α) (n : Nat) : (b.reserve n).items = b.items := by
  unfold Buffer.reserve
  split <;> rfl

@[simp] theorem Loan.items_push (l : Loan α) (a : α) : (l.push a).items = l.items ++ [a] := by
  simp [Loan.items, Loan.push, Buffer.push]

@[simp] theorem Loan.presence_push (l : Loan α) (a : α) : (l.push a).presence = l.presence := rfl

/-- A buffer on loan starts out empty. -/
theorem Pool.Clean.acquire {p : Pool α} (h : p.Clean) (presence : Presence) (n : Nat) :
    (p.acquire presence n).1.items = [] ∧ (p.acquire presence n).1.presence = presence ∧
      (p.acquire presence n).2.Clean := by
  unfold Pool.acquire
  cases hidle : p.idle with
  | nil => simp [Loan.items, Pool.Clean]
  | cons b rest =>
      have hb := h b (by simp [hidle])
      refine ⟨by simp [Loan.items, hb], rfl, fun b' hb' => h b' ?_⟩
      simp only [hidle, List.mem_cons]
      exact .inr hb'

theorem Pool.Clean.release {p : Pool α} (h : p.Clean) (loan : Loan α) : (p.release loan).Clean := by
  unfold Pool.release
  intro b hb
  dsimp only at hb
  split at hb
  · rcases List.mem_cons.mp hb with rfl | hb
    · rfl
    · exact h b hb
  · exact h b hb

/-! ## Steps -/

/-- The compilation has no loose ends and the arena no leftovers. -/
structure Scene.Sound (scene : Scene) : Prop where
  closed : scene.compilation.Closed
  clean : scene.arena.Clean

namespace Decode

/-- From every sound scene with the compilation, the step ends without a fault in a sound scene
with a later state of the compilation, and outcome and compilation are as said. -/
def Ends (step : Decode α) (c : Compilation) (post : Slot α → Compilation → Prop) : Prop :=
  ∀ scene : Scene, scene.Sound → scene.compilation = c →
    ∃ outcome scene', step.run scene = (outcome.mapError Halt.defect, scene') ∧
      scene'.Sound ∧ c.Grows scene'.compilation ∧ post outcome scene'.compilation

variable {α β : Type} {c : Compilation} {step : Decode α} {post post' : Slot α → Compilation → Prop}

/-! ### Runs -/

theorem run_bind (step : Decode α) (next : α → Decode β) (scene : Scene) :
    (step >>= next).run scene =
      match step.run scene with
      | (.ok a, scene') => (next a).run scene'
      | (.error halt, scene') => (.error halt, scene') := by
  simp only [ExceptT.run_bind]
  show StateT.bind _ _ _ = _
  simp only [StateT.bind]
  cases hstep : step.run scene with
  | mk outcome scene' => cases outcome <;> rfl

theorem run_tryBuild (place : Place) (request : Compilation → Except Fault (α × Compilation))
    (scene : Scene) :
    (Decode.tryBuild place request).run scene =
      match request scene.compilation with
      | .ok answer => (.ok answer.1, { scene with compilation := answer.2 })
      | .error fault => (.error (.fault fault place), scene) := by
  have hget : (get : Decode Scene).run scene = (.ok scene, scene) := rfl
  unfold Decode.tryBuild
  rw [run_bind, hget]
  dsimp only
  cases request scene.compilation <;> rfl

theorem run_orGiveBack [Lends α] (loan : Loan α) (step : Decode β) (scene : Scene) :
    (Decode.orGiveBack loan step).run scene =
      match step.run scene with
      | (.ok b, after) => (.ok b, after)
      | (.error halt, after) =>
          (.error halt, { after with arena := after.arena.release loan }) := by
  unfold Decode.orGiveBack ExceptT.run
  simp only [tryCatch, tryCatchThe, MonadExceptOf.tryCatch, ExceptT.tryCatch, ExceptT.mk,
    Bind.bind, StateT.bind]
  cases hstep : step scene with
  | mk outcome scene' => cases outcome <;> rfl

theorem clean_release [Lends α] [Lends.Lawful α] {arena : Arena} (hclean : arena.Clean)
    (loan : Loan α) : (arena.release loan).Clean :=
  Lends.Lawful.setPool_clean hclean
    ((Lends.Lawful.pool_clean hclean : (Lends.pool arena : Pool α).Clean).release loan)

/-! ### How steps end -/

namespace Ends

theorem mono (h : Ends step c post)
    (himp : ∀ outcome c', c.Grows c' → post outcome c' → post' outcome c') :
    Ends step c post' := by
  intro scene hsound hc
  obtain ⟨outcome, scene', hrun, hsound', hgrows, hpost⟩ := h scene hsound hc
  exact ⟨outcome, scene', hrun, hsound', hgrows, himp _ _ hgrows hpost⟩

/-- Steps start from closed compilations only. -/
theorem ofClosed (h : c.Closed → Ends step c post) : Ends step c post :=
  fun scene hsound hc => h (hc ▸ hsound.closed) scene hsound hc

theorem done {a : α} (h : post (.ok a) c) : Ends (pure a) c post := by
  rintro scene hsound rfl
  exact ⟨.ok a, scene, rfl, hsound, .refl _, h⟩

theorem halted {d : Defect} (h : post (.error d) c) :
    Ends (throw (.defect d)) c post := by
  rintro scene hsound rfl
  exact ⟨.error d, scene, rfl, hsound, .refl _, h⟩

/-- A step after another: a defect of the first halts both. -/
theorem bind {next : α → Decode β} {post : Slot β → Compilation → Prop}
    (h : Ends step c fun
      | .ok a, c' => Ends (next a) c' post
      | .error d, c' => post (.error d) c') :
    Ends (step >>= next) c post := by
  intro scene hsound hc
  obtain ⟨outcome, scene', hrun, hsound', hgrows, hpost⟩ := h scene hsound hc
  rw [run_bind, hrun]
  cases outcome with
  | ok a =>
      obtain ⟨outcome, scene'', hrun', hsound'', hgrows', hpost⟩ := hpost scene' hsound' rfl
      exact ⟨outcome, scene'', hrun', hsound'', hgrows.trans hgrows', hpost⟩
  | error d => exact ⟨.error d, scene', rfl, hsound', hgrows, hpost⟩

/-- A step that looks at the scene may rely on its compilation only. -/
theorem look {next : Scene → Decode β} {post : Slot β → Compilation → Prop}
    (h : ∀ scene : Scene, scene.compilation = c → Ends (next scene) c post) :
    Ends (get >>= next) c post :=
  fun scene hsound hc => h scene hc scene hsound hc

theorem ofSlot {slot : Slot α} (h : post slot c) : Ends (Decode.ofSlot slot) c post := by
  cases slot with
  | ok a => exact done h
  | error d => exact halted h

theorem emit {event : Event} {post : Slot Unit → Compilation → Prop} (h : post (.ok ()) c) :
    Ends (Decode.emit event) c post := by
  rintro scene hsound rfl
  exact ⟨.ok (), _, rfl, ⟨hsound.closed, hsound.clean⟩, .refl _, h⟩

theorem query {place : Place} {question : Compilation → Except Fault α} {a : α}
    (hq : question c = .ok a) (h : post (.ok a) c) : Ends (Decode.query place question) c post := by
  refine look fun scene hc => ?_
  simp only [hc, hq]
  exact done h

theorem build {request : Compilation → α × Compilation} {post : Slot α → Compilation → Prop}
    (hr : c.Reaches (request c).2) (h : post (.ok (request c).1) (request c).2) :
    Ends (Decode.build request) c post := by
  rintro scene hsound rfl
  exact ⟨.ok _, _, rfl, ⟨hr.closed, hsound.clean⟩, hr.grows, h⟩

/-- A request that may be refused, for which the compilation has to know the symbols in it. -/
theorem tryBuild {place : Place} {request : Compilation → Except Fault (α × Compilation)}
    {answer : α × Compilation} (hrequest : request c = .ok answer) (hr : c.Reaches answer.2)
    (h : post (.ok answer.1) answer.2) : Ends (Decode.tryBuild place request) c post := by
  rintro scene hsound rfl
  rw [run_tryBuild, hrequest]
  exact ⟨.ok answer.1, _, rfl, ⟨hr.closed, hsound.clean⟩, hr.grows, h⟩

/-! ### Buffers -/

variable [Lends α] [Lends.Lawful α]

theorem borrow {presence : Presence} {n : Nat} {post : Slot (Loan α) → Compilation → Prop}
    (h : ∀ loan : Loan α, loan.items = [] → loan.presence = presence → post (.ok loan) c) :
    Ends (Decode.borrow presence n) c post := by
  rintro scene hsound rfl
  obtain ⟨hitems, hpresence, hclean⟩ :=
    (Lends.Lawful.pool_clean hsound.clean : (Lends.pool scene.arena : Pool α).Clean).acquire
      presence n
  exact ⟨.ok _, _, rfl, ⟨hsound.closed, Lends.Lawful.setPool_clean hsound.clean hclean⟩, .refl _,
    h _ hitems hpresence⟩

theorem giveBack {loan : Loan α} {post : Slot Unit → Compilation → Prop} (h : post (.ok ()) c) :
    Ends (Decode.giveBack loan) c post := by
  rintro scene hsound rfl
  exact ⟨.ok (), _, rfl, ⟨hsound.closed, clean_release hsound.clean loan⟩, .refl _, h⟩

/-- Giving a buffer back makes no difference to how a step ends. -/
theorem orGiveBack {loan : Loan α} {step : Decode β} {post : Slot β → Compilation → Prop}
    (h : Ends step c post) : Ends (Decode.orGiveBack loan step) c post := by
  intro scene hsound hc
  obtain ⟨outcome, scene', hrun, hsound', hgrows, hpost⟩ := h scene hsound hc
  rw [run_orGiveBack, hrun]
  cases outcome with
  | ok b => exact ⟨.ok b, scene', rfl, hsound', hgrows, hpost⟩
  | error d =>
      -- the compilation is none of the buffer's business
      exact ⟨.error d, _, rfl, ⟨hsound'.closed, clean_release hsound'.clean loan⟩, hgrows, hpost⟩

theorem during {loan : Loan α} {step : Decode β} {post : Slot β → Compilation → Prop}
    (h : Ends step c post) : Ends (Decode.during loan step) c post := by
  refine bind (orGiveBack (h.mono ?_))
  intro outcome c' _ hpost
  cases outcome with
  | ok b => exact bind (giveBack (done hpost))
  | error d => exact hpost

theorem duringEither {loan : Except Failure (Loan α)} {step : Decode β}
    {post : Slot β → Compilation → Prop} (h : Ends step c post) :
    Ends (Decode.duringEither loan step) c post := by
  cases loan with
  | ok loan => exact during h
  | error reason => exact h

end Ends

/-! ### Courses -/

/-- What a step amounts to: the defect that halts it, if one does, or else its outcome and what
becomes of the compilation. -/
structure Course (α : Type) where
  defect? : Option Defect
  run : Compilation → α × Compilation

/-- From every later state of the compilation, the step takes the course. -/
def Takes (c₀ : Compilation) (step : Decode α) (course : Course α) : Prop :=
  ∀ c, c₀.Grows c → Ends step c fun outcome c' =>
    match course.defect? with
    | some d => outcome = .error d
    | none => outcome = .ok (course.run c).1 ∧ c' = (course.run c).2

/-- The courses one after the other. -/
def Course.runEach (courses : List (Course α)) : Compilation → List α × Compilation :=
  Compilation.buildEach (fun c course => course.run c) courses

/-- What collecting comes to after what is in the buffer: the first failure, if there is one. -/
def Course.collected (courses : List (Course (Except Failure α))) (index : Nat) (loan : Loan α)
    (failure : Option Failure) (c : Compilation) : Except Failure (List α) :=
  match failure with
  | some reason => .error reason
  | none => (gathered index (Course.runEach courses c).1).map (loan.items ++ ·)

theorem Course.collected_start {loan : Loan α} (h : loan.items = [])
    (courses : List (Course (Except Failure α))) (index : Nat) (c : Compilation) :
    collected courses index loan none c = gathered index (runEach courses c).1 := by
  simp only [collected, h, List.nil_append]
  cases gathered index (runEach courses c).1 <;> rfl

/-- An element that resolves is put into the buffer. -/
theorem Course.collected_ok {course : Course (Except Failure α)} {a : α}
    (h : (course.run c).1 = .ok a) (courses : List (Course (Except Failure α))) (index : Nat)
    (loan : Loan α) (failure : Option Failure) :
    collected (course :: courses) index loan failure c =
      collected courses (index + 1) (loan.push a) failure (course.run c).2 := by
  cases failure with
  | some reason => rfl
  | none =>
      simp only [collected, runEach, Compilation.buildEach, h, gathered]
      cases gathered (index + 1)
        (Compilation.buildEach (fun c course => course.run c) courses (course.run c).2).1 <;>
        simp [Except.map]

/-- An element that fails leaves the buffer as it is, and counts if none failed before. -/
theorem Course.collected_error {course : Course (Except Failure α)} {reason : Failure}
    (h : (course.run c).1 = .error reason) (courses : List (Course (Except Failure α)))
    (index : Nat) (loan : Loan α) (failure : Option Failure) :
    collected (course :: courses) index loan failure c =
      collected courses (index + 1) loan (failure <|> some (.element index reason))
        (course.run c).2 := by
  cases failure with
  | some reason => rfl
  | none => simp only [collected, runEach, Compilation.buildEach, h, gathered]; rfl

/-- What comes of an array is a buffer with the expected items, or the expected failure. -/
def Lent (presence : Presence) (lent : Except Failure (Loan α)) :
    Except Failure (List α) → Prop
  | .ok items => ∃ loan, lent = .ok loan ∧ loan.items = items ∧ loan.presence = presence
  | .error reason => lent = .error reason

namespace Ends

variable [Lends α] [Lends.Lawful α]

theorem gather {items : List (Slot α)} {loan : Loan α} {c : Compilation} :
    Ends (Decode.gather items loan) c fun outcome c' =>
      c' = c ∧ match items.findSome? Slot.defect? with
        | some d => outcome = .error d
        | none => ∃ full, outcome = .ok full ∧ full.presence = loan.presence ∧
            full.items = loan.items ++ items.filterMap Except.toOption := by
  induction items generalizing loan with
  | nil => exact done ⟨rfl, loan, rfl, rfl, by simp⟩
  | cons slot rest ih =>
      refine bind (orGiveBack (ofSlot ?_))
      cases slot with
      | error d => exact ⟨rfl, rfl⟩
      | ok a =>
          refine ih.mono fun outcome c' _ h => ?_
          simpa [List.findSome?_cons, Except.toOption] using h

/-- An array of plain values ends in a buffer with them, or in its first defect. -/
theorem listing {l : Listing α} {post : Slot (Loan α) → Compilation → Prop}
    (herror : ∀ d, l.defect? = some d → post (.error d) c)
    (hok : ∀ loan : Loan α, l.defect? = none → loan.items = l.values →
      l.presence = .ok loan.presence → post (.ok loan) c) :
    Ends (Decode.listing l) c post := by
  refine bind (ofSlot ?_)
  cases hpresence : l.presence with
  | error d => exact herror d (by simp [Listing.defect?, hpresence])
  | ok presence =>
      refine bind (borrow fun loan hitems hloan => gather.mono ?_)
      rintro outcome c' - ⟨rfl, h⟩
      cases hdefect : l.items.findSome? Slot.defect? with
      | some d =>
          rw [hdefect] at h
          exact h ▸ herror d (by simp [Listing.defect?, hpresence, hdefect])
      | none =>
          rw [hdefect] at h
          obtain ⟨full, rfl, hfull, hvalues⟩ := h
          refine hok full (by simp [Listing.defect?, hpresence, hdefect]) ?_ ?_
          · rw [hvalues, hitems]; rfl
          · rw [hpresence, hfull, hloan]

theorem collect {c₀ : Compilation} {steps : List (Decode (Except Failure α))}
    {courses : List (Course (Except Failure α))} (h : List.Forall₂ (Takes c₀) steps courses) :
    ∀ (index : Nat) (loan : Loan α) (failure : Option Failure) (c : Compilation), c₀.Grows c →
      Ends (Decode.collect index steps loan failure) c fun outcome c' =>
        match courses.findSome? (·.defect?) with
        | some d => outcome = .error d
        | none => c' = (Course.runEach courses c).2 ∧ ∃ lent, outcome = .ok lent ∧
            Lent loan.presence lent (Course.collected courses index loan failure c) := by
  induction h with
  | nil =>
      intro index loan failure c _
      cases failure with
      | none => exact done ⟨rfl, .ok loan, rfl, loan, rfl, by simp, rfl⟩
      | some reason => exact bind (giveBack (done ⟨rfl, _, rfl, rfl⟩))
  | @cons step course steps courses hstep _ ih =>
      intro index loan failure c hgrows
      refine bind (orGiveBack ((hstep c hgrows).mono ?_))
      intro outcome c' hgrows' hcourse
      cases hdefect : course.defect? with
      | some d =>
          simp only [hdefect] at hcourse
          simp [hcourse, hdefect]
      | none =>
          simp only [hdefect] at hcourse
          obtain ⟨rfl, rfl⟩ := hcourse
          simp only [List.findSome?_cons, hdefect]
          cases hhead : (course.run c).1 with
          | ok a =>
              rw [Course.collected_ok hhead]
              exact ih (index + 1) (loan.push a) failure _ (hgrows.trans hgrows')
          | error reason =>
              rw [Course.collected_error hhead]
              exact ih (index + 1) loan _ _ (hgrows.trans hgrows')

/-- An array whose elements are resolved ends in a buffer with them or in the first failure
among them, unless a defect halts it. -/
theorem elements {presence : Slot Presence} {c₀ : Compilation}
    {steps : List (Decode (Except Failure α))} {courses : List (Course (Except Failure α))}
    (h : List.Forall₂ (Takes c₀) steps courses) (hgrows : c₀.Grows c)
    {post : Slot (Except Failure (Loan α)) → Compilation → Prop}
    (herror : ∀ d c', (presence.defect? <|> courses.findSome? (·.defect?)) = some d →
      post (.error d) c')
    (hok : ∀ lent, (presence.defect? <|> courses.findSome? (·.defect?)) = none →
      Lent (presence.valueOr .absent) lent (gathered 0 (Course.runEach courses c).1) →
      post (.ok lent) (Course.runEach courses c).2) :
    Ends (Decode.elements presence steps) c post := by
  refine bind (ofSlot ?_)
  cases presence with
  | error d => exact herror d c (by simp)
  | ok presence =>
      refine bind (borrow fun loan hitems hloan => (collect h 0 loan none c hgrows).mono ?_)
      intro outcome c' _ hpost
      cases hdefect : courses.findSome? (·.defect?) with
      | some d =>
          rw [hdefect] at hpost
          exact hpost ▸ herror d c' (by simp [hdefect])
      | none =>
          simp only [hdefect] at hpost
          obtain ⟨rfl, lent, rfl, hlent⟩ := hpost
          rw [Course.collected_start hitems, hloan] at hlent
          exact hok lent (by simp [hdefect]) hlent

end Ends

end Decode
end Moniker
