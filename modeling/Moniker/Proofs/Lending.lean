import Moniker.Proofs.Abreast
import Moniker.Proofs.Fused

/-!
# Lending buffers

A resolver decodes one key after the other with the same arena. Here that is done for keys of any
kind, and each with builders of its own, which may fault. What comes of a key does not depend on
the arena, so it is what a new arena would have given (`Resolver.steps_transparent`). The invariant
is that between two keys nothing is on loan and nothing is left in the buffers that wait. It is kept
however a decode ends, since a pass that is halted has given back what it was responsible for.
-/

namespace Moniker

/-- Two runs that differ in their arenas alone, of which the first one has so many buffers on
loan. -/
structure Discipline.Lent (t : Tally) (scene scene' : Scene) : Prop where
  compilation_eq : scene'.compilation = scene.compilation
  events_eq : scene'.events = scene.events
  clean : scene.arena.Clean
  clean' : scene'.arena.Clean
  tally_eq : scene.arena.tally = t

/-- What is logged in both is no difference. -/
theorem Discipline.Lent.push {t : Tally} {scene scene' : Scene} (h : Lent t scene scene')
    (event : Event) :
    Lent t { scene with events := scene.events.push event }
      { scene' with events := scene'.events.push event } :=
  ⟨h.compilation_eq, congrArg (·.push event) h.events_eq, h.clean, h.clean', h.tally_eq⟩

/-- A buffer that is lent by a clean arena is empty. -/
theorem Arena.Clean.acquire [Lends α] [Lends.Lawful α] {a : Arena} (h : a.Clean)
    (presence : Presence) (n : Nat) :
    (a.acquire presence n : Loan α × Arena).1.content = (presence, []) ∧
      (a.acquire presence n : Loan α × Arena).2.Clean := by
  obtain ⟨hitems, hpresence, hpool⟩ :=
    (Lends.Lawful.pool_clean h : (Lends.pool a : Pool α).Clean).acquire presence n
  exact ⟨Prod.ext hpresence hitems, Lends.Lawful.setPool_clean h hpool⟩

/-- Runs that differ in their arenas. Buffers count as the same if they hold the same. -/
def Discipline.lending : Discipline where
  rel := Lent
  alike _ l l' := l'.content = l.content
  content h := h
  push h a := Loan.content_push h a
  quiet := by
    intro α step hquiet t scene scene' h
    have hscene : scene' = { scene with arena := scene'.arena } := by
      rw [← h.compilation_eq, ← h.events_eq]
    have hrun := hquiet.blind scene scene'.arena
    rw [← hscene] at hrun
    rw [hrun]
    have harena := hquiet.arena_eq scene
    exact ⟨rfl, rfl, rfl, harena ▸ h.clean, h.clean', harena ▸ h.tally_eq⟩
  acquire := by
    intro α _ _ t scene scene' h presence n
    obtain ⟨hcontent, hclean⟩ := h.clean.acquire (α := α) presence n
    obtain ⟨hcontent', hclean'⟩ := h.clean'.acquire (α := α) presence n
    exact ⟨hcontent'.trans hcontent.symm, h.compilation_eq, h.events_eq, hclean, hclean',
      by rw [← h.tally_eq, ← scene.arena.tally_acquire presence n]⟩
  release := by
    intro α _ _ t scene scene' l l' _ h
    exact ⟨h.compilation_eq, h.events_eq, Decode.clean_release h.clean l,
      Decode.clean_release h.clean' l', Arena.tally_release l h.tally_eq⟩

/-- What an arena may become by lending buffers and taking any back. -/
inductive Arena.Later (a : Arena) : Arena → Prop
  | refl : Later a a
  | acquire {α : Type} [Lends α] [Lends.Lawful α] {b : Arena} (h : Later a b) (presence : Presence)
    (n : Nat) : Later a (b.acquire presence n : Loan α × Arena).2
  | release {α : Type} [Lends α] [Lends.Lawful α] {b : Arena} (h : Later a b) (loan : Loan α) :
    Later a (b.release loan)

theorem Arena.Later.clean {a b : Arena} (h : a.Later b) (hclean : a.Clean) : b.Clean := by
  induction h with
  | refl => exact hclean
  | acquire _ presence n ih => exact (ih.acquire presence n).2
  | release _ loan ih => exact Decode.clean_release ih loan

/-- The arena has to be seen neither in the outcome nor in what becomes of the compilation, and
everything is given back. -/
theorem Key.lent_resolveThrough (f : Factories) (o : ResolveOptions) (k : Key)
    {scene scene' : Scene} (h : Discipline.Lent 0 scene scene') :
    (k.resolveThrough f o scene').1 = (k.resolveThrough f o scene).1 ∧
      Discipline.Lent 0 (k.resolveThrough f o scene).2 (k.resolveThrough f o scene').2 := by
  unfold resolveThrough
  cases checkVersion k.version with
  | error defect => exact ⟨rfl, h⟩
  | ok _ =>
    have hmeets := Pass.Abreast.root (D := .lending) (f := f) (o := o) 0
      ({ frames := k.frames } : Reader) scene scene' ⟨rfl, Nat.zero_le _⟩ h
    dsimp only
    generalize (Pass.root f o).run ({ frames := k.frames }, scene) = run,
      (Pass.root f o).run ({ frames := k.frames }, scene') = run' at hmeets
    cases hmeets with
    | done hplain _ hafter =>
      obtain ⟨rfl, rfl⟩ := hplain
      dsimp only
      cases k.outcomeEvent? _ with
      | none => exact ⟨rfl, hafter⟩
      | some event => exact ⟨rfl, hafter.push event⟩
    | halted _ hafter =>
      dsimp only
      cases k.outcomeEvent? _ with
      | none => exact ⟨rfl, hafter⟩
      | some event => exact ⟨rfl, hafter.push event⟩

/-- Nothing is on loan, and nothing is left in the buffers that wait. -/
structure Scene.AtRest (scene : Scene) : Prop where
  clean : scene.arena.Clean
  tally_eq : scene.arena.tally = 0

/-- With nothing on loan and nothing left over, a key resolves as with a new arena, and ends so. -/
theorem Key.resolveThrough_atRest (f : Factories) (o : ResolveOptions) (k : Key) {scene : Scene}
    (h : scene.AtRest) :
    ((k.resolveThrough f o scene).1 = (k.resolveThrough f o { scene with arena := {} }).1 ∧
      (k.resolveThrough f o scene).2.compilation =
        (k.resolveThrough f o { scene with arena := {} }).2.compilation ∧
      (k.resolveThrough f o scene).2.events =
        (k.resolveThrough f o { scene with arena := {} }).2.events) ∧
    (k.resolveThrough f o scene).2.AtRest := by
  have hlent : Discipline.Lent 0 scene { scene with arena := {} } :=
    ⟨rfl, rfl, h.clean, Arena.clean_empty, h.tally_eq⟩
  obtain ⟨houtcome, hafter⟩ := k.lent_resolveThrough f o hlent
  exact ⟨⟨houtcome.symm, hafter.compilation_eq.symm, hafter.events_eq.symm⟩, hafter.clean,
    hafter.tally_eq⟩

/-- The same for the compilation's own builders, in the words of `Key.resolve`. -/
theorem Key.resolve_atRest (o : ResolveOptions) (k : Key) {scene : Scene} (h : scene.AtRest) :
    k.resolve o scene = ((k.resolveThrough .own o scene).1,
      { (k.resolveThrough .own o scene).2 with arena := scene.arena }) := by
  obtain ⟨⟨houtcome, hcompilation, hevents⟩, -⟩ := k.resolveThrough_atRest .own o h
  rw [houtcome]
  dsimp only
  rw [hcompilation, hevents, k.resolveThrough_own, resolve]

/-- A key, and the builders of the compilation at the time it is resolved. -/
structure Turn where
  key : Key
  factories : Factories := .own

/-- One of the keys that a resolver goes through: the scene as it finds it, and what comes of it. -/
structure Resolver.Step where
  turn : Turn
  before : Scene
  outcome : Except Halt Resolved
  after : Scene

/-- Resolves a key after the other, whatever became of those before. -/
def Resolver.steps (o : ResolveOptions) : List Turn → Scene → List Step
  | [], _ => []
  | turn :: rest, before =>
    let (outcome, after) := turn.key.resolveThrough turn.factories o before
    ⟨turn, before, outcome, after⟩ :: steps o rest after

theorem Resolver.steps_cons (o : ResolveOptions) (turn : Turn) (rest : List Turn) (before : Scene) :
    steps o (turn :: rest) before =
      ⟨turn, before, (turn.key.resolveThrough turn.factories o before).1,
        (turn.key.resolveThrough turn.factories o before).2⟩ ::
          steps o rest (turn.key.resolveThrough turn.factories o before).2 := rfl

/-- What a batch says about one of its keys: a fault ends it. -/
def Resolver.Step.judge (step : Step) : Except Fault (Except Defect Resolved) :=
  match step.outcome with
  | .ok resolved => .ok (.ok resolved)
  | .error (.defect defect) => .ok (.error defect)
  | .error (.fault fault _) => .error fault

/-- A batch of keys that the compilation's own builders serve is gone through in this way, up to the
first fault. -/
theorem Resolver.resolveAll_eq_steps (r : Resolver) (keys : List Key) (scene : Scene) :
    (r.resolveAll keys scene).1 =
      (steps r.options (keys.map fun k => { key := k }) { scene with arena := r.arena }).mapM
        Step.judge := by
  unfold resolveAll
  generalize { scene with arena := r.arena } = now
  induction keys generalizing now with
  | nil => rfl
  | cons k rest ih =>
    rw [List.map_cons, steps_cons, List.mapM_cons, resolveAll.go, Key.resolveThrough_own]
    rcases k.resolveIn r.options now with ⟨outcome, after⟩
    have hcons (outcome : Except Defect Resolved) :
        (resolveAll.step outcome (resolveAll.go r scene rest after)).1 = (do
          let later ← (steps r.options (rest.map fun k => { key := k }) after).mapM Step.judge
          return outcome :: later) := by
      show (resolveAll.go r scene rest after).1.map (outcome :: ·) = _
      rw [ih]
      rfl
    cases outcome with
    | ok resolved => exact hcons (.ok resolved)
    | error halt =>
      cases halt with
      | defect d => exact hcons (.error d)
      | fault fault place => rfl

/-- Keys that are decoded with one arena resolve as they would with a new one each, and what becomes
of the compilation and what is recorded is the same. After each of them, whether it resolved,
failed, was unusable or ended in a fault, nothing is on loan from any pool, and no buffer that is
lent afterwards has anything in it. -/
theorem Resolver.steps_transparent (o : ResolveOptions) (turns : List Turn) (scene : Scene)
    (step : Step) (h : step ∈ steps o turns { scene with arena := {} }) :
    (let fresh :=
        step.turn.key.resolveThrough step.turn.factories o { step.before with arena := {} };
      step.outcome = fresh.1 ∧ step.after.compilation = fresh.2.compilation ∧
        step.after.events = fresh.2.events) ∧
    (step.turn.factories = .own → step.turn.key.resolve o step.before =
      (step.outcome, { step.after with arena := step.before.arena })) ∧
    (step.after.arena.symbols.outstanding = 0 ∧ step.after.arena.strings.outstanding = 0 ∧
      step.after.arena.bools.outstanding = 0 ∧ step.after.arena.locations.outstanding = 0) ∧
    ∀ later, step.after.arena.Later later → ∀ (α : Type) [Lends α] [Lends.Lawful α]
      (presence : Presence) (n : Nat),
        (later.acquire presence n : Loan α × Arena).1.items = [] := by
  have hnow : Scene.AtRest { scene with arena := {} } := ⟨Arena.clean_empty, rfl⟩
  generalize ({ scene with arena := {} } : Scene) = now at h hnow
  -- what one key leaves behind is what the next one starts with
  induction turns generalizing now with
  | nil => cases h
  | cons turn rest ih =>
    obtain ⟨hfresh, hafter⟩ := turn.key.resolveThrough_atRest turn.factories o hnow
    rw [steps_cons] at h
    rcases List.mem_cons.mp h with rfl | h
    · refine ⟨hfresh, fun hown => ?_, ?_, fun later hlater α _ _ presence n => ?_⟩
      · have hown : turn.factories = .own := hown
        rw [hown]
        exact turn.key.resolve_atRest o hnow
      · exact ⟨congrArg Tally.symbols hafter.tally_eq, congrArg Tally.strings hafter.tally_eq,
          congrArg Tally.bools hafter.tally_eq, congrArg Tally.locations hafter.tally_eq⟩
      · exact congrArg Prod.snd ((hlater.clean hafter.clean).acquire (α := α) presence n).1
    · exact ih _ h hafter

/-- A builder that faults when three buffers are on loan: they are back afterwards, and the next
key, which the compilation's own builder serves, resolves in them. -/
theorem Resolver.steps_transparent_raised :
    let k := Key.ofFrames [.kind .tupleType, .array .populated 2, .kind .nameSpace, .bool true,
      .kind .nameSpace, .bool true, .array .populated 2, .text (some "a"), .text none,
      .array .populated 2, .int 0, .int 0]
    let faulty : Factories :=
      { Factories.own with tuple := fun _ _ _ c => (.error (.raised "full"), c) }
    let scene : Scene := { compilation := Draft.empty.finish }
    ∃ first second, steps {} [⟨k, faulty⟩, ⟨k, .own⟩] { scene with arena := {} } = [first, second] ∧
      first.outcome = .error (.fault (.raised "full") ⟨1, 1, []⟩) ∧
      first.after.arena.symbols.outstanding = 0 ∧ first.after.arena.idle = 3 ∧
      second.outcome = .ok (.ok (.symbol ⟨5⟩)) ∧
      k.resolve {} second.before =
        (second.outcome, { second.after with arena := second.before.arena }) ∧
      second.after.arena.symbols.outstanding = 0 ∧ second.after.arena.idle = 3 := by
  intro k faulty scene
  have htransparent := steps_transparent {} [⟨k, faulty⟩, ⟨k, .own⟩] scene
  have hsecond := htransparent _ (List.mem_cons_of_mem _ List.mem_cons_self)
  exact ⟨_, _,
    rfl, by decide +kernel, (htransparent _ List.mem_cons_self).2.2.1.1, by decide +kernel,
    by decide +kernel, hsecond.2.1 rfl, hsecond.2.2.1.1, by decide +kernel⟩

end Moniker
