import Moniker.Description.Resolve
import Moniker.Proofs.Lasting
import Moniker.Proofs.Steps

/-!
# Running a step again

`Decode.Steady view step step'` compares two runs: one of `step` from any scene, and one of `step'`
from a scene whose compilation is a later state of what the first run left behind. The first run
changes its compilation by requests for structural types alone. Unless it faulted, the second one
comes to the same outcome, as far as `view` shows, and adds nothing to its compilation.

Outcomes are compared through a view because buffers need not have room for as much in both runs:
the arenas may differ. There is one rule for each kind of step, so the argument follows the text of
a step, and a defect that halts it half way is as good an outcome as any other.
-/

namespace Moniker

/-- What counts about a buffer on loan. -/
def Loan.content (l : Loan α) : Presence × List α := (l.presence, l.items)

theorem Loan.items_eq {l l' : Loan α} (h : l'.content = l.content) : l'.items = l.items :=
  congrArg Prod.snd h

theorem Loan.presence_eq {l l' : Loan α} (h : l'.content = l.content) : l'.presence = l.presence :=
  congrArg Prod.fst h

theorem Loan.content_push {l l' : Loan α} (h : l'.content = l.content) (a : α) :
    (l'.push a).content = (l.push a).content := by
  have hpresence : l'.presence = l.presence := presence_eq h
  have hitems : l'.items = l.items := items_eq h
  show (l'.presence, (l'.push a).items) = (l.presence, (l.push a).items)
  rw [items_push, items_push, hpresence, hitems]

namespace Decode

variable {α β γ δ : Type}

/-- The run ended in a value or in a defect. -/
def Faultless (outcome : Except Halt α) : Prop :=
  ∀ fault place, outcome ≠ .error (.fault fault place)

/-- A run of the first step, repeated later by the second one. -/
def Steady (view : α → γ) (step step' : Decode α) : Prop :=
  ∀ scene : Scene, scene.arena.Clean →
    Compilation.Leads scene.compilation (step.run scene).2.compilation ∧
    (step.run scene).2.arena.Clean ∧
    (Faultless (step.run scene).1 → ∀ scene' : Scene, scene'.arena.Clean →
      (step.run scene).2.compilation.Grows scene'.compilation →
        (step'.run scene').1.map view = (step.run scene).1.map view ∧
        scene'.compilation.Recounts (step'.run scene').2.compilation ∧
        (step'.run scene').2.arena.Clean)

namespace Steady

variable {view : α → γ} {step step' : Decode α}

/-- A step that leaves the scene alone. -/
theorem ofRun (outcome : Except Halt α) (h : ∀ scene, step.run scene = (outcome, scene)) :
    Steady view step step := by
  intro scene hclean
  rw [h]
  refine ⟨.refl _, hclean, fun _ scene' hclean' _ => ?_⟩
  rw [h]
  exact ⟨rfl, .refl _, hclean'⟩

theorem done {a a' : α} (h : view a' = view a) : Steady view (pure a) (pure a') :=
  fun _ hclean => ⟨.refl _, hclean, fun _ _ hclean' _ => ⟨congrArg Except.ok h, .refl _, hclean'⟩⟩

theorem halted (halt : Halt) : Steady view (throw halt : Decode α) (throw halt) :=
  ofRun (.error halt) fun _ => rfl

theorem ofSlot (slot : Slot α) : Steady view (Decode.ofSlot slot) (Decode.ofSlot slot) := by
  cases slot with
  | ok a => exact done rfl
  | error d => exact halted _

/-- A step after another one. -/
theorem bind {view' : β → δ} {next next' : α → Decode β} (h : Steady view step step')
    (hnext : ∀ a a', view a' = view a → Steady view' (next a) (next' a')) :
    Steady view' (step >>= next) (step' >>= next') := by
  intro scene hclean
  obtain ⟨hleads, hmid, hagain⟩ := h scene hclean
  simp only [run_bind]
  rcases hrun : step.run scene with ⟨outcome, mid⟩
  rw [hrun] at hleads hmid hagain
  cases outcome with
  | error halt =>
    refine ⟨hleads, hmid, fun hfaultless scene' hclean' hgrows => ?_⟩
    have hhalt : Faultless (.error halt : Except Halt α) := by
      intro fault place heq
      cases heq
      exact hfaultless fault place rfl
    obtain ⟨hsame, hrecounts, hclean''⟩ := hagain hhalt scene' hclean' hgrows
    rcases hrun' : step'.run scene' with ⟨outcome', after⟩
    rw [hrun'] at hsame hrecounts hclean''
    cases outcome' with
    | ok a' => cases hsame
    | error halt' =>
      cases hsame
      exact ⟨rfl, hrecounts, hclean''⟩
  | ok a =>
    obtain ⟨hleads', hend, -⟩ := hnext a a rfl mid hmid
    refine ⟨hleads.trans hleads', hend, fun hfaultless scene' hclean' hgrows => ?_⟩
    have hok : Faultless (.ok a : Except Halt α) := fun _ _ heq => by cases heq
    obtain ⟨hsame, hrecounts, hclean''⟩ := hagain hok scene' hclean' (hleads'.grows.trans hgrows)
    rcases hrun' : step'.run scene' with ⟨outcome', mid'⟩
    rw [hrun'] at hsame hrecounts hclean''
    cases outcome' with
    | error halt' => cases hsame
    | ok a' =>
      obtain ⟨-, -, hagain'⟩ := hnext a a' (Except.ok.inj hsame) mid hmid
      obtain ⟨hsame', hrecounts', hclean'''⟩ :=
        hagain' hfaultless mid' hclean'' (hgrows.trans hrecounts.grows)
      exact ⟨hsame', hrecounts.trans hrecounts', hclean'''⟩

/-- A step after another one whose value the two runs agree about. -/
theorem andThen {view' : β → δ} {next next' : α → Decode β} (h : Steady id step step')
    (hnext : ∀ a, Steady view' (next a) (next' a)) :
    Steady view' (step >>= next) (step' >>= next') :=
  h.bind fun a a' heq => (show a' = a from heq) ▸ hnext a

theorem map {view' : β → δ} {f : α → β} (h : Steady view step step')
    (hf : ∀ a a', view a' = view a → view' (f a') = view' (f a)) :
    Steady view' (f <$> step) (f <$> step') := by
  rw [map_eq_pure_bind, map_eq_pure_bind]
  exact h.bind fun a a' heq => done (hf a a' heq)

/-- A step that looks at the scene may rely on what its compilation never changes. -/
theorem look (ask : Compilation → β) (next : β → Decode α)
    (hask : ∀ c c' : Compilation, c.Grows c' → ask c' = ask c)
    (hnext : ∀ b, Steady view (next b) (next b)) :
    Steady view (get >>= fun scene => next (ask scene.compilation))
      (get >>= fun scene => next (ask scene.compilation)) := by
  have hrun (scene : Scene) : (get >>= fun scene => next (ask scene.compilation)).run scene =
      (next (ask scene.compilation)).run scene := rfl
  intro scene hclean
  obtain ⟨hleads, hend, hagain⟩ := hnext (ask scene.compilation) scene hclean
  rw [hrun]
  refine ⟨hleads, hend, fun hfaultless scene' hclean' hgrows => ?_⟩
  rw [hrun, hask _ _ (hleads.grows.trans hgrows)]
  exact hagain hfaultless scene' hclean' hgrows

theorem emit (event : Event) : Steady id (Decode.emit event) (Decode.emit event) :=
  fun _ hclean => ⟨.refl _, hclean, fun _ _ hclean' _ => ⟨rfl, .refl _, hclean'⟩⟩

theorem query {place : Place} {question : Compilation → Except Fault α}
    (h : ∀ c c' : Compilation, c.Grows c' → Lasting (question c) (question c')) :
    Steady id (Decode.query place question) (Decode.query place question) := by
  have hrun (scene : Scene) : (Decode.query place question).run scene =
      ((question scene.compilation).mapError (Halt.fault · place), scene) := by
    have hget : (get : Decode Scene).run scene = (.ok scene, scene) := rfl
    unfold Decode.query
    rw [run_bind, hget]
    dsimp only
    cases question scene.compilation <;> rfl
  intro scene hclean
  rw [hrun]
  refine ⟨.refl _, hclean, fun hfaultless scene' hclean' hgrows => ?_⟩
  rw [hrun]
  cases hquestion : question scene.compilation with
  | error fault =>
    refine absurd ?_ (hfaultless fault place)
    rw [hquestion]
    rfl
  | ok a =>
    rw [h _ _ hgrows a hquestion]
    exact ⟨rfl, .refl _, hclean'⟩

theorem build {request : Compilation → α × Compilation} (h : Compilation.Settled request) :
    Steady id (Decode.build request) (Decode.build request) := by
  intro scene hclean
  refine ⟨h.leads _, hclean, fun _ scene' hclean' hgrows => ?_⟩
  obtain ⟨hanswer, hrecounts⟩ := h.again scene.compilation scene'.compilation hgrows
  exact ⟨congrArg Except.ok hanswer, hrecounts, hclean'⟩

/-- A request for a constructed type, which faults unless the definition is known. -/
theorem construct {place : Place} {definition : SymbolId} {arguments : List SymbolId} :
    Steady id (Decode.tryBuild place fun c => c.construct definition arguments)
      (Decode.tryBuild place fun c => c.construct definition arguments) := by
  intro scene hclean
  rw [run_tryBuild]
  cases hanswer : scene.compilation.construct definition arguments with
  | error fault =>
    exact ⟨.refl _, hclean, fun hfaultless => absurd rfl (hfaultless fault place)⟩
  | ok answer =>
    refine ⟨Compilation.leads_construct hanswer, hclean, fun _ scene' hclean' hgrows => ?_⟩
    rw [run_tryBuild, Compilation.construct_again hanswer hgrows]
    exact ⟨rfl, .refl _, hclean'⟩

/-! ### Buffers -/

section Buffers

variable [Lends α] [Lends.Lawful α]

theorem borrow (presence : Presence) (n : Nat) :
    Steady Loan.content (Decode.borrow presence n : Decode (Loan α))
      (Decode.borrow presence n) := by
  have hlend {arena : Arena} (hclean : arena.Clean) :
      (arena.acquire presence n : Loan α × Arena).1.content = (presence, []) ∧
        (arena.acquire presence n : Loan α × Arena).2.Clean := by
    obtain ⟨hitems, hpresence, hpool⟩ :=
      (Lends.Lawful.pool_clean hclean : (Lends.pool arena : Pool α).Clean).acquire presence n
    exact ⟨Prod.ext hpresence hitems, Lends.Lawful.setPool_clean hclean hpool⟩
  intro scene hclean
  refine ⟨.refl _, (hlend hclean).2, fun _ scene' hclean' _ => ?_⟩
  refine ⟨congrArg Except.ok ?_, .refl _, (hlend hclean').2⟩
  exact (hlend hclean').1.trans (hlend hclean).1.symm

theorem giveBack (loan loan' : Loan α) :
    Steady id (Decode.giveBack loan) (Decode.giveBack loan') :=
  fun _ hclean => ⟨.refl _, clean_release hclean loan,
    fun _ _ hclean' _ => ⟨rfl, .refl _, clean_release hclean' loan'⟩⟩

/-- Which buffer goes back makes no difference to how a step ends. -/
theorem orGiveBack {view : β → γ} {step step' : Decode β} (loan loan' : Loan α)
    (h : Steady view step step') :
    Steady view (Decode.orGiveBack loan step) (Decode.orGiveBack loan' step') := by
  -- all that the detour changes is the arena, which stays clean
  have hdetour (loan : Loan α) (step : Decode β) (scene : Scene) :
      ((Decode.orGiveBack loan step).run scene).1 = (step.run scene).1 ∧
        ((Decode.orGiveBack loan step).run scene).2.compilation = (step.run scene).2.compilation ∧
        ((step.run scene).2.arena.Clean →
          ((Decode.orGiveBack loan step).run scene).2.arena.Clean) := by
    rw [run_orGiveBack]
    rcases step.run scene with ⟨outcome, after⟩
    cases outcome with
    | ok b => exact ⟨rfl, rfl, fun h => h⟩
    | error halt => exact ⟨rfl, rfl, fun h => clean_release h loan⟩
  intro scene hclean
  obtain ⟨hleads, hend, hagain⟩ := h scene hclean
  obtain ⟨houtcome, hcompilation, harena⟩ := hdetour loan step scene
  rw [houtcome, hcompilation]
  refine ⟨hleads, harena hend, fun hfaultless scene' hclean' hgrows => ?_⟩
  obtain ⟨hsame, hrecounts, hend'⟩ := hagain hfaultless scene' hclean' hgrows
  obtain ⟨houtcome', hcompilation', harena'⟩ := hdetour loan' step' scene'
  rw [houtcome', hcompilation']
  exact ⟨hsame, hrecounts, harena' hend'⟩

theorem during {view : β → γ} {step step' : Decode β} (loan loan' : Loan α)
    (h : Steady view step step') :
    Steady view (Decode.during loan step) (Decode.during loan' step') :=
  (orGiveBack loan loan' h).bind fun _ _ heq => (giveBack loan loan').andThen fun _ => done heq

/-- The same for arrays that both runs have, or that failed in both. -/
theorem duringEither {view : β → γ} {step step' : Decode β} {lent lent' : Except Failure (Loan α)}
    (hlent : lent'.map Loan.content = lent.map Loan.content) (h : Steady view step step') :
    Steady view (Decode.duringEither lent step) (Decode.duringEither lent' step') := by
  cases lent with
  | ok loan =>
    cases lent' with
    | ok loan' => exact during loan loan' h
    | error reason => cases hlent
  | error reason =>
    cases lent' with
    | ok loan' => cases hlent
    | error reason' => exact h

/-! ### Arrays -/

theorem gather (items : List (Slot α)) (loan loan' : Loan α)
    (hloan : loan'.content = loan.content) :
    Steady Loan.content (Decode.gather items loan) (Decode.gather items loan') := by
  induction items generalizing loan loan' with
  | nil => exact done hloan
  | cons item rest ih =>
    refine (orGiveBack loan loan' (ofSlot item)).andThen fun a => ih _ _ ?_
    exact Loan.content_push hloan a

theorem listing (l : Listing α) :
    Steady Loan.content (Decode.listing l) (Decode.listing l) :=
  (ofSlot l.presence).andThen fun presence =>
    (borrow presence l.items.length).bind fun loan loan' => gather l.items loan loan'

theorem collect (steps : List (Decode (Except Failure α))) (h : ∀ step ∈ steps, Steady id step step)
    (index : Nat) (loan loan' : Loan α) (hloan : loan'.content = loan.content)
    (failure : Option Failure) :
    Steady (Except.map Loan.content) (Decode.collect index steps loan failure)
      (Decode.collect index steps loan' failure) := by
  induction steps generalizing index loan loan' failure with
  | nil =>
    cases failure with
    | none => exact done (congrArg Except.ok hloan)
    | some reason => exact (giveBack loan loan').andThen fun _ => done rfl
  | cons step rest ih =>
    obtain ⟨hstep, hrest⟩ := List.forall_mem_cons.mp h
    refine (orGiveBack loan loan' hstep).andThen fun resolved => ?_
    cases resolved with
    | ok a => exact ih hrest (index + 1) _ _ (Loan.content_push hloan a) failure
    | error reason => exact ih hrest (index + 1) loan loan' hloan _

theorem elements (presence : Slot Presence) (steps : List (Decode (Except Failure α)))
    (h : ∀ step ∈ steps, Steady id step step) :
    Steady (Except.map Loan.content) (Decode.elements presence steps)
      (Decode.elements presence steps) :=
  (ofSlot presence).andThen fun presence =>
    (borrow presence steps.length).bind fun loan loan' hloan =>
      collect steps h 0 loan loan' hloan none

end Buffers

/-- An array of locations: whether a file belongs to the compilation never changes. -/
theorem locations (l : Listing Location) :
    Steady (Except.map Loan.content) (Decode.locations l) (Decode.locations l) := by
  refine elements l.presence _ fun step hstep => ?_
  obtain ⟨item, -, rfl⟩ := List.mem_map.mp hstep
  refine (ofSlot item).andThen fun l => ?_
  cases l with
  | nowhere => exact done rfl
  | source path span =>
    refine look (·.containsFile path) (fun known => if known then
      pure (Except.ok (Location.source path span))
      else pure (Except.error (Failure.notInCompilation path))) ?_ ?_
    · intro c c' hgrows
      rw [Compilation.containsFile, Compilation.containsFile, hgrows.files]
    · intro known
      cases known <;> exact done rfl

/-! ### Segments -/

theorem segment {d : Description} {place : Place} {body : Place → Decode Resolved}
    (h : ∀ place, Steady id (body place) (body place)) :
    Steady id (Decode.segment d place body) (Decode.segment d place body) := by
  unfold Decode.segment
  cases d.category? with
  | none => exact h place
  | some category =>
    refine (emit _).andThen fun _ => (h place.enter).andThen fun resolved => ?_
    cases resolved with
    | ok r => exact done rfl
    | error reason => exact (emit _).andThen fun _ => done rfl

/-- Going on with a part that both runs have, or that failed in both. -/
theorem require {category : Category} {part : String} {view : α → γ}
    {resolved resolved' : Except Failure α} {onward onward' : α → Decode Resolved}
    (hresolved : resolved'.map view = resolved.map view)
    (h : ∀ a a', view a' = view a → Steady id (onward a) (onward' a')) :
    Steady id (Decode.require category part resolved onward)
      (Decode.require category part resolved' onward') := by
  cases resolved with
  | ok a =>
    cases resolved' with
    | ok a' => exact h a a' (Except.ok.inj hresolved)
    | error reason => cases hresolved
  | error reason =>
    cases resolved' with
    | ok a' => cases hresolved
    | error reason' =>
      cases hresolved
      exact done rfl

/-- The same for a part that the runs agree about. -/
theorem requireSame {category : Category} {part : String} {resolved : Except Failure α}
    {onward onward' : α → Decode Resolved} (h : ∀ a, Steady id (onward a) (onward' a)) :
    Steady id (Decode.require category part resolved onward)
      (Decode.require category part resolved onward') := by
  cases resolved with
  | ok a => exact h a
  | error reason => exact done rfl

/-! ### Structural types -/

theorem mapM {make : α → Decode β} (h : ∀ a, Steady id (make a) (make a)) (as : List α) :
    Steady id (as.mapM make) (as.mapM make) := by
  induction as with
  | nil => exact done rfl
  | cons a rest ih =>
    rw [List.mapM_cons]
    exact (h a).andThen fun _ => ih.andThen fun _ => done rfl

theorem resolutionMapM {make : α → Decode β} (h : ∀ a, Steady id (make a) (make a))
    (r : Resolution α) : Steady id (r.mapM make) (r.mapM make) := by
  cases r with
  | symbol s => exact (h s).andThen fun _ => done rfl
  | ambiguous several => exact (mapM h several).andThen fun _ => done rfl

theorem constructEach (place : Place) (arguments : List SymbolId) (definitions : List SymbolId) :
    Steady id (Description.constructEach place arguments definitions)
      (Description.constructEach place arguments definitions) := by
  induction definitions with
  | nil => exact done rfl
  | cons definition rest ih =>
    refine construct.andThen fun answer => ih.andThen fun built => ?_
    cases answer <;> exact done rfl

theorem constructed {place : Place} {name : String} {definitions : List SymbolId}
    {arguments arguments' : Loan SymbolId} (h : arguments'.content = arguments.content) :
    Steady id (Description.constructed place name definitions arguments)
      (Description.constructed place name definitions arguments') := by
  unfold Description.constructed
  rw [Loan.presence_eq h, Loan.items_eq h]
  split
  · exact done rfl
  · exact (constructEach place arguments.items definitions).andThen fun _ => done rfl

theorem outcome (fallback : Fallback) (codec detail : String) :
    Steady id (fallback.outcome codec detail) (fallback.outcome codec detail) := by
  cases fallback with
  | universal =>
    exact look (·.universal) (fun s => pure (Except.ok (Resolution.symbol s)))
      (fun _ _ hgrows => hgrows.universal) fun _ => done rfl
  | fail => exact done rfl

theorem rebuild {fallback : Fallback} {codec : String} {presence : Presence}
    {request : Decode (Except Rejection SymbolId)} (h : Steady id request request) :
    Steady id (fallback.rebuild codec presence request)
      (fallback.rebuild codec presence request) := by
  unfold Fallback.rebuild
  split
  · exact (emit _).andThen fun _ => outcome fallback codec _
  · refine h.andThen fun answer => ?_
    cases answer with
    | ok s => exact done rfl
    | error rejection => exact (emit _).andThen fun _ => outcome fallback codec _

/-! ### Signatures -/

theorem enclosing (place : Place) (depth ordinal : Nat) :
    Steady id (Description.enclosing place depth ordinal)
      (Description.enclosing place depth ordinal) := by
  unfold Description.enclosing
  cases place.methods[depth]? with
  | none => exact done rfl
  | some owner =>
    refine (query fun c c' hgrows => (hgrows.lasting_get owner).map _).andThen fun parameters => ?_
    cases parameters[ordinal]? <;> exact done rfl

variable {place : Place} {signature : Place → Decode (Except Failure (Loan SymbolId))}
  (hsignature : ∀ place, Steady (Except.map Loan.content) (signature place) (signature place))
include hsignature

theorem replay (candidates : List SymbolId) (sofar : Description.Replay) :
    Steady id (Description.replay place signature candidates sofar)
      (Description.replay place signature candidates sofar) := by
  induction candidates generalizing sofar with
  | nil => exact done rfl
  | cons candidate rest ih =>
    refine (hsignature (place.within candidate)).bind fun types types' htypes => ?_
    cases types with
    | error reason =>
      cases types' with
      | ok loan' => cases htypes
      | error reason' =>
        cases htypes
        exact ih _
    | ok loan =>
      cases types' with
      | error reason' => cases htypes
      | ok loan' =>
        refine andThen (during loan loan' ?_) fun fits => ih _
        rw [Loan.items_eq (Except.ok.inj htypes)]
        exact (query fun c c' hgrows => hgrows.lasting_parameterTypes candidate).andThen
          fun _ => done rfl

theorem replayAll (candidates : List SymbolId) :
    Steady id (Description.replayAll place signature candidates)
      (Description.replayAll place signature candidates) := by
  unfold Description.replayAll
  split
  · refine (hsignature place).bind fun types types' htypes => ?_
    cases types with
    | ok loan =>
      cases types' with
      | ok loan' => exact (giveBack loan loan').andThen fun _ => replay hsignature candidates {}
      | error reason => cases htypes
    | error reason =>
      cases types' with
      | ok loan' => cases htypes
      | error reason' => exact replay hsignature candidates {}
  · exact replay hsignature candidates {}

end Steady
end Decode

namespace Description

open Decode

variable {o : ResolveOptions}

/-- A segment whose name is looked up among what belongs to another symbol. -/
theorem steady_lookup {owner : Description} {place : Place} {name : Slot String}
    {category : Category} {part : String}
    {question : List SymbolId → String → Compilation → Except Fault (List SymbolId)}
    (hquestion : ∀ owners name c c', Compilation.Grows c c' →
      Lasting (question owners name c) (question owners name c'))
    (howner : ∀ place, Steady id (resolve o owner place) (resolve o owner place)) (place' : Place) :
    let step := do
      let owner ← segment owner place' (resolve o owner)
      let name ← ofSlot name
      require category part owner fun owner => do
        return found category name (← query place (question owner.candidates name))
    Steady id step step :=
  (Steady.segment howner).andThen fun _ => (Steady.ofSlot name).andThen fun _ =>
    Steady.requireSame fun _ => (Steady.query (hquestion _ _)).andThen fun _ => Steady.done rfl

theorem steady_resolveEach {ds : List Description}
    (h : ∀ d ∈ ds, ∀ place, Steady id (resolve o d place) (resolve o d place)) (place : Place) :
    ∀ step ∈ resolveEach o ds place, Steady id step step := by
  induction ds generalizing place with
  | nil =>
    intro step hstep
    simp [resolveEach] at hstep
  | cons d rest ih =>
    intro step hstep
    obtain ⟨hd, hrest⟩ := List.forall_mem_cons.mp h
    rw [resolveEach, List.mem_cons] at hstep
    rcases hstep with rfl | hstep
    · exact (Steady.segment hd).map fun r r' heq => congrArg first heq
    · exact ih hrest _ step hstep

/-- Resolving a description comes to the same when it is done again. -/
theorem resolve_steady (o : ResolveOptions) (d : Description) :
    ∀ place : Place, Steady id (resolve o d place) (resolve o d place) := by
  induction d with
  | unreadable e | unflagged e =>
    intro place
    simp only [resolve]
    exact Steady.halted _
  | global =>
    intro place
    simp only [resolve]
    exact Steady.look (·.global) (fun s => pure (Except.ok (Resolution.symbol s)))
      (fun _ _ hgrows => hgrows.global) fun _ => Steady.done rfl
  | nameSpace container name ih =>
    intro place
    simp only [resolve]
    exact steady_lookup (fun owners name _ _ h => h.lasting_membersNamed o .nameSpace owners name)
      ih _
  | typeParameter owner name ih =>
    intro place
    simp only [resolve]
    exact steady_lookup (fun owners name _ _ h =>
      h.lasting_named o (fun s => (h.lasting_get s).map _) owners name) ih _
  | field container name ih =>
    intro place
    simp only [resolve]
    exact steady_lookup (fun owners name _ _ h => h.lasting_membersNamed o .field owners name) ih _
  | parameter owner name ih =>
    intro place
    simp only [resolve]
    exact steady_lookup (fun owners name _ _ h =>
      h.lasting_named o (fun s => (h.lasting_get s).map _) owners name) ih _
  | typeParameterOrdinal depth ordinal =>
    intro place
    simp only [resolve]
    exact (Steady.ofSlot depth).andThen fun depth => (Steady.ofSlot ordinal).andThen fun ordinal =>
      Steady.enclosing _ depth ordinal
  | localVariable owner name ordinal ih =>
    intro place
    simp only [resolve]
    refine (Steady.segment ih).andThen fun owner => (Steady.ofSlot name).andThen fun name =>
      (Steady.ofSlot ordinal).andThen fun ordinal => Steady.requireSame fun r => ?_
    exact (Steady.query fun c c' h =>
      h.lasting_localsNumbered o r.candidates name ordinal).andThen fun _ => Steady.done rfl
  | arrayType element rank ih =>
    intro place
    simp only [resolve]
    refine (Steady.segment ih).andThen fun element => (Steady.ofSlot rank).andThen fun rank =>
      Steady.requireSame fun r => ?_
    exact (Steady.resolutionMapM (fun s =>
      Steady.build (Compilation.settled_arrayType s (UInt64.ofNat rank))) r).andThen
        fun _ => Steady.done rfl
  | pointerType pointee ih =>
    intro place
    simp only [resolve]
    refine (Steady.segment ih).andThen fun pointee => Steady.requireSame fun r => ?_
    exact (Steady.resolutionMapM (fun s =>
      Steady.build (Compilation.settled_pointerType s)) r).andThen fun _ => Steady.done rfl
  | namedType container name arity presence arguments ih iharguments =>
    intro place
    simp only [resolve]
    refine (Steady.segment ih).andThen fun container => (Steady.ofSlot name).andThen fun name =>
      (Steady.ofSlot arity).andThen fun arity => ?_
    refine (Steady.elements presence _ (steady_resolveEach iharguments _)).bind
      fun lent lent' hlent => ?_
    refine Steady.duringEither hlent (Steady.requireSame fun r => Steady.require hlent
      fun loan loan' hloan => ?_)
    exact (Steady.query fun c c' h => h.lasting_typesNamed o r.candidates name arity).andThen
      fun definitions => Steady.constructed hloan
  | tupleType presence types names locations ih =>
    intro place
    simp only [resolve]
    refine (Steady.elements presence _ (steady_resolveEach ih _)).bind fun types types' htypes => ?_
    refine Steady.duringEither htypes ((Steady.listing names).bind fun names names' hnames => ?_)
    refine Steady.during names names' ((Steady.locations locations).bind
      fun locations locations' hlocations => ?_)
    refine Steady.duringEither hlocations (Steady.require htypes fun types types' htypes =>
      Steady.require hlocations fun locations locations' hlocations => ?_)
    rw [Loan.presence_eq htypes, Loan.items_eq htypes, Loan.items_eq hnames,
      Loan.items_eq hlocations]
    exact Steady.rebuild (Steady.build (Compilation.settled_tupleType _ _ _))
  | anonymousType presence types names readOnly locations ih =>
    intro place
    simp only [resolve]
    refine (Steady.elements presence _ (steady_resolveEach ih _)).bind fun types types' htypes => ?_
    refine Steady.duringEither htypes ((Steady.listing names).bind fun names names' hnames => ?_)
    refine Steady.during names names' ((Steady.listing readOnly).bind
      fun readOnly readOnly' hreadOnly => ?_)
    refine Steady.during readOnly readOnly' ((Steady.locations locations).bind
      fun locations locations' hlocations => ?_)
    refine Steady.duringEither hlocations (Steady.require htypes fun types types' htypes =>
      Steady.require hlocations fun locations locations' hlocations => ?_)
    rw [Loan.presence_eq htypes, Loan.items_eq htypes, Loan.items_eq hnames,
      Loan.items_eq hreadOnly, Loan.items_eq hlocations]
    exact Steady.rebuild (Steady.build (Compilation.settled_anonymousType _ _ _ _))
  | property container name presence parameters ih ihparameters =>
    intro place
    simp only [resolve]
    refine (Steady.segment ih).andThen fun container => (Steady.ofSlot name).andThen fun name => ?_
    refine (Steady.elements presence _ (steady_resolveEach ihparameters _)).bind
      fun lent lent' hlent => ?_
    refine Steady.duringEither hlent (Steady.requireSame fun r => Steady.require hlent
      fun loan loan' hloan => ?_)
    rw [Loan.items_eq hloan]
    exact (Steady.query fun c c' h =>
      h.lasting_propertiesNamed o r.candidates name loan.items).andThen fun _ => Steady.done rfl
  | method container name arity presence parameters ih ihparameters =>
    intro place
    simp only [resolve]
    refine (Steady.segment ih).andThen fun container => (Steady.ofSlot name).andThen fun name =>
      (Steady.ofSlot arity).andThen fun arity => ?_
    have hsignature : ∀ p, Steady (Except.map Loan.content)
        (elements presence (resolveEach o parameters p))
        (elements presence (resolveEach o parameters p)) :=
      fun p => Steady.elements presence _ (steady_resolveEach ihparameters p)
    cases container with
    | ok r =>
      refine (Steady.query fun c c' h =>
        h.lasting_methodsNamed o r.candidates name arity).andThen fun candidates =>
          (Steady.replayAll hsignature candidates).andThen fun outcome =>
            Steady.requireSame fun _ => ?_
      split <;> exact Steady.done rfl
    | error reason =>
      refine Steady.andThen (Steady.done rfl) fun candidates =>
        (Steady.replayAll hsignature candidates).andThen fun outcome => Steady.requireSame fun _ =>
          ?_
      split <;> exact Steady.done rfl

end Description
end Moniker
