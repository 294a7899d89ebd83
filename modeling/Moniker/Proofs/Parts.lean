import Moniker.Proofs.Completed
import Moniker.Proofs.Conservative
import Moniker.Proofs.RoundTrip

/-!
# The parts of segments

A segment has slots, segments and arrays inside it. Reading one of them to its end leaves a reader
further on and a scene in which the compilation has built structural types at most (`Reader.Goes`),
as long as the reader was ready for it: among its frames, with a sound scene and inside the
signatures of issued methods (`Reader.Ready`). An array is its header and then a row of elements,
and comes to all of them or to the first failure among them (`Reader.readKeys_inv`).
-/

namespace Moniker

/-- Steps one after the other, and what each of them yields. -/
inductive Row {σ α : Type} (step : σ → α → σ → Prop) : σ → List α → σ → Prop
  | nil (s : σ) : Row step s [] s
  | cons {s s' s'' : σ} {a : α} {rest : List α} (h : step s a s') (hrest : Row step s' rest s'') :
    Row step s (a :: rest) s''

namespace Row

variable {σ α : Type} {step : σ → α → σ → Prop} {s s'' : σ} {before rest : List α}

/-- A row can be divided anywhere. -/
theorem append_inv (h : Row step s (before ++ rest) s'') :
    ∃ s', Row step s before s' ∧ Row step s' rest s'' := by
  induction before generalizing s with
  | nil => exact ⟨s, .nil s, h⟩
  | cons a before ih =>
    cases h with
    | cons hstep hrest =>
      obtain ⟨s', hbefore, hafter⟩ := ih hrest
      exact ⟨s', .cons hstep hbefore, hafter⟩

end Row

/-- The failure, if it is one. -/
def failure? {α : Type} : Except Failure α → Option Failure
  | .error reason => some reason
  | .ok _ => none

theorem failure?_eq_none {α : Type} {x : Except Failure α} (h : ∀ reason, x ≠ .error reason) :
    failure? x = none := by
  cases x with
  | ok a => rfl
  | error reason => exact absurd rfl (h reason)

namespace Decode

theorem pure_inv {α : Type} {scene scene' : Scene} {a b : α}
    (h : (pure a : Decode α).run scene = (.ok b, scene')) : b = a ∧ scene' = scene := by
  cases h
  exact ⟨rfl, rfl⟩

/-- A location is looked at without a change of the scene. -/
theorem run_location (l : Location) (scene : Scene) :
    (location (.ok l)).run scene = (.ok (scene.compilation.accept l), scene) := by
  cases l with
  | nowhere => rfl
  | source path span =>
    show (if scene.compilation.containsFile path then pure (Except.ok (Location.source path span))
      else pure (Except.error (Failure.notInCompilation path)) : Decode _).run scene = _
    rw [Compilation.accept]
    split <;> rfl

/-- A request for a structural type comes to what is settled. -/
theorem rebuild_inv {fallback : Fallback} {codec : String} {presence : Presence}
    {request : Compilation → Except Rejection SymbolId × Compilation} {scene scene' : Scene}
    {resolved : Resolved}
    (h : (fallback.rebuild codec presence (build request)).run scene = (.ok resolved, scene')) :
    resolved = (fallback.settle codec presence scene.compilation (request scene.compilation)).1 ∧
      scene'.compilation =
        (fallback.settle codec presence scene.compilation (request scene.compilation)).2 := by
  have houtcome {detail : String} {scene : Scene}
      (h : (fallback.outcome codec detail).run scene = (.ok resolved, scene')) :
      resolved = fallback.answer codec detail scene.compilation ∧
        scene'.compilation = scene.compilation := by
    cases fallback <;> cases h <;> exact ⟨rfl, rfl⟩
  have hemit {event : Event} {scene mid : Scene} {u : Unit}
      (h : (emit event).run scene = (.ok u, mid)) : mid.compilation = scene.compilation := by
    cases h
    rfl
  unfold Fallback.rebuild at h
  unfold Fallback.settle
  by_cases habsent : presence.isAbsent
  · rw [if_pos habsent] at h ⊢
    obtain ⟨_, mid, hevent, hrest⟩ := bind_inv h
    obtain ⟨hresolved, hlater⟩ := houtcome hrest
    rw [hresolved, hlater, hemit hevent]
    exact ⟨rfl, rfl⟩
  · rw [if_neg habsent] at h ⊢
    obtain ⟨answer, mid, hbuild, hrest⟩ := bind_inv h
    obtain ⟨rfl, rfl⟩ := build_inv hbuild
    generalize request scene.compilation = answered at hrest ⊢
    obtain ⟨answer, c'⟩ := answered
    cases answer with
    | ok s =>
      cases hrest
      exact ⟨rfl, rfl⟩
    | error rejection =>
      obtain ⟨_, mid, hevent, hrest⟩ := bind_inv hrest
      obtain ⟨hresolved, hlater⟩ := houtcome hrest
      rw [hresolved, hlater, hemit hevent]
      exact ⟨rfl, rfl⟩

end Decode

/-! ## Arrays in passes -/

namespace Pass

variable {α β : Type} {r r' : Reader} {scene scene' : Scene} {state : Reader × Scene}

/-- Items are read one after the other into the buffer. -/
theorem gather_inv [Lends α] {item : Pass α} {n : Nat} {loan full : Loan α} {after : Reader × Scene}
    (h : (gather item n loan).Yields state full after) :
    ∃ items, Row item.Yields state items after ∧ items.length = n ∧
      full.presence = loan.presence ∧ full.items = loan.items ++ items := by
  induction n generalizing state loan with
  | zero =>
    obtain ⟨rfl, rfl⟩ := pure_inv h
    exact ⟨[], .nil _, rfl, rfl, by simp⟩
  | succ n ih =>
    obtain ⟨a, mid, hitem, hrest⟩ := bind_inv h
    obtain ⟨items, hrow, hlength, hpresence, hitems⟩ := ih hrest
    refine ⟨a :: items, .cons (orGiveBack_inv hitem) hrow, congrArg (· + 1) hlength, hpresence, ?_⟩
    rw [hitems, Loan.items_push, List.append_assoc]
    rfl

/-- Elements are read one after the other. If one of them has failed already, that is what comes of
the array. -/
theorem collect_inv [Lends α] {item : Pass (Except Failure α)} {n index : Nat} {loan : Loan α}
    {failure : Option Failure} {lent : Except Failure (Loan α)}
    (h : (collect item index n loan failure).Yields state lent (r', scene')) :
    ∃ outcomes scene, Row item.Yields state outcomes (r', scene) ∧ outcomes.length = n ∧
      Decode.Lent loan.presence lent (match failure with
        | some reason => .error reason
        | none => (gathered index outcomes).map (loan.items ++ ·)) ∧
      scene'.compilation = scene.compilation := by
  induction n generalizing state index loan failure with
  | zero =>
    cases failure with
    | none =>
      obtain ⟨rfl, rfl⟩ := pure_inv h
      refine ⟨[], scene', .nil _, rfl, ⟨loan, rfl, ?_, rfl⟩, rfl⟩
      exact (List.append_nil _).symm
    | some reason =>
      obtain ⟨r, scene⟩ := state
      obtain ⟨_, _, hgive, hdone⟩ := bind_inv h
      obtain ⟨_, hrun, rfl⟩ := lift_inv hgive
      obtain ⟨rfl, heq⟩ := pure_inv hdone
      cases hrun
      cases heq
      exact ⟨[], scene, .nil _, rfl, rfl, rfl⟩
  | succ n ih =>
    obtain ⟨outcome, mid, hitem, hrest⟩ := bind_inv h
    cases outcome with
    | ok a =>
      obtain ⟨outcomes, scene, hrow, hlength, hlent, hcompilation⟩ := ih hrest
      refine ⟨.ok a :: outcomes, scene, .cons (orGiveBack_inv hitem) hrow,
        congrArg (· + 1) hlength, ?_, hcompilation⟩
      cases failure with
      | some reason => exact hlent
      | none =>
        simp only [gathered]
        cases hgathered : gathered (index + 1) outcomes with
        | ok items => simpa [hgathered, Except.map, Decode.Lent] using hlent
        | error reason => simpa [hgathered, Except.map, Decode.Lent] using hlent
    | error reason =>
      obtain ⟨outcomes, scene, hrow, hlength, hlent, hcompilation⟩ := ih hrest
      refine ⟨.error reason :: outcomes, scene, .cons (orGiveBack_inv hitem) hrow,
        congrArg (· + 1) hlength, ?_, hcompilation⟩
      cases failure with
      | some reason' => exact hlent
      | none => exact hlent

section Buffers

variable [Lends α] [Lends.Lawful α]

theorem borrow_inv {presence : Presence} {n : Nat} {loan : Loan α} {after : Reader × Scene}
    (hclean : scene.arena.Clean)
    (h : (lift (Decode.borrow presence n)).Yields (r, scene) loan after) :
    loan.items = [] ∧ loan.presence = presence ∧ after = (r, scene.lending α presence n) := by
  obtain ⟨_, hrun, rfl⟩ := lift_inv h
  obtain ⟨hitems, hpresence, -⟩ :=
    (Lends.Lawful.pool_clean hclean : (Lends.pool scene.arena : Pool α).Clean).acquire presence n
  cases hrun
  exact ⟨hitems, hpresence, rfl⟩

/-- An array of plain values is its header, and the values one after the other. -/
theorem listing_inv {item : Pass α} {loan : Loan α} (hinside : r.Inside)
    (hclean : scene.arena.Clean) (h : (listing item).Yields (r, scene) loan (r', scene')) :
    ∃ presence n r₁ items, r.read Scan.header = (.ok (presence, n), r₁) ∧ r.Advances r₁ ∧
      Row item.Yields (r₁, scene.lending α presence n) items (r', scene') ∧ items.length = n ∧
      loan.presence = presence ∧ loan.items = items := by
  obtain ⟨⟨presence, n⟩, ⟨r₁, _⟩, hread, hrest⟩ := bind_inv h
  obtain ⟨hheader, rfl⟩ := (Spells.header hinside.faces).read_iff.mp hread
  obtain ⟨empty, _, hborrow, hgather⟩ := bind_inv hrest
  obtain ⟨hempty, hpresence, rfl⟩ := borrow_inv hclean hborrow
  obtain ⟨items, hrow, hlength, hkept, hitems⟩ := gather_inv hgather
  refine ⟨presence, n, r₁, items, hheader, ((Spells.header hinside.faces).advances hread).1, hrow,
    hlength, hkept.trans hpresence, ?_⟩
  rw [hitems, hempty, List.nil_append]

/-- An array of elements is its header, and the elements one after the other. -/
theorem elements_inv {item : Pass (Except Failure α)} {lent : Except Failure (Loan α)}
    (hinside : r.Inside) (hclean : scene.arena.Clean)
    (h : (elements item).Yields (r, scene) lent (r', scene')) :
    ∃ presence n r₁ outcomes scene₁, r.read Scan.header = (.ok (presence, n), r₁) ∧ r.Advances r₁ ∧
      Row item.Yields (r₁, scene.lending α presence n) outcomes (r', scene₁) ∧ outcomes.length = n ∧
      Decode.Lent presence lent (gathered 0 outcomes) ∧
        scene'.compilation = scene₁.compilation := by
  obtain ⟨⟨presence, n⟩, ⟨r₁, _⟩, hread, hrest⟩ := bind_inv h
  obtain ⟨hheader, rfl⟩ := (Spells.header hinside.faces).read_iff.mp hread
  obtain ⟨empty, _, hborrow, hcollect⟩ := bind_inv hrest
  obtain ⟨hempty, rfl, rfl⟩ := borrow_inv hclean hborrow
  obtain ⟨outcomes, scene₁, hrow, hlength, hlent, hcompilation⟩ := collect_inv hcollect
  refine ⟨_, n, r₁, outcomes, scene₁, hheader, ((Spells.header hinside.faces).advances hread).1,
    hrow, hlength, ?_, hcompilation⟩
  have hall : (gathered 0 outcomes).map (empty.items ++ ·) = gathered 0 outcomes := by
    rw [hempty]
    cases gathered 0 outcomes <;> rfl
  rwa [← hall]

end Buffers

/-- What a completed pass was made of ran to its end as well. -/
theorem Fuses.run_eq {final : Scan} {step : Decode β} {pass : Pass β} {b : β}
    (h : Fuses r final step pass) (hyields : pass.Yields (r, scene) b (r', scene')) :
    step.run scene = (.ok b, scene') := by
  have hagrees := h scene
  unfold Yields at hyields
  rw [hyields] at hagrees
  generalize step.run scene = run at hagrees
  cases hagrees with
  | done _ => rfl

end Pass

namespace Description

variable {o : ResolveOptions}

/-- An array of segments comes to what locating them comes to, inside whatever methods. -/
theorem reads_elements (presence : Slot Presence) (ds : List Description) :
    Decode.Ends.Reads (fun place => Decode.elements presence (resolveEach o ds place))
      (presence.valueOr .absent) (presence.defect? <|> defects? ds) (goThrough o ds) := by
  intro place c hmethods
  refine segments (fun d _ => resolve_ends o d) hmethods (by rfl) (fun e c' he => ?_)
    fun lent hp hds hlent => ?_
  · have hdefect : (presence.defect? <|> defects? ds) = some e := by simpa using he
    simp [hdefect]
  · have hnone : (presence.defect? <|> defects? ds) = none := by simp [hp, hds]
    rw [hnone]
    exact ⟨rfl, lent, rfl, hlent⟩

end Description

namespace Reader

open Pass

variable {α β : Type} {o : ResolveOptions} {r r' r'' : Reader} {scene scene' scene'' : Scene}

/-! ## Rows -/

/-- A value that no compilation is needed for is read. -/
def Reads (reading : Reading α) (r : Reader) (a : α) (r' : Reader) : Prop :=
  r.read reading = (.ok a, r')

/-- A segment is read to its end. -/
def ReadsKey (o : ResolveOptions) (state : Reader × Scene) (resolved : Resolved)
    (after : Reader × Scene) : Prop :=
  state.1.readKey o state.2 = ⟨.ok resolved, after.1, after.2⟩

theorem row_reads {reading : Reading α} {pass : Pass α} {items : List α} (hinside : r.Inside)
    (hspells : ∀ r : Reader, r.Inside → Spells r r.ahead reading pass)
    (h : Row pass.Yields (r, scene) items (r', scene')) :
    Row (Reads reading) r items r' ∧ scene' = scene := by
  induction items generalizing r with
  | nil =>
    cases h
    exact ⟨.nil _, rfl⟩
  | cons a rest ih =>
    cases h with
    | @cons _ mid _ _ _ hitem hrest =>
      obtain ⟨r₁, scene₁⟩ := mid
      obtain ⟨hread, rfl⟩ := (hspells r hinside).read_iff.mp hitem
      obtain ⟨hrow, heq⟩ := ih ((hspells r hinside).advances hitem).1.inside hrest
      exact ⟨.cons hread hrow, heq⟩

theorem row_readsKey {outcomes : List (Except Failure SymbolId)} (hinside : r.Inside)
    (h : Row (Decode.first <$> key .own o).Yields (r, scene) outcomes (r', scene')) :
    ∃ elements, Row (ReadsKey o) (r, scene) elements (r', scene') ∧
      outcomes = elements.map Decode.first := by
  induction outcomes generalizing r scene with
  | nil =>
    cases h
    exact ⟨[], .nil _, rfl⟩
  | cons outcome rest ih =>
    cases h with
    | @cons _ mid _ _ _ hitem hrest =>
      obtain ⟨r₁, scene₁⟩ := mid
      obtain ⟨resolved, hkey, rfl⟩ := map_inv hitem
      have hread : ReadsKey o (r, scene) resolved (r₁, scene₁) := (key_iff hinside).mp hkey
      obtain ⟨elements, hrow, rfl⟩ := ih ((fuses_key hinside).advances hkey).1.inside hrest
      exact ⟨resolved :: elements, .cons hread hrow, rfl⟩

theorem row_readsSite {outcomes : List (Except Failure Location)} (hinside : r.Inside)
    (h : Row location.Yields (r, scene) outcomes (r', scene')) :
    ∃ sites, Row (Reads Scan.location) r sites r' ∧
      outcomes = sites.map scene.compilation.accept ∧ scene' = scene := by
  induction outcomes generalizing r with
  | nil =>
    cases h
    exact ⟨[], .nil _, rfl, rfl⟩
  | cons outcome rest ih =>
    cases h with
    | @cons _ mid _ _ _ hitem hrest =>
      obtain ⟨r₁, scene₁⟩ := mid
      obtain ⟨site, ⟨r₂, scene₂⟩, hsite, hlook⟩ := bind_inv hitem
      obtain ⟨hread, rfl⟩ := (Spells.site hinside.faces).read_iff.mp hsite
      obtain ⟨_, hrun, heq⟩ := lift_inv hlook
      cases heq
      have haccept : outcome = scene₂.compilation.accept site ∧ scene₁ = scene₂ := by
        rw [Decode.run_location] at hrun
        cases hrun
        exact ⟨rfl, rfl⟩
      obtain ⟨rfl, rfl⟩ := haccept
      obtain ⟨sites, hrow, rfl, rfl⟩ :=
        ih ((Spells.site hinside.faces).advances hsite).1.inside hrest
      exact ⟨site :: sites, .cons hread hrow, rfl, rfl⟩

/-! ## Ready readers -/

/-- The segment that begins where the reader stands, as it is scanned. -/
def described (r : Reader) (o : ResolveOptions) : Description :=
  ((Description.ofFrames o (r.budget o)).run r.ahead).1

/-- The array of segments that begins where the reader stands, as it is scanned. -/
def listed (r : Reader) (o : ResolveOptions) : Slot Presence × List Description :=
  ((Scan.array (Description.ofFrames o (r.budget o))).run r.ahead).1

/-- The defect in the array, if there is one. -/
def listedDefect? (r : Reader) (o : ResolveOptions) : Option Defect :=
  (r.listed o).1.defect? <|> Description.defects? (r.listed o).2

/-- The reader after the array. -/
def afterListed (r : Reader) (o : ResolveOptions) : Reader :=
  r.moved ((Scan.array (Description.ofFrames o (r.budget o))).run r.ahead).2.position

/-- What the array of segments has come to inside the methods around the reader. -/
structure ComesTo (r : Reader) (o : ResolveOptions) (c : Compilation)
    (lent : Except Failure (Loan SymbolId)) (c' : Compilation) : Prop where
  lent : Decode.Lent ((r.listed o).1.valueOr .absent) lent
    (Description.goThrough o (r.listed o).2 r.place.methods c).1
  later : c' = (Description.goThrough o (r.listed o).2 r.place.methods c).2

/-- Nothing keeps the reader from reading on: it is among its frames and inside the signatures of
issued methods, and the scene is sound. -/
structure Ready (r : Reader) (scene : Scene) : Prop where
  inside : r.Inside
  sound : scene.Sound
  methods : ∀ m ∈ r.place.methods, scene.compilation.Issued m

/-- Reading on has come to another state, in which no more than structural types have been built. -/
structure Goes (r : Reader) (scene : Scene) (r' : Reader) (scene' : Scene) : Prop where
  advances : r.Advances r'
  leads : scene.compilation.Leads scene'.compilation
  sound : scene'.Sound

theorem Goes.trans (h : r.Goes scene r' scene') (h' : r'.Goes scene' r'' scene'') :
    r.Goes scene r'' scene'' :=
  ⟨h.advances.trans h'.advances, h.leads.trans h'.leads, h'.sound⟩

namespace Ready

variable (h : r.Ready scene)
include h

theorem goes : r.Goes scene r scene := ⟨h.inside.refl, .refl _, h.sound⟩

theorem later (hgoes : r.Goes scene r' scene') : r'.Ready scene' := by
  refine ⟨hgoes.advances.inside, hgoes.sound, fun m hm => ?_⟩
  rw [hgoes.advances.methods] at hm
  exact hgoes.leads.grows.issued (h.methods m hm)

theorem entered {category : Category}
    (hkind : r.frames[r.place.position]? = some (.kind category)) :
    r.entered.Ready (scene.entered category r) :=
  ⟨(List.getElem?_eq_some_iff.mp hkind).1, ⟨h.sound.closed, h.sound.clean⟩, h.methods⟩

theorem lending [Lends α] [Lends.Lawful α] (presence : Presence) (n : Nat) :
    r.Ready (scene.lending α presence n) := by
  refine ⟨h.inside, ⟨h.sound.closed, ?_⟩, h.methods⟩
  exact Lends.Lawful.setPool_clean h.sound.clean
    ((Lends.Lawful.pool_clean h.sound.clean : (Lends.pool scene.arena : Pool α).Clean).acquire
      presence n).2.2

theorem pushMethod {m : SymbolId} (hm : scene.compilation.Issued m) :
    (r.pushMethod m).Ready scene := by
  refine ⟨h.inside, h.sound, fun m' hm' => ?_⟩
  rcases List.mem_append.mp hm' with hm' | hm'
  · exact h.methods m' hm'
  · rw [List.mem_singleton.mp hm']
    exact hm

/-- What a pass came to is what its steps end in. -/
theorem pass {γ : Type} {view : β → γ} {final : Scan} {step : Decode β} {pass : Pass β} {b : β}
    {post : Slot β → Compilation → Prop} (hfuses : Fuses r final step pass)
    (hsteady : Decode.Steady view step step) (hends : Decode.Ends step scene.compilation post)
    (hyields : pass.Yields (r, scene) b (r', scene')) :
    r.Goes scene r' scene' ∧ post (.ok b) scene'.compilation := by
  have hrun := hfuses.run_eq hyields
  obtain ⟨hleads, -, -⟩ := hsteady scene h.sound.clean
  obtain ⟨outcome, after, hend, hsound, -, hpost⟩ := hends scene h.sound rfl
  rw [hrun] at hend hleads
  cases outcome with
  | error d => cases hend
  | ok b' =>
    cases hend
    exact ⟨⟨(hfuses.advances hyields).1, hleads, hsound⟩, hpost⟩

/-- A slot was read. -/
theorem read {reading : Reading α} {pass : Pass α} {a : α} (hspells : Spells r r.ahead reading pass)
    (hread : r.Reads reading a r') : r.Goes scene r' scene := by
  have hyields : pass.Yields (r, scene) a (r', scene) := hspells.read_iff.mpr ⟨hread, rfl⟩
  exact ⟨(hspells.advances hyields).1, .refl _, h.sound⟩

/-- The header of an array was read, and a buffer borrowed. -/
theorem header [Lends α] [Lends.Lawful α] {presence : Presence} {n : Nat}
    (hread : r.Reads Scan.header (presence, n) r') : r.Goes scene r' (scene.lending α presence n) :=
  ⟨(h.read (.header h.inside.faces) hread).advances, .refl _, (h.lending presence n).sound⟩

/-- A segment was read, and it came to what locating it comes to. -/
theorem key {resolved : Resolved} (hread : r.readKey o scene = ⟨.ok resolved, r', scene'⟩) :
    r.Goes scene r' scene' ∧
      (r.described o).Resolves o r.place.methods scene.compilation (.ok resolved)
        scene'.compilation := by
  refine h.pass (fuses_key h.inside) (.segment (Description.resolve_steady o _)) ?_
    ((key_iff h.inside).mpr hread)
  refine Decode.Ends.segment fun place hplace => ?_
  rw [← hplace]
  exact Description.resolve_ends o _ place _ (hplace ▸ h.methods)

theorem located {resolved : Resolved} (hread : r.readKey o scene = ⟨.ok resolved, r', scene'⟩) :
    resolved = ((r.described o).locate o r.place.methods scene.compilation).1 ∧
      scene'.compilation = ((r.described o).locate o r.place.methods scene.compilation).2 := by
  obtain ⟨-, hresolves⟩ := h.key hread
  unfold Description.Resolves at hresolves
  split at hresolves
  · cases hresolves
  · exact ⟨Except.ok.inj hresolves.1, hresolves.2⟩

/-- What a segment resolves to has a first candidate. -/
theorem candidate {found : Resolution SymbolId}
    (hread : r.readKey o scene = ⟨.ok (.ok found), r', scene'⟩) : ∃ s, found.any? = some s := by
  have hcandidates := Description.locate_candidates o _ _ _ found (h.located hread).1.symm
  exact ⟨_, List.head?_eq_some_head hcandidates⟩

/-- What a segment resolves to is issued. -/
theorem knows {found : Resolution SymbolId}
    (hread : r.readKey o scene = ⟨.ok (.ok found), r', scene'⟩) :
    ∀ s ∈ found.candidates, scene'.compilation.Issued s := by
  obtain ⟨hlocate, hlater⟩ := h.located hread
  rw [hlater]
  exact (Description.locate_closed o _ _ _ h.sound.closed h.methods).2 found hlocate.symm

/-- Segments were read one after the other. -/
theorem row {elements : List Resolved} (hrow : Row (ReadsKey o) (r, scene) elements (r', scene')) :
    r.Goes scene r' scene' ∧ ∀ found, .ok found ∈ elements → ∃ s, found.any? = some s := by
  induction elements generalizing r scene with
  | nil =>
    cases hrow
    exact ⟨h.goes, fun found hmem => nomatch hmem⟩
  | cons resolved rest ih =>
    cases hrow with
    | @cons _ mid _ _ _ hread hrest =>
      obtain ⟨r₁, scene₁⟩ := mid
      have hgoes := (h.key hread).1
      obtain ⟨hlater, hcandidates⟩ := ih (h.later hgoes) hrest
      refine ⟨hgoes.trans hlater, fun found hmem => ?_⟩
      rcases List.mem_cons.mp hmem with rfl | hmem
      · exact h.candidate hread
      · exact hcandidates found hmem

/-- An array of segments was read, and it came to what locating them comes to. -/
theorem keys {lent : Except Failure (Loan SymbolId)}
    (hread : r.readKeys o scene = ⟨.ok lent, r', scene'⟩) :
    r.Goes scene r' scene' ∧ r.listedDefect? o = none ∧ r' = r.afterListed o ∧
      r.ComesTo o scene.compilation lent scene'.compilation := by
  have hyields := (keys_iff h.inside).mpr hread
  have hfuses : Fuses r ((Scan.array (Description.ofFrames o (r.budget o))).run r.ahead).2
      (Decode.elements (r.listed o).1
        (Description.resolveEach o (r.listed o).2 (r.place.forward 1)))
      (Pass.keys (Pass.key .own o)) := fuses_keys h.inside
  obtain ⟨hgoes, hpost⟩ := h.pass hfuses (.elements _ _
    (Description.steady_resolveEach (fun d _ place => Description.resolve_steady o d place) _))
    (Description.reads_elements _ _ (r.place.forward 1) scene.compilation h.methods) hyields
  have hafter := ((fuses_keys h.inside).advances hyields).2
  cases hdefect : r.listedDefect? o with
  | some d =>
    rw [listedDefect?] at hdefect
    rw [hdefect] at hpost
    cases hpost
  | none =>
    rw [listedDefect?] at hdefect
    rw [hdefect] at hpost
    obtain ⟨hlater, lent', heq, hlent⟩ := hpost
    cases heq
    exact ⟨hgoes, rfl, hafter, hlent, hlater⟩

/-- An array without a defect is read to its end. -/
theorem exists_readKeys (hdefect : r.listedDefect? o = none) : ∃ lent scene',
    r.readKeys o scene = ⟨.ok lent, r.afterListed o, scene'⟩ ∧
      r.ComesTo o scene.compilation lent scene'.compilation := by
  obtain ⟨outcome, scene', hrun, -, -, hpost⟩ := Description.reads_elements (o := o) (r.listed o).1
    (r.listed o).2 (r.place.forward 1) scene.compilation h.methods scene h.sound rfl
  rw [listedDefect?] at hdefect
  rw [hdefect] at hpost
  obtain ⟨hlater, lent, rfl, hlent⟩ := hpost
  refine ⟨lent, scene', ?_, hlent, hlater⟩
  have hscan : (Scan.array (Description.ofFrames o (r.budget o))).run
      { position := r.place.position, rest := r.frames.drop r.place.position } =
        (r.listed o, ((Scan.array (Description.ofFrames o (r.budget o))).run r.ahead).2) := rfl
  rw [readKeys, perform_match _ hscan, hrun]
  rfl

theorem listing [Lends α] [Lends.Lawful α] {reading : Reading α} {item : Pass α} {loan : Loan α}
    (hhalts : Halts reading.run) (hitem : ∀ r scan, Faces r scan → Spells r scan reading item)
    (hyields : (Pass.listing item).Yields (r, scene) loan (r', scene')) :
    r.Goes scene r' scene' ∧ scene'.compilation = scene.compilation := by
  have hends (l : Listing α) : Decode.Ends (Decode.listing l) scene.compilation
      fun _ c' => c' = scene.compilation := .listing (fun _ _ => rfl) fun _ _ _ _ => rfl
  exact h.pass (Fuses.listing hhalts hitem h.inside.faces) (.listing _) (hends _) hyields

theorem texts {names : Loan (Option String)}
    (hread : r.readTexts scene = ⟨.ok names, r', scene'⟩) :
    r.Goes scene r' scene' ∧ scene'.compilation = scene.compilation :=
  h.listing halts_text (fun _ _ => Spells.text) ((texts_iff h.inside).mpr hread)

theorem bools {flags : Loan Bool} (hread : r.readBools scene = ⟨.ok flags, r', scene'⟩) :
    r.Goes scene r' scene' ∧ scene'.compilation = scene.compilation :=
  h.listing halts_bool (fun _ _ => Spells.bool) ((bools_iff h.inside).mpr hread)

theorem locations {lent : Except Failure (Loan Location)}
    (hread : r.readLocations scene = ⟨.ok lent, r', scene'⟩) :
    r.Goes scene r' scene' ∧ scene'.compilation = scene.compilation := by
  have hends (l : Listing Location) : Decode.Ends (Decode.locations l) scene.compilation
      fun outcome c' => ∀ lent, outcome = .ok lent → c' = scene.compilation :=
    .locations (fun _ _ _ _ hok => nomatch hok) fun _ _ _ _ _ => rfl
  obtain ⟨hgoes, hpost⟩ := h.pass (Fuses.locations h.inside.faces) (.locations _) (hends _)
    ((locations_iff h.inside).mpr hread)
  exact ⟨hgoes, hpost lent rfl⟩

/-! ### Reading on -/

/-- A pass that begins with a slot. -/
theorem slot_inv {reading : Reading α} {pass : Pass α} {next : α → Pass β}
    (hspells : Spells r r.ahead reading pass)
    (hyields : (pass >>= next).Yields (r, scene) b after) :
    ∃ a r₁, r.Reads reading a r₁ ∧ r₁.Ready scene ∧ (next a).Yields (r₁, scene) b after := by
  obtain ⟨a, ⟨r₁, scene₁⟩, hslot, hrest⟩ := bind_inv hyields
  obtain ⟨hread, rfl⟩ := hspells.read_iff.mp hslot
  exact ⟨a, r₁, hread, h.later (h.read hspells hread), hrest⟩

/-- A pass that begins with a segment. -/
theorem segment_inv {next : Resolved → Pass β}
    (hyields : (Pass.key .own o >>= next).Yields (r, scene) b after) :
    ∃ resolved r₁ scene₁, ReadsKey o (r, scene) resolved (r₁, scene₁) ∧ r₁.Ready scene₁ ∧
      (next resolved).Yields (r₁, scene₁) b after := by
  obtain ⟨resolved, ⟨r₁, scene₁⟩, hkey, hrest⟩ := bind_inv hyields
  have hread : r.readKey o scene = ⟨.ok resolved, r₁, scene₁⟩ := (key_iff h.inside).mp hkey
  exact ⟨resolved, r₁, scene₁, hread, h.later (h.key hread).1, hrest⟩

/-- A pass that begins with an array of segments. -/
theorem segments_inv {next : Except Failure (Loan SymbolId) → Pass β}
    (hyields : (Pass.keys (Pass.key .own o) >>= next).Yields (r, scene) b after) :
    ∃ lent r₁ scene₁, r.readKeys o scene = ⟨.ok lent, r₁, scene₁⟩ ∧ r₁.Ready scene₁ ∧
      (next lent).Yields (r₁, scene₁) b after := by
  obtain ⟨lent, ⟨r₁, scene₁⟩, hkeys, hrest⟩ := bind_inv hyields
  have hread := (keys_iff h.inside).mp hkeys
  exact ⟨lent, r₁, scene₁, hread, h.later (h.keys hread).1, hrest⟩

/-- A pass that begins with an array of texts. -/
theorem texts_inv {next : Loan (Option String) → Pass β}
    (hyields : (Pass.listing Pass.text >>= next).Yields (r, scene) b after) :
    ∃ names r₁ scene₁, r.readTexts scene = ⟨.ok names, r₁, scene₁⟩ ∧ r₁.Ready scene₁ ∧
      (next names).Yields (r₁, scene₁) b after := by
  obtain ⟨names, ⟨r₁, scene₁⟩, htexts, hrest⟩ := bind_inv hyields
  have hread := (texts_iff h.inside).mp htexts
  exact ⟨names, r₁, scene₁, hread, h.later (h.texts hread).1, hrest⟩

/-- A pass that begins with an array of flags. -/
theorem bools_inv {next : Loan Bool → Pass β}
    (hyields : (Pass.listing Pass.bool >>= next).Yields (r, scene) b after) :
    ∃ flags r₁ scene₁, r.readBools scene = ⟨.ok flags, r₁, scene₁⟩ ∧ r₁.Ready scene₁ ∧
      (next flags).Yields (r₁, scene₁) b after := by
  obtain ⟨flags, ⟨r₁, scene₁⟩, hbools, hrest⟩ := bind_inv hyields
  have hread := (bools_iff h.inside).mp hbools
  exact ⟨flags, r₁, scene₁, hread, h.later (h.bools hread).1, hrest⟩

/-- A pass that begins with an array of locations. -/
theorem locations_inv {next : Except Failure (Loan Location) → Pass β}
    (hyields : (Pass.elements Pass.location >>= next).Yields (r, scene) b after) :
    ∃ lent r₁ scene₁, r.readLocations scene = ⟨.ok lent, r₁, scene₁⟩ ∧ r₁.Ready scene₁ ∧
      (next lent).Yields (r₁, scene₁) b after := by
  obtain ⟨lent, ⟨r₁, scene₁⟩, hlocations, hrest⟩ := bind_inv hyields
  have hread := (locations_iff h.inside).mp hlocations
  exact ⟨lent, r₁, scene₁, hread, h.later (h.locations hread).1, hrest⟩

end Ready

/-! ## Arrays -/

/-- An array of plain values is read to its end: its header, and the values one after the other. -/
def ReadsArray (reading : Reading α) (r : Reader) (presence : Presence) (items : List α)
    (r' : Reader) :
    Prop :=
  ∃ r₁, r.Reads Scan.header (presence, items.length) r₁ ∧ Row (Reads reading) r₁ items r'

/-- An array of segments is read to its end: its header, and the segments one after the other. -/
def ReadsKeys (o : ResolveOptions) (state : Reader × Scene) (presence : Presence)
    (elements : List Resolved) (after : Reader × Scene) : Prop :=
  ∃ r₁, state.1.Reads Scan.header (presence, elements.length) r₁ ∧
    Row (ReadsKey o) (r₁, state.2.lending SymbolId presence elements.length) elements after

section Arrays

variable (hready : r.Ready scene)
include hready

/-- An array of segments comes to the first candidates for its elements. -/
theorem readKeys_inv {lent : Except Failure (Loan SymbolId)}
    (hread : r.readKeys o scene = ⟨.ok lent, r', scene'⟩) :
    ∃ presence elements scene₁, ReadsKeys o (r, scene) presence elements (r', scene₁) ∧
      Decode.Lent presence lent (gathered 0 (elements.map Decode.first)) ∧
      scene'.compilation = scene₁.compilation := by
  obtain ⟨presence, n, r₁, outcomes, scene₁, hheader, hadvances, hrow, hlength, hlent, hlater⟩ :=
    elements_inv hready.inside hready.sound.clean ((keys_iff hready.inside).mpr hread)
  obtain ⟨elements, helements, rfl⟩ := row_readsKey hadvances.inside hrow
  rw [List.length_map] at hlength
  subst hlength
  exact ⟨presence, elements, scene₁, ⟨r₁, hheader, helements⟩, hlent, hlater⟩

/-- An array of locations comes to the locations that are in files of the compilation. -/
theorem readLocations_inv {lent : Except Failure (Loan Location)}
    (hread : r.readLocations scene = ⟨.ok lent, r', scene'⟩) :
    ∃ presence sites, r.ReadsArray Scan.location presence sites r' ∧
      Decode.Lent presence lent (gathered 0 (sites.map scene.compilation.accept)) := by
  obtain ⟨presence, n, r₁, outcomes, scene₁, hheader, hadvances, hrow, hlength, hlent, -⟩ :=
    elements_inv hready.inside hready.sound.clean ((locations_iff hready.inside).mpr hread)
  obtain ⟨sites, hsites, rfl, -⟩ := row_readsSite hadvances.inside hrow
  rw [List.length_map] at hlength
  subst hlength
  exact ⟨presence, sites, ⟨r₁, hheader, hsites⟩, hlent⟩

theorem listing_inv [Lends α] [Lends.Lawful α] {reading : Reading α} {item : Pass α} {loan : Loan α}
    (hitem : ∀ r : Reader, r.Inside → Spells r r.ahead reading item)
    (hyields : (listing item).Yields (r, scene) loan (r', scene')) :
    r.ReadsArray reading loan.presence loan.items r' := by
  obtain ⟨_, _, r₁, _, hheader, hadvances, hrow, rfl, rfl, rfl⟩ :=
    Pass.listing_inv hready.inside hready.sound.clean hyields
  exact ⟨r₁, hheader, (row_reads hadvances.inside hitem hrow).1⟩

theorem readTexts_inv {names : Loan (Option String)}
    (hread : r.readTexts scene = ⟨.ok names, r', scene'⟩) :
    r.ReadsArray Scan.text names.presence names.items r' :=
  listing_inv hready (fun _ h => .text h.faces) ((texts_iff hready.inside).mpr hread)

theorem readBools_inv {flags : Loan Bool} (hread : r.readBools scene = ⟨.ok flags, r', scene'⟩) :
    r.ReadsArray Scan.bool flags.presence flags.items r' :=
  listing_inv hready (fun _ h => .bool h.faces) ((bools_iff hready.inside).mpr hread)

/-- Reading an array of segments to its end leaves the reader ready, and what resolved has a first
candidate. -/
theorem ReadsKeys.goes {presence : Presence} {elements : List Resolved}
    (hread : ReadsKeys o (r, scene) presence elements (r', scene')) :
    r.Goes scene r' scene' ∧ ∀ found, .ok found ∈ elements → ∃ s, found.any? = some s := by
  obtain ⟨r₁, hheader, hrow⟩ := hread
  have hgoes := hready.header (α := SymbolId) hheader
  obtain ⟨hrest, hcandidates⟩ := (hready.later hgoes).row hrow
  exact ⟨hgoes.trans hrest, hcandidates⟩

end Arrays

end Reader
end Moniker
