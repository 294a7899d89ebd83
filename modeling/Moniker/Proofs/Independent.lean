import Moniker.Proofs.Conservative
import Moniker.Proofs.Depths
import Moniker.Proofs.Pairing
import Moniker.Proofs.Soundness

/-!
# Keys are resolved independently

Resolving a key leaves structural types behind, and they shift the numbers of all that is issued
later. Nothing else depends on what was resolved before: a key comes to the same error, to the same
failure or to as many candidates in the same order (`Key.resolve_independent`). A candidate that was
there before is the same symbol, and a new one has the same kind and the same key but for the
contents of location entries (`SameCandidate`). Those do depend on the order, as a type has the
locations of whoever asks for it first.
-/

namespace Moniker

namespace Compilation

open Description

variable {c₀ c c' : Compilation} {shape : Shape} {s : SymbolId}

/-! ## New symbols have keys -/

/-- The symbol has a description, and so has what it is in. -/
def Ends (c : Compilation) (s : SymbolId) : Prop :=
  (∃ n, Finishes c n [] s) ∧ ∃ n, Finishes c n [] (c.outerAt s)

/-- A description ends if those inside its segment do. -/
theorem finishes_of_inner (h : c.Closed) (hs : c.Issued s)
    (hinner : ∀ p ∈ Description.inner c [] s, ∃ n, Finishes c n p.1 p.2) :
    ∃ n, Finishes c n [] s := by
  have hissued : ∀ p ∈ Description.inner c [] s, c.Issued p.2 := fun p hp => h.issued_nestedAt hs hp
  suffices heach : ∃ n, ∀ p ∈ Description.inner c [] s, Finishes c n p.1 p.2 by
    obtain ⟨n, hn⟩ := heach
    exact ⟨n + 1, (finishes_succ_iff h hs).mpr hn⟩
  -- the deepest of them decides
  generalize Description.inner c [] s = ps at hinner hissued
  induction ps with
  | nil => exact ⟨0, fun p hp => by cases hp⟩
  | cons p ps ih =>
    obtain ⟨n, hn⟩ := hinner p (by simp)
    obtain ⟨m, hm⟩ := ih (fun q hq => hinner q (by simp [hq])) fun q hq => hissued q (by simp [hq])
    refine ⟨max n m, fun q hq => ?_⟩
    rcases List.mem_cons.mp hq with rfl | hq
    · exact hn.mono h (hissued _ (by simp)) (Nat.le_max_left n m)
    · exact (hm q hq).mono h (hissued q (by simp [hq])) (Nat.le_max_right n m)

namespace Descends

variable (h : c₀.Descends c) (hstem : c₀.Stem)
  (hends : ∀ s, c₀.Issued s → ∃ n, Finishes c₀ n [] s)
include h hstem hends

theorem ends_of_old (hs : c₀.Issued s) : c.Ends s := by
  have hbranches : c₀.Branches c₀ c := ⟨hstem, (Leads.refl c₀).descends hstem.closed, h⟩
  have hkept : ∀ s, c₀.Issued s → ∃ n, Finishes c n [] s := by
    intro s hs
    obtain ⟨n, d, hd⟩ := hends s hs
    have hsame := hbranches.resembles.ofSymbolWithin hstem.closed h.closed n .nil (.old hs)
    rw [hd] at hsame
    obtain ⟨d', hd', -⟩ := hsame.exists_ok
    exact ⟨n, d', hd'⟩
  refine ⟨hkept s hs, ?_⟩
  rw [h.grows.outerAt hs]
  exact hkept _ (hstem.closed.issued_container hs)

theorem ends_global : ∃ n, Finishes c n [] c.global := by
  rw [h.grows.global]
  exact (h.ends_of_old hstem hends hstem.closed.global).1

theorem ends_universal : ∃ n, Finishes c n [] c.universal := by
  rw [h.grows.universal]
  exact (h.ends_of_old hstem hends hstem.closed.universal).1

variable (hs : c₀.table.New c.table shape s) (hparts : ∀ p ∈ shape.symbols, c.Ends p)
include hs hparts

/-- The type of a member is one of the symbols of the shape. -/
theorem ends_memberTypesAt {kind : SymbolKind} {p : SymbolId} (hp : p ∈ c.memberTypesAt kind s) :
    ∃ n, Finishes c n [] p := by
  obtain ⟨m, hm, rfl⟩ := List.mem_map.mp hp
  obtain ⟨i, hi⟩ := List.mem_iff_getElem?.mp (membersAt_subset hm)
  obtain ⟨x, hx, hentry⟩ := (h.traces.erected _ _ hs).entry_member hi
  have htype : (c.table.entry m).unplaced.type = x.type := by rw [hentry]
  change (c.entry m).type = x.type at htype
  rw [h.typeAt_eq hstem, htype]
  cases ha : x.type with
  | none => exact h.ends_universal hstem hends
  | some a => exact (hparts a (Shape.type_member (List.mem_of_getElem? hx) ha)).1

/-- A new type has a description if the symbols of its shape have. -/
theorem ends_of_new : c.Ends s := by
  have herected := h.traces.erected _ _ hs
  have hkind : (c.entry s).kind = shape.kind := herected.kind
  have hentry : c.entry s = { shape.head c.table with members := (c.entry s).members } :=
    herected.entry
  have hcontainer : c.containerAt s = (shape.head c.table).container := by
    rw [h.containerAt_eq hstem, hentry]
  have houter : ∃ n, Finishes c n [] (c.outerAt s) := by
    rw [outerAt, hcontainer]
    cases shape with
    | array _ _ | pointer _ | tuple _ _ | anonymous _ _ _ => exact h.ends_global hstem hends
    | constructed g arguments =>
      -- a constructed type is where its definition is
      have hg := (hparts g (by simp [Shape.symbols])).2
      rwa [outerAt, h.containerAt_eq hstem] at hg
  refine ⟨finishes_of_inner h.closed herected.issued fun p hp => ?_, houter⟩
  -- what the segment describes are the symbols of the shape, or what they are in
  cases shape with
  | array element rank =>
    have hinner : Description.inner c [] s = [([], c.typeAt s)] := by
      rw [Description.inner, categoryAt, hkind]
      rfl
    rw [hinner, List.mem_singleton] at hp
    rw [hp, h.typeAt_eq hstem, hentry]
    exact (hparts element (by simp [Shape.symbols])).1
  | pointer pointee =>
    have hinner : Description.inner c [] s = [([], c.typeAt s)] := by
      rw [Description.inner, categoryAt, hkind]
      rfl
    rw [hinner, List.mem_singleton] at hp
    rw [hp, h.typeAt_eq hstem, hentry]
    exact (hparts pointee (by simp [Shape.symbols])).1
  | constructed g arguments =>
    have hdefinition : c.definitionAt s = g := by
      rw [definitionAt, hentry]
      rfl
    have harguments : (c.entry s).typeArguments = arguments := by
      rw [hentry]
      rfl
    have hinner : Description.inner c [] s = ([], c.outerAt g) ::
        if g = s then [] else arguments.map (([] : List SymbolId), ·) := by
      rw [Description.inner, categoryAt, hkind]
      simp only [Shape.kind, nestedAt, hdefinition, harguments]
    rw [hinner] at hp
    rcases List.mem_cons.mp hp with rfl | hp
    · exact (hparts g (by simp [Shape.symbols])).2
    · split at hp
      · cases hp
      · obtain ⟨a, ha, rfl⟩ := List.mem_map.mp hp
        exact (hparts a (by simp [Shape.symbols, ha])).1
  | tuple types names =>
    have hinner : Description.inner c [] s = (c.memberTypesAt .field s).map ([], ·) := by
      rw [Description.inner, categoryAt, hkind]
      rfl
    rw [hinner] at hp
    obtain ⟨a, ha, rfl⟩ := List.mem_map.mp hp
    exact h.ends_memberTypesAt hstem hends hs hparts ha
  | anonymous types names readOnly =>
    have hinner : Description.inner c [] s = (c.memberTypesAt .property s).map ([], ·) := by
      rw [Description.inner, categoryAt, hkind]
      rfl
    rw [hinner] at hp
    obtain ⟨a, ha, rfl⟩ := List.mem_map.mp hp
    exact h.ends_memberTypesAt hstem hends hs hparts ha

/-- A member of a new type has a description if the symbols of its shape have. -/
theorem ends_of_member {m : SymbolId} {i : Nat} (hm : (c.entry s).members[i]? = some m) :
    c.Ends m := by
  have herected := h.traces.erected _ _ hs
  obtain ⟨x, hx, hentry⟩ := herected.entry_member hm
  have hx := List.mem_of_getElem? hx
  have hkind : (c.table.entry m).unplaced.kind = x.kind := by rw [hentry]
  have hparameters : (c.table.entry m).unplaced.parameters = x.parameters := by rw [hentry]
  have hcontainer : (c.table.entry m).unplaced.container = some s := by rw [hentry]
  change (c.entry m).kind = x.kind at hkind
  change (c.entry m).parameters = x.parameters at hparameters
  change (c.entry m).container = some s at hcontainer
  have houter : c.outerAt m = s := by
    rw [outerAt, h.containerAt_eq hstem, hcontainer]
    rfl
  have hsignature : c.signatureAt m = [] := by
    rw [signatureAt, hparameters, Shape.parameters_member hx]
    rfl
  -- a member has no signature, so there is nothing inside but its type
  have hinner : Description.inner c [] m = [([], s)] := by
    rw [Description.inner, categoryAt, hkind]
    rcases Shape.kind_member hx with hfield | hproperty
    · simp only [hfield, nestedAt, houter]
    · simp only [hproperty, nestedAt, houter, hsignature, List.map_nil]
  have hends := h.ends_of_new hstem hends hs hparts
  have hissued := (herected.member m (List.mem_of_getElem? hm)).2
  refine ⟨finishes_of_inner h.closed hissued fun p hp => ?_, houter ▸ hends.1⟩
  rw [hinner, List.mem_singleton] at hp
  exact hp ▸ hends.1

end Descends

/-- Where the writer ends on what was there before, it ends on all twins. -/
theorem Branches.ends (h : c₀.Branches c c') (hends : ∀ s, c₀.Issued s → ∃ n, Finishes c₀ n [] s)
    {s s' : SymbolId} (hs : c₀.Twin c c' s s') : c.Ends s := by
  have hparts : ∀ {shape shape' : Shape}, shape.Like shape' →
      (∀ p ∈ shape.symbols.zip shape'.symbols, c.Ends p.1) → ∀ p ∈ shape.symbols, c.Ends p := by
    intro shape shape' hlike heach p hp
    obtain ⟨q, hpq⟩ := exists_mem_zip hlike.length_eq hp
    exact heach _ hpq
  induction hs with
  | old hs => exact h.left.ends_of_old h.stem hends hs
  | built hs _ hlike _ ih => exact h.left.ends_of_new h.stem hends hs (hparts hlike ih)
  | member hs _ hlike _ hm _ ih =>
    exact h.left.ends_of_member h.stem hends hs (hparts hlike ih) hm

/-- Twins have keys that are the same but for the contents of location entries. -/
theorem Branches.outline (h : c₀.Branches c c') (hends : ∀ s, c₀.Issued s → ∃ n, Finishes c₀ n [] s)
    {s s' : SymbolId} (hs : c₀.Twin c c' s s') :
    ∃ key, Key.outline c s = .ok key ∧ Key.outline c' s' = .ok key := by
  obtain ⟨hissued, hissued'⟩ := hs.issued h.left.traces h.right.traces
  obtain ⟨n, d, hd⟩ := (h.ends hends hs).1
  have hsame := h.resembles.ofSymbolWithin h.left.closed h.right.closed n .nil hs
  rw [hd] at hsame
  obtain ⟨d', hd', heq⟩ := hsame.exists_ok
  have hwhole : ofSymbol c [] s = .ok d :=
    (ofSymbol_eq_ok h.left.closed hissued (by simp)).mpr ⟨n, hd⟩
  have hwhole' : ofSymbol c' [] s' = .ok d' :=
    (ofSymbol_eq_ok h.right.closed hissued' (by simp)).mpr ⟨n, hd'⟩
  have hviews : d'.withoutLocations = d.withoutLocations := heq
  refine ⟨Key.ofFrames d.withoutLocations.frames, ?_, ?_⟩
  · rw [Key.outline, hwhole]
    rfl
  · rw [Key.outline, hwhole', ← hviews]
    rfl

end Compilation

/-! ## Runs -/

/-- Keys were resolved one after the other, under any options, and each with the arena that the one
before left, with another clean one or with its own. -/
inductive Decoded : Scene → Scene → Prop
  | none (scene : Scene) : Decoded scene scene
  | rearmed {scene now : Scene} (h : Decoded scene now) (arena : Arena) (hclean : arena.Clean) :
    Decoded scene { now with arena := arena }
  | pooled {scene now : Scene} (h : Decoded scene now) (o : ResolveOptions) (k : Key) :
    Decoded scene (k.resolveIn o now).2
  | alone {scene now : Scene} (h : Decoded scene now) (o : ResolveOptions) (k : Key) :
    Decoded scene (k.resolve o now).2

/-- Resolving a key by itself leads to a later state, and in still later ones it comes to the
same. -/
theorem Key.resolve_again (o : ResolveOptions) (k : Key) {scene : Scene}
    (hclosed : scene.compilation.Closed) :
    scene.compilation.Leads (k.resolve o scene).2.compilation ∧
      (k.resolve o scene).2.compilation.Closed ∧
      ∀ later : Scene, (k.resolve o scene).2.compilation.Grows later.compilation →
        (k.resolve o later).1 = (k.resolve o scene).1 := by
  have hown : Scene.Sound { scene with arena := {} } := ⟨hclosed, Arena.clean_empty⟩
  obtain ⟨-, hleads, hafter, hagain⟩ := k.resolveIn_again o hown
  exact ⟨hleads, hafter.closed,
    fun later hgrows => (hagain { later with arena := {} } Arena.clean_empty hgrows).1⟩

theorem Decoded.leads {scene later : Scene} (h : Decoded scene later) (hsound : scene.Sound) :
    Compilation.Leads scene.compilation later.compilation ∧ later.Sound := by
  induction h with
  | none => exact ⟨.refl _, hsound⟩
  | rearmed _ arena hclean ih => exact ⟨ih.1, ih.2.closed, hclean⟩
  | @pooled now _ o k ih =>
    obtain ⟨hleads, hnow⟩ := ih
    obtain ⟨-, hstep, hafter, -⟩ := k.resolveIn_again o hnow
    exact ⟨hleads.trans hstep, hafter⟩
  | @alone now _ o k ih =>
    obtain ⟨hleads, hnow⟩ := ih
    obtain ⟨hstep, hclosed, -⟩ := k.resolve_again o hnow.closed
    exact ⟨hleads.trans hstep, hclosed, hnow.clean⟩

/-- A resolver resolves keys one after the other. -/
theorem Resolver.decoded_resolveAll (r : Resolver) (keys : List Key) {scene now : Scene}
    (h : Decoded scene now) (hpool : r.arena.Clean) (hclean : now.arena.Clean) :
    Decoded scene (r.resolveAll keys now).2.2 := by
  have hgo : ∀ (keys : List Key) (current : Scene), Decoded scene current →
      Decoded scene (resolveAll.go r now keys current).2.2 := by
    intro keys
    induction keys with
    | nil => exact fun current hcurrent => hcurrent.rearmed _ hclean
    | cons k rest ih =>
      intro current hcurrent
      have hnext := hcurrent.pooled r.options k
      unfold resolveAll.go
      split
      · next hrun =>
        rw [hrun] at hnext
        exact hnext.rearmed _ hclean
      · next hrun =>
        rw [hrun] at hnext
        exact ih _ hnext
      · next hrun =>
        rw [hrun] at hnext
        exact ih _ hnext
  exact hgo keys _ (h.rearmed _ hpool)

/-- What is the same about a candidate of two runs that started from one compilation. -/
structure SameCandidate (c₀ c c' : Compilation) (s s' : SymbolId) : Prop where
  known : c₀.Issued s ∨ c₀.Issued s' → s' = s
  kind : ∃ kind, c.kind s = .ok kind ∧ c'.kind s' = .ok kind
  outline : ∃ key, Key.outline c s = .ok key ∧ Key.outline c' s' = .ok key

/-- A way to resolve a key comes to the same on a copy of a compilation and on what has become of
it: the same error, the same failure, or as many candidates in the same order. -/
def Independent (run : Scene → Except Halt Resolved × Scene) (copy later : Scene) : Prop :=
  SameOutcome (SameOutcome (Resolution.Related
    (SameCandidate copy.compilation (run copy).2.compilation (run later).2.compilation)))
    (run copy).1 (run later).1

namespace Key

open Compilation Description

theorem independent_of_eq {o : ResolveOptions} {k : Key}
    {run : Scene → Except Halt Resolved × Scene} {copy later : Scene}
    (hends : ∀ s, copy.compilation.Issued s → ∃ n, Finishes copy.compilation n [] s)
    (hbranches : copy.compilation.Branches copy.compilation later.compilation)
    (hcopy : (run copy).1 = (k.outcome o copy.compilation).mapError .defect ∧
      (k.defect? o = none → (run copy).2.compilation = k.reached o copy.compilation))
    (hlater : (run later).1 = (k.outcome o later.compilation).mapError .defect ∧
      (k.defect? o = none → (run later).2.compilation = k.reached o later.compilation)) :
    Independent run copy later := by
  unfold Independent
  rw [hcopy.1, hlater.1, outcome, outcome]
  cases hdefect : k.defect? o with
  -- whether a key is usable shows in its frames alone
  | some e => exact .error _
  | none =>
    rw [hcopy.2 hdefect, hlater.2 hdefect]
    have hmatched := locate_matched o copy.compilation (k.scanned o).1 hbranches .nil
    refine .ok (hmatched.related.imp fun r r' hr => hr.imp fun s s' hs => ?_)
    have h := hmatched.branches
    obtain ⟨hissued, hissued'⟩ := hs.issued h.left.traces h.right.traces
    refine ⟨hs.eq_of_old h.left.traces h.right.traces, ⟨_, kind_eq hissued, ?_⟩, h.outline hends hs⟩
    exact (h.entry hs).kind ▸ kind_eq hissued'

/-- Where every symbol has a key, resolving a key comes to the same whatever was resolved before. -/
theorem resolve_independent {scene later copy : Scene}
    (hmade : scene.compilation.Made fun t r => r.Issued t) (hclean : scene.arena.Clean)
    (hends : ∀ s, scene.compilation.Issued s → ∃ key, ofSymbol scene.compilation s = .ok key)
    (hdecoded : Decoded scene later) (hcopy : copy.compilation = scene.compilation)
    (hcopyClean : copy.arena.Clean) (o : ResolveOptions) (k : Key) :
    Independent (k.resolve o) copy later ∧ Independent (k.resolveIn o) copy later := by
  have hclosed := hmade.closed
  obtain ⟨hleads, hsound⟩ := hdecoded.leads ⟨hclosed, hclean⟩
  rw [← hcopy] at hmade hends hclosed hleads
  have hbranches : copy.compilation.Branches copy.compilation later.compilation :=
    ⟨hmade.stem, (Leads.refl _).descends hclosed, hleads.descends hsound.closed⟩
  have hfinishes : ∀ s, copy.compilation.Issued s → ∃ n, Finishes copy.compilation n [] s := by
    intro s hs
    obtain ⟨key, hkey⟩ := hends s hs
    cases hd : Description.ofSymbol copy.compilation [] s with
    | error fault =>
      rw [Key.ofSymbol, hd] at hkey
      cases hkey
    | ok d =>
      obtain ⟨n, hn⟩ := (ofSymbol_eq_ok hclosed hs (by simp)).mp hd
      exact ⟨n, d, hn⟩
  by_cases hversion : k.version = currentVersion
  -- both ways come to what locating the description comes to
  · exact ⟨independent_of_eq hfinishes hbranches (resolve_eq hversion hclosed)
        (resolve_eq hversion hsound.closed),
      independent_of_eq hfinishes hbranches (resolveIn_eq hversion ⟨hclosed, hcopyClean⟩)
        (resolveIn_eq hversion hsound)⟩
  · have hrefused (scene : Scene) : k.resolveIn o scene =
        (.error (.defect (.version k.version currentVersion)), scene) := by
      simp only [resolveIn, checkVersion, hversion, if_false]
    unfold Independent
    simp only [resolve, hrefused]
    exact ⟨.error _, .error _⟩

/-- The type of arrays of rank two is built later, and numbered otherwise, where a key for pointers
was resolved before. -/
theorem resolve_independent_array :
    let object : List Frame :=
      [.kind .namedType, .kind .nameSpace, .bool true, .text (some "object"),
      .int 0, .array .absent 0]
    let k := ofFrames (.kind .arrayType :: object ++ [.int 2])
    let scene : Scene := { compilation := Draft.empty.finish }
    let later := ((ofFrames (.kind .pointerType :: object)).resolve {} scene).2
    Independent (k.resolve {}) scene later ∧ Independent (k.resolveIn {}) scene later ∧
      (k.resolve {} scene).1 = .ok (.ok (.symbol ⟨5⟩)) ∧
      (k.resolve {} later).1 = .ok (.ok (.symbol ⟨6⟩)) := by
  intro object k scene later
  have hlawful : scene.compilation.Lawful := Made.lawful (.finish .empty)
  have hends : ∀ s, scene.compilation.Issued s → ∃ key, ofSymbol scene.compilation s = .ok key := by
    intro s hs
    obtain ⟨d, hd, -⟩ := describes_ofSymbol hlawful hs
    exact ⟨ofFrames d.frames, by rw [ofSymbol, hd]; rfl⟩
  have hdecoded : Decoded scene later := .alone (.none scene) {} _
  obtain ⟨hresolve, hresolveIn⟩ := resolve_independent (.finish .empty) Arena.clean_empty hends
    hdecoded rfl Arena.clean_empty {} k
  exact ⟨hresolve, hresolveIn, by decide, by decide⟩

end Key
end Moniker
