import Moniker.Proofs.Twins

/-!
# Locating in two branches

Locating a description in two later states of a compilation, inside the signatures of twins, comes
to twins, and to the same failure if it fails (`Description.locate_matched`). Each state goes on to
a later one, in which the twins so far are twins still. What the two runs do they do with like
shapes over twins (`Compilation.Branches.ask`): such a shape has an answer from before in both or in
neither, and then it is the same shape.
-/

namespace Moniker

open List Relator

namespace Compilation

variable {c₀ c c' d d' : Compilation} {α β γ δ : Type}

/-- Two runs went on to later states of two branches, with results that are related over twins. -/
structure Matched (c₀ c c' : Compilation) (R : (SymbolId → SymbolId → Prop) → α → β → Prop)
    (x : α × Compilation) (y : β × Compilation) : Prop where
  branches : c₀.Branches x.2 y.2
  left : c.Grows x.2
  right : c'.Grows y.2
  related : R (c₀.Twin x.2 y.2) x.1 y.1

section Matched

variable {R : (SymbolId → SymbolId → Prop) → α → β → Prop}
  {S : (SymbolId → SymbolId → Prop) → γ → δ → Prop} {x : α × Compilation} {y : β × Compilation}

theorem Branches.stay (h : c₀.Branches c c') {a : α} {b : β} (hab : R (c₀.Twin c c') a b) :
    c₀.Matched c c' R (a, c) (b, c') :=
  ⟨h, .refl c, .refl c', hab⟩

theorem Matched.next {u : γ × Compilation} {v : δ × Compilation} (h : c₀.Matched c c' R x y)
    (h' : c₀.Matched x.2 y.2 S u v) : c₀.Matched c c' S u v :=
  ⟨h'.branches, h.left.trans h'.left, h.right.trans h'.right, h'.related⟩

/-- Other results in the same states. -/
theorem Matched.result (h : c₀.Matched c c' R x y) {a : γ} {b : δ} (hab : S (c₀.Twin x.2 y.2) a b) :
    c₀.Matched c c' S (a, x.2) (b, y.2) :=
  ⟨h.branches, h.left, h.right, hab⟩

/-- Twins from before are twins afterwards. -/
theorem Matched.twins (h : c₀.Matched c c' R x y) (hbranches : c₀.Branches c c')
    {symbols symbols' : List SymbolId} (hsymbols : Forall₂ (c₀.Twin c c') symbols symbols') :
    Forall₂ (c₀.Twin x.2 y.2) symbols symbols' :=
  hsymbols.imp fun _ _ hs => hbranches.later h.left h.right hs

end Matched

/-! ## Asking for like shapes -/

section Asking

open SymbolTable

variable {shape shape' : Shape}

theorem Closed.ask (h : c.Closed) (hsymbols : ∀ p ∈ shape.symbols, c.Issued p)
    (locations : List Location) : c.Reaches (c.ask shape locations).2 := by
  refine (h.settle fun answer hanswer => ?_).1
  cases hcheck : shape.check c.table locations with
  | error rejection => simp [hcheck, Except.map] at hanswer
  | ok _ =>
    rw [hcheck] at hanswer
    exact Except.ok.inj hanswer ▸ h.table.ask hsymbols locations

/-- Asking for a shape of issued symbols leads further along a branch. -/
theorem Descends.ask (h : c₀.Descends c) (hsymbols : ∀ p ∈ shape.symbols, c.Issued p)
    (locations : List Location) : c₀.Descends (c.ask shape locations).2 where
  grows := h.grows.trans (grows_ask shape locations c)
  closed := (h.closed.ask hsymbols locations).closed
  traces := h.traces.asked (asked_ask _ _ fun g hg => hsymbols g (shape.mem_symbols_of_generic? hg))

theorem checkArguments_related {R : SymbolId → SymbolId → Prop} {x y : Symbol} (h : x.Related R y)
    {as bs : List SymbolId} (hlength : as.length = bs.length) :
    checkArguments y bs = checkArguments x as := by
  have hdefinition : y.definition.isSome = x.definition.isSome := by
    generalize x.definition = g, y.definition = g', h.definition = hrel
    cases hrel <;> rfl
  have hparameters : y.typeParameters.length = x.typeParameters.length :=
    h.typeParameters.length_eq.symm
  unfold checkArguments
  simp only [h.kind, h.name, hdefinition, ← length_eq_zero_iff, hparameters, hlength]

namespace Branches

variable (h : c₀.Branches c c')
include h

theorem descends_ask (hsymbols : Forall₂ (c₀.Twin c c') shape.symbols shape'.symbols)
    (locations : List Location) :
    c₀.Branches (c.ask shape locations).2 (c'.ask shape' locations).2 := by
  have hleft : ∀ p ∈ shape.symbols, c.Issued p := by
    intro p hp
    obtain ⟨q, -, hpq⟩ := exists_left hsymbols.flip hp
    exact (hpq.issued h.left.traces h.right.traces).1
  have hright : ∀ q ∈ shape'.symbols, c'.Issued q := by
    intro q hq
    obtain ⟨p, -, hpq⟩ := exists_left hsymbols hq
    exact (hpq.issued h.left.traces h.right.traces).2
  exact ⟨h.stem, h.left.ask hleft locations, h.right.ask hright locations⟩

/-- Like shapes over twins are refused for the same reason. -/
theorem check_eq (hlike : shape.Like shape')
    (hsymbols : Forall₂ (c₀.Twin c c') shape.symbols shape'.symbols) (locations : List Location) :
    shape'.check c'.table locations = shape.check c.table locations := by
  have hlimit : c'.table.maxAnonymousArity = c.table.maxAnonymousArity := by
    rw [h.right.grows.table.limit, h.left.grows.table.limit]
  cases hlike with
  | array _ | pointer => rfl
  | constructed hlength =>
    -- the only check that looks at an entry, that of the definition
    cases hsymbols with
    | cons hg _ => exact checkArguments_related (h.entry hg) hlength
  | tuple names hlength =>
    simp only [Shape.check, checkTuple, hlength]
  | anonymous names readOnly hlength =>
    simp only [Shape.check, checkAnonymous, hlength, hlimit]

/-- A shape that had an answer before is over symbols from before, and no other shape over twins is
like it. -/
theorem eq_of_answered (hlike : shape.Like shape')
    (hsymbols : Forall₂ (c₀.Twin c c') shape.symbols shape'.symbols) {s : SymbolId}
    (hanswered : c₀.table.interned.lookup shape = some s ∨
      c₀.table.interned.lookup shape' = some s) :
    shape' = shape := by
  refine hlike.eq_of_symbols (.refl shape) ?_
  -- an answer from before is grounded, and symbols from before are their own twins
  have hsame : Forall₂ (fun p q => q = p) shape.symbols shape'.symbols := by
    refine forall₂_iff_zip.mpr ⟨hsymbols.length_eq, fun {p q} hpq => ?_⟩
    refine (forall₂_zip hsymbols hpq).eq_of_old h.left.traces h.right.traces ?_
    exact hanswered.imp (fun hs => h.stem.grounded _ _ hs p (of_mem_zip hpq).1)
      fun hs => h.stem.grounded _ _ hs q (of_mem_zip hpq).2
  have heq : Forall₂ Eq shape'.symbols shape.symbols := hsame.flip
  rwa [forall₂_eq_eq_eq] at heq

/-- Asking for like shapes over twins comes to twins. -/
theorem ask (hlike : shape.Like shape')
    (hsymbols : Forall₂ (c₀.Twin c c') shape.symbols shape'.symbols) (locations : List Location) :
    c₀.Matched c c' SameOutcome (c.ask shape locations) (c'.ask shape' locations) := by
  have hafter := h.descends_ask hsymbols locations
  have hgrows := grows_ask shape locations c
  have hgrows' := grows_ask shape' locations c'
  refine ⟨hafter, hgrows, hgrows', ?_⟩
  have hcheck := h.check_eq hlike hsymbols locations
  cases hok : shape.check c.table locations with
  | error rejection =>
    rw [hok] at hcheck
    simp only [Compilation.ask, hok, hcheck]
    exact .error rejection
  | ok _ =>
    rw [hok] at hcheck
    rw [ask_of_check hok] at hafter hgrows ⊢
    rw [ask_of_check hcheck] at hafter hgrows' ⊢
    refine .ok ?_
    have hnow : (c.table.ask shape locations).2.interned.lookup shape =
        some (c.table.ask shape locations).1 := lookup_intern shape _ c.table
    have hnow' : (c'.table.ask shape' locations).2.interned.lookup shape' =
        some (c'.table.ask shape' locations).1 := lookup_intern shape' _ c'.table
    cases hbefore : c₀.table.interned.lookup shape with
    | some s =>
      -- both answers are the one from before
      obtain rfl := h.eq_of_answered hlike hsymbols (.inl hbefore)
      have hs := hafter.left.grows.table.interned _ _ hbefore
      have hs' := hafter.right.grows.table.interned _ _ hbefore
      rw [← Option.some.inj (hs.symm.trans hnow), ← Option.some.inj (hs'.symm.trans hnow')]
      exact .old (h.stem.closed.table.interned _ _ hbefore)
    | none =>
      -- both are new, and new types of like shapes over twins are twins by definition
      have hbefore' : c₀.table.interned.lookup shape' = none := by
        cases hs : c₀.table.interned.lookup shape' with
        | none => rfl
        | some s =>
          rw [← h.eq_of_answered hlike hsymbols (.inr hs), hs] at hbefore
          cases hbefore
      refine .built ⟨hbefore, hnow⟩ ⟨hbefore', hnow'⟩ hlike fun p hp => ?_
      exact h.later hgrows hgrows' (forall₂_zip hsymbols hp)

theorem countRequest : c₀.Branches c.countRequest c'.countRequest :=
  ⟨h.stem,
    ⟨h.left.grows.trans (grows_countRequest c),
      ⟨h.left.closed.table, h.left.closed.global, h.left.closed.universal⟩, h.left.traces⟩,
    ⟨h.right.grows.trans (grows_countRequest c'),
      ⟨h.right.closed.table, h.right.closed.global, h.right.closed.universal⟩, h.right.traces⟩⟩

theorem accept_eq : c'.accept = c.accept := by
  rw [h.right.grows.accept, h.left.grows.accept]

/-! ## The requests -/

variable {s s' : SymbolId} {types types' : List SymbolId}

theorem arrayType (hs : c₀.Twin c c' s s') (rank : UInt64) :
    c₀.Matched c c' id (c.arrayType s rank) (c'.arrayType s' rank) := by
  have hask := h.ask (.array rank) (.cons hs .nil) []
  rw [arrayType_eq_ask, arrayType_eq_ask] at hask
  refine ⟨hask.branches, hask.left, hask.right, ?_⟩
  cases hask.related with
  | ok hs => exact hs

theorem pointerType (hs : c₀.Twin c c' s s') :
    c₀.Matched c c' id (c.pointerType s) (c'.pointerType s') := by
  have hask := h.ask .pointer (.cons hs .nil) []
  rw [pointerType_eq_ask, pointerType_eq_ask] at hask
  refine ⟨hask.branches, hask.left, hask.right, ?_⟩
  cases hask.related with
  | ok hs => exact hs

theorem constructAt (hs : c₀.Twin c c' s s') (htypes : Forall₂ (c₀.Twin c c') types types') :
    c₀.Matched c c' SameOutcome (c.constructAt types s) (c'.constructAt types' s') := by
  rw [constructAt_eq_ask, constructAt_eq_ask]
  exact h.ask (.constructed htypes.length_eq) (.cons hs htypes) []

theorem tupleType (htypes : Forall₂ (c₀.Twin c c') types types') (names : List (Option String))
    (locations : List Location) : c₀.Matched c c' SameOutcome
      (c.tupleType types names locations) (c'.tupleType types' names locations) := by
  rw [tupleType_eq_ask, tupleType_eq_ask]
  have hask := h.countRequest.ask (.tuple names htypes.length_eq) htypes locations
  exact ⟨hask.branches, (grows_countRequest c).trans hask.left,
    (grows_countRequest c').trans hask.right, hask.related⟩

theorem anonymousType (htypes : Forall₂ (c₀.Twin c c') types types') (names : List String)
    (readOnly : List Bool) (locations : List Location) : c₀.Matched c c' SameOutcome
      (c.anonymousType types names readOnly locations)
      (c'.anonymousType types' names readOnly locations) := by
  rw [anonymousType_eq_ask, anonymousType_eq_ask]
  have hask := h.countRequest.ask (.anonymous names readOnly htypes.length_eq) htypes locations
  exact ⟨hask.branches, (grows_countRequest c).trans hask.left,
    (grows_countRequest c').trans hask.right, hask.related⟩

end Branches

end Asking

/-! ## Building from lists -/

/-- Building one thing after the other out of twins comes to results that correspond, if what
corresponds goes on to do so. -/
theorem matched_buildEach {build : Compilation → SymbolId → γ × Compilation}
    {build' : Compilation → SymbolId → δ × Compilation}
    {R : (SymbolId → SymbolId → Prop) → γ → δ → Prop}
    (hmono : ∀ T T' : SymbolId → SymbolId → Prop, (∀ s s', T s s' → T' s s') →
      ∀ a b, R T a b → R T' a b)
    {P : Compilation → Compilation → Prop}
    (hkeep : ∀ c c' d d', c.Grows d → c'.Grows d' → c₀.Branches c c' → P c c' → P d d')
    (hbuild : ∀ c c' s s', c₀.Branches c c' → P c c' → c₀.Twin c c' s s' →
      c₀.Matched c c' R (build c s) (build' c' s'))
    {symbols symbols' : List SymbolId} (h : c₀.Branches c c') (hp : P c c')
    (hsymbols : Forall₂ (c₀.Twin c c') symbols symbols') :
    c₀.Matched c c' (fun T => Forall₂ (R T)) (buildEach build symbols c)
      (buildEach build' symbols' c') := by
  induction symbols generalizing symbols' c c' with
  | nil =>
    cases hsymbols
    exact h.stay (R := fun T => Forall₂ (R T)) .nil
  | cons s symbols ih =>
    cases hsymbols with
    | cons hs hrest =>
      -- the states move on with each thing, and the twins so far move on with them
      have hhead := hbuild c c' s _ h hp hs
      have htail := ih hhead.branches (hkeep _ _ _ _ hhead.left hhead.right h hp)
        (hhead.twins h hrest)
      refine hhead.next (htail.result ?_)
      refine .cons (hmono _ _ ?_ _ _ hhead.related) htail.related
      exact fun s s' hs => hhead.branches.later htail.left htail.right hs

end Compilation

open Compilation

variable {c₀ c c' : Compilation}

theorem Resolution.matched_rebuilt {build build' : Compilation → SymbolId → SymbolId × Compilation}
    (hbuild : ∀ c c' s s', c₀.Branches c c' → c₀.Twin c c' s s' →
      c₀.Matched c c' id (build c s) (build' c' s'))
    (h : c₀.Branches c c') {r r' : Resolution SymbolId} (hr : Related (c₀.Twin c c') r r') :
    c₀.Matched c c' Related (r.rebuilt build c) (r'.rebuilt build' c') := by
  cases hr with
  | symbol hs =>
    have hbuilt := hbuild _ _ _ _ h hs
    exact hbuilt.result (.symbol hbuilt.related)
  | ambiguous hsymbols =>
    have hbuilt := matched_buildEach (R := id) (P := fun _ _ => True) (fun _ _ hT => hT)
      (fun _ _ _ _ _ _ _ h => h) (fun c c' s s' h _ hs => hbuild c c' s s' h hs) h trivial hsymbols
    exact hbuilt.result (.ambiguous hbuilt.related)

/-- Two outcomes of a segment correspond: they are the same failure, or resolutions of the same kind
with related candidates. -/
abbrev Corresponds (T : SymbolId → SymbolId → Prop) : Resolved → Resolved → Prop :=
  SameOutcome (Resolution.Related T)

theorem Fallback.matched_settle (fallback : Fallback) (codec : String) (presence : Presence)
    (h : c₀.Branches c c') {request request' : Except Rejection SymbolId × Compilation}
    (hrequest : c₀.Matched c c' SameOutcome request request') :
    c₀.Matched c c' Corresponds (fallback.settle codec presence c request)
      (fallback.settle codec presence c' request') := by
  have hanswer : ∀ {c c' : Compilation}, c₀.Branches c c' → ∀ detail,
      Corresponds (c₀.Twin c c') (fallback.answer codec detail c)
        (fallback.answer codec detail c') := by
    intro c c' h detail
    cases fallback with
    | universal => exact .ok (.symbol h.twin_universal)
    | fail => exact .error _
  unfold settle
  split
  · exact h.stay (hanswer h _)
  · obtain ⟨answer, after⟩ := request
    obtain ⟨answer', after'⟩ := request'
    cases hrequest.related with
    | error rejection => exact hrequest.result (hanswer hrequest.branches _)
    | ok hs => exact hrequest.result (.ok (.symbol hs))

namespace Description

variable {o : ResolveOptions} {methods methods' : List SymbolId}

theorem matched_constructedAt (name : String) (presence : Presence) (h : c₀.Branches c c')
    {definitions definitions' arguments arguments' : List SymbolId}
    (hdefinitions : Forall₂ (c₀.Twin c c') definitions definitions')
    (harguments : Forall₂ (c₀.Twin c c') arguments arguments') :
    c₀.Matched c c' Corresponds (constructedAt name presence definitions arguments c)
      (constructedAt name presence definitions' arguments' c') := by
  have hempty : definitions'.isEmpty = definitions.isEmpty := by
    cases hdefinitions <;> rfl
  unfold constructedAt
  rw [hempty]
  split
  · exact h.stay (ofCandidates_related h.unique hdefinitions _)
  · have hbuilt := matched_buildEach (R := SameOutcome)
      (P := fun c c' => Forall₂ (c₀.Twin c c') arguments arguments')
      (fun _ _ hT _ _ hab => hab.imp hT)
      (fun _ _ _ _ hgrows hgrows' h harguments =>
        harguments.imp fun _ _ hs => h.later hgrows hgrows' hs)
      (fun c c' s s' h harguments hs => h.constructAt hs harguments) h harguments hdefinitions
    have hsymbols := rel_filterMap (fun _ _ => SameOutcome.toOption) hbuilt.related
    dsimp only
    rw [filterMap_outcomes (γ := String) ?_ hbuilt.related]
    · exact hbuilt.result (ofCandidates_related hbuilt.branches.unique hsymbols _)
    · exact fun _ _ => rfl

theorem enclosingAt_related (h : c₀.Branches c c')
    (hmethods : Forall₂ (c₀.Twin c c') methods methods') (depth ordinal : Nat) :
    Corresponds (c₀.Twin c c') (enclosingAt c methods depth ordinal)
      (enclosingAt c' methods' depth ordinal) := by
  unfold enclosingAt
  generalize methods[depth]? = owner, methods'[depth]? = owner', getElem?_related hmethods depth =
    hrel
  cases hrel with
  | none => exact .error _
  | @some m m' hm =>
    dsimp only
    generalize (c.entry m).typeParameters[ordinal]? = s, (c'.entry m').typeParameters[ordinal]? =
      s', getElem?_related (h.entry hm).typeParameters ordinal = hs
    cases hs with
    | none => exact .error _
    | some hs => exact .ok (.symbol hs)

/-! ## Signatures -/

/-- Two replays have come to the same failure and to related methods. -/
structure Replay.Related (T : SymbolId → SymbolId → Prop) (x y : Replay) : Prop where
  fitting : Forall₂ T x.fitting y.fitting
  failure : y.failure = x.failure

theorem Replay.Related.outcome {T : SymbolId → SymbolId → Prop} (hT : BiUnique T) {x y : Replay}
    (h : Replay.Related T x y) (name : String) :
    Corresponds T (x.outcome name) (y.outcome name) := by
  obtain ⟨fitting, failure⟩ := x
  obtain ⟨fitting', failure'⟩ := y
  obtain ⟨hfitting, hfailure⟩ := h
  obtain rfl : failure' = failure := hfailure
  unfold Replay.outcome
  cases hfitting with
  | nil =>
    cases failure' with
    | none => exact ofCandidates_related hT .nil _
    | some reason => exact .error _
  | cons hs hrest => exact ofCandidates_related hT (.cons hs hrest) _

theorem Replay.Related.after (h : c₀.Branches c c') {x y : Replay}
    (hxy : Replay.Related (c₀.Twin c c') x y) {m m' : SymbolId} (hm : c₀.Twin c c' m m')
    {types types' : Except Failure (List SymbolId)}
    (htypes : SameOutcome (Forall₂ (c₀.Twin c c')) types types') :
    Replay.Related (c₀.Twin c c') (x.after m (c.signatureAt m) types)
      (y.after m' (c'.signatureAt m') types') := by
  cases htypes with
  | error reason => exact ⟨hxy.fitting, by rw [Replay.after, Replay.after, hxy.failure]⟩
  | ok htypes =>
    simp only [Replay.after, list_beq_related h.unique (h.signatureAt hm) htypes]
    split
    · exact ⟨rel_append hxy.fitting (.cons hm .nil), hxy.failure⟩
    · exact hxy

section Signatures

variable (signature : List SymbolId → Compilation → Except Failure (List SymbolId) × Compilation)
  (hsignature : ∀ {methods methods' : List SymbolId} {c c' : Compilation}, c₀.Branches c c' →
    Forall₂ (c₀.Twin c c') methods methods' →
      c₀.Matched c c' (fun T => SameOutcome (Forall₂ T)) (signature methods c)
        (signature methods' c'))
  {candidates candidates' : List SymbolId}
include hsignature

theorem matched_replayed (h : c₀.Branches c c')
    (hmethods : Forall₂ (c₀.Twin c c') methods methods')
    (hcandidates : Forall₂ (c₀.Twin c c') candidates candidates') {x y : Replay}
    (hxy : Replay.Related (c₀.Twin c c') x y) :
    c₀.Matched c c' Replay.Related (replayed signature methods candidates x c)
      (replayed signature methods' candidates' y c') := by
  induction candidates generalizing candidates' c c' x y with
  | nil =>
    cases hcandidates
    exact h.stay hxy
  | cons m candidates ih =>
    cases hcandidates with
    | cons hm hrest =>
      have hread := hsignature h (rel_append hmethods (.cons hm .nil))
      have hlater : ∀ s s', c₀.Twin c c' s s' → c₀.Twin _ _ s s' := fun _ _ hs =>
        h.later hread.left hread.right hs
      refine hread.next (ih hread.branches (hread.twins h hmethods) (hread.twins h hrest) ?_)
      exact Replay.Related.after hread.branches ⟨hxy.fitting.imp hlater, hxy.failure⟩
        (hlater _ _ hm) hread.related

theorem matched_replayedAll (h : c₀.Branches c c')
    (hmethods : Forall₂ (c₀.Twin c c') methods methods')
    (hcandidates : Forall₂ (c₀.Twin c c') candidates candidates') :
    c₀.Matched c c' Replay.Related (replayedAll signature methods candidates c)
      (replayedAll signature methods' candidates' c') := by
  have hempty : candidates'.isEmpty = candidates.isEmpty := by
    cases hcandidates <;> rfl
  unfold replayedAll
  rw [hempty]
  split
  · exact (hsignature h hmethods).result ⟨.nil, rfl⟩
  · exact matched_replayed signature hsignature h hmethods hcandidates ⟨.nil, rfl⟩

end Signatures

/-! ## Locating -/

/-- What locating a description in two branches comes to corresponds. -/
def Pairs (o : ResolveOptions) (c₀ : Compilation) (d : Description) : Prop :=
  ∀ {methods methods' : List SymbolId} {c c' : Compilation}, c₀.Branches c c' →
    Forall₂ (c₀.Twin c c') methods methods' →
      c₀.Matched c c' Corresponds (locate o d methods c) (locate o d methods' c')

theorem locateEach_matched {ds : List Description} (hds : ∀ d ∈ ds, Pairs o c₀ d)
    (h : c₀.Branches c c') (hmethods : Forall₂ (c₀.Twin c c') methods methods') :
    c₀.Matched c c' (fun T => Forall₂ (SameOutcome T)) (locateEach o ds methods c)
      (locateEach o ds methods' c') := by
  induction ds generalizing c c' with
  | nil =>
    simp only [locateEach]
    exact h.stay (R := fun T => Forall₂ (SameOutcome T)) .nil
  | cons d rest ih =>
    simp only [locateEach]
    have hhead := hds d (by simp) h hmethods
    have htail := ih (fun d hd => hds d (by simp [hd])) hhead.branches (hhead.twins h hmethods)
    refine hhead.next (htail.result (.cons ?_ htail.related))
    exact (first_related hhead.related).imp fun s s' hs =>
      hhead.branches.later htail.left htail.right hs

/-- The array of the first candidates. -/
theorem gathered_matched {ds : List Description} (hds : ∀ d ∈ ds, Pairs o c₀ d)
    (h : c₀.Branches c c') (hmethods : Forall₂ (c₀.Twin c c') methods methods') :
    c₀.Matched c c' (fun T => SameOutcome (Forall₂ T))
      (gathered 0 (locateEach o ds methods c).1, (locateEach o ds methods c).2)
      (gathered 0 (locateEach o ds methods' c').1, (locateEach o ds methods' c').2) :=
  have hinner := locateEach_matched hds h hmethods
  hinner.result (gathered_related hinner.related 0)

/-- A lookup among the candidates for the container. -/
theorem lookup_matched {outer outer' : Resolved × Compilation}
    (hm : c₀.Matched c c' Corresponds outer outer') (category : Category) (part : String)
    (missing : Failure) {search search' : Resolution SymbolId → List SymbolId}
    (hsearch : ∀ r r', Forall₂ (c₀.Twin outer.2 outer'.2) r.candidates r'.candidates →
      Forall₂ (c₀.Twin outer.2 outer'.2) (search r) (search' r')) :
    c₀.Matched c c' Corresponds
      ((Moniker.part category part outer.1).bind fun r =>
        Resolution.ofCandidates (search r) missing, outer.2)
      ((Moniker.part category part outer'.1).bind fun r =>
        Resolution.ofCandidates (search' r) missing, outer'.2) :=
  hm.result ((hm.related.part category part).bind fun r r' hr =>
    ofCandidates_related hm.branches.unique (hsearch r r' hr.candidates) missing)

/-- Types built from each candidate. -/
theorem rebuilt_matched {outer outer' : Resolved × Compilation}
    (hm : c₀.Matched c c' Corresponds outer outer')
    {build build' : Compilation → SymbolId → SymbolId × Compilation}
    (hbuild : ∀ c c' s s', c₀.Branches c c' → c₀.Twin c c' s s' →
      c₀.Matched c c' id (build c s) (build' c' s')) (category : Category) (part : String) :
    c₀.Matched c c' Corresponds
      (match Moniker.part category part outer.1 with
        | .error reason => (.error reason, outer.2)
        | .ok r => (.ok (r.rebuilt build outer.2).1, (r.rebuilt build outer.2).2))
      (match Moniker.part category part outer'.1 with
        | .error reason => (.error reason, outer'.2)
        | .ok r => (.ok (r.rebuilt build' outer'.2).1, (r.rebuilt build' outer'.2).2)) := by
  generalize Moniker.part category part outer.1 = x, Moniker.part category part outer'.1 = x',
    hm.related.part category part = hx
  cases hx with
  | error reason => exact hm.result (.error reason)
  | ok hr =>
    have hbuilt := Resolution.matched_rebuilt hbuild hm.branches hr
    exact hm.next (hbuilt.result (.ok hbuilt.related))

/-- A structural type that is asked for from the types of an array. -/
theorem settled_matched {types types' : Except Failure (List SymbolId) × Compilation}
    (hm : c₀.Matched c c' (fun T => SameOutcome (Forall₂ T)) types types')
    (fallback : Fallback) (category : Category) (typesPart : String) (presence : Presence)
    (sites : Except Failure (List Location))
    {request request' : List SymbolId → List Location → Except Rejection SymbolId × Compilation}
    (hrequest : ∀ {items items' : List SymbolId} (sites : List Location),
      Forall₂ (c₀.Twin types.2 types'.2) items items' →
        c₀.Matched types.2 types'.2 SameOutcome (request items sites) (request' items' sites)) :
    c₀.Matched c c' Corresponds
      (match Moniker.part category typesPart types.1, sites with
        | .error reason, _ => (.error reason, types.2)
        | .ok _, .error reason => (.error reason, types.2)
        | .ok items, .ok sites =>
          fallback.settle category.codec presence types.2 (request items sites))
      (match Moniker.part category typesPart types'.1, sites with
        | .error reason, _ => (.error reason, types'.2)
        | .ok _, .error reason => (.error reason, types'.2)
        | .ok items, .ok sites =>
          fallback.settle category.codec presence types'.2 (request' items sites)) := by
  generalize Moniker.part category typesPart types.1 = x,
    Moniker.part category typesPart types'.1 = x', hm.related.part category typesPart = hx
  cases hx with
  | error reason => exact hm.result (.error reason)
  | ok hitems =>
    cases sites with
    | error reason => exact hm.result (.error reason)
    | ok sites =>
      exact hm.next (fallback.matched_settle _ _ hm.branches (hrequest sites hitems))

/-! ### Segments -/

section Segments

variable {d : Description} {ds : List Description} {name : Slot String} {arity : Slot Nat}
  {presence : Slot Presence} {names : Listing (Option String)} {readOnly : Listing Bool}
  {locations : Listing Location}

theorem Pairs.namedType (hd : Pairs o c₀ d) (hds : ∀ d ∈ ds, Pairs o c₀ d) :
    Pairs o c₀ (.namedType d name arity presence ds) := by
  intro methods methods' c c' h hmethods
  simp only [locate]
  have houter := hd h hmethods
  have hinner := gathered_matched hds houter.branches (houter.twins h hmethods)
  refine houter.next ?_
  have hcontainer := houter.related.part .namedType "containingSymbol"
  have htypes := hinner.related.part .namedType "typeArguments"
  generalize part .namedType "containingSymbol" (locate o d methods c).1 = x,
    part .namedType "containingSymbol" (locate o d methods' c').1 = x' at hcontainer ⊢
  dsimp only at htypes
  generalize part .namedType "typeArguments" (gathered 0 (locateEach o ds methods _).1) = y,
    part .namedType "typeArguments" (gathered 0 (locateEach o ds methods' _).1) = y'
    at htypes ⊢
  cases hcontainer with
  | error reason => exact hinner.result (.error reason)
  | ok hr =>
    cases htypes with
    | error reason => exact hinner.result (.error reason)
    | ok htypes =>
      have howners := hinner.twins houter.branches hr.candidates
      exact hinner.next (matched_constructedAt _ _ hinner.branches
        (hinner.branches.genericsBearing o howners _ _ _) htypes)

theorem Pairs.tupleType (hds : ∀ d ∈ ds, Pairs o c₀ d) :
    Pairs o c₀ (.tupleType presence ds names locations) := by
  intro methods methods' c c' h hmethods
  simp only [locate]
  have hinner := gathered_matched hds h hmethods
  rw [hinner.branches.accept_eq]
  exact settled_matched hinner .fail .tupleType "elementTypes" _ _ fun sites hitems =>
    hinner.branches.tupleType hitems _ sites

theorem Pairs.anonymousType (hds : ∀ d ∈ ds, Pairs o c₀ d) :
    Pairs o c₀ (.anonymousType presence ds names readOnly locations) := by
  intro methods methods' c c' h hmethods
  simp only [locate]
  have hinner := gathered_matched hds h hmethods
  rw [hinner.branches.accept_eq]
  exact settled_matched hinner .universal .anonymousType "propertyTypes" _ _ fun sites hitems =>
    hinner.branches.anonymousType hitems _ _ sites

theorem Pairs.property (hd : Pairs o c₀ d) (hds : ∀ d ∈ ds, Pairs o c₀ d) :
    Pairs o c₀ (.property d name presence ds) := by
  intro methods methods' c c' h hmethods
  simp only [locate]
  have houter := hd h hmethods
  have hinner := gathered_matched hds houter.branches (houter.twins h hmethods)
  have htypes := hinner.related.part .property "parameterTypes"
  refine houter.next (hinner.result ?_)
  refine (houter.related.part .property "containingType").bind fun r r' hr => ?_
  refine htypes.bind fun types types' htypes => ?_
  have howners := hinner.twins houter.branches hr.candidates
  exact ofCandidates_related hinner.branches.unique
    (hinner.branches.propertiesBearing o howners _ htypes) _

theorem Pairs.method (hd : Pairs o c₀ d) (hds : ∀ d ∈ ds, Pairs o c₀ d) :
    Pairs o c₀ (.method d name arity presence ds) := by
  intro methods methods' c c' h hmethods
  simp only [locate]
  have houter := hd h hmethods
  have hmethods' := houter.twins h hmethods
  have hreplayed {candidates candidates' : List SymbolId}
      (hcandidates : Forall₂ (c₀.Twin _ _) candidates candidates') :=
    matched_replayedAll
      (fun methods c => (gathered 0 (locateEach o ds methods c).1, (locateEach o ds methods c).2))
      (fun h hmethods => gathered_matched hds h hmethods) houter.branches hmethods' hcandidates
  have hresolved := houter.related
  generalize (locate o d methods c).1 = x, (locate o d methods' c').1 = x' at hresolved ⊢
  refine houter.next ?_
  cases hresolved with
  | error reason => exact (hreplayed .nil).result (.error _)
  | ok hr =>
    have hcandidates := houter.branches.genericsBearing o hr.candidates .method (name.valueOr "")
      (arity.valueOr 0)
    exact (hreplayed hcandidates).result
      ((hreplayed hcandidates).related.outcome (hreplayed hcandidates).branches.unique _)

end Segments

/-- Locating in two branches comes to twins. -/
theorem locate_matched (o : ResolveOptions) (c₀ : Compilation) (d : Description) :
    Pairs o c₀ d := by
  -- the branches are not fixed: each segment inside starts from where the one before it ended
  induction d with
  | unreadable _ | unflagged _ | global =>
    intro methods methods' c c' h _
    simp only [locate]
    exact h.stay (.ok (.symbol h.twin_global))
  | nameSpace container name ih =>
    intro methods methods' c c' h hmethods
    simp only [locate]
    have hm := ih h hmethods
    exact lookup_matched hm _ _ _ fun r r' hr => hm.branches.membersBearing o hr _ _
  | namedType _ _ _ _ _ ih iharguments => exact ih.namedType iharguments
  | arrayType element rank ih =>
    intro methods methods' c c' h hmethods
    simp only [locate]
    exact rebuilt_matched (ih h hmethods) (fun _ _ _ _ h hs => h.arrayType hs _) _ _
  | pointerType pointee ih =>
    intro methods methods' c c' h hmethods
    simp only [locate]
    exact rebuilt_matched (ih h hmethods) (fun _ _ _ _ h hs => h.pointerType hs) _ _
  | tupleType _ _ _ _ ih => exact Pairs.tupleType ih
  | anonymousType _ _ _ _ _ ih => exact Pairs.anonymousType ih
  | typeParameter owner name ih =>
    intro methods methods' c c' h hmethods
    simp only [locate]
    have hm := ih h hmethods
    exact lookup_matched hm _ _ _ fun r r' hr => hm.branches.typeParametersBearing o hr _
  | typeParameterOrdinal depth ordinal =>
    intro methods methods' c c' h hmethods
    simp only [locate]
    exact h.stay (enclosingAt_related h hmethods _ _)
  | field container name ih =>
    intro methods methods' c c' h hmethods
    simp only [locate]
    have hm := ih h hmethods
    exact lookup_matched hm _ _ _ fun r r' hr => hm.branches.membersBearing o hr _ _
  | property _ _ _ _ ih ihparameters => exact ih.property ihparameters
  | method _ _ _ _ _ ih ihparameters => exact ih.method ihparameters
  | parameter owner name ih =>
    intro methods methods' c c' h hmethods
    simp only [locate]
    have hm := ih h hmethods
    exact lookup_matched hm _ _ _ fun r r' hr => hm.branches.parametersBearing o hr _
  | localVariable owner name ordinal ih =>
    intro methods methods' c c' h hmethods
    simp only [locate]
    have hm := ih h hmethods
    exact lookup_matched hm _ _ _ fun r r' hr => hm.branches.localsBearing o hr _ _

end Description
end Moniker
