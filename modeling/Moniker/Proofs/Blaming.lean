import Moniker.Proofs.Layouts
import Moniker.Proofs.Replaying

/-!
# Who is to blame

A failure is a chain, and the chain is a path through the key. It is followed from the outermost
segment inwards: a link with a label leads to a segment in the segment reached so far, or to an
array, a link with an index leads to that element of the array, and the last link is the failure
that the segment reached there has of its own, or names the file of the location reached there
(`Reader.Blames`). What has been passed by on the way resolved. In the signature of a method, which
is read once for each candidate, the path goes on in the reading that failed first, and no candidate
was fitting.

`Key.failure_traced` says so of every key that comes to a failure.
-/

namespace Moniker

/-- An array that failed has an entry that failed, after others that did not. -/
theorem gathered_eq_error {α β : Type} {f : α → Except Failure β} {xs : List α} {index : Nat}
    {reason : Failure} (h : gathered index (xs.map f) = .error reason) :
    ∃ before x rest cause, xs = before ++ x :: rest ∧ (∀ y ∈ before, ∃ b, f y = .ok b) ∧
      f x = .error cause ∧ reason = .element (index + before.length) cause := by
  induction xs generalizing index reason with
  | nil => cases h
  | cons x xs ih =>
    rw [List.map_cons] at h
    cases hx : f x with
    | error cause =>
      rw [hx] at h
      cases h
      exact ⟨[], x, xs, cause, rfl, by simp, hx, rfl⟩
    | ok b =>
      rw [hx, gathered] at h
      cases hrest : gathered (index + 1) (xs.map f) with
      | ok items =>
        rw [hrest] at h
        cases h
      | error reason' =>
        rw [hrest] at h
        cases h
        obtain ⟨before, y, rest, cause, rfl, hbefore, hy, rfl⟩ := ih hrest
        refine ⟨x :: before, y, rest, cause, rfl, ?_, hy, ?_⟩
        · exact List.forall_mem_cons.mpr ⟨⟨b, hx⟩, hbefore⟩
        · rw [List.length_cons, Nat.add_right_comm, Nat.add_assoc]

theorem Scene.Sound.returnedEither {scene : Scene} (h : scene.Sound)
    (lent : Except Failure (Loan SymbolId)) : (scene.returnedEither lent).Sound := by
  cases lent with
  | ok loan => exact ⟨h.closed, Decode.clean_release h.clean loan⟩
  | error reason => exact h

namespace Reader

open Pass Decode

variable {o : ResolveOptions} {r r' start : Reader} {scene scene' : Scene} {after : Reader × Scene}
  {reason : Failure}

/-! ## The way to an element -/

/-- Reading the array of segments that begins in one state comes to an element in the other
state. -/
def AtElement (o : ResolveOptions) (state after : Reader × Scene) : Prop :=
  ∃ presence n r₁ elements, state.1.Reads Scan.header (presence, n) r₁ ∧ elements.length < n ∧
    Row (ReadsKey o) (r₁, state.2.lending SymbolId presence n) elements after

/-- From where an array of segments begins, the element at the index is reached when all before it
have been read, and all of them resolved. -/
def ReachesElement (o : ResolveOptions) (state : Reader × Scene) (index : Nat)
    (after : Reader × Scene) : Prop :=
  ∃ presence n r₁ elements, state.1.Reads Scan.header (presence, n) r₁ ∧ elements.length = index ∧
    index < n ∧ Row (ReadsKey o) (r₁, state.2.lending SymbolId presence n) elements after ∧
      ∀ resolved ∈ elements, ∃ found, resolved = .ok found

/-- From where an array of locations begins, the one at the index is reached when all before it have
been read, and all of them are in files of the compilation. -/
def ReachesLocation (c : Compilation) (r : Reader) (index : Nat) (r' : Reader) : Prop :=
  ∃ presence n r₁ sites, r.Reads Scan.header (presence, n) r₁ ∧ sites.length = index ∧ index < n ∧
    Row (Reads Scan.location) r₁ sites r' ∧ ∀ site ∈ sites, ∃ accepted, c.accept site = .ok accepted

namespace Ready

variable (h : r.Ready scene)
include h

theorem atElement (hat : AtElement o (r, scene) (r', scene')) : r.Goes scene r' scene' := by
  obtain ⟨presence, n, r₁, elements, hheader, -, hrow⟩ := hat
  have hgoes := h.header (α := SymbolId) hheader
  exact hgoes.trans ((h.later hgoes).row hrow).1

theorem reachesElement {index : Nat} (hreach : ReachesElement o (r, scene) index (r', scene')) :
    r.Goes scene r' scene' := by
  obtain ⟨presence, n, r₁, elements, hheader, rfl, hlt, hrow, -⟩ := hreach
  exact h.atElement ⟨presence, n, r₁, elements, hheader, hlt, hrow⟩

/-- An array of segments that failed has an element that failed. -/
theorem element_of_readKeys (hread : r.readKeys o scene = ⟨.ok (.error reason), r', scene'⟩) :
    ∃ index cause mid after, reason = .element index cause ∧ ReachesElement o (r, scene) index mid ∧
      ReadsKey o mid (.error cause) after := by
  obtain ⟨presence, elements, scene₁, hkeys, hlent, -⟩ := readKeys_inv h hread
  obtain ⟨-, hcandidates⟩ := ReadsKeys.goes h hkeys
  obtain ⟨r₁, hheader, hrow⟩ := hkeys
  obtain ⟨before, failed, rest, cause, rfl, hbefore, hfailed, rfl⟩ :=
    gathered_eq_error (Lent.of_error hlent)
  obtain ⟨mid, hfirst, hlast⟩ := hrow.append_inv
  have hcause : failed = .error cause := by
    cases failed with
    | error reason =>
      cases hfailed
      rfl
    | ok found =>
      -- what resolves has a first candidate
      obtain ⟨s, hs⟩ := hcandidates found (by simp)
      have hok : first (.ok found) = .ok s := by
        simp only [first, bind, Except.bind, hs]
        rfl
      rw [hok] at hfailed
      cases hfailed
  subst hcause
  cases hlast with
  | cons hread _ =>
    refine ⟨_, cause, mid, _, rfl,
      ⟨presence, _, r₁, before, hheader, (Nat.zero_add _).symm, ?_, hfirst, ?_⟩, hread⟩
    · rw [List.length_append, List.length_cons]
      omega
    · intro resolved hresolved
      obtain ⟨s, hs⟩ := hbefore resolved hresolved
      cases resolved with
      | ok found => exact ⟨found, rfl⟩
      | error reason => cases hs

/-- An array of locations that failed has one that is in no file of the compilation. -/
theorem location_of_readLocations
    (hread : r.readLocations scene = ⟨.ok (.error reason), r', scene'⟩) :
    ∃ index path span r₁ r₂, reason = .element index (.notInCompilation path) ∧
      ReachesLocation scene.compilation r index r₁ ∧ r₁.Reads Scan.location (.source path span) r₂ ∧
      scene.compilation.containsFile path = false := by
  obtain ⟨presence, sites, ⟨r₁, hheader, hrow⟩, hlent⟩ := readLocations_inv h hread
  obtain ⟨before, failed, rest, cause, rfl, hbefore, hfailed, rfl⟩ :=
    gathered_eq_error (Lent.of_error hlent)
  obtain ⟨mid, hfirst, hlast⟩ := hrow.append_inv
  cases failed with
  | nowhere => cases hfailed
  | source path span =>
    rw [Compilation.accept] at hfailed
    split at hfailed
    · cases hfailed
    · next hmissing =>
      cases hfailed
      cases hlast with
      | cons hread _ =>
        refine ⟨_, path, span, mid, _, rfl,
          ⟨presence, _, r₁, before, hheader, (Nat.zero_add _).symm, ?_, hfirst, hbefore⟩, hread,
          Bool.eq_false_iff.mpr hmissing⟩
        rw [List.length_append, List.length_cons]
        omega

end Ready

/-! ## The way into a signature -/

/-- A signature that was read inside a candidate, and what came of it. -/
abbrev Try := SymbolId × Except Failure (Loan SymbolId)

/-- The signature, which begins where the reader stands, is read once more, and its buffer given
back. -/
def Tries (o : ResolveOptions) (start : Reader) (scene : Scene) (t : Try) (scene' : Scene) : Prop :=
  ∃ after mid, (start.pushMethod t.1).readKeys o scene = ⟨.ok t.2, after, mid⟩ ∧
    scene' = mid.returnedEither t.2

/-- The types that were read, if any, are not those of the candidate's own parameters. -/
def Misfits (c : Compilation) (t : Try) : Prop :=
  ∀ types, t.2 = .ok types → c.parameterTypes t.1 ≠ .ok types.items

/-- Inside none of the candidates does the signature fit, and this one is the first inside which it
fails. -/
def FirstFails (o : ResolveOptions) (start : Reader) (inner : Scene) (candidates : List SymbolId)
    (m : SymbolId) (reason : Failure) (scene : Scene) : Prop :=
  ∃ before rest last, Row (Tries o start) inner before scene ∧
    Row (Tries o start) scene ((m, .error reason) :: rest) last ∧
    (before ++ (m, .error reason) :: rest).map Prod.fst = candidates ∧
    (∀ t ∈ before, ∃ types, t.2 = .ok types) ∧ ∀ t ∈ before ++ rest, Misfits inner.compilation t

/-! ## Paths -/

/-- A failure is traced from the segment that begins where the reader stands to where it came
from. -/
inductive Blames (o : ResolveOptions) : Reader → Scene → Failure → Prop
  /-- Everything in the segment resolved, and it fails by itself. -/
  | leaf {r : Reader} {scene : Scene} {category : Category} {after : Reader × Scene}
    {reason : Failure}
    (hkind : r.frames[r.place.position]? = some (.kind category)) (hmethod : category ≠ .method)
    (hrow : Row (ReadsPiece o) (r.entered, scene.entered category r) (intact category.layout) after)
    (hleaf : category.Leaf reason) : Blames o r scene reason
  /-- What stands before it resolved, and a segment in the segment failed. -/
  | segment {r r₁ : Reader} {scene scene₁ : Scene} {category : Category} {before rest : List Piece}
    {label : String} {cause : Failure} {after : Reader × Scene}
    (hkind : r.frames[r.place.position]? = some (.kind category))
    (hlayout : category.layout = before ++ .segment label :: rest)
    (hrow : Row (ReadsPiece o) (r.entered, scene.entered category r) (intact before) (r₁, scene₁))
    (hread : ReadsKey o (r₁, scene₁) (.error cause) after) (hcause : Blames o r₁ scene₁ cause) :
    Blames o r scene (.field category.codec label cause)
  /-- What stands before it resolved, and an element of an array of segments failed. -/
  | element {r r₁ r₂ : Reader} {scene scene₁ scene₂ : Scene} {category : Category}
    {before rest : List Piece} {label : String} {index : Nat} {cause : Failure}
    {after : Reader × Scene}
    (hkind : r.frames[r.place.position]? = some (.kind category))
    (hlayout : category.layout = before ++ .segments label :: rest)
    (hrow : Row (ReadsPiece o) (r.entered, scene.entered category r) (intact before) (r₁, scene₁))
    (hreach : ReachesElement o (r₁, scene₁) index (r₂, scene₂))
    (hread : ReadsKey o (r₂, scene₂) (.error cause) after) (hcause : Blames o r₂ scene₂ cause) :
    Blames o r scene (.field category.codec label (.element index cause))
  /-- What stands before it resolved, and a location of an array is in a file that the compilation
  does not have. -/
  | location {r r₁ r₂ r₃ : Reader} {scene scene₁ : Scene} {category : Category}
    {before rest : List Piece} {label path : String} {span : Span} {index : Nat}
    (hkind : r.frames[r.place.position]? = some (.kind category))
    (hlayout : category.layout = before ++ .locations label :: rest)
    (hrow : Row (ReadsPiece o) (r.entered, scene.entered category r) (intact before) (r₁, scene₁))
    (hreach : ReachesLocation scene₁.compilation r₁ index r₂)
    (hread : r₂.Reads Scan.location (.source path span) r₃)
    (hmissing : scene₁.compilation.containsFile path = false) :
    Blames o r scene (.field category.codec label (.element index (.notInCompilation path)))
  /-- The container of a method resolved, and an element of its signature failed inside the first
  candidate inside which any did, where no candidate was fitting. -/
  | signature {r start r₂ : Reader} {scene inner scene₁ scene₂ : Scene}
    {found : Resolution SymbolId}
    {name : String} {arity index : Nat} {m : SymbolId} {cause : Failure} {after : Reader × Scene}
    (hkind : r.frames[r.place.position]? = some (.kind .method))
    (hmethod : ReadsMethod o (r.entered, scene.entered .method r) (.ok found) name arity
      (start, inner))
    (htries : FirstFails o start inner
      (inner.compilation.genericsBearing o .method found.candidates name arity) m
      (.element index cause) scene₁)
    (hreach : ReachesElement o (start.pushMethod m, scene₁) index (r₂, scene₂))
    (hread : ReadsKey o (r₂, scene₂) (.error cause) after) (hcause : Blames o r₂ scene₂ cause) :
    Blames o r scene (.field Category.method.codec "parameterTypes" (.element index cause))
  /-- The container of a method resolved, and its signature failed inside no candidate, but fits
  none of them. -/
  | unfitting {r start : Reader} {scene inner last : Scene} {found : Resolution SymbolId}
    {name : String} {arity : Nat} {tries : List Try}
    (hkind : r.frames[r.place.position]? = some (.kind .method))
    (hmethod : ReadsMethod o (r.entered, scene.entered .method r) (.ok found) name arity
      (start, inner))
    (htries : Row (Tries o start) inner tries last)
    (hcandidates : tries.map Prod.fst =
      inner.compilation.genericsBearing o .method found.candidates name arity)
    (hread : ∀ t ∈ tries, ∃ types, t.2 = .ok types) (hnone : ∀ t ∈ tries,
      Misfits inner.compilation t) :
    Blames o r scene (.notFound Category.method.codec name)

/-! ## Replays -/

theorem reread_inv {α : Type} {place : Place} {m : SymbolId} {signature : Pass α} {a : α}
    (hle : place.position ≤ r.place.position)
    (h : (Pass.reread place m signature).Yields (r, scene) a after) :
    ∃ r₁ scene₁, signature.Yields ((r.moved place.position).pushMethod m, scene) a (r₁, scene₁) ∧
      after = (r₁.popMethod, scene₁) := by
  unfold Yields at *
  rw [run_reread hle] at h
  rcases hrun : signature.run ((r.moved place.position).pushMethod m, scene)
    with ⟨outcome, r₁, scene₁⟩
  rw [hrun] at h
  cases outcome with
  | ok a' =>
    cases h
    exact ⟨r₁, scene₁, rfl, rfl⟩
  | error halt => cases halt <;> cases h

theorem Misfits.earlier {c c' : Compilation} {t : Try} (hclosed : c.Closed) (hclosed' : c'.Closed)
    (hgrows : c.Grows c') (ht : c.Issued t.1) (h : Misfits c' t) : Misfits c t := by
  intro types htypes
  have hlater := h types htypes
  rw [hclosed'.parameterTypes_eq (hgrows.issued ht), hgrows.signatureAt hclosed ht] at hlater
  rwa [hclosed.parameterTypes_eq ht]

section Tried

variable (h : start.Ready scene)
include h

theorem Ready.tried {t : Try} (ht : scene.compilation.Issued t.1)
    (htry : Tries o start scene t scene') :
    start.Ready scene' ∧ scene.compilation.Leads scene'.compilation := by
  obtain ⟨after, mid, hread, rfl⟩ := htry
  have hgoes := ((h.pushMethod ht).keys hread).1
  have hlater : (mid.returnedEither t.2).compilation = mid.compilation :=
    Scene.compilation_returnedEither _ _
  have hleads : scene.compilation.Leads (mid.returnedEither t.2).compilation := by
    rw [hlater]
    exact hgoes.leads
  exact ⟨⟨h.inside, hgoes.sound.returnedEither t.2,
    fun m hm => hleads.grows.issued (h.methods m hm)⟩, hleads⟩

theorem Ready.triedAll {tries : List Try} (htries : ∀ t ∈ tries, scene.compilation.Issued t.1)
    (hrow : Row (Tries o start) scene tries scene') :
    start.Ready scene' ∧ scene.compilation.Leads scene'.compilation := by
  induction tries generalizing scene with
  | nil =>
    cases hrow
    exact ⟨h, .refl _⟩
  | cons t rest ih =>
    cases hrow with
    | cons htry hrest =>
      obtain ⟨hready, hleads⟩ := h.tried (htries t List.mem_cons_self) htry
      obtain ⟨hready', hleads'⟩ := ih hready
        (fun t' ht' => hleads.grows.issued (htries t' (List.mem_cons_of_mem t ht'))) hrest
      exact ⟨hready', hleads.trans hleads'⟩

end Tried

/-- What a replay knows after some candidates were tried, which it began with what `sofar` says:
nothing fits only if none of them does, and the failure is the first one. -/
structure Accounted (c : Compilation) (sofar : Description.Replay) (tries : List Try)
    (replay : Description.Replay) : Prop where
  misfits : replay.fitting = [] → sofar.fitting = [] ∧ ∀ t ∈ tries, Misfits c t
  failure : replay.failure = sofar.failure.or (tries.findSome? fun t => failure? t.2)

theorem Accounted.nil (c : Compilation) (sofar : Description.Replay) : Accounted c sofar [] sofar :=
  ⟨fun hnone => ⟨hnone, fun t ht => by cases ht⟩, by simp⟩

/-- A first candidate is accounted for by itself, and the others in the compilation it leaves. -/
theorem Accounted.cons {c c' : Compilation} {sofar sofar' replay : Description.Replay} {t : Try}
    {rest : List Try} (hfirst : Accounted c sofar [t] sofar')
    (hrest : Accounted c' sofar' rest replay) (hearlier : ∀ t ∈ rest, Misfits c' t → Misfits c t) :
    Accounted c sofar (t :: rest) replay := by
  refine ⟨fun hnone => ?_, ?_⟩
  · obtain ⟨hnone', hmisfits⟩ := hrest.misfits hnone
    obtain ⟨hsofar, hmisfit⟩ := hfirst.misfits hnone'
    exact ⟨hsofar, List.forall_mem_cons.mpr
      ⟨hmisfit t List.mem_cons_self, fun t' ht' => hearlier t' ht' (hmisfits t' ht')⟩⟩
  · rw [hrest.failure, hfirst.failure, Option.or_assoc, List.findSome?_cons, List.findSome?_cons,
      List.findSome?_nil]
    cases failure? t.2 <;> rfl

/-- A candidate whose signature fails is set aside, with its failure if there was none before. -/
theorem Accounted.failed (c : Compilation) (sofar : Description.Replay) (m : SymbolId)
    (reason : Failure) :
    Accounted c sofar [(m, .error reason)]
      { sofar with failure := sofar.failure <|> some reason } := by
  refine ⟨fun hnone => ⟨hnone, fun t ht types htypes => ?_⟩, Option.orElse_eq_or⟩
  obtain rfl := List.mem_singleton.mp ht
  cases htypes

/-- A candidate whose signature resolves is set aside exactly if it has other parameter types. -/
theorem Accounted.resolved (c : Compilation) (sofar : Description.Replay) (m : SymbolId)
    (types : Loan SymbolId) (fits : Bool) (hfits : fits = false → Misfits c (m, .ok types)) :
    Accounted c sofar [(m, .ok types)]
      (if fits then { sofar with fitting := sofar.fitting ++ [m] } else sofar) := by
  cases fits with
  | true => exact ⟨fun hnone => by simp at hnone, Option.or_none.symm⟩
  | false =>
    refine ⟨fun hnone => ⟨hnone, fun t ht => ?_⟩, Option.or_none.symm⟩
    obtain rfl := List.mem_singleton.mp ht
    exact hfits rfl

/-- Going back to where the signature begins, the first candidate is tried. -/
theorem Ready.replay_step {m : SymbolId} {candidates : List SymbolId}
    {sofar replay : Description.Replay} {q : Nat} (h : start.Ready scene)
    (hm : scene.compilation.Issued m) (hq : start.place.position ≤ q)
    (hyields :
      (Pass.replay start.place (Pass.keys (Pass.key .own o)) (m :: candidates) sofar).Yields
        (start.moved q, scene) replay after) :
    ∃ lent sofar' scene' p, Tries o start scene (m, lent) scene' ∧
      Accounted scene.compilation sofar [(m, lent)] sofar' ∧ start.place.position ≤ p ∧
      (Pass.replay start.place (Pass.keys (Pass.key .own o)) candidates sofar').Yields
        (start.moved p, scene') replay after := by
  obtain ⟨lent, ⟨r₁, scene₁⟩, hreread, hrest⟩ := bind_inv hyields
  obtain ⟨r₂, scene₂, hkeys, heq⟩ := reread_inv hq hreread
  cases heq
  have hwithin := h.pushMethod hm
  have hread : (start.pushMethod m).readKeys o scene = ⟨.ok lent, r₂, scene₁⟩ :=
    (keys_iff hwithin.inside).mp hkeys
  obtain ⟨p, hp, hend, rfl⟩ := (hwithin.keys hread).1.advances
  have hback : ((start.pushMethod m).moved p).popMethod = start.moved p := by
    simp [Reader.popMethod, Reader.pushMethod, Reader.moved, Place.within]
  rw [hback] at hrest
  have htry : Tries o start scene (m, lent) (scene₁.returnedEither lent) := ⟨_, _, hread, rfl⟩
  obtain ⟨hready, hleads⟩ := h.tried hm htry
  cases lent with
  | error reason => exact ⟨_, _, _, p, htry, .failed _ sofar m reason, hp, hrest⟩
  | ok types =>
    obtain ⟨fits, ⟨r₃, scene₃⟩, hduring, hreplay⟩ := bind_inv hrest
    obtain ⟨scene₄, hasked, rfl⟩ := during_inv hduring
    obtain ⟨expected, mid, hquery, hcompared⟩ := bind_inv hasked
    obtain ⟨_, hrun, rfl⟩ := lift_inv hquery
    obtain ⟨hexpected, rfl⟩ := query_inv hrun
    obtain ⟨rfl, heq⟩ := pure_inv hcompared
    cases heq
    refine ⟨_, _, _, p, htry, .resolved _ sofar m types _ fun hdiffer => ?_, hp, hreplay⟩
    have hmisfit : Misfits scene₄.compilation (m, .ok types) := by
      intro types' htypes hsame
      cases htypes
      rw [hexpected] at hsame
      rw [Except.ok.inj hsame] at hdiffer
      simp at hdiffer
    -- the candidate has the parameters it had before
    exact hmisfit.earlier h.sound.closed hready.sound.closed hleads.grows hm

/-- Each candidate is tried in turn. -/
theorem Ready.replay_inv {candidates : List SymbolId} {sofar replay : Description.Replay} {q : Nat}
    (h : start.Ready scene) (hcandidates : ∀ m ∈ candidates, scene.compilation.Issued m)
    (hq : start.place.position ≤ q)
    (hyields : (Pass.replay start.place (Pass.keys (Pass.key .own o)) candidates sofar).Yields
      (start.moved q, scene) replay after) :
    ∃ tries last, Row (Tries o start) scene tries last ∧ tries.map Prod.fst = candidates ∧
      Accounted scene.compilation sofar tries replay := by
  induction candidates generalizing scene sofar q with
  | nil =>
    obtain ⟨rfl, rfl⟩ := pure_inv hyields
    exact ⟨[], scene, .nil _, rfl, .nil _ _⟩
  | cons m rest ih =>
    obtain ⟨hm, hothers⟩ := List.forall_mem_cons.mp hcandidates
    obtain ⟨lent, sofar', scene₁, p, htry, hfirst, hp, hrest⟩ := h.replay_step hm hq hyields
    obtain ⟨hready, hleads⟩ := h.tried hm htry
    obtain ⟨tries, last, hrow, rfl, haccounted⟩ :=
      ih hready (fun m' hm' => hleads.grows.issued (hothers m' hm')) hp hrest
    exact ⟨(m, lent) :: tries, last, .cons htry hrow, rfl, hfirst.cons haccounted fun t ht =>
      Misfits.earlier h.sound.closed hready.sound.closed hleads.grows
        (hothers t.1 (List.mem_map_of_mem ht))⟩

theorem Ready.replayAll_tries {candidates : List SymbolId} {replay : Description.Replay}
    (h : start.Ready scene) (hcandidates : ∀ m ∈ candidates, scene.compilation.Issued m)
    (hyields : (Pass.replayAll (Pass.keys (Pass.key .own o)) candidates).Yields
      (start, scene) replay
      after) :
    ∃ tries last, Row (Tries o start) scene tries last ∧ tries.map Prod.fst = candidates ∧
      (replay.fitting = [] → ∀ t ∈ tries, Misfits scene.compilation t) ∧
      replay.failure = tries.findSome? fun t => failure? t.2 := by
  obtain ⟨place, _, hplace, hreplayed⟩ := bind_inv hyields
  cases hplace
  obtain ⟨replay', mid, hreplay, hstepped⟩ := bind_inv hreplayed
  have hsame : replay = replay' := by
    split at hstepped
    · -- without candidates, the signature is stepped over
      obtain ⟨stepped, _, -, hgiven⟩ := bind_inv hstepped
      cases stepped with
      | ok types =>
        obtain ⟨_, _, -, hdone⟩ := bind_inv hgiven
        exact (pure_inv hdone).1
      | error reason => exact (pure_inv hgiven).1
    · exact (pure_inv hstepped).1
  subst hsame
  have hmoved : start = start.moved start.place.position := rfl
  rw [hmoved] at hreplay
  obtain ⟨tries, last, hrow, htried, haccounted⟩ :=
    h.replay_inv hcandidates (Nat.le_refl _) hreplay
  exact ⟨tries, last, hrow, htried, fun hempty => (haccounted.misfits hempty).2,
    by simpa using haccounted.failure⟩

/-- Where some reading of the signature failed, one of them was the first. -/
theorem exists_firstFails {tries : List Try} {last : Scene}
    (hrow : Row (Tries o start) scene tries last)
    (hnone : ∀ t ∈ tries, Misfits scene.compilation t)
    (hfailed : (tries.findSome? fun t => failure? t.2) = some reason) :
    ∃ m scene₁, FirstFails o start scene (tries.map Prod.fst) m reason scene₁ := by
  obtain ⟨before, ⟨m, lent⟩, rest, rfl, hlent, hbefore⟩ := List.findSome?_eq_some_iff.mp hfailed
  obtain rfl : lent = .error reason := by
    cases lent with
    | ok types => cases hlent
    | error reason' => exact congrArg _ (Option.some.inj hlent)
  obtain ⟨scene₁, hfirst, hlast⟩ := hrow.append_inv
  refine ⟨m, scene₁, before, rest, last, hfirst, hlast, rfl, fun t ht => ?_, fun t ht => ?_⟩
  · have hread := hbefore t ht
    cases htypes : t.2 with
    | ok types => exact ⟨types, rfl⟩
    | error reason' =>
      rw [htypes] at hread
      cases hread
  · refine hnone t ?_
    rcases List.mem_append.mp ht with ht | ht
    · exact List.mem_append_left _ ht
    · exact List.mem_append_right _ (List.mem_cons_of_mem _ ht)

/-- The first reading that failed began with a reader that was ready, inside an issued method. -/
theorem Ready.firstFails {candidates : List SymbolId} {m : SymbolId} (h : start.Ready scene)
    (hcandidates : ∀ m ∈ candidates, scene.compilation.Issued m)
    (hfails : FirstFails o start scene candidates m reason scene') :
    (start.pushMethod m).Ready scene' ∧
      ∃ after mid, (start.pushMethod m).readKeys o scene' = ⟨.ok (.error reason), after, mid⟩ := by
  obtain ⟨before, rest, last, hbefore, hafter, rfl, -, -⟩ := hfails
  have hissued (t : Try) (ht : t ∈ before ++ (m, .error reason) :: rest) :
      scene.compilation.Issued t.1 := hcandidates t.1 (List.mem_map_of_mem ht)
  obtain ⟨hready, hleads⟩ :=
    h.triedAll (fun t ht => hissued t (List.mem_append_left _ ht)) hbefore
  have hm : scene.compilation.Issued m :=
    hissued (m, .error reason) (List.mem_append_right _ List.mem_cons_self)
  cases hafter with
  | cons htry _ =>
    obtain ⟨after, mid, hread, -⟩ := htry
    exact ⟨hready.pushMethod (hleads.grows.issued hm), after, mid, hread⟩

/-! ## Tracing -/

/-- What fails in a segment is a segment or an array. -/
theorem failed_inv {piece : Piece} {cause : Failure}
    (hread : ReadsPiece o (r, scene) (piece, some cause) after) :
    (∃ label, piece = .segment label ∧ ReadsKey o (r, scene) (.error cause) after) ∨
    (∃ label r' scene', piece = .segments label ∧
      r.readKeys o scene = ⟨.ok (.error cause), r', scene'⟩) ∨
    ∃ label r' scene', piece = .locations label ∧
      r.readLocations scene = ⟨.ok (.error cause), r', scene'⟩ := by
  have hfailed {α : Type} {x : Except Failure α} (hx : some cause = failure? x) :
      x = .error cause := by
    cases x with
    | ok a => cases hx
    | error reason => exact congrArg _ (Option.some.inj hx).symm
  generalize hp : (piece, some cause) = p at hread
  cases hread with
  | flag _ | name _ | count _ | texts _ | bools _ => cases congrArg Prod.snd hp
  | segment hread =>
    obtain rfl := hfailed (congrArg Prod.snd hp)
    exact .inl ⟨_, congrArg Prod.fst hp, hread⟩
  | segments hread =>
    obtain rfl := hfailed (congrArg Prod.snd hp)
    exact .inr (.inl ⟨_, _, _, congrArg Prod.fst hp, hread⟩)
  | locations hread =>
    obtain rfl := hfailed (congrArg Prod.snd hp)
    exact .inr (.inr ⟨_, _, _, congrArg Prod.fst hp, hread⟩)

section Tracing

variable {category : Category} (h : r.Ready scene)
  (hkind : r.frames[r.place.position]? = some (.kind category))
  (hnested : ∀ {r₁ scene₁ cause after}, r₁.Ready scene₁ → r₁.frames = r.frames →
    r.place.position < r₁.place.position → ReadsKey o (r₁, scene₁) (.error cause) after →
      Blames o r₁ scene₁ cause)
include h hkind hnested

/-- Whatever begins inside a segment is traced already, if the segment is not a method's. -/
theorem blames_of_accounts (hmethod : category ≠ .method)
    (haccounts : Accounts o category (r.entered, scene.entered category r) reason) :
    Blames o r scene reason := by
  have hentered := h.entered hkind
  obtain ⟨row, after, hrow, hlayout, hblamed⟩ := haccounts
  rcases hblamed.inv with ⟨hintact, hleaf⟩ | ⟨before, piece, cause, rest, rfl, rfl⟩
  · rw [hintact, hlayout] at hrow
    exact .leaf hkind hmethod hrow hleaf
  obtain ⟨⟨r₁, scene₁⟩, hbefore, hafter⟩ := hrow.append_inv
  have hgoes := hentered.pieces hbefore
  have hready := hentered.later hgoes
  have hlt : r.place.position < r₁.place.position := hgoes.advances.le
  have hframes : r₁.frames = r.frames := hgoes.advances.frames
  have hdivided : category.layout = before ++ piece :: rest.map Prod.fst := by
    rw [← hlayout]
    simp
  cases hafter with
  | @cons _ mid _ _ _ hpiece _ =>
    rcases failed_inv hpiece with ⟨label, rfl, hread⟩ | ⟨label, r', scene', rfl, hread⟩ |
      ⟨label, r', scene', rfl, hread⟩
    · exact .segment hkind hdivided hbefore hread (hnested hready hframes hlt hread)
    · obtain ⟨index, cause, ⟨r₂, scene₂⟩, last, rfl, hreach, helement⟩ :=
        hready.element_of_readKeys hread
      have hthere := hready.reachesElement hreach
      exact .element hkind hdivided hbefore hreach helement (hnested (hready.later hthere)
        (hthere.advances.frames.trans hframes) (hlt.trans_le hthere.advances.le) helement)
    · obtain ⟨index, path, span, r₂, r₃, rfl, hreach, hlocation, hmissing⟩ :=
        hready.location_of_readLocations hread
      exact .location hkind hdivided hbefore hreach hlocation hmissing

/-- The same of the segment of a method. -/
theorem blames_of_method {place : Place} (hmethod : category = .method)
    (hbody : (body .own o (Pass.key .own o) place .method).Yields
      (r.entered, scene.entered .method r) (.error reason) after) : Blames o r scene reason := by
  subst hmethod
  have hentered := h.entered hkind
  obtain ⟨r', scene'⟩ := after
  obtain ⟨container, name, arity, start, inner, candidates, replay, last, hreads, hgoes, hissued,
    hconsiders, hreplay, hresolved⟩ := hentered.method_inv hbody
  have hstart := hentered.later hgoes
  cases container with
  | error cause =>
    cases hresolved
    obtain ⟨r₁, r₂, hread, -, -⟩ := hreads
    have hlayout : Category.method.layout = [] ++ .segment "containingType" :: [.name, .count] :=
      rfl
    refine .segment hkind hlayout (.nil _) hread (hnested hentered rfl ?_ hread)
    exact Nat.lt_succ_self _
  | ok found =>
    have hsought := hstart.considers_eq (hissued found rfl) hconsiders
    have hknown : ∀ m ∈ candidates, inner.compilation.Issued m := by
      rw [hsought]
      exact hstart.sound.closed.issued_genericsBearing (hissued found rfl)
    obtain ⟨tries, last, hrow, htried, hnone, hfailure⟩ := hstart.replayAll_tries hknown hreplay
    have houtcome : .error reason = replay.outcome name := hresolved
    have hempty : replay.fitting = [] := by
      by_contra hsome
      obtain ⟨m, hm⟩ := List.exists_mem_of_ne_nil _ hsome
      obtain ⟨r, hr, -⟩ := Description.Replay.outcome_of_mem name hm
      rw [hr] at houtcome
      cases houtcome
    cases hfirst : tries.findSome? fun t => failure? t.2 with
    | none =>
      rw [Description.Replay.outcome_missing hempty (hfailure.trans hfirst)] at houtcome
      cases houtcome
      refine .unfitting hkind hreads hrow (htried.trans hsought) (fun t ht => ?_) (hnone hempty)
      have hread := List.findSome?_eq_none_iff.mp hfirst t ht
      cases htypes : t.2 with
      | ok types => exact ⟨types, rfl⟩
      | error reason' =>
        rw [htypes] at hread
        cases hread
    | some cause =>
      rw [Description.Replay.outcome_failed hempty (hfailure.trans hfirst)] at houtcome
      cases houtcome
      obtain ⟨m, scene₁, hfails⟩ := exists_firstFails hrow (hnone hempty) hfirst
      rw [htried] at hfails
      obtain ⟨hready, r₁, scene₂, hread⟩ := hstart.firstFails hknown hfails
      obtain ⟨index, cause, ⟨r₂, scene₃⟩, last', rfl, hreach, helement⟩ :=
        hready.element_of_readKeys hread
      have hthere := hready.reachesElement hreach
      have hframes : r₂.frames = r.frames := hthere.advances.frames.trans hgoes.advances.frames
      have hlt : r.place.position < r₂.place.position :=
        lt_of_lt_of_le (Nat.lt_succ_self _) (hgoes.advances.le.trans hthere.advances.le)
      rw [hsought] at hfails
      exact .signature hkind hreads hfails hreach helement
        (hnested (hready.later hthere) hframes hlt helement)

end Tracing

/-- A segment that was read to its end and failed has a failure that can be traced. -/
theorem Ready.blames (h : r.Ready scene)
    (hread : r.readKey o scene = ⟨.ok (.error reason), r', scene'⟩) : Blames o r scene reason := by
  -- the induction is on how many frames are left, which are fewer where a nested segment begins
  induction hleft : r.frames.length - r.place.position using Nat.strong_induction_on
    generalizing r scene reason r' scene' with
  | _ left ih =>
    obtain ⟨category, position, scene₁, hkind, -, -, hbody, -, -⟩ := readKey_inv h.inside hread
    have hnested {r₁ : Reader} {scene₁ : Scene} {cause : Failure} {after : Reader × Scene}
        (hready : r₁.Ready scene₁) (hframes : r₁.frames = r.frames)
        (hlt : r.place.position < r₁.place.position)
        (hread : ReadsKey o (r₁, scene₁) (.error cause) after) : Blames o r₁ scene₁ cause := by
      have hinside : r₁.place.position ≤ r.frames.length := hframes ▸ hready.inside
      refine ih _ ?_ hready hread rfl
      rw [hframes]
      omega
    by_cases hmethod : category = .method
    · subst hmethod
      exact blames_of_method h hkind hnested rfl hbody
    · exact blames_of_accounts h hkind hnested hmethod (accounts (h.entered hkind) hmethod hbody)

/-- A key that resolves or fails has a segment that does. -/
theorem readKey_of_readRoot {resolved : Resolved} (h : (r.readRoot o scene).value = .ok resolved) :
    ∃ r' scene', r.readKey o scene = ⟨.ok resolved, r', scene'⟩ := by
  rcases hscan : (Description.ofFrames o (r.budget o)).run
    { position := r.place.position, rest := r.frames.drop r.place.position } with ⟨d, scan⟩
  rw [readRoot, perform_match _ hscan] at h
  rw [readKey, perform_match _ hscan]
  rcases hrun : (d.resolveAt o r.place).run scene with ⟨outcome, mid⟩
  rw [Decode.run_bind, hrun] at h
  cases outcome with
  | ok resolved' =>
    -- all that is left to do is to look whether frames are left
    dsimp only at h
    by_cases hrest : scan.rest.isEmpty = true
    · simp only [hrest, if_true] at h
      cases h
      exact ⟨_, _, rfl⟩
    · simp only [hrest] at h
      cases h
  | error halt => cases halt <;> cases h

end Reader

namespace Key

variable {o : ResolveOptions} {k : Key} {scene : Scene} {reason : Failure}

/-- A key that is read to its end begins with a segment that is. -/
theorem readKey_of_resolveIn {resolved : Resolved} (h : (k.resolveIn o scene).1 = .ok resolved) :
    ∃ r' scene', ({ frames := k.frames } : Reader).readKey o scene =
      ⟨.ok resolved, r', scene'⟩ := by
  rw [resolveIn] at h
  split at h
  · cases h
  · dsimp only at h
    split at h <;> exact Reader.readKey_of_readRoot h

/-- The failure of a key is a path through the key, to the first thing on every level that did not
resolve. -/
theorem failure_traced (hmade : scene.compilation.Made fun t r => r.Issued t)
    (hclean : scene.arena.Clean) (hresolve : (k.resolveIn o scene).1 = .ok (.error reason)) :
    Reader.Blames o { frames := k.frames } scene reason := by
  have hready : ({ frames := k.frames } : Reader).Ready scene :=
    ⟨Nat.zero_le _, ⟨hmade.closed, hclean⟩, fun m hm => nomatch hm⟩
  obtain ⟨r', scene', hread⟩ := readKey_of_resolveIn hresolve
  exact hready.blames hread

/-- The second parameter of a method is of a type that is missing, which is found out when the
signature is read inside the first one of two methods. -/
theorem failure_traced_missing :
    let c :=
      (Draft.ofRequests [.namedType Draft.global "C" [], .method ⟨5⟩ "m" [], .method ⟨5⟩ "m" [],
      .parameter ⟨7⟩ "x" Draft.int]).finish
    let named (name : String) : List Frame :=
      [.kind .namedType, .kind .nameSpace, .bool true, .text (some name), .int 0, .array .absent 0]
    let k : Key := .ofFrames (.kind .method :: (named "C" ++ [.text (some "m"), .int 0,
      .array .populated 2] ++ named "int" ++ named "Missing"))
    let reason : Failure := .field "MethodSymbolKey" "parameterTypes"
      (.element 1 (.notFound "NamedTypeSymbolKey" "Missing"))
    (k.resolveIn {} { compilation := c }).1 = .ok (.error reason) ∧
      Reader.Blames {} { frames := k.frames } { compilation := c } reason := by
  intro c named k reason
  have hmade : c.Made fun t r => r.Issued t :=
    .finish ((Draft.made_ofRequests (by decide)).mono fun _ _ h => h.issued)
  have hresolve : (k.resolveIn {} { compilation := c }).1 = .ok (.error reason) := by decide +kernel
  exact ⟨hresolve, failure_traced hmade Arena.clean_empty hresolve⟩

end Key
end Moniker
