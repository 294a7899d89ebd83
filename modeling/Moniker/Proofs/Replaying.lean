import Moniker.Proofs.Pairing
import Moniker.Proofs.Parts

/-!
# What becomes of methods

The signature of a method is gone through once for each candidate, by one reader and in one
compilation, which may have more types after every time. None of this shows. A candidate is found
exactly if the signature, read inside it and nowhere else, gives the types of its own parameters;
and where none is, the failure is that of the first candidate inside which the signature fails.
`Reader.replays_exactly` says so whatever else the compilation has built before, since what is read
in two branches of a compilation comes to twins (`Description.goThrough_same`).
-/

namespace Moniker

open List

/-! ## Methods are declared -/

namespace SymbolTable

variable {t t' : SymbolTable} {s : SymbolId}

/-- What is issued for a shape is a type, a field or a property. -/
theorem Asked.kind_of_new (h : t.Asked t') (hs : t'.Issued s) (hnew : ¬ t.Issued s) :
    (t'.entry s).kind ≠ .method := by
  cases h with
  | same => exact absurd hs hnew
  | @shape shape locations _ _ =>
    cases hlookup : t.interned.lookup shape with
    | some a =>
      rw [SymbolTable.ask, intern_of_lookup hlookup] at hs
      exact absurd hs hnew
    | none =>
      rw [ask_of_none hlookup] at hs ⊢
      change (t.addWithMembers _ _).2.Issued s at hs
      show ((t.addWithMembers _ _).2.entry s).kind ≠ .method
      rcases issued_addWithMembers hs with hold | rfl | ⟨i, hi, rfl⟩
      · exact absurd hold hnew
      · rw [entry_addWithMembers_next]
        show (shape.head t).kind ≠ .method
        rw [shape.kind_head]
        cases shape <;> intro hkind <;> cases hkind
      · rw [entry_addWithMembers_member hi]
        have hmem := List.getElem_mem hi
        show (shape.fields locations)[i].kind ≠ .method
        cases shape with
        | array _ _ | pointer _ | constructed _ _ => cases hmem
        | tuple types names =>
          rw [(mem_tupleFields _ hmem).2]
          intro hkind
          cases hkind
        | anonymous types names readOnly =>
          rw [(mem_anonymousProperties _ hmem).2]
          intro hkind
          cases hkind

end SymbolTable

/-- A method was there before anything was built. -/
theorem Compilation.Leads.issued_method {c c' : Compilation} {m : SymbolId} (h : c.Leads c')
    (hm : c'.Issued m) (hkind : (c'.entry m).kind = .method) : c.Issued m := by
  induction h with
  | refl => exact hm
  | @tail mid c' _ hstep ih =>
    obtain ⟨r, hrun⟩ := hstep
    by_cases hold : mid.Issued m
    · rw [(grows_request hrun).entry hold] at hkind
      exact ih hold hkind
    · exact absurd hkind ((asked_run hrun).kind_of_new hm hold)

/-- So were the methods that a lookup finds. -/
theorem Compilation.Leads.issued_methodsBearing {c c' : Compilation} {o : ResolveOptions}
    {owners : List SymbolId} {name : String} {arity : Nat} (h : c.Leads c') (hclosed : c'.Closed)
    (howners : ∀ s ∈ owners, c'.Issued s) :
    ∀ m ∈ c'.genericsBearing o .method owners name arity, c.Issued m := by
  intro m hm
  have hmembers := (List.mem_filter.mp (List.mem_filter.mp hm).1).1
  obtain ⟨s, -, hmember⟩ := List.mem_flatMap.mp hmembers
  exact h.issued_method (hclosed.issued_genericsBearing howners m hm) (mem_membersAt.mp hmember).2

/-! ## Signatures in two branches -/

namespace Description

open Compilation

variable {o : ResolveOptions} {c₀ c c' : Compilation} {m : SymbolId}
  {methods candidates : List SymbolId}
  {ds : List Description} {x y : Except Failure (List SymbolId)}

/-- What reading a signature came to says the same about a method: it has the types of its
parameters both times or neither time, and both fail in the same way if one of them does. -/
structure Same (types : List SymbolId) (x y : Except Failure (List SymbolId)) : Prop where
  fits : x = .ok types ↔ y = .ok types
  fails : ∀ reason, x = .error reason ↔ y = .error reason

theorem goThrough_branches (o : ResolveOptions) (ds : List Description)
    (hbranches : c₀.Branches c c') (hmethods : ∀ m ∈ methods, c₀.Issued m) :
    c₀.Matched c c' (fun T => SameOutcome (Forall₂ T)) (goThrough o ds methods c)
      (goThrough o ds methods c') :=
  gathered_matched (fun d _ => locate_matched o c₀ d) hbranches
    (forall₂_same.mpr fun m hm => .old (hmethods m hm))

/-- Going through a signature in two branches, inside methods from before, says the same about a
method from before. -/
theorem goThrough_same (hbranches : c₀.Branches c c') (hmethods : ∀ m ∈ methods, c₀.Issued m)
    (hm : c₀.Issued m) :
    Same (c₀.signatureAt m) (goThrough o ds methods c).1 (goThrough o ds methods c').1 := by
  have hmatched := goThrough_branches o ds hbranches hmethods
  have hunique := hmatched.branches.unique
  have hsignature := hmatched.branches.signatureAt (.old hm)
  have hclosed := hbranches.stem.closed
  rw [(hbranches.left.grows.trans hmatched.left).signatureAt hclosed hm,
    (hbranches.right.grows.trans hmatched.right).signatureAt hclosed hm] at hsignature
  generalize (goThrough o ds methods c).1 = x, (goThrough o ds methods c').1 = y,
    hmatched.related = hxy
  cases hxy with
  | error reason => exact ⟨Iff.of_eq (by simp), fun reason' => Iff.rfl⟩
  | @ok types types' htypes =>
    have hiff : types = c₀.signatureAt m ↔ types' = c₀.signatureAt m := by
      have hbeq := list_beq_related hunique htypes hsignature
      rw [Bool.eq_iff_iff, beq_iff_eq, beq_iff_eq] at hbeq
      exact hbeq
    refine ⟨?_, fun reason => ?_⟩
    · rw [Except.ok.injEq, Except.ok.injEq]
      exact hiff
    · exact iff_of_false (fun h => nomatch h) fun h => nomatch h

/-! ## Replays -/

/-- The candidates that fit and the first failure can be told from what is said about each candidate
elsewhere. -/
theorem Replay.afterEach_of_same {outcomes : List (Except Failure (List SymbolId))}
    {elsewhere : SymbolId → Except Failure (List SymbolId)}
    (h : Forall₂ (fun m x => Same (c.signatureAt m) x (elsewhere m)) candidates outcomes)
    (sofar : Replay) :
    (sofar.afterEach c candidates outcomes).fitting = sofar.fitting ++
        candidates.filter (fun m => elsewhere m = .ok (c.signatureAt m)) ∧
      (sofar.afterEach c candidates outcomes).failure = sofar.failure.or
        (candidates.findSome? fun m => failure? (elsewhere m)) := by
  induction h generalizing sofar with
  | nil => simp [afterEach]
  | @cons m x candidates outcomes hsame _ ih =>
    have hstep : sofar.afterEach c (m :: candidates) (x :: outcomes) =
        (sofar.after m (c.signatureAt m) x).afterEach c candidates outcomes := rfl
    obtain ⟨hfitting, hfailure⟩ := ih (sofar.after m (c.signatureAt m) x)
    rw [hstep, hfitting, hfailure, List.filter_cons, List.findSome?_cons]
    cases x with
    | error reason =>
      have helsewhere : elsewhere m = .error reason := (hsame.fails reason).mp rfl
      simp [Replay.after, helsewhere, failure?]
    | ok types =>
      cases helsewhere : elsewhere m with
      | error reason =>
        rw [helsewhere] at hsame
        cases (hsame.fails reason).mpr rfl
      | ok types' =>
        have hiff : types = c.signatureAt m ↔ types' = c.signatureAt m := by
          have hfits := hsame.fits
          rw [helsewhere, Except.ok.injEq, Except.ok.injEq] at hfits
          exact hfits
        by_cases hfit : types = c.signatureAt m
        · simp [Replay.after, hfit, hiff.mp hfit, failure?]
        · have hne : ¬ c.signatureAt m = types := fun h => hfit h.symm
          have hne' : ¬ types' = c.signatureAt m := fun h => hfit (hiff.mpr h)
          simp [Replay.after, hne, hne', failure?]

section Outcomes

variable {replay : Replay} {name : String}

theorem Replay.outcome_of_mem {m : SymbolId} (name : String) (hm : m ∈ replay.fitting) :
    ∃ found, replay.outcome name = .ok found ∧ found.candidates = replay.fitting.eraseDups ∧
      found.candidates.Nodup := by
  have houtcome : replay.outcome name = found .method name replay.fitting := by
    cases hfitting : replay.fitting with
    | nil =>
      rw [hfitting] at hm
      cases hm
    | cons m' rest => simp [outcome, hfitting]
  obtain ⟨r, hr⟩ := Resolution.ofCandidates_of_mem hm (.notFound Category.method.codec name)
  exact ⟨r, houtcome.trans hr, Resolution.candidates_ofCandidates hr,
    Resolution.nodup_ofCandidates hr⟩

theorem Replay.outcome_failed {reason : Failure} (hnone : replay.fitting = [])
    (hfailure : replay.failure = some reason) :
    replay.outcome name = .error (.field Category.method.codec "parameterTypes" reason) := by
  simp [outcome, hnone, hfailure]

theorem Replay.outcome_missing (hnone : replay.fitting = []) (hfailure : replay.failure = none) :
    replay.outcome name = .error (.notFound Category.method.codec name) := by
  simp [outcome, hnone, hfailure, found, Resolution.ofCandidates]

end Outcomes

/-- What the signature comes to inside a method, starting from the compilation as it is. -/
def aside (o : ResolveOptions) (ds : List Description) (methods : List SymbolId) (c : Compilation)
    (m : SymbolId) : Except Failure (List SymbolId) :=
  (goThrough o ds (methods ++ [m]) c).1

/-- The replays of a signature in one compilation after the other come to what it comes to inside
each candidate in another branch. -/
theorem replayedAll_aside (o : ResolveOptions) (ds : List Description)
    (hbranches : c₀.Branches c c') (hmethods : ∀ m ∈ methods, c₀.Issued m)
    (hcandidates : ∀ m ∈ candidates, c₀.Issued m) :
    (replayedAll (goThrough o ds) methods candidates c).1.fitting =
        candidates.filter (fun m => aside o ds methods c' m = .ok (c₀.signatureAt m)) ∧
      (replayedAll (goThrough o ds) methods candidates c).1.failure =
        candidates.findSome? fun m => failure? (aside o ds methods c' m) := by
  have hgrows := hbranches.left.grows
  have hclosed := hbranches.stem.closed
  have hsignature : ∀ m ∈ candidates, c.signatureAt m = c₀.signatureAt m := fun m hm =>
    hgrows.signatureAt hclosed (hcandidates m hm)
  -- wherever in its branch the compilation is by then, the signature says the same
  have hread : ∀ m ∈ candidates, ∀ now, c.Grows now → c₀.Descends now →
      now.Grows (goThrough o ds (methods ++ [m]) now).2 ∧
        c₀.Descends (goThrough o ds (methods ++ [m]) now).2 ∧
          Same (c.signatureAt m) (goThrough o ds (methods ++ [m]) now).1
              (aside o ds methods c' m) := by
    intro m hm now _ hnow
    have hnow' : c₀.Branches now c' := ⟨hbranches.stem, hnow, hbranches.right⟩
    have hwithin := issued_within hmethods (hcandidates m hm)
    have hmatched := goThrough_branches o ds hnow' hwithin
    refine ⟨hmatched.left, hmatched.branches.left, ?_⟩
    rw [hsignature m hm]
    exact goThrough_same hnow' hwithin (hcandidates m hm)
  have hfilter : candidates.filter (fun m => aside o ds methods c' m = .ok (c.signatureAt m)) =
      candidates.filter (fun m => aside o ds methods c' m = .ok (c₀.signatureAt m)) :=
    List.filter_congr fun m hm => by rw [hsignature m hm]
  rw [← hfilter]
  cases candidates with
  | nil => exact ⟨rfl, rfl⟩
  | cons m rest =>
    have hissued : ∀ m' ∈ m :: rest, c.Issued m' := fun m' hm' => hgrows.issued (hcandidates m' hm')
    obtain ⟨-, -, hsame⟩ := buildEach_keeps (P := c₀.Descends)
      (Q := fun _ m x => Same (c.signatureAt m) x (aside o ds methods c' m))
      (fun _ _ _ _ _ _ h => h) hread c (.refl c) hbranches.left
    have hreplayed := replayed_eq (P := c₀.Descends) hbranches.left.closed hissued
      (fun m hm now hnow hp => ⟨(hread m hm now hnow hp).1, (hread m hm now hnow hp).2.1⟩)
      {} c (.refl c) hbranches.left
    have hall : replayedAll (goThrough o ds) methods (m :: rest) c =
        replayed (goThrough o ds) methods (m :: rest) {} c := rfl
    rw [hall, hreplayed]
    exact Replay.afterEach_of_same hsame {}

end Description

namespace Reader

open Pass Decode

variable {o : ResolveOptions} {r r' start : Reader} {scene scene' inner alone : Scene}
  {resolved : Resolved} {c₀ : Compilation} {candidates : List SymbolId} {name : String}

/-! ## What is read -/

/-- The segment of a method has its container, its name and the number of its type parameters before
its signature. -/
def ReadsMethod (o : ResolveOptions) (state : Reader × Scene) (container : Resolved) (name : String)
    (arity : Nat) (after : Reader × Scene) : Prop :=
  ∃ r₁ r₂, ReadsKey o state container (r₁, after.2) ∧ r₁.Reads Scan.name name r₂ ∧
    r₂.Reads Scan.count arity after.1

/-- The array of segments that begins where the reader stands ends at the position. -/
def ListEndsAt (o : ResolveOptions) (r : Reader) (scene : Scene) (position : Nat) : Prop :=
  ∃ lent scene', r.readKeys o scene = ⟨.ok lent, r.moved position, scene'⟩

/-- What comes of a signature that is read once, inside the method. -/
def readAlone (r : Reader) (o : ResolveOptions) (scene : Scene) (m : SymbolId) :
    Except Halt (Except Failure (Loan SymbolId)) :=
  ((r.pushMethod m).readKeys o scene).value

/-- The signature, read once inside the method, gives the types of the method's own parameters. -/
def FitsAlone (r : Reader) (o : ResolveOptions) (scene : Scene) (m : SymbolId) : Prop :=
  ∃ types, r.readAlone o scene m = .ok (.ok types) ∧
    scene.compilation.parameterTypes m = .ok types.items

open Classical in
/-- What comes of a method segment whose container was found, and what it has to do with reading the
signature inside one candidate at a time. -/
structure Replayed (o : ResolveOptions) (start : Reader) (alone : Scene) (position : Nat)
    (candidates : List SymbolId) (name : String) (resolved : Resolved) : Prop where
  /-- The signature is read to the same end inside every candidate. -/
  ends : ∀ m ∈ candidates, ListEndsAt o (start.pushMethod m) alone position
  /-- Those candidates are found that the signature fits, in lookup order and once each. -/
  found : (∃ m ∈ candidates, start.FitsAlone o alone m) → ∃ found, resolved = .ok found ∧
    found.candidates = (candidates.filter fun m => start.FitsAlone o alone m).eraseDups ∧
      found.candidates.Nodup
  /-- Where it fits none, the first candidate inside which it fails says why. -/
  failed : (∀ m ∈ candidates, ¬ start.FitsAlone o alone m) → ∀ before m rest reason,
    candidates = before ++ m :: rest →
    (∀ m' ∈ before, ∀ reason, start.readAlone o alone m' ≠ .ok (.error reason)) →
    start.readAlone o alone m = .ok (.error reason) →
      resolved = .error (.field Category.method.codec "parameterTypes" reason)
  /-- Where it fits none and never fails, there is no such method. -/
  missing : (∀ m ∈ candidates, ¬ start.FitsAlone o alone m) →
    (∀ m ∈ candidates, ∀ reason, start.readAlone o alone m ≠ .ok (.error reason)) →
      resolved = .error (.notFound Category.method.codec name)

/-- What is read in a method segment, and what comes of it. The signature begins where the reader
has come to by then, and can be read there in any compilation that comes from the first one. -/
def Replays (o : ResolveOptions) (c₀ : Compilation) (state : Reader × Scene) (resolved : Resolved)
    (position : Nat) : Prop :=
  ∃ container name arity start inner,
    ReadsMethod o state container name arity (start, inner) ∧
    start.place.methods = state.1.place.methods ∧
    (∀ alone : Scene, c₀.Leads alone.compilation → alone.Sound →
      ListEndsAt o start alone position) ∧
    (∀ reason, container = .error reason →
      resolved = .error (.field Category.method.codec "containingType" reason)) ∧
    ∀ found, container = .ok found → ∀ alone : Scene, c₀.Leads alone.compilation → alone.Sound →
      Replayed o start alone position
        (inner.compilation.genericsBearing o .method found.candidates name arity) name resolved

/-! ## The body of a method segment -/

/-- The signature was replayed inside each candidate. -/
theorem Ready.replayAll_inv {replay : Description.Replay} (h : start.Ready inner)
    (hcandidates : ∀ m ∈ candidates, inner.compilation.Issued m)
    (hyields : (Pass.replayAll (Pass.keys (Pass.key .own o)) candidates).Yields
      (start, inner) replay
      (r', scene')) :
    start.listedDefect? o = none ∧ r' = start.afterListed o ∧
      replay = (Description.replayedAll (Description.goThrough o (start.listed o).2)
        start.place.methods candidates inner.compilation).1 := by
  have hfuses := (start.nested o).signature h.inside.faces candidates
  have hends : Ends (Description.replayAll (start.place.forward 1)
      (fun place => Decode.elements (start.listed o).1
        (Description.resolveEach o (start.listed o).2 place)) candidates) inner.compilation
      fun outcome _ => ∀ replay, outcome = .ok replay → start.listedDefect? o = none ∧
        replay = (Description.replayedAll (Description.goThrough o (start.listed o).2)
          start.place.methods candidates inner.compilation).1 :=
    .replayAll (start.place.forward 1) (Description.reads_elements _ _) h.methods hcandidates
      (fun _ _ _ _ hok => nomatch hok) fun hnone _ hok => ⟨hnone, (Except.ok.inj hok).symm⟩
  obtain ⟨outcome, after, hrun, -, -, hpost⟩ := hends inner h.sound rfl
  have hdone : (Description.replayAll (start.place.forward 1)
      (fun place => Decode.elements (start.listed o).1
        (Description.resolveEach o (start.listed o).2 place)) candidates).run inner =
          (.ok replay, scene') := hfuses.run_eq hyields
  rw [hdone] at hrun
  cases outcome with
  | error d => cases hrun
  | ok replay' =>
    cases hrun
    obtain ⟨hnone, hreplay⟩ := hpost replay rfl
    exact ⟨hnone, (hfuses.advances hyields).2, hreplay⟩

/-- The candidates of a method segment are the methods of that name among the members of its
container, if that was found. -/
def Considers (o : ResolveOptions) (c : Compilation) (name : String) (arity : Nat) :
    Resolved → List SymbolId → Prop
  | .ok found, candidates => c.methodsNamed o found.candidates name arity = .ok candidates
  | .error _, candidates => candidates = []

/-- What is left to do once the signature has been replayed. -/
def replayedTo (container : Resolved) (name : String) (replay : Description.Replay) : Resolved :=
  (part .method "containingType" container).bind fun _ => replay.outcome name

/-- Where the signature of a method begins, a later state has been reached, which knows the
containers. -/
theorem Ready.readsMethod {container : Resolved} {name : String} {arity : Nat} {start : Reader}
    {inner : Scene} (h : r.Ready scene)
    (hreads : ReadsMethod o (r, scene) container name arity (start, inner)) :
    r.Goes scene start inner ∧
      ∀ found, container = .ok found → ∀ s ∈ found.candidates, inner.compilation.Issued s := by
  obtain ⟨r₁, r₂, hkey, hname, harity⟩ := hreads
  have hgoes₁ := (h.key hkey).1
  have hready₁ := h.later hgoes₁
  have hgoes₂ := hready₁.read (.name hready₁.inside.faces) hname
  have hready₂ := hready₁.later hgoes₂
  have hgoes₃ := hready₂.read (.count hready₂.inside.faces) harity
  refine ⟨hgoes₁.trans (hgoes₂.trans hgoes₃), ?_⟩
  rintro found rfl
  exact h.knows hkey

/-- The container, the name and the arity are read, then the signature is replayed inside the
candidates, and only then is the container looked at. -/
theorem Ready.method_inv {place : Place} (h : r.Ready scene)
    (hbody : (body .own o (Pass.key .own o) place .method).Yields (r, scene) resolved
      (r', scene')) :
    ∃ container name arity start inner candidates replay after,
      ReadsMethod o (r, scene) container name arity (start, inner) ∧ r.Goes scene start inner ∧
        (∀ found, container = .ok found → ∀ s ∈ found.candidates, inner.compilation.Issued s) ∧
        Considers o inner.compilation name arity container candidates ∧
        (Pass.replayAll (Pass.keys (Pass.key .own o)) candidates).Yields (start, inner) replay
          (r', after) ∧
        resolved = replayedTo container name replay := by
  -- the container and the two slots after it are read one after the other
  obtain ⟨container, r₁, scene₁, hkey, hready₁, hnamed⟩ := h.segment_inv hbody
  obtain ⟨name, r₂, hname, hready₂, hcounted⟩ :=
    hready₁.slot_inv (.name hready₁.inside.faces) hnamed
  obtain ⟨arity, r₃, harity, -, hlooked⟩ := hready₂.slot_inv (.count hready₂.inside.faces) hcounted
  obtain ⟨candidates, mid, hcandidates, hreplayed⟩ := bind_inv hlooked
  obtain ⟨replay, ⟨r₄, scene₄⟩, hreplay, hverdict⟩ := bind_inv hreplayed
  obtain ⟨scene₅, hrequire, heq⟩ := lift_inv hverdict
  cases heq
  obtain ⟨scene₂, hquery, rfl⟩ := lift_inv hcandidates
  have hconsiders : Considers o scene₁.compilation name arity container candidates ∧
      scene₂ = scene₁ := by
    cases container with
    | ok found => exact query_inv hquery
    | error reason =>
      cases hquery
      exact ⟨rfl, rfl⟩
  obtain ⟨hconsiders, rfl⟩ := hconsiders
  have hresolved : resolved = replayedTo container name replay := by
    rcases Decode.require_inv hrequire with ⟨reason, rfl, rfl, -⟩ | ⟨found, rfl, hdone⟩
    · rfl
    · obtain ⟨fitting, failure⟩ := replay
      cases fitting <;> cases failure <;> exact (Decode.pure_inv hdone).1
  have hreads : ReadsMethod o (r, scene) container name arity (r₃, scene₂) :=
    ⟨r₁, r₂, hkey, hname, harity⟩
  obtain ⟨hgoes, hissued⟩ := h.readsMethod hreads
  exact ⟨container, name, arity, r₃, scene₂, candidates, replay, scene₄, hreads, hgoes, hissued,
    hconsiders, hreplay, hresolved⟩

theorem Ready.considers_eq {found : Resolution SymbolId} {arity : Nat} (h : start.Ready inner)
    (hissued : ∀ s ∈ found.candidates, inner.compilation.Issued s)
    (hconsiders : Considers o inner.compilation name arity (.ok found) candidates) :
    candidates = inner.compilation.genericsBearing o .method found.candidates name arity := by
  have hnamed := h.sound.closed.methodsNamed_eq (o := o) hissued name arity
  exact Except.ok.inj (hconsiders.symm.trans hnamed)

/-- What comes of the signature inside a method is what it comes to aside. -/
theorem Ready.readAlone_eq {m : SymbolId} (h : (start.pushMethod m).Ready alone)
    (hdefect : start.listedDefect? o = none) :
    ListEndsAt o (start.pushMethod m) alone (start.afterListed o).place.position ∧
      ∃ lent, start.readAlone o alone m = .ok lent ∧
        Decode.Lent ((start.listed o).1.valueOr .absent) lent
          (Description.aside o (start.listed o).2 start.place.methods alone.compilation m) := by
  obtain ⟨lent, after, hread, hcomes⟩ := h.exists_readKeys (o := o) hdefect
  refine ⟨⟨lent, after, hread⟩, lent, ?_, hcomes.lent⟩
  rw [readAlone, hread]

section Alone

variable (hclosed : c₀.Closed) (hleads : c₀.Leads alone.compilation) (hready : start.Ready alone)
  (hdefect : start.listedDefect? o = none)
include hclosed hleads hready hdefect

theorem fitsAlone_iff {m : SymbolId} (hm : c₀.Issued m) : start.FitsAlone o alone m ↔
    Description.aside o (start.listed o).2 start.place.methods alone.compilation m =
      .ok (c₀.signatureAt m) := by
  have hissued := hleads.grows.issued hm
  obtain ⟨-, lent, halone, hlent⟩ := (hready.pushMethod hissued).readAlone_eq hdefect
  rw [FitsAlone, halone, hready.sound.closed.parameterTypes_eq hissued,
    hleads.grows.signatureAt hclosed hm]
  constructor
  · rintro ⟨types, hok, hitems⟩
    cases hok
    rw [(Decode.Lent.of_ok hlent).1]
    exact congrArg _ (Except.ok.inj hitems).symm
  · intro haside
    rw [haside] at hlent
    obtain ⟨types, rfl, hitems, -⟩ := hlent
    exact ⟨types, rfl, congrArg _ hitems.symm⟩

omit hclosed in
theorem failsAlone_iff {m : SymbolId} (hm : c₀.Issued m) {reason : Failure} :
    start.readAlone o alone m = .ok (.error reason) ↔
      Description.aside o (start.listed o).2 start.place.methods alone.compilation m =
        .error reason := by
  obtain ⟨-, lent, halone, hlent⟩ :=
    (hready.pushMethod (hleads.grows.issued hm)).readAlone_eq hdefect
  rw [halone]
  constructor
  · intro herror
    cases herror
    exact Decode.Lent.of_error hlent
  · intro haside
    rw [haside] at hlent
    exact congrArg _ hlent

open Classical in
/-- Where the replays found those candidates that the signature fits, and the first failure, that is
what comes of the segment. -/
theorem replayed_of_aside {replay : Description.Replay}
    (hcandidates : ∀ m ∈ candidates, c₀.Issued m)
    (hfitting : replay.fitting = candidates.filter fun m =>
      Description.aside o (start.listed o).2 start.place.methods alone.compilation m =
        .ok (c₀.signatureAt m))
    (hfailure : replay.failure = candidates.findSome? fun m => failure?
      (Description.aside o (start.listed o).2 start.place.methods alone.compilation m)) :
    Replayed o start alone (start.afterListed o).place.position candidates name
      (replay.outcome name) := by
  have hfits {m : SymbolId} (hm : m ∈ candidates) :=
    fitsAlone_iff hclosed hleads hready hdefect (hcandidates m hm)
  have hfails {m : SymbolId} {reason : Failure} (hm : m ∈ candidates) :
      start.readAlone o alone m = .ok (.error reason) ↔ _ :=
    failsAlone_iff hleads hready hdefect (hcandidates m hm)
  have halone : replay.fitting = candidates.filter fun m => start.FitsAlone o alone m :=
    hfitting.trans (List.filter_congr fun m hm => decide_eq_decide.mpr (hfits hm).symm)
  have hnone (hmissed : ∀ m ∈ candidates, ¬ start.FitsAlone o alone m) : replay.fitting = [] := by
    rw [halone, List.filter_eq_nil_iff]
    intro m hm
    simpa using hmissed m hm
  refine ⟨fun m hm => ?_, ?_, fun hmissed before m rest reason hdivided hbefore hm => ?_,
    fun hmissed hnever => ?_⟩
  · exact ((hready.pushMethod (hleads.grows.issued (hcandidates m hm))).readAlone_eq hdefect).1
  · rintro ⟨m, hm, hfit⟩
    have hmem : m ∈ replay.fitting := by
      rw [halone, List.mem_filter]
      exact ⟨hm, decide_eq_true hfit⟩
    rw [← halone]
    exact Description.Replay.outcome_of_mem name hmem
  · -- nothing before the candidate fails
    refine Description.Replay.outcome_failed (hnone hmissed) ?_
    have hmem : m ∈ candidates := by simp [hdivided]
    have hskipped : (before.findSome? fun m => failure? (Description.aside o
        (start.listed o).2 start.place.methods alone.compilation m)) = none := by
      rw [List.findSome?_eq_none_iff]
      intro m' hm'
      have hmem' : m' ∈ candidates := by simp [hdivided, hm']
      exact failure?_eq_none fun reason' haside =>
        hbefore m' hm' reason' ((hfails hmem').mpr haside)
    rw [hfailure, hdivided, List.findSome?_append, hskipped, List.findSome?_cons,
      (hfails hmem).mp hm]
    rfl
  · refine Description.Replay.outcome_missing (hnone hmissed) ?_
    rw [hfailure, List.findSome?_eq_none_iff]
    intro m hm
    exact failure?_eq_none fun reason haside => hnever m hm reason ((hfails hm).mpr haside)

end Alone

/-- A method segment that is read to its end finds the candidates that its signature fits, when it
is read inside each of them alone, and to the same end every time. It does not matter what else has
been built. -/
theorem replays_exactly (hmade : c₀.Made fun t r => r.Issued t)
    (hleads : c₀.Leads scene.compilation) (hready : r.Ready scene)
    (hmethods : ∀ m ∈ r.place.methods, c₀.Issued m)
    (hkind : r.frames[r.place.position]? = some (.kind .method))
    (hread : r.readKey o scene = ⟨.ok resolved, r', scene'⟩) :
    ∃ position, r' = r.moved position ∧
      Replays o c₀ (r.entered, scene.entered .method r) resolved position := by
  obtain ⟨category, position, scene₁, hframe, -, -, hbody, rfl, rfl⟩ :=
    readKey_inv hready.inside hread
  obtain rfl : Category.method = category := by
    rw [hkind] at hframe
    cases hframe
    rfl
  have hentered := hready.entered hkind
  obtain ⟨container, name, arity, start, inner, candidates, replay, after, hreads, hgoes, hissued,
    hconsiders, hreplay, rfl⟩ := hentered.method_inv hbody
  have hstem := hmade.stem
  have hstart := hentered.later hgoes
  have hinner : c₀.Leads inner.compilation := hleads.trans hgoes.leads
  have houter : start.place.methods = r.place.methods := hgoes.advances.methods
  have hwithin : ∀ m ∈ start.place.methods, c₀.Issued m := houter ▸ hmethods
  -- the candidates were declared, so that every compilation that comes from the first one has them
  have hdeclared : ∀ m ∈ candidates, c₀.Issued m := by
    cases container with
    | error reason =>
      obtain rfl : candidates = [] := hconsiders
      exact fun m hm => nomatch hm
    | ok found =>
      rw [hstart.considers_eq (hissued found rfl) hconsiders]
      exact hinner.issued_methodsBearing hstart.sound.closed (hissued found rfl)
  obtain ⟨hdefect, hafter, hreplayed⟩ :=
    hstart.replayAll_inv (fun m hm => hinner.grows.issued (hdeclared m hm)) hreplay
  have hposition : position = (start.afterListed o).place.position :=
    congrArg (fun r : Reader => r.place.position) hafter
  have hother (alone : Scene) (hcalone : c₀.Leads alone.compilation) (halone : alone.Sound) :
      start.Ready alone :=
    ⟨hstart.inside, halone, fun m hm => hcalone.grows.issued (hwithin m hm)⟩
  refine ⟨position, rfl, container, name, arity, start, inner, hreads, houter, ?_, ?_, ?_⟩
  · intro alone hcalone halone
    obtain ⟨lent, scene', hlist, -⟩ := (hother alone hcalone halone).exists_readKeys hdefect
    rw [hposition]
    exact ⟨lent, scene', hlist⟩
  · rintro reason rfl
    rfl
  · rintro found rfl alone hcalone halone
    have hbranches : c₀.Branches inner.compilation alone.compilation :=
      ⟨hstem, hinner.descends hstart.sound.closed, hcalone.descends halone.closed⟩
    obtain ⟨hfitting, hfailure⟩ := Description.replayedAll_aside o (start.listed o).2
      hbranches hwithin hdeclared
    rw [← hreplayed] at hfitting hfailure
    rw [← hstart.considers_eq (hissued found rfl) hconsiders, hposition]
    exact replayed_of_aside hstem.closed hcalone (hother alone hcalone halone) hdefect hdeclared
      hfitting hfailure

/-- Of two methods `m`, one takes an array of its own type parameter and the other one an `int`. The
first one is found, in a compilation that builds an array of the other one's type parameter on the
way. -/
theorem replays_exactly_overloaded :
    let c := (Draft.ofRequests [.namedType Draft.global "C" [], .method ⟨5⟩ "m" ["T"],
      .structural (.array ⟨7⟩ 1), .parameter ⟨6⟩ "x" ⟨8⟩, .method ⟨5⟩ "m" ["T"],
      .parameter ⟨10⟩ "x" Draft.int]).finish
    let r : Reader := { frames := [.kind .method, .kind .namedType, .kind .nameSpace, .bool true,
      .text (some "C"), .int 0, .array .absent 0, .text (some "m"), .int 1, .array .populated 1,
      .kind .arrayType, .kind .typeParameterOrdinal, .int 0, .int 0, .int 1] }
    (r.readKey {} { compilation := c }).value = .ok (.ok (.symbol ⟨6⟩)) ∧
      ∃ position, Replays {} c (r.entered, ({ compilation := c } : Scene).entered .method r)
        (.ok (.symbol ⟨6⟩)) position := by
  intro c r
  have hmade : c.Made fun t r => r.Issued t :=
    .finish ((Draft.made_ofRequests (by decide)).mono fun _ _ h => h.issued)
  have hsound : ({ compilation := c } : Scene).Sound := ⟨hmade.closed, Arena.clean_empty⟩
  have hvalue : (r.readKey {} { compilation := c }).value = .ok (.ok (.symbol ⟨6⟩)) := by
    decide +kernel
  have hready : r.Ready { compilation := c } := ⟨Nat.zero_le _, hsound, fun m hm => nomatch hm⟩
  obtain ⟨position, -, hreplays⟩ := replays_exactly hmade (.refl c) hready (fun m hm => nomatch hm)
    (show r.frames[r.place.position]? = some (.kind .method) from rfl) (Outcome.eq_mk hvalue)
  exact ⟨hvalue, position, hreplays⟩

end Reader

end Moniker
