import Mathlib.Data.List.Nodup
import Moniker.Proofs.Blaming
import Moniker.Proofs.Ranging
import Moniker.Proofs.Sparing

/-!
# Candidates are proper

What a segment comes to is one symbol, or at least two different ones (`Resolution.Proper`). Lookups
collapse what they find. Array types and pointer types are built over whatever their element type or
pointed-at type came to, one for each candidate, and are compared with each other no more. That they
differ is up to the table: a symbol answers for one shape only (`SymbolTable.TellsApart`), in every
compilation that requests for issued symbols and keys lead to.

`Key.candidates_proper` says so of a key and of all the segments that are read in it, wherever they
stand and however often they are read. So no element of an array is ever without a candidate.
-/

namespace Moniker

open List

/-- One symbol, or several that are all different. -/
def Resolution.Proper {α : Type} : Resolution α → Prop
  | .symbol _ => True
  | .ambiguous several => 2 ≤ several.length ∧ several.Nodup

instance {α : Type} [DecidableEq α] : DecidablePred fun r : Resolution α => r.Proper
  | .symbol _ => inferInstanceAs (Decidable True)
  | .ambiguous several => inferInstanceAs (Decidable (2 ≤ several.length ∧ several.Nodup))

example : ¬ (Resolution.ambiguous [1]).Proper := by decide

/-- What a lookup collapses to is proper. -/
theorem Resolution.proper_ofCandidates {found : List SymbolId} {missing : Failure}
    {r : Resolution SymbolId} (h : ofCandidates found missing = .ok r) : r.Proper := by
  have hnodup := nodup_ofCandidates h
  cases r with
  | symbol s => trivial
  | ambiguous several =>
    have hone : several.length ≠ 1 := length_ofCandidates h
    have hnone : several.length ≠ 0 := by
      intro hempty
      have herased : several = found.eraseDups := candidates_ofCandidates h
      rw [length_eq_zero_iff.mp hempty] at herased
      rw [ofCandidates, ← herased] at h
      cases h
    exact ⟨by omega, hnodup⟩

/-! ## Shapes are told apart -/

namespace SymbolTable

/-- A symbol answers for one shape only. -/
def TellsApart (t : SymbolTable) : Prop :=
  ∀ shape shape' s, t.interned.lookup shape = some s → t.interned.lookup shape' = some s →
    shape = shape'

/-- New answers are new symbols, and different ones for different shapes. -/
theorem Traces.tellsApart {t₀ t : SymbolTable} (h : t₀.Traces t) (hclosed : t₀.Closed)
    (hapart : t₀.TellsApart) : t.TellsApart := by
  -- the shapes that had an answer have kept it, and that was issued before
  have hold {shape s s'} (hbefore : t₀.interned.lookup shape = some s')
      (hnow : t.interned.lookup shape = some s) : t₀.interned.lookup shape = some s := by
    rwa [Option.some.inj (hnow.symm.trans (h.grows.interned shape s' hbefore))]
  intro shape shape' s hs hs'
  cases hbefore : t₀.interned.lookup shape with
  | some _ =>
    have hissued := hold hbefore hs
    cases hbefore' : t₀.interned.lookup shape' with
    | some _ => exact hapart shape shape' s hissued (hold hbefore' hs')
    | none =>
        exact absurd (hclosed.interned shape s hissued) (h.erected shape' s ⟨hbefore', hs'⟩).new
  | none =>
    cases hbefore' : t₀.interned.lookup shape' with
    | some _ =>
      exact absurd (hclosed.interned shape' s (hold hbefore' hs'))
        (h.erected shape s ⟨hbefore, hs⟩).new
    | none => exact h.injective shape shape' s ⟨hbefore, hs⟩ ⟨hbefore', hs'⟩

end SymbolTable

namespace Compilation

open SymbolTable

variable {c c' : Compilation} {build : Compilation → SymbolId → SymbolId × Compilation}
  {shape : SymbolId → Shape}

/-- A compilation without loose ends whose types can be told apart by their shapes. -/
structure Discerns (c : Compilation) : Prop where
  stem : c.Stem
  apart : c.table.TellsApart

theorem Made.discerns (h : c.Made fun t r => r.Issued t) : c.Discerns := by
  refine ⟨h.stem, ?_⟩
  refine (h.table (fun _ _ hr => hr) (P := fun t => t.Closed ∧ t.TellsApart)
    ⟨Draft.closed_empty, fun shape _ s hs => by cases hs⟩ fun t r ht hr => ?_).1.2
  refine ⟨(r.after_closed ht.1 hr).1, ?_⟩
  by_cases hstructural : ∃ request, r = .structural request
  · obtain ⟨request, rfl⟩ := hstructural
    exact ((Traces.refl t).asked (request.asked_after hr)).tellsApart ht.1 ht.2
  · unfold TellsApart
    rw [Request.interned_after fun request heq => hstructural ⟨request, heq⟩]
    exact ht.2

theorem Discerns.later (h : c.Discerns) (hleads : c.Leads c') (hclosed : c'.Closed) :
    c'.Discerns where
  stem :=
    { closed := hclosed
      grounded := hleads.grounded h.stem.grounded hclosed.table
      hiddenContainers := hleads.grows.hiddenContainers.trans h.stem.hiddenContainers
      hiddenTypes := hleads.grows.hiddenTypes.trans h.stem.hiddenTypes }
  apart := hleads.traces.tellsApart h.stem.closed.table h.apart

theorem Reachable.discerns (h : c.Reachable) : c.Discerns := by
  induction h with
  | made hmade => exact hmade.discerns
  | request h hissued hrun ih =>
      exact ih.later (.request hrun) (Reachable.request h hissued hrun).closed
  | resolved h hclean o k ih =>
    obtain ⟨-, hleads, hsound, -⟩ := k.resolveIn_again o ⟨h.closed, hclean⟩
    exact ih.later hleads hsound.closed

/-! ## Building over candidates -/

/-- What is built out of a symbol answers for a shape, which tells the symbol. -/
structure BuildsOver (build : Compilation → SymbolId → SymbolId × Compilation)
    (shape : SymbolId → Shape) : Prop where
  leads : ∀ c s, Leads c (build c s).2
  lookup : ∀ c s, (build c s).2.table.interned.lookup (shape s) = some (build c s).1
  injective : Function.Injective shape

theorem buildsOver_arrayType (rank : UInt64) :
    BuildsOver (fun c s => c.arrayType s rank) fun s => .array s rank where
  leads c s := (settled_arrayType s rank).leads c
  lookup c s := SymbolTable.lookup_intern (.array s rank) (add _) c.table
  injective _ _ h := (Shape.array.inj h).1

theorem buildsOver_pointerType : BuildsOver (fun c s => c.pointerType s) .pointer where
  leads c s := (settled_pointerType s).leads c
  lookup c s := SymbolTable.lookup_intern (.pointer s) (add _) c.table
  injective _ _ h := Shape.pointer.inj h

/-- What is built out of symbols one after the other answers for their shapes. -/
theorem BuildsOver.answers (h : BuildsOver build shape) (symbols : List SymbolId)
    (c : Compilation) :
    c.Leads (buildEach build symbols c).2 ∧
      Forall₂ (fun s a => (buildEach build symbols c).2.table.interned.lookup (shape s) = some a)
        symbols
        (buildEach build symbols c).1 := by
  have hbuild (s : SymbolId) (_ : s ∈ symbols) (now : Compilation) (_ : c.Grows now)
      (hnow : c.Leads now) : now.Grows (build now s).2 ∧ c.Leads (build now s).2 ∧
        (build now s).2.table.interned.lookup (shape s) = some (build now s).1 :=
    ⟨(h.leads now s).grows, hnow.trans (h.leads now s), h.lookup now s⟩
  exact (buildEach_keeps (P := c.Leads)
    (Q := fun c s a => c.table.interned.lookup (shape s) = some a)
    (fun _ _ _ _ hgrows _ hanswer => hgrows.table.interned _ _ hanswer) hbuild c (.refl c)
      (.refl c)).2

/-- Out of different symbols, different ones are built. -/
theorem BuildsOver.nodup (h : BuildsOver build shape) (hclosed : c.Closed)
    (hapart : c.table.TellsApart) {symbols : List SymbolId} (hsymbols : symbols.Nodup) :
    (buildEach build symbols c).1.Nodup := by
  obtain ⟨hleads, hanswers⟩ := h.answers symbols c
  have hapart' := hleads.traces.tellsApart hclosed.table hapart
  have hunique : Relator.BiUnique fun s a =>
      (buildEach build symbols c).2.table.interned.lookup (shape s) = some a :=
    ⟨fun s s' a hs hs' => h.injective (hapart' _ _ a hs hs'),
      fun s a a' ha ha' => Option.some.inj (ha.symm.trans ha')⟩
  exact (rel_nodup hunique hanswers).mp hsymbols

end Compilation

open Compilation

/-- What is built over something proper is proper. -/
theorem Resolution.Proper.rebuilt {c : Compilation} {r : Resolution SymbolId}
    {build : Compilation → SymbolId → SymbolId × Compilation} {shape : SymbolId →
      Shape} (hr : r.Proper)
    (h : BuildsOver build shape) (hclosed : c.Closed) (hapart : c.table.TellsApart) :
    (r.rebuilt build c).1.Proper := by
  cases r with
  | symbol s => trivial
  | ambiguous several =>
    obtain ⟨hseveral, hnodup⟩ := hr
    exact ⟨(length_buildEach several c).symm ▸ hseveral, h.nodup hclosed hapart hnodup⟩

namespace Description

variable {o : ResolveOptions} {d : Description} {methods : List SymbolId} {c : Compilation}

/-- Locating a description comes to a later state, in which what is new goes back to shapes. -/
theorem descends_locate (hstem : c.Stem) (hmethods : ∀ m ∈ methods, c.Issued m) :
    c.Descends (locate o d methods c).2 := by
  have hc : c.Descends c := ⟨.refl c, hstem.closed, .refl _⟩
  exact (locate_matched o c d ⟨hstem, hc, hc⟩
    (forall₂_same.mpr fun m hm => .old (hmethods m hm))).branches.left

/-- What a description resolves to is proper. -/
theorem locate_proper (hdiscerns : c.Discerns) (hmethods : ∀ m ∈ methods, c.Issued m)
    {found : Resolution SymbolId} (h : (locate o d methods c).1 = .ok found) : found.Proper := by
  have hrebuilt {build : Compilation → SymbolId → SymbolId × Compilation} {shape : SymbolId → Shape}
      (hbuilds : BuildsOver build shape) (d : Description) (r : Resolution SymbolId)
        (hr : r.Proper) :
      (r.rebuilt build (locate o d methods c).2).1.Proper := by
    have hlater := descends_locate (o := o) (d := d) hdiscerns.stem hmethods
    exact hr.rebuilt hbuilds hlater.closed
      (hlater.traces.tellsApart hdiscerns.stem.closed.table hdiscerns.apart)
  refine locate_outcome
    (P := fun resolved => ∀ found, resolved = .ok found → found.Proper) (fun _ _ h => nomatch h)
    ?_ (fun _ _ _ h => Resolution.proper_ofCandidates h) ?_ ?_ d found h
  · rintro s _ ⟨⟩
    trivial
  · rintro d r rank - hr _ ⟨⟩
    exact hrebuilt (buildsOver_arrayType rank) d r (hr r rfl)
  · rintro d r - hr _ ⟨⟩
    exact hrebuilt buildsOver_pointerType d r (hr r rfl)

end Description

/-! ## Vacancies -/

/-- Some link is about an element of an array that resolved to no candidate at all. -/
def Failure.Vacant (reason : Failure) : Prop :=
  ∃ detail, .notFound "SymbolKey" detail ∈ reason.chain

/-- A segment came to something proper, or it failed and there was no vacancy. -/
def Decode.Proper : Resolved → Prop
  | .ok found => found.Proper
  | .error reason => ¬ reason.Vacant

theorem Failure.vacant_field {codec part : String} {cause : Failure} :
    (Failure.field codec part cause).Vacant ↔ cause.Vacant := by
  simp [Vacant, chain]

theorem Failure.vacant_element {index : Nat} {cause : Failure} :
    (Failure.element index cause).Vacant ↔ cause.Vacant := by
  simp [Vacant, chain]

theorem Failure.not_vacant_notInCompilation (path : String) : ¬ (notInCompilation path).Vacant := by
  simp [Vacant, chain]

theorem Failure.not_vacant_notFound (category : Category) (name : String) :
    ¬ (notFound category.codec name).Vacant := by
  have hcodec : category.codec ≠ "SymbolKey" := by cases category <;> decide
  simp [Vacant, chain, Ne.symm hcodec]

theorem Category.Leaf.not_vacant {category : Category} {reason : Failure}
    (h : category.Leaf reason) :
    ¬ reason.Vacant := by
  cases h with
  | notFound _ name => exact Failure.not_vacant_notFound category name
  | rejected _ _ | unbound _ => simp [Failure.Vacant, Failure.chain]

namespace Reader

variable {o : ResolveOptions} {r r' : Reader} {scene scene' : Scene} {reason : Failure}

/-- A failure that can be traced comes from something else than a vacancy. -/
theorem Blames.not_vacant (h : Blames o r scene reason) : ¬ reason.Vacant := by
  induction h with
  | leaf _ _ _ hleaf => exact hleaf.not_vacant
  | segment _ _ _ _ _ ih => rwa [Failure.vacant_field]
  | element _ _ _ _ _ _ ih => rwa [Failure.vacant_field, Failure.vacant_element]
  | location =>
    rw [Failure.vacant_field, Failure.vacant_element]
    exact Failure.not_vacant_notInCompilation _
  | signature _ _ _ _ _ _ ih => rwa [Failure.vacant_field, Failure.vacant_element]
  | unfitting => exact Failure.not_vacant_notFound _ _

/-! ## Segments in a segment -/

/-- What can begin where a reader stands. -/
inductive Opening where
  | segment
  | array

/-- While the segment that begins in the first state is read, a segment or an array of segments
begins in the other state. The signature of a method begins anew for each candidate of the method's
name and arity, and once more where there is none. -/
inductive Opens (o : ResolveOptions) (r : Reader) (scene : Scene) : Opening → Reader → Scene → Prop
  | self : Opens o r scene .segment r scene
  | part {r₁ r₂ : Reader} {scene₁ scene₂ : Scene} {category : Category}
    {before : List (Piece × Option Failure)} {rest : List Piece} {label : String}
    (h : Opens o r scene .segment r₁ scene₁)
    (hkind : r₁.frames[r₁.place.position]? = some (.kind category))
    (hlayout : category.layout = before.map Prod.fst ++ .segment label :: rest)
    (hrow : Row (ReadsPiece o) (r₁.entered, scene₁.entered category r₁) before (r₂, scene₂)) :
    Opens o r scene .segment r₂ scene₂
  | parts {r₁ r₂ : Reader} {scene₁ scene₂ : Scene} {category : Category}
    {before : List (Piece × Option Failure)} {rest : List Piece} {label : String}
    (h : Opens o r scene .segment r₁ scene₁)
    (hkind : r₁.frames[r₁.place.position]? = some (.kind category))
    (hlayout : category.layout = before.map Prod.fst ++ .segments label :: rest)
    (hrow : Row (ReadsPiece o) (r₁.entered, scene₁.entered category r₁) before (r₂, scene₂)) :
    Opens o r scene .array r₂ scene₂
  | element {r₁ r₂ : Reader} {scene₁ scene₂ : Scene} (h : Opens o r scene .array r₁ scene₁)
    (hat : AtElement o (r₁, scene₁) (r₂, scene₂)) : Opens o r scene .segment r₂ scene₂
  | signature {r₁ start : Reader} {scene₁ inner scene₂ : Scene} {found : Resolution SymbolId}
    {name : String} {arity : Nat} {tries : List Try} {m : SymbolId} {rest : List SymbolId}
    (h : Opens o r scene .segment r₁ scene₁)
    (hkind : r₁.frames[r₁.place.position]? = some (.kind .method))
    (hmethod : ReadsMethod o (r₁.entered, scene₁.entered .method r₁) (.ok found) name arity
      (start, inner))
    (hcandidates : inner.compilation.genericsBearing o .method found.candidates name arity =
      tries.map Prod.fst ++ m :: rest)
    (htries : Row (Tries o start) inner tries scene₂) :
    Opens o r scene .array (start.pushMethod m) scene₂
  | skipped {r₁ start : Reader} {scene₁ inner : Scene} {container : Resolved} {name : String}
    {arity : Nat} (h : Opens o r scene .segment r₁ scene₁)
    (hkind : r₁.frames[r₁.place.position]? = some (.kind .method))
    (hmethod : ReadsMethod o (r₁.entered, scene₁.entered .method r₁) container name arity
      (start, inner))
    (hnone : ∀ found, container = .ok found →
      inner.compilation.genericsBearing o .method found.candidates name arity = []) :
    Opens o r scene .array start inner

namespace Ready

variable (h : r.Ready scene)
include h

/-- Wherever a segment or an array begins, the reader is ready, and no more than structural types
have been built. -/
theorem opens {opening : Opening} (hopens : Opens o r scene opening r' scene') :
    r'.Ready scene' ∧ scene.compilation.Leads scene'.compilation := by
  have hgo {r₁ r₂ : Reader} {scene₁ scene₂ : Scene}
      (hbefore : r₁.Ready scene₁ ∧ scene.compilation.Leads scene₁.compilation)
      (hgoes : r₁.Goes scene₁ r₂ scene₂) :
      r₂.Ready scene₂ ∧ scene.compilation.Leads scene₂.compilation :=
    ⟨hbefore.1.later hgoes, hbefore.2.trans hgoes.leads⟩
  have henter {r₁ : Reader} {scene₁ : Scene} {category : Category}
      (hbefore : r₁.Ready scene₁ ∧ scene.compilation.Leads scene₁.compilation)
      (hkind : r₁.frames[r₁.place.position]? = some (.kind category)) :
      r₁.entered.Ready (scene₁.entered category r₁) ∧
        scene.compilation.Leads (scene₁.entered category r₁).compilation :=
    ⟨hbefore.1.entered hkind, hbefore.2⟩
  induction hopens with
  | self => exact ⟨h, .refl _⟩
  | part _ hkind _ hrow ih | parts _ hkind _ hrow ih =>
    have hentered := henter ih hkind
    exact hgo hentered (hentered.1.pieces hrow)
  | element _ hat ih => exact hgo ih (ih.1.atElement hat)
  | skipped _ hkind hmethod _ ih =>
    have hentered := henter ih hkind
    exact hgo hentered (hentered.1.readsMethod hmethod).1
  | @signature _ start _ inner _ found _ _ tries m rest _ hkind hmethod hcandidates htries ih =>
    have hentered := henter ih hkind
    obtain ⟨hgoes, hcontainers⟩ := hentered.1.readsMethod hmethod
    obtain ⟨hstart, hleads⟩ := hgo hentered hgoes
    have hissued : ∀ m' ∈ tries.map Prod.fst ++ m :: rest, inner.compilation.Issued m' := by
      rw [← hcandidates]
      exact hstart.sound.closed.issued_genericsBearing (hcontainers found rfl)
    obtain ⟨hready, hmore⟩ := hstart.triedAll
      (fun t ht => hissued t.1 (mem_append_left _ (mem_map_of_mem ht))) htries
    have hm := hissued m (mem_append_right _ mem_cons_self)
    exact ⟨hready.pushMethod (hmore.grows.issued hm), hleads.trans hmore⟩

/-- A segment that is read to its end comes to something proper. -/
theorem proper (hdiscerns : scene.compilation.Discerns) {resolved : Resolved}
    {after : Reader × Scene} (hread : ReadsKey o (r, scene) resolved after) :
    Decode.Proper resolved := by
  cases resolved with
  | ok found => exact Description.locate_proper hdiscerns h.methods (h.located hread).1.symm
  | error reason => exact (h.blames hread).not_vacant

/-- If an array of segments fails, there was no vacancy. -/
theorem not_vacant (hread : r.readKeys o scene = ⟨.ok (.error reason), r', scene'⟩) :
    ¬ reason.Vacant := by
  obtain ⟨index, cause, ⟨r₂, scene₂⟩, after, rfl, hreach, helement⟩ := h.element_of_readKeys hread
  have hready := h.later (h.reachesElement hreach)
  rw [Failure.vacant_element]
  exact (hready.blames helement).not_vacant

end Ready
end Reader

namespace Key

variable {scene : Scene}

/-- In a compilation that requests for issued symbols and keys have led to, a key that is read to
its end comes to one symbol, or to at least two that are all different, or it fails, and so does
every segment that is read on the way. Where a segment or an array of segments fails, it is not for
want of a candidate. -/
theorem candidates_proper (hreachable : scene.compilation.Reachable) (hclean : scene.arena.Clean)
    (o : ResolveOptions) (k : Key) :
    (∀ resolved, (k.resolveIn o scene).1 = .ok resolved → Decode.Proper resolved) ∧
    (∀ r scene' resolved after, Reader.Opens o { frames := k.frames } scene .segment r scene' →
      Reader.ReadsKey o (r, scene') resolved after → Decode.Proper resolved) ∧
    ∀ r scene' reason r' scene'', Reader.Opens o { frames := k.frames } scene .array r scene' →
      r.readKeys o scene' = ⟨.ok (.error reason), r', scene''⟩ → ¬ reason.Vacant := by
  have hready : ({ frames := k.frames } : Reader).Ready scene :=
    ⟨Nat.zero_le _, ⟨hreachable.closed, hclean⟩, fun m hm => nomatch hm⟩
  refine ⟨fun resolved hresolve => ?_, fun r scene' resolved after hopens hread => ?_,
    fun r scene' reason r' scene'' hopens hread => ?_⟩
  · obtain ⟨r', scene', hkey⟩ := readKey_of_resolveIn hresolve
    have hread : Reader.ReadsKey o ({ frames := k.frames }, scene) resolved (r', scene') := hkey
    exact hready.proper hreachable.discerns hread
  · obtain ⟨hready', hleads⟩ := hready.opens hopens
    exact hready'.proper (hreachable.discerns.later hleads hready'.sound.closed) hread
  · exact (hready.opens hopens).1.not_vacant hread

/-- There are two classes `C`, so that there are two array types of `C`. -/
theorem candidates_proper_array :
    let c :=
      (Draft.ofRequests [.namedType Draft.global "C" [], .namedType Draft.global "C" []]).finish
    let k : Key := .ofFrames [.kind .arrayType, .kind .namedType, .kind .nameSpace, .bool true,
      .text (some "C"), .int 0, .array .absent 0, .int 1]
    let r : Reader := { frames := k.frames }
    (k.resolveIn {} { compilation := c }).1 = .ok (.ok (.ambiguous [⟨7⟩, ⟨8⟩])) ∧
      (Resolution.ambiguous [SymbolId.mk 7, SymbolId.mk 8]).Proper ∧
      ∃ scene after, Reader.Opens {} r { compilation := c } .segment r.entered scene ∧
        Reader.ReadsKey {} (r.entered, scene) (.ok (.ambiguous [⟨5⟩, ⟨6⟩])) after ∧
        (Resolution.ambiguous [SymbolId.mk 5, SymbolId.mk 6]).Proper := by
  intro c k r
  have hmade : c.Made fun t r => r.Issued t :=
    .finish ((Draft.made_ofRequests (by decide)).mono fun _ _ h => h.issued)
  have hreachable : ({ compilation := c } : Scene).compilation.Reachable := .made hmade
  obtain ⟨hroot, hnested, -⟩ := candidates_proper hreachable Arena.clean_empty {} k
  have hresolve : (k.resolveIn {} { compilation := c }).1 = .ok (.ok (.ambiguous [⟨7⟩, ⟨8⟩])) := by
    decide +kernel
  -- the element type begins after the kind frame
  have hopens : Reader.Opens {} r { compilation := c } .segment r.entered
      (({ compilation := c } : Scene).entered .arrayType r) :=
    .part .self (show r.frames[r.place.position]? = some (.kind .arrayType) from rfl)
      (show Category.arrayType.layout = [].map Prod.fst ++ .segment "elementType" ::
        [.count] from rfl)
      (.nil _)
  have hvalue : (r.entered.readKey {} (({ compilation := c } : Scene).entered .arrayType r)).value =
      .ok (.ok (.ambiguous [⟨5⟩, ⟨6⟩])) := by
    decide +kernel
  obtain ⟨after, hread⟩ : ∃ after, Reader.ReadsKey {} (r.entered,
      ({ compilation := c } : Scene).entered .arrayType r) (.ok (.ambiguous [⟨5⟩, ⟨6⟩])) after :=
    ⟨(_, _), Reader.Outcome.eq_mk hvalue⟩
  exact ⟨hresolve, hroot _ hresolve, _, after, hopens, hread, hnested _ _ _ after hopens hread⟩

end Key
end Moniker
