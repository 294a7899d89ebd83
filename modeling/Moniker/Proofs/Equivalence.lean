import Mathlib.Logic.Function.Basic
import Moniker.Proofs.Conservative
import Moniker.Proofs.Grammar
import Moniker.Proofs.Relating
import Moniker.Proofs.Renaming

/-!
# Equivalent keys

Keys that agree up to the case of their texts decode alike when case is ignored. Both scan alike,
for scanning does not look at texts. What is left is that locating compares names only in the way of
the options, so that other spellings which the options cannot tell apart lead the same way
(`Description.unmoved`). Tuples and anonymous types are left out: what they are made of keeps the
spelling. Equivalent keys are brought to one spelling by taking one representative for all texts
with the same lower-case form.
-/

namespace Moniker

open List

/-! ## Reasons up to their wording -/

/-- The chain of reasons without names, paths and details: the kinds of its links, the codecs, parts
and indexes in them. -/
def Failure.bare : Failure → Failure
  | .notFound codec _ => .notFound codec ""
  | .rejected codec _ => .rejected codec ""
  | .notInCompilation _ => .notInCompilation ""
  | .unbound codec _ => .unbound codec ""
  | .field codec name cause => .field codec name cause.bare
  | .element index cause => .element index cause.bare

/-- Two outcomes are the same value, or failures for reasons that differ at most in their
wording. -/
inductive Akin {α : Type} : Except Failure α → Except Failure α → Prop
  | ok (a : α) : Akin (.ok a) (.ok a)
  | error {reason reason' : Failure} (h : reason'.bare = reason.bare) :
    Akin (.error reason) (.error reason')

namespace Akin

variable {α β : Type} {x y : Except Failure α}

theorem refl (x : Except Failure α) : Akin x x := by
  cases x with
  | error reason => exact .error rfl
  | ok a => exact .ok a

theorem bind {f f' : α → Except Failure β} (h : Akin x y) (hf : ∀ a, Akin (f a) (f' a)) :
    Akin (x.bind f) (y.bind f') := by
  cases h with
  | error h => exact .error h
  | ok a => exact hf a

theorem part (h : Akin x y) (category : Category) (name : String) :
    Akin (Moniker.part category name x) (Moniker.part category name y) := by
  cases h with
  | error h => exact .error (congrArg (Failure.field category.codec name) h)
  | ok a => exact .ok a

theorem gathered {xs ys : List (Except Failure α)} (h : Forall₂ Akin xs ys) (index : Nat) :
    Akin (Moniker.gathered index xs) (Moniker.gathered index ys) := by
  induction h generalizing index with
  | nil => exact .ok []
  | cons hhead _ ih =>
      cases hhead with
      | error h => exact .error (congrArg (Failure.element index) h)
      | ok a => exact (ih (index + 1)).bind fun as => .ok (a :: as)

theorem first {x y : Resolved} (h : Akin x y) : Akin (Decode.first x) (Decode.first y) := by
  cases h with
  | error h => exact .error h
  | ok r => exact refl _

theorem ofCandidates (found : List SymbolId) {missing missing' : Failure}
    (h : missing'.bare = missing.bare) :
    Akin (Resolution.ofCandidates found missing) (Resolution.ofCandidates found missing') := by
  unfold Resolution.ofCandidates
  split
  · exact .error h
  · exact .ok _
  · exact .ok _

/-- Akin outcomes are the same once the wording is taken away. -/
theorem mapError_bare (h : Akin x y) : x.mapError Failure.bare = y.mapError Failure.bare := by
  cases h with
  | error h => exact congrArg Except.error h.symm
  | ok a => rfl

end Akin

/-- Two runs come to akin outcomes, and leave the same compilation. -/
structure Agrees {α : Type} (x y : Except Failure α × Compilation) : Prop where
  outcome : Akin x.1 y.1
  after : y.2 = x.2

theorem Agrees.refl {α : Type} (x : Except Failure α × Compilation) : Agrees x x := ⟨.refl x.1, rfl⟩

/-! ## Spellings that are not told apart -/

/-- The options compare names alike in the spelling `f`. -/
def ResolveOptions.Blurs (o : ResolveOptions) (f : String → String) : Prop :=
  ∀ a b, o.namesMatch a (f b) = o.namesMatch a b

theorem ResolveOptions.Blurs.valueOr {o : ResolveOptions} {f : String → String} (h : o.Blurs f)
    (name : Slot String) (a : String) :
    o.namesMatch a (Slot.valueOr "" (name.map f)) = o.namesMatch a (name.valueOr "") := by
  cases name with
  | error d => rfl
  | ok name => exact h a name

namespace Compilation

variable {c : Compilation} {o : ResolveOptions} {name name' : String}
  (h : ∀ a, o.namesMatch a name' = o.namesMatch a name)
include h

theorem bearing_congr (symbols : List SymbolId) :
    c.bearing o symbols name' = c.bearing o symbols name := by
  simp only [bearing, h]

theorem genericsBearing_congr (kind : SymbolKind) (containers : List SymbolId) (arity : Nat) :
    c.genericsBearing o kind containers name' arity =
      c.genericsBearing o kind containers name arity := by
  simp only [genericsBearing, membersBearing, bearing_congr h]

theorem propertiesBearing_congr (containers types : List SymbolId) :
    c.propertiesBearing o containers name' types = c.propertiesBearing o containers name types := by
  simp only [propertiesBearing, membersBearing, bearing_congr h]

theorem localsBearing_congr (methods : List SymbolId) (ordinal : Nat) :
    c.localsBearing o methods name' ordinal = c.localsBearing o methods name ordinal := by
  simp only [localsBearing, h]

end Compilation

namespace Description

mutual

/-- Whether no segment is of a tuple type or an anonymous type. -/
def nominal : Description → Bool
  | unreadable _ | unflagged _ | global | typeParameterOrdinal _ _ => true
  | tupleType .. | anonymousType .. => false
  | nameSpace container _ | field container _ => container.nominal
  | typeParameter owner _ | parameter owner _ | localVariable owner _ _ => owner.nominal
  | arrayType element _ => element.nominal
  | pointerType pointee => pointee.nominal
  | namedType container _ _ _ arguments => container.nominal && nominalEach arguments
  | property container _ _ parameters => container.nominal && nominalEach parameters
  | method container _ _ _ parameters => container.nominal && nominalEach parameters

def nominalEach : List Description → Bool
  | [] => true
  | d :: rest => d.nominal && nominalEach rest

end

@[simp] theorem nominalEach_eq (ds : List Description) : nominalEach ds = ds.all nominal := by
  induction ds with
  | nil => rfl
  | cons d rest ih => rw [nominalEach, ih, List.all_cons]

/-! ## Locating -/

open Compilation

variable {o : ResolveOptions} {f : String → String}

/-- In the other spelling a description leads the same way, and leaves the same compilation. -/
def Unmoved (o : ResolveOptions) (f : String → String) (d : Description) : Prop :=
  ∀ (methods : List SymbolId) (c : Compilation),
    Agrees (locate o d methods c) (locate o (d.rename f) methods c)

theorem unmoved_each {ds : List Description} (h : ∀ d ∈ ds, Unmoved o f d)
    (methods : List SymbolId) (c : Compilation) :
    Forall₂ Akin (locateEach o ds methods c).1 (locateEach o (ds.map (rename f)) methods c).1 ∧
      (locateEach o (ds.map (rename f)) methods c).2 = (locateEach o ds methods c).2 := by
  induction ds generalizing c with
  | nil => exact ⟨.nil, rfl⟩
  | cons d rest ih =>
      obtain ⟨hhead, hafter⟩ := h d (by simp) methods c
      obtain ⟨htail, hend⟩ := ih (fun d hd => h d (by simp [hd])) (locate o d methods c).2
      rw [List.map_cons, locateEach, locateEach, hafter]
      exact ⟨.cons hhead.first htail, hend⟩

/-- Signatures that lead the same way have the same fitting candidates. -/
structure Replay.Akin (replay replay' : Replay) : Prop where
  fitting : replay'.fitting = replay.fitting
  failure : replay'.failure.map Failure.bare = replay.failure.map Failure.bare

theorem Replay.Akin.after {replay replay' : Replay} (h : replay.Akin replay') (candidate : SymbolId)
    (expected : List SymbolId) {types types' : Except Failure (List SymbolId)}
    (htypes : Moniker.Akin types types') :
    (replay.after candidate expected types).Akin (replay'.after candidate expected types') := by
  cases htypes with
  | error hreason =>
      refine ⟨h.fitting, ?_⟩
      have hfailure := h.failure
      cases hbefore : replay.failure <;> cases hbefore' : replay'.failure <;>
        simp_all [Replay.after]
  | ok types =>
      simp only [Replay.after]
      split
      · exact ⟨by rw [h.fitting], h.failure⟩
      · exact h

theorem Replay.Akin.outcome {replay replay' : Replay} (h : replay.Akin replay')
    {name name' : String} :
    Moniker.Akin (replay.outcome name) (replay'.outcome name') := by
  obtain ⟨hfitting, hfailure⟩ := h
  have hfound (fitting : List SymbolId) :
      Moniker.Akin (found .method name fitting) (found .method name' fitting) := .ofCandidates _ rfl
  unfold Replay.outcome
  rw [hfitting]
  cases replay.fitting with
  | cons m rest => exact hfound (m :: rest)
  | nil =>
      cases hreason : replay.failure <;> cases hreason' : replay'.failure <;>
        simp only [hreason, hreason', Option.map_some, Option.map_none, Option.some.injEq,
          reduceCtorEq] at hfailure
      · exact hfound []
      · exact .error (congrArg (Failure.field _ _) hfailure)

section Replays

variable {signature signature' : List SymbolId → Compilation →
    Except Failure (List SymbolId) × Compilation}
  (h : ∀ methods c, Agrees (signature methods c) (signature' methods c))
include h

theorem unmoved_replayed (methods : List SymbolId) :
    ∀ (candidates : List SymbolId) {sofar sofar' : Replay} (c : Compilation), sofar.Akin sofar' →
      (replayed signature methods candidates sofar c).1.Akin
          (replayed signature' methods candidates sofar' c).1 ∧
        (replayed signature' methods candidates sofar' c).2 =
          (replayed signature methods candidates sofar c).2
  | [], _, _, _, hsofar => ⟨hsofar, rfl⟩
  | candidate :: rest, _, _, c, hsofar => by
      obtain ⟨htypes, hafter⟩ := h (methods ++ [candidate]) c
      rw [replayed, replayed, hafter]
      exact unmoved_replayed methods rest _ (hsofar.after candidate _ htypes)

theorem unmoved_replayedAll (methods candidates : List SymbolId) (c : Compilation) :
    (replayedAll signature methods candidates c).1.Akin
        (replayedAll signature' methods candidates c).1 ∧
      (replayedAll signature' methods candidates c).2 =
        (replayedAll signature methods candidates c).2 := by
  unfold replayedAll
  split
  · exact ⟨⟨rfl, rfl⟩, (h methods c).after⟩
  · exact unmoved_replayed h methods candidates c ⟨rfl, rfl⟩

end Replays

/-- The name is only mentioned when nothing can be constructed. -/
theorem unmoved_constructedAt (name name' : String) (presence : Presence)
    (definitions arguments : List SymbolId) (c : Compilation) :
    Agrees (constructedAt name presence definitions arguments c)
      (constructedAt name' presence definitions arguments c) := by
  unfold constructedAt
  split
  · exact ⟨.ofCandidates _ rfl, rfl⟩
  · exact ⟨.ofCandidates _ rfl, rfl⟩

theorem unmoved_namedType {container : Description} {name : Slot String} {arity : Slot Nat}
    {presence : Slot Presence} {arguments : List Description} (hblurs : o.Blurs f)
    (hcontainer : Unmoved o f container) (harguments : ∀ d ∈ arguments, Unmoved o f d) :
    Unmoved o f (namedType container name arity presence arguments) := by
  intro methods c
  obtain ⟨houter, hafter⟩ := hcontainer methods c
  obtain ⟨hinner, hend⟩ := unmoved_each harguments methods (locate o container methods c).2
  have hname := hblurs.valueOr name
  simp only [rename, renameEach_eq, locate, hafter, hend, genericsBearing_congr hname]
  have htypes := Akin.gathered hinner 0
  generalize (locate o container methods c).1 = x at houter ⊢
  generalize (locate o (container.rename f) methods c).1 = y at houter ⊢
  generalize gathered 0 _ = x' at htypes ⊢
  generalize gathered 0 _ = y' at htypes ⊢
  cases houter with
  | error hreason => exact ⟨.error (congrArg (Failure.field _ _) hreason), rfl⟩
  | ok r =>
      cases htypes with
      | error hreason => exact ⟨.error (congrArg (Failure.field _ _) hreason), rfl⟩
      | ok types => exact unmoved_constructedAt _ _ _ _ _ _

theorem unmoved_method {container : Description} {name : Slot String} {arity : Slot Nat}
    {presence : Slot Presence} {parameters : List Description} (hblurs : o.Blurs f)
    (hcontainer : Unmoved o f container) (hparameters : ∀ d ∈ parameters, Unmoved o f d) :
    Unmoved o f (method container name arity presence parameters) := by
  intro methods c
  obtain ⟨houter, hafter⟩ := hcontainer methods c
  have hname := hblurs.valueOr name
  have hsignature (methods : List SymbolId) (c : Compilation) :
      Agrees (gathered 0 (locateEach o parameters methods c).1,
        (locateEach o parameters methods c).2)
        (gathered 0 (locateEach o (parameters.map (rename f)) methods c).1,
          (locateEach o (parameters.map (rename f)) methods c).2) := by
    obtain ⟨hinner, hend⟩ := unmoved_each hparameters methods c
    exact ⟨.gathered hinner 0, hend⟩
  simp only [rename, renameEach_eq, locate, hafter, genericsBearing_congr hname]
  have hreplay := unmoved_replayedAll hsignature methods
  generalize (locate o container methods c).1 = x at houter ⊢
  generalize (locate o (container.rename f) methods c).1 = y at houter ⊢
  cases houter with
  | error hreason => exact ⟨.error (congrArg (Failure.field _ _) hreason), (hreplay [] _).2⟩
  | ok r => exact ⟨(hreplay _ _).1.outcome, (hreplay _ _).2⟩

theorem unmoved_property {container : Description} {name : Slot String}
    {presence : Slot Presence} {parameters : List Description} (hblurs : o.Blurs f)
    (hcontainer : Unmoved o f container) (hparameters : ∀ d ∈ parameters, Unmoved o f d) :
    Unmoved o f (property container name presence parameters) := by
  intro methods c
  obtain ⟨houter, hafter⟩ := hcontainer methods c
  obtain ⟨hinner, hend⟩ := unmoved_each hparameters methods (locate o container methods c).2
  have hname := hblurs.valueOr name
  simp only [rename, renameEach_eq, locate, hafter, hend, propertiesBearing_congr hname]
  exact ⟨(houter.part _ _).bind fun r => ((Akin.gathered hinner 0).part _ _).bind fun types =>
    .ofCandidates _ rfl, rfl⟩

/-- Locating minds only how names compare, as long as no type is made of named members. -/
theorem unmoved (hblurs : o.Blurs f) (d : Description) (hnominal : d.nominal = true) :
    Unmoved o f d := by
  have heach (ds : List Description) (hds : ∀ d ∈ ds, d.nominal = true → Unmoved o f d)
      (hall : ds.all nominal = true) : ∀ d ∈ ds, Unmoved o f d :=
    fun d hd => hds d hd (List.all_eq_true.mp hall d hd)
  induction d with
  | unreadable _ | unflagged _ | global | typeParameterOrdinal _ _ =>
      intro methods c
      rw [rename]
      exact .refl _
  | tupleType _ _ _ _ _ | anonymousType _ _ _ _ _ _ => cases hnominal
  | nameSpace _ name ih | typeParameter _ name ih | field _ name ih | parameter _ name ih
  | localVariable _ name _ ih =>
      intro methods c
      obtain ⟨houter, hafter⟩ := ih hnominal methods c
      have hname := hblurs.valueOr name
      simp only [rename, locate, hafter, membersBearing, typeParametersBearing, parametersBearing,
        bearing_congr hname, localsBearing_congr hname]
      exact ⟨(houter.part _ _).bind fun r => .ofCandidates _ rfl, rfl⟩
  | arrayType element _ ih | pointerType element ih =>
      intro methods c
      obtain ⟨houter, hafter⟩ := ih hnominal methods c
      simp only [rename, locate, hafter]
      generalize (locate o element methods c).1 = x at houter ⊢
      generalize (locate o (element.rename f) methods c).1 = y at houter ⊢
      cases houter with
      | error hreason => exact ⟨.error (congrArg (Failure.field _ _) hreason), rfl⟩
      | ok r => exact ⟨.ok _, rfl⟩
  | namedType _ _ _ _ _ ih ihall =>
      rw [nominal, Bool.and_eq_true, nominalEach_eq] at hnominal
      exact unmoved_namedType hblurs (ih hnominal.1) (heach _ ihall hnominal.2)
  | property _ _ _ _ ih ihall =>
      rw [nominal, Bool.and_eq_true, nominalEach_eq] at hnominal
      exact unmoved_property hblurs (ih hnominal.1) (heach _ ihall hnominal.2)
  | method _ _ _ _ _ ih ihall =>
      rw [nominal, Bool.and_eq_true, nominalEach_eq] at hnominal
      exact unmoved_method hblurs (ih hnominal.1) (heach _ ihall hnominal.2)

theorem nominal_rename (d : Description) : (d.rename f).nominal = d.nominal := by
  have hparts (ds : List Description) (hds : ∀ d ∈ ds, (d.rename f).nominal = d.nominal) :
      (ds.map (rename f)).all nominal = ds.all nominal := by
    rw [List.all_map, Bool.eq_iff_iff, List.all_eq_true, List.all_eq_true]
    exact forall₂_congr fun d hd => by rw [Function.comp_apply, hds d hd]
  induction d with
  | unreadable _ | unflagged _ | global | typeParameterOrdinal _ _ => rw [rename]
  | tupleType _ _ _ _ _ | anonymousType _ _ _ _ _ _ => rw [rename, nominal, nominal]
  | nameSpace _ _ ih | typeParameter _ _ ih | field _ _ ih | parameter _ _ ih
  | localVariable _ _ _ ih | arrayType _ _ ih | pointerType _ ih => simp only [rename, nominal, ih]
  | namedType _ _ _ _ arguments ih iharguments | method _ _ _ _ arguments ih iharguments
  | property _ _ _ arguments ih iharguments =>
      simp only [rename, nominal, ih, renameEach_eq, nominalEach_eq, hparts _ iharguments]

/-- The kind frames show whether there is such a segment. -/
theorem nominal_of_frames (d : Description)
    (h : ∀ frame ∈ d.frames, frame ≠ .kind .tupleType ∧ frame ≠ .kind .anonymousType) :
    d.nominal = true := by
  have hbodies {ds : List Description} {d : Description} (hd : d ∈ ds) : d.frames ⊆ bodies ds := by
    rw [bodies_eq]
    exact fun frame hframe => List.mem_flatMap.mpr ⟨d, hd, hframe⟩
  have hbody {d : Description} {category : Category} (hcategory : d.category? = some category) :
      d.frames = .kind category :: d.body := by
    rw [frames, withKind, hcategory]
  induction d with
  | unreadable _ | unflagged _ | global | typeParameterOrdinal _ _ => rw [nominal]
  | tupleType _ _ _ _ _ =>
      exact absurd rfl (h (.kind .tupleType) (by rw [hbody rfl]; exact List.mem_cons_self)).1
  | anonymousType _ _ _ _ _ _ =>
      exact absurd rfl (h (.kind .anonymousType) (by rw [hbody rfl]; exact List.mem_cons_self)).2
  | nameSpace _ _ ih | typeParameter _ _ ih | field _ _ ih | parameter _ _ ih
  | localVariable _ _ _ ih | arrayType _ _ ih | pointerType _ ih =>
      rw [nominal]
      refine ih fun frame hframe => h frame ?_
      rw [hbody rfl, body]
      simp [withKind_body, hframe]
  | namedType _ _ _ _ _ ih iheach | property _ _ _ _ ih iheach | method _ _ _ _ _ ih iheach =>
      rw [nominal, nominalEach_eq, Bool.and_eq_true, List.all_eq_true]
      refine ⟨ih fun frame hframe => h frame ?_, fun d hd => iheach d hd fun frame hframe =>
        h frame ?_⟩
      · rw [hbody rfl, body]
        simp [withKind_body, hframe]
      · rw [hbody rfl, body]
        simp [hbodies hd hframe]

end Description

/-! ## Keys -/

namespace Text

/-- One text for all that have the same lower-case form. -/
noncomputable def representative (s : String) : String := Function.invFun lower (lower s)

theorem lower_representative (s : String) : lower (representative s) = lower s :=
  Function.invFun_eq ⟨s, rfl⟩

theorem representative_congr {s t : String} (h : lower s = lower t) :
    representative s = representative t := by
  rw [representative, h, representative]

end Text

theorem ResolveOptions.blurs_representative {o : ResolveOptions} (hignore : o.ignoreCase = true) :
    o.Blurs Text.representative := by
  intro a b
  simp only [namesMatch, hignore, if_true, Text.lower_representative]

theorem Frame.rename_representative {frame frame' : Frame}
    (h : frame.equalsIgnoringCase frame' = true) :
    frame.rename Text.representative = frame'.rename Text.representative := by
  unfold equalsIgnoringCase at h
  split at h
  · exact congrArg (fun s => Frame.text (some s)) (Text.representative_congr (beq_iff_eq.mp h))
  · rw [beq_iff_eq.mp h]

namespace Key

variable {o : ResolveOptions} {k k' : Key} {f : String → String} {c : Compilation}

/-- The key with its texts spelt otherwise. -/
def rename (f : String → String) (k : Key) : Key :=
  { k with frames := k.frames.map (Frame.rename f) }

theorem scanned_rename :
    (k.rename f).scanned o = ((k.scanned o).1.rename f, (k.scanned o).2.rename f) :=
  Description.ofFrames_renamed o o.maxDepth.toNat { position := 0, rest := k.frames }

theorem defect?_rename : (k.rename f).defect? o = k.defect? o := by
  simp only [defect?, scanned_rename, Description.defect?_rename, Scan.rename, List.isEmpty_map,
    List.length_map]

/-- Equivalent keys have one spelling in common. -/
theorem rename_representative (h : k.equivalent k' true = true) :
    k.rename Text.representative = k'.rename Text.representative := by
  simp only [equivalent, if_true, Bool.and_eq_true, beq_iff_eq, List.all_eq_true] at h
  obtain ⟨⟨hversion, hlength⟩, hframes⟩ := h
  have halike : Forall₂ (fun frame frame' => Frame.equalsIgnoringCase frame frame' = true) k.frames
      k'.frames := forall₂_iff_zip.mpr ⟨hlength, fun hmem => hframes _ hmem⟩
  have hmap {frames frames' : List Frame}
      (h : Forall₂ (fun frame frame' => Frame.equalsIgnoringCase frame frame' = true) frames
        frames') :
      frames.map (Frame.rename Text.representative) =
          frames'.map (Frame.rename Text.representative) := by
    induction h with
    | nil => rfl
    | cons hhead _ ih => rw [map_cons, map_cons, Frame.rename_representative hhead, ih]
  rw [rename, rename, hversion, hmap halike]

/-- Unless the key is unusable, none of its segments is of a tuple type or of an anonymous type. -/
def Nominal (o : ResolveOptions) (k : Key) : Prop :=
  k.defect? o = none → (k.scanned o).1.nominal = true

/-- It is enough that no frame opens such a segment. -/
theorem nominal_of_frames
    (h : ∀ frame ∈ k.frames, frame ≠ .kind .tupleType ∧ frame ≠ .kind .anonymousType) :
    k.Nominal o := by
  intro hnone
  refine Description.nominal_of_frames _ fun frame hframe => h frame ?_
  obtain ⟨-, hframes⟩ := shaped_scanned hnone
  rw [hframes]
  exact hframe

/-- A key without named members decodes in another spelling as it does in its own. -/
theorem outcome_rename (hblurs : o.Blurs f) (hnominal : k.Nominal o) :
    ((k.rename f).outcome o c).map (·.mapError Failure.bare) =
      (k.outcome o c).map (·.mapError Failure.bare) := by
  unfold outcome
  rw [defect?_rename]
  cases hdefect : k.defect? o with
  | some d => rfl
  | none =>
      have hagrees := Description.unmoved hblurs _ (hnominal hdefect) [] c
      rw [scanned_rename]
      exact congrArg Except.ok hagrees.outcome.mapError_bare.symm

/-- A key resolves in another spelling as it does in its own. Of the scene only the compilation
matters. -/
theorem resolve_rename {scene scene' : Scene} (hclosed : scene.compilation.Closed)
    (hsame : scene'.compilation = scene.compilation) (hblurs : o.Blurs f) (hnominal : k.Nominal o) :
    ((k.rename f).resolve o scene').1.map (·.mapError Failure.bare) =
      (k.resolve o scene).1.map (·.mapError Failure.bare) := by
  have hclosed' : scene'.compilation.Closed := hsame ▸ hclosed
  have hmap (outcome : Slot Resolved) :
      (outcome.mapError Halt.defect).map (·.mapError Failure.bare) =
        (outcome.map (·.mapError Failure.bare)).mapError Halt.defect := by
    cases outcome <;> rfl
  by_cases hversion : k.version = currentVersion
  · have hversion' : (k.rename f).version = currentVersion := hversion
    rw [(resolve_eq hversion hclosed).1, (resolve_eq hversion' hclosed').1, hmap, hmap, hsame,
      outcome_rename hblurs hnominal]
  · -- neither spelling gets as far as its frames
    simp only [resolve, resolveIn, checkVersion, rename, hversion, if_false]

/-- A key is made of named members in every spelling or in none. -/
theorem nominal_rename : (k.rename f).Nominal o ↔ k.Nominal o := by
  unfold Nominal
  rw [defect?_rename, scanned_rename, Description.nominal_rename]

/-- Keys that agree up to the case of their texts decode alike when case is ignored: both are
unusable with the same defect, or both come to the same candidates in the same order, or both fail
with the same chain of reasons, if not with the same wording. This is so of all keys without
segments of tuple types and anonymous types. -/
theorem resolve_equivalent {scene scene' : Scene} (hequivalent : k.equivalent k' true = true)
    (hnominal : k.Nominal o) (hignore : o.ignoreCase = true)
    (hreachable : scene.compilation.Reachable) (hsame : scene'.compilation = scene.compilation) :
    (k'.resolve o scene').1.map (·.mapError Failure.bare) =
      (k.resolve o scene).1.map (·.mapError Failure.bare) := by
  have hblurs := ResolveOptions.blurs_representative hignore
  have hspelling := rename_representative hequivalent
  have hnominal' : k'.Nominal o := by
    rwa [← nominal_rename (f := Text.representative), ← hspelling, nominal_rename]
  have hclosed' : scene'.compilation.Closed := hsame ▸ hreachable.closed
  calc (k'.resolve o scene').1.map (·.mapError Failure.bare)
    _ = ((k'.rename Text.representative).resolve o scene').1.map (·.mapError Failure.bare) :=
        (resolve_rename hclosed' rfl hblurs hnominal').symm
    _ = ((k.rename Text.representative).resolve o scene').1.map (·.mapError Failure.bare) := by
        rw [hspelling]
    _ = (k.resolve o scene).1.map (·.mapError Failure.bare) :=
        resolve_rename hreachable.closed hsame hblurs hnominal

/-- The root type is found under two spellings of its name. -/
theorem resolve_equivalent_object :
    let spelt (name : String) := ofFrames
      [.kind .namedType, .kind .nameSpace, .bool true, .text (some name), .int 0, .array .absent 0]
    let o : ResolveOptions := { ignoreCase := true }
    let scene : Scene := { compilation := Draft.empty.finish }
    ((spelt "OBJECT").resolve o scene).1.map (·.mapError Failure.bare) =
        ((spelt "Object").resolve o scene).1.map (·.mapError Failure.bare) ∧
      ((spelt "Object").resolve o scene).1 = .ok (.ok (.symbol Draft.object)) := by
  intro spelt o scene
  refine ⟨resolve_equivalent (by decide) (nominal_of_frames (by decide)) rfl
    (.made (.finish .empty)) rfl, by decide⟩

end Key
end Moniker
