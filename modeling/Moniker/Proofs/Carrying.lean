import Moniker.Proofs.Depths
import Moniker.Proofs.Programs
import Moniker.Proofs.Resembling
import Moniker.Proofs.RoundTrip

/-!
# Keys are portable

One compilation `Carries` another along a map of symbols if the map keeps what keys say about them.
The second compilation may hold any other symbols and number everything differently. Describing
looks at symbols only to tell whether they are the same, so a symbol and its image have the same
description (`Compilation.Carries.ofSymbolWithin_eq`) and the same key (`Key.portable`).
-/

namespace Moniker

/-- The map sends symbols of the first compilation to distinct symbols of the second and keeps what
the first one answers about them. Members are kept for the types that are described by them, and
locals for the names that locals have. -/
structure Compilation.Carries (c₁ c₂ : Compilation) (image : SymbolId → SymbolId) : Prop where
  issued : ∀ s, c₁.Issued s → c₂.Issued (image s)
  injective : ∀ s t, c₁.Issued s → c₁.Issued t → image s = image t → s = t
  global : c₂.global = image c₁.global
  universal : c₂.universal = image c₁.universal
  kind : ∀ s, c₁.Issued s → c₂.kind (image s) = c₁.kind s
  name : ∀ s, c₁.Issued s → c₂.name (image s) = c₁.name s
  container : ∀ s, c₁.Issued s → c₂.container (image s) = (·.map image) <$> c₁.container s
  type : ∀ s, c₁.Issued s → c₂.typeOf (image s) = (·.map image) <$> c₁.typeOf s
  typeParameters : ∀ s, c₁.Issued s →
    c₂.typeParameters (image s) = (·.map image) <$> c₁.typeParameters s
  typeArguments : ∀ s, c₁.Issued s →
    c₂.typeArguments (image s) = (·.map image) <$> c₁.typeArguments s
  definition : ∀ s, c₁.Issued s → c₂.definition (image s) = image <$> c₁.definition s
  parameters : ∀ s, c₁.Issued s → c₂.parameters (image s) = (·.map image) <$> c₁.parameters s
  isReadOnly : ∀ s, c₁.Issued s → c₂.isReadOnly (image s) = c₁.isReadOnly s
  firstLocation : ∀ s, c₁.Issued s → c₂.firstLocation (image s) = c₁.firstLocation s
  rank : ∀ s, c₁.Issued s → c₂.rank (image s) = c₁.rank s
  members : ∀ s, c₁.Issued s → c₁.kind s = .ok .tupleType ∨ c₁.kind s = .ok .anonymousType →
    c₂.members (image s) = (·.map image) <$> c₁.members s
  locals : ∀ s m name, c₁.Issued s → c₁.kind s = .ok .localVariable →
    c₁.containerOrGlobal s = .ok m → c₁.name s = .ok name →
    c₂.localsNamed (· == name) (image m) = (·.map image) <$> c₁.localsNamed (· == name) m

namespace Compilation.Carries

variable {c₁ c₂ : Compilation} {image : SymbolId → SymbolId} (h : c₁.Carries c₂ image)
  {s : SymbolId}

section Entries

variable (hs : c₁.Issued s)
include h hs

theorem kind_entry : (c₂.entry (image s)).kind = (c₁.entry s).kind := by
  have hkind := h.kind s hs
  rwa [kind_eq (h.issued s hs), kind_eq hs, Except.ok.injEq] at hkind

theorem name_entry : (c₂.entry (image s)).name = (c₁.entry s).name := by
  have hname := h.name s hs
  rwa [name_eq (h.issued s hs), name_eq hs, Except.ok.injEq] at hname

theorem containerAt : c₂.containerAt (image s) = (c₁.containerAt s).map image := by
  have hcontainer := h.container s hs
  rw [container_eq (h.issued s hs), container_eq hs] at hcontainer
  exact Except.ok.inj hcontainer

theorem outerAt : c₂.outerAt (image s) = image (c₁.outerAt s) := by
  rw [Compilation.outerAt, h.containerAt hs, h.global, Compilation.outerAt]
  cases c₁.containerAt s <;> rfl

theorem typeAt : c₂.typeAt (image s) = image (c₁.typeAt s) := by
  have htype : c₂.typeOrUniversal (image s) = image <$> c₁.typeOrUniversal s := by
    rw [typeOrUniversal, h.type s hs, h.universal, typeOrUniversal]
    cases c₁.typeOf s with
    | error e => rfl
    | ok t => cases t <;> rfl
  rw [typeOrUniversal_eq (h.issued s hs), typeOrUniversal_eq hs] at htype
  exact Except.ok.inj htype

theorem typeParameters_entry :
    (c₂.entry (image s)).typeParameters = (c₁.entry s).typeParameters.map image := by
  have hparameters := h.typeParameters s hs
  rw [typeParameters_eq (h.issued s hs), typeParameters_eq hs] at hparameters
  exact Except.ok.inj hparameters

theorem typeArguments_entry :
    (c₂.entry (image s)).typeArguments = (c₁.entry s).typeArguments.map image := by
  have harguments := h.typeArguments s hs
  rw [typeArguments_eq (h.issued s hs), typeArguments_eq hs] at harguments
  exact Except.ok.inj harguments

theorem definitionAt : c₂.definitionAt (image s) = image (c₁.definitionAt s) := by
  have hdefinition := h.definition s hs
  rw [definition_eq (h.issued s hs), definition_eq hs] at hdefinition
  exact Except.ok.inj hdefinition

theorem readOnly_entry : (c₂.entry (image s)).readOnly = (c₁.entry s).readOnly := by
  have hreadOnly := h.isReadOnly s hs
  rwa [isReadOnly_eq (h.issued s hs), isReadOnly_eq hs, Except.ok.injEq] at hreadOnly

theorem locationAt : c₂.locationAt (image s) = c₁.locationAt s := by
  have hlocation := h.firstLocation s hs
  rwa [firstLocation_eq (h.issued s hs), firstLocation_eq hs, Except.ok.injEq] at hlocation

theorem rank_entry : (c₂.entry (image s)).rank = (c₁.entry s).rank := by
  have hrank := h.rank s hs
  rwa [Compilation.rank_eq (h.issued s hs), Compilation.rank_eq hs, Except.ok.injEq] at hrank

variable (hclosed : c₁.Closed)
include hclosed

theorem signatureAt : c₂.signatureAt (image s) = (c₁.signatureAt s).map image := by
  have hparameters := h.parameters s hs
  rw [parameters_eq (h.issued s hs), parameters_eq hs] at hparameters
  rw [Compilation.signatureAt, Except.ok.inj hparameters, Compilation.signatureAt, List.map_map,
    List.map_map]
  exact List.map_congr_left fun p hp => h.typeAt (hclosed.table.parameters hs hp)

end Entries

/-- A symbol that the first compilation issued, and its image. -/
def Image (c₁ : Compilation) (image : SymbolId → SymbolId) (s s' : SymbolId) : Prop :=
  c₁.Issued s ∧ s' = image s

theorem images {symbols : List SymbolId} (hissued : ∀ s ∈ symbols, c₁.Issued s) :
    List.Forall₂ (Image c₁ image) symbols (symbols.map image) := by
  rw [List.forall₂_map_right_iff, List.forall₂_same]
  exact fun s hs => ⟨hissued s hs, rfl⟩

include h in
theorem unique : Relator.BiUnique (Image c₁ image) := by
  constructor
  · rintro s t _ ⟨hs, rfl⟩ ⟨ht, heq⟩
    exact h.injective s t hs ht heq
  · rintro s _ _ ⟨-, rfl⟩ ⟨-, rfl⟩
    rfl

include h in
theorem localOrdinalAt (hclosed : c₁.Closed) (hclosed' : c₂.Closed) (hs : c₁.Issued s)
    (hkind : (c₁.entry s).kind = .localVariable) :
    c₂.localOrdinalAt (image s) = c₁.localOrdinalAt s := by
  have houter : c₁.Issued (c₁.outerAt s) := hclosed.issued_container hs
  have hlocals : c₂.localsNamed (· == (c₁.entry s).name) (image (c₁.outerAt s)) =
      (·.map image) <$> c₁.localsNamed (· == (c₁.entry s).name) (c₁.outerAt s) :=
    h.locals s _ _ hs (by rw [kind_eq hs, hkind]) (containerOrGlobal_eq hs) (name_eq hs)
  rw [hclosed'.localsNamed_eq (h.issued _ houter), hclosed.localsNamed_eq houter] at hlocals
  have hissued : ∀ t ∈ c₁.localsAt (· == (c₁.entry s).name) (c₁.outerAt s), c₁.Issued t :=
    fun t ht => hclosed.issued_membersAt houter (List.mem_filter.mp ht).1
  rw [Compilation.localOrdinalAt, h.name_entry hs, h.outerAt hs, Except.ok.inj hlocals,
    Compilation.localOrdinalAt, idxOf?_related h.unique (images hissued) ⟨hs, rfl⟩]

include h in
/-- A symbol and its image look the same, locations included. -/
theorem resembles (hclosed : c₁.Closed) (hclosed' : c₂.Closed) :
    c₁.Resembles id (Image c₁ image) c₂ where
  unique := h.unique
  issued := by
    rintro s _ ⟨hs, rfl⟩
    exact ⟨hs, h.issued s hs⟩
  kind := by
    rintro s _ ⟨hs, rfl⟩
    exact h.kind_entry hs
  name := by
    rintro s _ ⟨hs, rfl⟩
    exact h.name_entry hs
  readOnly := by
    rintro s _ ⟨hs, rfl⟩
    exact h.readOnly_entry hs
  rank := by
    rintro s _ ⟨hs, rfl⟩
    exact h.rank_entry hs
  location := by
    rintro s _ ⟨hs, rfl⟩
    exact h.locationAt hs
  container := by
    rintro s _ ⟨hs, rfl⟩
    rw [h.containerAt hs]
    cases hcontainer : c₁.containerAt s with
    | none => exact .none
    | some m => exact .some ⟨by simpa [hcontainer] using hclosed.issued_container hs, rfl⟩
  outer := by
    rintro s _ ⟨hs, rfl⟩
    exact ⟨hclosed.issued_container hs, h.outerAt hs⟩
  type := by
    rintro s _ ⟨hs, rfl⟩
    exact ⟨hclosed.issued_typeAt hs, h.typeAt hs⟩
  definition := by
    rintro s _ ⟨hs, rfl⟩
    exact ⟨hclosed.issued_definition hs, h.definitionAt hs⟩
  typeParameters := by
    rintro s _ ⟨hs, rfl⟩
    rw [h.typeParameters_entry hs]
    exact images fun t ht => hclosed.table.typeParameters hs ht
  typeArguments := by
    rintro s _ ⟨hs, rfl⟩
    rw [h.typeArguments_entry hs]
    exact images fun t ht => hclosed.table.typeArguments hs ht
  signature := by
    rintro s _ ⟨hs, rfl⟩
    rw [h.signatureAt hs hclosed]
    exact images (hclosed.issued_signature hs)
  members := by
    rintro s _ ⟨hs, rfl⟩ hkind
    have hmembers := h.members s hs (hkind.imp (fun h => by rw [kind_eq hs, h])
      fun h => by rw [kind_eq hs, h])
    rw [members_eq (h.issued s hs), members_eq hs] at hmembers
    rw [Except.ok.inj hmembers]
    exact images fun t ht => hclosed.table.members hs ht
  localOrdinal := by
    rintro s _ ⟨hs, rfl⟩ hkind
    exact h.localOrdinalAt hclosed hclosed' hs hkind

include h in
/-- A symbol and its image have the same description, and within the same depth. -/
theorem ofSymbolWithin_eq (hclosed : c₁.Closed) (hclosed' : c₂.Closed) (hs : c₁.Issued s)
    {methods : List SymbolId} (hmethods : ∀ m ∈ methods, c₁.Issued m) (n : Nat) :
    Description.ofSymbolWithin c₂ n (methods.map image) (image s) =
      Description.ofSymbolWithin c₁ n methods s := by
  have hsame := (h.resembles hclosed hclosed').ofSymbolWithin hclosed hclosed' n (images hmethods)
    ⟨hs, rfl⟩
  generalize Description.ofSymbolWithin c₁ n methods s = x,
    Description.ofSymbolWithin c₂ n (methods.map image) (image s) = y at hsame
  cases hsame with
  | error e => rfl
  | ok hd =>
    rw [Description.mapLeaves_id, Description.mapLeaves_id] at hd
    rw [hd]

end Compilation.Carries

open Draft in
/-- A class `C` with a generic method `m` that takes a pair and its own type parameter and has two
locals `v`. -/
def Draft.plan : Draft :=
  ofRequests [.namedType global "C" [], .method ⟨5⟩ "m" ["T"],
    .structural (.tuple [int, string] [some "a", none] [.nowhere, .nowhere]),
    .parameter ⟨6⟩ "x" ⟨8⟩, .parameter ⟨6⟩ "y" ⟨7⟩, .localVariable ⟨6⟩ "v" int,
    .localVariable ⟨6⟩ "v" int]

open Draft in
/-- The same after the pair and a namespace, and with a local `w` between the other two. -/
def Draft.rebuiltPlan : Draft :=
  ofRequests [.structural (.tuple [int, string] [some "a", none] [.nowhere, .nowhere]),
    .nameSpace global "n", .namedType global "C" [], .method ⟨9⟩ "m" ["T"], .parameter ⟨10⟩ "x" ⟨5⟩,
    .parameter ⟨10⟩ "y" ⟨11⟩, .localVariable ⟨10⟩ "v" int, .localVariable ⟨10⟩ "w" int,
    .localVariable ⟨10⟩ "v" int]

/-- Where the symbols of the plan are found in the other one. -/
def Draft.planImage (s : SymbolId) : SymbolId :=
  ⟨[0, 1, 2, 3, 4, 9, 10, 11, 5, 6, 7, 12, 13, 14, 16].getD s.index 0⟩

/-- The second plan keeps what the first one says, under other numbers. -/
theorem Draft.carries_plan : plan.finish.Carries rebuiltPlan.finish planImage := by
  have hcases : ∀ {P : SymbolId → Prop}, (∀ i < 15, P ⟨i⟩) → ∀ s, plan.finish.Issued s → P s :=
    fun h s hs => h s.index hs
  have hinjective : ∀ i < 15, ∀ j < 15, planImage ⟨i⟩ = planImage ⟨j⟩ → i = j := by decide
  have hlocals : ∀ i < 15, plan.finish.kind ⟨i⟩ = .ok .localVariable →
      plan.finish.containerOrGlobal ⟨i⟩ = .ok ⟨6⟩ ∧ plan.finish.name ⟨i⟩ = .ok "v" := by
    decide +kernel
  exact {
    issued := hcases (by decide)
    injective := fun s t hs ht heq => congrArg SymbolId.mk (hinjective s.index hs t.index ht heq)
    global := rfl
    universal := rfl
    kind := hcases (by decide +kernel)
    name := hcases (by decide +kernel)
    container := hcases (by decide +kernel)
    type := hcases (by decide +kernel)
    typeParameters := hcases (by decide +kernel)
    typeArguments := hcases (by decide +kernel)
    definition := hcases (by decide +kernel)
    parameters := hcases (by decide +kernel)
    isReadOnly := hcases (by decide +kernel)
    firstLocation := hcases (by decide +kernel)
    rank := hcases (by decide +kernel)
    members := hcases (by decide +kernel)
    locals := fun s m name hs hkind hm hname => by
      obtain ⟨hmethod, hv⟩ := hlocals s.index hs hkind
      cases hm.symm.trans hmethod
      cases hname.symm.trans hv
      decide +kernel }

theorem Draft.made_plan : plan.Made Request.Contained := made_ofRequests (by decide)

theorem Draft.made_rebuiltPlan : rebuiltPlan.Made Request.Contained := made_ofRequests (by decide)

theorem Draft.scoped_rebuiltPlan : rebuiltPlan.finish.Scoped := by
  have hmethods : ∀ i < 17, (rebuiltPlan.finish.entry ⟨i⟩).kind = .method → i = 10 := by
    decide +kernel
  have hsignature : ∀ t ∈ rebuiltPlan.finish.signatureAt ⟨10⟩, t ∈ [⟨5⟩, int, string, ⟨11⟩] := by
    decide +kernel
  have hparts : ∀ t ∈ [⟨5⟩, int, string, ⟨11⟩], ∀ a ∈ rebuiltPlan.finish.partsAt t,
      a ∈ [⟨5⟩, int, string, ⟨11⟩] := by decide +kernel
  have hown : ∀ t ∈ [⟨5⟩, int, string, ⟨11⟩], (rebuiltPlan.finish.entry t).kind = .typeParameter →
      rebuiltPlan.finish.containerAt t = some ⟨10⟩ := by decide +kernel
  rintro ⟨i⟩ hm hkind t ht a hmentions hparameter q hq -
  obtain rfl := hmethods i hm hkind
  have ha := hmentions.mem hparts (hsignature t ht)
  exact Option.some.inj (hq.symm.trans (hown a ha hparameter))

theorem Draft.rebuildable_rebuiltPlan : rebuiltPlan.finish.Rebuildable where
  named types names s h := by
    have hinterned : rebuiltPlan.finish.table.interned =
        [(.tuple [int, string] [some "a", none], ⟨5⟩)] := rfl
    rw [hinterned, List.lookup_cons] at h
    split at h
    · next heq =>
        obtain ⟨rfl, rfl⟩ : types = [int, string] ∧ names = [some "a", none] := by simpa using heq
        decide
    · cases h
  ranked s hs := by
    have hranks : ∀ i < 17, (rebuiltPlan.finish.entry ⟨i⟩).rank.toNat ≤ Frame.maxCount := by
      decide +kernel
    exact hranks s.index hs
  located s hs hkind := by
    have hnowhere : ∀ i < 17, ∀ m ∈ (rebuiltPlan.finish.entry ⟨i⟩).members,
        rebuiltPlan.finish.locationAt m = .nowhere := by decide +kernel
    intro m hm path span hlocation
    rw [hnowhere s.index hs m hm] at hlocation
    cases hlocation
  capped s hs hkind n hn := by cases hn

theorem Draft.distinguishable_rebuiltPlan (maxDepth : UInt64) :
    rebuiltPlan.finish.Distinguishable { maxDepth := maxDepth } := by
  -- the two locals are told apart by their places, and no other siblings share their name
  have hentries : ∀ i < 17, ∀ j < 17,
      (rebuiltPlan.finish.entry ⟨j⟩).kind = (rebuiltPlan.finish.entry ⟨i⟩).kind ∧
        (rebuiltPlan.finish.entry ⟨i⟩).kind ≠ .localVariable ∧
        rebuiltPlan.finish.containerAt ⟨j⟩ = rebuiltPlan.finish.containerAt ⟨i⟩ ∧
        (rebuiltPlan.finish.entry ⟨j⟩).name = (rebuiltPlan.finish.entry ⟨i⟩).name ∧
        rebuiltPlan.finish.containerAt ⟨i⟩ ≠ none → j = i := by decide +kernel
  rintro ⟨i⟩ ⟨j⟩ ⟨⟨hs, ha⟩, -, hkind, ⟨p, hp, hp'⟩, hnamed⟩ - - hcoincide
  have hname := beq_iff_eq.mp hnamed
  have hlocal : (rebuiltPlan.finish.entry ⟨i⟩).kind ≠ .localVariable := by
    intro hlocal
    rw [Compilation.Coincide, hlocal] at hcoincide
    exact hcoincide hname
  exact congrArg SymbolId.mk
    (hentries i hs j ha ⟨hkind, hlocal, hp'.trans hp.symm, hname, by rw [hp]; simp⟩)

namespace Key

variable {c₁ c₂ : Compilation} {image : SymbolId → SymbolId} {s : SymbolId}

/-- A symbol for which describing ends and its image in another compilation have the same key. Where
siblings can be told apart in the other compilation, the key resolves there to the image. -/
theorem portable (hmade₁ : c₁.Made fun t r => r.Issued t) (hmade₂ : c₂.Made fun t r => r.Issued t)
    (hcarries : c₁.Carries c₂ image) (hs : c₁.Issued s)
    (hends : ∃ n d, Description.ofSymbolWithin c₁ n [] s = .ok d) :
    ∃ k, ofSymbol c₁ s = .ok k ∧ ofSymbol c₂ (image s) = .ok k ∧
      (c₂.Made Request.Contained → c₂.size < UInt32.size → c₂.Scoped → c₂.Rebuildable →
        ∃ depth < UInt64.size, (∀ n, Grammar.Derives n k.frames ↔ depth ≤ n) ∧
          ∀ (o : ResolveOptions) (scene : Scene), scene.compilation = c₂ → c₂.Distinguishable o →
            c₂.Sole o (image s) → o.cancelled = false → depth ≤ o.maxDepth.toNat →
            (k.resolve o scene).1 = .ok (.ok (.symbol (image s)))) := by
  obtain ⟨n, d, hd⟩ := hends
  have hd' : Description.ofSymbolWithin c₂ n [] (image s) = .ok d := by
    rw [← hd]
    exact hcarries.ofSymbolWithin_eq hmade₁.closed hmade₂.closed hs (Description.issued_nil c₁) n
  have hkey : ∀ {c : Compilation} {s : SymbolId}, Description.ofSymbol c [] s = .ok d →
      ofSymbol c s = .ok (ofFrames d.frames) := by
    intro c s hd
    rw [ofSymbol, hd]
    rfl
  have hk := hkey ((Description.ofSymbol_eq_ok hmade₁.closed hs (by simp)).mpr ⟨n, hd⟩)
  have hissued := hcarries.issued s hs
  have hk' := hkey ((Description.ofSymbol_eq_ok hmade₂.closed hissued (by simp)).mpr ⟨n, hd'⟩)
  refine ⟨_, hk, hk', fun hmade hsize hscoped hr => ?_⟩
  obtain ⟨d', k', -, -, hk'', ⟨n, hn, hderives⟩, -⟩ := resolve_ofSymbol hmade.lawful hissued hsize
  rw [hk', Except.ok.injEq] at hk''
  subst hk''
  obtain ⟨depth, hdepth⟩ := hderives.exists_depth
  refine ⟨depth, Nat.lt_of_le_of_lt ((hdepth n).mp hderives) hn, hdepth, ?_⟩
  intro o scene hscene hd hsole hlive hle
  exact resolve_eq_symbol hmade.lawful hsize hscoped hr hd hissued hsole hk' hlive
    ((hdepth _).mpr hle) hscene

/-- The keys of the method, of the pair's element `a` and of the second local are the same in both
plans, and in the second one they lead to the images. -/
theorem portable_plan :
    [⟨6⟩, ⟨9⟩, ⟨14⟩].Forall fun s => ∃ k o, ofSymbol Draft.plan.finish s = .ok k ∧
      ofSymbol Draft.rebuiltPlan.finish (Draft.planImage s) = .ok k ∧
      (k.resolve o { compilation := Draft.rebuiltPlan.finish }).1 =
        .ok (.ok (.symbol (Draft.planImage s))) := by
  have hmade := Compilation.Made.finish Draft.made_plan
  have hmade' := Compilation.Made.finish Draft.made_rebuiltPlan
  have hissued : ∀ s ∈ [⟨6⟩, ⟨9⟩, ⟨14⟩], Draft.plan.finish.Issued s := by decide
  have hnamed : ∀ s ∈ [⟨6⟩, ⟨9⟩, ⟨14⟩],
      (Draft.rebuiltPlan.finish.entry (Draft.planImage s)).name ≠ "" := by decide +kernel
  have hends : ∀ s ∈ [⟨6⟩, ⟨9⟩, ⟨14⟩],
      ∃ d, Description.ofSymbolWithin Draft.plan.finish 8 [] s = .ok d := by
    intro s hs
    simp only [List.mem_cons, List.not_mem_nil, or_false] at hs
    rcases hs with rfl | rfl | rfl <;> exact ⟨_, rfl⟩
  refine List.forall_iff_forall_mem.mpr fun s hs => ?_
  obtain ⟨k, hk, hk', hresolve⟩ := portable (hmade.mono fun _ _ h => h.issued)
    (hmade'.mono fun _ _ h => h.issued) Draft.carries_plan (hissued s hs) ⟨8, hends s hs⟩
  obtain ⟨depth, hdepth, -, hresolve⟩ := hresolve hmade' (by decide) Draft.scoped_rebuiltPlan
    Draft.rebuildable_rebuiltPlan
  have hle : depth ≤ (UInt64.ofNat (UInt64.size - 1)).toNat := Nat.le_of_lt_succ hdepth
  exact ⟨k, _, hk, hk', hresolve _ _ rfl (Draft.distinguishable_rebuiltPlan _)
    (.of_named fun hunnamed => hnamed s hs hunnamed.2.1) rfl hle⟩

end Key
end Moniker
