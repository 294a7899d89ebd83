import Moniker.Proofs.Leaves
import Moniker.Proofs.Nesting
import Moniker.Proofs.Relating
import Moniker.Proofs.Standing

/-!
# Symbols that resemble each other

Describing looks at symbols only to tell whether they are the same. So two compilations give the
same descriptions to symbols that are related, whatever their numbers, if the relation is one to one
and goes along with all that descriptions follow (`Compilation.Resembles`). What becomes of
locations is left to a view of them: compilations may resemble each other up to what a view hides.
-/

namespace Moniker

open List Relator

/-- Steps that come to related outcomes on related entries do so on lists. -/
theorem mapM_related {α β γ δ ε : Type} {P : α → β → Prop} {Q : γ → δ → Prop} {f : α → Except ε γ}
    {g : β → Except ε δ} {as : List α} {bs : List β} (h : Forall₂ P as bs)
    (hfg : ∀ a ∈ as, ∀ b, P a b → SameOutcome Q (f a) (g b)) :
    SameOutcome (Forall₂ Q) (as.mapM f) (bs.mapM g) := by
  induction h with
  | nil => exact .ok .nil
  | @cons a b as bs hab _ ih =>
    rw [mapM_cons, mapM_cons]
    refine (hfg a (by simp) b hab).bind fun c d hcd => ?_
    exact (ih fun a' ha' => hfg a' (by simp [ha'])).bind fun cs ds hcds => .ok (.cons hcd hcds)

namespace Compilation

theorem kind_of_categoryAt {c : Compilation} {methods : List SymbolId} {s : SymbolId}
    {category : Category} (h : c.categoryAt methods s = category) :
    (c.entry s).kind = category.symbolKind := by
  subst h
  unfold categoryAt
  cases (c.entry s).kind <;> try rfl
  simp only
  split <;> rfl

/-- The relation is one to one, and related symbols look the same through the view: what the one
compilation answers about the one, the other answers about the other. -/
structure Resembles (view : Location → Location) (R : SymbolId → SymbolId → Prop)
    (c c' : Compilation) : Prop where
  unique : BiUnique R
  issued : ∀ {s s'}, R s s' → c.Issued s ∧ c'.Issued s'
  kind : ∀ {s s'}, R s s' → (c'.entry s').kind = (c.entry s).kind
  name : ∀ {s s'}, R s s' → (c'.entry s').name = (c.entry s).name
  readOnly : ∀ {s s'}, R s s' → (c'.entry s').readOnly = (c.entry s).readOnly
  rank : ∀ {s s'}, R s s' → (c'.entry s').rank = (c.entry s).rank
  location : ∀ {s s'}, R s s' → view (c'.locationAt s') = view (c.locationAt s)
  container : ∀ {s s'}, R s s' → Option.Rel R (c.containerAt s) (c'.containerAt s')
  outer : ∀ {s s'}, R s s' → R (c.outerAt s) (c'.outerAt s')
  type : ∀ {s s'}, R s s' → R (c.typeAt s) (c'.typeAt s')
  definition : ∀ {s s'}, R s s' → R (c.definitionAt s) (c'.definitionAt s')
  typeParameters : ∀ {s s'}, R s s' →
    Forall₂ R (c.entry s).typeParameters (c'.entry s').typeParameters
  typeArguments : ∀ {s s'}, R s s' →
    Forall₂ R (c.entry s).typeArguments (c'.entry s').typeArguments
  signature : ∀ {s s'}, R s s' → Forall₂ R (c.signatureAt s) (c'.signatureAt s')
  members : ∀ {s s'}, R s s' → (c.entry s).kind = .tupleType ∨ (c.entry s).kind = .anonymousType →
    Forall₂ R (c.entry s).members (c'.entry s').members
  localOrdinal : ∀ {s s'}, R s s' → (c.entry s).kind = .localVariable →
    c'.localOrdinalAt s' = c.localOrdinalAt s

namespace Resembles

variable {view : Location → Location} {R : SymbolId → SymbolId → Prop} {c c' : Compilation}
  (h : c.Resembles view R c') {s s' : SymbolId} {methods methods' : List SymbolId}
  {category : Category}

include h

/-! ## Members -/

section Members

variable (hs : R s s') (hkind : (c.entry s).kind = .tupleType ∨ (c.entry s).kind = .anonymousType)
include hs hkind

theorem membersAt (kind : SymbolKind) :
    Forall₂ R (c.membersAt kind s) (c'.membersAt kind s') := by
  refine rel_filter (fun m m' hm => ?_) (h.members hs hkind)
  show ((c.entry m).kind == kind) = true ↔ ((c'.entry m').kind == kind) = true
  rw [h.kind hm]

/-- What related members are mapped to alike makes for the same list. -/
theorem map_membersAt {α : Type} {f g : SymbolId → α} (kind : SymbolKind)
    (hfg : ∀ m m', R m m' → g m' = f m) :
    (c'.membersAt kind s').map g = (c.membersAt kind s).map f := by
  have hmap : Forall₂ Eq ((c.membersAt kind s).map f) ((c'.membersAt kind s').map g) :=
    rel_map (fun m m' hm => (hfg m m' hm).symm) (h.membersAt hs hkind kind)
  rw [forall₂_eq_eq_eq] at hmap
  exact hmap.symm

theorem memberTypesAt (kind : SymbolKind) :
    Forall₂ R (c.memberTypesAt kind s) (c'.memberTypesAt kind s') :=
  rel_map (fun _ _ hm => h.type hm) (h.membersAt hs hkind kind)

theorem elementNamesAt : c'.elementNamesAt s' = c.elementNamesAt s :=
  h.map_membersAt hs hkind .field fun _ _ hm => by rw [h.name hm]

theorem propertyNamesAt : c'.propertyNamesAt s' = c.propertyNamesAt s :=
  h.map_membersAt hs hkind .property fun _ _ hm => h.name hm

theorem readOnlyAt : c'.readOnlyAt s' = c.readOnlyAt s :=
  h.map_membersAt hs hkind .property fun _ _ hm => h.readOnly hm

/-- Where members lie looks the same through the view. -/
theorem map_locationAt (kind : SymbolKind) :
    (Listing.ofItems? (some ((c'.membersAt kind s').map c'.locationAt))).map view =
      (Listing.ofItems? (some ((c.membersAt kind s).map c.locationAt))).map view := by
  have hviews : (c'.membersAt kind s').map (view ∘ c'.locationAt) =
      (c.membersAt kind s).map (view ∘ c.locationAt) :=
    h.map_membersAt hs hkind kind fun m m' hm => h.location hm
  have hlength : (c'.membersAt kind s').length = (c.membersAt kind s).length :=
    (h.membersAt hs hkind kind).length_eq.symm
  simp only [Listing.map, Listing.ofItems?, Presence.ofItems?, Option.getD_some, length_map,
    hlength, map_map]
  have hslots := congrArg (List.map (Except.ok : Location → Slot Location)) hviews
  rw [map_map, map_map] at hslots
  exact congrArg (Listing.mk _) hslots

end Members

/-! ## Segments -/

theorem methodIndex? (hs : R s s') (hmethods : Forall₂ R methods methods') :
    Description.methodIndex? methods' s' = Description.methodIndex? methods s := by
  unfold Description.methodIndex?
  rw [idxOf?_related h.unique (rel_reverse hmethods) hs, hmethods.length_eq]

theorem categoryAt (hs : R s s') (hmethods : Forall₂ R methods methods') :
    c'.categoryAt methods' s' = c.categoryAt methods s := by
  have howner : (c'.containerAt s').any (· ∈ methods') = (c.containerAt s).any (· ∈ methods) := by
    generalize c.containerAt s = owner, c'.containerAt s' = owner', h.container hs = hrel
    cases hrel with
    | none => rfl
    | some hm =>
      simp only [Option.any_some, decide_eq_decide]
      exact (rel_mem h.unique hm hmethods).symm
  unfold Compilation.categoryAt
  rw [h.kind hs, howner]

theorem definitionAt_eq_iff (hs : R s s') : c'.definitionAt s' = s' ↔ c.definitionAt s = s :=
  (rel_eq h.unique (h.definition hs) hs).symm

/-- What is described inside the segments corresponds. -/
theorem nestedAt (hs : R s s') (hmethods : Forall₂ R methods methods')
    (hcategory : c.categoryAt methods s = category) :
    Forall₂ (fun p p' => Forall₂ R p.1 p'.1 ∧ R p.2 p'.2) (c.nestedAt methods s category)
      (c'.nestedAt methods' s' category) := by
  have heach : ∀ {ms ms' ts ts' : List SymbolId}, ms.Forall₂ R ms' → Forall₂ R ts ts' →
      Forall₂ (fun p p' => Forall₂ R p.1 p'.1 ∧ R p.2 p'.2) (ts.map (ms, ·)) (ts'.map (ms', ·)) :=
    fun hms hts => rel_map (fun _ _ ht => ⟨hms, ht⟩) hts
  have hkind := kind_of_categoryAt hcategory
  cases category with
  | nameSpace =>
    simp only [Compilation.nestedAt]
    generalize c.containerAt s = owner, c'.containerAt s' = owner', h.container hs = hrel
    cases hrel with
    | none => exact .nil
    | some hm => exact .cons ⟨hmethods, hm⟩ .nil
  | namedType =>
    have houter := h.outer (h.definition hs)
    by_cases hself : c.definitionAt s = s
    · simp only [Compilation.nestedAt, hself, (h.definitionAt_eq_iff hs).mpr hself, if_true]
      rw [hself, (h.definitionAt_eq_iff hs).mpr hself] at houter
      exact .cons ⟨hmethods, houter⟩ .nil
    · simp only [Compilation.nestedAt, hself, mt (h.definitionAt_eq_iff hs).mp hself, if_false]
      exact .cons ⟨hmethods, houter⟩ (heach hmethods (h.typeArguments hs))
  | arrayType | pointerType => exact .cons ⟨hmethods, h.type hs⟩ .nil
  | tupleType => exact heach hmethods (h.memberTypesAt hs (.inl hkind) _)
  | anonymousType => exact heach hmethods (h.memberTypesAt hs (.inr hkind) _)
  | typeParameterOrdinal => exact .nil
  | typeParameter | field | parameter | localVariable => exact .cons ⟨hmethods, h.outer hs⟩ .nil
  | property => exact .cons ⟨hmethods, h.outer hs⟩ (heach hmethods (h.signature hs))
  | method =>
    exact .cons ⟨hmethods, h.outer hs⟩
      (heach (rel_append hmethods (.cons hs .nil)) (h.signature hs))

theorem ordinalAt (hs : R s s') (hmethods : Forall₂ R methods methods') :
    c'.ordinalAt methods' s' = c.ordinalAt methods s := by
  unfold Compilation.ordinalAt
  generalize c.containerAt s = owner, c'.containerAt s' = owner', h.container hs = hrel
  cases hrel with
  | none => rfl
  | some hm =>
    simp only [h.methodIndex? hm hmethods, idxOf?_related h.unique (h.typeParameters hm) hs]

/-- The slots of corresponding segments hold the same, as far as the view shows. -/
theorem assembledAt (hs : R s s') (hmethods : Forall₂ R methods methods')
    (hcategory : c.categoryAt methods s = category) {ds ds' : List Description}
    (hds : ds'.map (Description.mapLeaves id view) = ds.map (Description.mapLeaves id view)) :
    (c'.assembledAt methods' s' category ds').mapLeaves id view =
      (c.assembledAt methods s category ds).mapLeaves id view := by
  have hhead : (ds'.headD .global).mapLeaves id view = (ds.headD .global).mapLeaves id view := by
    cases ds <;> cases ds' <;> simp_all
  have htail : ds'.tail.map (Description.mapLeaves id view) =
      ds.tail.map (Description.mapLeaves id view) := by
    rw [map_tail, map_tail, hds]
  have hkind := kind_of_categoryAt hcategory
  cases category with
  | nameSpace =>
    cases ds with
    | nil =>
      rw [map_nil, map_eq_nil_iff] at hds
      rw [hds]
      rfl
    | cons d rest =>
      cases ds' with
      | nil => cases hds
      | cons d' rest' =>
        simp only [Compilation.assembledAt, Description.mapLeaves, h.name hs]
        rw [(cons.inj hds).1]
  | namedType =>
    simp only [Compilation.assembledAt, Description.mapLeaves, Description.mapLeavesEach_eq, hhead,
      htail, h.definitionAt_eq_iff hs, h.name (h.definition hs),
      (h.typeParameters (h.definition hs)).length_eq, (h.typeArguments hs).length_eq]
  | arrayType => simp only [Compilation.assembledAt, Description.mapLeaves, hhead, h.rank hs]
  | pointerType => simp only [Compilation.assembledAt, Description.mapLeaves, hhead]
  | tupleType =>
    simp only [Compilation.assembledAt, Description.mapLeaves, Description.mapLeavesEach_eq, hds,
      (h.memberTypesAt hs (.inl hkind) .field).length_eq, h.elementNamesAt hs (.inl hkind),
      h.map_locationAt hs (.inl hkind) .field]
  | anonymousType =>
    simp only [Compilation.assembledAt, Description.mapLeaves, Description.mapLeavesEach_eq, hds,
      (h.memberTypesAt hs (.inr hkind) .property).length_eq, h.propertyNamesAt hs (.inr hkind),
      h.readOnlyAt hs (.inr hkind), h.map_locationAt hs (.inr hkind) .property]
  | typeParameterOrdinal =>
    simp only [Compilation.assembledAt, Description.mapLeaves, h.ordinalAt hs hmethods]
  | typeParameter | field | parameter =>
    simp only [Compilation.assembledAt, Description.mapLeaves, hhead, h.name hs]
  | localVariable =>
    simp only [Compilation.assembledAt, Description.mapLeaves, hhead, h.name hs,
      h.localOrdinal hs hkind]
  | property =>
    simp only [Compilation.assembledAt, Description.mapLeaves, Description.mapLeavesEach_eq, hhead,
      htail, h.name hs, (h.signature hs).length_eq]
  | method =>
    simp only [Compilation.assembledAt, Description.mapLeaves, Description.mapLeavesEach_eq, hhead,
      htail, h.name hs, (h.typeParameters hs).length_eq, (h.signature hs).length_eq]

/-! ## Descriptions -/

/-- Related symbols have the same description, as far as the view shows, and within the same
depth. -/
theorem ofSymbolWithin (hclosed : c.Closed) (hclosed' : c'.Closed) (n : Nat) :
    ∀ {methods methods' : List SymbolId} {s s' : SymbolId}, Forall₂ R methods methods' → R s s' →
      SameOutcome (fun d d' => d'.mapLeaves id view = d.mapLeaves id view)
        (Description.ofSymbolWithin c n methods s)
          (Description.ofSymbolWithin c' n methods' s') := by
  induction n with
  | zero =>
    intro methods methods' s s' _ _
    exact .error _
  | succ n ih =>
    intro methods methods' s s' hmethods hs
    obtain ⟨hissued, hissued'⟩ := h.issued hs
    rw [Description.ofSymbolWithin_succ hclosed hissued,
      Description.ofSymbolWithin_succ hclosed' hissued', Description.inner, Description.inner,
      h.categoryAt hs hmethods]
    have hinner := mapM_related (h.nestedAt hs hmethods rfl) fun p _ p' hp => ih hp.1 hp.2
    -- what is assembled from them depends on what the view shows of the parts
    refine hinner.bind fun ds ds' hds => .ok (h.assembledAt hs hmethods rfl ?_)
    have hmap : Forall₂ Eq _ _ := rel_map (fun _ _ hd => hd.symm) hds
    rw [forall₂_eq_eq_eq] at hmap
    exact hmap.symm

end Resembles

end Compilation
end Moniker
