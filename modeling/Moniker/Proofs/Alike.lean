import Moniker.Proofs.Labels

/-!
# Types up to the type parameters of a method

Inside a method a type parameter of it is described by its place, so a signature is told apart from
the signature of another method only up to the type parameters of the two: `Compilation.Alike`
relates types that differ in nothing else. Siblings are `Distinguishable` if no two of them answer
to the same lookup.
-/

namespace Moniker

/-- No letter has an empty lower-case form. -/
theorem Text.lower_eq_empty {s : String} (h : lower s = "") : s = "" := by
  have hlist : lowerAfter [] s.toList = [] := String.ofList_inj.mp (h.trans String.ofList_nil.symm)
  cases hs : s.toList with
  | nil => exact String.toList_eq_nil_iff.mp hs
  | cons letter rest =>
      rw [hs, lowerAfter] at hlist
      obtain ⟨hhead, -⟩ := List.append_eq_nil_iff.mp hlist
      split at hhead
      · cases hhead
      · unfold lowerChar at hhead
        repeat' split at hhead
        all_goals cases hhead

theorem ResolveOptions.namesMatch_self (o : ResolveOptions) (name : String) :
    o.namesMatch name name = true := by
  unfold namesMatch
  split <;> exact beq_self_eq_true _

/-- A name that matches the empty one is empty. -/
theorem ResolveOptions.eq_empty_of_namesMatch {o : ResolveOptions} {name : String}
    (h : o.namesMatch "" name = true) : name = "" := by
  unfold namesMatch at h
  split at h
  · exact Text.lower_eq_empty (beq_iff_eq.mp h).symm
  · exact (beq_iff_eq.mp h).symm

namespace Compilation

/-- The types differ in nothing but that the first has type parameters of the methods around it
where the second has, in the same places, those of other methods. -/
inductive Alike (c : Compilation) (around methods : List SymbolId) : SymbolId → SymbolId → Prop
  | same {s : SymbolId} (hlabel : c.labelAt s = none)
    (hfree : ∀ m ∈ around, c.containerAt s ≠ some m) : Alike c around methods s s
  | own {m m' s a : SymbolId} {i : Nat} (hmethods : (m, m') ∈ around.zip methods)
    (hs : (c.entry m).typeParameters[i]? = some s)
    (ha : (c.entry m').typeParameters[i]? = some a) : Alike c around methods s a
  | built {s a : SymbolId} {l : Label} (hs : c.labelAt s = some l) (ha : c.labelAt a = some l)
    (hlength : (c.partsAt a).length = (c.partsAt s).length)
    (hparts : ∀ p ∈ (c.partsAt s).zip (c.partsAt a), Alike c around methods p.1 p.2) :
    Alike c around methods s a

/-- An element of a tuple that has no name. -/
def Unnamed (c : Compilation) (s : SymbolId) : Prop :=
  (c.entry s).kind = .field ∧ (c.entry s).name = "" ∧
    ∃ p, c.containerAt s = some p ∧ (c.entry p).kind = .tupleType

/-- Declared symbols, or members of a structural type, of one kind and container whose names
match. -/
structure Namesakes (o : ResolveOptions) (c : Compilation) (s a : SymbolId) : Prop where
  issued : c.Issued s ∧ c.Issued a
  declared : (c.entry s).definition = none ∧ (c.entry a).definition = none
  kind : (c.entry a).kind = (c.entry s).kind
  container : ∃ p, c.containerAt s = some p ∧ c.containerAt a = some p
  named : o.namesMatch (c.entry a).name (c.entry s).name = true

/-- What has to be the same of two namesakes for the key of the first to describe the second as
well. Locals are counted among those of exactly the same name. -/
def Coincide (c : Compilation) (s a : SymbolId) : Prop :=
  match (c.entry s).kind with
  | .namedType => (c.entry a).typeParameters.length = (c.entry s).typeParameters.length
  | .property => c.signatureAt a = c.signatureAt s
  | .method => (c.entry a).typeParameters.length = (c.entry s).typeParameters.length ∧
      List.Forall₂ (c.Alike [s] [a]) (c.signatureAt s) (c.signatureAt a)
  | .localVariable => (c.entry a).name ≠ (c.entry s).name
  | _ => True

/-- Siblings can be told apart by what keys say about them, except for unnamed elements of
tuples. -/
def Distinguishable (o : ResolveOptions) (c : Compilation) : Prop :=
  ∀ s a, c.Namesakes o s a → ¬ c.Unnamed s → ¬ c.Unnamed a → c.Coincide s a → a = s

/-- The symbol is no unnamed element of a tuple, or the only one in its tuple. -/
def Sole (o : ResolveOptions) (c : Compilation) (s : SymbolId) : Prop :=
  c.Unnamed s → ∀ a, c.Namesakes o s a → a = s

variable {c c' : Compilation} {around methods : List SymbolId} {s a : SymbolId}

theorem Sole.of_named {o : ResolveOptions} (h : ¬ c.Unnamed s) : c.Sole o s := fun hs => absurd hs h

theorem not_unnamed (hkind : (c.entry s).kind ≠ .field) : ¬ c.Unnamed s := fun h => hkind h.1

theorem not_unnamed_of_hosts {kind : SymbolKind} (h : c.table.Hosts s kind) : ¬ c.Unnamed s := by
  refine not_unnamed fun hfield => ?_
  have hfield : (c.table.entry s).kind = .field := hfield
  have hnot : ¬ c.table.IsDefinition s := fun hdefinition => by
    rw [hdefinition.kind] at hfield
    cases hfield
  cases kind <;> simp [SymbolTable.Hosts, hfield, hnot] at h

theorem not_unnamed_of_isType (h : c.table.IsType s) : ¬ c.Unnamed s := by
  refine not_unnamed fun hfield => ?_
  have htype := h.kind
  rw [show (c.table.entry s).kind = _ from hfield] at htype
  cases htype

/-- What is neither built nor a type parameter is alike itself only. -/
theorem Alike.eq_of_declared (h : c.Alike around methods s a) (hlabel : c.labelAt s = none)
    (hfree : ∀ m ∈ around, s ∉ (c.entry m).typeParameters) : a = s := by
  cases h with
  | same => rfl
  | own hmethods hs _ =>
      exact absurd (List.mem_of_getElem? hs) (hfree _ (List.of_mem_zip hmethods).1)
  | built hs _ _ _ => rw [hlabel] at hs; cases hs

section Later

variable (hgrows : c.Grows c') (hlawful : c.Lawful) (hs : c.Issued s) (ha : c.Issued a)
  (haround : ∀ m ∈ around, c.Issued m) (hmethods : ∀ m ∈ methods, c.Issued m)
include hgrows hlawful hs ha haround hmethods

theorem Alike.grows (h : c.Alike around methods s a) : c'.Alike around methods s a := by
  induction h with
  | @same s hlabel hfree =>
      refine .same (by rw [hgrows.labelAt hlawful.closed hs, hlabel]) fun m hm => ?_
      rw [hgrows.containerAt hs]
      exact hfree m hm
  | own hzip hi hi' =>
      obtain ⟨hm, hm'⟩ := List.of_mem_zip hzip
      exact .own hzip (by rw [hgrows.entry (haround _ hm), hi])
        (by rw [hgrows.entry (hmethods _ hm'), hi'])
  | @built s a l hl hl' hlength _ ih =>
      have hparts := hgrows.partsAt hlawful.closed hs
      have hparts' := hgrows.partsAt hlawful.closed ha
      refine .built (by rw [hgrows.labelAt hlawful.closed hs, hl])
        (by rw [hgrows.labelAt hlawful.closed ha, hl']) (by rw [hparts, hparts', hlength]) ?_
      rw [hparts, hparts']
      intro p hp
      obtain ⟨hp₁, hp₂⟩ := List.of_mem_zip hp
      exact ih p hp (hlawful.isType_of_mem_partsAt hs hp₁).issued
        (hlawful.isType_of_mem_partsAt ha hp₂).issued

/-- Symbols that a later state makes alike were so before. -/
theorem Alike.of_later (h : c'.Alike around methods s a) : c.Alike around methods s a := by
  induction h with
  | @same s hlabel hfree =>
      refine .same (by rw [← hgrows.labelAt hlawful.closed hs, hlabel]) fun m hm => ?_
      rw [← hgrows.containerAt hs]
      exact hfree m hm
  | own hzip hi hi' =>
      obtain ⟨hm, hm'⟩ := List.of_mem_zip hzip
      exact .own hzip (by rw [← hgrows.entry (haround _ hm), hi])
        (by rw [← hgrows.entry (hmethods _ hm'), hi'])
  | @built s a l hl hl' hlength _ ih =>
      have hparts := hgrows.partsAt hlawful.closed hs
      have hparts' := hgrows.partsAt hlawful.closed ha
      rw [hparts, hparts'] at hlength ih
      refine .built (by rw [← hgrows.labelAt hlawful.closed hs, hl])
        (by rw [← hgrows.labelAt hlawful.closed ha, hl']) hlength fun p hp => ?_
      obtain ⟨hp₁, hp₂⟩ := List.of_mem_zip hp
      exact ih p hp (hlawful.isType_of_mem_partsAt hs hp₁).issued
        (hlawful.isType_of_mem_partsAt ha hp₂).issued

end Later

end Compilation
end Moniker
