import Moniker.Proofs.Describing

/-!
# What is described inside a segment

Describing a symbol describes others first (`Compilation.nestedAt`), each inside the signatures of
certain methods, and then fills the slots of one segment (`Compilation.assembledAt`). That the two
together are what describing does is `Description.ofSymbolAs_eq`, so that nothing else needs to look
at the categories one by one to follow a description inwards.
-/

namespace Moniker

theorem mapM_map {f : α → γ} {g : γ → Except ε β} (as : List α) :
    (as.map f).mapM g = as.mapM fun a => g (f a) := by
  induction as with
  | nil => rfl
  | cons a rest ih => rw [List.map_cons, List.mapM_cons, List.mapM_cons, ih]

/-- Where all steps come to something, so does each. -/
theorem forall₂_of_mapM {f : α → Except ε β} {as : List α} {bs : List β} (h : as.mapM f = .ok bs) :
    List.Forall₂ (fun a b => f a = .ok b) as bs := by
  induction as generalizing bs with
  | nil => cases h; exact .nil
  | cons a rest ih =>
      rw [List.mapM_cons] at h
      cases hhead : f a with
      | error e => rw [hhead] at h; cases h
      | ok b =>
          cases htail : rest.mapM f with
          | error e => rw [hhead, htail] at h; cases h
          | ok bs' =>
              rw [hhead, htail] at h
              cases h
              exact .cons hhead (ih htail)

theorem mapM_of_forall₂ {f : α → Except ε β} {as : List α} {bs : List β}
    (h : List.Forall₂ (fun a b => f a = .ok b) as bs) : as.mapM f = .ok bs := by
  induction h with
  | nil => rfl
  | cons hhead _ ih => rw [List.mapM_cons, hhead, ih]; rfl

namespace Compilation

/-- The category under which a symbol is described inside the signatures of the methods. -/
def categoryAt (c : Compilation) (methods : List SymbolId) (s : SymbolId) : Category :=
  match (c.entry s).kind with
  | .nameSpace => .nameSpace
  | .namedType => .namedType
  | .arrayType => .arrayType
  | .pointerType => .pointerType
  | .tupleType => .tupleType
  | .anonymousType => .anonymousType
  | .typeParameter =>
    if (c.containerAt s).any (· ∈ methods) then .typeParameterOrdinal else .typeParameter
  | .field => .field
  | .property => .property
  | .method => .method
  | .parameter => .parameter
  | .localVariable => .localVariable

/-- The symbols that are described inside a segment of the category, each with the methods inside
whose signatures it is. -/
def nestedAt (c : Compilation) (methods : List SymbolId) (s : SymbolId) :
    Category → List (List SymbolId × SymbolId)
  | .nameSpace => (c.containerAt s).toList.map (methods, ·)
  | .namedType => (methods, c.outerAt (c.definitionAt s)) ::
      if c.definitionAt s = s then [] else (c.entry s).typeArguments.map (methods, ·)
  | .arrayType | .pointerType => [(methods, c.typeAt s)]
  | .tupleType => (c.memberTypesAt .field s).map (methods, ·)
  | .anonymousType => (c.memberTypesAt .property s).map (methods, ·)
  | .typeParameterOrdinal => []
  | .typeParameter | .field | .parameter | .localVariable => [(methods, c.outerAt s)]
  | .property => (methods, c.outerAt s) :: (c.signatureAt s).map (methods, ·)
  | .method => (methods, c.outerAt s) :: (c.signatureAt s).map (methods ++ [s], ·)

/-- Where a type parameter stands among those of the methods. -/
def ordinalAt (c : Compilation) (methods : List SymbolId) (s : SymbolId) : Nat × Nat :=
  match c.containerAt s with
  | none => (0, 0)
  | some m => ((Description.methodIndex? methods m).getD 0,
      ((c.entry m).typeParameters.idxOf? s).getD 0)

/-- The segment of a symbol, given the segments inside it. -/
def assembledAt (c : Compilation) (methods : List SymbolId) (s : SymbolId) :
    Category → List Description → Description
  | .nameSpace, [] => .global
  | .nameSpace, container :: _ => .nameSpace container (.ok (c.entry s).name)
  | .namedType, ds =>
    let g := c.definitionAt s
    .namedType (ds.headD .global) (.ok (c.entry g).name) (.ok (c.entry g).typeParameters.length)
      (.ok (if g = s then .absent else .ofLength (c.entry s).typeArguments.length)) ds.tail
  | .arrayType, ds => .arrayType (ds.headD .global) (.ok (c.entry s).rank.toNat)
  | .pointerType, ds => .pointerType (ds.headD .global)
  | .tupleType, ds =>
    .tupleType (.ok (.ofLength (c.memberTypesAt .field s).length)) ds
      (.ofItems? (some (c.elementNamesAt s)))
      (.ofItems? (some ((c.membersAt .field s).map c.locationAt)))
  | .anonymousType, ds =>
    .anonymousType (.ok (.ofLength (c.memberTypesAt .property s).length)) ds
      (.ofItems? (some ((c.propertyNamesAt s).map some))) (.ofItems? (some (c.readOnlyAt s)))
      (.ofItems? (some ((c.membersAt .property s).map c.locationAt)))
  | .typeParameter, ds => .typeParameter (ds.headD .global) (.ok (c.entry s).name)
  | .typeParameterOrdinal, _ =>
    .typeParameterOrdinal (.ok (c.ordinalAt methods s).1) (.ok (c.ordinalAt methods s).2)
  | .field, ds => .field (ds.headD .global) (.ok (c.entry s).name)
  | .property, ds =>
    .property (ds.headD .global) (.ok (c.entry s).name)
      (.ok (.ofLength (c.signatureAt s).length)) ds.tail
  | .method, ds =>
    .method (ds.headD .global) (.ok (c.entry s).name) (.ok (c.entry s).typeParameters.length)
      (.ok (.ofLength (c.signatureAt s).length)) ds.tail
  | .parameter, ds => .parameter (ds.headD .global) (.ok (c.entry s).name)
  | .localVariable, ds =>
    .localVariable (ds.headD .global) (.ok (c.entry s).name) (.ok (c.localOrdinalAt s))

variable {c : Compilation} {methods : List SymbolId} {s : SymbolId}

theorem exists_cons {p : List SymbolId × SymbolId} {ps : List (List SymbolId × SymbolId)}
    {ds : List Description} (hlength : ds.length = (p :: ps).length) :
    ∃ d ds', ds = d :: ds' ∧ ds'.length = ps.length := by
  cases ds with
  | nil => cases hlength
  | cons d ds' => exact ⟨d, ds', rfl, by simpa using hlength⟩

theorem outerAt_eq (hs : c.Issued s) : c.containerOrGlobal s = .ok (c.outerAt s) :=
  containerOrGlobal_eq hs

/-- What is described inside a segment has been issued. -/
theorem Closed.issued_nestedAt (h : c.Closed) (hs : c.Issued s) {category : Category}
    {p : List SymbolId × SymbolId} (hp : p ∈ c.nestedAt methods s category) : c.Issued p.2 := by
  have houter : ∀ {s : SymbolId}, c.Issued s → c.Issued (c.outerAt s) := fun hs =>
    h.issued_container hs
  cases category with
  | nameSpace =>
      obtain ⟨q, hq, rfl⟩ := List.mem_map.mp hp
      have hissued := h.issued_container hs
      rwa [Option.mem_toList.mp hq] at hissued
  | namedType =>
      rcases List.mem_cons.mp hp with rfl | hp
      · exact houter (h.issued_definition hs)
      · split at hp
        · cases hp
        · obtain ⟨t, ht, rfl⟩ := List.mem_map.mp hp
          exact h.table.typeArguments hs ht
  | arrayType | pointerType =>
      obtain rfl := List.mem_singleton.mp hp
      exact h.issued_typeAt hs
  | tupleType | anonymousType =>
      obtain ⟨t, ht, rfl⟩ := List.mem_map.mp hp
      exact h.issued_memberTypesAt hs _ t ht
  | typeParameterOrdinal => cases hp
  | typeParameter | field | parameter | localVariable =>
      obtain rfl := List.mem_singleton.mp hp
      exact houter hs
  | property | method =>
      rcases List.mem_cons.mp hp with rfl | hp
      · exact houter hs
      · obtain ⟨t, ht, rfl⟩ := List.mem_map.mp hp
        exact h.issued_signature hs t ht

end Compilation

namespace Description

open Compilation

variable {c : Compilation} {methods : List SymbolId} {s : SymbolId}

theorem categoryOf_eq (hs : c.Issued s) :
    categoryOf c methods s = .ok (c.categoryAt methods s) := by
  unfold categoryOf categoryAt
  simp only [kind_eq hs, container_eq hs]
  cases (c.entry s).kind <;> try rfl
  cases c.containerAt s with
  | none => rfl
  | some m =>
      show Except.ok _ = _
      simp

/-- Describing a symbol is describing the symbols inside its segment and filling the slots. -/
theorem ofSymbolAs_eq (h : c.Closed) (hs : c.Issued s)
    (nested : List SymbolId → SymbolId → Except Fault Description) (category : Category) :
    ofSymbolAs c nested methods s category =
      (c.assembledAt methods s category ·) <$>
        (c.nestedAt methods s category).mapM fun p => nested p.1 p.2 := by
  have houter : c.Issued (c.outerAt s) := h.issued_container hs
  have hdefinition := h.issued_definition hs
  cases category with
  | nameSpace =>
      simp only [ofSymbolAs, nestedAt, container_eq hs, name_eq hs, bind, Except.bind]
      cases c.containerAt s with
      | none => rfl
      | some p =>
          simp only [Option.toList, List.map_cons, List.map_nil, List.mapM_cons, List.mapM_nil]
          cases nested methods p <;> rfl
  | namedType =>
      simp only [ofSymbolAs, nestedAt, definition_eq hs, outerAt_eq hdefinition,
        name_eq hdefinition, typeParameters_eq hdefinition, typeArguments_eq hs, bind, Except.bind,
        List.mapM_cons]
      cases nested methods (c.outerAt (c.definitionAt s)) with
      | error e => rfl
      | ok container =>
          by_cases hself : c.definitionAt s = s
          · simp only [hself, if_true, List.mapM_nil, assembledAt]
            rfl
          · simp only [hself, if_false, mapM_map, assembledAt]
            cases (c.entry s).typeArguments.mapM (nested methods) <;> rfl
  | arrayType =>
      simp only [ofSymbolAs, nestedAt, typeOrUniversal_eq hs, rank_eq hs, bind, Except.bind,
        List.mapM_cons, List.mapM_nil]
      cases nested methods (c.typeAt s) <;> rfl
  | pointerType =>
      simp only [ofSymbolAs, nestedAt, typeOrUniversal_eq hs, bind, Except.bind, List.mapM_cons,
        List.mapM_nil]
      cases nested methods (c.typeAt s) <;> rfl
  | tupleType =>
      simp only [ofSymbolAs, nestedAt, h.membersOfKind_eq hs, h.memberTypes_eq hs,
        h.memberNames_eq hs, h.memberLocations_eq hs, bind, Except.bind, mapM_map, List.map_map]
      cases (c.memberTypesAt .field s).mapM (nested methods) <;> rfl
  | anonymousType =>
      simp only [ofSymbolAs, nestedAt, h.membersOfKind_eq hs, h.memberTypes_eq hs,
        h.memberNames_eq hs, h.readOnly_eq hs, h.memberLocations_eq hs, bind, Except.bind, mapM_map]
      cases (c.memberTypesAt .property s).mapM (nested methods) <;> rfl
  | typeParameterOrdinal =>
      simp only [ofSymbolAs, nestedAt, container_eq hs, assembledAt, ordinalAt, bind, Except.bind]
      cases hcontainer : c.containerAt s with
      | none => rfl
      | some m =>
          have hm : c.Issued m := by simpa [hcontainer] using h.issued_container hs
          simp only [typeParameters_eq hm]
          rfl
  | typeParameter | field | parameter =>
      simp only [ofSymbolAs, nestedAt, outerAt_eq hs, name_eq hs, bind, Except.bind,
        List.mapM_cons, List.mapM_nil]
      cases nested methods (c.outerAt s) <;> rfl
  | localVariable =>
      simp only [ofSymbolAs, nestedAt, outerAt_eq hs, name_eq hs, h.localsNamed_eq houter, bind,
        Except.bind, List.mapM_cons, List.mapM_nil]
      cases nested methods (c.outerAt s) <;> rfl
  | property =>
      simp only [ofSymbolAs, nestedAt, outerAt_eq hs, name_eq hs, h.parameterTypes_eq hs,
        bind, Except.bind, List.mapM_cons, mapM_map]
      cases nested methods (c.outerAt s) with
      | error e => rfl
      | ok container => cases (c.signatureAt s).mapM (nested methods) <;> rfl
  | method =>
      simp only [ofSymbolAs, nestedAt, outerAt_eq hs, name_eq hs, typeParameters_eq hs,
        h.parameterTypes_eq hs, bind, Except.bind, List.mapM_cons, mapM_map]
      cases nested methods (c.outerAt s) with
      | error e => rfl
      | ok container => cases (c.signatureAt s).mapM (nested (methods ++ [s])) <;> rfl

/-- The symbols that are described inside the segment of a symbol. -/
def inner (c : Compilation) (methods : List SymbolId) (s : SymbolId) :
    List (List SymbolId × SymbolId) :=
  c.nestedAt methods s (c.categoryAt methods s)

/-- One more level of a description. -/
theorem ofSymbolWithin_succ (h : c.Closed) (hs : c.Issued s) (n : Nat) :
    ofSymbolWithin c (n + 1) methods s =
      (c.assembledAt methods s (c.categoryAt methods s) ·) <$>
        (inner c methods s).mapM fun p => ofSymbolWithin c n p.1 p.2 := by
  rw [ofSymbolWithin, categoryOf_eq hs]
  exact ofSymbolAs_eq h hs _ _

/-- A description is that of one segment, with those inside it one level less deep. -/
theorem ofSymbolWithin_eq_ok (h : c.Closed) (hs : c.Issued s) {n : Nat} {d : Description} :
    ofSymbolWithin c (n + 1) methods s = .ok d ↔
      ∃ ds, List.Forall₂ (fun p d => ofSymbolWithin c n p.1 p.2 = .ok d) (inner c methods s) ds ∧
        d = c.assembledAt methods s (c.categoryAt methods s) ds := by
  rw [ofSymbolWithin_succ h hs]
  constructor
  · intro hd
    cases hds : (inner c methods s).mapM fun p => ofSymbolWithin c n p.1 p.2 with
    | error e => rw [hds] at hd; cases hd
    | ok ds =>
        rw [hds] at hd
        cases hd
        exact ⟨ds, forall₂_of_mapM hds, rfl⟩
  · rintro ⟨ds, hds, rfl⟩
    rw [mapM_of_forall₂ hds]
    rfl

/-- A description that is found within one depth is found within a greater one. -/
theorem ofSymbolWithin_mono (h : c.Closed) (hs : c.Issued s) {n m : Nat} {d : Description}
    (hd : ofSymbolWithin c n methods s = .ok d) (hle : n ≤ m) :
    ofSymbolWithin c m methods s = .ok d := by
  induction n generalizing m methods s d with
  | zero => cases hd
  | succ n ih =>
      obtain ⟨m, rfl⟩ : ∃ m', m = m' + 1 := ⟨m - 1, by omega⟩
      obtain ⟨ds, hds, rfl⟩ := (ofSymbolWithin_eq_ok h hs).mp hd
      refine (ofSymbolWithin_eq_ok h hs).mpr ⟨ds, ?_, rfl⟩
      have hinner : ∀ p ∈ inner c methods s, c.Issued p.2 := fun p hp => h.issued_nestedAt hs hp
      generalize inner c methods s = ps at hds hinner
      clear hd
      induction hds with
      | nil => exact .nil
      | cons hhead _ ihds =>
          exact .cons (ih (hinner _ (by simp)) hhead (by omega))
            (ihds fun p hp => hinner p (by simp [hp]))

end Description
end Moniker
