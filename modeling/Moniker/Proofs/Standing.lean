import Moniker.Proofs.Describing
import Moniker.Proofs.Growth

/-!
# Descriptions stand

A symbol has one description inside the same methods (`Description.Describes.unique`), and keeps it
in every later state of its compilation (`Description.Describes.grows`), for later states only add
symbols.
-/

namespace Moniker

namespace Compilation

variable {c c' : Compilation} {s : SymbolId}

/-! ## What later states leave alone -/

theorem Grows.containerAt (h : c.Grows c') (hs : c.Issued s) :
    c'.containerAt s = c.containerAt s := by
  rw [Compilation.containerAt, Compilation.containerAt, h.hiddenContainers, h.entry hs]

theorem Grows.outerAt (h : c.Grows c') (hs : c.Issued s) : c'.outerAt s = c.outerAt s := by
  rw [Compilation.outerAt, Compilation.outerAt, h.containerAt hs, h.global]

theorem Grows.definitionAt (h : c.Grows c') (hs : c.Issued s) :
    c'.definitionAt s = c.definitionAt s := by
  rw [Compilation.definitionAt, Compilation.definitionAt, h.entry hs]

section Members

variable (h : c.Grows c') (hclosed : c.Closed) (hs : c.Issued s) (kind : SymbolKind)
include h hclosed hs

theorem Grows.membersAt : c'.membersAt kind s = c.membersAt kind s := by
  rw [Compilation.membersAt, Compilation.membersAt, h.entry hs]
  exact List.filter_congr fun m hm => by rw [h.entry (hclosed.table.members hs hm)]

/-- Whatever members are mapped to stays the same if it is read off their entries. -/
theorem Grows.map_membersAt {α : Type} {f f' : SymbolId → α} (hf : ∀ m, c.Issued m → f' m = f m) :
    (c'.membersAt kind s).map f' = (c.membersAt kind s).map f := by
  rw [h.membersAt hclosed hs kind]
  exact List.map_congr_left fun m hm => hf m (hclosed.issued_membersAt hs hm)

theorem Grows.memberTypesAt : c'.memberTypesAt kind s = c.memberTypesAt kind s :=
  h.map_membersAt hclosed hs kind fun _ hm => h.typeAt hm

theorem Grows.memberLocationsAt : c'.memberLocationsAt kind s = c.memberLocationsAt kind s :=
  h.map_membersAt hclosed hs kind fun _ hm => by rw [locationAt, locationAt, h.entry hm]

theorem Grows.elementNamesAt : c'.elementNamesAt s = c.elementNamesAt s :=
  h.map_membersAt hclosed hs .field fun _ hm => by rw [h.entry hm]

theorem Grows.propertyNamesAt : c'.propertyNamesAt s = c.propertyNamesAt s :=
  h.map_membersAt hclosed hs .property fun _ hm => by rw [h.entry hm]

theorem Grows.readOnlyAt : c'.readOnlyAt s = c.readOnlyAt s :=
  h.map_membersAt hclosed hs .property fun _ hm => by rw [h.entry hm]

theorem Grows.localsAt (accepts : String → Bool) :
    c'.localsAt accepts s = c.localsAt accepts s := by
  rw [Compilation.localsAt, Compilation.localsAt, h.membersAt hclosed hs .localVariable]
  exact List.filter_congr fun m hm => by rw [h.entry (hclosed.issued_membersAt hs hm)]

theorem Grows.localOrdinalAt : c'.localOrdinalAt s = c.localOrdinalAt s := by
  have houter : c.Issued (c.outerAt s) := hclosed.issued_container hs
  rw [Compilation.localOrdinalAt, Compilation.localOrdinalAt, h.outerAt hs, h.entry hs,
    h.localsAt hclosed houter]

end Members

end Compilation

/-- The kind of the symbols that are described under a category. -/
def Category.symbolKind : Category → SymbolKind
  | .nameSpace => .nameSpace
  | .namedType => .namedType
  | .arrayType => .arrayType
  | .pointerType => .pointerType
  | .tupleType => .tupleType
  | .anonymousType => .anonymousType
  | .typeParameter | .typeParameterOrdinal => .typeParameter
  | .field => .field
  | .property => .property
  | .method => .method
  | .parameter => .parameter
  | .localVariable => .localVariable

theorem eq_of_zip {α β : Type} {R : α → β → Prop} {as : List α} {bs bs' : List β}
    (hlength : bs.length = as.length) (hlength' : bs'.length = as.length)
    (h : ∀ p ∈ as.zip bs, ∀ b, R p.1 b → p.2 = b) (h' : ∀ p ∈ as.zip bs', R p.1 p.2) :
    bs = bs' := by
  refine List.ext_getElem (hlength.trans hlength'.symm) fun i hi hi' => ?_
  have hia : i < as.length := hlength ▸ hi
  have hmem : (as[i], bs[i]) ∈ as.zip bs :=
    List.mem_iff_getElem.mpr ⟨i, by rw [List.length_zip]; omega, List.getElem_zip⟩
  have hmem' : (as[i], bs'[i]) ∈ as.zip bs' :=
    List.mem_iff_getElem.mpr ⟨i, by rw [List.length_zip]; omega, List.getElem_zip⟩
  exact h _ hmem _ (h' _ hmem')

namespace Description.Describes

variable {c c' : Compilation} {methods : List SymbolId} {s : SymbolId} {d d' : Description}

/-- The outermost segment shows the kind of the symbol. -/
theorem kind (hd : Describes c methods s d) :
    d.category?.map Category.symbolKind = some (c.entry s).kind := by
  cases hd <;> simp_all [category?, Category.symbolKind]

/-- A description stays one in later states. -/
theorem grows (hd : Describes c methods s d) (h : c.Grows c') (hclosed : c.Closed)
    (hs : c.Issued s) :
    Describes c' methods s d := by
  induction hd with
  | global hkind houter =>
      exact .global (by rw [h.entry hs]; exact hkind) (by rw [h.containerAt hs]; exact houter)
  | @nameSpace _ s p _ hkind houter _ ih =>
      have hp : c.Issued p := by
        have hp := hclosed.issued_container hs
        rwa [houter] at hp
      have hd := nameSpace (by rw [h.entry hs]; exact hkind)
        (by rw [h.containerAt hs]; exact houter) (ih hp)
      rwa [h.entry hs] at hd
  | definition hkind hself _ ih =>
      have hd := definition (by rw [h.entry hs]; exact hkind)
        (by rw [h.definitionAt hs]; exact hself)
        (by rw [h.outerAt hs]; exact ih (hclosed.issued_container hs))
      rwa [h.entry hs] at hd
  | @constructed _ s g _ _ hkind hdefinition hne _ hlength _ ih iharguments =>
      have hg : c.Issued g := by
        have hg := hclosed.issued_definition hs
        rwa [hdefinition] at hg
      have hd := constructed (by rw [h.entry hs]; exact hkind)
        (by rw [h.definitionAt hs]; exact hdefinition) hne
        (by rw [h.outerAt hg]; exact ih (hclosed.issued_container hg))
        (by rw [h.entry hs]; exact hlength)
        (by
          rw [h.entry hs]
          exact fun p hp => iharguments p hp
            (hclosed.table.typeArguments hs (List.of_mem_zip hp).1))
      rwa [h.entry hs, h.entry hg] at hd
  | arrayType hkind _ ih =>
      have hd := arrayType (by rw [h.entry hs]; exact hkind)
        (by rw [h.typeAt hs]; exact ih (hclosed.issued_typeAt hs))
      rwa [h.entry hs] at hd
  | pointerType hkind _ ih =>
      exact .pointerType (by rw [h.entry hs]; exact hkind)
        (by rw [h.typeAt hs]; exact ih (hclosed.issued_typeAt hs))
  | tupleType hkind hlength _ ih =>
      have hd := tupleType (by rw [h.entry hs]; exact hkind)
        (by rw [h.memberTypesAt hclosed hs]; exact hlength)
        (by
          rw [h.memberTypesAt hclosed hs]
          exact fun p hp => ih p hp (hclosed.issued_memberTypesAt hs _ p.1 (List.of_mem_zip hp).1))
      rwa [h.memberTypesAt hclosed hs, h.elementNamesAt hclosed hs,
        h.memberLocationsAt hclosed hs] at hd
  | anonymousType hkind hlength _ ih =>
      have hd := anonymousType (by rw [h.entry hs]; exact hkind)
        (by rw [h.memberTypesAt hclosed hs]; exact hlength)
        (by
          rw [h.memberTypesAt hclosed hs]
          exact fun p hp => ih p hp (hclosed.issued_memberTypesAt hs _ p.1 (List.of_mem_zip hp).1))
      rwa [h.memberTypesAt hclosed hs, h.propertyNamesAt hclosed hs, h.readOnlyAt hclosed hs,
        h.memberLocationsAt hclosed hs] at hd
  | typeParameter hkind hfree _ ih =>
      have hd := typeParameter (by rw [h.entry hs]; exact hkind)
        (by rw [h.containerAt hs]; exact hfree)
        (by rw [h.outerAt hs]; exact ih (hclosed.issued_container hs))
      rwa [h.entry hs] at hd
  | @typeParameterOrdinal _ s m hkind hm howner =>
      have hissued : c.Issued m := by
        have hissued := hclosed.issued_container hs
        rwa [howner] at hissued
      have hd := typeParameterOrdinal (by rw [h.entry hs]; exact hkind) hm
        (by rw [h.containerAt hs]; exact howner)
      rwa [h.entry hissued] at hd
  | field hkind _ ih =>
      have hd := field (by rw [h.entry hs]; exact hkind)
        (by rw [h.outerAt hs]; exact ih (hclosed.issued_container hs))
      rwa [h.entry hs] at hd
  | property hkind _ hlength _ ih ihparameters =>
      have hd := property (by rw [h.entry hs]; exact hkind)
        (by rw [h.outerAt hs]; exact ih (hclosed.issued_container hs))
        (by rw [h.signatureAt hclosed hs]; exact hlength)
        (by
          rw [h.signatureAt hclosed hs]
          exact fun p hp => ihparameters p hp
            (hclosed.issued_signature hs p.1 (List.of_mem_zip hp).1))
      rwa [h.entry hs, h.signatureAt hclosed hs] at hd
  | method hkind _ hlength _ ih ihparameters =>
      have hd := method (by rw [h.entry hs]; exact hkind)
        (by rw [h.outerAt hs]; exact ih (hclosed.issued_container hs))
        (by rw [h.signatureAt hclosed hs]; exact hlength)
        (by
          rw [h.signatureAt hclosed hs]
          exact fun p hp => ihparameters p hp
            (hclosed.issued_signature hs p.1 (List.of_mem_zip hp).1))
      rwa [h.entry hs, h.signatureAt hclosed hs] at hd
  | parameter hkind _ ih =>
      have hd := parameter (by rw [h.entry hs]; exact hkind)
        (by rw [h.outerAt hs]; exact ih (hclosed.issued_container hs))
      rwa [h.entry hs] at hd
  | localVariable hkind _ ih =>
      have hd := localVariable (by rw [h.entry hs]; exact hkind)
        (by rw [h.outerAt hs]; exact ih (hclosed.issued_container hs))
      rwa [h.entry hs, h.localOrdinalAt hclosed hs] at hd

/-- Inside the same methods a symbol has one description. -/
theorem unique (hd : Describes c methods s d) (hd' : Describes c methods s d') : d = d' := by
  induction hd generalizing d' with
  | global hkind houter =>
      cases hd' with
      | global => rfl
      | nameSpace _ houter' _ => rw [houter] at houter'; cases houter'
      | _ => exact SymbolKind.noConfusion (hkind.symm.trans ‹(c.entry _).kind = _›)
  | nameSpace hkind houter _ ih =>
      cases hd' with
      | global _ houter' => rw [houter] at houter'; cases houter'
      | nameSpace _ houter' hcontainer' =>
          rw [houter] at houter'
          cases houter'
          rw [ih hcontainer']
      | _ => exact SymbolKind.noConfusion (hkind.symm.trans ‹(c.entry _).kind = _›)
  | definition hkind hself _ ih =>
      cases hd' with
      | definition _ _ hcontainer' => rw [ih hcontainer']
      | constructed _ hdefinition hne => exact absurd (hdefinition.symm.trans hself) hne
      | _ => exact SymbolKind.noConfusion (hkind.symm.trans ‹(c.entry _).kind = _›)
  | constructed hkind hdefinition hne _ hlength _ ih iharguments =>
      cases hd' with
      | definition _ hself' _ => exact absurd (hdefinition.symm.trans hself') hne
      | constructed _ hdefinition' _ hcontainer' hlength' harguments' =>
          obtain rfl := hdefinition.symm.trans hdefinition'
          rw [ih hcontainer', eq_of_zip hlength hlength' (fun p hp b hb => iharguments p hp hb)
            harguments']
      | _ => exact SymbolKind.noConfusion (hkind.symm.trans ‹(c.entry _).kind = _›)
  | arrayType hkind _ ih =>
      cases hd' with
      | arrayType _ helement' => rw [ih helement']
      | _ => exact SymbolKind.noConfusion (hkind.symm.trans ‹(c.entry _).kind = _›)
  | pointerType hkind _ ih =>
      cases hd' with
      | pointerType _ hpointee' => rw [ih hpointee']
      | _ => exact SymbolKind.noConfusion (hkind.symm.trans ‹(c.entry _).kind = _›)
  | tupleType hkind hlength _ ih =>
      cases hd' with
      | tupleType _ hlength' htypes' =>
          rw [eq_of_zip hlength hlength' (fun p hp b hb => ih p hp hb) htypes']
      | _ => exact SymbolKind.noConfusion (hkind.symm.trans ‹(c.entry _).kind = _›)
  | anonymousType hkind hlength _ ih =>
      cases hd' with
      | anonymousType _ hlength' htypes' =>
          rw [eq_of_zip hlength hlength' (fun p hp b hb => ih p hp hb) htypes']
      | _ => exact SymbolKind.noConfusion (hkind.symm.trans ‹(c.entry _).kind = _›)
  | typeParameter hkind hfree _ ih =>
      cases hd' with
      | typeParameter _ _ howner' => rw [ih howner']
      | typeParameterOrdinal _ hm' howner' => exact absurd howner' (hfree _ hm')
      | _ => exact SymbolKind.noConfusion (hkind.symm.trans ‹(c.entry _).kind = _›)
  | typeParameterOrdinal hkind hm howner =>
      cases hd' with
      | typeParameter _ hfree' _ => exact absurd howner (hfree' _ hm)
      | typeParameterOrdinal _ _ howner' =>
          rw [howner] at howner'
          cases howner'
          rfl
      | _ => exact SymbolKind.noConfusion (hkind.symm.trans ‹(c.entry _).kind = _›)
  | field hkind _ ih =>
      cases hd' with
      | field _ hcontainer' => rw [ih hcontainer']
      | _ => exact SymbolKind.noConfusion (hkind.symm.trans ‹(c.entry _).kind = _›)
  | property hkind _ hlength _ ih ihparameters =>
      cases hd' with
      | property _ hcontainer' hlength' hparameters' =>
          rw [ih hcontainer',
            eq_of_zip hlength hlength' (fun p hp b hb => ihparameters p hp hb) hparameters']
      | _ => exact SymbolKind.noConfusion (hkind.symm.trans ‹(c.entry _).kind = _›)
  | method hkind _ hlength _ ih ihparameters =>
      cases hd' with
      | method _ hcontainer' hlength' hparameters' =>
          rw [ih hcontainer',
            eq_of_zip hlength hlength' (fun p hp b hb => ihparameters p hp hb) hparameters']
      | _ => exact SymbolKind.noConfusion (hkind.symm.trans ‹(c.entry _).kind = _›)
  | parameter hkind _ ih =>
      cases hd' with
      | parameter _ howner' => rw [ih howner']
      | _ => exact SymbolKind.noConfusion (hkind.symm.trans ‹(c.entry _).kind = _›)
  | localVariable hkind _ ih =>
      cases hd' with
      | localVariable _ howner' => rw [ih howner']
      | _ => exact SymbolKind.noConfusion (hkind.symm.trans ‹(c.entry _).kind = _›)

end Description.Describes
end Moniker
