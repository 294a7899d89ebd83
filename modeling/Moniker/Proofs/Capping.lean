import Moniker.Proofs.Finding
import Moniker.Proofs.Standing

/-!
# Anonymous types that a cap rejects

A compilation may cap the number of properties of anonymous types. Decoding puts the root type in
the place of an anonymous type that the cap rejects, and goes on as if the key had named that.
`Description.capped` is the description that decoding follows then. It has the segment of the root
type in place of every anonymous type with too many properties, whatever is nested in those.

The root type is a built-in of every program, and requests may declare things in it but change
nothing else about it (`SymbolTable.Rooted`). So it keeps its description, which is the same inside
all methods (`Compilation.FallsBack`).
-/

namespace Moniker

namespace Description

/-- The segment of the root type. -/
def root : Description := .namedType .global (.ok "object") (.ok 0) (.ok .absent) []

mutual

/-- The description with the root type in place of the anonymous types that the cap rejects. -/
def capped (cap : Option Nat) : Description → Description
  | unreadable d => unreadable d
  | unflagged d => unflagged d
  | global => global
  | nameSpace container name => nameSpace (container.capped cap) name
  | namedType container name arity presence arguments =>
    namedType (container.capped cap) name arity presence (cappedEach cap arguments)
  | arrayType element rank => arrayType (element.capped cap) rank
  | pointerType pointee => pointerType (pointee.capped cap)
  | tupleType presence types names locations =>
    tupleType presence (cappedEach cap types) names locations
  | anonymousType presence types names readOnly locations =>
    if cap.any (· < types.length) then root
    else anonymousType presence (cappedEach cap types) names readOnly locations
  | typeParameter owner name => typeParameter (owner.capped cap) name
  | typeParameterOrdinal depth ordinal => typeParameterOrdinal depth ordinal
  | field container name => field (container.capped cap) name
  | property container name presence parameters =>
    property (container.capped cap) name presence (cappedEach cap parameters)
  | method container name arity presence parameters =>
    method (container.capped cap) name arity presence (cappedEach cap parameters)
  | parameter owner name => parameter (owner.capped cap) name
  | localVariable owner name ordinal => localVariable (owner.capped cap) name ordinal

def cappedEach (cap : Option Nat) : List Description → List Description
  | [] => []
  | d :: rest => d.capped cap :: cappedEach cap rest

end

variable {cap : Option Nat}

@[simp] theorem cappedEach_eq (ds : List Description) :
    cappedEach cap ds = ds.map (capped cap) := by
  induction ds with
  | nil => rfl
  | cons d rest ih => rw [cappedEach, ih, List.map_cons]

/-- Without a cap nothing is rejected. -/
@[simp] theorem capped_none (d : Description) : d.capped none = d := by
  have heach : ∀ ds : List Description, (∀ d ∈ ds, d.capped none = d) →
      ds.map (capped none) = ds := by
    intro ds hds
    rw [List.map_congr_left hds, List.map_id']
  induction d with
  | unreadable _ | unflagged _ | global | typeParameterOrdinal _ _ => simp only [capped]
  | nameSpace _ _ ih | arrayType _ _ ih | pointerType _ ih | typeParameter _ _ ih | field _ _ ih
  | parameter _ _ ih | localVariable _ _ _ ih => simp only [capped, ih]
  | namedType _ _ _ _ _ ih iheach | method _ _ _ _ _ ih iheach | property _ _ _ _ ih iheach =>
      simp only [capped, ih, cappedEach_eq, heach _ iheach]
  | tupleType _ _ _ _ ih => simp only [capped, cappedEach_eq, heach _ ih]
  | anonymousType _ _ _ _ _ ih =>
      simp only [capped, Option.any_none, Bool.false_eq_true, if_false, cappedEach_eq, heach _ ih]

/-- Only anonymous types give way, and to a named type. -/
theorem category?_capped (d : Description) :
    (d.capped cap).category? = d.category? ∨ (d.capped cap).category? = some .namedType := by
  cases d with
  | anonymousType presence types names readOnly locations =>
      simp only [capped]
      split
      · exact .inr rfl
      · exact .inl rfl
  | _ => exact .inl (by simp only [capped, category?])

/-- It makes no difference to the cap which ranks and locations a description holds. -/
theorem capped_mapLeaves {f : Nat → Nat} {g : Location → Location} (d : Description) :
    (d.mapLeaves f g).capped cap = (d.capped cap).mapLeaves f g := by
  have heach : ∀ ds : List Description,
      (∀ d ∈ ds, (d.mapLeaves f g).capped cap = (d.capped cap).mapLeaves f g) →
      (ds.map (mapLeaves f g)).map (capped cap) = (ds.map (capped cap)).map (mapLeaves f g) := by
    intro ds hds
    rw [List.map_map, List.map_map]
    exact List.map_congr_left hds
  induction d with
  | unreadable _ | unflagged _ | global | typeParameterOrdinal _ _ => simp only [capped, mapLeaves]
  | nameSpace _ _ ih | arrayType _ _ ih | pointerType _ ih | typeParameter _ _ ih | field _ _ ih
  | parameter _ _ ih | localVariable _ _ _ ih => simp only [capped, mapLeaves, ih]
  | namedType _ _ _ _ _ ih iheach | method _ _ _ _ _ ih iheach | property _ _ _ _ ih iheach =>
      simp only [capped, mapLeaves, ih, cappedEach_eq, mapLeavesEach_eq, heach _ iheach]
  | tupleType _ _ _ _ ih =>
      simp only [capped, mapLeaves, cappedEach_eq, mapLeavesEach_eq, heach _ ih]
  | anonymousType _ _ _ _ _ ih =>
      simp only [capped, mapLeaves, cappedEach_eq, mapLeavesEach_eq, List.length_map, heach _ ih]
      split
      · simp only [root, mapLeaves, mapLeavesEach]
      · simp only [mapLeaves, mapLeavesEach_eq]

theorem frames_capped_clipped (d : Description) :
    (d.clipped.capped cap).withoutLocations.frames = (d.capped cap).withoutLocations.frames := by
  rw [clipped, capped_mapLeaves]
  exact frames_clipped_withoutLocations (d.capped cap)

end Description

/-! ## The root type -/

namespace SymbolTable

open Draft (object)

/-- Nothing but members and parameters distinguishes the root type from the built-in. -/
structure Rooted (t : SymbolTable) : Prop where
  issued : t.Issued object
  entry : { t.entry object with members := [], parameters := [] } = Draft.builtin "object"

variable {t t' : SymbolTable} {role : Attachment} {owner : SymbolId}

theorem Rooted.grows (h : t.Rooted) (hgrows : t.Grows t') : t'.Rooted :=
  ⟨hgrows.issued h.issued, by rw [hgrows.entry _ h.issued, h.entry]⟩

/-- The root type gains no type parameters. -/
theorem Rooted.declared (h : t.Rooted) (ho : t.Issued owner)
    (hrole : role = .typeParameter → owner ≠ object) (x : Symbol) :
    (t.declared role owner x).Rooted := by
  refine ⟨issued_declared h.issued, ?_⟩
  rw [entry_declared_eq ho h.issued]
  split
  · next heq =>
      cases role with
      | member | parameter => exact h.entry
      | typeParameter => exact absurd heq.symm (hrole rfl)
  · exact h.entry

theorem Rooted.declaredAll (h : t.Rooted) (ho : t.Issued owner)
    (hrole : role = .typeParameter → owner ≠ object) (xs : List Symbol) :
    (t.declaredAll role owner xs).Rooted := by
  induction xs generalizing t with
  | nil => exact h
  | cons x rest ih => exact ih (h.declared ho hrole x) (issued_declared ho)

theorem Rooted.next_ne (h : t.Rooted) : t.next ≠ object := by
  intro heq
  exact not_issued_next (heq ▸ h.issued)

theorem rooted_empty : Draft.empty.table.Rooted :=
  ⟨show 1 < 5 from by decide, rfl⟩

/-- Whatever a request does, the root type stays the built-in. -/
theorem Rooted.after (h : t.Rooted) (hclosed : t.Closed) (r : Request) (hr : r.Issued t) :
    (r.after t).Rooted := by
  cases r with
  | file path => exact h
  | limitAnonymousArity limit => exact ⟨h.issued, h.entry⟩
  | nameSpace owner name | field owner name type location
  | property owner name type readOnly location | parameter owner name type
  | localVariable owner name type =>
      exact h.declared (hr owner (by simp [Request.symbols])) (by simp) _
  | namedType owner name typeParameters | method owner name typeParameters
  | indexer owner name type parameters =>
      have ho := hr owner (by simp [Request.symbols])
      exact (h.declared ho (by simp) _).declaredAll issued_next_declared (fun _ => h.next_ne) _
  | structural request => exact h.grows (request.after_closed hclosed hr).1

end SymbolTable

namespace Compilation

open Description

variable {c c' : Compilation}

/-- What a cap makes decoding fall back to is the root type. -/
def FallsBack (c : Compilation) : Prop :=
  c.table.maxAnonymousArity ≠ none → ∀ methods, Describes c methods c.universal root

theorem FallsBack.later (h : c.FallsBack) (hgrows : c.Grows c') (hclosed : c.Closed) :
    c'.FallsBack := by
  intro hcap methods
  rw [hgrows.table.limit] at hcap
  rw [hgrows.universal]
  exact (h hcap methods).grows hgrows hclosed hclosed.universal

theorem Made.fallsBack (h : c.Made Request.Contained) : c.FallsBack := by
  intro _ methods
  have hlawful := h.lawful
  obtain ⟨⟨-, hrooted⟩, -⟩ := h.table (fun _ _ hr => hr.issued)
    (P := fun t => t.Closed ∧ t.Rooted) ⟨Draft.closed_empty, SymbolTable.rooted_empty⟩
    fun t r ht hr => ⟨(r.after_closed ht.1 hr.issued).1, ht.2.after ht.1 r hr.issued⟩
  have hentry := hrooted.entry
  have hkind : (c.entry Draft.object).kind = .namedType := congrArg Symbol.kind hentry
  have hname : (c.entry Draft.object).name = "object" := congrArg Symbol.name hentry
  have hdefinition : (c.entry Draft.object).definition = none := congrArg Symbol.definition hentry
  have hparameters : (c.entry Draft.object).typeParameters = [] :=
    congrArg Symbol.typeParameters hentry
  have hcontainer : (c.entry Draft.object).container = some Draft.global :=
    congrArg Symbol.container hentry
  have houter : c.outerAt Draft.object = Draft.global := by
    rw [outerAt, hlawful.containerAt_eq, hcontainer]
    rfl
  obtain ⟨-, hspace, hnone⟩ := hlawful.table.root
  have hglobal : Describes c methods Draft.global .global :=
    .global hspace (by rw [hlawful.containerAt_eq]; exact hnone)
  have hroot := Describes.definition hkind (definitionAt_self hdefinition) (houter ▸ hglobal)
  rw [hname, hparameters] at hroot
  rw [hlawful.plain.universal]
  exact hroot

end Compilation
end Moniker
