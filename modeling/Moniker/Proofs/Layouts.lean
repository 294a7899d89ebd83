import Moniker.Proofs.Parts

/-!
# What stands in segments

The category of a segment fixes what stands in it after its kind frame (`Category.layout`): slots,
segments and arrays. All of it is read, whatever comes of it. If the segment fails then, the first
thing in it that failed is to blame, and if nothing has, the segment fails by itself, in one of a
few ways (`Reader.accounts`). The signature of a method is read more than once and is left to
`Moniker.Proofs.Blaming`.
-/

namespace Moniker

/-! ## Layouts -/

/-- One thing that stands in a segment. What can fail has the label under which it is mentioned
then. -/
inductive Piece where
  | flag
  | name
  | count
  | texts
  | bools
  | segment (label : String)
  | segments (label : String)
  | locations (label : String)
  deriving Repr, DecidableEq

def Piece.label : Piece → String
  | segment label | segments label | locations label => label
  | _ => ""

namespace Category

/-- What stands in a segment after its kind frame, apart from the signature of a method. A namespace
that is not the global one is told by its flag. -/
def layout : Category → List Piece
  | .nameSpace => [.flag, .segment "containingNamespace", .name]
  | .namedType => [.segment "containingSymbol", .name, .count, .segments "typeArguments"]
  | .arrayType => [.segment "elementType", .count]
  | .pointerType => [.segment "pointedAtType"]
  | .tupleType => [.segments "elementTypes", .texts, .locations "elementLocations"]
  | .anonymousType => [.segments "propertyTypes", .texts, .bools, .locations "propertyLocations"]
  | .typeParameter => [.segment "owner", .name]
  | .typeParameterOrdinal => [.count, .count]
  | .field => [.segment "containingType", .name]
  | .property => [.segment "containingType", .name, .segments "parameterTypes"]
  | .method => [.segment "containingType", .name, .count]
  | .parameter => [.segment "containingSymbol", .name]
  | .localVariable => [.segment "containingMethod", .name, .count]

/-- How a segment fails when nothing in it does: what it describes has a name that is not found, or
is a type that is not built, or is a type parameter that no enclosing method has. -/
inductive Leaf : Category → Failure → Prop
  | notFound {category : Category} (hnamed : .name ∈ category.layout) (name : String) :
    Leaf category (.notFound category.codec name)
  | rejected {category : Category} (hbuilt : category = .namedType ∨ category = .tupleType)
    (detail : String) : Leaf category (.rejected category.codec detail)
  | unbound (detail : String) :
    Leaf .typeParameterOrdinal (.unbound Category.typeParameterOrdinal.codec detail)

end Category

/-- Of what stands in a segment, the first piece that failed is to blame for the failure, and the
segment itself if none has. -/
def Blamed (category : Category) : List (Piece × Option Failure) → Failure → Prop
  | [], reason => category.Leaf reason
  | (_, none) :: rest, reason => Blamed category rest reason
  | (piece, some cause) :: _, reason => reason = .field category.codec piece.label cause

/-- The pieces, none of which failed. -/
def intact (pieces : List Piece) : List (Piece × Option Failure) :=
  pieces.map fun piece => (piece, none)

@[simp] theorem map_fst_intact (pieces : List Piece) : (intact pieces).map Prod.fst = pieces := by
  rw [intact, List.map_map]
  exact List.map_id pieces

theorem Blamed.inv {category : Category} {row : List (Piece × Option Failure)} {reason : Failure}
    (h : Blamed category row reason) :
    row = intact (row.map Prod.fst) ∧ category.Leaf reason ∨
    ∃ before piece cause rest, row = intact before ++ (piece, some cause) :: rest ∧
      reason = .field category.codec piece.label cause := by
  induction row with
  | nil => exact .inl ⟨rfl, h⟩
  | cons p row ih =>
    obtain ⟨piece, outcome⟩ := p
    cases outcome with
    | some cause => exact .inr ⟨[], piece, cause, row, rfl, h⟩
    | none =>
      rcases ih h with ⟨hrow, hleaf⟩ | ⟨before, piece', cause, rest, rfl, hreason⟩
      · exact .inl ⟨congrArg _ hrow, hleaf⟩
      · exact .inr ⟨piece :: before, piece', cause, rest, rfl, hreason⟩

namespace Reader

open Pass

variable {α β : Type} {o : ResolveOptions} {r r' : Reader} {scene scene' : Scene}
  {after : Reader × Scene} {b : β} {reason : Failure}

/-- One piece of a segment is read to its end, and this is the failure that it came to, if any. -/
inductive ReadsPiece (o : ResolveOptions) :
    Reader × Scene → Piece × Option Failure → Reader × Scene → Prop
  | flag {r r' : Reader} {scene : Scene} (h : r.Reads Scan.bool false r') :
    ReadsPiece o (r, scene) (.flag, none) (r', scene)
  | name {r r' : Reader} {scene : Scene} {name : String} (h : r.Reads Scan.name name r') :
    ReadsPiece o (r, scene) (.name, none) (r', scene)
  | count {r r' : Reader} {scene : Scene} {n : Nat} (h : r.Reads Scan.count n r') :
    ReadsPiece o (r, scene) (.count, none) (r', scene)
  | texts {r r' : Reader} {scene scene' : Scene} {names : Loan (Option String)}
    (h : r.readTexts scene = ⟨.ok names, r', scene'⟩) :
    ReadsPiece o (r, scene) (.texts, none) (r', scene')
  | bools {r r' : Reader} {scene scene' : Scene} {flags : Loan Bool}
    (h : r.readBools scene = ⟨.ok flags, r', scene'⟩) :
    ReadsPiece o (r, scene) (.bools, none) (r', scene')
  | segment {label : String} {state after : Reader × Scene} {resolved : Resolved}
    (h : ReadsKey o state resolved after) :
    ReadsPiece o state (.segment label, failure? resolved) after
  | segments {r r' : Reader} {scene scene' : Scene} {label : String}
    {lent : Except Failure (Loan SymbolId)} (h : r.readKeys o scene = ⟨.ok lent, r', scene'⟩) :
    ReadsPiece o (r, scene) (.segments label, failure? lent) (r', scene')
  | locations {r r' : Reader} {scene scene' : Scene} {label : String}
    {lent : Except Failure (Loan Location)} (h : r.readLocations scene = ⟨.ok lent, r', scene'⟩) :
    ReadsPiece o (r, scene) (.locations label, failure? lent) (r', scene')

/-- The segment was read to its end, and the failure is that of the first piece that failed, or one
of its own. -/
def Accounts (o : ResolveOptions) (category : Category) (state : Reader × Scene)
    (reason : Failure) :
    Prop :=
  ∃ row after, Row (ReadsPiece o) state row after ∧ row.map Prod.fst = category.layout ∧
    Blamed category row reason

namespace Ready

variable (h : r.Ready scene)
include h

/-! ## Reading on -/

/-- Whatever a piece came to, reading it has come to a later state. -/
theorem piece {p : Piece × Option Failure} (hread : ReadsPiece o (r, scene) p (r', scene')) :
    r.Goes scene r' scene' := by
  cases hread with
  | flag hread => exact h.read (.bool h.inside.faces) hread
  | name hread => exact h.read (.name h.inside.faces) hread
  | count hread => exact h.read (.count h.inside.faces) hread
  | texts hread => exact (h.texts hread).1
  | bools hread => exact (h.bools hread).1
  | segment hread => exact (h.key hread).1
  | segments hread => exact (h.keys hread).1
  | locations hread => exact (h.locations hread).1

theorem pieces {row : List (Piece × Option Failure)}
    (hrow : Row (ReadsPiece o) (r, scene) row (r', scene')) : r.Goes scene r' scene' := by
  induction row generalizing r scene with
  | nil =>
    cases hrow
    exact h.goes
  | cons p rest ih =>
    cases hrow with
    | @cons _ mid _ _ _ hread hrest =>
      obtain ⟨r₁, scene₁⟩ := mid
      have hgoes := h.piece hread
      exact hgoes.trans (ih (h.later hgoes) hrest)

end Ready

/-! ## Verdicts -/

section Verdicts

variable {category : Category} {place : Place}

theorem leaf_of_found {name : String} {symbols : List SymbolId} (hnamed : .name ∈ category.layout)
    (h : Description.found category name symbols = .error reason) : category.Leaf reason := by
  rw [Resolution.error_ofCandidates h]
  exact .notFound hnamed name

/-- A lookup that found nothing is the segment's own failure. -/
theorem leaf_of_lookup {question : Compilation → Except Fault (List SymbolId)} {name : String}
    (hnamed : .name ∈ category.layout)
    (h : (do return Description.found category name (← Decode.query place question) :
      Decode Resolved).run scene = (.ok (.error reason), scene')) : category.Leaf reason := by
  obtain ⟨symbols, mid, -, hdone⟩ := Decode.bind_inv h
  exact leaf_of_found hnamed (Decode.pure_inv hdone).1.symm

/-- A part of a segment that failed is to blame, and otherwise what comes after it. -/
theorem blamed_of_require {piece : Piece} {resolved : Except Failure α}
    {onward : α → Decode Resolved} {rest : List (Piece × Option Failure)}
    (h : (Decode.require category piece.label resolved onward).run scene =
      (.ok (.error reason), scene'))
    (honward : ∀ a, resolved = .ok a → (onward a).run scene = (.ok (.error reason), scene') →
      Blamed category rest reason) :
    Blamed category ((piece, failure? resolved) :: rest) reason := by
  rcases Decode.require_inv h with ⟨cause, rfl, heq, -⟩ | ⟨a, rfl, hrest⟩
  · exact Except.error.inj heq
  · exact honward a rfl hrest

/-- A named type that was found and is not built is rejected. -/
theorem leaf_of_constructed {name : String} {definitions : List SymbolId}
    {arguments : Loan SymbolId}
    (h : (Description.constructed place name definitions arguments).run scene =
      (.ok (.error reason), scene')) : Category.namedType.Leaf reason := by
  unfold Description.constructed at h
  split at h
  · exact leaf_of_found (by decide) (Decode.pure_inv h).1.symm
  · obtain ⟨⟨built, reasons⟩, mid, -, hdone⟩ := Decode.bind_inv h
    rw [Resolution.error_ofCandidates (Decode.pure_inv hdone).1.symm]
    exact .rejected (.inl rfl) _

/-- A type parameter that no enclosing method has is unbound. -/
theorem leaf_of_enclosing {depth ordinal : Nat}
    (h : (Description.enclosing place depth ordinal).run scene = (.ok (.error reason), scene')) :
    Category.typeParameterOrdinal.Leaf reason := by
  unfold Description.enclosing at h
  split at h
  · cases (Decode.pure_inv h).1
    exact .unbound _
  · obtain ⟨parameters, _, -, hdone⟩ := Decode.bind_inv h
    split at hdone
    · cases (Decode.pure_inv hdone).1
      exact .unbound _
    · cases (Decode.pure_inv hdone).1

/-- What stands in for a structural type that is not built is the only failure of its own that its
segment can have. -/
theorem answer_of_settle {fallback : Fallback} {codec : String} {presence : Presence}
    {c : Compilation} {request : Except Rejection SymbolId × Compilation}
    (h : .error reason = (fallback.settle codec presence c request).1) :
    ∃ detail c, fallback.answer codec detail c = .error reason := by
  unfold Fallback.settle at h
  split at h
  · exact ⟨_, _, h.symm⟩
  · split at h
    · cases h
    · exact ⟨_, _, h.symm⟩

end Verdicts

/-! ## Accounts -/

section Accounts

variable {start : Place} (h : r.Ready scene)
include h

/-- A segment with another one and a name in it, in which something of that name is looked up. -/
theorem row_named {category : Category} {label : String}
    {question : String → Resolution SymbolId → Compilation → Except Fault (List SymbolId)}
    (hnamed : .name ∈ category.layout)
    (hpass : (do
      let container ← Pass.key .own o
      let name ← Pass.name
      lift (Decode.require category label container fun found => do
        return Description.found category name (← Decode.query start (question name found)))).Yields
          (r, scene) (.error reason) after) :
    ∃ row after, Row (ReadsPiece o) (r, scene) row after ∧
      row.map Prod.fst = [.segment label, .name] ∧ Blamed category row reason := by
  obtain ⟨container, r₁, scene₁, hcontainer, h₁, hrest⟩ := h.segment_inv hpass
  obtain ⟨name, r₂, hname, -, hrest⟩ := h₁.slot_inv (.name h₁.inside.faces) hrest
  obtain ⟨_, hverdict, -⟩ := lift_inv hrest
  refine ⟨_, _, .cons (.segment hcontainer) (.cons (.name hname) (.nil _)), rfl, ?_⟩
  exact blamed_of_require hverdict fun found _ hlookup => leaf_of_lookup hnamed hlookup

theorem accounts_nameSpace
    (hbody : (body .own o (Pass.key .own o) start .nameSpace).Yields (r, scene)
      (.error reason) after) :
    Accounts o .nameSpace (r, scene) reason := by
  obtain ⟨flag, r₁, hflag, h₁, hrest⟩ := h.slot_inv (.bool h.inside.faces) hbody
  cases flag with
  | true =>
    -- the global namespace is always there
    cases hrest
  | false =>
    obtain ⟨row, last, hrow, hlayout, hblamed⟩ := row_named h₁ (by decide) hrest
    exact ⟨_, last, .cons (.flag hflag) hrow, congrArg _ hlayout, hblamed⟩

theorem accounts_namedType
    (hbody : (body .own o (Pass.key .own o) start .namedType).Yields (r, scene)
      (.error reason) after) :
    Accounts o .namedType (r, scene) reason := by
  obtain ⟨container, r₁, scene₁, hcontainer, h₁, hnamed⟩ := h.segment_inv hbody
  obtain ⟨name, r₂, hname, h₂, hcounted⟩ := h₁.slot_inv (.name h₁.inside.faces) hnamed
  obtain ⟨arity, r₃, harity, h₃, hfilled⟩ := h₂.slot_inv (.count h₂.inside.faces) hcounted
  obtain ⟨arguments, r₄, scene₄, harguments, -, hlent⟩ := h₃.segments_inv hfilled
  obtain ⟨_, hlift, -⟩ := duringEither_inv hlent
  obtain ⟨_, hverdict, -⟩ := lift_inv hlift
  refine ⟨_, _, .cons (.segment hcontainer) (.cons (.name hname) (.cons (.count harity)
    (.cons (.segments harguments) (.nil _)))), rfl, ?_⟩
  refine blamed_of_require hverdict fun found _ hargued => ?_
  change Blamed .namedType [(.segments "typeArguments", failure? arguments)] reason
  refine blamed_of_require hargued fun types _ hconstruct => ?_
  obtain ⟨definitions, _, -, hconstructed⟩ := Decode.bind_inv hconstruct
  rw [own_constructed] at hconstructed
  exact leaf_of_constructed hconstructed

theorem accounts_arrayType
    (hbody : (body .own o (Pass.key .own o) start .arrayType).Yields (r, scene)
      (.error reason) after) :
    Accounts o .arrayType (r, scene) reason := by
  obtain ⟨element, r₁, scene₁, helement, h₁, hcounted⟩ := h.segment_inv hbody
  obtain ⟨rank, r₂, hrank, -, hlift⟩ := h₁.slot_inv (.count h₁.inside.faces) hcounted
  obtain ⟨_, hverdict, -⟩ := lift_inv hlift
  refine ⟨_, _, .cons (.segment helement) (.cons (.count hrank) (.nil _)), rfl, ?_⟩
  refine blamed_of_require hverdict fun found _ hbuild => ?_
  -- an array of anything is built
  obtain ⟨_, _, -, hdone⟩ := Decode.bind_inv hbuild
  cases (Decode.pure_inv hdone).1

theorem accounts_pointerType
    (hbody : (body .own o (Pass.key .own o) start .pointerType).Yields (r, scene) (.error reason)
      after) :
    Accounts o .pointerType (r, scene) reason := by
  obtain ⟨pointee, r₁, scene₁, hpointee, -, hlift⟩ := h.segment_inv hbody
  obtain ⟨_, hverdict, -⟩ := lift_inv hlift
  refine ⟨_, _, .cons (.segment hpointee) (.nil _), rfl, ?_⟩
  refine blamed_of_require hverdict fun found _ hbuild => ?_
  obtain ⟨_, _, -, hdone⟩ := Decode.bind_inv hbuild
  cases (Decode.pure_inv hdone).1

theorem accounts_tupleType
    (hbody : (body .own o (Pass.key .own o) start .tupleType).Yields (r, scene)
      (.error reason) after) :
    Accounts o .tupleType (r, scene) reason := by
  obtain ⟨types, r₁, scene₁, htypes, h₁, hlent⟩ := h.segments_inv hbody
  obtain ⟨_, hnamed, -⟩ := duringEither_inv hlent
  obtain ⟨names, r₂, scene₂, hnames, h₂, hlent⟩ := h₁.texts_inv hnamed
  obtain ⟨_, hlocated, -⟩ := during_inv hlent
  obtain ⟨locations, r₃, scene₃, hlocations, -, hlent⟩ := h₂.locations_inv hlocated
  obtain ⟨_, hlift, -⟩ := duringEither_inv hlent
  obtain ⟨_, hverdict, -⟩ := lift_inv hlift
  refine ⟨_, _, .cons (.segments htypes)
    (.cons (.texts hnames) (.cons (.locations hlocations) (.nil _))),
    rfl, ?_⟩
  refine blamed_of_require hverdict fun types _ hplaced => ?_
  change Blamed .tupleType [(.locations "elementLocations", failure? locations)] reason
  refine blamed_of_require hplaced fun locations _ hrebuild => ?_
  rw [put_tuple] at hrebuild
  obtain ⟨detail, _, hanswer⟩ := answer_of_settle (Decode.rebuild_inv hrebuild).1
  cases hanswer
  exact .rejected (.inr rfl) detail

theorem accounts_anonymousType
    (hbody : (body .own o (Pass.key .own o) start .anonymousType).Yields (r, scene) (.error reason)
      after) :
    Accounts o .anonymousType (r, scene) reason := by
  obtain ⟨types, r₁, scene₁, htypes, h₁, hlent⟩ := h.segments_inv hbody
  obtain ⟨_, hnamed, -⟩ := duringEither_inv hlent
  obtain ⟨names, r₂, scene₂, hnames, h₂, hlent₁⟩ := h₁.texts_inv hnamed
  obtain ⟨_, hflagged, -⟩ := during_inv hlent₁
  obtain ⟨flags, r₃, scene₃, hflags, h₃, hlent₂⟩ := h₂.bools_inv hflagged
  obtain ⟨_, hlocated, -⟩ := during_inv hlent₂
  obtain ⟨locations, r₄, scene₄, hlocations, -, hlent₃⟩ := h₃.locations_inv hlocated
  obtain ⟨_, hlift, -⟩ := duringEither_inv hlent₃
  obtain ⟨_, hverdict, -⟩ := lift_inv hlift
  refine ⟨_, _, .cons (.segments htypes) (.cons (.texts hnames) (.cons (.bools hflags)
    (.cons (.locations hlocations) (.nil _)))), rfl, ?_⟩
  refine blamed_of_require hverdict fun types _ hplaced => ?_
  change Blamed .anonymousType [(.locations "propertyLocations", failure? locations)] reason
  refine blamed_of_require hplaced fun locations _ hrebuild => ?_
  rw [put_anonymous] at hrebuild
  -- the root type stands in for a type that is not built
  obtain ⟨detail, _, hanswer⟩ := answer_of_settle (Decode.rebuild_inv hrebuild).1
  cases hanswer

theorem accounts_typeParameterOrdinal
    (hbody : (body .own o (Pass.key .own o) start .typeParameterOrdinal).Yields (r, scene)
      (.error reason) after) :
    Accounts o .typeParameterOrdinal (r, scene) reason := by
  obtain ⟨depth, r₁, hdepth, h₁, hcounted⟩ := h.slot_inv (.count h.inside.faces) hbody
  obtain ⟨ordinal, r₂, hordinal, -, hbound⟩ := h₁.slot_inv (.count h₁.inside.faces) hcounted
  refine ⟨_, _, .cons (.count hdepth) (.cons (.count hordinal) (.nil _)), rfl, ?_⟩
  obtain ⟨place, _, hplace, hlift⟩ := bind_inv hbound
  obtain ⟨_, hverdict, -⟩ := lift_inv hlift
  exact leaf_of_enclosing hverdict

theorem accounts_property
    (hbody : (body .own o (Pass.key .own o) start .property).Yields (r, scene)
      (.error reason) after) :
    Accounts o .property (r, scene) reason := by
  obtain ⟨container, r₁, scene₁, hcontainer, h₁, hnamed⟩ := h.segment_inv hbody
  obtain ⟨name, r₂, hname, h₂, hfilled⟩ := h₁.slot_inv (.name h₁.inside.faces) hnamed
  obtain ⟨types, r₃, scene₃, htypes, -, hlent⟩ := h₂.segments_inv hfilled
  obtain ⟨_, hlift, -⟩ := duringEither_inv hlent
  obtain ⟨_, hverdict, -⟩ := lift_inv hlift
  refine ⟨_, _, .cons (.segment hcontainer)
    (.cons (.name hname) (.cons (.segments htypes) (.nil _))), rfl, ?_⟩
  refine blamed_of_require hverdict fun found _ hsigned => ?_
  change Blamed .property [(.segments "parameterTypes", failure? types)] reason
  exact blamed_of_require hsigned fun types _ hlookup => leaf_of_lookup (by decide) hlookup

theorem accounts_localVariable
    (hbody : (body .own o (Pass.key .own o) start .localVariable).Yields (r, scene) (.error reason)
      after) :
    Accounts o .localVariable (r, scene) reason := by
  obtain ⟨owner, r₁, scene₁, howner, h₁, hnamed⟩ := h.segment_inv hbody
  obtain ⟨name, r₂, hname, h₂, hcounted⟩ := h₁.slot_inv (.name h₁.inside.faces) hnamed
  obtain ⟨ordinal, r₃, hordinal, -, hlift⟩ := h₂.slot_inv (.count h₂.inside.faces) hcounted
  obtain ⟨_, hverdict, -⟩ := lift_inv hlift
  refine ⟨_, _, .cons (.segment howner) (.cons (.name hname) (.cons (.count hordinal) (.nil _))),
    rfl, ?_⟩
  refine blamed_of_require hverdict fun found _ hlookup => ?_
  obtain ⟨locals, _, -, hdone⟩ := Decode.bind_inv hlookup
  rw [Resolution.error_ofCandidates (Decode.pure_inv hdone).1.symm]
  exact .notFound (by decide) _

/-- A segment that failed, other than that of a method, has the failure of the first piece in it
that failed, or one of its own. -/
theorem accounts {category : Category} (hmethod : category ≠ .method)
    (hbody : (body .own o (Pass.key .own o) start category).Yields (r, scene) (.error reason)
      after) :
    Accounts o category (r, scene) reason := by
  cases category with
  | nameSpace => exact accounts_nameSpace h hbody
  | namedType => exact accounts_namedType h hbody
  | arrayType => exact accounts_arrayType h hbody
  | pointerType => exact accounts_pointerType h hbody
  | tupleType => exact accounts_tupleType h hbody
  | anonymousType => exact accounts_anonymousType h hbody
  | typeParameter => exact row_named h (by decide) hbody
  | typeParameterOrdinal => exact accounts_typeParameterOrdinal h hbody
  | field => exact row_named h (by decide) hbody
  | property => exact accounts_property h hbody
  | method => exact absurd rfl hmethod
  | parameter => exact row_named h (by decide) hbody
  | localVariable => exact accounts_localVariable h hbody

end Accounts

end Reader
end Moniker
