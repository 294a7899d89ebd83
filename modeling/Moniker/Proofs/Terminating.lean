import Mathlib.Data.List.Perm.Subperm
import Moniker.Proofs.Founded
import Moniker.Proofs.Nesting
import Moniker.Proofs.Shapes

/-!
# Every symbol has a description

What is described inside a segment was issued before the segment's symbol, but for the types of
parameters. Properties and parameters only stand at the outside of a description, and the types of a
method's parameters are described with that method among those whose signatures are being described,
where it was not before. So describing goes down in `Compilation.weight`
(`Compilation.Inside.inner`), which stays below the depth that descriptions are allowed. A segment
that is put together from descriptions describes its symbol, and frames can hold it
(`Description.describes_assembledAt`, `Description.shaped_assembledAt`), so every symbol has a
description (`Description.describes_ofSymbol`).
-/

namespace Moniker

namespace Compilation

variable {c : Compilation} {s p a : SymbolId} {methods : List SymbolId}

/-- What goes down from a symbol to those described inside it. -/
def weight (c : Compilation) (methods : List SymbolId) (s : SymbolId) : Nat :=
  (c.size - 1 - methods.length) * c.size + (if (c.entry s).kind.isOuter then c.size else 0) +
    s.index

/-- When a symbol can come up inside the signatures of methods: only types, namespaces and other
methods do. -/
structure Inside (c : Compilation) (methods : List SymbolId) (s : SymbolId) : Prop where
  nodup : methods.Nodup
  each : ∀ m ∈ methods, c.Issued m ∧ (c.entry m).kind = .method
  issued : c.Issued s
  kind : methods = [] ∨ (c.entry s).kind = .nameSpace ∨ (c.entry s).kind.isType = true ∨
    (c.entry s).kind = .method ∧ s ∉ methods

/-- Distinct symbols are no more than there are. -/
theorem length_le_size {symbols : List SymbolId} (hnodup : symbols.Nodup)
    (hissued : ∀ m ∈ symbols, c.Issued m) : symbols.length ≤ c.size := by
  have hindices : (symbols.map SymbolId.index).Nodup := by
    refine List.Nodup.map ?_ hnodup
    intro a b hab
    cases a
    cases b
    simp_all
  have hsubset : symbols.map SymbolId.index ⊆ List.range c.size := by
    intro i hi
    obtain ⟨m, hm, rfl⟩ := List.mem_map.mp hi
    exact List.mem_range.mpr (hissued m hm)
  have hle := (List.subperm_of_subset hindices hsubset).length_le
  rwa [List.length_map, List.length_range] at hle

/-- Besides the methods there are one more and the global namespace. -/
theorem Inside.length_lt (h : c.Founded) (hinside : c.Inside methods s)
    (hkind : (c.entry s).kind = .method) (hs : s ∉ methods) : methods.length + 1 < c.size := by
  have hroot : ∀ m, (c.entry m).kind = .method → ⟨0⟩ ≠ m := by
    intro m hm heq
    have hspace : (c.entry m).kind = .nameSpace := heq ▸ h.table.root.2
    rw [hspace] at hm
    cases hm
  have hnodup : (⟨0⟩ :: s :: methods).Nodup := by
    refine List.nodup_cons.mpr ⟨fun hmem => ?_, List.nodup_cons.mpr ⟨hs, hinside.nodup⟩⟩
    rcases List.mem_cons.mp hmem with hmem | hmem
    · exact hroot s hkind hmem
    · exact hroot _ (hinside.each _ hmem).2 rfl
  have hissued : ∀ m ∈ ⟨0⟩ :: s :: methods, c.Issued m := by
    intro m hm
    rcases List.mem_cons.mp hm with rfl | hm
    · exact h.table.root.1
    · rcases List.mem_cons.mp hm with rfl | hm
      · exact hinside.issued
      · exact (hinside.each m hm).1
  have hle := length_le_size hnodup hissued
  simp only [List.length_cons] at hle
  omega

theorem Lawful.length_belongings_le (h : c.Lawful) (hs : c.Issued s) (role : Attachment) :
    ((c.entry s).belongings role).length ≤ c.size :=
  length_le_size (h.table.nodup s hs role) fun _ hm => h.table.issued_belongings hs hm

theorem Lawful.length_membersAt_le (h : c.Lawful) (hs : c.Issued s) (kind : SymbolKind) :
    (c.membersAt kind s).length ≤ c.size :=
  Nat.le_trans (List.length_filter_le _ _) (h.length_belongings_le hs .member)

/-- A symbol around another comes up where that does, and is further down. -/
theorem Inside.container (h : c.Founded) (hinside : c.Inside methods s)
    (hself : (c.entry s).definition = none) (houter : (c.entry s).container = some p)
    (hfree : (c.entry s).kind = .typeParameter → p ∉ methods) :
    c.Inside methods p ∧ c.weight methods p < c.weight methods s := by
  obtain ⟨hlt, hbears⟩ := (h.table.anchored s hinside.issued).container hself p houter
  have hp : c.Issued p := h.table.closed.container hinside.issued houter
  refine ⟨⟨hinside.nodup, hinside.each, hp, ?_⟩, ?_⟩
  · have hnamed : (c.entry p).kind = .nameSpace ∨ (c.entry p).kind = .namedType →
        (c.entry p).kind = .nameSpace ∨ (c.entry p).kind.isType = true := by
      exact Or.imp_right fun hkind => by rw [hkind]; rfl
    rcases hinside.kind with hkind | hkind | hkind | ⟨hkind, -⟩
    · exact .inl hkind
    · rw [show (c.table.entry s).kind = .nameSpace from hkind] at hbears
      exact .inr ((hnamed hbears).imp_right .inl)
    · cases hs : (c.entry s).kind with
      | namedType =>
          rw [show (c.table.entry s).kind = .namedType from hs] at hbears
          exact .inr ((hnamed hbears).imp_right .inl)
      | typeParameter =>
          rw [show (c.table.entry s).kind = .typeParameter from hs] at hbears
          rcases hbears with hp | hp
          · exact .inr (.inr (.inl (by rw [show (c.entry p).kind = .namedType from hp]; rfl)))
          · exact .inr (.inr (.inr ⟨hp, hfree hs⟩))
      | arrayType | pointerType | tupleType | anonymousType =>
          rw [show (c.table.entry s).kind = _ from hs] at hbears
          exact hbears.elim
      | nameSpace | field | property | method | parameter | localVariable =>
          rw [hs] at hkind
          cases hkind
    · rw [show (c.table.entry s).kind = .method from hkind] at hbears
      exact .inr ((hnamed hbears).imp_right .inl)
  · unfold weight
    by_cases hp : (c.entry p).kind.isOuter = true
    · rw [if_pos hp, if_pos (SymbolTable.isOuter_of_bears hbears hp)]
      omega
    · rw [if_neg hp]
      omega

/-- So does a type that was issued before the symbol. -/
theorem Inside.earlier {a : SymbolId} (hinside : c.Inside methods s) (ha : c.table.Earlier s a) :
    c.Inside methods a ∧ c.weight methods a < c.weight methods s := by
  refine ⟨⟨hinside.nodup, hinside.each, ha.type.issued, .inr (.inr (.inl ha.type.kind))⟩, ?_⟩
  have hlt := ha.lt
  have houter := SymbolKind.isOuter_of_isType ha.type.kind
  unfold weight
  rw [houter, if_neg (by simp)]
  split <;> omega

/-- The types of a property's parameters come up outside of all signatures, as the property does. -/
theorem Inside.ofProperty {a : SymbolId} (hinside : c.Inside methods s)
    (hkind : (c.entry s).kind = .property) (ha : c.table.IsType a) :
    c.Inside methods a ∧ c.weight methods a < c.weight methods s := by
  refine ⟨⟨hinside.nodup, hinside.each, ha.issued, .inr (.inr (.inl ha.kind))⟩, ?_⟩
  have hlt : a.index < c.size := ha.issued
  have houter := SymbolKind.isOuter_of_isType ha.kind
  unfold weight
  rw [houter, if_neg (by simp), if_pos (by rw [hkind]; rfl)]
  omega

/-- The types of a method's parameters come up inside its signature as well. -/
theorem Inside.ofMethod {a : SymbolId} (h : c.Founded) (hinside : c.Inside methods s)
    (hkind : (c.entry s).kind = .method) (hs : s ∉ methods) (ha : c.table.IsType a) :
    c.Inside (methods ++ [s]) a ∧ c.weight (methods ++ [s]) a < c.weight methods s := by
  have hlength := hinside.length_lt h hkind hs
  refine ⟨⟨?_, ?_, ha.issued, .inr (.inr (.inl ha.kind))⟩, ?_⟩
  · refine List.nodup_append.mpr ⟨hinside.nodup, by simp, ?_⟩
    intro m hm m' hm' heq
    rw [heq, List.mem_singleton.mp hm'] at hm
    exact hs hm
  · intro m hm
    rcases List.mem_append.mp hm with hm | hm
    · exact hinside.each m hm
    · rw [List.mem_singleton.mp hm]
      exact ⟨hinside.issued, hkind⟩
  · have hlt : a.index < c.size := ha.issued
    have houter := SymbolKind.isOuter_of_isType ha.kind
    obtain ⟨k, hk⟩ : ∃ k, c.size - 1 - methods.length = k + 1 :=
      ⟨c.size - 2 - methods.length, by omega⟩
    have hk' : c.size - 1 - (methods ++ [s]).length = k := by
      rw [List.length_append, List.length_singleton]
      omega
    unfold weight
    rw [houter, if_neg (by simp), hk, hk', Nat.succ_mul]
    omega

/-- A method that comes up is none of those whose signatures are being described. -/
theorem Inside.not_mem (hinside : c.Inside methods s) (hkind : (c.entry s).kind = .method) :
    s ∉ methods := by
  rcases hinside.kind with hnil | hspace | htype | ⟨-, hnot⟩
  · rw [hnil]
    simp
  · rw [hkind] at hspace
    cases hspace
  · rw [hkind] at htype
    cases htype
  · exact hnot

/-! ## What is described inside a segment is further down -/

theorem Founded.definition_eq_none (h : c.Founded) (hs : c.Issued s)
    (hkind : (c.entry s).kind ≠ .namedType) : (c.entry s).definition = none := by
  cases hdefinition : (c.entry s).definition with
  | none => rfl
  | some g => exact absurd ((h.table.anchored s hs).definition g hdefinition).1 hkind

theorem Founded.typeAt_eq (h : c.Founded) (htype : (c.entry s).type = some a) : c.typeAt s = a := by
  rw [h.plain.typeAt_eq, htype]
  rfl

/-- What is around a symbol comes up where the symbol does, the global namespace if there is nothing
else. -/
theorem Inside.outer (h : c.Founded) (hinside : c.Inside methods s)
    (hself : (c.entry s).definition = none) (hspace : (c.entry s).kind ≠ .nameSpace)
    (hfree : (c.entry s).kind = .typeParameter → ∀ m ∈ methods, c.containerAt s ≠ some m) :
    c.Inside methods (c.outerAt s) ∧ c.weight methods (c.outerAt s) < c.weight methods s := by
  have hcontainer := h.plain.containerAt_eq s
  cases houter : (c.entry s).container with
  | some p =>
      rw [outerAt, hcontainer, houter]
      exact hinside.container h hself houter fun hkind hm =>
        hfree hkind p hm (hcontainer.trans houter)
  | none =>
      obtain ⟨hroot, hkind⟩ := h.table.root
      rw [outerAt, hcontainer, houter, Option.getD_none, h.plain.global]
      have hlt : Draft.global.index < s.index := by
        refine Nat.pos_of_ne_zero fun hzero => hspace ?_
        rw [show s = ⟨0⟩ from congrArg SymbolId.mk hzero]
        exact hkind
      have hnamespace : (c.entry Draft.global).kind = .nameSpace := hkind
      refine ⟨⟨hinside.nodup, hinside.each, hroot, .inr (.inl hkind)⟩, ?_⟩
      unfold weight
      rw [hnamespace, if_neg (by decide)]
      omega

/-- The types of parameters are types. -/
theorem Founded.isType_of_mem_signatureAt (h : c.Founded) (hs : c.Issued s)
    (ha : a ∈ c.signatureAt s) :
    c.table.IsType a := by
  obtain ⟨p, hp, rfl⟩ := List.mem_map.mp ha
  obtain ⟨b, htype, hb⟩ := (h.table.anchored s hs).parameters p hp
  rwa [h.typeAt_eq htype]

/-- The types of elements were there before the type that has the elements. -/
theorem Founded.earlier_of_mem_memberTypesAt (h : c.Founded) (hs : c.Issued s) {kind : SymbolKind}
    (hkind : kind.IsElementOf (c.entry s).kind) (ha : a ∈ c.memberTypesAt kind s) :
    c.table.Earlier s a := by
  obtain ⟨m, hm, rfl⟩ := List.mem_map.mp ha
  obtain ⟨hmember, hmkind⟩ := List.mem_filter.mp hm
  have hmkind : (c.entry m).kind = kind := by simpa using hmkind
  obtain ⟨b, htype, hb⟩ := (h.table.anchored s hs).elements m hmember (hmkind ▸ hkind)
  rwa [h.typeAt_eq htype]

/-- Whatever is described inside the segment of a symbol comes up there and is further down. -/
theorem Inside.inner (h : c.Founded) (hinside : c.Inside methods s) {q : List SymbolId × SymbolId}
    (hq : q ∈ Description.inner c methods s) :
    c.Inside q.1 q.2 ∧ c.weight q.1 q.2 < c.weight methods s := by
  have hs := hinside.issued
  have hanchored := h.table.anchored s hs
  unfold Description.inner categoryAt at hq
  cases hkind : (c.entry s).kind with
  | nameSpace =>
      have hself := h.definition_eq_none hs (by simp [hkind])
      rw [hkind] at hq
      obtain ⟨p, hp, rfl⟩ := List.mem_map.mp hq
      rw [h.plain.containerAt_eq, Option.mem_toList] at hp
      exact hinside.container h hself hp (by simp [hkind])
  | namedType =>
      rw [hkind] at hq
      cases hdefinition : (c.entry s).definition with
      | none =>
          have hself : c.definitionAt s = s := definitionAt_self hdefinition
          simp only [nestedAt, hself, if_true, List.mem_singleton] at hq
          rw [hq]
          exact hinside.outer h hdefinition (by simp [hkind]) (by simp [hkind])
      | some g =>
          obtain ⟨-, hg, hlt, harguments⟩ := hanchored.definition g hdefinition
          have hgkind : (c.entry g).kind = .namedType := hg.kind
          obtain ⟨hinside', hless⟩ := hinside.earlier ⟨hg.isType, hlt⟩
          rcases List.mem_cons.mp hq with rfl | hq
          -- what is around a constructed type is around its definition
          · have hdefinition' : c.definitionAt s = g := by rw [definitionAt, hdefinition]; rfl
            obtain ⟨houter, hless'⟩ :=
              hinside'.outer h hg.definition (by simp [hgkind]) (by simp [hgkind])
            rw [hdefinition']
            exact ⟨houter, Nat.lt_trans hless' hless⟩
          · split at hq
            · cases hq
            · obtain ⟨a, ha, rfl⟩ := List.mem_map.mp hq
              exact hinside.earlier (harguments a ha)
  | arrayType | pointerType =>
      rw [hkind] at hq
      obtain rfl := List.mem_singleton.mp hq
      obtain ⟨a, htype, ha⟩ := hanchored.element (by simp [hkind])
      rw [h.typeAt_eq htype]
      exact hinside.earlier ha
  | tupleType | anonymousType =>
      rw [hkind] at hq
      obtain ⟨a, ha, rfl⟩ := List.mem_map.mp hq
      exact hinside.earlier (h.earlier_of_mem_memberTypesAt hs
        (by simp [SymbolKind.IsElementOf, hkind]) ha)
  | typeParameter =>
      have hself := h.definition_eq_none hs (by simp [hkind])
      simp only [hkind] at hq
      split at hq
      · cases hq
      · next hfree =>
          -- its owner is described, so that is none of the methods
          obtain rfl := List.mem_singleton.mp hq
          refine hinside.outer h hself (by simp [hkind]) fun _ m hm hcontainer => hfree ?_
          simpa [hcontainer] using hm
  | field | parameter | localVariable =>
      have hself := h.definition_eq_none hs (by simp [hkind])
      rw [hkind] at hq
      obtain rfl := List.mem_singleton.mp hq
      exact hinside.outer h hself (by simp [hkind]) (by simp [hkind])
  | property =>
      have hself := h.definition_eq_none hs (by simp [hkind])
      rw [hkind] at hq
      rcases List.mem_cons.mp hq with rfl | hq
      · exact hinside.outer h hself (by simp [hkind]) (by simp [hkind])
      · obtain ⟨a, ha, rfl⟩ := List.mem_map.mp hq
        exact hinside.ofProperty hkind (h.isType_of_mem_signatureAt hs ha)
  | method =>
      have hself := h.definition_eq_none hs (by simp [hkind])
      rw [hkind] at hq
      rcases List.mem_cons.mp hq with rfl | hq
      · exact hinside.outer h hself (by simp [hkind]) (by simp [hkind])
      -- the types may be issued later than the method, but there is one more method around them
      · obtain ⟨a, ha, rfl⟩ := List.mem_map.mp hq
        exact hinside.ofMethod h hkind (hinside.not_mem hkind) (h.isType_of_mem_signatureAt hs ha)

theorem Inside.weight_lt (hinside : c.Inside methods s) :
    c.weight methods s < Description.depthBound c := by
  have hlt : s.index < c.size := hinside.issued
  unfold weight Description.depthBound
  obtain ⟨n, hn⟩ : ∃ n, c.size = n + 1 := ⟨c.size - 1, by omega⟩
  rw [hn] at hlt ⊢
  have hle : (n + 1 - 1 - methods.length) * (n + 1) ≤ n * (n + 1) :=
    Nat.mul_le_mul_right _ (by omega)
  have hmul : (n + 1) * (n + 1 + 1) = n * (n + 1) + (n + 1) + (n + 1) := by
    rw [Nat.mul_succ, Nat.succ_mul]
  split <;> omega

end Compilation

namespace Description

open Compilation

variable {c : Compilation} {s : SymbolId} {methods : List SymbolId} {n : Nat}

/-- Within the depth a description is found, which describes the symbol and is held by frames. -/
def Described (c : Compilation) (n : Nat) (methods : List SymbolId) (s : SymbolId) : Prop :=
  ∃ d, ofSymbolWithin c n methods s = .ok d ∧ Describes c methods s d.clipped ∧
    (c.size < UInt32.size → d.clipped.Shaped n)

theorem fitsHeader_ofLength {k : Nat} (hk : k < UInt32.size) :
    Frame.FitsHeader (.ofLength k) k := by
  refine ⟨?_, hk⟩
  by_cases hzero : k = 0
  · rw [hzero]
    rfl
  · simp [Presence.ofLength, Presence.admits, hzero]

theorem fitsCount_of_le {k : Nat} (hk : k ≤ c.size) (hsize : c.size < UInt32.size) :
    Frame.FitsCount k := by
  have hsize : c.size < 4294967296 := hsize
  show k ≤ 9223372036854775807
  omega

theorem getD_idxOf?_le (symbols : List SymbolId) (s : SymbolId) :
    (symbols.idxOf? s).getD 0 ≤ symbols.length := by
  cases hindex : symbols.idxOf? s with
  | none => exact Nat.zero_le _
  | some i =>
      obtain ⟨hlt, -⟩ := List.idxOf?_eq_some_iff.mp hindex
      exact Nat.le_of_lt hlt

theorem getD_methodIndex?_le (methods : List SymbolId) (m : SymbolId) :
    (methodIndex? methods m).getD 0 ≤ methods.length := by
  unfold methodIndex?
  cases methods.reverse.idxOf? m with
  | none => exact Nat.zero_le _
  | some i =>
      show methods.length - 1 - i ≤ methods.length
      omega

theorem fitsHeader_each {ds : List Description} {k : Nat} (hlength : ds.length = k)
    (hk : k < UInt32.size) : Frame.FitsHeader (.ofLength k) ds.length := by
  rw [hlength]
  exact fitsHeader_ofLength hk

theorem map_ofItems {α β : Type} (f : α → β) (values : List α) :
    (Listing.ofItems? (some values)).map f = .ofValues (values.map f) := by
  simp [Listing.map, Listing.ofItems?, Listing.ofValues, Listing.full, Presence.ofItems?,
    Except.map]

theorem shaped_ofValues {α : Type} {good : α → Prop} {values : List α}
    (hlength : values.length < UInt32.size) (h : ∀ a ∈ values, good a) :
    (Listing.ofValues values).Shaped good :=
  ⟨_, values, rfl, fitsHeader_ofLength hlength, h⟩

/-! ## Segments -/

/-- The descriptions in an array, clipped. -/
theorem describes_array {ts : List SymbolId} {ds : List Description}
    (hds : List.Forall₂ (fun p d => Describes c p.1 p.2 d.clipped) (ts.map (methods, ·)) ds) :
    (ds.map clipped).length = ts.length ∧
      ∀ p ∈ ts.zip (ds.map clipped), Describes c methods p.1 p.2 := by
  rw [List.forall₂_map_left_iff] at hds
  obtain ⟨hlength, hzip⟩ := List.forall₂_iff_zip.mp (List.forall₂_map_right_iff.mpr hds)
  exact ⟨hlength.symm, fun p hp => hzip hp⟩

/-- A segment describes its symbol if the segments inside it describe what they are for. -/
theorem describes_assembledAt {ds : List Description}
    (hds : List.Forall₂ (fun p d => Describes c p.1 p.2 d.clipped) (inner c methods s) ds) :
    Describes c methods s (c.assembledAt methods s (c.categoryAt methods s) ds).clipped := by
  unfold inner categoryAt at hds
  unfold categoryAt
  cases hkind : (c.entry s).kind with
  | nameSpace =>
      rw [hkind] at hds
      cases houter : c.containerAt s with
      | none =>
          simp only [nestedAt, houter] at hds
          cases hds
          exact .global hkind houter
      | some p =>
          simp only [nestedAt, houter] at hds
          obtain ⟨d, -, hd, -, rfl⟩ := List.forall₂_cons_left_iff.mp hds
          exact .nameSpace hkind houter hd
  | namedType =>
      rw [hkind] at hds
      obtain ⟨d, arguments, hd, harguments, rfl⟩ := List.forall₂_cons_left_iff.mp hds
      rw [clipped, assembledAt, mapLeaves, mapLeavesEach_eq]
      by_cases hself : c.definitionAt s = s
      · rw [if_pos hself] at harguments ⊢
        cases harguments
        rw [hself] at hd ⊢
        exact .definition hkind hself hd
      · rw [if_neg hself] at harguments ⊢
        obtain ⟨hlength, heach⟩ := describes_array harguments
        exact .constructed hkind rfl hself hd hlength heach
  | arrayType =>
      rw [hkind] at hds
      obtain ⟨d, -, hd, -, rfl⟩ := List.forall₂_cons_left_iff.mp hds
      exact .arrayType hkind hd
  | pointerType =>
      rw [hkind] at hds
      obtain ⟨d, -, hd, -, rfl⟩ := List.forall₂_cons_left_iff.mp hds
      exact .pointerType hkind hd
  | tupleType =>
      rw [hkind] at hds
      obtain ⟨hlength, heach⟩ := describes_array hds
      rw [clipped, assembledAt, mapLeaves, mapLeavesEach_eq, map_ofItems, List.map_map]
      exact .tupleType hkind hlength heach
  | anonymousType =>
      rw [hkind] at hds
      obtain ⟨hlength, heach⟩ := describes_array hds
      rw [clipped, assembledAt, mapLeaves, mapLeavesEach_eq, map_ofItems, List.map_map]
      exact .anonymousType hkind hlength heach
  | typeParameter =>
      simp only [hkind] at hds ⊢
      cases houter : c.containerAt s with
      | none =>
          simp only [houter, Option.any_none, Bool.false_eq_true, if_false] at hds ⊢
          obtain ⟨d, -, hd, -, rfl⟩ := List.forall₂_cons_left_iff.mp hds
          exact .typeParameter hkind (by simp [houter]) hd
      | some m =>
          by_cases hm : m ∈ methods
          · simp only [houter, Option.any_some, hm, decide_true, if_true] at hds ⊢
            simp only [assembledAt, ordinalAt, houter]
            exact .typeParameterOrdinal hkind hm houter
          · simp only [houter, Option.any_some, hm, decide_false, Bool.false_eq_true, if_false]
              at hds ⊢
            obtain ⟨d, -, hd, -, rfl⟩ := List.forall₂_cons_left_iff.mp hds
            refine .typeParameter hkind (fun m' hm' howner => hm ?_) hd
            rwa [Option.some.inj (houter.symm.trans howner)]
  | field =>
      rw [hkind] at hds
      obtain ⟨d, -, hd, -, rfl⟩ := List.forall₂_cons_left_iff.mp hds
      exact .field hkind hd
  | property =>
      rw [hkind] at hds
      obtain ⟨d, parameters, hd, hparameters, rfl⟩ := List.forall₂_cons_left_iff.mp hds
      obtain ⟨hlength, heach⟩ := describes_array hparameters
      rw [clipped, assembledAt, mapLeaves, mapLeavesEach_eq]
      exact .property hkind hd hlength heach
  | method =>
      rw [hkind] at hds
      obtain ⟨d, parameters, hd, hparameters, rfl⟩ := List.forall₂_cons_left_iff.mp hds
      obtain ⟨hlength, heach⟩ := describes_array hparameters
      rw [clipped, assembledAt, mapLeaves, mapLeavesEach_eq]
      exact .method hkind hd hlength heach
  | parameter =>
      rw [hkind] at hds
      obtain ⟨d, -, hd, -, rfl⟩ := List.forall₂_cons_left_iff.mp hds
      exact .parameter hkind hd
  | localVariable =>
      rw [hkind] at hds
      obtain ⟨d, -, hd, -, rfl⟩ := List.forall₂_cons_left_iff.mp hds
      exact .localVariable hkind hd

variable (h : c.Lawful) (hinside : c.Inside methods s)
include h hinside

/-- An instance of a generic type lists its arguments, and its definition lists none. -/
theorem shaped_namedType (hsize : c.size < UInt32.size) {d : Description} {ds : List Description}
    (hlength : ds.length = if c.definitionAt s = s then 0 else (c.entry s).typeArguments.length)
    (hd : d.clipped.Shaped n) (hds : ∀ d ∈ ds.map clipped, d.Shaped n) :
    (c.assembledAt methods s .namedType (d :: ds)).clipped.Shaped (n + 1) := by
  have hs := hinside.issued
  have harity := h.length_belongings_le (h.closed.issued_definition hs) .typeParameter
  rw [clipped, assembledAt, mapLeaves, mapLeavesEach_eq]
  refine .namedType hd (fitsCount_of_le harity hsize) ?_ hds
  split
  · next hself =>
      rw [if_pos hself] at hlength
      rw [List.tail_cons, List.length_eq_zero_iff.mp hlength]
      exact ⟨rfl, by decide⟩
  · next hne =>
      rw [if_neg hne] at hlength
      obtain ⟨-, -, hcount, -⟩ := h.constructed_from hs rfl hne
      rw [← hcount] at hlength ⊢
      exact fitsHeader_each (by rw [List.tail_cons, List.length_map, hlength])
        (Nat.lt_of_le_of_lt harity hsize)

omit hinside in
theorem shaped_tupleType (hs : c.Issued s) (hsize : c.size < UInt32.size) {ds : List Description}
    (hlength : ds.length = (c.memberTypesAt .field s).length)
    (hds : ∀ d ∈ ds.map clipped, d.Shaped n) :
    (c.assembledAt methods s .tupleType ds).clipped.Shaped (n + 1) := by
  have hlt := Nat.lt_of_le_of_lt (h.length_membersAt_le hs .field) hsize
  rw [clipped, assembledAt, mapLeaves, mapLeavesEach_eq, map_ofItems]
  refine .tupleType (fitsHeader_each (by rw [List.length_map, hlength]) ?_) hds
    (shaped_ofValues ?_ fun _ _ => trivial) (shaped_ofValues ?_ ?_)
  · rwa [memberTypesAt, List.length_map]
  · rwa [elementNamesAt, List.length_map]
  · rwa [List.length_map, List.length_map]
  · exact List.forall_mem_map.mpr fun l _ => l.clipped_fits

omit hinside in
theorem shaped_anonymousType (hs : c.Issued s) (hsize : c.size < UInt32.size)
    {ds : List Description} (hlength : ds.length = (c.memberTypesAt .property s).length)
    (hds : ∀ d ∈ ds.map clipped, d.Shaped n) :
    (c.assembledAt methods s .anonymousType ds).clipped.Shaped (n + 1) := by
  have hlt := Nat.lt_of_le_of_lt (h.length_membersAt_le hs .property) hsize
  rw [clipped, assembledAt, mapLeaves, mapLeavesEach_eq, map_ofItems]
  refine .anonymousType (fitsHeader_each (by rw [List.length_map, hlength]) ?_) hds
    (shaped_ofValues ?_ fun _ _ => trivial) (shaped_ofValues ?_ fun _ _ => trivial)
    (shaped_ofValues ?_ ?_)
  · rwa [memberTypesAt, List.length_map]
  · rwa [List.length_map, propertyNamesAt, List.length_map]
  · rwa [readOnlyAt, List.length_map]
  · rwa [List.length_map, List.length_map]
  · exact List.forall_mem_map.mpr fun l _ => l.clipped_fits

theorem shaped_typeParameterOrdinal (hsize : c.size < UInt32.size) {m : SymbolId} (hm : m ∈ methods)
    (howner : c.containerAt s = some m) (ds : List Description) :
    (c.assembledAt methods s .typeParameterOrdinal ds).clipped.Shaped (n + 1) := by
  have hmethods := length_le_size hinside.nodup fun m hm => (hinside.each m hm).1
  have hparameters := h.length_belongings_le (hinside.each m hm).1 .typeParameter
  simp only [assembledAt, ordinalAt, howner]
  exact .typeParameterOrdinal
    (fitsCount_of_le (Nat.le_trans (getD_methodIndex?_le methods m) hmethods) hsize)
    (fitsCount_of_le (Nat.le_trans (getD_idxOf?_le _ s) hparameters) hsize)

omit hinside in
theorem fitsHeader_signatureAt (hs : c.Issued s) (hsize : c.size < UInt32.size)
    {ds : List Description} (hlength : ds.length = (c.signatureAt s).length) :
    Frame.FitsHeader (.ofLength (c.signatureAt s).length) (ds.map clipped).length := by
  refine fitsHeader_each (by rw [List.length_map, hlength]) ?_
  rw [signatureAt, List.length_map]
  exact Nat.lt_of_le_of_lt (h.length_belongings_le hs .parameter) hsize

/-- Frames can hold a segment if they can hold the segments inside it. -/
theorem shaped_assembledAt (hsize : c.size < UInt32.size) {ds : List Description}
    (hlength : ds.length = (inner c methods s).length) (hds : ∀ d ∈ ds.map clipped, d.Shaped n) :
    (c.assembledAt methods s (c.categoryAt methods s) ds).clipped.Shaped (n + 1) := by
  have hs := hinside.issued
  unfold inner categoryAt at hlength
  unfold categoryAt
  cases hkind : (c.entry s).kind with
  | nameSpace =>
      cases ds with
      | nil => exact .global
      | cons d rest => exact .nameSpace (hds d.clipped (by simp))
  | namedType =>
      rw [hkind] at hlength
      obtain ⟨d, arguments, rfl, hcount⟩ := exists_cons hlength
      obtain ⟨hd, harguments⟩ := List.forall_mem_cons.mp hds
      refine shaped_namedType h hinside hsize ?_ hd harguments
      rw [hcount]
      split <;> simp
  | arrayType =>
      rw [hkind] at hlength
      obtain ⟨d, rest, rfl, -⟩ := exists_cons hlength
      exact .arrayType (hds d.clipped (by simp)) (Nat.min_le_right _ _)
  | pointerType =>
      rw [hkind] at hlength
      obtain ⟨d, rest, rfl, -⟩ := exists_cons hlength
      exact .pointerType (hds d.clipped (by simp))
  | tupleType =>
      rw [hkind] at hlength
      exact shaped_tupleType h hs hsize (by rw [hlength]; exact List.length_map _) hds
  | anonymousType =>
      rw [hkind] at hlength
      exact shaped_anonymousType h hs hsize (by rw [hlength]; exact List.length_map _) hds
  | typeParameter =>
      simp only [hkind] at hlength ⊢
      split
      · next hany =>
          cases howner : c.containerAt s with
          | none =>
              rw [howner] at hany
              cases hany
          | some m =>
              rw [howner] at hany
              exact shaped_typeParameterOrdinal h hinside hsize (of_decide_eq_true hany) howner ds
      · next hany =>
          rw [if_neg hany] at hlength
          obtain ⟨d, rest, rfl, -⟩ := exists_cons hlength
          exact .typeParameter (hds d.clipped (by simp))
  | field =>
      rw [hkind] at hlength
      obtain ⟨d, rest, rfl, -⟩ := exists_cons hlength
      exact .field (hds d.clipped (by simp))
  | property =>
      rw [hkind] at hlength
      obtain ⟨d, parameters, rfl, hcount⟩ := exists_cons hlength
      obtain ⟨hd, hparameters⟩ := List.forall_mem_cons.mp hds
      rw [List.length_map] at hcount
      rw [clipped, assembledAt, mapLeaves, mapLeavesEach_eq]
      exact .property hd (fitsHeader_signatureAt h hs hsize hcount) hparameters
  | method =>
      rw [hkind] at hlength
      obtain ⟨d, parameters, rfl, hcount⟩ := exists_cons hlength
      obtain ⟨hd, hparameters⟩ := List.forall_mem_cons.mp hds
      rw [List.length_map] at hcount
      have harity := h.length_belongings_le hs .typeParameter
      rw [clipped, assembledAt, mapLeaves, mapLeavesEach_eq]
      exact .method hd (fitsCount_of_le harity hsize) (fitsHeader_signatureAt h hs hsize hcount)
        hparameters
  | parameter =>
      rw [hkind] at hlength
      obtain ⟨d, rest, rfl, -⟩ := exists_cons hlength
      exact .parameter (hds d.clipped (by simp))
  | localVariable =>
      rw [hkind] at hlength
      obtain ⟨d, rest, rfl, -⟩ := exists_cons hlength
      have hlocals : (c.localsAt (· == (c.entry s).name) (c.outerAt s)).length ≤ c.size :=
        Nat.le_trans (List.length_filter_le _ _)
          (h.length_membersAt_le (h.closed.issued_container hs) .localVariable)
      exact .localVariable (hds d.clipped (by simp))
        (fitsCount_of_le (Nat.le_trans (getD_idxOf?_le _ s) hlocals) hsize)

/-! ## Descriptions -/

/-- Every symbol has a description within a depth above its weight. -/
theorem described (hlt : c.weight methods s < n) : Described c n methods s := by
  induction n generalizing methods s with
  | zero => cases hlt
  | succ n ih =>
      have hs := hinside.issued
      obtain ⟨ds, hds⟩ := exists_forall₂ fun p (hp : p ∈ inner c methods s) => by
        obtain ⟨hinside', hless⟩ := hinside.inner h.founded hp
        exact ih hinside' (by omega)
      refine ⟨_, (ofSymbolWithin_eq_ok h.closed hs).mpr ⟨ds, hds.imp fun _ _ hd => hd.1, rfl⟩,
        describes_assembledAt (hds.imp fun _ _ hd => hd.2.1), fun hsize =>
          shaped_assembledAt h hinside hsize hds.length_eq.symm
            (List.forall_mem_map.mpr fun d hd => ?_)⟩
      obtain ⟨p, -, -, -, hshaped⟩ := exists_left hds hd
      exact hshaped hsize

omit hinside in
/-- Every symbol of a lawful compilation has a description, which is the one that is found and the
one that the frames of its key hold. -/
theorem describes_ofSymbol (hs : c.Issued s) :
    ∃ d, ofSymbol c [] s = .ok d ∧ Describes c [] s d.clipped ∧
      (c.size < UInt32.size → d.clipped.Shaped (depthBound c)) :=
  have hinside : c.Inside [] s := ⟨List.nodup_nil, by simp, hs, .inl rfl⟩
  described h hinside hinside.weight_lt

end Description
end Moniker
