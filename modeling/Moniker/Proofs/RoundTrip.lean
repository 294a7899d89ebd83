import Moniker.Proofs.Alike
import Moniker.Proofs.Keys
import Moniker.Proofs.Limits
import Moniker.Proofs.Soundness

/-!
# Keys lead back to their symbols

If siblings can be told apart, one symbol is found for whatever describes a symbol of the
compilation, also in its later states: the symbol itself, or a type that is alike where the
signature of a method is gone through inside another one (`Description.Describes.settles`). So the
other candidates for a method drop out, and the key of a symbol resolves to nothing but the symbol
(`Key.resolve_ofSymbol_eq`).
-/

namespace Moniker

/-- An outcome is ambiguous only between several candidates. -/
def Decode.Several (resolved : Resolved) : Prop :=
  ∀ several, resolved = .ok (.ambiguous several) → several.length ≠ 1

/-- Rebuilding what a lookup found loses and adds no candidates. -/
theorem Resolution.length_rebuilt (build : Compilation → SymbolId → SymbolId × Compilation)
    (c : Compilation) (r : Resolution SymbolId) :
    (r.rebuilt build c).1.candidates.length = r.candidates.length := by
  cases r with
  | symbol s => rfl
  | ambiguous several => exact Compilation.length_buildEach several c

namespace Description

/-- What holds of failures, of symbols and of what lookups come to holds of whatever a description
comes to, as long as it is kept when arrays of, or pointers to, what a description came to are
built. -/
theorem locate_outcome {P : Resolved → Prop} {o : ResolveOptions} {methods : List SymbolId}
    {c : Compilation} (herror : ∀ reason, P (.error reason)) (hsymbol : ∀ s, P (.ok (.symbol s)))
    (hfound : ∀ found missing, P (Resolution.ofCandidates found missing))
    (harray : ∀ d r rank, (locate o d methods c).1 = .ok r → P (.ok r) →
      P (.ok (r.rebuilt (fun c s => c.arrayType s rank) (locate o d methods c).2).1))
    (hpointer : ∀ d r, (locate o d methods c).1 = .ok r → P (.ok r) →
      P (.ok (r.rebuilt (fun c s => c.pointerType s) (locate o d methods c).2).1))
    (d : Description) : P (locate o d methods c).1 := by
  have hbind {α : Type} {next : α → Resolved} (outcome : Except Failure α) (h : ∀ a, P (next a)) :
      P (outcome.bind next) := by
    cases outcome with
    | ok a => exact h a
    | error reason => exact herror reason
  have hanswer (fallback : Fallback) (codec detail : String) (c : Compilation) :
      P (fallback.answer codec detail c) := by
    cases fallback with
    | universal => exact hsymbol _
    | fail => exact herror _
  have hsettle (fallback : Fallback) (codec : String) (presence : Presence) (c : Compilation)
      (request : Except Rejection SymbolId × Compilation) :
      P (fallback.settle codec presence c request).1 := by
    unfold Fallback.settle
    split
    · exact hanswer _ _ _ _
    · split
      · exact hsymbol _
      · exact hanswer _ _ _ _
  induction d with
  | unreadable _ | unflagged _ | global =>
      simp only [locate]
      exact hsymbol _
  | nameSpace _ _ _ | typeParameter _ _ _ | field _ _ _ | parameter _ _ _ | localVariable _ _ _ _ =>
      simp only [locate]
      exact hbind _ fun _ => hfound _ _
  | namedType container name arity presence arguments _ _ =>
      simp only [locate]
      split
      · exact herror _
      · exact herror _
      · unfold constructedAt
        split <;> exact hfound _ _
  | arrayType element rank ih =>
      simp only [locate]
      split
      · exact herror _
      · next r hr =>
          have hr := part_eq_ok.mp hr
          exact harray element r _ hr (hr ▸ ih)
  | pointerType pointee ih =>
      simp only [locate]
      split
      · exact herror _
      · next r hr =>
          have hr := part_eq_ok.mp hr
          exact hpointer pointee r hr (hr ▸ ih)
  | tupleType presence types names locations _ =>
      simp only [locate]
      split
      · exact herror _
      · exact herror _
      · exact hsettle _ _ _ _ _
  | anonymousType presence types names readOnly locations _ =>
      simp only [locate]
      split
      · exact herror _
      · exact herror _
      · exact hsettle _ _ _ _ _
  | typeParameterOrdinal depth ordinal =>
      simp only [locate, enclosingAt]
      repeat' split
      all_goals first | exact herror _ | exact hsymbol _
  | property container name presence parameters _ _ =>
      simp only [locate]
      exact hbind _ fun _ => hbind _ fun _ => hfound _ _
  | method container name arity presence parameters _ _ =>
      simp only [locate]
      refine hbind _ fun _ => ?_
      unfold Replay.outcome
      split
      · exact herror _
      · exact hfound _ _

theorem locate_several (o : ResolveOptions) (d : Description) (methods : List SymbolId)
    (c : Compilation) : Decode.Several (locate o d methods c).1 := by
  have hrebuilt : ∀ build c r, Decode.Several (.ok r) →
      Decode.Several (.ok (Resolution.rebuilt build c r).1) := by
    intro build c r hr
    cases r with
    | symbol s => exact fun _ h => nomatch h
    | ambiguous found =>
      intro several hs
      cases hs
      rw [Compilation.length_buildEach]
      exact hr found rfl
  exact locate_outcome (fun _ _ h => nomatch h) (fun _ _ h => nomatch h)
    (fun _ _ _ h => Resolution.length_ofCandidates h) (fun _ r _ _ => hrebuilt _ _ r)
    (fun _ r _ => hrebuilt _ _ r) d

/-- What resolves has candidates. -/
theorem locate_candidates (o : ResolveOptions) (d : Description) (methods : List SymbolId)
    (c : Compilation) : ∀ r, (locate o d methods c).1 = .ok r → r.candidates ≠ [] := by
  have hrebuilt : ∀ build c (r : Resolution SymbolId),
      (∀ r', Except.ok r = (.ok r' : Resolved) → r'.candidates ≠ []) →
        ∀ r', Except.ok (r.rebuilt build c).1 = (.ok r' : Resolved) → r'.candidates ≠ [] := by
    intro build c r hr r' h
    cases h
    rw [← List.length_pos_iff, Resolution.length_rebuilt, List.length_pos_iff]
    exact hr r rfl
  refine locate_outcome (P := fun resolved => ∀ r, resolved = .ok r → r.candidates ≠ [])
    (fun _ _ h => nomatch h) (fun s r h => ?_) (fun found missing r h => ?_)
    (fun _ r _ _ => hrebuilt _ _ r) (fun _ r _ => hrebuilt _ _ r) d
  · cases h
    exact List.cons_ne_nil _ _
  · intro hnone
    obtain rfl : found = [] := by
      cases found with
      | nil => rfl
      | cons s rest =>
        have hmem : s ∈ r.candidates := (Resolution.mem_ofCandidates h).mpr List.mem_cons_self
        rw [hnone] at hmem
        cases hmem
    cases h

/-- Finding one candidate is resolving to it. -/
theorem locate_of_finds {o : ResolveOptions} {d : Description} {methods : List SymbolId}
    {c : Compilation} {s : SymbolId} (h : finds o d methods c = [s]) :
    (locate o d methods c).1 = .ok (.symbol s) := by
  have hseveral := locate_several o d methods c
  rw [finds] at h
  cases hr : (locate o d methods c).1 with
  | error reason => rw [hr] at h; cases h
  | ok r =>
      rw [hr] at h hseveral
      cases r with
      | symbol s' => cases h; rfl
      | ambiguous several =>
          obtain rfl : several = [s] := h
          exact absurd rfl (hseveral _ rfl)

open Compilation

variable {c₁ c c' : Compilation} {o : ResolveOptions} {around methods : List SymbolId}
  {s a p : SymbolId} {container : Description}

theorem getElem?_getD_idxOf? {symbols : List SymbolId} (hs : s ∈ symbols) :
    symbols[(symbols.idxOf? s).getD 0]? = some s := by
  cases hplace : symbols.idxOf? s with
  | none => exact absurd hs (List.idxOf?_eq_none_iff.mp hplace)
  | some i =>
      obtain ⟨hi, hget, -⟩ := List.idxOf?_eq_some_iff.mp hplace
      exact List.getElem?_eq_some_iff.mpr ⟨hi, hget⟩

/-- What is to be found for a symbol: a symbol that is alike, and the symbol itself unless other
methods are tried in place of those around it. -/
structure Mirrors (c : Compilation) (around methods : List SymbolId) (s a : SymbolId) : Prop where
  alike : c.Alike around methods s a
  same : around = methods → a = s

/-- Wherever the description of a symbol is tried in a later state, one symbol is found that mirrors
the symbol. -/
def Settles (o : ResolveOptions) (c₁ : Compilation) (around : List SymbolId) (s : SymbolId)
    (d : Description) : Prop :=
  ∀ (methods : List SymbolId) (c : Compilation), c₁.Grows c → c.Lawful →
    Within c₁ c around methods s →
    ∃ a, finds o d methods c = [a] ∧ Mirrors (after o d methods c) around methods s a

theorem Mirrors.grows (h : Mirrors c around methods s a) (hgrows : c.Grows c') (hlawful : c.Lawful)
    (hs : c.Issued s) (ha : c.Issued a) (haround : ∀ m ∈ around, c.Issued m)
    (hmethods : ∀ m ∈ methods, c.Issued m) : Mirrors c' around methods s a :=
  ⟨h.alike.grows hgrows hlawful hs ha haround hmethods, h.same⟩

/-- Inside the same methods the types found for others are those types. -/
theorem eq_of_mirrors {ts items : List SymbolId} (hsame : around = methods)
    (h : List.Forall₂ (Mirrors c around methods) ts items) : items = ts := by
  have hmap := eq_map_of_forall₂ (f := id) (h.imp fun _ _ ha => ha.same hsame)
  rwa [List.map_id] at hmap

/-! ## Declared symbols -/

section Named

variable (h₁ : c₁.Lawful) (hgrows : c₁.Grows c) (hs : c₁.Issued s)
include h₁ hgrows hs

theorem Mirrors.declared (hlabel : c₁.labelAt s = none)
    (hfree : ∀ m ∈ around, c₁.containerAt s ≠ some m) : Mirrors c around methods s s := by
  refine ⟨.same (by rw [hgrows.labelAt h₁.closed hs, hlabel]) fun m hm => ?_, fun _ => rfl⟩
  rw [hgrows.containerAt hs]
  exact hfree m hm

variable {kind : SymbolKind} (hkind : (c₁.entry s).kind = kind)
  (hself : (c₁.entry s).definition = none) (hcontainer : c₁.containerAt s = some p)
include hkind hself hcontainer

omit h₁ in
/-- A declared symbol is found under its own name wherever its container is gone through. -/
theorem child_iff_mem {owners : List SymbolId} :
    c.Child o owners kind (c₁.entry s).name s ↔ p ∈ owners := by
  have hentry := hgrows.entry hs
  have hinside : c.containerAt s = some p := by rw [hgrows.containerAt hs, hcontainer]
  constructor
  · intro hchild
    obtain ⟨q, hq, hcontainer'⟩ := hchild.inside
    rw [hinside, Option.some.injEq] at hcontainer'
    rwa [hcontainer']
  · intro hp
    refine ⟨hgrows.issued hs, by rw [hentry, hself], by rw [hentry, hkind], ⟨p, hp, hinside⟩, ?_⟩
    rw [hentry]
    exact o.namesMatch_self _

omit h₁ in
theorem child_self : c.Child o [p] kind (c₁.entry s).name s :=
  (child_iff_mem hgrows hs hkind hself hcontainer).mpr (List.mem_singleton.mpr rfl)

/-- Whatever else is found there was declared there before. -/
theorem namesakes_of_child (h : c.Lawful) (ha : c.Child o [p] kind (c₁.entry s).name a) :
    c₁.Namesakes o s a := by
  obtain ⟨p', hp', hinside⟩ := ha.inside
  obtain rfl := List.mem_singleton.mp hp'
  have hp : c₁.Issued p' := by
    have hp := h₁.closed.issued_container hs
    rwa [hcontainer] at hp
  have hmem := (h.mem_belongings (hgrows.issued hp)).mpr ⟨ha.issued, ha.definition, rfl, hinside⟩
  rw [hgrows.entry hp] at hmem
  have hissued : c₁.Issued a := h₁.table.issued_belongings hp hmem
  have hentry := hgrows.entry hissued
  refine ⟨⟨hs, hissued⟩, ⟨hself, by rw [← hentry]; exact ha.definition⟩, ?_,
    ⟨p', hcontainer, ?_⟩, ?_⟩
  · rw [hkind, ← hentry, ha.kind]
  · rw [← hgrows.containerAt hissued, hinside]
  · rw [← hentry]
    exact ha.named

omit h₁ hgrows hs hkind hself hcontainer in
/-- No unnamed element of a tuple bears the name of a named one. -/
theorem named_of_namesakes (ha : c₁.Namesakes o s a) (hnamed : ¬ c₁.Unnamed s) :
    ¬ c₁.Unnamed a := by
  rintro ⟨hfield, hempty, p, hp, htuple⟩
  obtain ⟨p', hs, ha'⟩ := ha.container
  have hname := ha.named
  rw [hempty] at hname
  rw [ha', Option.some.injEq] at hp
  exact hnamed ⟨by rw [← ha.kind, hfield], ResolveOptions.eq_empty_of_namesMatch hname, p', hs,
    by rw [hp, htuple]⟩

theorem eq_of_child (h : c.Lawful) (hd : c₁.Distinguishable o) (hsole : c₁.Sole o s)
    (hcoincide : c₁.Namesakes o s a → c₁.Coincide s a)
    (ha : c.Child o [p] kind (c₁.entry s).name a) : a = s := by
  have hnamesakes := namesakes_of_child h₁ hgrows hs hkind hself hcontainer h ha
  by_cases hnamed : c₁.Unnamed s
  · exact hsole hnamed a hnamesakes
  · exact hd s a hnamesakes hnamed (named_of_namesakes hnamesakes hnamed) (hcoincide hnamesakes)

/-- Where the name is all that counts, nothing else is found under it. -/
theorem child_iff (h : c.Lawful) (hd : c₁.Distinguishable o) (hsole : c₁.Sole o s)
    (hcoincide : ∀ a, c₁.Coincide s a) :
    c.Child o [p] kind (c₁.entry s).name a ↔ a = s := by
  constructor
  · exact eq_of_child h₁ hgrows hs hkind hself hcontainer h hd hsole fun _ => hcoincide a
  · rintro rfl
    exact child_self hgrows hs hkind hself hcontainer

end Named

/-- Where the description of a container is settled, the container is all that is found. -/
theorem Settles.only (h : Settles o c₁ around p container) (hd : Describes c₁ around p container)
    (h₁ : c₁.Lawful) (hp : c₁.Issued p) (hgrows : c₁.Grows c) (hlawful : c.Lawful)
    (hwithin : Within c₁ c around methods p)
    (hdeclared : around = [] ∨ (c₁.entry p).kind = .nameSpace ∨ c₁.table.IsDefinition p) :
    c.Grows (after o container methods c) ∧ (after o container methods c).Lawful ∧
      finds o container methods c = [p] ∧
      ∀ q ∈ [p], (after o container methods c).Issued q := by
  obtain ⟨hlater, hlawful', hissued⟩ := hd.later (o := o) h₁ hp hlawful hwithin.issued
  obtain ⟨a, hfound, hmirrors⟩ := h methods c hgrows hlawful hwithin
  have hsame : a = p := by
    cases hwithin with
    | outside => exact hmirrors.same rfl
    | @inside m _ _ hmethods _ _ =>
        have hdeclared := hdeclared.resolve_left (by simp)
        have hnot : (c₁.entry p).kind ≠ .typeParameter := by
          rcases hdeclared with hspace | hdefinition
          · rw [hspace]
            simp
          · rw [show (c₁.entry p).kind = _ from hdefinition.kind]
            simp
        have hlabel : c₁.labelAt p = none := by
          rcases hdeclared with hspace | hdefinition
          · exact labelAt_declared (by rw [hspace]; simp) (by rw [hspace]; rfl)
          · exact labelAt_definition hdefinition.kind hdefinition.definition
        have hlater := hgrows.trans hlater
        refine hmirrors.alike.eq_of_declared (by rw [hlater.labelAt h₁.closed hp, hlabel])
          fun q hq hmem => ?_
        obtain rfl := List.mem_singleton.mp hq
        rw [hlater.entry hmethods.described] at hmem
        exact hnot (h₁.kind_of_mem_belongings hmethods.described (.inr rfl) hmem)
  rw [hsame] at hfound
  exact ⟨hlater, hlawful', hfound, hfound ▸ hissued⟩

/-- A local stands among those of its name in the place that its key gives. -/
theorem localsAt_localOrdinalAt (h₁ : c₁.Lawful) (hs : c₁.Issued s)
    (hkind : (c₁.entry s).kind = .localVariable) :
    (c₁.localsAt (· == (c₁.entry s).name) (c₁.outerAt s))[c₁.localOrdinalAt s]? = some s := by
  have hself := h₁.definition_eq_none hs hkind (by simp)
  obtain ⟨hinside, hp, -⟩ := h₁.outer hs hkind hself (by simp) rfl
  have hmember : s ∈ (c₁.entry (c₁.outerAt s)).belongings .member :=
    (h₁.mem_belongings hp).mpr ⟨hs, hself, by rw [hkind]; rfl, hinside⟩
  rw [localOrdinalAt]
  exact getElem?_getD_idxOf?
    (List.mem_filter.mpr ⟨mem_membersAt.mpr ⟨hmember, hkind⟩, beq_self_eq_true _⟩)

/-! ## Built types -/

/-- Where each element has been found, the array comes to what was found. -/
theorem exists_items {α : Type} {R : α → SymbolId → Prop} {ps : List α}
    {results : List (Except Failure SymbolId)}
    (h : List.Forall₂ (fun p x => ∃ a, x = .ok a ∧ R p a) ps results) :
    ∃ items, results = items.map .ok ∧ List.Forall₂ R ps items := by
  induction h with
  | nil => exact ⟨[], rfl, .nil⟩
  | cons hhead _ ih =>
      obtain ⟨a, rfl, ha⟩ := hhead
      obtain ⟨items, rfl, hitems⟩ := ih
      exact ⟨a :: items, rfl, .cons ha hitems⟩

/-- The descriptions in a row are settled one by one. -/
theorem Settles.each {ts : List SymbolId} {ds : List Description} (h₁ : c₁.Lawful)
    (hds : DescribesEach c₁ around ts ds) (ih : ∀ p ∈ ts.zip ds, Settles o c₁ around p.1 p.2)
    (hgrows : c₁.Grows c) (h : c.Lawful) (hwithin : ∀ t ∈ ts, Within c₁ c around methods t)
    (haround : ∀ m ∈ around, c₁.Issued m) (hmethods : ∀ m ∈ methods, c.Issued m) :
    ∃ items, ComeTo o ds methods c items ∧ ∀ c', (afterEach o ds methods c).Grows c' →
      List.Forall₂ (Mirrors c' around methods) ts items := by
  -- whatever was found mirrors its type in every later state, so nothing has to be kept
  obtain ⟨-, -, hkept⟩ := hds.keeps (o := o) (T := fun c p x => ∃ a, x = .ok a ∧
      ∀ c', c.Grows c' → Mirrors c' around methods p.1 a) h₁ h hmethods
    (fun c c' p x hc _ hx => by
      obtain ⟨a, hx, ha⟩ := hx
      exact ⟨a, hx, fun c'' hc' => ha c'' (hc.trans hc')⟩)
    (fun p hp c' hc hlawful => by
      have ht := (List.of_mem_zip hp).1
      have hissued := (hds.types p.1 ht).issued
      have hmethods := fun m hm => hc.issued (hmethods m hm)
      obtain ⟨hlater, hlawful', hknows⟩ :=
        (hds.each p hp).later (o := o) h₁ hissued hlawful hmethods
      obtain ⟨a, hfound, ha⟩ :=
        ih p hp methods c' (hgrows.trans hc) hlawful ((hwithin p.1 ht).later hc)
      have hall := (hgrows.trans hc).trans hlater
      refine ⟨a, Decode.first_eq_ok.mpr ?_, fun c'' hc' => ?_⟩
      · rw [show Decode.candidates _ = _ from hfound]
        rfl
      · exact ha.grows hc' hlawful' (hall.issued hissued)
          (hknows a (hfound ▸ List.mem_singleton.mpr rfl))
          (fun m hm => hall.issued (haround m hm)) fun m hm => hlater.issued (hmethods m hm))
  obtain ⟨items, hitems, hall⟩ := exists_items hkept
  refine ⟨items, hitems, fun c' hc => ?_⟩
  rw [← List.map_fst_zip (Nat.le_of_eq hds.length.symm), List.forall₂_map_left_iff]
  exact hall.imp fun p a ha => ha c' hc

section Built

variable {l : Label} {items : List SymbolId} (hr : c₁.Rebuildable) (h₁ : c₁.Lawful)
  (hs : c₁.Issued s)
include hr h₁ hs

/-- What is built from parts that were found mirrors the type that they were found for. -/
theorem Mirrors.built (hgrows : c₁.Grows c) (h : c.Lawful) (hlabel : c₁.labelAt s = some l)
    (hlookup : c.table.interned.lookup (l.shape items) = some a)
    (hparts : List.Forall₂ (Mirrors c around methods) (c₁.partsAt s) items) :
    Mirrors c around methods s a := by
  have hlength : items.length = (c₁.partsAt s).length := hparts.length_eq.symm
  obtain ⟨hlabel', hparts'⟩ := h.label_of_lookup (admits_of_labelAt hlabel hlength) hlookup
  have hsame := hgrows.partsAt h₁.closed hs
  refine ⟨.built (by rw [hgrows.labelAt h₁.closed hs, hlabel]) hlabel'
    (by rw [hparts', hsame, hlength]) ?_, fun heq => ?_⟩
  · rw [hparts', hsame]
    exact fun p hp => ((List.forall₂_iff_zip.mp hparts).2 hp).alike
  · -- parts that are found inside the same methods are the parts of the type itself
    have hlookup' := hgrows.table.interned _ _ (hr.lookup h₁ hs hlabel)
    rw [eq_of_mirrors heq hparts, hlookup', Option.some.injEq] at hlookup
    exact hlookup.symm

/-- A type that is rebuilt from a single part. -/
theorem settles_rebuilt {part d : Description} {t : SymbolId} (hlabel : c₁.labelAt s = some l)
    (hparts : c₁.partsAt s = [t]) (hpart : Describes c₁ around t part)
    (hd : Describes c₁ around s d)
    (hrebuilt : ∀ (methods : List SymbolId) (c : Compilation), (after o part methods c).Lawful →
      (∀ a ∈ finds o part methods c, (after o part methods c).table.IsType a) →
      (after o part methods c).Grows (after o d methods c) ∧
        List.Forall₂ (fun e a => (after o d methods c).table.interned.lookup (l.shape [e]) = some a)
          (finds o part methods c) (finds o d methods c)) (ih : Settles o c₁ around t part) :
    Settles o c₁ around s d := by
  intro methods c hgrows h hwithin
  have hmem : t ∈ c₁.partsAt s := by simp [hparts]
  have htype := h₁.isType_of_mem_partsAt hs hmem
  obtain ⟨hlater, hlawful, hissued⟩ := hpart.later (o := o) h₁ htype.issued h hwithin.issued
  obtain ⟨-, hlawful', -⟩ := hd.later (o := o) h₁ hs h hwithin.issued
  obtain ⟨hlater', hrebuilt⟩ :=
    hrebuilt methods c hlawful (hpart.isType h₁ htype h hwithin.issued)
  obtain ⟨e, hfound, he⟩ := ih methods c hgrows h (hwithin.part h₁ hs hmem)
  rw [hfound] at hrebuilt hissued
  obtain ⟨a, rest, hlookup, hnil, hfinds⟩ := List.forall₂_cons_left_iff.mp hrebuilt
  rw [List.forall₂_nil_left_iff.mp hnil] at hfinds
  have hall := hgrows.trans hlater
  refine ⟨a, hfinds, .built hr h₁ hs (hall.trans hlater') hlawful' hlabel hlookup ?_⟩
  rw [hparts]
  refine .cons (he.grows hlater' hlawful (hall.issued htype.issued) (hissued e (by simp)) ?_ ?_)
    .nil
  · exact fun m hm => hall.issued (hwithin.described m hm)
  · exact fun m hm => hlater.issued (hwithin.issued m hm)

theorem settles_arrayType {element : Description} (hkind : (c₁.entry s).kind = .arrayType)
    (helement : Describes c₁ around (c₁.typeAt s) element)
    (ih : Settles o c₁ around (c₁.typeAt s) element) :
    Settles o c₁ around s
      (.arrayType element (.ok (min (c₁.entry s).rank.toNat Frame.maxCount))) := by
  refine settles_rebuilt hr h₁ hs (labelAt_array hkind) (partsAt_array hkind) helement
    (.arrayType hkind helement) (fun methods c h htypes => ?_) ih
  refine ⟨(finds_arrayType h htypes).1, (finds_arrayType h htypes).2.imp fun e a ha => ?_⟩
  rwa [hr.rank_eq hs] at ha

theorem settles_pointerType {pointee : Description} (hkind : (c₁.entry s).kind = .pointerType)
    (hpointee : Describes c₁ around (c₁.typeAt s) pointee)
    (ih : Settles o c₁ around (c₁.typeAt s) pointee) :
    Settles o c₁ around s (.pointerType pointee) :=
  settles_rebuilt hr h₁ hs (labelAt_pointer hkind) (partsAt_pointer hkind) hpointee
    (.pointerType hkind hpointee) (fun _ _ => finds_pointerType) ih

theorem settles_tupleType {types : List Description} (hkind : (c₁.entry s).kind = .tupleType)
    (hlength : types.length = (c₁.memberTypesAt .field s).length)
    (htypes : ∀ p ∈ (c₁.memberTypesAt .field s).zip types, Describes c₁ around p.1 p.2)
    (ih : ∀ p ∈ (c₁.memberTypesAt .field s).zip types, Settles o c₁ around p.1 p.2) :
    Settles o c₁ around s (.tupleType (.ok (.ofLength (c₁.memberTypesAt .field s).length)) types
      (.ofValues (c₁.elementNamesAt s)) (.ofValues (c₁.memberLocationsAt .field s))) := by
  intro methods c hgrows h hwithin
  have hparts := partsAt_tuple hkind
  have hds : DescribesEach c₁ around (c₁.memberTypesAt .field s) types :=
    ⟨hlength, fun t ht => h₁.isType_of_mem_partsAt hs (hparts ▸ ht), htypes⟩
  obtain ⟨hlater, hlawful⟩ := hds.later (o := o) h₁ h hwithin.issued
  obtain ⟨items, hitems, hmirrors⟩ := Settles.each h₁ hds ih hgrows h
    (fun t ht => hwithin.part h₁ hs (hparts ▸ ht)) hwithin.described hwithin.issued
  have hcheck := hr.checkTuple h₁ hs hkind (hmirrors _ (.refl _)).length_eq.symm
  obtain ⟨a, hfound, hlater', hlookup⟩ := finds_tupleType
    (n := (c₁.memberTypesAt .field s).length) hlawful hitems (hds.isType h₁ h hwithin.issued hitems)
    (hr.accepts (hgrows.trans hlater) hs (by rw [hkind]; rfl) .field) hcheck
  obtain ⟨-, hlawful', -⟩ :=
    (Describes.tupleType hkind hlength htypes).later (o := o) h₁ hs h hwithin.issued
  refine ⟨a, hfound, .built hr h₁ hs (hgrows.trans (hlater.trans hlater')) hlawful'
    (labelAt_tuple hkind) hlookup ?_⟩
  rw [hparts]
  exact hmirrors _ hlater'

theorem settles_anonymousType {types : List Description}
    (hkind : (c₁.entry s).kind = .anonymousType)
    (hlength : types.length = (c₁.memberTypesAt .property s).length)
    (htypes : ∀ p ∈ (c₁.memberTypesAt .property s).zip types, Describes c₁ around p.1 p.2)
    (ih : ∀ p ∈ (c₁.memberTypesAt .property s).zip types, Settles o c₁ around p.1 p.2) :
    Settles o c₁ around s
      (.anonymousType (.ok (.ofLength (c₁.memberTypesAt .property s).length)) types
        (.ofValues ((c₁.propertyNamesAt s).map some)) (.ofValues (c₁.readOnlyAt s))
        (.ofValues (c₁.memberLocationsAt .property s))) := by
  intro methods c hgrows h hwithin
  have hparts := partsAt_anonymous hkind
  have hds : DescribesEach c₁ around (c₁.memberTypesAt .property s) types :=
    ⟨hlength, fun t ht => h₁.isType_of_mem_partsAt hs (hparts ▸ ht), htypes⟩
  obtain ⟨hlater, hlawful⟩ := hds.later (o := o) h₁ h hwithin.issued
  obtain ⟨items, hitems, hmirrors⟩ := Settles.each h₁ hds ih hgrows h
    (fun t ht => hwithin.part h₁ hs (hparts ▸ ht)) hwithin.described hwithin.issued
  have hcheck := hr.checkAnonymous h₁ hs hkind (hgrows.trans hlater)
    (hmirrors _ (.refl _)).length_eq.symm
  obtain ⟨a, hfound, hlater', hlookup⟩ := finds_anonymousType
    (n := (c₁.memberTypesAt .property s).length) hlawful hitems
    (hds.isType h₁ h hwithin.issued hitems)
    (hr.accepts (hgrows.trans hlater) hs (by rw [hkind]; rfl) .property) hcheck
  obtain ⟨-, hlawful', -⟩ :=
    (Describes.anonymousType hkind hlength htypes).later (o := o) h₁ hs h hwithin.issued
  refine ⟨a, hfound, .built hr h₁ hs (hgrows.trans (hlater.trans hlater')) hlawful'
    (labelAt_anonymous hkind) hlookup ?_⟩
  rw [hparts]
  exact hmirrors _ hlater'

end Built

section Rules

variable (h₁ : c₁.Lawful) (hd : c₁.Distinguishable o)
include h₁ hd

/-- Under the name and arity of a definition its container has nothing else. -/
theorem mem_definitions {g : SymbolId} (hg : c₁.table.IsDefinition g)
    (hcontainer : c₁.containerAt g = some p) (hgrows : c₁.Grows c) (h : c.Lawful)
    (hp : ∀ q ∈ [p], c.Issued q) :
    a ∈ c.genericsBearing o .namedType [p] (c₁.entry g).name (c₁.entry g).typeParameters.length ↔
      a = g := by
  have hkind : (c₁.entry g).kind = .namedType := hg.kind
  rw [h.mem_genericsBearing hp rfl]
  constructor
  · intro ⟨hchild, harity⟩
    refine eq_of_child h₁ hgrows hg.issued hkind hg.definition hcontainer h hd
      (.of_named (not_unnamed (by rw [hkind]; simp))) (fun hnamesakes => ?_) hchild
    rw [Coincide, hkind]
    rwa [hgrows.entry hnamesakes.issued.2] at harity
  · intro heq
    rw [heq]
    exact ⟨child_self hgrows hg.issued hkind hg.definition
      hcontainer, by rw [hgrows.entry hg.issued]⟩

theorem settles_constructed {g : SymbolId} {container : Description} {arguments : List Description}
    (hr : c₁.Rebuildable) (hs : c₁.Issued s) (hkind : (c₁.entry s).kind = .namedType)
    (hdefinition : c₁.definitionAt s = g) (hne : g ≠ s)
    (hcontainer : Describes c₁ around (c₁.outerAt g) container)
    (hlength : arguments.length = (c₁.entry s).typeArguments.length)
    (harguments : ∀ p ∈ (c₁.entry s).typeArguments.zip arguments, Describes c₁ around p.1 p.2)
    (ih : Settles o c₁ around (c₁.outerAt g) container)
    (iharguments : ∀ p ∈ (c₁.entry s).typeArguments.zip arguments, Settles o c₁ around p.1 p.2) :
    Settles o c₁ around s (.namedType container (.ok (c₁.entry g).name)
      (.ok (c₁.entry g).typeParameters.length) (.ok (.ofLength (c₁.entry s).typeArguments.length))
      arguments) := by
  intro methods c hgrows h hwithin
  have hdefined := definition_of_definitionAt hdefinition hne
  have hparts := partsAt_constructed hkind hdefined
  obtain ⟨hg, -, harity, hpositive⟩ := h₁.constructed_from hs hdefinition hne
  obtain ⟨hinside, hp, hhost⟩ := h₁.outer hg.issued hg.kind hg.definition (by simp) rfl
  obtain ⟨hlater₁, hlawful₁, hfound, hissued₁⟩ :=
    ih.only hcontainer h₁ hp hgrows h (hwithin.declared hhost) (.inr hhost)
  have hds : DescribesEach c₁ around (c₁.entry s).typeArguments arguments :=
    ⟨hlength, fun t ht => h₁.isType_of_mem_partsAt hs (hparts ▸ ht), harguments⟩
  have hmethods₁ := fun m hm => hlater₁.issued (hwithin.issued m hm)
  have hgrows₁ := hgrows.trans hlater₁
  obtain ⟨hlater₂, hlawful₂⟩ := hds.later (o := o) h₁ hlawful₁ hmethods₁
  obtain ⟨items, hitems, hmirrors⟩ := Settles.each h₁ hds iharguments hgrows₁ hlawful₁
    (fun t ht => (hwithin.part h₁ hs (hparts ▸ ht)).later hlater₁) hwithin.described hmethods₁
  have hcount : (c₁.entry s).typeArguments.length = items.length := (hmirrors _ (.refl _)).length_eq
  have hissued₂ := fun q hq => hlater₂.issued (hissued₁ q hq)
  obtain ⟨hlater₃, found, hconstructed, heq⟩ := finds_constructed (c₁.entry g).name
    (c₁.entry s).typeArguments.length hlawful₂ (hfound ▸ hissued₂) hitems
    (hds.isType h₁ hlawful₁ hmethods₁ hitems) (harity.trans hcount) hpositive
  obtain ⟨-, hlawful', -⟩ := (Describes.constructed hkind hdefinition hne hcontainer hlength
    harguments).later (o := o) h₁ hs h hwithin.issued
  rw [hfound] at hconstructed
  have hgrows₂ := hgrows₁.trans hlater₂
  have hdefinitions := fun a => mem_definitions (a := a) h₁ hd hg hinside hgrows₂ hlawful₂ hissued₂
  obtain ⟨a, ha, hlookup⟩ := exists_left hconstructed.flip ((hdefinitions g).mpr rfl)
  refine ⟨a, ?_, .built hr h₁ hs (hgrows₂.trans hlater₃) hlawful'
    (labelAt_constructed hkind hdefined) hlookup ?_⟩
  · rw [heq]
    refine Resolution.eraseDups_eq_singleton fun x => ⟨fun hx => ?_, fun hx => hx ▸ ha⟩
    obtain ⟨g', hg', hlookup'⟩ := exists_left hconstructed hx
    rw [(hdefinitions g').mp hg', hlookup, Option.some.injEq] at hlookup'
    exact hlookup'.symm
  · rw [hparts]
    exact hmirrors _ hlater₃

theorem settles_property {container : Description} {parameters : List Description}
    (hs : c₁.Issued s) (hkind : (c₁.entry s).kind = .property)
    (hcontainer : Describes c₁ around (c₁.outerAt s) container)
    (hlength : parameters.length = (c₁.signatureAt s).length)
    (hparameters : ∀ p ∈ (c₁.signatureAt s).zip parameters, Describes c₁ around p.1 p.2)
    (ih : Settles o c₁ around (c₁.outerAt s) container)
    (ihparameters : ∀ p ∈ (c₁.signatureAt s).zip parameters, Settles o c₁ around p.1 p.2) :
    Settles o c₁ around s (.property container (.ok (c₁.entry s).name)
      (.ok (.ofLength (c₁.signatureAt s).length)) parameters) := by
  intro methods c hgrows h hwithin
  obtain ⟨rfl, rfl⟩ := hwithin.eq_nil (by rw [hkind]; simp) (by rw [hkind]; rfl)
  have hself := h₁.definition_eq_none hs hkind (by simp)
  obtain ⟨hinside, hp, -⟩ := h₁.outer hs hkind hself (by simp) rfl
  obtain ⟨hlater₁, hlawful₁, hfound, hissued₁⟩ :=
    ih.only hcontainer h₁ hp hgrows h .outside (.inl rfl)
  have hds : DescribesEach c₁ [] (c₁.signatureAt s) parameters :=
    ⟨hlength, fun t ht => h₁.isType_of_mem_signatureAt hs ht, hparameters⟩
  have hgrows₁ := hgrows.trans hlater₁
  obtain ⟨hlater₂, hlawful₂⟩ := hds.later (o := o) h₁ hlawful₁ (issued_nil _)
  obtain ⟨items, hitems, hmirrors⟩ := Settles.each h₁ hds ihparameters hgrows₁ hlawful₁
    (fun _ _ => .outside) (issued_nil c₁) (issued_nil _)
  have hgrows₂ := hgrows₁.trans hlater₂
  have hsame : items = c₁.signatureAt s := eq_of_mirrors rfl (hmirrors _ (.refl _))
  have hlabel : c₁.labelAt s = none := labelAt_declared (by rw [hkind]; simp) (by rw [hkind]; rfl)
  refine ⟨s, ?_, ?_⟩
  · rw [finds_property hitems, hfound, hsame]
    refine Resolution.eraseDups_eq_singleton fun x => ?_
    rw [hlawful₂.mem_propertiesBearing fun q hq => hlater₂.issued (hissued₁ q hq)]
    constructor
    · intro ⟨hchild, hsignature⟩
      refine eq_of_child h₁ hgrows₂ hs hkind hself hinside hlawful₂ hd
        (.of_named (not_unnamed (by rw [hkind]; simp))) (fun hnamesakes => ?_) hchild
      rw [Coincide, hkind]
      rwa [hgrows₂.signatureAt h₁.closed hnamesakes.issued.2] at hsignature
    · intro heq
      rw [heq]
      exact ⟨child_self hgrows₂ hs hkind hself hinside, hgrows₂.signatureAt h₁.closed hs⟩
  · rw [after_property]
    exact .declared h₁ hgrows₂ hs hlabel fun m hm => by cases hm

/-- Going through the signature of a method inside another one of the same arity comes to types that
mirror those of the signature. -/
def Retraces (c₁ c : Compilation) (s m : SymbolId) (outcome : Except Failure (List SymbolId)) :
    Prop :=
  ∃ items, outcome = .ok items ∧
    ∀ c', c.Grows c' → List.Forall₂ (Mirrors c' [s] [m]) (c₁.signatureAt s) items

omit h₁ hd in
theorem Retraces.later {m : SymbolId} {outcome : Except Failure (List SymbolId)}
    (h : Retraces c₁ c s m outcome) (hgrows : c.Grows c') : Retraces c₁ c' s m outcome := by
  obtain ⟨items, houtcome, hitems⟩ := h
  exact ⟨items, houtcome, fun c'' hgrows' => hitems c'' (hgrows.trans hgrows')⟩

omit h₁ hd in
/-- Inside the method itself, its own signature is what is come to. -/
theorem Retraces.self {outcome : Except Failure (List SymbolId)} (h : Retraces c₁ c s s outcome) :
    outcome = .ok (c₁.signatureAt s) := by
  obtain ⟨items, houtcome, hitems⟩ := h
  rw [houtcome, eq_of_mirrors rfl (hitems _ (.refl _))]

omit hd in
/-- If what is come to inside another method is the signature of that method, the signatures are
alike. -/
theorem Retraces.alike {m : SymbolId} (hgrows : c₁.Grows c) (hs : c₁.Issued s) (hm : c₁.Issued m)
    (h : Retraces c₁ c s m (.ok (c₁.signatureAt m))) :
    List.Forall₂ (c₁.Alike [s] [m]) (c₁.signatureAt s) (c₁.signatureAt m) := by
  obtain ⟨items, hitems, hmirrors⟩ := h
  cases hitems
  have hmirrors := hmirrors _ (.refl _)
  refine List.forall₂_iff_zip.mpr ⟨hmirrors.length_eq, fun {t t'} ht => ?_⟩
  have htypes := List.of_mem_zip ht
  exact ((List.forall₂_iff_zip.mp hmirrors).2 ht).alike.of_later hgrows h₁
    (h₁.isType_of_mem_signatureAt hs htypes.1).issued
    (h₁.isType_of_mem_signatureAt hm htypes.2).issued
    (fun m' hm' => by rwa [List.mem_singleton.mp hm'])
    (fun m' hm' => by rwa [List.mem_singleton.mp hm'])

omit hd in
/-- The signature of a method is retraced inside every counterpart of the method. -/
theorem retraces {m : SymbolId} {parameters : List Description} (hscoped : c₁.Scoped)
    (hds : DescribesEach c₁ [s] (c₁.signatureAt s) parameters)
    (ih : ∀ p ∈ (c₁.signatureAt s).zip parameters, Settles o c₁ [s] p.1 p.2) (hgrows : c₁.Grows c)
    (h : c.Lawful) (hm : Counterpart c₁ c s m) :
    Retraces c₁ (afterEach o parameters [m] c) s m (goThrough o parameters [m] c).1 := by
  obtain ⟨items, hitems, hmirrors⟩ := Settles.each h₁ hds ih hgrows h
    (fun t ht => hscoped.within hm ht (hds.types t ht))
    (fun m' hm' => by rw [List.mem_singleton.mp hm']; exact hm.described)
    (fun m' hm' => by rw [List.mem_singleton.mp hm']; exact hm.issued)
  exact ⟨items, hitems.gathered, hmirrors⟩

theorem settles_method {container : Description} {parameters : List Description}
    (hscoped : c₁.Scoped) (hs : c₁.Issued s) (hkind : (c₁.entry s).kind = .method)
    (hcontainer : Describes c₁ around (c₁.outerAt s) container)
    (hlength : parameters.length = (c₁.signatureAt s).length)
    (hparameters : ∀ p ∈ (c₁.signatureAt s).zip parameters, Describes c₁ (around ++ [s]) p.1 p.2)
    (ih : Settles o c₁ around (c₁.outerAt s) container)
    (ihparameters : ∀ p ∈ (c₁.signatureAt s).zip parameters, Settles o c₁ (around ++ [s]) p.1 p.2) :
    Settles o c₁ around s (.method container (.ok (c₁.entry s).name)
      (.ok (c₁.entry s).typeParameters.length) (.ok (.ofLength (c₁.signatureAt s).length))
      parameters) := by
  intro methods c hgrows h hwithin
  obtain ⟨rfl, rfl⟩ := hwithin.eq_nil (by rw [hkind]; simp) (by rw [hkind]; rfl)
  have hself := h₁.definition_eq_none hs hkind (by simp)
  obtain ⟨hinside, hp, -⟩ := h₁.outer hs hkind hself (by simp) rfl
  obtain ⟨hlater₁, hlawful₁, hfound, hissued₁⟩ :=
    ih.only hcontainer h₁ hp hgrows h .outside (.inl rfl)
  have hgrows₁ := hgrows.trans hlater₁
  have hds : DescribesEach c₁ [s] (c₁.signatureAt s) parameters :=
    ⟨hlength, fun t ht => h₁.isType_of_mem_signatureAt hs ht, hparameters⟩
  have hcandidate : ∀ m, m ∈ (after o container [] c).genericsBearing o .method [c₁.outerAt s]
      (c₁.entry s).name (c₁.entry s).typeParameters.length ↔
      (after o container [] c).Child o [c₁.outerAt s] .method (c₁.entry s).name m ∧
        ((after o container [] c).entry m).typeParameters.length =
            (c₁.entry s).typeParameters.length :=
    fun m => hlawful₁.mem_genericsBearing hissued₁ rfl
  have hkeep : ∀ c c' m x, Compilation.Grows c c' → c.Lawful → Retraces c₁ c s m x →
      Retraces c₁ c' s m x := fun _ _ _ _ hc _ hx => hx.later hc
  have hsignature : ∀ m ∈ (after o container [] c).genericsBearing o .method [c₁.outerAt s]
      (c₁.entry s).name (c₁.entry s).typeParameters.length, ∀ c',
        (after o container [] c).Grows c' →
      c'.Lawful → Retraces c₁ (afterEach o parameters ([] ++ [m]) c') s m
        (goThrough o parameters ([] ++ [m]) c').1 := by
    intro m hm c' hc hlawful
    obtain ⟨hchild, harity⟩ := (hcandidate m).mp hm
    refine retraces h₁ hscoped hds ihparameters (hgrows₁.trans hc) hlawful
      ⟨hs, hkind, hc.issued hchild.issued, ?_, ?_⟩ <;> rw [hc.entry hchild.issued]
    · exact hchild.kind
    · exact harity
  obtain ⟨hlater₂, outcomes, houtcomes, heq⟩ := finds_method (c₁.entry s).name
    (c₁.entry s).typeParameters.length (.ok (.ofLength (c₁.signatureAt s).length)) hlawful₁
    (hfound ▸ hissued₁) (by rw [hfound]) (issued_nil _) (fun _ _ h hm => hds.later h₁ h hm) hkeep
    hsignature
  have hgrows₂ := hgrows₁.trans hlater₂
  have hretraced := List.forall₂_iff_zip.mp houtcomes
  refine ⟨s, ?_, .declared h₁ hgrows₂ hs
    (labelAt_declared (by rw [hkind]; simp) (by rw [hkind]; rfl))
    fun m hm => by cases hm⟩
  rw [heq]
  refine Resolution.eraseDups_eq_singleton fun m => ?_
  rw [mem_fits]
  constructor
  · -- a candidate fits if its signature is alike, so that it is no other method
    intro hm
    obtain ⟨hchild, harity⟩ := (hcandidate m).mp (List.of_mem_zip hm).1
    refine eq_of_child h₁ hgrows₁ hs hkind hself hinside hlawful₁ hd
      (.of_named (not_unnamed (by rw [hkind]; simp))) (fun hnamesakes => ?_) hchild
    have hissued := hnamesakes.issued.2
    have hfits := hretraced.2 hm
    rw [hgrows₁.signatureAt h₁.closed hissued] at hfits
    rw [Coincide, hkind]
    exact ⟨by rwa [hgrows₁.entry hissued] at harity, hfits.alike h₁ hgrows₂ hs hissued⟩
  · intro hm
    have hmem := (hcandidate s).mpr
      ⟨child_self hgrows₁ hs hkind hself hinside, by rw [hgrows₁.entry hs]⟩
    obtain ⟨outcome, hpair⟩ := exists_mem_zip houtcomes.length_eq hmem
    rw [hm, hgrows₁.signatureAt h₁.closed hs, ← (hretraced.2 hpair).self]
    exact hpair

theorem settles_localVariable {owner : Description} (hs : c₁.Issued s)
    (hkind : (c₁.entry s).kind = .localVariable) (howner : Describes c₁ around (c₁.outerAt s) owner)
    (ih : Settles o c₁ around (c₁.outerAt s) owner) :
    Settles o c₁ around s
      (.localVariable owner (.ok (c₁.entry s).name) (.ok (c₁.localOrdinalAt s))) := by
  intro methods c hgrows h hwithin
  obtain ⟨rfl, rfl⟩ := hwithin.eq_nil (by rw [hkind]; simp) (by rw [hkind]; rfl)
  have hself := h₁.definition_eq_none hs hkind (by simp)
  obtain ⟨hinside, hp, -⟩ := h₁.outer hs hkind hself (by simp) rfl
  obtain ⟨hlater, hlawful, hfound, hissued⟩ := ih.only howner h₁ hp hgrows h .outside (.inl rfl)
  have hgrows' := hgrows.trans hlater
  -- locals of matching names have the same name, so that the place among them is that in the key
  have hlocals : (after o owner [] c).localsAt (o.namesMatch · (c₁.entry s).name) (c₁.outerAt s) =
      c₁.localsAt (· == (c₁.entry s).name) (c₁.outerAt s) := by
    rw [hgrows'.localsAt h₁.closed hp]
    refine List.filter_congr fun m hm => ?_
    rw [Bool.eq_iff_iff, beq_iff_eq]
    constructor
    · intro hmatch
      by_contra hne
      have hchild : c₁.Child o [c₁.outerAt s] .localVariable (c₁.entry s).name m := by
        refine (h₁.mem_membersBearing (fun q hq => by rwa [List.mem_singleton.mp hq]) rfl).mp ?_
        exact List.mem_filter.mpr ⟨List.mem_flatMap.mpr ⟨_, by simp, hm⟩, hmatch⟩
      have heq := eq_of_child h₁ (.refl c₁) hs hkind hself hinside h₁ hd
        (.of_named (not_unnamed (by rw [hkind]; simp)))
          (fun _ => by rw [Coincide, hkind]; exact hne) hchild
      exact hne (by rw [heq])
    · intro heq
      rw [heq]
      exact o.namesMatch_self _
  refine ⟨s, ?_, ?_⟩
  · rw [finds_localVariable, hfound, localsBearing, List.filterMap_cons, hlocals,
      localsAt_localOrdinalAt h₁ hs hkind]
    rfl
  · rw [after_localVariable]
    exact .declared h₁ hgrows' hs (labelAt_declared (by rw [hkind]; simp) (by rw [hkind]; rfl))
      fun m hm => by cases hm

omit hd in
theorem settles_typeParameterOrdinal {m : SymbolId} (hs : c₁.Issued s)
    (hkind : (c₁.entry s).kind = .typeParameter) (hm : m ∈ around)
    (howner : c₁.containerAt s = some m) :
    Settles o c₁ around s (.typeParameterOrdinal (.ok ((methodIndex? around m).getD 0))
      (.ok (((c₁.entry m).typeParameters.idxOf? s).getD 0))) := by
  intro methods c hgrows h hwithin
  cases hwithin with
  | outside => cases hm
  | @inside _ m' _ hmethods _ _ =>
      obtain rfl := List.mem_singleton.mp hm
      have hself := h₁.definition_eq_none hs hkind (by simp)
      have hmem : s ∈ (c₁.entry m).belongings .typeParameter :=
        (h₁.mem_belongings hmethods.described).mpr ⟨hs, hself, by rw [hkind]; rfl, howner⟩
      have hplace : (c₁.entry m).typeParameters[((c₁.entry m).typeParameters.idxOf? s).getD 0]? =
          some s :=
        getElem?_getD_idxOf? hmem
      generalize ((c₁.entry m).typeParameters.idxOf? s).getD 0 = i at hplace ⊢
      have hi : i < (c.entry m').typeParameters.length := by
        obtain ⟨hi, -⟩ := List.getElem?_eq_some_iff.mp hplace
        rw [hmethods.arity]
        exact hi
      refine ⟨(c.entry m').typeParameters[i], ?_, ?_, fun hsame => ?_⟩
      · rw [methodIndex?_singleton, finds_typeParameterOrdinal]
        simp [List.getElem?_eq_getElem hi]
      · rw [after_typeParameterOrdinal]
        refine .own (i := i) (show (m, m') ∈ [m].zip [m'] by simp) ?_ (List.getElem?_eq_getElem hi)
        rw [hgrows.entry hmethods.described]
        exact hplace
      · obtain ⟨rfl, -⟩ := List.cons.inj hsame
        have hget : (c.entry m).typeParameters[i]? = some s := by
          rw [hgrows.entry hmethods.described, hplace]
        exact Option.some.inj ((List.getElem?_eq_getElem hi).symm.trans hget)

omit hd in
/-- A member is settled if its container is and has nothing else to be found there. -/
theorem Settles.member {d : Description} (ih : Settles o c₁ around p container)
    (hcontainer : Describes c₁ around p container) (hs : c₁.Issued s) (hp : c₁.Issued p)
    (hlabel : c₁.labelAt s = none)
    (hwithin : ∀ {methods : List SymbolId} {c : Compilation}, Within c₁ c around methods s →
      Within c₁ c around methods p ∧
        (around = [] ∨ (c₁.entry p).kind = .nameSpace ∨ c₁.table.IsDefinition p) ∧
        ∀ m ∈ around, c₁.containerAt s ≠ some m)
    (hafter : ∀ methods c, after o d methods c = after o container methods c)
    (hfinds : ∀ (methods : List SymbolId) (c : Compilation),
      c₁.Grows (after o container methods c) →
      (after o container methods c).Lawful → finds o container methods c = [p] →
      (∀ q ∈ [p], (after o container methods c).Issued q) → finds o d methods c = [s]) :
    Settles o c₁ around s d := by
  intro methods c hgrows h hs'
  obtain ⟨hp', hdeclared, hfree⟩ := hwithin hs'
  obtain ⟨hlater, hlawful, hfound, hissued⟩ := ih.only hcontainer h₁ hp hgrows h hp' hdeclared
  have hgrows' := hgrows.trans hlater
  refine ⟨s, hfinds methods c hgrows' hlawful hfound hissued, ?_⟩
  rw [hafter]
  exact .declared h₁ hgrows' hs hlabel hfree

/-- If siblings can be told apart, one symbol is found wherever the description of a symbol is
tried, and it mirrors the symbol. -/
theorem Describes.settles {d : Description} (hscoped : c₁.Scoped) (hr : c₁.Rebuildable)
    (hdescribes : Describes c₁ around s d) (hs : c₁.Issued s) (hsole : c₁.Sole o s) :
    Settles o c₁ around s d := by
  induction hdescribes with
  | @global around s hkind houter =>
      intro methods c hgrows h hwithin
      have hroot := h₁.eq_global hs hkind houter
      have hglobal : after o .global methods c = c := by simp only [after, locate]
      refine ⟨s, by rw [finds_global, hgrows.global, hroot], ?_⟩
      rw [hglobal]
      exact .declared h₁ hgrows hs (labelAt_declared (by rw [hkind]; simp) (by rw [hkind]; rfl))
        fun m _ => by rw [houter]; simp
  | @nameSpace around s p container hkind houter hcontainer ih =>
      have hself := h₁.definition_eq_none hs hkind (by simp)
      have hp : c₁.Issued p := h₁.table.closed.container hs (by rw [← h₁.containerAt_eq, houter])
      have hhost : (c₁.entry p).kind = .nameSpace := by
        have hhost := (h₁.belongs hs hself (by rw [← h₁.containerAt_eq, houter])).host
        rwa [show (c₁.table.entry s).kind = _ from hkind] at hhost
      refine (ih hp (.of_named (not_unnamed (by rw [hhost]; simp)))).member h₁ hcontainer hs hp
        (labelAt_declared (by rw [hkind]; simp) (by rw [hkind]; rfl))
        (fun hwithin => ⟨hwithin.declared (.inl hhost), .inr (.inl hhost),
          hwithin.free (by rw [hhost]; simp) houter⟩)
        (fun methods c => after_nameSpace) fun methods c hgrows hlawful hfound hissued => ?_
      rw [finds_nameSpace, hfound]
      refine Resolution.eraseDups_eq_singleton fun a => ?_
      rw [hlawful.mem_membersBearing hissued rfl]
      exact child_iff h₁ hgrows hs hkind hself houter hlawful hd hsole
        fun a => by rw [Coincide, hkind]; trivial
  | @definition around s container hkind hself hcontainer ih =>
      have hdefinition := h₁.definition_of_self hs hself
      obtain ⟨hinside, hp, hhost⟩ := h₁.outer hs hkind hdefinition (by simp) rfl
      have hnot : (c₁.entry (c₁.outerAt s)).kind ≠ .method := by
        rcases hhost with hspace | hhost
        · rw [show (c₁.entry (c₁.outerAt s)).kind = _ from hspace]
          simp
        · rw [show (c₁.entry (c₁.outerAt s)).kind = _ from hhost.kind]
          simp
      refine (ih hp (.of_named (not_unnamed_of_hosts hhost))).member h₁ hcontainer hs hp
        (labelAt_definition hkind hdefinition)
        (fun hwithin => ⟨hwithin.declared hhost, .inr hhost, hwithin.free hnot hinside⟩)
        (fun methods c => after_definition) fun methods c hgrows hlawful hfound hissued => ?_
      rw [finds_definition, hfound]
      exact Resolution.eraseDups_eq_singleton fun a =>
        mem_definitions h₁ hd ⟨hs, hkind, hdefinition⟩ hinside hgrows hlawful hissued
  | @constructed around s g container arguments hkind hdefinition hne hcontainer hlength
      harguments ih iharguments =>
      obtain ⟨hg, -⟩ := h₁.constructed_from hs hdefinition hne
      obtain ⟨-, hp, hhost⟩ := h₁.outer hg.issued hg.kind hg.definition (by simp) rfl
      refine settles_constructed h₁ hd hr hs hkind hdefinition hne hcontainer hlength harguments
        (ih hp (.of_named (not_unnamed_of_hosts hhost))) fun p hp => ?_
      have htype := h₁.isType_of_mem_partsAt hs
        ((partsAt_constructed hkind (definition_of_definitionAt hdefinition hne)) ▸
          (List.of_mem_zip hp).1)
      exact iharguments p hp htype.issued (.of_named (not_unnamed_of_isType htype))
  | @arrayType around s element hkind helement ih =>
      have htype := h₁.isType_of_mem_partsAt hs (partsAt_array hkind ▸ List.mem_singleton.mpr rfl)
      exact settles_arrayType hr h₁ hs hkind helement
        (ih htype.issued (.of_named (not_unnamed_of_isType htype)))
  | @pointerType around s pointee hkind hpointee ih =>
      have htype := h₁.isType_of_mem_partsAt hs (partsAt_pointer hkind ▸ List.mem_singleton.mpr rfl)
      exact settles_pointerType hr h₁ hs hkind hpointee
        (ih htype.issued (.of_named (not_unnamed_of_isType htype)))
  | tupleType hkind hlength htypes ih =>
      refine settles_tupleType hr h₁ hs hkind hlength htypes fun p hp => ?_
      have htype := h₁.isType_of_mem_partsAt hs (partsAt_tuple hkind ▸ (List.of_mem_zip hp).1)
      exact ih p hp htype.issued (.of_named (not_unnamed_of_isType htype))
  | anonymousType hkind hlength htypes ih =>
      refine settles_anonymousType hr h₁ hs hkind hlength htypes fun p hp => ?_
      have htype := h₁.isType_of_mem_partsAt hs (partsAt_anonymous hkind ▸ (List.of_mem_zip hp).1)
      exact ih p hp htype.issued (.of_named (not_unnamed_of_isType htype))
  | @typeParameter around s owner hkind hfree howner ih =>
      have hself := h₁.definition_eq_none hs hkind (by simp)
      obtain ⟨hinside, hp, hhost⟩ := h₁.outer hs hkind hself (by simp) rfl
      refine (ih hp (.of_named (not_unnamed_of_hosts hhost))).member h₁ howner hs hp
        (labelAt_declared (by rw [hkind]; simp) (by rw [hkind]; rfl)) (fun hwithin => ?_)
        (fun methods c => after_typeParameter) fun methods c hgrows hlawful hfound hissued => ?_
      · have hwithin' := hwithin.owner hkind hinside hfree hhost
        refine ⟨hwithin', ?_, hfree⟩
        rcases hhost with hdefinition | hmethod
        · exact .inr (.inr hdefinition)
        · have hmethod : (c₁.entry (c₁.outerAt s)).kind = .method := hmethod
          exact .inl (hwithin'.eq_nil (by rw [hmethod]; simp) (by rw [hmethod]; rfl)).1
      · rw [finds_typeParameter, hfound]
        refine Resolution.eraseDups_eq_singleton fun a => ?_
        rw [hlawful.mem_typeParametersBearing hissued]
        exact child_iff h₁ hgrows hs hkind hself hinside hlawful hd hsole
          fun a => by rw [Coincide, hkind]; trivial
  | typeParameterOrdinal hkind hm howner => exact settles_typeParameterOrdinal h₁ hs hkind hm howner
  | @field around s container hkind hcontainer ih =>
      have hself := h₁.definition_eq_none hs hkind (by simp)
      obtain ⟨hinside, hp, hhost⟩ := h₁.outer hs hkind hself (by simp) rfl
      refine (ih hp (.of_named (not_unnamed_of_hosts hhost))).member h₁ hcontainer hs hp
        (labelAt_declared (by rw [hkind]; simp) (by rw [hkind]; rfl)) (fun hwithin => ?_)
        (fun methods c => after_field) fun methods c hgrows hlawful hfound hissued => ?_
      · obtain ⟨rfl, rfl⟩ := hwithin.eq_nil (by rw [hkind]; simp) (by rw [hkind]; rfl)
        exact ⟨.outside, .inl rfl, fun m hm => by cases hm⟩
      · rw [finds_field, hfound]
        refine Resolution.eraseDups_eq_singleton fun a => ?_
        rw [hlawful.mem_membersBearing hissued rfl]
        exact child_iff h₁ hgrows hs hkind hself hinside hlawful hd hsole
          fun a => by rw [Coincide, hkind]; trivial
  | @property around s container parameters hkind hcontainer hlength hparameters ih ihparameters =>
      have hself := h₁.definition_eq_none hs hkind (by simp)
      obtain ⟨-, hp, hhost⟩ := h₁.outer hs hkind hself (by simp) rfl
      refine settles_property h₁ hd hs hkind hcontainer hlength hparameters
        (ih hp (.of_named (not_unnamed_of_hosts hhost))) fun p hp => ?_
      have htype := h₁.isType_of_mem_signatureAt hs (List.of_mem_zip hp).1
      exact ihparameters p hp htype.issued (.of_named (not_unnamed_of_isType htype))
  | @method around s container parameters hkind hcontainer hlength hparameters ih ihparameters =>
      have hself := h₁.definition_eq_none hs hkind (by simp)
      obtain ⟨-, hp, hhost⟩ := h₁.outer hs hkind hself (by simp) rfl
      refine settles_method h₁ hd hscoped hs hkind hcontainer hlength hparameters
        (ih hp (.of_named (not_unnamed_of_hosts hhost))) fun p hp => ?_
      have htype := h₁.isType_of_mem_signatureAt hs (List.of_mem_zip hp).1
      exact ihparameters p hp htype.issued (.of_named (not_unnamed_of_isType htype))
  | @parameter around s owner hkind howner ih =>
      have hself := h₁.definition_eq_none hs hkind (by simp)
      obtain ⟨hinside, hp, hhost⟩ := h₁.outer hs hkind hself (by simp) rfl
      refine (ih hp (.of_named (not_unnamed_of_hosts hhost))).member h₁ howner hs hp
        (labelAt_declared (by rw [hkind]; simp) (by rw [hkind]; rfl)) (fun hwithin => ?_)
        (fun methods c => after_parameter) fun methods c hgrows hlawful hfound hissued => ?_
      · obtain ⟨rfl, rfl⟩ := hwithin.eq_nil (by rw [hkind]; simp) (by rw [hkind]; rfl)
        exact ⟨.outside, .inl rfl, fun m hm => by cases hm⟩
      · rw [finds_parameter, hfound]
        refine Resolution.eraseDups_eq_singleton fun a => ?_
        rw [hlawful.mem_parametersBearing hissued]
        exact child_iff h₁ hgrows hs hkind hself hinside hlawful hd hsole
          fun a => by rw [Coincide, hkind]; trivial
  | @localVariable around s owner hkind howner ih =>
      have hself := h₁.definition_eq_none hs hkind (by simp)
      obtain ⟨-, hp, hhost⟩ := h₁.outer hs hkind hself (by simp) rfl
      exact settles_localVariable h₁ hd hs hkind howner
        (ih hp (.of_named (not_unnamed_of_hosts hhost)))

end Rules
end Description

theorem Draft.rebuildable_generic : generic.finish.Rebuildable where
  named types names s h := by cases h
  ranked s hs := by
    have hranks : ∀ i < 9, (generic.finish.entry ⟨i⟩).rank.toNat ≤ Frame.maxCount := by decide
    exact hranks s.index hs
  located s hs hkind := by
    have hkinds : ∀ i < 9, (generic.finish.entry ⟨i⟩).kind.isStructural = false := by decide
    rw [hkinds s.index hs] at hkind
    cases hkind
  capped s hs hkind n hn := by cases hn

theorem Draft.distinguishable_generic (maxDepth : UInt64) :
    generic.finish.Distinguishable { maxDepth := maxDepth } := by
  intro s a hnamesakes _ _ _
  obtain ⟨⟨hs, ha⟩, -, hkind, ⟨p, hp, hp'⟩, hnamed⟩ := hnamesakes
  have hentries : ∀ i < 9, ∀ j < 9,
      (generic.finish.entry ⟨j⟩).kind = (generic.finish.entry ⟨i⟩).kind ∧
        generic.finish.containerAt ⟨j⟩ = generic.finish.containerAt ⟨i⟩ ∧
        (generic.finish.entry ⟨j⟩).name = (generic.finish.entry ⟨i⟩).name ∧
        generic.finish.containerAt ⟨i⟩ ≠ none → j = i := by decide
  have hindex := hentries s.index hs a.index ha
    ⟨hkind, hp'.trans hp.symm, beq_iff_eq.mp hnamed, by rw [hp]; simp⟩
  cases s
  cases a
  exact congrArg SymbolId.mk hindex

/-! ## Keys -/

namespace Key

variable {c : Compilation} {s : SymbolId} {o : ResolveOptions} {scene : Scene} {k : Key}

/-- Where siblings can be told apart, a usable key resolves to the symbol that it was made for. -/
theorem resolve_eq_symbol (h : c.Lawful) (hsize : c.size < UInt32.size) (hscoped : c.Scoped)
    (hr : c.Rebuildable) (hd : c.Distinguishable o) (hs : c.Issued s) (hsole : c.Sole o s)
    (hk : ofSymbol c s = .ok k) (hlive : o.cancelled = false)
    (hderives : Grammar.Derives o.maxDepth.toNat k.frames) (hscene : scene.compilation = c) :
    (k.resolve o scene).1 = .ok (.ok (.symbol s)) := by
  obtain ⟨d, k', -, hdescribes, hk', -, hresolve⟩ := resolve_ofSymbol h hs hsize
  rw [hk, Except.ok.injEq] at hk'
  subst hk'
  rw [(hresolve o scene (hscene ▸ h.closed) (.inr ⟨hlive, hderives⟩)).1, hscene]
  obtain ⟨a, hfound, hmirrors⟩ :=
    hdescribes.settles h hd hscoped hr hs hsole [] c (.refl c) h .outside
  rw [Description.locate_of_finds hfound, hmirrors.same rfl]

/-- Every symbol of a program has a key. Where siblings can be told apart, the key resolves in the
program to that symbol and nothing else, under every limit that its depth does not exceed. The only
symbols for which it may not are those elements of a tuple that have no name, if there are
several. -/
theorem round_trip (hmade : c.Made Request.Contained) (hsize : c.size < UInt32.size)
    (hscoped : c.Scoped) (hr : c.Rebuildable) (hs : c.Issued s) :
    ∃ k depth, ofSymbol c s = .ok k ∧ depth < UInt64.size ∧
      (∀ n, Grammar.Derives n k.frames ↔ depth ≤ n) ∧
      ∀ (o : ResolveOptions) (scene : Scene), scene.compilation = c → c.Distinguishable o →
        c.Sole o s → o.cancelled = false → depth ≤ o.maxDepth.toNat →
        (k.resolve o scene).1 = .ok (.ok (.symbol s)) := by
  have h := hmade.lawful
  obtain ⟨d, k, -, -, hk, ⟨n, hn, hderives⟩, -⟩ := resolve_ofSymbol h hs hsize
  obtain ⟨depth, hdepth⟩ := hderives.exists_depth
  refine ⟨k, depth, hk, Nat.lt_of_le_of_lt ((hdepth n).mp hderives) hn, hdepth, ?_⟩
  intro o scene hscene hd hsole hlive hle
  exact resolve_eq_symbol h hsize hscoped hr hd hs hsole hk hlive ((hdepth _).mpr hle) hscene

/-- The key of a generic method, which takes its own type parameter, leads back to it. -/
theorem round_trip_generic :
    ∃ k o, ofSymbol Draft.generic.finish ⟨6⟩ = .ok k ∧
      (k.resolve o { compilation := Draft.generic.finish }).1 = .ok (.ok (.symbol ⟨6⟩)) := by
  have hissued : Draft.generic.finish.Issued ⟨6⟩ := by
    unfold Compilation.Issued SymbolTable.Issued
    decide
  obtain ⟨k, depth, hk, hdepth, -, hresolve⟩ := round_trip (.finish Draft.made_generic) (by decide)
    Draft.scoped_generic Draft.rebuildable_generic hissued
  have hle : depth ≤ (UInt64.ofNat (UInt64.size - 1)).toNat := Nat.le_of_lt_succ hdepth
  exact ⟨k, _, hk, hresolve _ _ rfl (Draft.distinguishable_generic _)
    (.of_named (Compilation.not_unnamed (by decide))) rfl hle⟩

end Key
end Moniker
