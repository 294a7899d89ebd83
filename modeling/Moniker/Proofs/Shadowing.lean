import Mathlib.Data.List.TakeWhile
import Moniker.Proofs.Alike
import Moniker.Proofs.Depths
import Moniker.Proofs.Emission
import Moniker.Proofs.Keys
import Moniker.Proofs.Limits
import Moniker.Proofs.Programs
import Moniker.Proofs.Standing

/-!
# Shadowed locals

The key of a local says which of the locals of its name in its method it is. The count is over
locals of exactly the same name, whereas a key is resolved by counting locals whose names match.
Where case is ignored, more names match: a local of a matching but different name that is declared
earlier shifts the count, and the key leads to another local than the one that it was made from. It
never fails, and it leads back if and only if no such local comes first (`Key.local_returns_iff`).
-/

namespace Moniker

/-! ## Places in filtered lists -/

section Places

variable {α : Type} [DecidableEq α] {as : List α} {a : α} {p q : α → Bool}

/-- The list around the first occurrence of one of its elements. -/
theorem exists_eq_takeWhile_append (ha : a ∈ as) :
    ∃ after, as = as.takeWhile (· != a) ++ a :: after := by
  induction as with
  | nil => exact absurd ha List.not_mem_nil
  | cons b rest ih =>
      by_cases hb : b = a
      · subst hb
        exact ⟨rest, by simp⟩
      · obtain ⟨after, hrest⟩ := ih (List.mem_of_ne_of_mem (Ne.symm hb) ha)
        refine ⟨after, ?_⟩
        rw [List.takeWhile_cons_of_pos (by simpa using hb), List.cons_append, ← hrest]

theorem notMem_takeWhile : a ∉ as.takeWhile (· != a) := by
  intro hmem
  have hne := List.mem_takeWhile_imp hmem
  simp at hne

/-- The place of an element among those that pass a test is the number of those before it. -/
theorem idxOf?_filter (ha : a ∈ as) (hp : p a = true) :
    (as.filter p).idxOf? a = some ((as.takeWhile (· != a)).filter p).length := by
  obtain ⟨after, has⟩ := exists_eq_takeWhile_append ha
  have hbefore : a ∉ (as.takeWhile (· != a)).filter p :=
    fun hmem => notMem_takeWhile (List.mem_of_mem_filter hmem)
  generalize as.takeWhile (· != a) = before at has hbefore ⊢
  rw [has, List.filter_append, List.filter_cons_of_pos hp, List.idxOf?_eq_some_iff]
  refine ⟨by simp, by simp, fun i hi hplace => hbefore ?_⟩
  rw [List.getElem_append_left hi] at hplace
  exact hplace ▸ List.getElem_mem hi

/-- Counted among the elements that pass a stronger test and looked up among those that pass a
weaker one, a place holds some element. It is the one that was meant if no element before it passes
the weaker test only. -/
theorem getElem?_filter_of_imp (himp : ∀ b, p b = true →
      q b = true) (ha : a ∈ as) (hp : p a = true) :
    ∃ b ∈ as, q b = true ∧ (as.filter q)[((as.filter p).idxOf? a).getD 0]? = some b ∧
      (b = a ↔ ∀ b ∈ as.takeWhile (· != a), q b = true → p b = true) := by
  rw [idxOf?_filter ha hp, Option.getD_some]
  obtain ⟨after, has⟩ := exists_eq_takeWhile_append ha
  have hnot : a ∉ as.takeWhile (· != a) := notMem_takeWhile
  generalize as.takeWhile (· != a) = before at has hnot ⊢
  have hsplit : as.filter q = before.filter q ++ a :: after.filter q := by
    rw [has, List.filter_append, List.filter_cons_of_pos (himp a hp)]
  have hstronger : (before.filter q).filter p = before.filter p := by
    rw [List.filter_filter]
    refine List.filter_congr fun b _ => ?_
    cases hb : p b with
    | false => simp
    | true => simp [himp b hb]
  by_cases hall : ∀ b ∈ before, q b = true → p b = true
  · have hsame : before.filter p = before.filter q := by
      rw [← hstronger, List.filter_eq_self]
      intro b hb
      obtain ⟨hb, hqb⟩ := List.mem_filter.mp hb
      exact hall b hb hqb
    exact ⟨a, ha, himp a hp, by rw [hsplit, hsame]; simp, fun _ => hall, fun _ => rfl⟩
  · -- an element that passes the weaker test only takes up a place before
    have hfewer : (before.filter p).length < (before.filter q).length := by
      rw [← hstronger]
      refine Nat.lt_of_le_of_ne (List.length_filter_le _ _) fun hlength => hall fun b hb hqb => ?_
      exact (List.length_filter_eq_length_iff.mp hlength) b (List.mem_filter.mpr ⟨hb, hqb⟩)
    have hmem : (before.filter q)[(before.filter p).length] ∈ before.filter q :=
      List.getElem_mem hfewer
    obtain ⟨hmem, hq⟩ := List.mem_filter.mp hmem
    refine ⟨(before.filter q)[(before.filter p).length], ?_, hq, ?_, ?_⟩
    · rw [has]
      exact List.mem_append_left _ hmem
    · rw [hsplit, List.getElem?_append_left hfewer, List.getElem?_eq_getElem hfewer]
    · refine ⟨fun heq => absurd (heq ▸ hmem) hnot, fun h => absurd h hall⟩

end Places

/-! ## Members and their container -/

namespace SymbolTable

/-- What an entry lists among its members has been issued inside it. -/
def Houses (t : SymbolTable) : Prop :=
  ∀ s, t.Issued s → ∀ m ∈ (t.entry s).members, t.Issued m ∧ (t.entry m).container = some s

variable {t : SymbolTable} {role : Attachment} {owner : SymbolId} {x : Symbol}

theorem container_attach (role : Attachment) (id : SymbolId) (x : Symbol) :
    (attach role id x).container = x.container := by
  cases role <;> rfl

/-- A declaration does not move symbols. -/
theorem container_declared (ho : t.Issued owner) {s : SymbolId} (hs : t.Issued s) :
    ((t.declared role owner x).entry s).container = (t.entry s).container := by
  by_cases hne : s = owner
  · rw [hne, entry_declared_owner ho, container_attach]
  · rw [entry_declared hs hne]

theorem Houses.declared (h : t.Houses) (ho : t.Issued owner) (hx : x.members = [])
    (role : Attachment) :
    (t.declared role owner x).Houses := by
  have hold : ∀ {s m : SymbolId}, t.Issued m ∧ (t.entry m).container = some s →
      (t.declared role owner x).Issued m ∧
        ((t.declared role owner x).entry m).container = some s := by
    intro s m hm
    exact ⟨issued_declared hm.1, by rw [container_declared ho hm.1]; exact hm.2⟩
  intro s hs m hm
  rcases issued_of_declared hs with hs | rfl
  · by_cases hne : s = owner
    · subst hne
      rw [entry_declared_owner ho] at hm
      cases role with
      | parameter | typeParameter => exact hold (h s ho m hm)
      | member =>
          rcases List.mem_append.mp hm with hm | hm
          · exact hold (h s ho m hm)
          · rw [List.mem_singleton.mp hm, entry_declared_next]
            exact ⟨issued_next_declared, rfl⟩
    · rw [entry_declared hs hne] at hm
      exact hold (h s hs m hm)
  · rw [entry_declared_next, hx] at hm
    cases hm

theorem Houses.declaredAll {xs : List Symbol} (h : t.Houses) (ho : t.Issued owner)
    (hxs : ∀ x ∈ xs, x.members = []) (role : Attachment) :
    (t.declaredAll role owner xs).Houses := by
  induction xs generalizing t with
  | nil => exact h
  | cons x rest ih =>
      exact ih (h.declared ho (hxs x (by simp)) role) (issued_declared ho) fun y hy =>
        hxs y (by simp [hy])

theorem Houses.intern {shape : Shape} {build : SymbolTable → SymbolId × SymbolTable} (h : t.Houses)
    (hbuild : (build t).2.Houses) : (t.intern shape build).2.Houses := by
  unfold SymbolTable.intern
  split
  · exact h
  · exact hbuild

theorem Houses.addWithMembers {type : Symbol} {members : List Symbol} (h : t.Houses)
    (hmembers : ∀ x ∈ members, x.members = []) : (t.addWithMembers type members).2.Houses := by
  intro s hs m hm
  rcases issued_addWithMembers hs with hs | rfl | ⟨i, hi, rfl⟩
  · rw [entry_addWithMembers type members hs] at hm
    obtain ⟨hm, hcontainer⟩ := h s hs m hm
    exact ⟨(grows_addWithMembers type members t).issued hm, by
      rw [entry_addWithMembers type members hm]; exact hcontainer⟩
  · rw [entry_addWithMembers_next] at hm
    obtain ⟨i, hi, rfl⟩ := List.mem_map.mp hm
    rw [List.mem_range] at hi
    refine ⟨?_, by rw [entry_addWithMembers_member hi]⟩
    show t.size + 1 + i < (t.addWithMembers type members).2.size
    rw [size_addWithMembers]
    omega
  · rw [entry_addWithMembers_member hi] at hm
    rw [show members[i].members = [] from hmembers _ (List.getElem_mem hi)] at hm
    cases hm

theorem Houses.add (h : t.Houses) (hx : x.members = []) : (t.add x).2.Houses := by
  rw [add_eq_addWithMembers hx]
  exact h.addWithMembers (by simp)

/-- What has no lists has no members. -/
theorem members_of_breadth {x : Symbol} (h : x.breadth = 0) : x.members = [] := by
  unfold Symbol.breadth at h
  exact List.length_eq_zero_iff.mp (by omega)

end SymbolTable

theorem TypeRequest.after_houses {t : SymbolTable} (r : TypeRequest) (h : t.Houses) :
    (r.after t).Houses := by
  cases r with
  | array element rank | pointer pointee => exact h.intern (h.add rfl)
  | constructed definition arguments =>
      simp only [after]
      split
      · exact h.intern (h.add rfl)
      · exact h
  | tuple types names locations =>
      simp only [after, SymbolTable.tuple, bind, Except.bind, pure, Except.pure]
      cases SymbolTable.checkTuple types names locations with
      | error e => exact h
      | ok _ =>
          refine h.intern (h.addWithMembers fun x hx => ?_)
          exact SymbolTable.members_of_breadth (SymbolTable.breadth_tupleFields x hx)
  | anonymous types names readOnly locations =>
      simp only [after, SymbolTable.anonymous, bind, Except.bind, pure, Except.pure]
      cases SymbolTable.checkAnonymous t.maxAnonymousArity types names readOnly locations with
      | error e => exact h
      | ok _ =>
          refine h.intern (h.addWithMembers fun x hx => ?_)
          exact SymbolTable.members_of_breadth (SymbolTable.breadth_anonymousProperties x hx)

theorem Request.after_houses {t : SymbolTable} (r : Request) (h : t.Houses) (hr : r.Issued t) :
    (r.after t).Houses := by
  cases r with
  | file path | limitAnonymousArity limit => exact h
  | nameSpace owner name | field owner name type location
  | property owner name type readOnly location | parameter owner name type
  | localVariable owner name type => exact h.declared (hr owner (by simp [symbols])) rfl _
  | namedType owner name typeParameters | method owner name typeParameters =>
      refine (h.declared (hr owner (by simp [symbols])) rfl _).declaredAll
        SymbolTable.issued_next_declared (fun x hx => ?_) _
      obtain ⟨name, -, rfl⟩ := List.mem_map.mp hx
      rfl
  | indexer owner name type parameters =>
      refine (h.declared (hr owner (by simp [symbols])) rfl _).declaredAll
        SymbolTable.issued_next_declared (fun x hx => ?_) _
      obtain ⟨parameter, -, rfl⟩ := List.mem_map.mp hx
      rfl
  | structural request => exact request.after_houses h

theorem Draft.houses_empty : Draft.empty.table.Houses := by
  have hentries : ∀ i, i < 5 → ∀ m ∈ (Draft.empty.table.entry ⟨i⟩).members,
      m.index < 5 ∧ (Draft.empty.table.entry m).container = some ⟨i⟩ := by
    decide
  exact fun s hs => hentries s.index hs

namespace Compilation

variable {c : Compilation} {m l : SymbolId}

/-- Whatever requests for issued symbols made of a compilation, members know what they belong to. -/
theorem Made.containerAt_member (h : c.Made fun t r => r.Issued t) (hm : c.Issued m)
    (hl : l ∈ (c.entry m).members) : c.containerAt l = some m := by
  obtain ⟨hhouses, hplain⟩ := h.table (fun _ _ hr => hr) Draft.houses_empty fun _ r ht hr =>
    r.after_houses ht hr
  rw [hplain.containerAt_eq]
  exact (hhouses m hm l hl).2

/-- The locals of a method that are declared before one of them. -/
def localsBefore (c : Compilation) (m l : SymbolId) : List SymbolId :=
  (c.membersAt .localVariable m).takeWhile (· != l)

variable (hmade : c.Made fun t r => r.Issued t) (hm : c.Issued m)
  (hl : l ∈ c.membersAt .localVariable m)
include hmade hm hl

/-- A local is described inside its method, by its name and its place among the locals of that
name. -/
theorem ofSymbolWithin_local {n : Nat} {d : Description}
    (hd : Description.ofSymbolWithin c n [] m = .ok d) :
    Description.ofSymbolWithin c (n + 1) [] l =
      .ok (.localVariable d (.ok (c.entry l).name) (.ok (c.localOrdinalAt l))) := by
  obtain ⟨hmember, hkind⟩ := mem_membersAt.mp hl
  have hcontainer := hmade.containerAt_member hm hmember
  have hcategory : c.categoryAt [] l = .localVariable := by
    rw [categoryAt, hkind]
  refine (Description.ofSymbolWithin_eq_ok hmade.closed (hmade.closed.issued_membersAt hm hl)).mpr
    ⟨[d], ?_, ?_⟩
  · rw [Description.inner, hcategory, nestedAt, outerAt, hcontainer]
    exact .cons hd .nil
  · rw [hcategory]
    rfl

/-- Where the place of a local leads among the locals whose names match. -/
theorem localsAt_ordinal (o : ResolveOptions) :
    ∃ a ∈ c.membersAt .localVariable m, o.namesMatch (c.entry a).name (c.entry l).name = true ∧
      (c.localsAt (o.namesMatch · (c.entry l).name) m)[c.localOrdinalAt l]? = some a ∧
      (a = l ↔ ∀ b ∈ c.localsBefore m l, o.namesMatch (c.entry b).name (c.entry l).name = true →
        (c.entry b).name = (c.entry l).name) := by
  have hcontainer := hmade.containerAt_member hm (mem_membersAt.mp hl).1
  have hfound := getElem?_filter_of_imp (p := fun b => (c.entry b).name == (c.entry l).name)
    (q := fun b => o.namesMatch (c.entry b).name (c.entry l).name) (fun b hb => by
      rw [beq_iff_eq.mp hb]
      exact o.namesMatch_self _) hl (beq_self_eq_true _)
  rw [localOrdinalAt, outerAt, hcontainer, Option.getD_some]
  simpa only [localsAt, localsBefore, beq_iff_eq] using hfound

/-- No method has more locals than a count frame counts. -/
theorem fitsCount_localOrdinalAt (hsize : c.size < UInt32.size) :
    Frame.FitsCount (c.localOrdinalAt l) := by
  obtain ⟨a, -, -, hplace, -⟩ := localsAt_ordinal hmade hm hl {}
  obtain ⟨hlt, -⟩ := List.getElem?_eq_some_iff.mp hplace
  have hlocals : (c.localsAt (({} : ResolveOptions).namesMatch · (c.entry l).name) m).length ≤
      (c.membersAt .localVariable m).length := List.length_filter_le _ _
  have hmembers := length_membersAt_le (c := c) .localVariable m
  have hroomy : (c.entry m).breadth ≤ c.size := hmade.roomy m hm
  have hmax : UInt32.size ≤ Frame.maxCount := by decide
  show c.localOrdinalAt l ≤ Frame.maxCount
  omega

end Compilation

namespace Key

open Compilation

/-- A local whose method resolves to itself always resolves to some local of that method with a
matching name. It resolves to itself if and only if no local declared before it has a matching name
that is another one. -/
theorem local_returns_iff {c : Compilation} {m l : SymbolId} {km : Key}
    (hmade : c.Made fun t r => r.Issued t) (hsize : c.size < UInt32.size) (hm : c.Issued m)
    (hl : l ∈ c.membersAt .localVariable m) (hkm : ofSymbol c m = .ok km) :
    ∃ k depth, ofSymbol c l = .ok k ∧ (∀ n, Grammar.Derives n k.frames ↔ depth ≤ n) ∧
      ∀ (o : ResolveOptions) (scene : Scene), scene.compilation = c → o.cancelled = false →
        depth ≤ o.maxDepth.toNat → (km.resolve o scene).1 = .ok (.ok (.symbol m)) →
        ∃ a ∈ c.membersAt .localVariable m, (k.resolve o scene).1 = .ok (.ok (.symbol a)) ∧
          o.namesMatch (c.entry a).name (c.entry l).name = true ∧
          (a = l ↔ ∀ b ∈ c.localsBefore m l,
            o.namesMatch (c.entry b).name (c.entry l).name = true →
              (c.entry b).name = (c.entry l).name) := by
  have hclosed := hmade.closed
  have hissued := hclosed.issued_membersAt hm hl
  obtain ⟨n, d, hn, rfl⟩ := (ofSymbol_eq_ok_iff hclosed hm).mp hkm
  -- the segment of the local around what describes the method
  let whole (method : Description) : Description :=
    .localVariable method (.ok (c.entry l).name) (.ok (c.localOrdinalAt l))
  have hlocal : Description.ofSymbolWithin c (n + 1) [] l = .ok (whole d) :=
    ofSymbolWithin_local hmade hm hl hn
  have hderives := Description.derives_ofSymbolWithin hclosed hmade.roomy hsize hissued hlocal
  obtain ⟨depth, hdepth⟩ := hderives.exists_depth
  refine ⟨ofFrames (whole d).frames, depth,
    (ofSymbol_eq_ok_iff hclosed hissued).mpr ⟨n + 1, _, hlocal, rfl⟩, hdepth, ?_⟩
  rintro o scene rfl hlive hle hself
  obtain ⟨d', hshaped, hframes⟩ := Grammar.exists_description
    (Description.derives_ofSymbolWithin hclosed hmade.roomy hsize hm hn)
  have hfound : (d'.locate o [] scene.compilation).1 = .ok (.symbol m) :=
    locate_of_resolve hshaped rfl hframes.symm hclosed hself
  have hshaped' : (whole d').Shaped (n + 1) :=
    .localVariable hshaped (fitsCount_localOrdinalAt hmade hm hl hsize)
  have hframes' : (whole d).frames = (whole d').frames := by
    show Frame.kind .localVariable :: (d.frames ++ _ ++ _) = .kind .localVariable ::
      (d'.frames ++ _ ++ _)
    rw [hframes]
  have hresolve := (resolve_of_frames (k := ofFrames (whole d).frames) hshaped' rfl hframes' hclosed
    ((defect?_eq_none_iff hlive).mpr ((hdepth _).mpr hle))).1
  obtain ⟨a, ha, hmatch, hplace, hiff⟩ := localsAt_ordinal hmade hm hl o
  refine ⟨a, ha, ?_, hmatch, hiff⟩
  have hgrows := (Description.locate_closed o d' [] _ hclosed (by simp)).1.grows
  rw [hresolve, Description.locate, hfound]
  simp only [part_ok, Except.bind, Slot.valueOr_ok, Resolution.candidates, localsBearing,
    hgrows.localsAt hclosed hm, List.filterMap_cons, hplace, List.filterMap_nil]
  rfl

/-- After a local `v`, a local `V` of the same method resolves to another local when case is
ignored. -/
theorem local_returns_rivals :
    let c := (Draft.rivals "a").finish
    ∃ k a, ofSymbol c ⟨14⟩ = .ok k ∧
      (k.resolve { ignoreCase := true } { compilation := c }).1 = .ok (.ok (.symbol a)) ∧
          a ≠ ⟨14⟩ := by
  intro c
  have hmade : c.Made fun t r => r.Issued t :=
    .finish ((Draft.made_rivals (by simp)).mono fun _ _ h => h.issued)
  have hm : c.Issued ⟨12⟩ := by
    unfold Compilation.Issued SymbolTable.Issued
    decide
  have hl : c.Issued ⟨14⟩ := by
    unfold Compilation.Issued SymbolTable.Issued
    decide
  obtain ⟨k, depth, hk, hdepth, hresolve⟩ :=
    local_returns_iff (m := ⟨12⟩) (l := ⟨14⟩) hmade (by decide) hm
    (by decide) rfl
  have hderives := derives_of_finishes hmade.closed hmade.roomy (by decide) hl hk (n := 64) ⟨_, rfl⟩
  obtain ⟨a, -, ha, -, hiff⟩ := hresolve { ignoreCase := true } { compilation := c } rfl rfl
    ((hdepth 64).mp hderives) (by decide)
  refine ⟨k, a, hk, ha, fun hsame => ?_⟩
  exact absurd (hiff.mp hsame) (by decide)

/-- The method of these locals resolves to itself, and the key of `V` leads to `v`. -/
theorem local_shadowed :
    let c := (Draft.rivals "a").finish
    c.Made Request.Contained ∧ c.membersAt .localVariable ⟨12⟩ = [⟨13⟩, ⟨14⟩] ∧
      ∃ km k, ofSymbol c ⟨12⟩ = .ok km ∧ ofSymbol c ⟨14⟩ = .ok k ∧
        (km.resolve { ignoreCase := true } { compilation := c }).1 = .ok (.ok (.symbol ⟨12⟩)) ∧
        (k.resolve { ignoreCase := true } { compilation := c }).1 = .ok (.ok (.symbol ⟨13⟩)) := by
  let method := [Frame.kind .method, .kind .namedType, .kind .nameSpace, .bool true,
    .text (some "C"), .int 0, .array .absent 0, .text (some "m"), .int 0, .array .empty 0]
  refine ⟨.finish (Draft.made_rivals (by simp)), by decide, ofFrames method,
    ofFrames (.kind .localVariable :: method ++
      [.text (some "V"), .int 0]), by decide, by decide, ?_⟩
  decide

end Key
end Moniker
