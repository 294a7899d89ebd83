import Moniker.Proofs.Conservative

/-!
# Looking up paths

A path names a symbol by the members that lead to it from the global namespace. Siblings may share a
name, as overloads do, and then a path has several ways to go. A lookup takes the eldest member of
the name at every step and never comes back: what it finds is on the path, but it misses whatever
lies behind a younger sibling (`Compilation.lookup_iff`, `Compilation.lookup_misses`).
-/

namespace Moniker

/-- On tests that cannot fail, searching is `List.find?`. -/
theorem selectFirst?_ok {α ε : Type} {test : α → Except ε Bool} {p : α → Bool} {as : List α}
    (h : ∀ a ∈ as, test a = .ok (p a)) : selectFirst? test as = .ok (as.find? p) := by
  induction as with
  | nil => rfl
  | cons a rest ih =>
    have head := h a List.mem_cons_self
    have tail := ih fun b hb => h b (List.mem_cons_of_mem a hb)
    cases hpass : p a
    · rw [List.find?_cons_of_neg (by simp [hpass]), ← tail]
      simp only [selectFirst?, head, hpass]
      rfl
    · rw [List.find?_cons_of_pos hpass]
      simp only [selectFirst?, head, hpass]
      rfl

namespace Compilation

/-! ## The parts of a path -/

/-- Two colons. -/
def separator : List Char := [':', ':']

/-- The path consists of these parts. Each part ends where the next separator begins, also if there
is a third colon, and there is none in the last part. -/
inductive Separated : List Char → List (List Char) → Prop
  | last {part : List Char} (hlast : ¬ separator <:+: part) : Separated part [part]
  | cons {part rest : List Char} {parts : List (List Char)} (hpart : ¬ separator <:+: part ++ [':'])
    (hrest : Separated rest parts) : Separated (part ++ separator ++ rest) (part :: parts)

/-- A text without a separator has one after the next character only if both are colons. -/
theorem separator_infix_concat {part : List Char} {a b : Char}
    (hpart : ¬ separator <:+: part ++ [a]) (h : separator <:+: part ++ [a] ++ [b]) :
    a = ':' ∧ b = ':' := by
  rcases List.infix_concat_iff.mp h with hsuffix | hinfix
  · rcases List.suffix_concat_iff.mp hsuffix with hnil | ⟨t, hseparator, ht⟩
    · cases hnil
    · have hsplit : [':'] ++ [':'] = t ++ [b] := hseparator
      obtain ⟨rfl, hb⟩ : [':'] = t ∧ ':' = b := by
        simpa using List.append_inj' hsplit rfl
      rcases List.suffix_concat_iff.mp ht with hnil | ⟨t, ha, -⟩
      · cases hnil
      · have hsplit : [] ++ [':'] = t ++ [a] := ha
        obtain ⟨-, ha⟩ : [] = t ∧ ':' = a := by
          simpa using List.append_inj' hsplit rfl
        exact ⟨ha.symm, hb.symm⟩
  · exact absurd hinfix hpart

/-- One character is too short for a separator. -/
theorem not_separator_infix_take (path : List Char) : ¬ separator <:+: path.take 1 := by
  intro hinfix
  have hle : 2 ≤ (path.take 1).length := hinfix.length_le
  have htake := List.length_take_le 1 path
  omega

/-- The part that has been read goes on as long as no separator begins in it. -/
theorem separated_go (part path : List Char) (h : ¬ separator <:+: part.reverse ++ path.take 1) :
    Separated (part.reverse ++ path) (splitPath.go part path) := by
  fun_induction splitPath.go part path with
  | case1 part =>
    rw [List.append_nil]
    rw [List.take_nil, List.append_nil] at h
    exact .last h
  | case2 part rest ih =>
    have hcons : Separated (part.reverse ++ separator ++ rest)
        (part.reverse :: splitPath.go [] rest) :=
      .cons h (ih (not_separator_infix_take rest))
    rw [List.append_assoc] at hcons
    exact hcons
  | case3 part c rest hne ih =>
    have hnext : ¬ separator <:+: (c :: part).reverse ++ rest.take 1 := by
      rw [List.reverse_cons]
      cases rest with
      | nil =>
        rw [List.take_nil, List.append_nil]
        exact h
      | cons d rest =>
        intro hinfix
        obtain ⟨hc, hd⟩ := separator_infix_concat h hinfix
        exact hne rest hc (by rw [hd])
    have hrest := ih hnext
    rw [List.reverse_cons, List.append_assoc] at hrest
    exact hrest

/-- A text in front in which no separator begins is taken over into the part. -/
theorem go_append {front tail : List Char} (h : ¬ separator <:+: front ++ tail.take 1)
    (part : List Char) :
    splitPath.go part (front ++ tail) = splitPath.go (front.reverse ++ part) tail := by
  induction front generalizing part with
  | nil => rfl
  | cons c front ih =>
    have hne : ∀ rest, c = ':' → front ++ tail = ':' :: rest → False := by
      rintro rest rfl hrest
      refine h ?_
      have hcolon : ∃ more, front ++ tail.take 1 = ':' :: more := by
        cases front with
        | nil =>
          refine ⟨[], ?_⟩
          rw [show tail = ':' :: rest from hrest]
          rfl
        | cons d front =>
          obtain ⟨rfl, -⟩ := List.cons.inj hrest
          exact ⟨front ++ tail.take 1, rfl⟩
      obtain ⟨more, hmore⟩ := hcolon
      rw [List.cons_append, hmore]
      exact ⟨[], more, rfl⟩
    have hfront : ¬ separator <:+: front ++ tail.take 1 := by
      intro hinfix
      exact h (List.infix_cons hinfix)
    rw [List.cons_append, splitPath.go.eq_3 part c (front ++ tail) hne, ih hfront,
      List.reverse_cons, List.append_assoc]
    rfl

/-- Every path has its parts, and splitting it yields them. -/
theorem separated_iff {path : List Char} {parts : List (List Char)} :
    Separated path parts ↔ parts = splitPath path := by
  constructor
  · intro h
    induction h with
    | @last part hlast =>
      have hfront : ¬ separator <:+: part ++ [].take 1 := by
        rw [List.take_nil, List.append_nil]
        exact hlast
      have hgo := go_append hfront []
      simp only [List.append_nil] at hgo
      rw [splitPath, hgo, splitPath.go, List.reverse_reverse]
    | @cons part rest parts hpart _ ih =>
      have hfront : ¬ separator <:+: part ++ (separator ++ rest).take 1 := hpart
      have hgo := go_append hfront []
      rw [List.append_nil] at hgo
      rw [splitPath, List.append_assoc, hgo, separator, List.cons_append, List.cons_append,
        List.nil_append, splitPath.go, List.reverse_reverse, ih, splitPath]
  · rintro rfl
    exact separated_go [] path (not_separator_infix_take path)

theorem Separated.ne_nil {path : List Char} {parts : List (List Char)} (h : Separated path parts) :
    parts ≠ [] := by
  cases h <;> exact List.cons_ne_nil _ _

/-! ## Chains of members -/

/-- A chain of such steps for these names leads from one symbol to another. -/
inductive Chain (step : SymbolId → List Char → SymbolId → Prop) :
    SymbolId → List (List Char) → SymbolId → Prop
  | here {s : SymbolId} : Chain step s [] s
  | link {s m t : SymbolId} {name : List Char} {names : List (List Char)} (hstep : step s name m)
    (hrest : Chain step m names t) : Chain step s (name :: names) t

/-- The symbol is a member of that name. -/
def Member (c : Compilation) (scope : SymbolId) (name : List Char) (m : SymbolId) : Prop :=
  m ∈ (c.entry scope).members ∧ (c.entry m).name.toList = name

instance (c : Compilation) (scope : SymbolId) (name : List Char) (m : SymbolId) :
    Decidable (c.Member scope name m) :=
  inferInstanceAs (Decidable (_ ∧ _))

/-- The symbol is a member of that name, and no sibling that was declared before it has the name. -/
def Eldest (c : Compilation) (scope : SymbolId) (name : List Char) (m : SymbolId) : Prop :=
  ∃ elder younger, (c.entry scope).members = elder ++ m :: younger ∧
    (c.entry m).name.toList = name ∧ ∀ r ∈ elder, (c.entry r).name.toList ≠ name

variable {c : Compilation} {s m t : SymbolId} {name : List Char} {names : List (List Char)}
  {step step' : SymbolId → List Char → SymbolId → Prop}

theorem Chain.mono (h : Chain step s names t) (hmono : ∀ s name m, step s name m → step' s name m) :
    Chain step' s names t := by
  induction h with
  | here => exact .here
  | link hstep _ ih => exact .link (hmono _ _ _ hstep) ih

theorem chain_concat :
    Chain step s (names ++ [name]) t ↔ ∃ m, Chain step s names m ∧ step m name t := by
  constructor
  · intro h
    induction names generalizing s with
    | nil =>
      obtain ⟨⟩ | ⟨hstep, hrest⟩ := h
      cases hrest
      exact ⟨s, .here, hstep⟩
    | cons first names ih =>
      obtain ⟨⟩ | ⟨hstep, hrest⟩ := h
      obtain ⟨m, hm, hlast⟩ := ih hrest
      exact ⟨m, .link hstep hm, hlast⟩
  · rintro ⟨m, hm, hlast⟩
    induction hm with
    | here => exact .link hlast .here
    | link hstep _ ih => exact .link hstep (ih hlast)

theorem Eldest.member (h : c.Eldest s name m) : c.Member s name m := by
  obtain ⟨elder, younger, hmembers, hname, -⟩ := h
  refine ⟨?_, hname⟩
  rw [hmembers]
  exact List.mem_append_right elder List.mem_cons_self

theorem find?_eq_some_iff :
    ((c.entry s).members.find? fun r => (c.entry r).name.toList == name) = some m ↔
      c.Eldest s name m := by
  rw [List.find?_eq_some_iff_append]
  constructor
  · rintro ⟨hname, elder, younger, hmembers, helder⟩
    refine ⟨elder, younger, hmembers, by simpa using hname, fun r hr => ?_⟩
    simpa using helder r hr
  · rintro ⟨elder, younger, hmembers, hname, helder⟩
    refine ⟨by simpa using hname, elder, younger, hmembers, fun r hr => ?_⟩
    simpa using helder r hr

/-- Where there is a member of a name, one is the eldest. -/
theorem Member.exists_eldest (h : c.Member s name m) : ∃ m', c.Eldest s name m' := by
  cases hfind : (c.entry s).members.find? fun r => (c.entry r).name.toList == name with
  | none =>
    have hnone := List.find?_eq_none.mp hfind m h.1
    exact absurd h.2 (by simpa using hnone)
  | some m' => exact ⟨m', find?_eq_some_iff.mp hfind⟩

theorem Eldest.unique {m' : SymbolId} (h : c.Eldest s name m) (h' : c.Eldest s name m') :
    m = m' := by
  have hfind := find?_eq_some_iff.mpr h
  rw [find?_eq_some_iff.mpr h'] at hfind
  exact (Option.some.inj hfind).symm

/-- Where every beginning of a path leads to one symbol only, every chain is one of eldest
members. -/
theorem Chain.eldest (h : Chain c.Member s names t)
    (hunique : ∀ front, front <+: names →
      ∀ m m', Chain c.Member s front m → Chain c.Member s front m' → m = m') :
    Chain c.Eldest s names t := by
  induction h with
  | here => exact .here
  | @link s m t name names hstep _ ih =>
    obtain ⟨m', heldest⟩ := hstep.exists_eldest
    have hfirst : m' = m := by
      refine hunique [name] ⟨names, rfl⟩ m' m ?_ ?_
      · exact .link heldest.member .here
      · exact .link hstep .here
    subst hfirst
    refine .link heldest (ih fun front hfront a b ha hb => ?_)
    have hlonger : name :: front <+: name :: names := (List.prefix_cons_inj name).mpr hfront
    exact hunique (name :: front) hlonger a b (.link hstep ha) (.link hstep hb)

/-! ## Looking up -/

/-- One step of a lookup looks for the eldest member of the name. -/
theorem follow_cons (h : c.Closed) (hs : c.Issued s) (name : List Char) (names : List (List Char)) :
    lookup.follow c s (name :: names) =
      match (c.entry s).members.find? fun r => (c.entry r).name.toList == name with
      | none => .ok none
      | some m => lookup.follow c m names := by
  have hselect : selectFirst? (fun m => return (← c.name m).toList == name) (c.entry s).members =
      .ok ((c.entry s).members.find? fun r => (c.entry r).name.toList == name) := by
    refine selectFirst?_ok fun m hm => ?_
    rw [name_eq (h.table.members hs hm)]
    rfl
  simp only [lookup.follow, members_eq hs]
  show (do match ← selectFirst? _ (c.entry s).members with
    | none => return none
    | some m => lookup.follow c m names) = _
  rw [hselect]
  cases (c.entry s).members.find? fun r => (c.entry r).name.toList == name <;> rfl

/-- Following names does not fail, and leads along the chain of the eldest members. -/
theorem follow_eq (h : c.Closed) (hs : c.Issued s) (names : List (List Char)) :
    ∃ found, lookup.follow c s names = .ok found ∧
      ∀ t, found = some t ↔ Chain c.Eldest s names t := by
  induction names generalizing s with
  | nil =>
    refine ⟨some s, rfl, fun t => ?_⟩
    constructor
    · rintro ⟨⟩
      exact .here
    · rintro ⟨⟩
      rfl
  | cons name names ih =>
    rw [follow_cons h hs]
    cases hfind : (c.entry s).members.find? fun r => (c.entry r).name.toList == name with
    | none =>
      refine ⟨none, rfl, fun t => ?_⟩
      constructor
      · rintro ⟨⟩
      · rintro (_ | ⟨hstep, -⟩)
        rw [find?_eq_some_iff.mpr hstep] at hfind
        cases hfind
    | some m =>
      have heldest := find?_eq_some_iff.mp hfind
      obtain ⟨found, hfollow, hfound⟩ := ih (h.table.members hs heldest.member.1)
      refine ⟨found, hfollow, fun t => ?_⟩
      rw [hfound]
      constructor
      · exact .link heldest
      · rintro (_ | ⟨hstep, hrest⟩)
        rw [heldest.unique hstep]
        exact hrest

/-- Looking up a path does not fail. It leads along the chain of the eldest members of the names, so
what it finds is on the path. It finds nothing exactly if no way through the eldest members of all
names but the last comes to a member of the last name, and if the path goes one way only up to
there, then nothing is on it. -/
theorem lookup_iff (h : c.Reachable) (path : String) :
    ∃ names last found, (∀ parts, Separated path.toList parts ↔ parts = names ++ [last]) ∧
      c.lookup path = .ok found ∧
      (∀ s, found = some s ↔ Chain c.Eldest c.global (names ++ [last]) s) ∧
      (∀ s, found = some s → Chain c.Member c.global (names ++ [last]) s) ∧
      (found = none ↔ ∀ m s, Chain c.Eldest c.global names m → ¬ c.Member m last s) ∧
      ((∀ front, front <+: names →
          ∀ m m', Chain c.Member c.global front m → Chain c.Member c.global front m' → m = m') →
        found = none → ∀ s, ¬ Chain c.Member c.global (names ++ [last]) s) := by
  have hparts : Separated path.toList (splitPath path.toList) := separated_iff.mpr rfl
  obtain ⟨names, last, hlast⟩ := (List.eq_nil_or_concat' _).resolve_left hparts.ne_nil
  obtain ⟨found, hfollow, hfound⟩ := follow_eq h.closed h.closed.global (names ++ [last])
  -- a member of the last name may be replaced by the eldest one
  have hnone : found = none ↔ ∀ m s, Chain c.Eldest c.global names m → ¬ c.Member m last s := by
    constructor
    · rintro rfl m s hchain hmember
      obtain ⟨s', heldest⟩ := hmember.exists_eldest
      cases (hfound s').mpr (chain_concat.mpr ⟨m, hchain, heldest⟩)
    · intro hno
      cases hcase : found with
      | none => rfl
      | some s =>
        obtain ⟨m, hchain, heldest⟩ := chain_concat.mp ((hfound s).mp hcase)
        exact absurd heldest.member (hno m s hchain)
  refine ⟨names, last, found, fun parts => ?_, ?_, hfound, fun s hs => ?_, hnone, ?_⟩
  · rw [separated_iff, hlast]
  · rw [lookup, hlast]
    exact hfollow
  · exact ((hfound s).mp hs).mono fun _ _ _ => Eldest.member
  · intro hunique hmiss s hchain
    obtain ⟨m, hfront, hmember⟩ := chain_concat.mp hchain
    exact hnone.mp hmiss m s (hfront.eldest hunique) hmember

end Compilation

/-- A class with two overloads of `m`, of which the second has a local `v`. -/
def Draft.overloadedLocal : Draft :=
  ofRequests [.namedType global "C" [], .method ⟨5⟩ "m" [], .method ⟨5⟩ "m" [],
    .parameter ⟨7⟩ "x" int, .localVariable ⟨7⟩ "v" int]

namespace Compilation

/-- Of the overloads, only the first one is found. -/
theorem lookup_overloaded :
    let c := Draft.overloadedLocal.finish
    c.lookup "C::m" = .ok (some ⟨6⟩) ∧ Chain c.Member c.global [['C'], ['m']] ⟨7⟩ ∧
      ¬ Chain c.Eldest c.global [['C'], ['m']] ⟨7⟩ := by
  intro c
  have hreachable : c.Reachable :=
    .made (.finish ((Draft.made_ofRequests (by decide)).mono fun _ _ h => h.issued))
  obtain ⟨names, last, found, hparts, hlookup, hfound, -⟩ := lookup_iff hreachable "C::m"
  have hnames : [['C'], ['m']] = names ++ [last] := (hparts _).mp (separated_iff.mpr (by decide))
  have hsix : c.lookup "C::m" = .ok (some ⟨6⟩) := by decide
  obtain rfl := Except.ok.inj (hsix.symm.trans hlookup)
  refine ⟨hsix, .link (m := ⟨5⟩) (by decide) (.link (by decide) .here), fun heldest => ?_⟩
  rw [hnames] at heldest
  have hseven := (hfound ⟨7⟩).mpr heldest
  exact absurd hseven (by decide)

/-- The path `C::m::v` leads to the local of the second overload, but looking it up finds
nothing. -/
theorem lookup_misses :
    let c := Draft.overloadedLocal.finish
    c.Made Request.Contained ∧ c.lookup "C::m::v" = .ok none ∧
      Separated "C::m::v".toList [['C'], ['m'], ['v']] ∧
      Chain c.Member c.global [['C'], ['m'], ['v']] ⟨9⟩ := by
  refine ⟨.finish (Draft.made_ofRequests (by decide)), by decide, ?_, ?_⟩
  · rw [separated_iff]
    decide
  · exact .link (m := ⟨5⟩) (by decide) (.link (m := ⟨7⟩) (by decide) (.link (by decide) .here))

end Compilation
end Moniker
