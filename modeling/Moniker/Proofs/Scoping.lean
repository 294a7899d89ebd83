import Moniker.Proofs.Finding
import Moniker.Proofs.Standing

/-!
# Scopes of type parameters

The parameter types of a method may mention its own type parameters, which descriptions refer to by
their places. `Compilation.Scoped` says that they mention those of no other method, so that wherever
the description of one symbol is tried inside the signature of another method, at most one method is
around on either side (`Compilation.Within`).
-/

namespace Moniker

theorem Description.methodIndex?_singleton (m : SymbolId) : (methodIndex? [m] m).getD 0 = 0 := by
  simp [methodIndex?, List.idxOf?_cons]

namespace Compilation

/-- The first type is the second one, or mentions it in some part. -/
inductive Mentions (c : Compilation) : SymbolId → SymbolId → Prop
  | self {s : SymbolId} : Mentions c s s
  | part {s a b : SymbolId} (ha : a ∈ c.partsAt s) (hb : Mentions c a b) : Mentions c s b

/-- What a type mentions is among types that have their parts among them. -/
theorem Mentions.mem {c : Compilation} {types : List SymbolId} {s a : SymbolId}
    (h : c.Mentions s a) (hparts : ∀ t ∈ types, ∀ p ∈ c.partsAt t, p ∈ types) (hs : s ∈ types) :
    a ∈ types := by
  induction h with
  | self => exact hs
  | part ha _ ih => exact ih (hparts _ hs _ ha)

/-- Of the type parameters of methods, the type mentions those of one method only. -/
def Confines (c : Compilation) (m s : SymbolId) : Prop :=
  ∀ a, c.Mentions s a → (c.entry a).kind = .typeParameter → ∀ q, c.containerAt a = some q →
    (c.entry q).kind = .method → q = m

/-- Parameter types of methods mention no type parameters of other methods. -/
def Scoped (c : Compilation) : Prop :=
  ∀ m, c.Issued m → (c.entry m).kind = .method → ∀ t ∈ c.signatureAt m, c.Confines m t

/-- A method of one compilation and a method of another that is tried in its place. -/
structure Counterpart (c c' : Compilation) (m m' : SymbolId) : Prop where
  described : c.Issued m
  method : (c.entry m).kind = .method
  issued : c'.Issued m'
  kind : (c'.entry m').kind = .method
  arity : (c'.entry m').typeParameters.length = (c.entry m).typeParameters.length

/-- Where descriptions of symbols of one compilation are tried in another: inside no method on
either side, or with a type or a container of one inside the signature of a single method. -/
inductive Within (c c' : Compilation) : List SymbolId → List SymbolId → SymbolId → Prop
  | outside {s : SymbolId} : Within c c' [] [] s
  | inside {m m' s : SymbolId} (hmethods : Counterpart c c' m m')
    (hkind : (c.entry s).kind = .nameSpace ∨ (c.entry s).kind.isType = true)
    (hconfines : c.Confines m s) : Within c c' [m] [m'] s

variable {c c' c'' : Compilation} {around methods : List SymbolId} {s a : SymbolId}

theorem Counterpart.later {m m' : SymbolId} (h : Counterpart c c' m m') (hgrows : c'.Grows c'') :
    Counterpart c c'' m m' where
  described := h.described
  method := h.method
  issued := hgrows.issued h.issued
  kind := by rw [hgrows.entry h.issued, h.kind]
  arity := by rw [hgrows.entry h.issued, h.arity]

theorem Within.later (h : Within c c' around methods s) (hgrows : c'.Grows c'') :
    Within c c'' around methods s := by
  cases h with
  | outside => exact .outside
  | inside hmethods hkind hconfines => exact .inside (hmethods.later hgrows) hkind hconfines

theorem Within.issued (h : Within c c' around methods s) : ∀ m ∈ methods, c'.Issued m := by
  cases h with
  | outside => exact fun m hm => by cases hm
  | inside hmethods _ _ => exact fun m hm => by rw [List.mem_singleton.mp hm]; exact hmethods.issued

theorem Within.described (h : Within c c' around methods s) : ∀ m ∈ around, c.Issued m := by
  cases h with
  | outside => exact fun m hm => by cases hm
  | inside hmethods _ _ =>
      exact fun m hm => by rw [List.mem_singleton.mp hm]; exact hmethods.described

theorem Within.method (h : Within c c' around methods s) :
    ∀ m ∈ methods, (c'.entry m).kind = .method := by
  cases h with
  | outside => exact fun m hm => by cases hm
  | inside hmethods _ _ => exact fun m hm => by rw [List.mem_singleton.mp hm]; exact hmethods.kind

/-- What does not lie in a method lies in none of those around it. -/
theorem Within.free (h : Within c c' around methods s) (ha : (c.entry a).kind ≠ .method)
    {p : SymbolId} (hp : c.containerAt p = some a) : ∀ m ∈ around, c.containerAt p ≠ some m := by
  cases h with
  | outside => exact fun m hm => by cases hm
  | inside hmethods _ _ =>
      intro m hm hcontainer
      rw [hp, Option.some.injEq] at hcontainer
      rw [hcontainer, List.mem_singleton.mp hm] at ha
      exact ha hmethods.method

/-- Inside a method no method is tried. -/
theorem Within.ne_method (h : Within c c' around methods s) {m : SymbolId} (hm : m ∈ methods) :
    (c.entry s).kind ≠ .method := by
  cases h with
  | outside => cases hm
  | inside _ hkind _ =>
      intro hmethod
      rcases hkind with hkind | hkind <;> rw [hmethod] at hkind <;> cases hkind

/-- What is neither a type nor a namespace is tried inside no method. -/
theorem Within.eq_nil (h : Within c c' around methods s) (hspace : (c.entry s).kind ≠ .nameSpace)
    (htype : (c.entry s).kind.isType = false) : around = [] ∧ methods = [] := by
  cases h with
  | outside => exact ⟨rfl, rfl⟩
  | inside _ hkind _ =>
      rcases hkind with hkind | hkind
      · exact absurd hkind hspace
      · rw [htype] at hkind
        cases hkind

theorem Within.part (h : Within c c' around methods s) (hlawful : c.Lawful) (hs : c.Issued s)
    (ha : a ∈ c.partsAt s) : Within c c' around methods a := by
  cases h with
  | outside => exact .outside
  | inside hmethods _ hconfines =>
      exact .inside hmethods (.inr (hlawful.isType_of_mem_partsAt hs ha).kind)
        fun b hb => hconfines b (.part ha hb)

theorem Within.declared (h : Within c c' around methods s)
    (hp : (c.entry a).kind = .nameSpace ∨ c.table.IsDefinition a) :
    Within c c' around methods a := by
  cases h with
  | outside => exact .outside
  | inside hmethods _ _ =>
      have hkind : (c.entry a).kind = .nameSpace ∨ (c.entry a).kind.isType = true := by
        rcases hp with hkind | hdefinition
        · exact .inl hkind
        · exact .inr hdefinition.isType.kind
      refine .inside hmethods hkind fun b hb hparameter => ?_
      cases hb with
      | self =>
          rcases hkind with hkind | hkind <;> rcases hp with hp | hp
          all_goals
            first
            | rw [hparameter] at hp; cases hp
            | rw [show (c.entry a).kind = _ from hp.kind] at hparameter; cases hparameter
      | part hpart _ =>
          rw [partsAt_declared hp] at hpart
          cases hpart

/-- Around the owner of a type parameter that is described by its name no method is its owner. -/
theorem Within.owner (h : Within c c' around methods s) (hkind : (c.entry s).kind = .typeParameter)
    (hcontainer : c.containerAt s = some a) (hfree : ∀ m ∈ around, c.containerAt s ≠ some m)
    (hhost : c.table.Hosts a .typeParameter) : Within c c' around methods a := by
  rcases hhost with hdefinition | hmethod
  · exact h.declared (.inr hdefinition)
  · cases h with
    | outside => exact .outside
    | @inside m _ _ _ _ hconfines =>
        obtain rfl := hconfines s .self hkind a hcontainer hmethod
        exact absurd hcontainer (hfree a (by simp))

/-- A parameter type of a method is tried inside another method. -/
theorem Scoped.within (h : c.Scoped) {m m' : SymbolId} (hmethods : Counterpart c c' m m')
    {t : SymbolId} (ht : t ∈ c.signatureAt m) (htype : c.table.IsType t) : Within c c' [m] [m'] t :=
  .inside hmethods (.inr htype.kind) (h m hmethods.described hmethods.method t ht)

end Compilation
end Moniker
