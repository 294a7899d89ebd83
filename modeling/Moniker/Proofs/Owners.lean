import Moniker.Proofs.Proper

/-!
# Every symbol has one owner

Containment is not needed for a symbol to be listed by one owner only, which it names as its
container: a declaration lists the new symbol in one place, and so does a request for a structural
type (`SymbolTable.Owned`). The answer to a shape, whatever was declared in it since, still says
what it was built from. So it is one candidate for a container that leads to a symbol inside it, and
the same one under all options.
-/

namespace Moniker

open SymbolTable

namespace SymbolTable

variable {t t' t₀ : SymbolTable} {p s owner : SymbolId} {role : Attachment} {x : Symbol}
  {shape : Shape} {locations : List Location}

/-- A declared symbol, or a member of a structural type, that names its container. -/
structure Inside (t : SymbolTable) (p s : SymbolId) : Prop where
  issued : t.Issued s
  container : (t.entry s).container = some p
  definition : (t.entry s).definition = none

/-- The symbol says that it was built for the shape. -/
structure Shows (t : SymbolTable) (shape : Shape) (s : SymbolId) : Prop where
  issued : t.Issued s
  kind : (t.entry s).kind = shape.kind
  type : (t.entry s).type = (shape.head t).type
  definition : (t.entry s).definition = shape.generic?

/-- What a symbol lists is inside it and listed once, and answers say what they were built for. -/
structure Owned (t : SymbolTable) : Prop where
  inside : ∀ p, t.Issued p → ∀ role, ∀ s ∈ (t.entry p).belongings role, t.Inside p s
  nodup : ∀ p, t.Issued p → ∀ role, ((t.entry p).belongings role).Nodup
  shows : ∀ shape s, t.interned.lookup shape = some s → t.Shows shape s

theorem Keeps.inside (h : t.Keeps t') (hs : t.Inside p s) : t'.Inside p s where
  issued := h.issued hs.issued
  container := (h.container s hs.issued).trans hs.container
  definition := (h.definition s hs.issued).trans hs.definition

theorem Keeps.shows (h : t.Keeps t') (hs : t.Shows shape s) : t'.Shows shape s where
  issued := h.issued hs.issued
  kind := (h.kind s hs.issued).trans hs.kind
  type := by rw [h.type s hs.issued, hs.type]; cases shape <;> rfl
  definition := (h.definition s hs.issued).trans hs.definition

theorem owned_empty : Draft.empty.table.Owned where
  inside _ hp _ _ hs :=
    have hbelongs := Draft.lawful_empty.belongs _ hp _ _ hs
    ⟨Draft.lawful_empty.issued_belongings hp hs, hbelongs.container, hbelongs.definition⟩
  nodup := Draft.lawful_empty.nodup
  shows _ _ hs := by cases hs

/-! ## Declarations -/

/-- A fresh entry is listed by the owner that it is declared in. -/
theorem Owned.declared (h : t.Owned) (ho : t.Issued owner) (hfresh : Fresh role x) :
    (t.declared role owner x).Owned := by
  have hkeeps := keeps_declared ho role x
  have hnext := @entry_declared_next t role owner x
  refine ⟨fun p hp role' s hs => ?_, fun p hp => ?_,
    fun shape s hs => hkeeps.shows (h.shows shape s hs)⟩
  · rcases mem_belongings_declared ho hfresh hp role' hs with ⟨hp, hs⟩ | ⟨rfl, -, rfl⟩
    · exact hkeeps.inside (h.inside p hp role' s hs)
    · exact ⟨issued_next_declared, by rw [hnext], by rw [hnext]; exact hfresh.definition⟩
  · exact nodup_belongings_declared ho hfresh
      (fun p hp role s hs => (h.inside p hp role s hs).issued) h.nodup hp

theorem Owned.declaredAll {xs : List Symbol} (h : t.Owned) (ho : t.Issued owner)
    (hfresh : ∀ x ∈ xs, Fresh role x) : (t.declaredAll role owner xs).Owned := by
  induction xs generalizing t with
  | nil => exact h
  | cons x rest ih =>
      exact ih (h.declared ho (hfresh x (by simp))) (issued_declared ho)
        fun y hy => hfresh y (by simp [hy])

/-! ## Shapes -/

theorem fresh_fields (hx : x ∈ shape.fields locations) : Fresh .member x := by
  cases shape with
  | array _ _ | pointer _ | constructed _ _ => cases hx
  | tuple types names => exact (mem_tupleFields x hx).1
  | anonymous types names readOnly => exact (mem_anonymousProperties x hx).1

theorem belongings_head {role : Attachment} : (shape.head t).belongings role = [] := by
  cases shape <;> cases role <;> rfl

/-- A type with fresh members lists them, and the members list nothing. -/
theorem Owned.addWithMembers {type : Symbol} {members : List Symbol} (h : t.Owned)
    (htype : ∀ role, type.belongings role = []) (hmembers : ∀ x ∈ members, Fresh .member x) :
    (t.addWithMembers type members).2.Owned := by
  have hgrows := grows_addWithMembers type members t
  have hnext : ∀ role, ((t.addWithMembers type members).2.entry t.next).belongings role =
      if role = .member then t.memberIds members.length else [] := by
    intro role
    rw [entry_addWithMembers_next]
    cases role with
    | member => rfl
    | parameter => exact htype .parameter
    | typeParameter => exact htype .typeParameter
  have hmember : ∀ i role, i < members.length →
      ((t.addWithMembers type members).2.entry ⟨t.size + 1 + i⟩).belongings role = [] := by
    intro i role hi
    rw [entry_addWithMembers_member hi, (hmembers _ (List.getElem_mem hi)).belongings]
  refine ⟨fun p hp role s hs => ?_, fun p hp role => ?_,
    fun shape s hs => hgrows.keeps.shows (h.shows shape s hs)⟩
  · rcases issued_addWithMembers hp with hp | rfl | ⟨i, hi, rfl⟩
    · rw [hgrows.entry p hp] at hs
      exact hgrows.keeps.inside (h.inside p hp role s hs)
    · rw [hnext] at hs
      split at hs
      · obtain ⟨i, hi, rfl⟩ := mem_memberIds.mp hs
        have hentry := @entry_addWithMembers_member type members t i hi
        have hfresh := hmembers _ (List.getElem_mem hi)
        refine ⟨?_, by rw [hentry], by rw [hentry]; exact hfresh.definition⟩
        simp only [Issued, size_addWithMembers]
        omega
      · cases hs
    · rw [hmember i role hi] at hs
      cases hs
  · rcases issued_addWithMembers hp with hp | rfl | ⟨i, hi, rfl⟩
    · rw [hgrows.entry p hp]
      exact h.nodup p hp role
    · rw [hnext]
      split
      · exact nodup_memberIds t _
      · exact List.nodup_nil
    · rw [hmember i role hi]
      exact List.nodup_nil

/-- What is asked for a shape answers with a type that shows it. -/
theorem Owned.ask (h : t.Owned) : (t.ask shape locations).2.Owned := by
  cases hlookup : t.interned.lookup shape with
  | some s => rwa [SymbolTable.ask, intern_of_lookup hlookup]
  | none =>
      have hadded : (t.addWithMembers (shape.head t) (shape.fields locations)).2.Owned :=
        h.addWithMembers (fun _ => belongings_head) fun _ => fresh_fields
      have hkeeps := (grows_ask shape locations t).keeps
      have hentry : (t.ask shape locations).2.entry t.next =
          { shape.head t with members := t.memberIds (shape.fields locations).length } := by
        rw [ask_of_none hlookup]
        exact entry_addWithMembers_next _ _ t
      refine ⟨?_, ?_, fun shape' s hs => ?_⟩
      · rw [ask_of_none hlookup]
        exact fun p hp role s hs => have hinside := hadded.inside p hp role s hs
          ⟨hinside.issued, hinside.container, hinside.definition⟩
      · rw [ask_of_none hlookup]
        exact hadded.nodup
      · rcases lookup_ask hs with hold | rfl
        · exact hkeeps.shows (h.shows shape' s hold)
        · rw [ask_of_none hlookup] at hs
          obtain rfl : t.next = s := Option.some.inj (List.lookup_cons_self.symm.trans hs)
          refine ⟨?_, ?_, ?_, ?_⟩
          · rw [ask_of_none hlookup]
            show t.size < (t.addWithMembers _ _).2.size
            rw [size_addWithMembers]
            omega
          · rw [hentry]
            exact shape'.kind_head t
          · rw [hentry]
            cases shape' <;> rfl
          · rw [hentry]
            cases shape' <;> rfl

theorem Owned.asked (h : t.Owned) (hasked : t.Asked t') : t'.Owned := by
  cases hasked with
  | same => exact h
  | shape _ _ => exact h.ask

/-- An issued symbol that answers in a later state is an answer from before. -/
theorem Traces.lookup_old (h : t₀.Traces t) (hs : t₀.Issued s)
    (hlookup : t.interned.lookup shape = some s) : t₀.interned.lookup shape = some s := by
  cases hbefore : t₀.interned.lookup shape with
  | none => exact absurd hs (h.erected shape s ⟨hbefore, hlookup⟩).new
  | some a => rwa [← h.grows.interned shape a hbefore]

end SymbolTable

/-- A request declares fresh entries, or asks for a shape. -/
theorem Request.after_owned {t : SymbolTable} (r : Request) (h : t.Owned) (hr : r.Issued t) :
    (r.after t).Owned := by
  have hmany : ∀ (owner : SymbolId) (x : Symbol) (role : Attachment) (xs : List Symbol),
      owner ∈ r.symbols → Fresh .member x → (∀ x ∈ xs, Fresh role x) →
        ((t.declared .member owner x).declaredAll role t.next xs).Owned :=
    fun owner _ _ _ ho hfresh hrest =>
      (h.declared (hr owner ho) hfresh).declaredAll issued_next_declared hrest
  cases r with
  | file path => exact h
  | limitAnonymousArity limit =>
      refine ⟨fun p hp role s hs => ?_, h.nodup, fun shape s hs => ?_⟩
      · exact ⟨(h.inside p hp role s hs).issued, (h.inside p hp role s hs).container,
          (h.inside p hp role s hs).definition⟩
      · have hshows := h.shows shape s hs
        exact ⟨hshows.issued, hshows.kind, hshows.type.trans (by cases shape <;> rfl),
          hshows.definition⟩
  | nameSpace owner name | field owner name type location
  | property owner name type readOnly location | parameter owner name type
  | localVariable owner name type =>
      exact h.declared (hr owner (by simp [symbols])) ⟨rfl, rfl, rfl, rfl, rfl, rfl⟩
  | namedType owner name typeParameters | method owner name typeParameters =>
      refine hmany owner _ .typeParameter _ (by simp [symbols]) ⟨rfl, rfl, rfl, rfl, rfl, rfl⟩
        fun x hx => ?_
      obtain ⟨name, -, rfl⟩ := List.mem_map.mp hx
      exact fresh_typeParameter name
  | indexer owner name type parameters =>
      refine hmany owner _ .parameter _ (by simp [symbols]) ⟨rfl, rfl, rfl, rfl, rfl, rfl⟩
        fun x hx => ?_
      obtain ⟨p, -, rfl⟩ := List.mem_map.mp hx
      exact fresh_parameter p
  | structural request => exact h.asked (request.asked_after hr)

namespace Compilation

variable {c c' : Compilation}

/-- A compilation whose symbols have one owner each and answer for one shape each, and whose root
type is declared. -/
structure Orderly (c : Compilation) : Prop where
  discerns : c.Discerns
  owned : c.table.Owned
  root : ∀ shape, c.table.interned.lookup shape ≠ some c.universal

theorem Made.orderly (h : c.Made fun t r => r.Issued t) : c.Orderly := by
  obtain ⟨⟨-, howned, -, hroot⟩, hplain⟩ := h.table (fun _ _ hr => hr)
    (P := fun t => t.Closed ∧ t.Owned ∧ t.Issued Draft.object ∧
      ∀ shape, t.interned.lookup shape ≠ some Draft.object)
    ⟨Draft.closed_empty, owned_empty, by decide, fun _ hs => by cases hs⟩
    fun t r ⟨hclosed, howned, hobject, hroot⟩ hr => by
      obtain ⟨hclosed', hsize⟩ := r.after_closed hclosed hr
      refine ⟨hclosed', r.after_owned howned hr, Nat.lt_of_lt_of_le hobject hsize, ?_⟩
      by_cases hstructural : ∃ request, r = .structural request
      · obtain ⟨request, rfl⟩ := hstructural
        have htraces := (Traces.refl t).asked (request.asked_after hr)
        exact fun shape hs => hroot shape (htraces.lookup_old hobject hs)
      · rw [Request.interned_after fun request heq => hstructural ⟨request, heq⟩]
        exact hroot
  exact ⟨h.discerns, howned, fun shape => hplain.universal ▸ hroot shape⟩

theorem Leads.owned (h : c.Leads c') (howned : c.table.Owned) : c'.table.Owned := by
  induction h with
  | refl => exact howned
  | tail _ hstep ih =>
      obtain ⟨r, hrun⟩ := hstep
      exact ih.asked (asked_run hrun)

theorem Orderly.later (h : c.Orderly) (hleads : c.Leads c') (hclosed : c'.Closed) : c'.Orderly where
  discerns := h.discerns.later hleads hclosed
  owned := hleads.owned h.owned
  root shape hs := by
    rw [hleads.grows.universal] at hs
    exact h.root shape (hleads.traces.lookup_old h.discerns.stem.closed.universal hs)

end Compilation
end Moniker
