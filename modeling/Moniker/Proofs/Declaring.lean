import Moniker.Proofs.Issued

/-!
# Declaring symbols

A declaration issues one symbol and adds it to one list of its owner's entry; every other entry
stays what it is. `SymbolTable.declared` is the table afterwards, of which the lemmas here say
everything, and `SymbolTable.declaredAll` is the table after several declarations in one owner.
-/

namespace Moniker

namespace SymbolTable

variable {t : SymbolTable} {role : Attachment} {owner s : SymbolId} {x : Symbol}

/-- The table after a symbol has been declared in an issued owner. -/
def declared (role : Attachment) (owner : SymbolId) (x : Symbol) (t : SymbolTable) : SymbolTable :=
  (add { x with container := some owner }
    { t with symbols := t.symbols.modify owner.index (attach role t.next) }).2

/-- The table after symbols have been declared one after the other. -/
def declaredAll (role : Attachment) (owner : SymbolId) (xs : List Symbol) (t : SymbolTable) :
    SymbolTable :=
  xs.foldl (fun t x => t.declared role owner x) t

@[simp] theorem declaredAll_nil : t.declaredAll role owner [] = t := rfl

@[simp] theorem declaredAll_cons (x : Symbol) (xs : List Symbol) :
    t.declaredAll role owner (x :: xs) = (t.declared role owner x).declaredAll role owner xs := rfl

theorem declare_eq (ho : t.Issued owner) (role : Attachment) (x : Symbol) :
    t.declare role owner x = .ok (t.next, t.declared role owner x) := by
  simp only [declare, get_eq ho, bind, Except.bind, pure, Except.pure, declared, add]
  simp [next, size]

@[simp] theorem size_declared (role : Attachment) (owner : SymbolId) (x : Symbol)
    (t : SymbolTable) : (t.declared role owner x).size = t.size + 1 := by
  simp [declared, add, size]

@[simp] theorem interned_declared (role : Attachment) (owner : SymbolId) (x : Symbol)
    (t : SymbolTable) : (t.declared role owner x).interned = t.interned := rfl

theorem issued_declared (hs : t.Issued s) : (t.declared role owner x).Issued s := by
  simp only [Issued, size_declared] at *
  omega

theorem issued_next_declared : (t.declared role owner x).Issued t.next := by
  simp [Issued, next]

theorem entry_declared_next : (t.declared role owner x).entry t.next =
    { x with container := some owner } := by
  have hsize : (t.symbols.modify owner.index (attach role t.next)).size = t.symbols.size := by simp
  simp only [declared, add, entry]
  rw [Array.getElem?_push, if_pos (by rw [hsize]; rfl)]
  rfl

theorem entry_declared_owner (ho : t.Issued owner) :
    (t.declared role owner x).entry owner = attach role t.next (t.entry owner) := by
  have hlt : owner.index < t.symbols.size := ho
  simp only [declared, add, entry]
  rw [Array.getElem?_push_lt (by simpa using hlt), Array.getElem?_eq_getElem hlt]
  simp [Array.getElem_modify]

theorem entry_declared (hs : t.Issued s) (hne : s ≠ owner) :
    (t.declared role owner x).entry s = t.entry s := by
  have hlt : s.index < t.symbols.size := hs
  have hindex : owner.index ≠ s.index := by
    intro h
    cases s
    cases owner
    simp_all
  simp only [declared, add, entry]
  rw [Array.getElem?_push_lt (by simpa using hlt), Array.getElem?_eq_getElem hlt]
  simp [Array.getElem_modify, hindex]

/-- What is issued after a declaration is the new symbol, or was issued before. -/
theorem issued_of_declared (hs : (t.declared role owner x).Issued s) : t.Issued s ∨ s = t.next := by
  rcases Nat.lt_or_ge s.index t.size with h | h
  · exact .inl h
  · right
    have : s.index < t.size + 1 := by simpa [Issued] using hs
    have : s.index = t.size := by omega
    cases s
    simp_all [next]

theorem references_attach {r : SymbolId} (hr : r ∈ (attach role s x).references) :
    r = s ∨ r ∈ x.references := by
  cases role <;> simp only [attach, Symbol.references, List.mem_append,
    List.mem_singleton] at hr ⊢ <;> tauto

theorem Closed.declared (h : t.Closed) (ho : t.Issued owner) (hx : ∀ r ∈ x.references, t.Issued r)
    (role : Attachment) : (t.declared role owner x).Closed where
  references s hs r hr := by
    rcases issued_of_declared hs with hs | rfl
    · by_cases hne : s = owner
      · rw [hne, entry_declared_owner ho] at hr
        rcases references_attach hr with rfl | hr
        · exact issued_next_declared
        · exact issued_declared (h.references owner ho r hr)
      · rw [entry_declared hs hne] at hr
        exact issued_declared (h.references s hs r hr)
    · rw [entry_declared_next] at hr
      have hr : r = owner ∨ r ∈ x.references := by
        simp only [Symbol.references, Option.toList_some, List.mem_append,
          List.mem_singleton] at hr ⊢
        tauto
      rcases hr with rfl | hr
      · exact issued_declared ho
      · exact issued_declared (hx r hr)
  interned shape s hs := issued_declared (h.interned shape s hs)

theorem size_declaredAll (xs : List Symbol) (t : SymbolTable) :
    (t.declaredAll role owner xs).size = t.size + xs.length := by
  induction xs generalizing t with
  | nil => rfl
  | cons x rest ih =>
      rw [declaredAll_cons, ih, size_declared, List.length_cons]
      omega

theorem Closed.declaredAll {xs : List Symbol} (h : t.Closed) (ho : t.Issued owner)
    (hxs : ∀ x ∈ xs, ∀ r ∈ x.references, t.Issued r) (role : Attachment) :
    (t.declaredAll role owner xs).Closed := by
  induction xs generalizing t with
  | nil => exact h
  | cons x rest ih =>
      exact ih (h.declared ho (hxs x (by simp)) role) (issued_declared ho)
        fun y hy r hr => issued_declared (hxs y (by simp [hy]) r hr)

end SymbolTable
end Moniker
