import Moniker.Proofs.Building

/-!
# How long the lists of an entry are

Whatever requests made a table, each list in an entry is at most as long as the table
(`SymbolTable.Roomy`): members and parameters are issued one by one, and a constructed type takes as
many arguments as its definition has type parameters. Nothing is asked of the requests but that they
mention issued symbols.
-/

namespace Moniker

/-- The length of the longest list of symbols in an entry. -/
def Symbol.breadth (x : Symbol) : Nat :=
  max (max x.members.length x.parameters.length)
    (max x.typeParameters.length x.typeArguments.length)

namespace SymbolTable

/-- No entry has a list that is longer than the table. -/
def Roomy (t : SymbolTable) : Prop := ∀ s, t.Issued s → (t.entry s).breadth ≤ t.size

variable {t t' : SymbolTable} {role : Attachment} {owner s : SymbolId} {x : Symbol}

theorem breadth_attach (role : Attachment) (id : SymbolId) (x : Symbol) :
    (attach role id x).breadth ≤ x.breadth + 1 := by
  cases role <;> simp only [attach, Symbol.breadth, List.length_append, List.length_singleton] <;>
    omega

theorem Roomy.declared (h : t.Roomy) (ho : t.Issued owner) (hx : x.breadth = 0)
    (role : Attachment) :
    (t.declared role owner x).Roomy := by
  intro s hs
  rw [size_declared]
  rcases issued_of_declared hs with hs | rfl
  · by_cases hne : s = owner
    · have hbreadth := h owner ho
      have hattach := breadth_attach role t.next (t.entry owner)
      rw [hne, entry_declared_owner ho]
      omega
    · have hbreadth := h s hs
      rw [entry_declared hs hne]
      omega
  · rw [entry_declared_next]
    show x.breadth ≤ t.size + 1
    omega

theorem Roomy.declaredAll {xs : List Symbol} (h : t.Roomy) (ho : t.Issued owner)
    (hxs : ∀ x ∈ xs, x.breadth = 0) (role : Attachment) : (t.declaredAll role owner xs).Roomy := by
  induction xs generalizing t with
  | nil => exact h
  | cons x rest ih =>
      exact ih (h.declared ho (hxs x (by simp)) role) (issued_declared ho) fun y hy =>
        hxs y (by simp [hy])

/-- Answering a shape leaves the table as it was, or as building it does. -/
theorem Roomy.intern {shape : Shape} {build : SymbolTable → SymbolId × SymbolTable} (h : t.Roomy)
    (hbuild : (build t).2.Roomy) : (t.intern shape build).2.Roomy := by
  unfold SymbolTable.intern
  split
  · exact h
  · exact hbuild

theorem Roomy.add (h : t.Roomy) (hx : x.breadth ≤ t.size) : (t.add x).2.Roomy := by
  intro s hs
  rw [size_add]
  rcases issued_add hs with hs | rfl
  · have hbreadth := h s hs
    rw [entry_add x hs]
    omega
  · rw [entry_add_next]
    omega

theorem Roomy.addWithMembers {type : Symbol} {members : List Symbol} (h : t.Roomy)
    (htype : type.breadth = 0) (hmembers : ∀ x ∈ members, x.breadth = 0) :
    (t.addWithMembers type members).2.Roomy := by
  intro s hs
  rw [size_addWithMembers]
  rcases issued_addWithMembers hs with hs | rfl | ⟨i, hi, rfl⟩
  · have hbreadth := h s hs
    rw [entry_addWithMembers type members hs]
    omega
  · rw [entry_addWithMembers_next]
    simp only [Symbol.breadth, length_memberIds] at htype ⊢
    omega
  · have hmember := hmembers members[i] (List.getElem_mem hi)
    rw [entry_addWithMembers_member hi]
    simp only [Symbol.breadth] at hmember ⊢
    omega

/-- Elements of tuples have no lists. -/
theorem breadth_tupleFields {types : List SymbolId} {names : List (Option String)}
    {locations : List Location} : ∀ x ∈ tupleFields types names locations, x.breadth = 0 := by
  fun_induction tupleFields with
  | case1 type types name names location locations ih =>
      intro x hx
      rcases List.mem_cons.mp hx with rfl | hx
      · rfl
      · exact ih x hx
  | case2 => simp

/-- Properties of anonymous types have no lists. -/
theorem breadth_anonymousProperties {types : List SymbolId} {names : List String}
    {readOnly : List Bool} {locations : List Location} :
    ∀ x ∈ anonymousProperties types names readOnly locations, x.breadth = 0 := by
  fun_induction anonymousProperties with
  | case1 type types name names fixed readOnly location locations ih =>
      intro x hx
      rcases List.mem_cons.mp hx with rfl | hx
      · rfl
      · exact ih x hx
  | case2 => simp

/-- A definition takes no more arguments than it has type parameters. -/
theorem length_of_checkArguments_ok {x : Symbol} {arguments : List SymbolId}
    (h : checkArguments x arguments = .ok ()) : arguments.length ≤ x.breadth := by
  unfold checkArguments at h
  split at h
  · cases h
  · split at h
    · cases h
    · next hcount =>
        simp only [not_or, Decidable.not_not] at hcount
        simp only [Symbol.breadth]
        omega

end SymbolTable

theorem TypeRequest.after_roomy {t : SymbolTable} (r : TypeRequest) (h : t.Roomy)
    (hsymbols : ∀ s ∈ r.symbols, t.Issued s) : (r.after t).Roomy := by
  cases r with
  | array element rank | pointer pointee => exact h.intern (h.add (Nat.zero_le _))
  | constructed definition arguments =>
      simp only [after]
      split
      · next hcheck =>
          have hdefinition := h definition (hsymbols definition (by simp [symbols]))
          have hlength := SymbolTable.length_of_checkArguments_ok hcheck
          refine h.intern (h.add ?_)
          simp only [Symbol.breadth, List.length_nil]
          omega
      · exact h
  | tuple types names locations =>
      simp only [after, SymbolTable.tuple, bind, Except.bind, pure, Except.pure]
      cases SymbolTable.checkTuple types names locations with
      | error e => exact h
      | ok _ => exact h.intern (h.addWithMembers rfl SymbolTable.breadth_tupleFields)
  | anonymous types names readOnly locations =>
      simp only [after, SymbolTable.anonymous, bind, Except.bind, pure, Except.pure]
      cases SymbolTable.checkAnonymous t.maxAnonymousArity types names readOnly locations with
      | error e => exact h
      | ok _ => exact h.intern (h.addWithMembers rfl SymbolTable.breadth_anonymousProperties)

theorem Request.after_roomy {t : SymbolTable} (r : Request) (h : t.Roomy) (hr : r.Issued t) :
    (r.after t).Roomy := by
  cases r with
  | file path | limitAnonymousArity limit => exact h
  | nameSpace owner name | field owner name type location
  | property owner name type readOnly location | parameter owner name type
  | localVariable owner name type => exact h.declared (hr owner (by simp [symbols])) rfl _
  | namedType owner name typeParameters | method owner name typeParameters =>
      refine (h.declared (hr owner (by simp [symbols])) rfl _).declaredAll
        SymbolTable.issued_next_declared (fun x hx => ?_) _
      obtain ⟨name, -, rfl⟩ := List.mem_map.mp hx
      rfl
  | indexer owner name type parameters =>
      refine (h.declared (hr owner (by simp [symbols])) rfl _).declaredAll
        SymbolTable.issued_next_declared (fun x hx => ?_) _
      obtain ⟨parameter, -, rfl⟩ := List.mem_map.mp hx
      rfl
  | structural request => exact request.after_roomy h hr

theorem Draft.roomy_empty : Draft.empty.table.Roomy := by
  have hentries : ∀ i, i < 5 → (Draft.empty.table.entry ⟨i⟩).breadth ≤ 5 := by decide
  exact fun s hs => hentries s.index hs

/-- Compilations that are made from issued symbols have no list that is longer than their table. -/
theorem Compilation.Made.roomy {c : Compilation} (h : c.Made fun t r => r.Issued t) :
    c.table.Roomy :=
  (h.table (fun _ _ hr => hr) Draft.roomy_empty fun _ r ht hr => r.after_roomy ht hr).1

end Moniker
