import Moniker.Proofs.Candidates
import Moniker.Proofs.Locate

/-!
# Locating only adds

Whatever a description comes to, the compilation afterwards is a later state of the one before,
closed like it, and knows every candidate. `Description.locate_closed` puts this together from
the same fact about each of the building steps.
-/

namespace Moniker

/-- A later state of a compilation, without loose ends. -/
structure Compilation.Reaches (c c' : Compilation) : Prop where
  grows : c.Grows c'
  closed : c'.Closed

/-- A member of one of two lists of the same length has a partner in the other. -/
theorem exists_mem_zip {α β : Type} {as : List α} {bs : List β} (hlength : as.length = bs.length)
    {a : α} (ha : a ∈ as) : ∃ b, (a, b) ∈ as.zip bs := by
  obtain ⟨i, hi, rfl⟩ := List.mem_iff_getElem.mp ha
  exact ⟨bs[i], List.mem_iff_getElem.mpr ⟨i, by rw [List.length_zip]; omega, List.getElem_zip⟩⟩

theorem part_eq_ok {α : Type} {category : Category} {name : String} {resolved : Except Failure α}
    {a : α} : part category name resolved = .ok a ↔ resolved = .ok a := by
  cases resolved <;> simp [part, Except.mapError]

namespace Compilation

variable {c c' c'' : Compilation} {α β : Type}

theorem Closed.reaches (h : c.Closed) : c.Reaches c := ⟨.refl c, h⟩

theorem Reaches.trans (h : c.Reaches c') (h' : c'.Reaches c'') : c.Reaches c'' :=
  ⟨h.grows.trans h'.grows, h'.closed⟩

theorem Extends.reaches {answer : SymbolId × Compilation} (h : c.Extends answer) :
    c.Reaches answer.2 :=
  ⟨h.grows, h.closed⟩

theorem length_buildEach {build : Compilation → α → β × Compilation} (as : List α)
    (c : Compilation) : (buildEach build as c).1.length = as.length := by
  induction as generalizing c with
  | nil => rfl
  | cons a rest ih => simp [buildEach, ih]

/-- Building one thing after the other keeps what building each of them keeps, and to each thing
goes what was built out of it. -/
theorem buildEach_keeps {build : Compilation → α → β × Compilation} {P : Compilation → Prop}
    {Q : Compilation → α → β → Prop} {as : List α}
    (hkeep : ∀ c c' a b, c.Grows c' → P c → Q c a b → Q c' a b)
    (hbuild : ∀ a ∈ as, ∀ c', c.Grows c' → P c' →
      c'.Grows (build c' a).2 ∧ P (build c' a).2 ∧ Q (build c' a).2 a (build c' a).1) :
    ∀ c', c.Grows c' → P c' → c'.Grows (buildEach build as c').2 ∧ P (buildEach build as c').2 ∧
      List.Forall₂ (Q (buildEach build as c').2) as (buildEach build as c').1 := by
  induction as with
  | nil => exact fun c' _ hp => ⟨.refl c', hp, .nil⟩
  | cons a rest ih =>
      intro c' hc hp
      obtain ⟨hhead, hp', hq⟩ := hbuild a (by simp) c' hc hp
      obtain ⟨htail, hp'', hqs⟩ := ih (fun b hb => hbuild b (by simp [hb])) _ (hc.trans hhead) hp'
      exact ⟨hhead.trans htail, hp'', .cons (hkeep _ _ _ _ htail hp' hq) hqs⟩

theorem Closed.settle (h : c.Closed) {request : Except Rejection (SymbolId × SymbolTable)}
    (hrequest : ∀ answer, request = .ok answer → c.table.Extends answer) :
    c.Reaches (c.settle request).2 ∧
      ∀ s, (c.settle request).1 = .ok s → (c.settle request).2.Issued s := by
  cases request with
  | error rejection => exact ⟨h.reaches, fun s hs => by cases hs⟩
  | ok answer =>
      have hx := h.withTable (hrequest answer rfl)
      exact ⟨hx.reaches, fun s hs => by cases hs; exact hx.issued⟩

theorem Closed.constructAt (h : c.Closed) {definition : SymbolId} {arguments : List SymbolId}
    (hd : c.Issued definition) (ha : ∀ a ∈ arguments, c.Issued a) :
    c.Reaches (c.constructAt arguments definition).2 ∧
      ∀ s, (c.constructAt arguments definition).1 = .ok s →
        (c.constructAt arguments definition).2.Issued s := by
  refine h.settle fun answer hanswer => ?_
  cases hcheck : SymbolTable.checkArguments (c.entry definition) arguments with
  | error rejection => simp [hcheck, Except.map] at hanswer
  | ok _ =>
      simp only [hcheck, Except.map, Except.ok.injEq] at hanswer
      exact hanswer ▸ h.table.constructed hd ha

theorem Closed.tupleType (h : c.Closed) {types : List SymbolId} (ht : ∀ s ∈ types, c.Issued s)
    (names : List (Option String)) (locations : List Location) :
    c.Reaches (c.tupleType types names locations).2 ∧
      ∀ s, (c.tupleType types names locations).1 = .ok s →
        (c.tupleType types names locations).2.Issued s := by
  have hcount : c.Reaches c.countRequest := ⟨⟨.refl _, rfl, rfl, rfl, rfl, rfl⟩, ⟨h.table, h.global,
    h.universal⟩⟩
  obtain ⟨hreaches, hissued⟩ := hcount.closed.settle fun answer ha => h.table.tuple ht ha
  exact ⟨hcount.trans hreaches, hissued⟩

theorem Closed.anonymousType (h : c.Closed) {types : List SymbolId}
    (ht : ∀ s ∈ types, c.Issued s) (names : List String) (readOnly : List Bool)
    (locations : List Location) :
    c.Reaches (c.anonymousType types names readOnly locations).2 ∧
      ∀ s, (c.anonymousType types names readOnly locations).1 = .ok s →
        (c.anonymousType types names readOnly locations).2.Issued s := by
  have hcount : c.Reaches c.countRequest := ⟨⟨.refl _, rfl, rfl, rfl, rfl, rfl⟩, ⟨h.table, h.global,
    h.universal⟩⟩
  obtain ⟨hreaches, hissued⟩ := hcount.closed.settle fun answer ha => h.table.anonymous ht ha
  exact ⟨hcount.trans hreaches, hissued⟩

theorem Grows.typeAt (h : c.Grows c') {s : SymbolId} (hs : c.Issued s) :
    c'.typeAt s = c.typeAt s := by
  rw [Compilation.typeAt, Compilation.typeAt, h.hiddenTypes, h.entry hs, h.universal]

theorem Grows.signatureAt (h : c.Grows c') (hclosed : c.Closed) {s : SymbolId} (hs : c.Issued s) :
    c'.signatureAt s = c.signatureAt s := by
  rw [Compilation.signatureAt, Compilation.signatureAt, h.entry hs]
  exact List.map_congr_left fun p hp => h.typeAt (hclosed.table.parameters hs hp)

theorem Grows.accept (h : c.Grows c') : c'.accept = c.accept := by
  funext l
  cases l with
  | nowhere => rfl
  | source path span =>
      rw [Compilation.accept, Compilation.accept, containsFile, containsFile, h.files]

/-- What an outcome means to a compilation: it knows every candidate. -/
def Knows (c : Compilation) (resolved : Resolved) : Prop :=
  ∀ r, resolved = .ok r → ∀ s ∈ r.candidates, c.Issued s

theorem Knows.later {resolved : Resolved} (h : c.Knows resolved) (hgrows : c.Grows c') :
    c'.Knows resolved :=
  fun r hr s hs => hgrows.issued (h r hr s hs)

theorem knows_ofCandidates {found : List SymbolId} {missing : Failure}
    (h : ∀ s ∈ found, c.Issued s) : c.Knows (Resolution.ofCandidates found missing) :=
  fun _ hr s hs => h s ((Resolution.mem_ofCandidates hr).mp hs)

theorem knows_symbol {s : SymbolId} (h : c.Issued s) : c.Knows (.ok (.symbol s)) := by
  rintro r hr s' hs'
  cases hr
  rw [List.mem_singleton.mp hs']
  exact h

theorem knows_error {reason : Failure} : c.Knows (.error reason) := fun _ hr => by cases hr

theorem Knows.part_bind {resolved : Except Failure α} {category : Category} {name : String}
    {next : α → Resolved} (h : ∀ a, resolved = .ok a → c.Knows (next a)) :
    c.Knows ((part category name resolved).bind next) := by
  cases resolved with
  | error reason => exact knows_error
  | ok r => exact h r rfl

/-- The first candidate is a candidate. -/
theorem mem_of_first {resolved : Resolved} {s : SymbolId} (hs : Decode.first resolved = .ok s) :
    ∃ r, resolved = .ok r ∧ s ∈ r.candidates := by
  cases resolved with
  | error reason => cases hs
  | ok r =>
      cases hany : r.any? with
      | none => simp [Decode.first, hany, bind, Except.bind, throw, throwThe,
          MonadExceptOf.throw] at hs
      | some s' =>
          simp only [Decode.first, hany, bind, Except.bind, pure, Except.pure,
            Except.ok.injEq] at hs
          subst hs
          exact ⟨r, rfl, Resolution.any?_mem hany⟩

theorem issued_first {resolved : Resolved} (h : c.Knows resolved) {s : SymbolId}
    (hs : Decode.first resolved = .ok s) : c.Issued s := by
  obtain ⟨r, hr, hs⟩ := mem_of_first hs
  exact h r hr s hs

end Compilation

/-- The elements that an array comes to are among those that were read. -/
theorem mem_gathered {α : Type} {results : List (Except Failure α)} {index : Nat} {items : List α}
    (h : gathered index results = .ok items) : results = items.map .ok := by
  induction results generalizing index items with
  | nil => cases h; rfl
  | cons result rest ih =>
      cases result with
      | error reason => cases h
      | ok a =>
          cases hrest : gathered (index + 1) rest with
          | error reason => simp [gathered, hrest, Except.map] at h
          | ok others =>
              simp only [gathered, hrest, Except.map, Except.ok.injEq] at h
              subst h
              rw [List.map_cons, ih hrest]

open Compilation in
theorem Resolution.rebuilt_closed {build : Compilation → SymbolId → SymbolId × Compilation}
    {c : Compilation} {r : Resolution SymbolId} (h : c.Closed)
    (hr : ∀ s ∈ r.candidates, c.Issued s)
    (hbuild : ∀ (c' : Compilation) s, c'.Closed → c'.Issued s → c'.Extends (build c' s)) :
    c.Reaches (r.rebuilt build c).2 ∧ (r.rebuilt build c).2.Knows (.ok (r.rebuilt build c).1) := by
  cases r with
  | symbol s =>
      have hx := hbuild c s h (hr s (by simp [candidates]))
      exact ⟨hx.reaches, knows_symbol hx.issued⟩
  | ambiguous several =>
      obtain ⟨hgrows, hclosed, hissued⟩ := buildEach_keeps
        (fun c c' _ s (hg : c.Grows c') _ (hs : c.Issued s) => hg.issued hs)
        (fun s hs c' hc (hclosed : c'.Closed) =>
          have hx := hbuild c' s hclosed (hc.issued (hr s hs))
          ⟨hx.grows, hx.closed, hx.issued⟩) c (.refl c) h
      refine ⟨⟨hgrows, hclosed⟩, ?_⟩
      rintro r' hr' s hs
      cases hr'
      obtain ⟨_, -, hs⟩ := exists_left hissued hs
      exact hs

theorem Fallback.settle_closed {fallback : Fallback} {codec : String} {presence : Presence}
    {c : Compilation} {request : Except Rejection SymbolId × Compilation} (h : c.Closed)
    (hreaches : c.Reaches request.2)
    (hissued : ∀ s, request.1 = .ok s → request.2.Issued s) :
    c.Reaches (fallback.settle codec presence c request).2 ∧
      (fallback.settle codec presence c request).2.Knows
        (fallback.settle codec presence c request).1 := by
  have hanswer : ∀ c' : Compilation, c'.Closed → ∀ detail,
      c'.Knows (fallback.answer codec detail c') := by
    intro c' hc' detail
    cases fallback with
    | universal => exact Compilation.knows_symbol hc'.universal
    | fail => exact Compilation.knows_error
  unfold settle
  split
  · exact ⟨h.reaches, hanswer c h _⟩
  · split
    · next s hs => exact ⟨hreaches, Compilation.knows_symbol (hissued s hs)⟩
    · exact ⟨hreaches, hanswer _ hreaches.closed _⟩

namespace Description

open Compilation

variable {c : Compilation} {methods : List SymbolId} {o : ResolveOptions}

theorem constructedAt_closed {name : String} {presence : Presence}
    {definitions arguments : List SymbolId} (h : c.Closed)
    (hd : ∀ d ∈ definitions, c.Issued d) (ha : ∀ a ∈ arguments, c.Issued a) :
    c.Reaches (constructedAt name presence definitions arguments c).2 ∧
      (constructedAt name presence definitions arguments c).2.Knows
        (constructedAt name presence definitions arguments c).1 := by
  unfold constructedAt
  split
  · exact ⟨h.reaches, knows_ofCandidates hd⟩
  · have hkeep : ∀ (c c' : Compilation) (_ : SymbolId) (b : Except Rejection SymbolId), c.Grows c' →
        c.Closed → (∀ s, b = .ok s → c.Issued s) → ∀ s, b = .ok s → c'.Issued s :=
      fun c c' _ b hg _ hb s hs => hg.issued (hb s hs)
    obtain ⟨hgrows, hclosed, hissued⟩ := buildEach_keeps hkeep
      (fun d hdm c' hc (hclosed : c'.Closed) =>
        have ⟨hreaches, hs⟩ := hclosed.constructAt (hc.issued (hd d hdm)) fun a ham =>
          hc.issued (ha a ham)
        ⟨hreaches.grows, hreaches.closed, hs⟩) c (.refl c) h
    refine ⟨⟨hgrows, hclosed⟩, knows_ofCandidates fun s hs => ?_⟩
    obtain ⟨answer, hanswer, hs⟩ := List.mem_filterMap.mp hs
    cases answer with
    | error rejection => cases hs
    | ok s' =>
        cases hs
        obtain ⟨_, -, hs⟩ := exists_left hissued hanswer
        exact hs s rfl

theorem issued_nil (c : Compilation) : ∀ m ∈ ([] : List SymbolId), c.Issued m := fun m hm => by
  cases hm

/-- One method deeper, all methods around are still issued. -/
theorem issued_within {m : SymbolId} (hmethods : ∀ m ∈ methods, c.Issued m) (hm : c.Issued m) :
    ∀ m' ∈ methods ++ [m], c.Issued m' := by
  intro m' hm'
  rcases List.mem_append.mp hm' with hm' | hm'
  · exact hmethods m' hm'
  · rw [List.mem_singleton.mp hm']
    exact hm

/-- The candidates for which a signature came to the types of their own parameters. -/
def fits (c : Compilation) (candidates : List SymbolId)
    (outcomes : List (Except Failure (List SymbolId))) : List SymbolId :=
  ((candidates.zip outcomes).filter fun p => p.2.toOption == some (c.signatureAt p.1)).map Prod.fst

theorem mem_fits {candidates : List SymbolId} {outcomes : List (Except Failure (List SymbolId))}
    {m : SymbolId} :
    m ∈ fits c candidates outcomes ↔ (m, .ok (c.signatureAt m)) ∈ candidates.zip outcomes := by
  constructor
  · intro hm
    obtain ⟨⟨m', outcome⟩, hp, rfl⟩ := List.mem_map.mp hm
    obtain ⟨hp, hfits⟩ := List.mem_filter.mp hp
    cases outcome with
    | error reason => simp [Except.toOption] at hfits
    | ok types =>
        have htypes : types = c.signatureAt m' := by simpa [Except.toOption] using hfits
        rwa [htypes] at hp
  · intro hm
    exact List.mem_map.mpr ⟨_, List.mem_filter.mpr ⟨hm, by simp [Except.toOption]⟩, rfl⟩

theorem fitting_after (sofar : Replay) (m : SymbolId) (expected : List SymbolId)
    (outcome : Except Failure (List SymbolId)) :
    (sofar.after m expected outcome).fitting =
      sofar.fitting ++ if outcome.toOption == some expected then [m] else [] := by
  cases outcome with
  | error reason => simp [Replay.after, Except.toOption]
  | ok types =>
      by_cases heq : types = expected
      · simp [Replay.after, Except.toOption, heq]
      · have hne : ¬ expected = types := fun h => heq h.symm
        simp [Replay.after, Except.toOption, heq, hne]

/-- What is known once a signature has been gone through inside every candidate. -/
def Replay.afterEach (c : Compilation) (candidates : List SymbolId)
    (outcomes : List (Except Failure (List SymbolId))) (sofar : Replay) : Replay :=
  (candidates.zip outcomes).foldl (fun sofar p => sofar.after p.1 (c.signatureAt p.1) p.2) sofar

theorem fitting_afterEach (c : Compilation) (candidates : List SymbolId)
    (outcomes : List (Except Failure (List SymbolId))) (sofar : Replay) :
    (sofar.afterEach c candidates outcomes).fitting =
      sofar.fitting ++ fits c candidates outcomes := by
  unfold Replay.afterEach fits
  induction candidates.zip outcomes generalizing sofar with
  | nil => simp
  | cons p rest ih =>
      rw [List.foldl_cons, ih, fitting_after, List.append_assoc, List.filter_cons]
      congr 1
      split <;> simp

/-- Going through a signature inside the candidates is building something out of each of them, since
the types of their own parameters stay what they are. -/
theorem replayed_eq {P : Compilation → Prop}
    {signature : List SymbolId → Compilation → Except Failure (List SymbolId) × Compilation}
    {candidates : List SymbolId} (h : c.Closed) (hissued : ∀ m ∈ candidates, c.Issued m)
    (hsignature : ∀ m ∈ candidates, ∀ c', c.Grows c' → P c' →
      c'.Grows (signature (methods ++ [m]) c').2 ∧ P (signature (methods ++ [m]) c').2) :
    ∀ (sofar : Replay) (c' : Compilation), c.Grows c' → P c' →
      replayed signature methods candidates sofar c' =
        (sofar.afterEach c candidates
          (buildEach (fun c m => signature (methods ++ [m]) c) candidates c').1,
          (buildEach (fun c m => signature (methods ++ [m]) c) candidates c').2) := by
  induction candidates with
  | nil => exact fun _ _ _ _ => rfl
  | cons m rest ih =>
      intro sofar c' hc hp
      obtain ⟨hhead, hp'⟩ := hsignature m (by simp) c' hc hp
      have hexpected : (signature (methods ++ [m]) c').2.signatureAt m = c.signatureAt m :=
        (hc.trans hhead).signatureAt h (hissued m (by simp))
      rw [replayed, hexpected, ih (fun m' hm' => hissued m' (by simp [hm']))
        (fun m' hm' => hsignature m' (by simp [hm'])) _ _ (hc.trans hhead) hp']
      rfl

/-- Going through a signature once per candidate keeps what each time keeps, and those candidates
are left that the signature fits. -/
theorem replayed_keeps {P : Compilation → Prop}
    {Q : Compilation → SymbolId → Except Failure (List SymbolId) → Prop}
    {signature : List SymbolId → Compilation → Except Failure (List SymbolId) × Compilation}
    {candidates : List SymbolId} (h : c.Closed) (hissued : ∀ m ∈ candidates, c.Issued m)
    (hkeep : ∀ c c' m x, c.Grows c' → P c → Q c m x → Q c' m x)
    (hsignature : ∀ m ∈ candidates, ∀ c', c.Grows c' → P c' →
      c'.Grows (signature (methods ++ [m]) c').2 ∧ P (signature (methods ++ [m]) c').2 ∧
      Q (signature (methods ++ [m]) c').2 m (signature (methods ++ [m]) c').1) (sofar : Replay)
    (c' : Compilation) (hc : c.Grows c') (hp : P c') :
    c'.Grows (replayed signature methods candidates sofar c').2 ∧
      P (replayed signature methods candidates sofar c').2 ∧
      ∃ outcomes, List.Forall₂ (Q (replayed signature methods candidates sofar c').2) candidates
        outcomes ∧
        (replayed signature methods candidates sofar c').1.fitting =
          sofar.fitting ++ fits c candidates outcomes := by
  rw [replayed_eq h hissued (fun m hm c' hc hp =>
    have ⟨hgrows, hp, _⟩ := hsignature m hm c' hc hp
    ⟨hgrows, hp⟩) sofar c' hc hp]
  obtain ⟨hgrows, hp', houtcomes⟩ := buildEach_keeps hkeep hsignature c' hc hp
  exact ⟨hgrows, hp', _, houtcomes, fitting_afterEach _ _ _ _⟩

/-- The same where a signature is gone through once if there are no candidates. -/
theorem replayedAll_keeps {P : Compilation → Prop}
    {Q : Compilation → SymbolId → Except Failure (List SymbolId) → Prop}
    {signature : List SymbolId → Compilation → Except Failure (List SymbolId) × Compilation}
    {candidates : List SymbolId} (h : c.Closed) (hissued : ∀ m ∈ candidates, c.Issued m) (hp : P c)
    (hkeep : ∀ c c' m x, c.Grows c' → P c → Q c m x → Q c' m x)
    (hempty : c.Grows (signature methods c).2 ∧ P (signature methods c).2)
    (hsignature : ∀ m ∈ candidates, ∀ c', c.Grows c' → P c' →
      c'.Grows (signature (methods ++ [m]) c').2 ∧ P (signature (methods ++ [m]) c').2 ∧
      Q (signature (methods ++ [m]) c').2 m (signature (methods ++ [m]) c').1) :
    c.Grows (replayedAll signature methods candidates c).2 ∧
      P (replayedAll signature methods candidates c).2 ∧
      ∃ outcomes, List.Forall₂ (Q (replayedAll signature methods candidates c).2) candidates
        outcomes ∧
        (replayedAll signature methods candidates c).1.fitting = fits c candidates outcomes := by
  unfold replayedAll
  split
  · next hnone =>
      rw [List.isEmpty_iff.mp hnone]
      exact ⟨hempty.1, hempty.2, [], .nil, rfl⟩
  · exact replayed_keeps h hissued hkeep hsignature {} c (.refl c) hp

theorem replayedAll_closed {candidates : List SymbolId}
    (signature : List SymbolId → Compilation → Except Failure (List SymbolId) × Compilation)
    (hsignature : ∀ methods (c : Compilation), c.Closed → (∀ m ∈ methods, c.Issued m) →
      c.Reaches (signature methods c).2)
    (h : c.Closed) (hmethods : ∀ m ∈ methods, c.Issued m)
    (hcandidates : ∀ m ∈ candidates, c.Issued m) :
    c.Reaches (replayedAll signature methods candidates c).2 ∧
      ∀ m ∈ (replayedAll signature methods candidates c).1.fitting,
        (replayedAll signature methods candidates c).2.Issued m := by
  have hempty := hsignature methods c h hmethods
  obtain ⟨hgrows, hclosed, outcomes, -, hfitting⟩ := replayedAll_keeps (Q := fun _ _ _ => True) h
    hcandidates h (fun _ _ _ _ _ _ _ => trivial) ⟨hempty.grows, hempty.closed⟩
    (fun m hm c' hc (hclosed : c'.Closed) => by
      have hread := hsignature (methods ++ [m]) c' hclosed
        (issued_within (fun m hm => hc.issued (hmethods m hm)) (hc.issued (hcandidates m hm)))
      exact ⟨hread.grows, hread.closed, trivial⟩)
  refine ⟨⟨hgrows, hclosed⟩, fun m hm => ?_⟩
  rw [hfitting] at hm
  exact hgrows.issued (hcandidates m (List.of_mem_zip (mem_fits.mp hm)).1)

theorem Replay.knows_outcome {replay : Replay} {name : String}
    (h : ∀ m ∈ replay.fitting, c.Issued m) : c.Knows (replay.outcome name) := by
  unfold outcome
  split
  · exact knows_error
  · exact knows_ofCandidates h

/-- Locating segments in a row is building the first candidate out of each of them. -/
theorem locateEach_eq {α : Type} (f : α → Description) (as : List α) (c : Compilation) :
    locateEach o (as.map f) methods c = buildEach (fun c a =>
      (Decode.first (locate o (f a) methods c).1, (locate o (f a) methods c).2)) as c := by
  induction as generalizing c with
  | nil => rw [List.map_nil, locateEach, buildEach]
  | cons a rest ih => rw [List.map_cons, locateEach, ih, buildEach]

/-- Locating segments in a row keeps what locating each of them keeps, and to each segment goes the
first candidate for it. -/
theorem locateEach_keeps {α : Type} {P : Compilation → Prop} {f : α → Description}
    {Q : Compilation → α → Except Failure SymbolId → Prop} {as : List α}
    (hkeep : ∀ c c' a x, c.Grows c' → P c → Q c a x → Q c' a x)
    (has : ∀ a ∈ as, ∀ c', c.Grows c' → P c' → c'.Grows (locate o (f a) methods c').2 ∧
      P (locate o (f a) methods c').2 ∧
      Q (locate o (f a) methods c').2 a (Decode.first (locate o (f a) methods c').1)) :
    ∀ c', c.Grows c' → P c' → c'.Grows (locateEach o (as.map f) methods c').2 ∧
      P (locateEach o (as.map f) methods c').2 ∧
      List.Forall₂ (Q (locateEach o (as.map f) methods c').2) as
        (locateEach o (as.map f) methods c').1 := by
  intro c' hc hp
  rw [locateEach_eq]
  exact buildEach_keeps hkeep has c' hc hp

/-- Locating the description leaves a later state of a closed compilation, which is closed too and
knows every candidate. -/
def LocatesClosed (o : ResolveOptions) (d : Description) : Prop :=
  ∀ (methods : List SymbolId) (c : Compilation), c.Closed → (∀ m ∈ methods, c.Issued m) →
    c.Reaches (locate o d methods c).2 ∧ (locate o d methods c).2.Knows (locate o d methods c).1

theorem locateEach_closed {ds : List Description} (hds : ∀ d ∈ ds, LocatesClosed o d)
    (methods : List SymbolId) (c : Compilation) (h : c.Closed)
    (hmethods : ∀ m ∈ methods, c.Issued m) :
    c.Reaches (locateEach o ds methods c).2 ∧
      ∀ index items, gathered index (locateEach o ds methods c).1 = .ok items →
        ∀ s ∈ items, (locateEach o ds methods c).2.Issued s := by
  have hkeep : ∀ (c c' : Compilation) (_ : Description) (x : Except Failure SymbolId), c.Grows c' →
      c.Closed → (∀ s, x = .ok s → c.Issued s) → ∀ s, x = .ok s → c'.Issued s :=
    fun c c' _ x hg _ hx s hs => hg.issued (hx s hs)
  obtain ⟨hgrows, hclosed, hissued⟩ := locateEach_keeps hkeep
    (fun d hd c' hc (hclosed : c'.Closed) =>
      have ⟨hreaches, hknows⟩ := hds d hd methods c' hclosed fun m hm => hc.issued (hmethods m hm)
      ⟨hreaches.grows, hreaches.closed, fun s hs => issued_first hknows hs⟩) c (.refl c) h
  rw [List.map_id'] at hgrows hclosed hissued
  refine ⟨⟨hgrows, hclosed⟩, fun index items hitems s hs => ?_⟩
  have hs : .ok s ∈ (locateEach o ds methods c).1 := by
    rw [mem_gathered hitems]
    exact List.mem_map.mpr ⟨s, hs, rfl⟩
  obtain ⟨_, -, hs⟩ := exists_left hissued hs
  exact hs s rfl

/-! ### Segments -/

section Segments

-- generates the equations of `locate` once, and not in each of the lemmas that unfold it
attribute [local simp] locate

variable {d : Description} {ds : List Description} {name : Slot String}
  {arity rank depth ordinal : Slot Nat} {presence : Slot Presence} {names : Listing (Option String)}
  {readOnly : Listing Bool} {locations : Listing Location}

/-- A segment that looks something up among what the state after another one holds. -/
theorem LocatesClosed.lookup {d' : Description} {category : Category} {partName : String}
    {missing : Failure} (answer : Compilation → List SymbolId → List SymbolId)
    (h : LocatesClosed o d)
    (hanswer : ∀ (c : Compilation) owners, c.Closed → (∀ s ∈ owners, c.Issued s) →
      ∀ s ∈ answer c owners, c.Issued s)
    (hlocate : ∀ methods c, locate o d' methods c =
      ((part category partName (locate o d methods c).1).bind fun r =>
          Resolution.ofCandidates (answer (locate o d methods c).2 r.candidates) missing,
        (locate o d methods c).2)) :
    LocatesClosed o d' := by
  intro methods c hc hmethods
  obtain ⟨hreaches, hknows⟩ := h methods c hc hmethods
  rw [hlocate]
  exact ⟨hreaches, .part_bind fun r hr =>
    knows_ofCandidates (hanswer _ _ hreaches.closed (hknows r hr))⟩

theorem LocatesClosed.namedType (h : LocatesClosed o d) (hds : ∀ d ∈ ds, LocatesClosed o d) :
    LocatesClosed o (.namedType d name arity presence ds) := by
  intro methods c hc hmethods
  obtain ⟨houter, hknows⟩ := h methods c hc hmethods
  obtain ⟨hinner, hissued⟩ := locateEach_closed hds methods _ houter.closed
    fun m hm => houter.grows.issued (hmethods m hm)
  simp only [locate]
  split
  · exact ⟨houter.trans hinner, knows_error⟩
  · exact ⟨houter.trans hinner, knows_error⟩
  · next r types hr htypes =>
      have hr := hknows r (part_eq_ok.mp hr)
      obtain ⟨hreaches, hknows⟩ := constructedAt_closed hinner.closed
        (hinner.closed.issued_genericsBearing fun s hs => hinner.grows.issued (hr s hs))
        (hissued 0 types (part_eq_ok.mp htypes))
      exact ⟨(houter.trans hinner).trans hreaches, hknows⟩

theorem LocatesClosed.arrayType (h : LocatesClosed o d) : LocatesClosed o (.arrayType d rank) := by
  intro methods c hc hmethods
  obtain ⟨houter, hknows⟩ := h methods c hc hmethods
  simp only [locate]
  split
  · exact ⟨houter, knows_error⟩
  · next r hr =>
      obtain ⟨hreaches, hknows⟩ := Resolution.rebuilt_closed houter.closed
        (hknows r (part_eq_ok.mp hr)) fun c' s hc' hs => hc'.arrayType hs _
      exact ⟨houter.trans hreaches, hknows⟩

theorem LocatesClosed.pointerType (h : LocatesClosed o d) : LocatesClosed o (.pointerType d) := by
  intro methods c hc hmethods
  obtain ⟨houter, hknows⟩ := h methods c hc hmethods
  simp only [locate]
  split
  · exact ⟨houter, knows_error⟩
  · next r hr =>
      obtain ⟨hreaches, hknows⟩ := Resolution.rebuilt_closed houter.closed
        (hknows r (part_eq_ok.mp hr)) fun c' s hc' hs => hc'.pointerType hs
      exact ⟨houter.trans hreaches, hknows⟩

theorem LocatesClosed.tupleType (hds : ∀ d ∈ ds, LocatesClosed o d) :
    LocatesClosed o (.tupleType presence ds names locations) := by
  intro methods c hc hmethods
  obtain ⟨hinner, hissued⟩ := locateEach_closed hds methods c hc hmethods
  simp only [locate]
  split
  · exact ⟨hinner, knows_error⟩
  · exact ⟨hinner, knows_error⟩
  · next types locations htypes _ =>
      obtain ⟨hbuilt, hissued⟩ := hinner.closed.tupleType
        (hissued 0 types (part_eq_ok.mp htypes)) names.values locations
      obtain ⟨hreaches, hknows⟩ := Fallback.settle_closed hinner.closed hbuilt hissued
      exact ⟨hinner.trans hreaches, hknows⟩

theorem LocatesClosed.anonymousType (hds : ∀ d ∈ ds, LocatesClosed o d) :
    LocatesClosed o (.anonymousType presence ds names readOnly locations) := by
  intro methods c hc hmethods
  obtain ⟨hinner, hissued⟩ := locateEach_closed hds methods c hc hmethods
  simp only [locate]
  split
  · exact ⟨hinner, knows_error⟩
  · exact ⟨hinner, knows_error⟩
  · next types locations htypes _ =>
      obtain ⟨hbuilt, hissued⟩ := hinner.closed.anonymousType
        (hissued 0 types (part_eq_ok.mp htypes)) (names.values.map (·.getD ""))
        readOnly.values locations
      obtain ⟨hreaches, hknows⟩ := Fallback.settle_closed hinner.closed hbuilt hissued
      exact ⟨hinner.trans hreaches, hknows⟩

theorem LocatesClosed.typeParameterOrdinal :
    LocatesClosed o (.typeParameterOrdinal depth ordinal) := by
  intro methods c hc hmethods
  simp only [locate]
  refine ⟨hc.reaches, ?_⟩
  unfold enclosingAt
  split
  · exact knows_error
  · next owner howner =>
      split
      · exact knows_error
      · next s hs =>
          exact knows_symbol (hc.table.typeParameters (hmethods owner (List.mem_of_getElem? howner))
            (List.mem_of_getElem? hs))

theorem LocatesClosed.property (h : LocatesClosed o d) (hds : ∀ d ∈ ds, LocatesClosed o d) :
    LocatesClosed o (.property d name presence ds) := by
  intro methods c hc hmethods
  obtain ⟨houter, hknows⟩ := h methods c hc hmethods
  obtain ⟨hinner, -⟩ := locateEach_closed hds methods _ houter.closed
    fun m hm => houter.grows.issued (hmethods m hm)
  simp only [locate]
  exact ⟨houter.trans hinner, .part_bind fun r hr => .part_bind fun types htypes =>
    knows_ofCandidates (hinner.closed.issued_propertiesBearing fun s hs =>
      hinner.grows.issued (hknows r hr s hs))⟩

theorem LocatesClosed.method (h : LocatesClosed o d) (hds : ∀ d ∈ ds, LocatesClosed o d) :
    LocatesClosed o (.method d name arity presence ds) := by
  intro methods c hc hmethods
  obtain ⟨houter, hknows⟩ := h methods c hc hmethods
  have hreplayed : ∀ candidates : List SymbolId,
      (∀ m ∈ candidates, (locate o d methods c).2.Issued m) → _ := fun candidates hcandidates =>
    replayedAll_closed
      (fun methods c => (gathered 0 (locateEach o ds methods c).1, (locateEach o ds methods c).2))
      (fun methods c h hmethods => (locateEach_closed hds methods c h hmethods).1) houter.closed
      (fun m hm => houter.grows.issued (hmethods m hm)) hcandidates
  simp only [locate]
  cases hr : (locate o d methods c).1 with
  | error reason => exact ⟨houter.trans (hreplayed [] (List.forall_mem_nil _)).1, knows_error⟩
  | ok r =>
      obtain ⟨hreaches, hfitting⟩ :=
        hreplayed _ (houter.closed.issued_genericsBearing (hknows r hr))
      exact ⟨houter.trans hreaches, Replay.knows_outcome hfitting⟩

end Segments

/-- Locating a description leaves a later state that knows every candidate. -/
theorem locate_closed (o : ResolveOptions) (d : Description) : LocatesClosed o d := by
  induction d with
  | unreadable _ | unflagged _ | global =>
      intro methods c h _
      simp only [locate]
      exact ⟨h.reaches, knows_symbol h.global⟩
  | nameSpace container name ih =>
      exact ih.lookup (fun c owners => c.membersBearing o .nameSpace owners (name.valueOr ""))
        (fun _ _ hc ho => hc.issued_membersBearing ho) fun _ _ => rfl
  | namedType _ _ _ _ _ ih iharguments => exact ih.namedType iharguments
  | arrayType _ _ ih => exact ih.arrayType
  | pointerType _ ih => exact ih.pointerType
  | tupleType _ _ _ _ ih => exact .tupleType ih
  | anonymousType _ _ _ _ _ ih => exact .anonymousType ih
  | typeParameter owner name ih =>
      exact ih.lookup (fun c owners => c.typeParametersBearing o owners (name.valueOr ""))
        (fun _ _ hc ho => hc.issued_typeParametersBearing ho) fun _ _ => rfl
  | typeParameterOrdinal _ _ => exact .typeParameterOrdinal
  | field container name ih =>
      exact ih.lookup (fun c owners => c.membersBearing o .field owners (name.valueOr ""))
        (fun _ _ hc ho => hc.issued_membersBearing ho) fun _ _ => rfl
  | property _ _ _ _ ih ihparameters => exact ih.property ihparameters
  | method _ _ _ _ _ ih ihparameters => exact ih.method ihparameters
  | parameter owner name ih =>
      exact ih.lookup (fun c owners => c.parametersBearing o owners (name.valueOr ""))
        (fun _ _ hc ho => hc.issued_parametersBearing ho) fun _ _ => rfl
  | localVariable owner name ordinal ih =>
      exact ih.lookup
        (fun c owners => c.localsBearing o owners (name.valueOr "") (ordinal.valueOr 0))
        (fun _ _ hc ho => hc.issued_localsBearing ho) fun _ _ => rfl

/-- Locating descriptions in a row leaves a later state that knows every symbol gathered. -/
theorem locateEach_reaches (o : ResolveOptions) (ds : List Description) (methods : List SymbolId)
    (c : Compilation) (h : c.Closed) (hmethods : ∀ m ∈ methods, c.Issued m) :
    c.Reaches (locateEach o ds methods c).2 ∧
      ∀ index items, gathered index (locateEach o ds methods c).1 = .ok items →
        ∀ s ∈ items, (locateEach o ds methods c).2.Issued s :=
  locateEach_closed (fun d _ => locate_closed o d) methods c h hmethods

end Description
end Moniker
