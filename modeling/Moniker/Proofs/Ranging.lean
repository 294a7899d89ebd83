import Moniker.Proofs.Asking
import Moniker.Proofs.Conservative
import Moniker.Proofs.Lending

/-!
# Everything is in range

Keys of any kind decode without a fault, one after the other, in a compilation that was made from
issued symbols. What keeps the symbol table from being left is that no entry refers to a symbol that
was not issued (`Closed`), and that shapes with an answer mention issued symbols only (`Grounded`).
Both hold of every compilation that can be reached, and with them every candidate that a key comes
to has been issued. That a reader never goes ahead of itself, and that no difference it takes falls
below zero, shows in the pass that is made in one go, in which these would be faults.
-/

namespace Moniker

/-! ## Shapes -/

/-- The lists of a shape are of one length. -/
def Shape.Fits : Shape → Prop
  | tuple types names => types.length = names.length
  | anonymous types names readOnly => names.length = types.length ∧ readOnly.length = types.length
  | _ => True

theorem Shape.fits_of_check {t : SymbolTable} {locations : List Location} {shape : Shape}
    (hcheck : shape.check t locations = .ok ()) : shape.Fits := by
  cases shape with
  | array _ _ | pointer _ | constructed _ _ => trivial
  | tuple types names => exact (SymbolTable.lengths_of_checkTuple hcheck).1
  | anonymous types names readOnly =>
    obtain ⟨hnames, hreadOnly, -⟩ := SymbolTable.lengths_of_checkAnonymous hcheck
    exact ⟨hnames, hreadOnly⟩

namespace SymbolTable

variable {t t' t₀ : SymbolTable} {shape : Shape} {s : SymbolId}

/-- An answer was there before, or was given to lists of one length. -/
theorem Asked.fits (h : t.Asked t') (hlookup : t'.interned.lookup shape = some s) :
    t.interned.lookup shape = some s ∨ shape.Fits := by
  cases h with
  | same => exact .inl hlookup
  | shape hcheck _ =>
    rcases lookup_ask hlookup with hold | rfl
    · exact .inl hold
    · exact .inr (Shape.fits_of_check hcheck)

/-- The members of a type have the types that its shape lists. -/
theorem Erected.types (h : t₀.Erected t shape s) {types : List SymbolId}
    (htypes : shape.members.map (·.type) = types.map some) {p : SymbolId} (hp : p ∈ types) :
    ∃ m ∈ (t.entry s).members, (t.entry m).type = some p := by
  have hall : (t.entry s).members.map (fun m => (t.entry m).type) = types.map some := by
    have hmembers := congrArg (List.map Symbol.type) h.members
    simp only [List.map_map] at hmembers
    rw [← htypes]
    exact hmembers
  have hmem : some p ∈ (t.entry s).members.map fun m => (t.entry m).type :=
    hall ▸ List.mem_map_of_mem hp
  exact List.mem_map.mp hmem

/-- What the shape of a type mentions is what its entry and those of its members refer to. -/
theorem Erected.symbols_issued (h : t₀.Erected t shape s) (hfits : shape.Fits)
    (hclosed : t.Closed) :
    ∀ p ∈ shape.symbols, t.Issued p := by
  have hmember {types : List SymbolId} (htypes : shape.members.map (·.type) = types.map some)
      {p : SymbolId} (hp : p ∈ types) : t.Issued p := by
    obtain ⟨m, hm, hp⟩ := h.types htypes hp
    exact hclosed.type (hclosed.members h.issued hm) hp
  intro p hp
  cases shape with
  | array element rank | pointer element =>
    rw [List.mem_singleton.mp hp]
    exact hclosed.type h.issued (by rw [h.entry]; rfl)
  | constructed definition arguments =>
    rcases List.mem_cons.mp hp with rfl | hp
    · exact hclosed.definition h.issued (by rw [h.entry]; rfl)
    · exact hclosed.typeArguments h.issued (by rw [h.entry]; exact hp)
  | tuple types names =>
    exact hmember (map_tupleFields types names _ hfits (by simp [Shape.symbols])).1 hp
  | anonymous types names readOnly =>
    exact hmember (map_anonymousProperties types names readOnly _ hfits.1 hfits.2
      (by simp [Shape.symbols])).1 hp

end SymbolTable

namespace Compilation

variable {c c' : Compilation}

theorem Leads.fits (h : Leads c c') {shape : Shape} {s : SymbolId}
    (hlookup : c'.table.interned.lookup shape = some s) :
    c.table.interned.lookup shape = some s ∨ shape.Fits := by
  induction h with
  | refl => exact .inl hlookup
  | tail _ hstep ih =>
    obtain ⟨r, hrun⟩ := hstep
    rcases (asked_run hrun).fits hlookup with hold | hfits
    · exact ih hold
    · exact .inr hfits

/-- Requests may mention symbols that are issued later only, as long as they are in the end. -/
theorem Leads.grounded (h : Leads c c') (hgrounded : c.table.Grounded) (hclosed : c'.table.Closed) :
    c'.table.Grounded := by
  intro shape s hlookup
  cases hbefore : c.table.interned.lookup shape with
  | some s' => exact fun p hp => h.grows.issued (hgrounded shape s' hbefore p hp)
  -- an answer given on the way: the type's entries refer to all that the shape mentions
  | none =>
    have hfits : shape.Fits := (h.fits hlookup).resolve_left (by simp [hbefore])
    exact (h.traces.erected shape s ⟨hbefore, hlookup⟩).symbols_issued hfits hclosed

theorem Reachable.grounded (h : c.Reachable) : c.table.Grounded := by
  induction h with
  | made hmade => exact hmade.grounded
  | request h hissued hrun ih =>
    exact (Leads.request hrun).grounded ih (Reachable.request h hissued hrun).closed.table
  | resolved h hclean o k ih =>
    obtain ⟨-, hleads, hsound, -⟩ := k.resolveIn_again o ⟨h.closed, hclean⟩
    exact hleads.grounded ih hsound.closed.table

end Compilation

/-! ## Keys -/

namespace Key

open Decode (Faultless)

variable {o : ResolveOptions} {k : Key} {scene : Scene}

/-- The compilation that a key leaves behind knows what the key resolved to. -/
theorem resolveIn_knows (hsound : scene.Sound) {resolved : Resolved}
    (h : (k.resolveIn o scene).1 = .ok resolved) :
    (k.resolveIn o scene).2.compilation.Knows resolved := by
  by_cases hversion : k.version = currentVersion
  · obtain ⟨houtcome, hreached⟩ := resolveIn_eq (o := o) hversion hsound
    rw [houtcome, outcome] at h
    cases hdefect : k.defect? o with
    | some d =>
      rw [hdefect] at h
      cases h
    | none =>
      rw [hdefect] at h
      cases h
      rw [hreached hdefect]
      exact ((k.scanned o).1.locate_closed o [] _ hsound.closed (by simp)).2
  · simp only [resolveIn, checkVersion, hversion, if_false] at h
    cases h

end Key

namespace Resolver

/-- A batch in the making. -/
theorem go_ranges (r : Resolver) (keys : List Key) (scene : Scene) {now : Scene}
    (hreachable : now.compilation.Reachable) (hclean : now.arena.Clean) :
    ∃ (outcomes : List (Except Defect Resolved)) (after : Scene), resolveAll.go r scene keys now =
        (.ok outcomes, { r with arena := after.arena }, { after with arena := scene.arena }) ∧
      outcomes.length = keys.length ∧
      (∀ resolved, .ok resolved ∈ outcomes → after.compilation.Knows resolved) ∧
      now.compilation.Grows after.compilation ∧ after.compilation.Reachable ∧
          after.arena.Clean := by
  induction keys generalizing now with
  | nil => exact ⟨[], now, rfl, rfl, by simp, .refl _, hreachable, hclean⟩
  | cons k rest ih =>
    have hsound : now.Sound := ⟨hreachable.closed, hclean⟩
    obtain ⟨hfaultless, hleads, hsound', -⟩ := k.resolveIn_again r.options hsound
    obtain ⟨outcomes, after, hgo, hlength, hknows, hgrows, hreachable', hclean'⟩ :=
      ih (.resolved hreachable hclean r.options k) hsound'.clean
    -- what was known after this key is still known after the rest
    have hhead (resolved : Resolved) (h : (k.resolveIn r.options now).1 = .ok resolved) :
        after.compilation.Knows resolved := (Key.resolveIn_knows hsound h).later hgrows
    have hcons (outcome : Except Defect Resolved)
        (h : (k.resolveIn r.options now).1 = outcome.mapError .defect) :
        ∃ (outcomes : List (Except Defect Resolved)) (after : Scene), resolveAll.step outcome
            (resolveAll.go r scene rest (k.resolveIn r.options now).2) =
            (.ok outcomes, { r with arena := after.arena }, { after with arena := scene.arena }) ∧
          outcomes.length = (k :: rest).length ∧
          (∀ resolved, .ok resolved ∈ outcomes → after.compilation.Knows resolved) ∧
          now.compilation.Grows after.compilation ∧ after.compilation.Reachable ∧
          after.arena.Clean := by
      refine ⟨outcome :: outcomes, after, ?_, congrArg (· + 1) hlength,
        fun resolved hresolved => ?_, hleads.grows.trans hgrows, hreachable', hclean'⟩
      · rw [hgo]
        rfl
      · rcases List.mem_cons.mp hresolved with rfl | hresolved
        · exact hhead resolved h
        · exact hknows resolved hresolved
    rw [resolveAll.go]
    generalize k.resolveIn r.options now = run at *
    obtain ⟨outcome, middle⟩ := run
    cases outcome with
    | ok resolved => exact hcons (.ok resolved) rfl
    | error halt =>
      cases halt with
      | defect d => exact hcons (.error d) rfl
      | fault fault place => exact absurd rfl (hfaultless fault place)

/-- The same batch in one pass each. -/
theorem faultless_steps (o : ResolveOptions) (keys : List Key) {now : Scene}
    (hreachable : now.compilation.Reachable) (hclean : now.arena.Clean) :
    ∀ step ∈ steps o (keys.map fun k => { key := k }) now, Decode.Faultless step.outcome := by
  induction keys generalizing now with
  | nil => exact fun step hstep => nomatch hstep
  | cons k rest ih =>
    obtain ⟨hfaultless, -, hsound, -⟩ := k.resolveIn_again o ⟨hreachable.closed, hclean⟩
    rw [List.map_cons, steps_cons, Key.resolveThrough_own]
    intro step hstep
    rcases List.mem_cons.mp hstep with rfl | hstep
    · exact hfaultless
    · exact ih (.resolved hreachable hclean o k) hsound.clean step hstep

/-- A batch of any keys is decoded to its end in a compilation that was made from issued symbols,
and none of the passes faults: no symbol is looked up that was not issued, no reader goes ahead of
itself, and no difference falls below zero. Whatever the keys resolve to has been issued by the
compilation that is left, and so has all that its entries refer to, all that answers to requests for
structural types, and all that the shapes of these mention. The next batch may follow. -/
theorem resolveAll_ranges {scene : Scene} (hreachable : scene.compilation.Reachable) (r : Resolver)
    (hclean : r.arena.Clean) (keys : List Key) :
    ∃ outcomes r' after, r.resolveAll keys scene = (.ok outcomes, r', after) ∧
      outcomes.length = keys.length ∧
      (∀ step ∈ steps r.options (keys.map fun k => { key := k }) { scene with arena := r.arena },
        Decode.Faultless step.outcome) ∧
      (∀ resolution, .ok (.ok resolution) ∈ outcomes →
        ∀ s ∈ resolution.candidates, after.compilation.Issued s) ∧
      after.compilation.Closed ∧ after.compilation.table.Grounded ∧
      after.compilation.Reachable ∧ r'.arena.Clean := by
  have hnow : ({ scene with arena := r.arena } : Scene).compilation.Reachable := hreachable
  obtain ⟨outcomes, after, hgo, hlength, hknows, -, hreachable', hclean'⟩ :=
    r.go_ranges keys scene hnow hclean
  exact ⟨outcomes, _, _, hgo, hlength, faultless_steps r.options keys hnow hclean,
    fun resolution hresolution s hs => hknows _ hresolution resolution rfl s hs,
    hreachable'.closed, hreachable'.grounded, hreachable', hclean'⟩

/-- A batch of an array type that is built, frames that end too early, frames that are left over,
and a header that announces too much. -/
theorem resolveAll_ranges_batch :
    let object : List Frame :=
      [.kind .namedType, .kind .nameSpace, .bool true, .text (some "object"),
      .int 0, .array .absent 0]
    let keys : List Key := [.ofFrames (.kind .arrayType :: object ++ [.int 2]), .ofFrames [],
      .ofFrames (object ++ [.bool true]), .ofFrames [.kind .tupleType, .array .populated 7]]
    let scene : Scene := { compilation := Draft.empty.finish }
    ∃ after : Scene, (({} : Resolver).resolveAll keys scene).2.2 = after ∧
      (({} : Resolver).resolveAll keys scene).1 = .ok [.ok (.ok (.symbol ⟨5⟩)),
        .error (.truncated 0), .error (.trailing 1 6), .error (.overlong 1 7 0)] ∧
      after.compilation.Issued ⟨5⟩ ∧ after.compilation.Closed ∧
          after.compilation.table.Grounded := by
  intro object keys scene
  obtain ⟨outcomes, r', after, hrun, -, -, hissued, hclosed, hgrounded, -⟩ :=
    resolveAll_ranges (show scene.compilation.Reachable from .made (.finish .empty)) {}
      Arena.clean_empty keys
  have houtcomes : (({} : Resolver).resolveAll keys scene).1 = .ok [.ok (.ok (.symbol ⟨5⟩)),
      .error (.truncated 0), .error (.trailing 1 6), .error (.overlong 1 7 0)] := by decide +kernel
  refine ⟨after, by rw [hrun], houtcomes, ?_, hclosed, hgrounded⟩
  rw [hrun] at houtcomes
  cases houtcomes
  exact hissued (.symbol ⟨5⟩) List.mem_cons_self _ List.mem_cons_self

end Resolver
end Moniker
