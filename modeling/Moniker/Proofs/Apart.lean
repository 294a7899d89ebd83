import Moniker.Proofs.Programs
import Moniker.Proofs.Soundness

/-!
# Different members stay apart

What is found for the key of a symbol has that key again, but for what is lost on the way: the
contents of location entries, and the anonymous types that the cap of the program rejects, for which
the root type stands (`Key.candidates_outlined`). So two keys that still differ after that have no
candidate in common, neither if they are resolved one after the other nor if each is resolved on a
copy of the same program (`Key.candidates_apart`).

Keys that differ in nothing else do meet: overloads told apart by their anonymous types alone are
one method where the cap rejects these types (`Key.overloads_meet`).
-/

namespace Moniker

namespace Key

variable {c c' c₁ : Compilation} {s s₁ s₂ : SymbolId} {scene : Scene}

/-- The outline of a symbol's key with the root type in place of the anonymous types that the cap
rejects. -/
def outlineWithin (cap : Option Nat) (c : Compilation) (s : SymbolId) : Except Fault Key := do
  return ofFrames ((← Description.ofSymbol c [] s).capped cap).withoutLocations.frames

/-- A symbol keeps its outline in later states. -/
theorem outline_later (h : c.Lawful) (hgrows : c.Grows c') (h' : c'.Lawful) (hs : c.Issued s) :
    outline c' s = outline c s := by
  obtain ⟨d, hd, hdescribes, -⟩ := Description.describes_ofSymbol h hs
  obtain ⟨d', hd', hdescribes', -⟩ := Description.describes_ofSymbol h' (hgrows.issued hs)
  have hsame := hdescribes'.unique (hdescribes.grows hgrows h.closed hs)
  rw [outline, outline, hd, hd']
  show Except.ok (ofFrames _) = Except.ok (ofFrames _)
  rw [← Description.frames_clipped_withoutLocations d', hsame,
    Description.frames_clipped_withoutLocations]

/-- Every symbol of a program has a key, and whatever a case-sensitive resolution of it finds has as
its outline what the cap on anonymous types leaves of that key. -/
theorem candidates_outlined (h₁ : c₁.Lawful) (hsize : c₁.size < UInt32.size) (hscoped : c₁.Scoped)
    (hs : c₁.Issued s₁) :
    ∃ k, ofSymbol c₁ s₁ = .ok k ∧ ∀ (o : ResolveOptions) (scene : Scene), o.ignoreCase = false →
      scene.compilation.Lawful → scene.compilation.FallsBack →
      ∀ r, (k.resolve o scene).1 = .ok (.ok r) →
        scene.compilation.Grows (k.resolve o scene).2.compilation ∧
        (k.resolve o scene).2.compilation.Lawful ∧
        ∀ s ∈ r.candidates, (k.resolve o scene).2.compilation.Issued s ∧
          outline (k.resolve o scene).2.compilation s =
            outlineWithin scene.compilation.table.maxAnonymousArity c₁ s₁ := by
  obtain ⟨d, k, hd, hdescribes, hkey, -, hresolve⟩ := resolve_ofSymbol h₁ hs hsize
  refine ⟨k, hkey, fun o scene hcase h hback r hr => ?_⟩
  obtain ⟨hlocate, hafter⟩ := hresolve o scene h.closed (.inl ⟨_, hr⟩)
  rw [hlocate] at hr
  obtain ⟨hgrows, hlawful, hissued⟩ :=
    hdescribes.later (o := o) h₁ hs h (Description.issued_nil scene.compilation)
  rw [hafter]
  refine ⟨hgrows, hlawful, fun s hs' => ?_⟩
  have hfound : s ∈ d.clipped.finds o [] scene.compilation :=
    Decode.mem_candidates.mpr ⟨r, Except.ok.inj hr, hs'⟩
  refine ⟨hissued s hfound, ?_⟩
  obtain ⟨d', hd', heq⟩ :=
    hdescribes.fitsCapped h₁ hcase hscoped hs [] scene.compilation .outside h hback s hfound
  -- what fits the candidate is the description that its own key is made from
  obtain ⟨d₂, hd₂, hdescribes₂, -⟩ := Description.describes_ofSymbol hlawful (hissued s hfound)
  obtain rfl := hdescribes₂.unique hd'
  rw [outline, outlineWithin, hd, hd₂]
  show Except.ok (ofFrames _) = Except.ok (ofFrames _)
  rw [← Description.frames_clipped_withoutLocations, heq, Description.frames_capped_clipped]

/-- Two symbols whose keys differ in more than location entries and anonymous types beyond the cap
have keys without a common candidate. That holds if one is resolved after the other, and for the
symbols of the program that both are resolved in if each of them is resolved there first. -/
theorem candidates_apart (hmade₁ : c₁.Made Request.Contained) (hsize : c₁.size < UInt32.size)
    (hscoped : c₁.Scoped) (hs₁ : c₁.Issued s₁) (hs₂ : c₁.Issued s₂)
    (hmade : scene.compilation.Made Request.Contained)
    (hdiffer : outlineWithin scene.compilation.table.maxAnonymousArity c₁ s₁ ≠
      outlineWithin scene.compilation.table.maxAnonymousArity c₁ s₂) :
    ∃ k₁ k₂, ofSymbol c₁ s₁ = .ok k₁ ∧ ofSymbol c₁ s₂ = .ok k₂ ∧
      ∀ o₁ o₂ : ResolveOptions, o₁.ignoreCase = false → o₂.ignoreCase = false →
      ∀ r₁, (k₁.resolve o₁ scene).1 = .ok (.ok r₁) →
        (∀ r₂, (k₂.resolve o₂ (k₁.resolve o₁ scene).2).1 = .ok (.ok r₂) →
          ∀ s, ¬ (s ∈ r₁.candidates ∧ s ∈ r₂.candidates)) ∧
        ∀ scene' : Scene, scene'.compilation = scene.compilation →
          ∀ r₂, (k₂.resolve o₂ scene').1 = .ok (.ok r₂) →
            ∀ s, scene.compilation.Issued s → ¬ (s ∈ r₁.candidates ∧ s ∈ r₂.candidates) := by
  have h := hmade.lawful
  have hback := hmade.fallsBack
  obtain ⟨k₁, hkey₁, houtlined₁⟩ := candidates_outlined hmade₁.lawful hsize hscoped hs₁
  obtain ⟨k₂, hkey₂, houtlined₂⟩ := candidates_outlined hmade₁.lawful hsize hscoped hs₂
  refine ⟨k₁, k₂, hkey₁, hkey₂, fun o₁ o₂ hcase₁ hcase₂ r₁ hr₁ => ⟨?_, ?_⟩⟩
  · rintro r₂ hr₂ s ⟨hs₁, hs₂⟩
    obtain ⟨hgrows₁, hlawful₁, hfound₁⟩ := houtlined₁ o₁ scene hcase₁ h hback r₁ hr₁
    obtain ⟨hissued, hsame₁⟩ := hfound₁ s hs₁
    obtain ⟨hgrows₂, hlawful₂, hfound₂⟩ :=
      houtlined₂ o₂ _ hcase₂ hlawful₁ (hback.later hgrows₁ h.closed) r₂ hr₂
    obtain ⟨-, hsame₂⟩ := hfound₂ s hs₂
    rw [outline_later hlawful₁ hgrows₂ hlawful₂ hissued, hsame₁, hgrows₁.table.limit] at hsame₂
    exact hdiffer hsame₂
  · rintro scene' hscene r₂ hr₂ s hissued ⟨hs₁, hs₂⟩
    obtain ⟨hgrows₁, hlawful₁, hfound₁⟩ := houtlined₁ o₁ scene hcase₁ h hback r₁ hr₁
    obtain ⟨hgrows₂, hlawful₂, hfound₂⟩ :=
      houtlined₂ o₂ scene' hcase₂ (hscene ▸ h) (hscene ▸ hback) r₂ hr₂
    rw [hscene] at hgrows₂ hfound₂
    have hsame₁ := (hfound₁ s hs₁).2
    have hsame₂ := (hfound₂ s hs₂).2
    rw [outline_later h hgrows₁ hlawful₁ hissued] at hsame₁
    rw [outline_later h hgrows₂ hlawful₂ hissued] at hsame₂
    exact hdiffer (hsame₁.symm.trans hsame₂)

end Key

/-- A program without type parameters is scoped. -/
theorem Compilation.scoped_of_kinds {c : Compilation}
    (h : ∀ x ∈ c.table.symbols, x.kind ≠ .typeParameter) : c.Scoped := by
  intro m _ _ t _ a _ hparameter
  refine absurd hparameter ?_
  show (c.table.entry a).kind ≠ .typeParameter
  unfold SymbolTable.entry
  cases hentry : c.table.symbols[a.index]? with
  | none => simp
  | some x => exact h x (Array.mem_of_getElem? hentry)

namespace Draft

/-- A class `C` with two methods `m`, which take anonymous types that differ in the name of their
property. -/
def overloads : Draft :=
  ofRequests [.namedType global "C" [], .structural (.anonymous [int] ["a"] [false] [.nowhere]),
    .structural (.anonymous [int] ["b"] [false] [.nowhere]), .method ⟨5⟩ "m" [],
    .parameter ⟨10⟩ "x" ⟨6⟩, .method ⟨5⟩ "m" [], .parameter ⟨12⟩ "x" ⟨8⟩]

/-- A class `C` with a method `m` that takes an object, under a cap that allows no properties. -/
def narrow : Draft :=
  ofRequests [.limitAnonymousArity 0, .namedType global "C" [], .method ⟨5⟩ "m" [],
    .parameter ⟨6⟩ "x" object]

theorem made_overloads : overloads.Made Request.Contained := made_ofRequests (by decide)

theorem made_narrow : narrow.Made Request.Contained := made_ofRequests (by decide)

theorem scoped_overloads : overloads.finish.Scoped := Compilation.scoped_of_kinds (by decide)

theorem scoped_narrow : narrow.finish.Scoped := Compilation.scoped_of_kinds (by decide)

/-- What describes the overload whose anonymous type has a property of the name. -/
def overload (property : String) : Description :=
  .method (.namedType .global (.ok "C") (.ok 0) (.ok .absent) []) (.ok "m") (.ok 0) (.ok .populated)
    [.anonymousType (.ok .populated) [.namedType .global (.ok "int") (.ok 0) (.ok .absent) []]
      (.ofValues [some property]) (.ofValues [false]) (.ofValues [.nowhere])]

/-- Frames can hold what describes an overload. -/
theorem shaped_overload (property : String) (n : Nat) : (overload property).Shaped (n + 4) := by
  have hplain (name : String) (n : Nat) :
      (Description.namedType .global (.ok name) (.ok 0) (.ok .absent) []).Shaped (n + 2) :=
    .namedType .global (Nat.zero_le _) ⟨by decide, by decide⟩ (by simp)
  have hone : Frame.FitsHeader .populated 1 := ⟨by decide, by decide⟩
  refine .method (hplain "C" (n + 1)) (Nat.zero_le _) hone fun d hd => ?_
  rw [List.mem_singleton.mp hd]
  refine .anonymousType hone (fun d hd => ?_) ?_ ?_ ?_
  · rw [List.mem_singleton.mp hd]
    exact hplain "int" n
  · exact Description.shaped_ofValues (show 1 < UInt32.size by decide) fun _ _ => trivial
  · exact Description.shaped_ofValues (show 1 < UInt32.size by decide) fun _ _ => trivial
  · exact Description.shaped_ofValues (by decide) (by simp [Location.Fits])

end Draft

namespace Key

open Draft

/-- In the narrow program a key is resolved by locating the description that its frames hold. -/
theorem resolve_narrow {d : Description} {resolved : Resolved} (hshaped : d.Shaped 64)
    (hlocate : (d.locate {} [] narrow.finish).1 = resolved) :
    ((ofFrames d.frames).resolve {} { compilation := narrow.finish }).1 = .ok resolved := by
  have hmade : narrow.finish.Made Request.Contained := .finish made_narrow
  have husable : (ofFrames d.frames).defect? {} = none :=
    (defect?_eq_none_iff rfl).mpr (Grammar.derives_frames hshaped)
  rw [(resolve_of_frames hshaped rfl rfl hmade.lawful.closed husable).1, hlocate]

theorem resolve_overload (property : String) :
    ((ofFrames (overload property).frames).resolve {} { compilation := narrow.finish }).1 =
      .ok (.ok (.symbol ⟨6⟩)) :=
  resolve_narrow (shaped_overload property 60) rfl

/-- The key of an overload and that of its parameter lead to different symbols of the narrow
program, although the cap rejects the type in them. -/
theorem candidates_apart_narrow :
    ∃ k₁ k₂, ofSymbol overloads.finish ⟨10⟩ = .ok k₁ ∧ ofSymbol overloads.finish ⟨11⟩ = .ok k₂ ∧
      (k₁.resolve {} { compilation := narrow.finish }).1 = .ok (.ok (.symbol ⟨6⟩)) ∧
      (k₂.resolve {} { compilation := narrow.finish }).1 = .ok (.ok (.symbol ⟨7⟩)) ∧
      ∀ s, narrow.finish.Issued s →
        ¬ (s ∈ (Resolution.symbol ⟨6⟩ : Resolution SymbolId).candidates ∧
        s ∈ (Resolution.symbol ⟨7⟩ : Resolution SymbolId).candidates) := by
  have hmade : narrow.finish.Made Request.Contained := .finish made_narrow
  obtain ⟨k₁, k₂, hk₁, hk₂, hapart⟩ := @candidates_apart overloads.finish ⟨10⟩ ⟨11⟩
    { compilation := narrow.finish } (.finish made_overloads) (by decide) scoped_overloads
    (show 10 < 14 from by decide) (show 11 < 14 from by decide) hmade (by decide)
  have hsame₁ : k₁ = ofFrames (overload "a").frames := Except.ok.inj (hk₁.symm.trans rfl)
  have hsame₂ : k₂ = ofFrames (Description.parameter (overload "a") (.ok "x")).frames :=
    Except.ok.inj (hk₂.symm.trans rfl)
  have hmethod : (k₁.resolve {} { compilation := narrow.finish }).1 = .ok (.ok (.symbol ⟨6⟩)) := by
    rw [hsame₁]
    exact resolve_overload "a"
  have hparameter : (k₂.resolve {} { compilation := narrow.finish }).1 =
      .ok (.ok (.symbol ⟨7⟩)) := by
    rw [hsame₂]
    exact resolve_narrow (.parameter (shaped_overload "a" 59)) rfl
  exact ⟨k₁, k₂, hk₁, hk₂, hmethod, hparameter,
    (hapart {} {} rfl rfl _ hmethod).2 _ rfl _ hparameter⟩

/-- The overloads differ, but the keys of both are resolved to the one method of the narrow program,
which takes the root type. -/
theorem overloads_meet :
    overloads.finish.Made Request.Contained ∧ overloads.finish.Scoped ∧
      narrow.finish.Made Request.Contained ∧ narrow.finish.Scoped ∧
      (overloads.finish.Issued ⟨10⟩ ∧ (overloads.finish.entry ⟨10⟩).kind = .method) ∧
      (overloads.finish.Issued ⟨12⟩ ∧ (overloads.finish.entry ⟨12⟩).kind = .method) ∧
      outline overloads.finish ⟨10⟩ ≠ outline overloads.finish ⟨12⟩ ∧
      ∃ k₁ k₂, ofSymbol overloads.finish ⟨10⟩ = .ok k₁ ∧ ofSymbol overloads.finish ⟨12⟩ = .ok k₂ ∧
        (k₁.resolve {} { compilation := narrow.finish }).1 = .ok (.ok (.symbol ⟨6⟩)) ∧
        (k₂.resolve {} { compilation := narrow.finish }).1 = .ok (.ok (.symbol ⟨6⟩)) := by
  have hdiffer : ofFrames (overload "a").frames ≠ ofFrames (overload "b").frames := by decide
  refine ⟨.finish made_overloads, scoped_overloads, .finish made_narrow, scoped_narrow,
    ⟨show 10 < 14 from by decide, rfl⟩, ⟨show 12 < 14 from by decide, rfl⟩, ?_, _, _, rfl, rfl,
    resolve_overload "a", resolve_overload "b"⟩
  intro hsame
  exact hdiffer (Except.ok.inj hsame)

end Key
end Moniker
