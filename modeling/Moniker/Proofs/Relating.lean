import Mathlib.Data.List.Forall2
import Moniker.Proofs.Growth

/-!
# Outcomes that correspond

Two runs that number symbols differently come to outcomes that correspond: the same errors, and the
same kinds of values over related symbols. The relation between symbols is left open here. Where it
relates a symbol to one symbol only, in both directions, tests for equality answer the same on both
sides, and so do the searches that rest on them: dropping repetitions and looking for a place in a
list.
-/

namespace Moniker

open List Relator

/-- Two outcomes are the same error, or values that are related. -/
inductive SameOutcome {ε α β : Type} (R : α → β → Prop) : Except ε α → Except ε β → Prop
  | error (e : ε) : SameOutcome R (.error e) (.error e)
  | ok {a : α} {b : β} (h : R a b) : SameOutcome R (.ok a) (.ok b)

/-- Two resolutions are of the same kind, with related candidates in the same order. -/
inductive Resolution.Related {α β : Type} (R : α → β → Prop) : Resolution α → Resolution β → Prop
  | symbol {a : α} {b : β} (h : R a b) : Related R (.symbol a) (.symbol b)
  | ambiguous {as : List α} {bs : List β} (h : Forall₂ R as bs) :
    Related R (.ambiguous as) (.ambiguous bs)

section Relations

variable {ε α β γ δ : Type} {R R' : α → β → Prop} {S : γ → δ → Prop}

theorem SameOutcome.imp (h : ∀ a b, R a b → R' a b) {x : Except ε α} {y : Except ε β}
    (hxy : SameOutcome R x y) : SameOutcome R' x y := by
  cases hxy with
  | error e => exact .error e
  | ok hab => exact .ok (h _ _ hab)

theorem SameOutcome.bind {x : Except ε α} {y : Except ε β} {f : α → Except ε γ} {g : β → Except ε δ}
    (hxy : SameOutcome R x y) (hfg : ∀ a b, R a b → SameOutcome S (f a) (g b)) :
    SameOutcome S (x.bind f) (y.bind g) := by
  cases hxy with
  | error e => exact .error e
  | ok hab => exact hfg _ _ hab

theorem SameOutcome.exists_ok {a : α} {y : Except ε β} (h : SameOutcome R (.ok a) y) :
    ∃ b, y = .ok b ∧ R a b := by
  cases h with
  | ok hab => exact ⟨_, rfl, hab⟩

theorem SameOutcome.toOption {x : Except ε α} {y : Except ε β} (hxy : SameOutcome R x y) :
    Option.Rel R x.toOption y.toOption := by
  cases hxy with
  | error e => exact .none
  | ok hab => exact .some hab

theorem SameOutcome.part {x : Except Failure α} {y : Except Failure β} (hxy : SameOutcome R x y)
    (category : Category) (name : String) :
    SameOutcome R (Moniker.part category name x) (Moniker.part category name y) := by
  cases hxy with
  | error reason => exact .error _
  | ok hab => exact .ok hab

namespace Resolution

theorem Related.imp (h : ∀ a b, R a b → R' a b) {r : Resolution α} {r' : Resolution β}
    (hr : Related R r r') : Related R' r r' := by
  cases hr with
  | symbol hab => exact .symbol (h _ _ hab)
  | ambiguous hab => exact .ambiguous (hab.imp h)

theorem Related.candidates {r : Resolution α} {r' : Resolution β} (hr : Related R r r') :
    Forall₂ R r.candidates r'.candidates := by
  cases hr with
  | symbol hab => exact .cons hab .nil
  | ambiguous hab => exact hab

end Resolution

/-! ## Lists -/

theorem head?_related {as : List α} {bs : List β} (h : Forall₂ R as bs) :
    Option.Rel R as.head? bs.head? := by
  cases h with
  | nil => exact .none
  | cons hab _ => exact .some hab

theorem getElem?_related {as : List α} {bs : List β} (h : Forall₂ R as bs) (i : Nat) :
    Option.Rel R as[i]? bs[i]? := by
  induction h generalizing i with
  | nil => exact .none
  | cons hab _ ih =>
    cases i with
    | zero => exact .some hab
    | succ i => exact ih i

/-- The array of the elements, or the first failure, which has the same place on both sides. -/
theorem gathered_related {xs : List (Except Failure α)} {ys : List (Except Failure β)}
    (h : Forall₂ (SameOutcome R) xs ys) (index : Nat) :
    SameOutcome (Forall₂ R) (gathered index xs) (gathered index ys) := by
  induction h generalizing index with
  | nil => exact .ok .nil
  | cons hxy _ ih =>
    cases hxy with
    | error reason => exact .error _
    | ok hab =>
      show SameOutcome _ ((gathered (index + 1) _).bind _) ((gathered (index + 1) _).bind _)
      exact (ih (index + 1)).bind fun _ _ hrest => .ok (.cons hab hrest)

/-- What is made of the errors alone is the same. -/
theorem filterMap_outcomes {R : α → α → Prop} {f : Except ε α → Option γ}
    (hf : ∀ a b, f (.ok a) = f (.ok b)) {xs ys : List (Except ε α)}
    (h : Forall₂ (SameOutcome R) xs ys) : xs.filterMap f = ys.filterMap f := by
  induction h with
  | nil => rfl
  | cons hxy _ ih =>
    cases hxy with
    | error e => rw [filterMap_cons, filterMap_cons, ih]
    | @ok a b _ => rw [filterMap_cons, filterMap_cons, ih, hf a b]

section Unique

variable [DecidableEq α] [DecidableEq β] (hR : BiUnique R)
include hR

theorem beq_related {a a' : α} {b b' : β} (h : R a b) (h' : R a' b') : (a == a') = (b == b') := by
  rw [Bool.eq_iff_iff, beq_iff_eq, beq_iff_eq]
  exact rel_eq hR h h'

theorem list_beq_related {as as' : List α} {bs bs' : List β} (h : Forall₂ R as bs)
    (h' : Forall₂ R as' bs') : (as == as') = (bs == bs') := by
  rw [Bool.eq_iff_iff, beq_iff_eq, beq_iff_eq]
  exact rel_eq hR.forall₂ h h'

theorem idxOf?_related {as : List α} {bs : List β} (h : Forall₂ R as bs) {a : α} {b : β}
    (hab : R a b) : as.idxOf? a = bs.idxOf? b := by
  induction h with
  | nil => rfl
  | cons hhead _ ih => rw [idxOf?_cons, idxOf?_cons, ih, beq_related hR hhead hab]

theorem eraseDups_related {as : List α} {bs : List β} (h : Forall₂ R as bs) :
    Forall₂ R as.eraseDups bs.eraseDups := by
  -- what stays is looked through again, so the induction is on the length
  induction hn : as.length using Nat.strongRecOn generalizing as bs with
  | ind n ih =>
    cases h with
    | nil => exact .nil
    | @cons a b as bs hhead htail =>
      rw [eraseDups_cons, eraseDups_cons]
      have hrest : Forall₂ R (as.filter fun a' => !a' == a) (bs.filter fun b' => !b' == b) := by
        refine rel_filter (fun a' b' hab => ?_) htail
        show (!a' == a) = true ↔ (!b' == b) = true
        rw [beq_related hR hab hhead]
      have hlt : (as.filter fun a' => !a' == a).length < n := by
        have := length_filter_le (fun a' => !a' == a) as
        rw [length_cons] at hn
        omega
      exact .cons hhead (ih _ hlt hrest rfl)

theorem ofCandidates_related {as : List α} {bs : List β} (h : Forall₂ R as bs) (missing : Failure) :
    SameOutcome (Resolution.Related R) (Resolution.ofCandidates as missing)
      (Resolution.ofCandidates bs missing) := by
  unfold Resolution.ofCandidates
  generalize as.eraseDups = each, bs.eraseDups = each', eraseDups_related hR h = heach
  cases heach with
  | nil => exact .error _
  | cons hab hrest =>
    cases hrest with
    | nil => exact .ok (.symbol hab)
    | cons hab' hrest => exact .ok (.ambiguous (.cons hab (.cons hab' hrest)))

end Unique

end Relations

variable {R : SymbolId → SymbolId → Prop}

/-- The first candidates correspond. -/
theorem first_related {x y : Resolved} (h : SameOutcome (Resolution.Related R) x y) :
    SameOutcome R (Decode.first x) (Decode.first y) := by
  cases h with
  | error reason => exact .error reason
  | @ok r r' hr =>
    simp only [Decode.first, Resolution.any?, bind, Except.bind]
    generalize r.candidates.head? = s, r'.candidates.head? = s', head?_related hr.candidates =
      hfirst
    cases hfirst with
    | none => exact .error _
    | some hab => exact .ok hab

end Moniker
