import Moniker.Resolution

/-!
# Candidates

Collapsing what a lookup found loses repetitions only: every symbol found is a candidate, the
first one found is the first candidate, and a lookup that found one symbol over and over comes
to that symbol.
-/

namespace Moniker.Resolution

variable {α : Type} [DecidableEq α] {found : List α} {missing : Failure} {r : Resolution α}

theorem candidates_ofCandidates (h : ofCandidates found missing = .ok r) :
    r.candidates = found.eraseDups := by
  unfold ofCandidates at h
  split at h
  · cases h
  · next heq => cases h; exact heq.symm
  · cases h; rfl

theorem nodup_eraseDups (found : List α) : found.eraseDups.Nodup := by
  cases found with
  | nil => exact .nil
  | cons a rest =>
    rw [List.eraseDups_cons, List.nodup_cons, List.mem_eraseDups, List.mem_filter]
    exact ⟨fun hmem => by simp at hmem, nodup_eraseDups _⟩
termination_by found.length
decreasing_by exact Nat.lt_succ_of_le (List.length_filter_le _ _)

theorem nodup_ofCandidates (h : ofCandidates found missing = .ok r) : r.candidates.Nodup := by
  rw [candidates_ofCandidates h]
  exact nodup_eraseDups found

theorem error_ofCandidates {reason : Failure} (h : ofCandidates found missing = .error reason) :
    reason = missing := by
  unfold ofCandidates at h
  split at h <;> cases h
  rfl

theorem mem_ofCandidates (h : ofCandidates found missing = .ok r) {s : α} :
    s ∈ r.candidates ↔ s ∈ found := by
  rw [candidates_ofCandidates h, List.mem_eraseDups]

theorem ofCandidates_of_mem {s : α} (hs : s ∈ found) (missing : Failure) :
    ∃ r, ofCandidates found missing = .ok r := by
  have hs : s ∈ found.eraseDups := List.mem_eraseDups.mpr hs
  unfold ofCandidates
  split
  · next heq => simp [heq] at hs
  · exact ⟨_, rfl⟩
  · exact ⟨_, rfl⟩

omit [DecidableEq α] in
theorem eraseDups_eq_singleton [BEq α] [LawfulBEq α] {found : List α} {s : α}
    (h : ∀ a, a ∈ found ↔ a = s) : found.eraseDups = [s] := by
  cases found with
  | nil => cases (h s).mpr rfl
  | cons a rest =>
      obtain rfl := (h a).mp (by simp)
      have hnone : (rest.filter fun b => !b == a) = [] := by
        refine List.filter_eq_nil_iff.mpr fun b hb => ?_
        simp [(h b).mp (by simp [hb])]
      rw [List.eraseDups_cons, hnone, List.eraseDups_nil]

/-- Several candidates are never just one. -/
theorem length_ofCandidates {several : List α}
    (h : ofCandidates found missing = .ok (.ambiguous several)) : several.length ≠ 1 := by
  unfold ofCandidates at h
  split at h
  · cases h
  · cases h
  · next hsome =>
      cases h
      intro hone
      obtain ⟨s, hs⟩ := List.length_eq_one_iff.mp hone
      exact hsome s hs

omit [DecidableEq α] in
theorem any?_mem {s : α} (h : r.any? = some s) : s ∈ r.candidates := List.mem_of_head? h

end Moniker.Resolution
