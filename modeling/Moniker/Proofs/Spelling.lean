import Mathlib.Algebra.Group.Nat.Defs
import Mathlib.Data.List.Basic
import Moniker.Text.Utf8

/-!
# One spelling for every text

The octet machine accepts exactly the octets that the writer emits: a character has one
encoding, and a text is the row of the encodings of its characters. So reading undoes writing
and writing undoes reading.

What the machine knows of a character under way is which octets it still owes.
`Pending.complete?` says which scalar value those lead to, and `lead_iff` compares that value
with the encoding of a single character. The rest is induction over the characters.
-/

namespace Moniker

theorem map_eq_ok {α β ε : Type} {f : α → β} {x : Except ε α} {b : β} :
    x.map f = .ok b ↔ ∃ a, x = .ok a ∧ f a = b := by
  cases x <;> simp [Except.map]

namespace Text.Utf8

/-- The scalar value of the character under way, if `tail` is exactly what is owed of it. -/
def Pending.complete? (p : Pending) : List UInt8 → Option Nat
  | [] => if p.owed = 0 then some p.bits else none
  | octet :: tail => if p.owed = 0 then none else (p.next octet.toNat).bind (·.complete? tail)

/-- The first octets of characters, by the number of octets they owe. Only the second octet of a
character can be confined further than the others. -/
theorem Pending.ofLead_eq_some {octet : Nat} {p : Pending} :
    ofLead octet = some p ↔
      (octet < 0x80 ∧ p = ⟨1, 0, 0x80, 0xBF, octet⟩) ∨
      ((0xC2 ≤ octet ∧ octet ≤ 0xDF) ∧ p = ⟨1, 1, 0x80, 0xBF, octet - 0xC0⟩) ∨
      ((0xE0 ≤ octet ∧ octet ≤ 0xEF) ∧
        p = ⟨1, 2, if octet = 0xE0 then 0xA0 else 0x80, if octet = 0xED then 0x9F else 0xBF,
          octet - 0xE0⟩) ∨
      ((0xF0 ≤ octet ∧ octet ≤ 0xF4) ∧
        p = ⟨1, 3, if octet = 0xF0 then 0x90 else 0x80, if octet = 0xF4 then 0x8F else 0xBF,
          octet - 0xF0⟩) := by
  unfold ofLead
  grind

/-- The last `n` octets of the encoding of a scalar value that takes more than `n`, as numbers. -/
def trail : Nat → Nat → List Nat
  | 0, _ => []
  | n + 1, v => (0x80 + v / 64 ^ n % 64) :: trail n v

/-- The octets that a scalar value is encoded as, as numbers. -/
def scalarOctets (v : Nat) : List Nat :=
  if v ≤ 0x7F then v :: trail 0 v
  else if v ≤ 0x7FF then (0xC0 + v / 64) :: trail 1 v
  else if v ≤ 0xFFFF then (0xE0 + v / 4096) :: trail 2 v
  else (0xF0 + v / 262144) :: trail 3 v

theorem encodeChar_ofNat {v : Nat} (h : v.isValidChar) :
    (String.utf8EncodeChar (Char.ofNat v)).map UInt8.toNat = scalarOctets v := by
  have hv : (Char.ofNat v).val.toNat = v := by
    show (Char.ofNat v).toNat = v
    rw [Char.ofNat, dif_pos h]
    rfl
  unfold String.utf8EncodeChar scalarOctets
  simp only [hv]
  unfold Nat.isValidChar at h
  split_ifs <;> simp [trail] <;> omega

theorem Pending.complete?_cons {p : Pending} {octet : UInt8} {tail : List UInt8} {v : Nat} :
    p.complete? (octet :: tail) = some v ↔
      p.owed ≠ 0 ∧ (p.low ≤ octet.toNat ∧ octet.toNat ≤ p.high) ∧
        complete? ⟨p.seen + 1, p.owed - 1, 0x80, 0xBF, p.bits * 64 + (octet.toNat - 0x80)⟩ tail =
          some v := by
  by_cases h : p.owed = 0 <;>
    by_cases hr : p.low ≤ octet.toNat ∧ octet.toNat ≤ p.high <;> simp [complete?, next, h, hr]

theorem Pending.complete?_nil {p : Pending} {v : Nat} :
    p.complete? [] = some v ↔ p.owed = 0 ∧ p.bits = v := by
  by_cases h : p.owed = 0 <;> simp [complete?, h]

theorem Pending.complete?_done {seen low high bits v : Nat} {tail : List UInt8} :
    complete? ⟨seen, 0, low, high, bits⟩ tail = some v ↔
      tail.map UInt8.toNat = trail 0 v ∧ bits = v := by
  cases tail <;> simp [complete?, trail]

/-- What is owed is the last octets of the encoding. All but the first of them are in one range, and
each adds six bits to the value. -/
theorem Pending.complete?_trail {seen n low high bits v : Nat} {tail : List UInt8}
    (hlow : 0x80 ≤ low) (hhigh : high ≤ 0xBF) :
    complete? ⟨seen, n + 1, low, high, bits⟩ tail = some v ↔
      tail.map UInt8.toNat = trail (n + 1) v ∧ bits = v / 64 ^ (n + 1) ∧
        low ≤ 0x80 + v / 64 ^ n % 64 ∧ 0x80 + v / 64 ^ n % 64 ≤ high := by
  induction n generalizing seen low high bits tail with
  | zero =>
    match tail with
    | [] => simp [complete?, trail]
    | [octet] => simp [complete?_cons, complete?_nil, trail]; omega
    | octet :: _ :: _ => simp [complete?_cons, trail]
  | succ n ih =>
    cases tail with
    | nil => simp [complete?, trail]
    | cons octet tail =>
      have hdiv : v / 64 ^ (n + 2) = v / 64 ^ (n + 1) / 64 := by
        rw [Nat.div_div_eq_div_mul, ← Nat.pow_succ]
      have hlast : v / 64 ^ n % 64 < 64 := Nat.mod_lt _ (by decide)
      have htrail : trail (n + 2) v = (0x80 + v / 64 ^ (n + 1) % 64) :: trail (n + 1) v := rfl
      simp only [complete?_cons, Nat.add_sub_cancel, ih (Nat.le_refl _) (Nat.le_refl _),
        List.map_cons, htrail, List.cons.injEq, hdiv]
      constructor
      · rintro ⟨-, hrange, htail, hbits, -⟩
        exact ⟨⟨by omega, htail⟩, by omega, by omega, by omega⟩
      · rintro ⟨⟨hoctet, htail⟩, hbits, hrange⟩
        exact ⟨Nat.succ_ne_zero _, by omega, htail, by omega, by omega, by omega⟩

/-- The encodings, by the number of octets after the first. -/
theorem scalarOctets_iff {v lead : Nat} {tail : List Nat} :
    v.isValidChar ∧ lead :: tail = scalarOctets v ↔
      (tail = trail 0 v ∧ v < 0x80 ∧ lead = v) ∨
      (tail = trail 1 v ∧ (0x80 ≤ v ∧ v < 0x800) ∧ lead = 0xC0 + v / 64) ∨
      (tail = trail 2 v ∧ (0x800 ≤ v ∧ v < 0xD800 ∨ 0xE000 ≤ v ∧ v < 0x10000) ∧
        lead = 0xE0 + v / 4096) ∨
      (tail = trail 3 v ∧ (0x10000 ≤ v ∧ v < 0x110000) ∧ lead = 0xF0 + v / 262144) := by
  unfold scalarOctets Nat.isValidChar
  split_ifs <;> simp only [List.cons.injEq] <;> grind

/-- A first octet, with the octets owed after it, leads to the scalar value that they are the
encoding of, and to no other. -/
theorem lead_iff (lead : UInt8) (tail : List UInt8) (v : Nat) :
    (∃ p, Pending.ofLead lead.toNat = some p ∧ p.complete? tail = some v) ↔
      v.isValidChar ∧ lead :: tail = String.utf8EncodeChar (Char.ofNat v) := by
  have encoded : v.isValidChar ∧ lead :: tail = String.utf8EncodeChar (Char.ofNat v) ↔
      v.isValidChar ∧ (lead :: tail).map UInt8.toNat = scalarOctets v := by
    have hinj : Function.Injective UInt8.toNat := fun _ _ => UInt8.toNat_inj.mp
    refine and_congr_right fun h => ?_
    rw [← encodeChar_ofNat h]
    exact (List.map_injective_iff.mpr hinj).eq_iff.symm
  rw [encoded, List.map_cons, scalarOctets_iff]
  constructor
  · rintro ⟨p, hp, hp'⟩
    obtain ⟨hlead, rfl⟩ | ⟨hlead, rfl⟩ | ⟨hlead, rfl⟩ | ⟨hlead, rfl⟩ :=
      Pending.ofLead_eq_some.mp hp
    · obtain ⟨ht, hv⟩ := Pending.complete?_done.mp hp'
      exact .inl ⟨ht, by omega, hv⟩
    · obtain ⟨ht, hv⟩ := (Pending.complete?_trail (by decide) (by decide)).mp hp'
      exact .inr (.inl ⟨ht, by omega⟩)
    · obtain ⟨ht, hv⟩ :=
        (Pending.complete?_trail (by split <;> decide) (by split <;> decide)).mp hp'
      exact .inr (.inr (.inl ⟨ht, by split_ifs at hv <;> omega⟩))
    · obtain ⟨ht, hv⟩ :=
        (Pending.complete?_trail (by split <;> decide) (by split <;> decide)).mp hp'
      exact .inr (.inr (.inr ⟨ht, by split_ifs at hv <;> omega⟩))
  · rintro (⟨ht, hv, hlead⟩ | ⟨ht, hv, hlead⟩ | ⟨ht, hv, hlead⟩ | ⟨ht, hv, hlead⟩)
    · exact ⟨_, Pending.ofLead_eq_some.mpr (.inl ⟨by omega, rfl⟩),
        Pending.complete?_done.mpr ⟨ht, hlead⟩⟩
    · exact ⟨_, Pending.ofLead_eq_some.mpr (.inr (.inl ⟨by omega, rfl⟩)),
        (Pending.complete?_trail (by decide) (by decide)).mpr ⟨ht, by omega⟩⟩
    · exact ⟨_, Pending.ofLead_eq_some.mpr (.inr (.inr (.inl ⟨by omega, rfl⟩))),
        (Pending.complete?_trail (by split <;> decide) (by split <;> decide)).mpr
          ⟨ht, by split_ifs <;> omega⟩⟩
    · exact ⟨_, Pending.ofLead_eq_some.mpr (.inr (.inr (.inr ⟨by omega, rfl⟩))),
        (Pending.complete?_trail (by split <;> decide) (by split <;> decide)).mpr
          ⟨ht, by split_ifs <;> omega⟩⟩

theorem Pending.seen_ofLead {octet : Nat} {p : Pending} (h : ofLead octet = some p) :
    p.seen = 1 := by
  obtain ⟨-, rfl⟩ | ⟨-, rfl⟩ | ⟨-, rfl⟩ | ⟨-, rfl⟩ := ofLead_eq_some.mp h <;> rfl

theorem Pending.seen_next {p q : Pending} {octet : Nat} (h : p.next octet = some q) :
    q.seen = p.seen + 1 := by
  unfold next at h
  split at h <;> cases h
  rfl

theorem settle_done {p : Pending} (h : p.owed = 0) (start : Nat) (octets : List UInt8) :
    decodeFrom.settle start octets p =
      (decodeFrom (start + p.seen) none octets).map (Char.ofNat p.bits :: ·) := by
  simp only [decodeFrom.settle, h, if_true]

theorem settle_owing {p : Pending} (h : p.owed ≠ 0) (start : Nat) (octet : UInt8)
    (octets : List UInt8) :
    decodeFrom.settle start (octet :: octets) p =
      match p.next octet.toNat with
      | none => .error (.sequence p.seen start)
      | some q => decodeFrom.settle start octets q := by
  cases hnext : p.next octet.toNat <;> simp [decodeFrom.settle, h, decodeFrom, hnext]

/-- A character under way is read as soon as the octets owed of it have come. -/
theorem settle_append {p : Pending} {tail : List UInt8} {v : Nat}
    (h : p.complete? tail = some v) (start : Nat) (rest : List UInt8) :
    decodeFrom.settle start (tail ++ rest) p =
      (decodeFrom (start + p.seen + tail.length) none rest).map (Char.ofNat v :: ·) := by
  induction tail generalizing p with
  | nil =>
    obtain ⟨howed, rfl⟩ := Pending.complete?_nil.mp h
    exact settle_done howed start rest
  | cons octet tail ih =>
    by_cases howed : p.owed = 0
    · simp [Pending.complete?, howed] at h
    · rw [Pending.complete?, if_neg howed, Option.bind_eq_some_iff] at h
      obtain ⟨q, hq, hv⟩ := h
      have hseen : q.seen = p.seen + 1 := Pending.seen_next hq
      rw [List.cons_append, settle_owing howed, hq]
      simp only [ih hv, hseen, List.length_cons]
      congr 2
      omega

/-- A character under way is read from no other octets than those owed of it. -/
theorem exists_of_settle_eq_ok {start : Nat} {octets : List UInt8} {p : Pending}
    {cs : List Char} (h : decodeFrom.settle start octets p = .ok cs) :
    ∃ tail v rest, octets = tail ++ rest ∧ p.complete? tail = some v := by
  induction octets generalizing p with
  | nil =>
    by_cases howed : p.owed = 0
    · exact ⟨[], p.bits, [], rfl, Pending.complete?_nil.mpr ⟨howed, rfl⟩⟩
    · simp [decodeFrom.settle, howed, decodeFrom] at h
  | cons octet octets ih =>
    by_cases howed : p.owed = 0
    · exact ⟨[], p.bits, octet :: octets, rfl, Pending.complete?_nil.mpr ⟨howed, rfl⟩⟩
    · rw [settle_owing howed] at h
      split at h
      · cases h
      · rename_i q hq
        obtain ⟨tail, v, rest, rfl, hv⟩ := ih h
        refine ⟨octet :: tail, v, rest, rfl, ?_⟩
        simpa [Pending.complete?, howed, hq] using hv

/-- The encoding of a character is read as that character. -/
theorem decodeFrom_encodeChar (c : Char) (start : Nat) (rest : List UInt8) :
    decodeFrom start none (String.utf8EncodeChar c ++ rest) =
      (decodeFrom (start + (String.utf8EncodeChar c).length) none rest).map (c :: ·) := by
  have hlen : 0 < (String.utf8EncodeChar c).length := by
    rw [String.length_utf8EncodeChar]
    exact c.utf8Size_pos
  obtain ⟨lead, tail, hspell⟩ := List.exists_cons_of_length_pos hlen
  obtain ⟨p, hp, hv⟩ := (lead_iff lead tail c.toNat).mpr
    ⟨c.valid, by rw [Char.ofNat_toNat, hspell]⟩
  rw [hspell, List.cons_append, decodeFrom, hp]
  simp only [settle_append hv, Pending.seen_ofLead hp, List.length_cons, Char.ofNat_toNat]
  congr 2
  omega

/-- Octets that are read as a text open with the encoding of a character. -/
theorem exists_of_decodeFrom_cons_eq_ok {start : Nat} {lead : UInt8} {octets : List UInt8}
    {cs : List Char} (h : decodeFrom start none (lead :: octets) = .ok cs) :
    ∃ c rest, lead :: octets = String.utf8EncodeChar c ++ rest := by
  rw [decodeFrom] at h
  split at h
  · cases h
  · rename_i p hp
    obtain ⟨tail, v, rest, rfl, hv⟩ := exists_of_settle_eq_ok h
    obtain ⟨-, hspell⟩ := (lead_iff lead tail v).mp ⟨p, hp, hv⟩
    exact ⟨Char.ofNat v, rest, by rw [← hspell, List.cons_append]⟩

/-- The machine accepts the encodings of characters in a row, and nothing else. -/
theorem decodeFrom_eq_ok {start : Nat} {octets : List UInt8} {cs : List Char} :
    decodeFrom start none octets = .ok cs ↔ octets = cs.flatMap String.utf8EncodeChar := by
  constructor
  · intro h
    induction cs generalizing start octets with
    | nil =>
      cases octets with
      | nil => rfl
      | cons lead octets =>
        obtain ⟨c, rest, hspell⟩ := exists_of_decodeFrom_cons_eq_ok h
        simp [hspell, decodeFrom_encodeChar, map_eq_ok] at h
    | cons c cs ih =>
      cases octets with
      | nil => simp [decodeFrom] at h
      | cons lead octets =>
        obtain ⟨c, rest, hspell⟩ := exists_of_decodeFrom_cons_eq_ok h
        rw [hspell, decodeFrom_encodeChar, map_eq_ok] at h
        obtain ⟨cs', hrest, hcs⟩ := h
        cases hcs
        rw [hspell, List.flatMap_cons, ← ih hrest]
  · rintro rfl
    induction cs generalizing start with
    | nil => rw [List.flatMap_nil, decodeFrom]
    | cons c cs ih => rw [List.flatMap_cons, decodeFrom_encodeChar, ih]; rfl

/-- A text has one spelling: the octets read as that text are those that it is written as. -/
theorem decode_eq_ok {octets : List UInt8} {s : String} :
    decode octets = .ok s ↔ octets = encode s := by
  rw [decode, encode, ← @decodeFrom_eq_ok 0, map_eq_ok]
  constructor
  · rintro ⟨cs, h, rfl⟩
    simpa using h
  · intro h
    exact ⟨s.toList, h, by simp⟩

end Text.Utf8
end Moniker
