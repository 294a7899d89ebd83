import Mathlib.Algebra.Order.Ring.Nat
import Mathlib.Data.List.Nodup
import Moniker.Key
import Moniker.Proofs.Spelling

/-!
# Exact formats

A format is exact for the values that are `fit` when, in front of any octets, it reads those
values and no others, and each of them only from the octets that it writes for it. Exactness
goes from the parts of a format to the whole, so every format of this library is exact: the
index of a choice, the octet of a truth value, the tag of an option and the length of a text
or a sequence each have one accepted spelling.

`fit` is there for lengths. A length is written in a machine word, so a text or a sequence has
to be shorter than the machine can count.
-/

namespace Moniker.Wire

/-! ## Reading steps -/

@[simp] theorem read_pure (a : α) (octets : List UInt8) :
    (pure a : Read α) octets = .ok (a, octets) := rfl

@[simp] theorem read_throw (e : Malformed) (octets : List UInt8) :
    (throw e : Read α) octets = .error e := rfl

theorem read_bind (read : Read α) (next : α → Read β) (octets : List UInt8) :
    (read >>= next) octets =
      match read octets with
      | .ok (a, rest) => next a rest
      | .error e => .error e := by
  simp only [Bind.bind, StateT.bind, Except.bind]
  cases read octets <;> rfl

/-- A step after another one reads from where the other one stopped. -/
theorem read_bind_eq_ok {read : Read α} {next : α → Read β} {octets rest : List UInt8} {b : β} :
    (read >>= next) octets = .ok (b, rest) ↔
      ∃ a mid, read octets = .ok (a, mid) ∧ next a mid = .ok (b, rest) := by
  rw [read_bind]
  cases h : read octets with
  | error e => simp
  | ok parts => cases parts; simp

/-! ## Numbers -/

theorem split?_eq_some {n : Nat} {octets front rest : List UInt8} :
    split? n octets = some (front, rest) ↔ front.length = n ∧ octets = front ++ rest := by
  induction n generalizing octets front with
  | zero =>
    simp only [split?, Option.some.injEq, Prod.mk.injEq, List.length_eq_zero_iff]
    constructor
    · rintro ⟨rfl, rfl⟩
      exact ⟨rfl, rfl⟩
    · rintro ⟨rfl, rfl⟩
      exact ⟨rfl, rfl⟩
  | succ n ih =>
    cases octets with
    | nil =>
      simp only [split?, reduceCtorEq, false_iff, not_and]
      intro hlen h
      obtain ⟨rfl, -⟩ := List.append_eq_nil_iff.mp h.symm
      cases hlen
    | cons octet octets =>
      cases front with
      | nil => simp [split?]
      | cons first front =>
        simp [split?, Option.map_eq_some_iff, ih]
        constructor
        · rintro ⟨⟨h, rfl⟩, rfl⟩
          exact ⟨h, rfl, rfl⟩
        · rintro ⟨h, rfl, rfl⟩
          exact ⟨⟨h, rfl⟩, rfl⟩

theorem take_eq_ok {n : Nat} {shortage : Malformed} {octets front rest : List UInt8} :
    take n shortage octets = .ok (front, rest) ↔ front.length = n ∧ octets = front ++ rest := by
  rw [← split?_eq_some, take]
  cases split? n octets <;> simp

@[simp] theorem length_littleEndian (width n : Nat) : (littleEndian width n).length = width := by
  induction width generalizing n with
  | zero => rfl
  | succ width ih => simp [littleEndian, ih]

/-- Octets spell one number, and a number has one spelling of each width that holds it. -/
theorem ofLittleEndian_eq_iff {octets : List UInt8} {n : Nat} :
    ofLittleEndian octets = n ↔
      n < 256 ^ octets.length ∧ octets = littleEndian octets.length n := by
  induction octets generalizing n with
  | nil => simp [ofLittleEndian, littleEndian, eq_comm]
  | cons octet octets ih =>
    have hoctet : octet.toNat < 256 := octet.toNat_lt
    have hhigh : ofLittleEndian octets = n / 256 ↔
        n / 256 < 256 ^ octets.length ∧ octets = littleEndian octets.length (n / 256) := ih
    have hlow : octet = UInt8.ofNat (n % 256) ↔ octet.toNat = n % 256 := by
      rw [← UInt8.toNat_inj, UInt8.toNat_ofNat_of_lt' (Nat.mod_lt n (by decide))]
    have hbound : n < 256 ^ (octets.length + 1) ↔ n / 256 < 256 ^ octets.length := by
      rw [Nat.div_lt_iff_lt_mul (by decide), pow_succ]
    rw [ofLittleEndian, List.length_cons, littleEndian, List.cons.injEq, hbound, hlow,
      and_left_comm, ← hhigh]
    omega

theorem number_eq_ok {width n : Nat} {octets rest : List UInt8} :
    number width octets = .ok (n, rest) ↔
      n < 256 ^ width ∧ octets = littleEndian width n ++ rest := by
  unfold number
  rw [read_bind_eq_ok]
  constructor
  · rintro ⟨front, mid, htake, hn⟩
    obtain ⟨rfl, rfl⟩ := take_eq_ok.mp htake
    obtain ⟨rfl, rfl⟩ : ofLittleEndian front = n ∧ mid = rest := by simpa using hn
    obtain ⟨hlt, hspell⟩ := ofLittleEndian_eq_iff.mp rfl
    exact ⟨hlt, by rw [← hspell]⟩
  · rintro ⟨hlt, rfl⟩
    refine ⟨littleEndian width n, rest, take_eq_ok.mpr ⟨length_littleEndian width n, rfl⟩, ?_⟩
    rw [ofLittleEndian_eq_iff.mpr ⟨by simpa using hlt, by rw [length_littleEndian]⟩]
    rfl

theorem readVariant_eq_ok {bound index : Nat} (hbound : bound ≤ 256 ^ 4)
    {octets rest : List UInt8} :
    readVariant bound octets = .ok (index, rest) ↔
      index < bound ∧ octets = variant index ++ rest := by
  unfold readVariant variant
  rw [read_bind_eq_ok]
  constructor
  · rintro ⟨found, mid, hfound, h⟩
    obtain ⟨-, rfl⟩ := number_eq_ok.mp hfound
    split at h
    · next hlt =>
      obtain ⟨rfl, rfl⟩ : found = index ∧ mid = rest := by simpa using h
      exact ⟨hlt, rfl⟩
    · simp at h
  · rintro ⟨hlt, rfl⟩
    refine ⟨index, rest, number_eq_ok.mpr ⟨by omega, rfl⟩, ?_⟩
    rw [if_pos hlt]
    rfl

/-! ## Formats -/

namespace Format

/-- In front of any octets, `format` reads the values that are `fit` and no others, and each of
them from exactly the octets that it writes for it. -/
def Exact (format : Format α) (fit : α → Prop) : Prop :=
  ∀ octets a rest, format.read octets = .ok (a, rest) ↔ fit a ∧ octets = format.write a ++ rest

variable {format : Format α} {fit : α → Prop}

/-- What is written is read back, whatever follows. -/
theorem Exact.read_write (h : format.Exact fit) {a : α} (ha : fit a) (rest : List UInt8) :
    format.read (format.write a ++ rest) = .ok (a, rest) :=
  (h _ a rest).mpr ⟨ha, rfl⟩

/-- Decoding succeeds on exactly the octets that open with the written form of a fit value. -/
theorem Exact.decode_eq_ok (h : format.Exact fit) {octets : List UInt8} {a : α} :
    format.decode octets = .ok a ↔ fit a ∧ format.write a <+: octets := by
  rw [decode, map_eq_ok]
  constructor
  · rintro ⟨⟨a, rest⟩, hread, rfl⟩
    obtain ⟨ha, rfl⟩ := (h octets a rest).mp hread
    exact ⟨ha, List.prefix_append _ _⟩
  · rintro ⟨ha, rest, rfl⟩
    exact ⟨(a, rest), h.read_write ha rest, rfl⟩

/-- No written form opens another one. -/
theorem Exact.eq_of_prefix (h : format.Exact fit) {a b : α} (ha : fit a) (hb : fit b)
    (hopens : format.write a <+: format.write b) : a = b := by
  have hdecode : format.decode (format.write b) = .ok a := h.decode_eq_ok.mpr ⟨ha, hopens⟩
  rw [h.decode_eq_ok.mpr ⟨hb, List.prefix_refl _⟩] at hdecode
  exact (Except.ok.inj hdecode).symm

/-- Where two written forms stand at the front of the same octets, they are one. -/
theorem Exact.append_inj (h : format.Exact fit) {a b : α} (ha : fit a) (hb : fit b)
    {rest rest' : List UInt8} (heq : format.write a ++ rest = format.write b ++ rest') :
    a = b ∧ rest = rest' := by
  have hread := h.read_write ha rest
  rw [heq, h.read_write hb] at hread
  simpa [eq_comm] using hread

theorem Exact.congr (h : format.Exact fit) {fit' : α → Prop} (hfit : ∀ a, fit a ↔ fit' a) :
    format.Exact fit' :=
  fun octets a rest => (h octets a rest).trans (and_congr_left fun _ => hfit a)

/-- Reads a value and makes something of it. -/
theorem Exact.read_map_eq_ok (h : format.Exact fit) {make : α → β} {octets rest : List UInt8}
    {b : β} :
    (format.read >>= fun a => pure (make a)) octets = .ok (b, rest) ↔
      ∃ a, fit a ∧ make a = b ∧ octets = format.write a ++ rest := by
  rw [read_bind_eq_ok]
  constructor
  · rintro ⟨a, mid, hread, hb⟩
    obtain ⟨rfl, rfl⟩ : make a = b ∧ mid = rest := by simpa using hb
    obtain ⟨ha, rfl⟩ := (h octets a mid).mp hread
    exact ⟨a, ha, rfl, rfl⟩
  · rintro ⟨a, ha, rfl, rfl⟩
    exact ⟨a, rest, h.read_write ha rest, rfl⟩

/-- A format seen through a faithful change of values. -/
theorem Exact.map (h : format.Exact fit) (down : β → α) (up : α → β)
    (hup : ∀ b, up (down b) = b) (hdown : ∀ a, fit a → down (up a) = a) :
    Exact ⟨fun b => format.write (down b), do return up (← format.read)⟩
      fun b => fit (down b) := by
  intro octets b rest
  show (format.read >>= fun a => pure (up a)) octets = .ok (b, rest) ↔ _
  rw [h.read_map_eq_ok]
  constructor
  · rintro ⟨a, ha, rfl, rfl⟩
    have hback : down (up a) = a := hdown a ha
    exact ⟨by simpa only [hback] using ha, by simp only [hback]⟩
  · rintro ⟨hb, rfl⟩
    exact ⟨down b, hb, hup b, rfl⟩

/-- The numbers of `width` octets. -/
theorem number_exact (width : Nat) :
    Exact ⟨littleEndian width, number width⟩ fun n => n < 256 ^ width :=
  fun _ _ _ => number_eq_ok

theorem uint8_exact : uint8.Exact fun _ => True := by
  have h := (number_exact 1).map UInt8.toNat UInt8.ofNat
    (fun _ => UInt8.ofNat_toNat) (fun _ h => UInt8.toNat_ofNat_of_lt' (by simpa using h))
  intro octets n rest
  have hn : n.toNat < 256 := n.toNat_lt
  -- an octet is its own spelling, not only the first digit of its number
  have hwrite : littleEndian 1 n.toNat = [n] := by simp [littleEndian]
  have hread := h octets n rest
  simp only [hwrite, pow_one, hn] at hread
  exact hread

theorem uint32_exact : uint32.Exact fun _ => True :=
  ((number_exact 4).map UInt32.toNat UInt32.ofNat (fun _ => UInt32.ofNat_toNat)
    (fun _ h => UInt32.toNat_ofNat_of_lt' (by simpa using h))).congr
    fun n => iff_true_intro n.toNat_lt

theorem uint64_exact : uint64.Exact fun _ => True :=
  ((number_exact 8).map UInt64.toNat UInt64.ofNat (fun _ => UInt64.ofNat_toNat)
    (fun _ h => UInt64.toNat_ofNat_of_lt' (by simpa using h))).congr
    fun n => iff_true_intro n.toNat_lt

theorem int64_exact : int64.Exact fun _ => True :=
  uint64_exact.map Int64.toUInt64 UInt64.toInt64 (fun _ => rfl) fun _ _ => rfl

theorem bool_exact : bool.Exact fun _ => True := by
  intro octets b rest
  unfold bool
  rw [read_bind_eq_ok]
  constructor
  · rintro ⟨tag, mid, htag, h⟩
    obtain ⟨-, rfl⟩ := (uint8_exact octets tag mid).mp htag
    split at h
    · obtain ⟨rfl, rfl⟩ : false = b ∧ mid = rest := by simpa using h
      exact ⟨trivial, rfl⟩
    · obtain ⟨rfl, rfl⟩ : true = b ∧ mid = rest := by simpa using h
      exact ⟨trivial, rfl⟩
    · simp at h
  · rintro ⟨-, rfl⟩
    refine ⟨if b then 1 else 0, rest, uint8_exact.read_write trivial rest, ?_⟩
    cases b <;> rfl

/-- Exactness of an optional value is that of the value. -/
theorem Exact.option (h : format.Exact fit) :
    (Format.option format).Exact fun value? => ∀ a ∈ value?, fit a := by
  intro octets value? rest
  unfold Format.option
  rw [read_bind_eq_ok]
  constructor
  · rintro ⟨tag, mid, htag, hvalue⟩
    obtain ⟨-, rfl⟩ := (uint8_exact octets tag mid).mp htag
    split at hvalue
    · obtain ⟨rfl, rfl⟩ : none = value? ∧ mid = rest := by simpa using hvalue
      exact ⟨by simp, rfl⟩
    · obtain ⟨a, hfit, rfl, rfl⟩ := h.read_map_eq_ok.mp hvalue
      exact ⟨by simpa using hfit, rfl⟩
    · simp at hvalue
  · rintro ⟨hfit, rfl⟩
    cases value? with
    | none => exact ⟨0, rest, uint8_exact.read_write trivial rest, rfl⟩
    | some a =>
      refine ⟨1, format.write a ++ rest, uint8_exact.read_write trivial _, ?_⟩
      exact h.read_map_eq_ok.mpr ⟨a, hfit a rfl, rfl, rfl⟩

theorem choice_exact [DecidableEq α] {all : List α} (hnodup : all.Nodup)
    (hlength : all.length ≤ 256 ^ 4) : (choice all).Exact (· ∈ all) := by
  intro octets a rest
  unfold choice
  rw [read_bind_eq_ok]
  constructor
  · rintro ⟨found, mid, hfound, h⟩
    obtain ⟨-, rfl⟩ := number_eq_ok.mp hfound
    cases hvalue : all[found]? with
    | none => simp [hvalue] at h
    | some value =>
      obtain ⟨rfl, rfl⟩ : value = a ∧ mid = rest := by simpa [hvalue] using h
      obtain ⟨hlt, rfl⟩ := List.getElem?_eq_some_iff.mp hvalue
      refine ⟨List.getElem_mem hlt, ?_⟩
      show _ = littleEndian 4 (all.idxOf all[found]) ++ mid
      rw [hnodup.idxOf_getElem]
  · rintro ⟨ha, rfl⟩
    have hindex : all.idxOf a < all.length := List.idxOf_lt_length_of_mem ha
    refine ⟨all.idxOf a, rest, number_eq_ok.mpr ⟨by omega, rfl⟩, ?_⟩
    rw [List.getElem?_eq_getElem hindex, List.getElem_idxOf]
    rfl

/-- Texts are exact up to the lengths that a machine word holds. -/
theorem text_exact : text.Exact fun s => (Text.Utf8.encode s).length < 256 ^ 8 := by
  intro octets s rest
  unfold text
  rw [read_bind_eq_ok]
  constructor
  · rintro ⟨length, mid, hlength, h⟩
    obtain ⟨hlt, rfl⟩ := number_eq_ok.mp hlength
    obtain ⟨spelling, mid', htake, hs⟩ := read_bind_eq_ok.mp h
    obtain ⟨rfl, rfl⟩ := take_eq_ok.mp htake
    cases hfound : Text.Utf8.decode spelling with
    | error reason => simp [hfound] at hs
    | ok found =>
      obtain ⟨rfl, rfl⟩ : found = s ∧ mid' = rest := by simpa [hfound] using hs
      rw [Text.Utf8.decode_eq_ok.mp hfound] at hlt ⊢
      exact ⟨hlt, by simp⟩
  · rintro ⟨hlt, rfl⟩
    refine ⟨(Text.Utf8.encode s).length, Text.Utf8.encode s ++ rest,
      number_eq_ok.mpr ⟨hlt, by simp⟩, ?_⟩
    refine read_bind_eq_ok.mpr ⟨Text.Utf8.encode s, rest, take_eq_ok.mpr ⟨rfl, rfl⟩, ?_⟩
    rw [Text.Utf8.decode_eq_ok.mpr rfl]
    rfl

/-- A given number of values in a row. -/
theorem Exact.repeated_eq_ok (h : format.Exact fit) {n : Nat} {octets rest : List UInt8}
    {values : List α} :
    repeated format.read n octets = .ok (values, rest) ↔
      values.length = n ∧ (∀ a ∈ values, fit a) ∧
        octets = values.flatMap format.write ++ rest := by
  induction n generalizing octets values with
  | zero =>
    rw [repeated, read_pure]
    constructor
    · rintro h
      obtain ⟨rfl, rfl⟩ : [] = values ∧ octets = rest := by simpa using h
      exact ⟨rfl, by simp, rfl⟩
    · rintro ⟨hlength, -, rfl⟩
      obtain rfl := List.length_eq_zero_iff.mp hlength
      rfl
  | succ n ih =>
    rw [repeated, read_bind_eq_ok]
    constructor
    · rintro ⟨a, mid, hread, hrest⟩
      obtain ⟨others, mid', hothers, hvalues⟩ := read_bind_eq_ok.mp hrest
      obtain ⟨rfl, rfl⟩ : a :: others = values ∧ mid' = rest := by simpa using hvalues
      obtain ⟨ha, rfl⟩ := (h octets a mid).mp hread
      obtain ⟨rfl, hfit, rfl⟩ := ih.mp hothers
      exact ⟨rfl, by simpa [ha] using hfit, by simp⟩
    · rintro ⟨hlength, hfit, rfl⟩
      obtain ⟨a, others, rfl⟩ := List.exists_cons_of_length_eq_add_one hlength
      obtain ⟨ha, hothers⟩ := List.forall_mem_cons.mp hfit
      refine ⟨a, others.flatMap format.write ++ rest, ?_, ?_⟩
      · rw [List.flatMap_cons, List.append_assoc]
        exact h.read_write ha _
      · refine read_bind_eq_ok.mpr ⟨others, rest, ih.mpr ⟨?_, hothers, rfl⟩, rfl⟩
        simpa using hlength

theorem Exact.sequence (h : format.Exact fit) :
    (Format.sequence format).Exact fun values =>
      values.length < 256 ^ 8 ∧ ∀ a ∈ values, fit a := by
  intro octets values rest
  unfold Format.sequence
  rw [read_bind_eq_ok]
  constructor
  · rintro ⟨length, mid, hlength, hvalues⟩
    obtain ⟨hlt, rfl⟩ := number_eq_ok.mp hlength
    obtain ⟨rfl, hfit, rfl⟩ := h.repeated_eq_ok.mp hvalues
    exact ⟨⟨hlt, hfit⟩, by simp⟩
  · rintro ⟨⟨hlt, hfit⟩, rfl⟩
    refine ⟨values.length, values.flatMap format.write ++ rest,
      number_eq_ok.mpr ⟨hlt, by simp⟩, ?_⟩
    exact h.repeated_eq_ok.mpr ⟨rfl, hfit, rfl⟩

end Format
end Moniker.Wire
