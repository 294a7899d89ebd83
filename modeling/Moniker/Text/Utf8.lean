/-!
# UTF-8

Reading checks the octets one at a time: after the first octet of a character it knows how
many more are owed and which values the next one may have. A refusal names the place where
the offending character starts, which is also how many octets before it are sound.
-/

namespace Moniker.Text.Utf8

/-- Why octets are not UTF-8. -/
inductive Invalid where
  /-- The `count` octets at `start` begin no character. -/
  | sequence (count start : Nat)
  /-- The octets end inside the character that begins at `start`. -/
  | incomplete (start : Nat)
  deriving Repr, DecidableEq

/-- Wording of a refusal. -/
def Invalid.message : Invalid → String
  | .sequence count start => s!"invalid utf-8 sequence of {count} bytes from index {start}"
  | .incomplete start => s!"incomplete utf-8 byte sequence from index {start}"

/-- A character of which `seen` octets have been read and `owed` more must follow, the next
of them between `low` and `high`; `bits` are those gathered so far. -/
structure Pending where
  seen : Nat
  owed : Nat
  low : Nat
  high : Nat
  bits : Nat
  deriving Repr, DecidableEq

/-- What the first octet of a character says, if one may begin with it. -/
def Pending.ofLead (octet : Nat) : Option Pending :=
  if octet < 0x80 then some ⟨1, 0, 0x80, 0xBF, octet⟩
  else if 0xC2 ≤ octet ∧ octet ≤ 0xDF then some ⟨1, 1, 0x80, 0xBF, octet - 0xC0⟩
  else if octet = 0xE0 then some ⟨1, 2, 0xA0, 0xBF, 0⟩
  else if octet = 0xED then some ⟨1, 2, 0x80, 0x9F, 0xD⟩
  else if 0xE1 ≤ octet ∧ octet ≤ 0xEF then some ⟨1, 2, 0x80, 0xBF, octet - 0xE0⟩
  else if octet = 0xF0 then some ⟨1, 3, 0x90, 0xBF, 0⟩
  else if octet = 0xF4 then some ⟨1, 3, 0x80, 0x8F, 4⟩
  else if 0xF1 ≤ octet ∧ octet ≤ 0xF3 then some ⟨1, 3, 0x80, 0xBF, octet - 0xF0⟩
  else none

/-- The character after one more octet, unless that octet cannot stand there. -/
def Pending.next (p : Pending) (octet : Nat) : Option Pending :=
  if p.low ≤ octet ∧ octet ≤ p.high then
    some ⟨p.seen + 1, p.owed - 1, 0x80, 0xBF, p.bits * 64 + (octet - 0x80)⟩
  else none

/-- Reads the octets from `start` on, where `pending` says which character is under way. -/
def decodeFrom (start : Nat) : Option Pending → List UInt8 → Except Invalid (List Char)
  | none, [] => .ok []
  | some _, [] => .error (.incomplete start)
  | none, octet :: rest =>
    match Pending.ofLead octet.toNat with
    | none => .error (.sequence 1 start)
    | some p => settle start rest p
  | some p, octet :: rest =>
    match p.next octet.toNat with
    | none => .error (.sequence p.seen start)
    | some p => settle start rest p
where
  /-- Emits the character if nothing is owed any more. -/
  settle (start : Nat) (rest : List UInt8) (p : Pending) : Except Invalid (List Char) :=
    if p.owed = 0 then
      (decodeFrom (start + p.seen) none rest).map (Char.ofNat p.bits :: ·)
    else decodeFrom start (some p) rest

/-- The text that the octets spell. -/
def decode (octets : List UInt8) : Except Invalid String :=
  (decodeFrom 0 none octets).map String.ofList

/-- The octets that spell a text. -/
def encode (s : String) : List UInt8 := s.toList.flatMap String.utf8EncodeChar

end Moniker.Text.Utf8
