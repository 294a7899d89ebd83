import Moniker.Proofs.Bytes

/-!
# What a fingerprint is the digest of

The octets that are digested for a key hold the whole key: its version in four octets, then the
contributions of its frames, which stand in a row without anything between them and without their
number. A contribution can be read back in front of whatever follows, because its tag says how it
goes on (`Key.read_fingerprintFrame`). So different keys are digested from different octets, and
where their fingerprints agree it is the digest that does not tell them apart
(`Key.fingerprints_faithful`).
-/

namespace Moniker

open Wire

/-- The category with this letter. -/
def Category.ofLetterOctet? (octet : UInt8) : Option Category :=
  all.find? fun category => UInt8.ofNat category.letter.toNat == octet

theorem Category.ofLetterOctet?_letter (category : Category) :
    ofLetterOctet? (UInt8.ofNat category.letter.toNat) = some category := by
  cases category <;> decide

/-- The presence with this code. -/
def Presence.ofCode? : UInt8 → Option Presence
  | 0 => some .absent
  | 1 => some .empty
  | 2 => some .populated
  | _ => none

/-- The code that stands for the presence. -/
def Presence.code : Presence → UInt8
  | absent => 0
  | empty => 1
  | populated => 2

theorem Presence.ofCode?_code (presence : Presence) : ofCode? presence.code = some presence := by
  cases presence <;> rfl

namespace Key

variable {k k' : Key} {frame frame' : Frame} {frames frames' : List Frame} {rest rest' : List UInt8}

/-- Reads one octet that stands for something. -/
def readCode (ofCode? : UInt8 → Option α) : Read α := do
  let found ← Format.uint8.read
  match ofCode? found with
  | some a => return a
  | none => throw (.notOptionTag found)

/-- Reads back what a frame contributes to the fingerprint. -/
def readFingerprintFrame : Read Frame := do
  match ← Format.uint8.read with
  | 0 => return .kind (← readCode Category.ofLetterOctet?)
  | 1 => return .text none
  | 2 => return .text (some (← Format.text.read))
  | 3 => return .bool (← Format.bool.read)
  | 4 => return .int (← Format.int64.read)
  | 5 => return .array (← readCode Presence.ofCode?) (← Format.uint32.read)
  | tag => throw (.notOptionTag tag)

theorem read_octet (octet : UInt8) : Format.uint8.read (octet :: rest) = .ok (octet, rest) :=
  Format.uint8_exact.read_write trivial rest

theorem read_code {ofCode? : UInt8 → Option α} {octet : UInt8} {a : α}
    (h : ofCode? octet = some a) :
    readCode ofCode? (octet :: rest) = .ok (a, rest) := by
  rw [readCode, read_bind, read_octet]
  simp only [h]
  rfl

/-- What a frame contributes is read back, whatever follows. -/
theorem read_fingerprintFrame (h : frame.Storable) (rest : List UInt8) :
    readFingerprintFrame (fingerprintFrame frame ++ rest) = .ok (frame, rest) := by
  rw [readFingerprintFrame, read_bind_eq_ok]
  cases frame with
  | kind category =>
      refine ⟨0, UInt8.ofNat category.letter.toNat :: rest, read_octet 0, ?_⟩
      exact read_bind_eq_ok.mpr ⟨category, rest, read_code category.ofLetterOctet?_letter, rfl⟩
  | text value =>
      cases value with
      | none => exact ⟨1, rest, read_octet 1, rfl⟩
      | some s =>
          refine ⟨2, Format.text.write s ++ rest, read_octet 2, ?_⟩
          exact read_bind_eq_ok.mpr ⟨s, rest, Format.text_exact.read_write h rest, rfl⟩
  | bool value =>
      refine ⟨3, Format.bool.write value ++ rest, read_octet 3, ?_⟩
      exact read_bind_eq_ok.mpr ⟨value, rest, Format.bool_exact.read_write trivial rest, rfl⟩
  | int value =>
      refine ⟨4, Format.int64.write value ++ rest, read_octet 4, ?_⟩
      exact read_bind_eq_ok.mpr ⟨value, rest, Format.int64_exact.read_write trivial rest, rfl⟩
  | array presence n =>
      refine ⟨5, presence.code :: (Format.uint32.write n ++ rest), ?_, ?_⟩
      · cases presence <;> exact read_octet 5
      · refine read_bind_eq_ok.mpr ⟨presence, _, read_code presence.ofCode?_code, ?_⟩
        exact read_bind_eq_ok.mpr ⟨n, rest, Format.uint32_exact.read_write trivial rest, rfl⟩

theorem fingerprintFrame_ne_nil (frame : Frame) : fingerprintFrame frame ≠ [] := by
  match frame with
  | .kind _ | .text none | .text (some _) | .bool _ | .int _ | .array _ _ =>
      exact List.cons_ne_nil _ _

/-- No contribution opens another one. -/
theorem fingerprintFrame_append_inj (h : frame.Storable) (h' : frame'.Storable)
    (heq : fingerprintFrame frame ++ rest = fingerprintFrame frame' ++ rest') :
    frame = frame' ∧ rest = rest' := by
  have hread := read_fingerprintFrame h rest
  rw [heq, read_fingerprintFrame h' rest'] at hread
  simpa [eq_comm] using hread

/-- Contributions in a row are those of one sequence of frames, of whatever length. -/
theorem contributions_inj (h : ∀ frame ∈ frames, frame.Storable)
    (h' : ∀ frame ∈ frames', frame.Storable)
    (heq : frames.flatMap fingerprintFrame = frames'.flatMap fingerprintFrame) :
    frames = frames' := by
  induction frames generalizing frames' with
  | nil =>
      cases frames' with
      | nil => rfl
      | cons frame' frames' =>
          exact absurd (List.append_eq_nil_iff.mp heq.symm).1 (fingerprintFrame_ne_nil frame')
  | cons frame frames ih =>
      cases frames' with
      | nil => exact absurd (List.append_eq_nil_iff.mp heq).1 (fingerprintFrame_ne_nil frame)
      | cons frame' frames' =>
          obtain ⟨hframe, hframes⟩ := List.forall_mem_cons.mp h
          obtain ⟨hframe', hframes'⟩ := List.forall_mem_cons.mp h'
          obtain ⟨rfl, hrest⟩ := fingerprintFrame_append_inj hframe hframe' heq
          rw [ih hframes hframes' hrest]

/-- The octets that are digested for a key are those of no other key. -/
theorem fingerprintBytes_inj (h : ∀ frame ∈ k.frames, frame.Storable)
    (h' : ∀ frame ∈ k'.frames, frame.Storable) :
    k.fingerprintBytes = k'.fingerprintBytes ↔ k.version = k'.version ∧ k.frames = k'.frames := by
  constructor
  · intro heq
    obtain ⟨hversion, hframes⟩ := Format.uint32_exact.append_inj trivial trivial heq
    exact ⟨hversion, contributions_inj h h' hframes⟩
  · rintro ⟨hversion, hframes⟩
    rw [fingerprintBytes, hversion, hframes, fingerprintBytes]

/-- Keys are digested from the same octets if and only if they are the same key: of one version,
with the same frames. So different keys with one fingerprint are different octets with one digest.
Nothing is asked of the keys but that their texts are shorter than a machine word counts. -/
theorem fingerprints_faithful (h : ∀ frame ∈ k.frames, frame.Storable)
    (h' : ∀ frame ∈ k'.frames, frame.Storable) :
    (k.fingerprintBytes = k'.fingerprintBytes ↔ k.version = k'.version ∧ k.frames = k'.frames) ∧
      (k ≠ k' → k.fingerprint = k'.fingerprint → k.fingerprintBytes ≠ k'.fingerprintBytes ∧
        Digest.Xxh3.digest k.fingerprintBytes = Digest.Xxh3.digest k'.fingerprintBytes) := by
  have hbytes := fingerprintBytes_inj h h'
  refine ⟨hbytes, fun hne hagree => ⟨fun heq => hne ?_, hagree⟩⟩
  obtain ⟨hversion, hframes⟩ := hbytes.mp heq
  cases k
  cases k'
  exact congrArg₂ Key.mk hversion hframes

/-- A text that holds what a frame after it would contribute is told from a text with that frame. -/
theorem fingerprints_faithful_text :
    fingerprintBytes (ofFrames [.text (some "a\x03\x01")]) ≠
      fingerprintBytes (ofFrames [.text (some "a"), .bool true]) := by
  intro heq
  have hframes := ((fingerprints_faithful (by decide) (by decide)).1.mp heq).2
  revert hframes
  decide

end Key
end Moniker
