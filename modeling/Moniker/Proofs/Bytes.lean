import Moniker.Proofs.Formats

/-!
# The byte form is canonical

Every format that keys are made of is exact, so the byte form of keys is: a key is read back
from what it is written as, whatever octets follow, and from nothing else. Since no written
form opens another one, an octet string holds one key at most. What cannot be read is told
apart by its first number alone: a version other than the current one, or a malformed form.
-/

namespace Moniker

/-- A text of a storable frame is shorter than a machine word counts. -/
def Frame.Storable : Frame → Prop
  | .text (some s) => (Text.Utf8.encode s).length < UInt64.size
  | _ => True

instance : DecidablePred Frame.Storable
  | .text (some s) => inferInstanceAs (Decidable ((Text.Utf8.encode s).length < UInt64.size))
  | .text none | .kind _ | .bool _ | .int _ | .array _ _ => .isTrue trivial

/-- A key that a machine can hold: neither the number of its frames nor the length of a text
exceeds a machine word. -/
structure Key.Storable (k : Key) : Prop where
  frames : k.frames.length < UInt64.size
  texts : ∀ frame ∈ k.frames, frame.Storable

theorem Category.format_exact : Category.format.Exact fun _ => True :=
  (Wire.Format.choice_exact (by decide) (by decide)).congr fun category =>
    iff_true_intro (by cases category <;> decide)

theorem Presence.format_exact : Presence.format.Exact fun _ => True :=
  (Wire.Format.choice_exact (by decide) (by decide)).congr fun presence =>
    iff_true_intro (by cases presence <;> decide)

open Wire

theorem Frame.format_exact : Frame.format.Exact Frame.Storable := by
  have five : 5 ≤ 256 ^ 4 := by decide
  intro octets frame rest
  unfold Frame.format
  rw [read_bind_eq_ok]
  constructor
  · rintro ⟨index, mid, hindex, h⟩
    obtain ⟨hlt, rfl⟩ := (readVariant_eq_ok five).mp hindex
    match index, hlt, h with
    | 0, _, h =>
      obtain ⟨category, -, rfl, rfl⟩ := Category.format_exact.read_map_eq_ok.mp h
      exact ⟨trivial, by simp⟩
    | 1, _, h =>
      obtain ⟨value, hvalue, rfl, rfl⟩ := Format.text_exact.option.read_map_eq_ok.mp h
      refine ⟨?_, by simp⟩
      cases value with
      | none => trivial
      | some s => exact hvalue s rfl
    | 2, _, h =>
      obtain ⟨value, -, rfl, rfl⟩ := Format.bool_exact.read_map_eq_ok.mp h
      exact ⟨trivial, by simp⟩
    | 3, _, h =>
      obtain ⟨value, -, rfl, rfl⟩ := Format.int64_exact.read_map_eq_ok.mp h
      exact ⟨trivial, by simp⟩
    | 4, _, h =>
      obtain ⟨presence, mid', hpresence, hn⟩ := read_bind_eq_ok.mp h
      obtain ⟨-, rfl⟩ := (Presence.format_exact _ _ _).mp hpresence
      obtain ⟨n, -, rfl, rfl⟩ := Format.uint32_exact.read_map_eq_ok.mp hn
      exact ⟨trivial, by simp⟩
  · rintro ⟨hfit, rfl⟩
    cases frame with
    | kind category =>
      refine ⟨0, Category.format.write category ++ rest,
        (readVariant_eq_ok five).mpr ⟨by decide, by simp⟩, ?_⟩
      exact Category.format_exact.read_map_eq_ok.mpr ⟨category, trivial, rfl, rfl⟩
    | text value =>
      refine ⟨1, (Format.option .text).write value ++ rest,
        (readVariant_eq_ok five).mpr ⟨by decide, by simp⟩, ?_⟩
      refine Format.text_exact.option.read_map_eq_ok.mpr ⟨value, ?_, rfl, rfl⟩
      rintro s rfl
      exact hfit
    | bool value =>
      refine ⟨2, Format.bool.write value ++ rest,
        (readVariant_eq_ok five).mpr ⟨by decide, by simp⟩, ?_⟩
      exact Format.bool_exact.read_map_eq_ok.mpr ⟨value, trivial, rfl, rfl⟩
    | int value =>
      refine ⟨3, Format.int64.write value ++ rest,
        (readVariant_eq_ok five).mpr ⟨by decide, by simp⟩, ?_⟩
      exact Format.int64_exact.read_map_eq_ok.mpr ⟨value, trivial, rfl, rfl⟩
    | array presence n =>
      refine ⟨4, Presence.format.write presence ++ (Format.uint32.write n ++ rest),
        (readVariant_eq_ok five).mpr ⟨by decide, by simp⟩, ?_⟩
      refine read_bind_eq_ok.mpr ⟨presence, Format.uint32.write n ++ rest,
        Presence.format_exact.read_write trivial _, ?_⟩
      exact Format.uint32_exact.read_map_eq_ok.mpr ⟨n, trivial, rfl, rfl⟩

namespace Key

theorem format_exact : format.Exact Storable := by
  have frames_exact := Frame.format_exact.sequence
  intro octets k rest
  unfold format
  rw [read_bind_eq_ok]
  constructor
  · rintro ⟨version, mid, hversion, h⟩
    obtain ⟨-, rfl⟩ := (Format.uint32_exact octets version mid).mp hversion
    obtain ⟨frames, ⟨hlength, htexts⟩, rfl, rfl⟩ := frames_exact.read_map_eq_ok.mp h
    exact ⟨⟨hlength, htexts⟩, by simp⟩
  · rintro ⟨hfit, rfl⟩
    refine ⟨k.version, (Format.sequence Frame.format).write k.frames ++ rest,
      ?_, frames_exact.read_map_eq_ok.mpr ⟨k.frames, ⟨hfit.frames, hfit.texts⟩, rfl, rfl⟩⟩
    rw [List.append_assoc]
    exact Format.uint32_exact.read_write trivial _

/-- The version that octets announce is the number that the first four of them spell. -/
theorem decode_version {octets : List UInt8} (h : 4 ≤ octets.length) :
    Format.uint32.decode octets = .ok (UInt32.ofNat (ofLittleEndian (octets.take 4))) := by
  rw [Format.uint32_exact.decode_eq_ok]
  have hlength : (octets.take 4).length = 4 := by simp [h]
  obtain ⟨hlt, hspell⟩ := ofLittleEndian_eq_iff.mp (rfl : ofLittleEndian (octets.take 4) = _)
  rw [hlength] at hlt hspell
  refine ⟨trivial, ?_⟩
  show littleEndian 4 (UInt32.ofNat (ofLittleEndian (octets.take 4))).toNat <+: octets
  rw [UInt32.toNat_ofNat_of_lt' hlt, ← hspell]
  exact List.take_prefix 4 octets

theorem ofBytes_of_decode_version {octets : List UInt8} {version : UInt32}
    (h : Format.uint32.decode octets = .ok version) :
    ofBytes octets =
      if version = currentVersion then ofBytesOfAnyVersion octets
      else .error (.version version currentVersion) := by
  unfold ofBytes checkVersion
  rw [h]
  by_cases hversion : version = currentVersion <;>
    simp [Except.mapError, Bind.bind, Except.bind, hversion]

/-- Octets in a format of another version are refused before anything else is looked at. -/
theorem ofBytes_of_other_version {octets : List UInt8} (h : 4 ≤ octets.length)
    (hversion : ofLittleEndian (octets.take 4) ≠ currentVersion.toNat) :
    ofBytes octets =
      .error (.version (UInt32.ofNat (ofLittleEndian (octets.take 4))) currentVersion) := by
  have hlt : ofLittleEndian (octets.take 4) < 256 ^ 4 := by
    obtain ⟨hlt, -⟩ := ofLittleEndian_eq_iff.mp (rfl : ofLittleEndian (octets.take 4) = _)
    simpa [h] using hlt
  have hother : UInt32.ofNat (ofLittleEndian (octets.take 4)) ≠ currentVersion := by
    intro heq
    apply hversion
    rw [← heq, UInt32.toNat_ofNat_of_lt' hlt]
  rw [ofBytes_of_decode_version (decode_version h), if_neg hother]

/-- Octets whose version is not in the way are read as a key. -/
theorem ofBytes_of_version {octets : List UInt8}
    (h : 4 ≤ octets.length → ofLittleEndian (octets.take 4) = currentVersion.toNat) :
    ofBytes octets = ofBytesOfAnyVersion octets := by
  by_cases hlength : 4 ≤ octets.length
  · rw [ofBytes_of_decode_version (decode_version hlength), h hlength, if_pos]
    rfl
  · cases hread : Format.uint32.read octets with
    | error e =>
      -- the version is the first thing that a key of any version is read for, too
      have hkey : format.read octets = .error e :=
        (read_bind _ _ octets).trans (by rw [hread])
      unfold ofBytes ofBytesOfAnyVersion Format.decode
      rw [hkey, hread]
      rfl
    | ok parts =>
      obtain ⟨-, hspell⟩ := (Format.uint32_exact octets parts.1 parts.2).mp hread
      have hlong : 4 ≤ octets.length := by
        rw [hspell]
        simp [Format.uint32]
      exact absurd hlong hlength

theorem ofBytesOfAnyVersion_eq_ok {octets : List UInt8} {k : Key} :
    ofBytesOfAnyVersion octets = .ok k ↔ k.Storable ∧ k.toBytes <+: octets := by
  rw [toBytes, ← format_exact.decode_eq_ok, ofBytesOfAnyVersion]
  cases format.decode octets <;> simp [Except.mapError]

/-- The byte form opens with the version. -/
theorem take_toBytes (k : Key) (rest : List UInt8) :
    4 ≤ (k.toBytes ++ rest).length ∧
      ofLittleEndian ((k.toBytes ++ rest).take 4) = k.version.toNat := by
  have hfront : k.toBytes ++ rest = littleEndian 4 k.version.toNat ++
      ((Format.sequence Frame.format).write k.frames ++ rest) := List.append_assoc _ _ _
  have hlength : (littleEndian 4 k.version.toNat).length = 4 := length_littleEndian 4 _
  constructor
  · rw [hfront, List.length_append, hlength]
    exact Nat.le_add_right 4 _
  · rw [hfront, List.take_left' hlength, ofLittleEndian_eq_iff, hlength]
    exact ⟨k.version.toNat_lt, rfl⟩

theorem ofBytes_eq_ok {octets : List UInt8} {k : Key} :
    ofBytes octets = .ok k ↔
      k.version = currentVersion ∧ k.Storable ∧ k.toBytes <+: octets := by
  by_cases h : 4 ≤ octets.length → ofLittleEndian (octets.take 4) = currentVersion.toNat
  · rw [ofBytes_of_version h, ofBytesOfAnyVersion_eq_ok, iff_and_self]
    rintro ⟨-, rest, rfl⟩
    obtain ⟨hlength, hversion⟩ := take_toBytes k rest
    exact UInt32.toNat_inj.mp (hversion.symm.trans (h hlength))
  · obtain ⟨hlength, hother⟩ := Classical.not_imp.mp h
    rw [ofBytes_of_other_version hlength hother]
    simp only [reduceCtorEq, false_iff]
    rintro ⟨hversion, -, rest, rfl⟩
    exact hother (by rw [(take_toBytes k rest).2, hversion])

/-- An error other than that of the version is one of the encoding. -/
theorem encoding_of_ofBytes_eq_error {octets : List UInt8} {d : Defect}
    (herror : ofBytes octets = .error d)
    (h : 4 ≤ octets.length → ofLittleEndian (octets.take 4) = currentVersion.toNat) :
    ∃ reason, d = .encoding reason := by
  rw [ofBytes_of_version h, ofBytesOfAnyVersion] at herror
  cases hdecode : format.decode octets with
  | ok k => simp [hdecode, Except.mapError] at herror
  | error reason =>
    refine ⟨reason, ?_⟩
    simpa [hdecode, Except.mapError, eq_comm] using herror

/-- **The byte form is canonical.** A key of the current version is read back from its octets,
whatever follows them. What octets are read as opens them, so no proper prefix of a key's octets
is read at all, and different keys have different octets. Octets that announce another version
are refused as such, and all others that cannot be read as malformed. -/
theorem bytes_canonical :
    (∀ (k : Key) (rest : List UInt8), k.version = currentVersion → k.Storable →
      ofBytes (k.toBytes ++ rest) = .ok k) ∧
    (∀ (octets : List UInt8) (k : Key), ofBytes octets = .ok k →
      k.version = currentVersion ∧ k.Storable ∧ k.toBytes <+: octets) ∧
    (∀ (k : Key) (octets : List UInt8), k.version = currentVersion → k.Storable →
      octets <+: k.toBytes → octets ≠ k.toBytes →
        ∃ reason, ofBytes octets = .error (.encoding reason)) ∧
    (∀ k k' : Key, k.Storable → k'.Storable → k.toBytes = k'.toBytes → k = k') ∧
    (∀ octets : List UInt8, 4 ≤ octets.length →
      ofLittleEndian (octets.take 4) ≠ currentVersion.toNat →
        ofBytes octets =
          .error (.version (UInt32.ofNat (ofLittleEndian (octets.take 4))) currentVersion)) ∧
    (∀ (octets : List UInt8) (d : Defect), ofBytes octets = .error d →
      (4 ≤ octets.length → ofLittleEndian (octets.take 4) = currentVersion.toNat) →
        ∃ reason, d = .encoding reason) := by
  refine ⟨?_, ?_, ?_, ?_, ?_, ?_⟩
  · intro k rest hversion hk
    exact ofBytes_eq_ok.mpr ⟨hversion, hk, List.prefix_append _ _⟩
  · intro octets k h
    exact ofBytes_eq_ok.mp h
  · intro k octets hversion hk hopens hne
    cases h : ofBytes octets with
    | ok k' =>
      obtain ⟨-, hk', hshorter⟩ := ofBytes_eq_ok.mp h
      obtain rfl : k' = k := format_exact.eq_of_prefix hk' hk (hshorter.trans hopens)
      exact absurd (hopens.eq_of_length_le hshorter.length_le) hne
    | error d =>
      have hcurrent : 4 ≤ octets.length →
          ofLittleEndian (octets.take 4) = currentVersion.toNat := by
        intro hlength
        obtain ⟨rest, hrest⟩ := hopens
        rw [← hversion, ← (take_toBytes k []).2, List.append_nil, ← hrest,
          List.take_append_of_le_length hlength]
      obtain ⟨reason, rfl⟩ := encoding_of_ofBytes_eq_error h hcurrent
      exact ⟨reason, rfl⟩
  · intro k k' hk hk' heq
    have hopens : k.toBytes <+: k'.toBytes := ⟨[], by rw [List.append_nil, heq]⟩
    exact format_exact.eq_of_prefix hk hk' hopens
  · intro octets hlength hversion
    exact ofBytes_of_other_version hlength hversion
  · intro octets d herror h
    exact encoding_of_ofBytes_eq_error herror h

/-- A key with one frame of every kind is read back with octets after it, and not without its
last octet. -/
theorem bytes_canonical_at :
    let k : Key := ofFrames [.kind .field, .text (some "名"), .text none, .bool true, .int (-3),
      .array .populated 2]
    ofBytes (k.toBytes ++ [7, 7]) = .ok k ∧
      (∃ reason, ofBytes k.toBytes.dropLast = .error (.encoding reason)) ∧
      ofBytes (9 :: k.toBytes) = .error (.version 265 currentVersion) := by
  obtain ⟨hread, -, hshort, -, hother, -⟩ := bytes_canonical
  intro k
  have hk : k.Storable := ⟨by decide, by decide⟩
  refine ⟨hread k [7, 7] rfl hk, hshort k _ rfl hk (List.dropLast_prefix _) (by decide), ?_⟩
  have hversion : UInt32.ofNat (ofLittleEndian ((9 :: k.toBytes).take 4)) = 265 := by decide
  rw [hother (9 :: k.toBytes) (by decide) (by decide), hversion]

end Key
end Moniker
