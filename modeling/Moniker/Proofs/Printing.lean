import Mathlib
import Moniker.Proofs.Lockstep
import Moniker.Proofs.Widening

/-!
# The text form identifies usable keys

Frames of different contents may have the same text: `F` stands for a field and for a flag that is
not set. Among the frames that can be taken at one place, though, no two have the same text, and the
text of a frame tells where it ends: a blank or nothing follows, and inside quotes a quote is
doubled (`Frame.render_append_inj`). A usable key says at each place which content comes next. So
usable keys with one text are read in lockstep, and are the same key (`Key.text_identifies`).
-/

namespace Moniker

variable {word word' tail tail' : List Char}

/-- What may stand behind a word in a text form: nothing, or a blank and more. -/
def AtBlank (tail : List Char) : Prop := ∀ c ∈ tail.head?, c = ' '

/-- A word without blanks ends where a blank is. -/
theorem word_append_inj (hword : ' ' ∉ word) (hword' : ' ' ∉ word') (htail : AtBlank tail)
    (htail' : AtBlank tail') (h : word ++ tail = word' ++ tail') : word = word' ∧ tail = tail' := by
  have hnil : ∀ {more word tail : List Char}, ' ' ∉ word ++ more → AtBlank (more ++ tail) →
      more = [] := by
    intro more word tail hblank hat
    cases more with
    | nil => rfl
    | cons c more =>
        obtain rfl := hat c rfl
        simp at hblank
  rcases List.append_eq_append_iff.mp h with ⟨more, rfl, rfl⟩ | ⟨more, rfl, rfl⟩
  · obtain rfl := hnil hword' htail
    simp
  · obtain rfl := hnil hword htail'
    simp

namespace Text.Quoted

/-- Reads a quoted text from behind its first quote: what it holds, and what comes after it. -/
def unquote : List Char → List Char × List Char
  | [] => ([], [])
  | '"' :: '"' :: rest => ('"' :: (unquote rest).1, (unquote rest).2)
  | '"' :: rest => ([], rest)
  | c :: rest => (c :: (unquote rest).1, (unquote rest).2)

/-- What is quoted is read back, since a blank or nothing comes after the last quote. -/
theorem unquote_escape (htail : AtBlank tail) (cs : List Char) :
    unquote (escape cs ++ '"' :: tail) = (cs, tail) := by
  induction cs with
  | nil =>
      cases tail with
      | nil => rfl
      | cons c tail =>
          obtain rfl := htail c rfl
          rfl
  | cons c cs ih =>
      by_cases hc : c = '"'
      · simp [escape, hc, unquote, ih]
      · simp [escape, hc, unquote, ih]

/-- A quoted text ends at the first quote that is not doubled. -/
theorem escape_append_inj {cs cs' : List Char} (htail : AtBlank tail) (htail' : AtBlank tail')
    (h : escape cs ++ '"' :: tail = escape cs' ++ '"' :: tail') : cs = cs' ∧ tail = tail' := by
  have hread := unquote_escape htail cs
  rw [h, unquote_escape htail' cs'] at hread
  simpa [eq_comm] using hread

end Text.Quoted

/-! ## Single frames -/

theorem isDigit_of_mem_repr {n : Nat} {c : Char} (h : c ∈ n.repr.toList) : c.isDigit = true := by
  rw [Nat.repr_eq_ofList_toDigits, String.toList_ofList] at h
  exact Nat.isDigit_of_mem_toDigits (by decide) (by decide) h

theorem blank_not_mem_repr (n : Nat) : ' ' ∉ n.repr.toList := fun h =>
  absurd (isDigit_of_mem_repr h) (by decide)

theorem blank_not_mem_repr_int (i : Int) : ' ' ∉ i.repr.toList := by
  rw [Int.repr_eq_if]
  split
  · exact blank_not_mem_repr _
  · simpa using blank_not_mem_repr _

theorem Category.letter_inj {category category' : Category}
    (h : category.letter = category'.letter) :
    category = category' := by
  revert h
  cases category <;> cases category' <;> decide

namespace Frame

variable {f g : Frame}

/-- All frames but texts are words. -/
theorem blank_not_mem_render (h : f.content ≠ .text) : ' ' ∉ f.render.toList := by
  cases f with
  | kind category => cases category <;> decide
  | text value => exact absurd rfl h
  | bool value => cases value <;> decide
  | int n => exact blank_not_mem_repr_int n.toInt
  | array presence n =>
      cases presence with
      | absent => exact (by decide : ' ' ∉ "%#".toList)
      | empty | populated => simpa [render] using blank_not_mem_repr n.toNat

/-- A header that announces a number of elements has another text than an absent array. -/
theorem render_absent_ne (n : Nat) : "%#" ≠ "%" ++ toString n := by
  intro h
  have hdigits : n.repr.toList = ['#'] := by
    simpa [eq_comm] using congrArg String.toList h
  have hdigit : '#'.isDigit = true := isDigit_of_mem_repr (n := n) (by simp [hdigits])
  cases hdigit

/-- Headers that can be taken are told apart by their texts. -/
theorem header_render_inj {presence presence' : Presence} {n n' : UInt32}
    (hf : presence.admits n.toNat) (hg : presence'.admits n'.toNat)
    (h : (array presence n).render = (array presence' n').render) :
    array presence n = array presence' n' := by
  have hnumber : ∀ {m m' : UInt32}, "%" ++ toString m.toNat = "%" ++ toString m'.toNat → m = m' :=
    fun h => UInt32.toNat_inj.mp (Nat.repr_inj.mp (by simpa using h))
  cases presence with
  | absent =>
      cases presence' with
      | absent =>
          have hzero : n.toNat = n'.toNat := (beq_iff_eq.mp hf).trans (beq_iff_eq.mp hg).symm
          rw [UInt32.toNat_inj.mp hzero]
      | empty | populated => exact absurd h (render_absent_ne _)
  | empty =>
      cases presence' with
      | absent => exact absurd h.symm (render_absent_ne _)
      | empty => rw [hnumber h]
      | populated =>
          obtain rfl := hnumber h
          exact absurd (beq_iff_eq.mp hf) (bne_iff_ne.mp hg)
  | populated =>
      cases presence' with
      | absent => exact absurd h.symm (render_absent_ne _)
      | empty =>
          obtain rfl := hnumber h
          exact absurd (beq_iff_eq.mp hg) (bne_iff_ne.mp hf)
      | populated => rw [hnumber h]

/-- Two frames that can be taken at one place are told apart by their texts. -/
theorem render_inj (hcontent : f.content = g.content) (hf : f.Admissible) (hg : g.Admissible)
    (htext : f.content ≠ .text) (h : f.render = g.render) : f = g := by
  cases f with
  | kind category =>
      cases g with
      | kind category' =>
          have hletter : [category.letter] = [category'.letter] := by
            simpa [render] using congrArg String.toList h
          rw [Category.letter_inj (List.cons.inj hletter).1]
      | _ => cases hcontent
  | text value => exact absurd rfl htext
  | bool value =>
      cases g with
      | bool value' => cases value <;> cases value' <;> first | rfl | exact absurd h (by decide)
      | _ => cases hcontent
  | int n =>
      cases g with
      | int n' => rw [Int64.toInt_inj.mp (Int.repr_inj.mp h)]
      | _ => cases hcontent
  | array presence n =>
      cases g with
      | array presence' n' => exact header_render_inj hf hg h
      | _ => cases hcontent

theorem toList_render_text (s : String) :
    (text (some s)).render.toList = '"' :: (Text.Quoted.escape s.toList ++ ['"']) :=
  String.toList_ofList

/-- A text, or its absence, is told from others by its text form, which tells where it ends. -/
theorem text_append_inj {value value' : Option String} (htail : AtBlank tail)
    (htail' : AtBlank tail')
    (h : (text value).render.toList ++ tail = (text value').render.toList ++ tail') :
    value = value' ∧ tail = tail' := by
  cases value with
  | none =>
      cases value' with
      | none => exact ⟨rfl, (List.cons.inj h).2⟩
      | some s' =>
          rw [toList_render_text] at h
          cases (List.cons.inj h).1
  | some s =>
      rw [toList_render_text] at h
      cases value' with
      | none => cases (List.cons.inj h).1
      | some s' =>
          rw [toList_render_text] at h
          simp only [List.cons_append, List.append_assoc, List.nil_append, List.cons.injEq,
            true_and] at h
          obtain ⟨hs, rfl⟩ := Text.Quoted.escape_append_inj htail htail' h
          exact ⟨congrArg some (String.toList_inj.mp hs), rfl⟩

/-- The text of a frame tells it from every other frame that can be taken at the same place, and
tells where it ends. -/
theorem render_append_inj (hcontent : f.content = g.content) (hf : f.Admissible) (hg : g.Admissible)
    (htail : AtBlank tail) (htail' : AtBlank tail')
    (h : f.render.toList ++ tail = g.render.toList ++ tail') : f = g ∧ tail = tail' := by
  by_cases htext : f.content = .text
  · cases f with
    | text value =>
        cases g with
        | text value' =>
            obtain ⟨rfl, rfl⟩ := text_append_inj htail htail' h
            exact ⟨rfl, rfl⟩
        | _ => cases hcontent
    | _ => cases htext
  · obtain ⟨hrender, htails⟩ := word_append_inj (blank_not_mem_render htext)
      (blank_not_mem_render (hcontent ▸ htext)) htail htail' h
    exact ⟨render_inj hcontent hf hg htext (String.toList_inj.mp hrender), htails⟩

end Frame

/-! ## Keys -/

namespace Key

variable {o o' : ResolveOptions} {k k' : Key} {scene scene' : Scene} {resolved resolved' : Resolved}

/-- The text of frames that stand behind others. -/
def spell (frames : List Frame) : List Char :=
  frames.flatMap fun frame => ' ' :: frame.render.toList

theorem atBlank_spell (frames : List Frame) : AtBlank (spell frames) := by
  cases frames with
  | nil => rintro c ⟨⟩
  | cons frame frames => rintro c ⟨⟩; rfl

theorem toList_render (k : Key) :
    k.render.toList = 'v' :: (k.version.toNat.repr.toList ++ spell k.frames) := by
  have hwords : ∀ (frames : List Frame) (word : String),
      (" ".intercalate (word :: frames.map Frame.render)).toList = word.toList ++ spell frames := by
    intro frames
    induction frames with
    | nil => intro word; simp [spell]
    | cons frame frames ih =>
        intro word
        rw [List.map_cons, String.intercalate_cons_cons, String.toList_append,
          String.toList_append, ih]
        simp [spell]
  rw [render, hwords]
  simp

/-- Frames stand in lockstep with frames of the same text. -/
theorem aligned_spell : Scan.Aligned fun rest rest' => spell rest = spell rest' := by
  intro f g rest rest' h hcontent hf hg
  exact Frame.render_append_inj hcontent hf hg (atBlank_spell rest) (atBlank_spell rest')
    (List.cons.inj h).2

/-- Usable keys whose frames have the same text have the same frames. -/
theorem frames_eq_of_spell (husable : k.defect? o = none) (husable' : k'.defect? o = none)
    (h : spell k.frames = spell k'.frames) : k.frames = k'.frames := by
  have hlive := live_of_usable husable
  obtain ⟨hshaped, hframes⟩ := shaped_scanned husable
  obtain ⟨hshaped', hframes'⟩ := shaped_scanned husable'
  have hread := scanned_eq hlive hshaped hframes
  have hread' := scanned_eq hlive hshaped' hframes'
  have hrun := (Description.lockstep_ofFrames aligned_spell hlive o.maxDepth.toNat).level 0 h
  change Scan.Level _ (k.scanned o) (k'.scanned o) at hrun
  rw [hframes, hframes']
  generalize k.scanned o = read at hread hrun ⊢
  generalize k'.scanned o = read' at hread' hrun ⊢
  cases hrun with
  | broken hd hbroken => rw [hread] at hd; cases hd
  | ended hd => rw [hread'] at hd; cases hd
  | level a position hrest => rfl

/-- A key that is usable under some limit is usable under greater ones. -/
theorem usable_mono (husable : k.defect? o = none) (hlive : o'.cancelled = false)
    (hle : o.maxDepth.toNat ≤ o'.maxDepth.toNat) : k.defect? o' = none :=
  (defect?_eq_none_iff hlive).mpr
  (((defect?_eq_none_iff (live_of_usable husable)).mp husable).mono hle)

/-- Two keys that resolve without a defect, against whatever compilations and under whatever limits,
have the same text only if they are the same key, although not all frames have different texts. -/
theorem text_identifies (hclosed : scene.compilation.Closed)
    (hclosed' : scene'.compilation.Closed) (hresolved : (k.resolve o scene).1 = .ok resolved)
    (hresolved' : (k'.resolve o' scene').1 = .ok resolved') :
    (k.render = k'.render ↔ k = k') ∧
      (Frame.kind .field).render = (Frame.bool false).render := by
  refine ⟨⟨fun htext => ?_, fun heq => by rw [heq]⟩, rfl⟩
  have hversion := version_of_ok hresolved
  have hversion' := version_of_ok hresolved'
  have husable := usable_of_ok hversion hclosed hresolved
  have husable' := usable_of_ok hversion' hclosed' hresolved'
  have hspell : spell k.frames = spell k'.frames := by
    have h := congrArg String.toList htext
    rw [toList_render, toList_render, hversion, hversion'] at h
    exact List.append_cancel_left (List.cons.inj h).2
  have hframes : k.frames = k'.frames := by
    rcases Nat.le_total o.maxDepth.toNat o'.maxDepth.toNat with hle | hle
    · exact frames_eq_of_spell (usable_mono husable (live_of_usable husable') hle) husable' hspell
    · exact frames_eq_of_spell husable (usable_mono husable' (live_of_usable husable) hle) hspell
  cases k
  cases k'
  exact congrArg₂ Key.mk (hversion.trans hversion'.symm) hframes

/-- Fields whose names hold quotes, blanks and the text of another frame are told apart. -/
theorem text_identifies_quotes :
    let field (name : String) : Key :=
      ofFrames [.kind .field, .kind .nameSpace, .bool true, .text (some name)]
    let scene : Scene := { compilation := Draft.empty.finish }
    (∃ resolved, ((field "a\" F \"b").resolve {} scene).1 = .ok resolved) ∧
      (∃ resolved, ((field "a\"\" F \"\"b").resolve {} scene).1 = .ok resolved) ∧
      (field "a\" F \"b").render ≠ (field "a\"\" F \"\"b").render := by
  intro field scene
  have hclosed : scene.compilation.Closed := Compilation.Made.closed (.finish .empty)
  obtain ⟨resolved, hresolved⟩ :
      ∃ resolved, ((field "a\" F \"b").resolve {} scene).1 = .ok resolved := ⟨_, rfl⟩
  obtain ⟨resolved', hresolved'⟩ :
      ∃ resolved, ((field "a\"\" F \"\"b").resolve {} scene).1 = .ok resolved := ⟨_, rfl⟩
  refine ⟨⟨_, hresolved⟩, ⟨_, hresolved'⟩, fun htext => ?_⟩
  have heq := (text_identifies hclosed hclosed hresolved hresolved').1.mp htext
  revert heq
  decide

end Key
end Moniker
