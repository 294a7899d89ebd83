import Moniker.Proofs.Lending
import Moniker.Proofs.Parts
import Moniker.Proofs.Terminating
import Moniker.Writer

/-!
# Plain values come back

Besides segments a key holds plain values: texts, flags, numbers, locations, and arrays of these.
Each is written by one call of a writer, and the matching call of a reader takes it back. Calls may
be made in any order: every read goes through the frames of its own value, also when the value is a
location in a file that the compilation does not have, so that the next read finds the next value
(`Reader.plain_returns`). Nothing is assumed of the compilation, for no symbol is looked at.
-/

namespace Moniker

/-- A plain value. An array may not be there at all. -/
inductive PlainValue where
  | text (value : Option String)
  | texts (values : Option (List (Option String)))
  | bool (value : Bool)
  | bools (values : Option (List Bool))
  | int (value : Int64)
  | count (n : Nat)
  | location (value : Location)
  | locations (values : Option (List Location))

namespace PlainValue

/-- Writes the value. -/
def write : PlainValue → Writer → Writer
  | text value => Writer.text value
  | texts values => Writer.texts values
  | bool value => Writer.bool value
  | bools values => Writer.bools values
  | int value => Writer.int value
  | count n => Writer.count n
  | location value => Writer.location value
  | locations values => Writer.locations values

/-- The value is written as it is: counts and coordinates are no larger than an integer frame holds,
and arrays have no more elements than a header announces. -/
def Fits : PlainValue → Prop
  | text _ | bool _ | int _ => True
  | texts values => (values.getD []).length < UInt32.size
  | bools values => (values.getD []).length < UInt32.size
  | count n => Frame.FitsCount n
  | location value => value.Fits
  | locations values => (values.getD []).length < UInt32.size ∧ ∀ l ∈ values.getD [], l.Fits

/-- Which call of a reader takes the value back. -/
inductive Kind where
  | text
  | texts
  | bool
  | bools
  | int
  | count
  | location
  | locations

def kind : PlainValue → Kind
  | text _ => .text
  | texts _ => .texts
  | bool _ => .bool
  | bools _ => .bools
  | int _ => .int
  | count _ => .count
  | location _ => .location
  | locations _ => .locations

/-- What a call hands out. An array has a presence, and a location or array of locations may
fail. -/
inductive Answer where
  | text (value : Option String)
  | texts (content : Presence × List (Option String))
  | bool (value : Bool)
  | bools (content : Presence × List Bool)
  | int (value : Int64)
  | count (n : Nat)
  | location (outcome : Except Failure Location)
  | locations (outcome : Except Failure (Presence × List Location))
  deriving DecidableEq

end PlainValue

namespace Reader

/-- An outcome put in other words. -/
def Outcome.map {α β : Type} (f : α → β) (outcome : Outcome α) : Outcome β :=
  ⟨outcome.value.map f, outcome.reader, outcome.scene⟩

/-- A read that no compilation is needed for leaves the scene as it is. -/
def plainly {α : Type} (reading : Reading α) (r : Reader) (scene : Scene) : Outcome α :=
  ⟨(r.read reading).1.mapError .defect, (r.read reading).2, scene⟩

/-- Makes one call for a plain value. -/
def readPlain (r : Reader) (scene : Scene) : PlainValue.Kind → Outcome PlainValue.Answer
  | .text => (r.plainly Scan.text scene).map .text
  | .texts => (r.readTexts scene).map fun loan => .texts loan.content
  | .bool => (r.plainly Scan.bool scene).map .bool
  | .bools => (r.readBools scene).map fun loan => .bools loan.content
  | .int => (r.plainly Scan.int scene).map .int
  | .count => (r.plainly Scan.count scene).map .count
  | .location => (r.readLocation scene).map .location
  | .locations => (r.readLocations scene).map fun lent => .locations (lent.map Loan.content)

/-- Makes one call after the other, whatever came of those before. Before each call the arena
changes in the given way, as the buffers that have been handed out come back. -/
def readPlains (r : Reader) (scene : Scene) :
    List (PlainValue.Kind × (Arena → Arena)) → List (Except Halt PlainValue.Answer) × Reader × Scene
  | [] => ([], r, scene)
  | (kind, meanwhile) :: rest =>
    let first := r.readPlain { scene with arena := meanwhile scene.arena } kind
    let (answers, last) := first.reader.readPlains first.scene rest
    (first.value :: answers, last)

end Reader

/-- The file of the location belongs to the compilation, if it is in one. -/
def Location.Known (c : Compilation) : Location → Prop
  | .nowhere => True
  | .source path _ => path ∈ c.files

namespace PlainValue

/-- What an array comes back as: absent, empty or populated, and with what elements. -/
def listed {α : Type} : Option (List α) → Presence × List α
  | none => (.absent, [])
  | some [] => (.empty, [])
  | some (a :: rest) => (.populated, a :: rest)

/-- What has to come back for a plain value: the value, or a failure for the first location that is
in an unknown file. -/
inductive Returns (c : Compilation) : PlainValue → Answer → Prop
  | text (value : Option String) : Returns c (.text value) (.text value)
  | texts (values : Option (List (Option String))) :
    Returns c (.texts values) (.texts (listed values))
  | bool (value : Bool) : Returns c (.bool value) (.bool value)
  | bools (values : Option (List Bool)) : Returns c (.bools values) (.bools (listed values))
  | int (value : Int64) : Returns c (.int value) (.int value)
  | count (n : Nat) : Returns c (.count n) (.count n)
  | location {l : Location} (hknown : l.Known c) : Returns c (.location l) (.location (.ok l))
  | unknown {path : String} {span : Span} (hunknown : path ∉ c.files) :
    Returns c (.location (.source path span)) (.location (.error (.notInCompilation path)))
  | locations {values : Option (List Location)} (hknown : ∀ l ∈ values.getD [], l.Known c) :
    Returns c (.locations values) (.locations (.ok (listed values)))
  | someUnknown {known : List Location} {path : String} {span : Span} {rest : List Location}
    (hknown : ∀ l ∈ known, l.Known c) (hunknown : path ∉ c.files) :
    Returns c (.locations (some (known ++ .source path span :: rest)))
      (.locations (.error (.element known.length (.notInCompilation path))))

/-! ## Frames -/

/-- The frames of the value. -/
def frames : PlainValue → List Frame
  | text value => [.text value]
  | texts values => (Listing.ofItems? values).frames fun value => [.text value]
  | bool value => [.bool value]
  | bools values => (Listing.ofItems? values).frames fun value => [.bool value]
  | int value => [.int value]
  | count n => [.count n]
  | location value => Frame.ofLocation value
  | locations values => (Listing.ofItems? values).frames Frame.ofLocation

theorem frames_write (v : PlainValue) (w : Writer) : (v.write w).frames = w.frames ++ v.frames := by
  cases v <;> rfl

theorem listed_eq {α : Type} (values : Option (List α)) :
    listed values = (.ofItems? values, values.getD []) := by
  rcases values with _ | _ | ⟨a, rest⟩ <;> rfl

/-- A header fits the array that it is written for. -/
theorem fitsHeader_ofItems {α : Type} {values : Option (List α)}
    (h : (values.getD []).length < UInt32.size) :
    Frame.FitsHeader (.ofItems? values) (values.getD []).length := by
  cases values with
  | none => exact ⟨rfl, h⟩
  | some values => exact Description.fitsHeader_ofLength h

end PlainValue

/-! ## What gathering arrays comes to -/

namespace Decode

variable {α β : Type} {scene : Scene}

/-- From the scene, the step yields such a value, and leaves the compilation as it is and the arena
clean. -/
def Gives (step : Decode α) (scene : Scene) (post : α → Prop) : Prop :=
  ∃ a scene', step.run scene = (.ok a, scene') ∧ post a ∧ scene'.compilation = scene.compilation ∧
    scene'.arena.Clean

namespace Gives

variable {step : Decode α} {mid : α → Prop} {post : β → Prop}

theorem done {a : α} (hclean : scene.arena.Clean) (h : mid a) : Gives (pure a) scene mid :=
  ⟨a, scene, rfl, h, rfl, hclean⟩

theorem mono {mid' : α → Prop} (h : Gives step scene mid) (himp : ∀ a, mid a → mid' a) :
    Gives step scene mid' := by
  obtain ⟨a, scene', hrun, hmid, hsame, hclean⟩ := h
  exact ⟨a, scene', hrun, himp a hmid, hsame, hclean⟩

theorem bind {next : α → Decode β} (h : Gives step scene mid)
    (hnext : ∀ a scene', mid a → scene'.compilation = scene.compilation → scene'.arena.Clean →
      Gives (next a) scene' post) :
    Gives (step >>= next) scene post := by
  obtain ⟨a, scene₁, hrun, hmid, hsame, hclean⟩ := h
  obtain ⟨b, scene₂, hrun', hpost, hsame', hclean'⟩ := hnext a scene₁ hmid hsame hclean
  refine ⟨b, scene₂, ?_, hpost, hsame'.trans hsame, hclean'⟩
  rw [run_bind, hrun]
  exact hrun'

/-- A buffer that is not given back makes no difference. -/
theorem orGiveBack [Lends β] (loan : Loan β) (h : Gives step scene mid) :
    Gives (orGiveBack loan step) scene mid := by
  obtain ⟨a, scene', hrun, hmid, hsame, hclean⟩ := h
  refine ⟨a, scene', ?_, hmid, hsame, hclean⟩
  rw [run_orGiveBack, hrun]

/-- One location is looked at. -/
theorem location (l : Location) (hclean : scene.arena.Clean) :
    Gives (location (.ok l)) scene (· = scene.compilation.accept l) :=
  ⟨scene.compilation.accept l, scene, run_location l scene, rfl, rfl, hclean⟩

/-- Values that are there are gathered one after the other. -/
theorem gather [Lends α] (values : List α) (loan : Loan α) (hclean : scene.arena.Clean) :
    Gives (gather (values.map .ok) loan) scene
      (·.content = (loan.presence, loan.items ++ values)) := by
  induction values generalizing loan scene with
  | nil =>
    refine done hclean ?_
    rw [List.append_nil]
    rfl
  | cons a rest ih =>
    have hslot : Gives (ofSlot (.ok a)) scene (· = a) := done hclean rfl
    refine (hslot.orGiveBack loan).bind fun b scene' hb _ hclean' => ?_
    subst hb
    have hrest := ih (loan.push b) hclean'
    rw [Loan.presence_push, Loan.items_push, List.append_assoc] at hrest
    exact hrest

/-- Locations are looked at one after the other. The first that is refused is what comes of them
all, and then the buffer is given back. -/
theorem collect (places : List Location) (index : Nat) (loan : Loan Location)
    (failure : Option Failure) (hclean : scene.arena.Clean) :
    Gives (collect index ((places.map Except.ok).map Decode.location) loan failure) scene
      fun lent =>
      lent.map Loan.content =
        match failure with
        | some reason => .error reason
        | none => (gathered index (places.map scene.compilation.accept)).map
            fun items => (loan.presence, loan.items ++ items) := by
  induction places generalizing index loan failure scene with
  | nil =>
    cases failure with
    | some reason => exact ⟨.error reason, _, rfl, rfl, rfl, clean_release hclean loan⟩
    | none =>
      refine done hclean ?_
      show Except.ok loan.content = .ok (loan.presence, loan.items ++ [])
      rw [List.append_nil]
      rfl
  | cons place rest ih =>
    refine ((location place hclean).orGiveBack loan).bind
      fun outcome scene' houtcome hsame hclean' => ?_
    rw [List.map_cons, ← houtcome, ← hsame]
    cases outcome with
    | ok l =>
      refine (ih (index + 1) (loan.push l) failure hclean').mono fun lent hlent => ?_
      rw [hlent]
      cases failure with
      | some reason => rfl
      | none =>
        rw [gathered, Loan.presence_push, Loan.items_push]
        cases gathered (index + 1) (rest.map scene'.compilation.accept) with
        | error reason => rfl
        | ok items =>
          have hitems : loan.items ++ [l] ++ items = loan.items ++ (l :: items) := by
            rw [List.append_assoc]
            rfl
          exact congrArg (fun all => Except.ok (loan.presence, all)) hitems
    | error reason =>
      refine (ih (index + 1) loan (failure <|> some (.element index reason)) hclean').mono
        fun lent hlent => ?_
      rw [hlent]
      cases failure <;> rfl

/-- A buffer that is borrowed is empty. -/
theorem borrow [Lends α] [Lends.Lawful α] (presence : Presence) (n : Nat)
    (hclean : scene.arena.Clean) :
    Gives (borrow presence n : Decode (Loan α)) scene (·.content = (presence, [])) := by
  obtain ⟨hempty, hafter⟩ := hclean.acquire (α := α) presence n
  exact ⟨_, scene.lending α presence n, rfl, hempty, rfl, hafter⟩

/-- An array that is there is read into a buffer, which holds nothing else. -/
theorem listing [Lends α] [Lends.Lawful α] (presence : Presence) (values : List α)
    (hclean : scene.arena.Clean) :
    Gives (listing (Listing.full presence values)) scene (·.content = (presence, values)) := by
  show Gives (Decode.borrow presence _ >>= Decode.gather (values.map .ok)) scene _
  refine (borrow presence _ hclean).bind fun loan scene' hempty _ hclean' => ?_
  obtain ⟨hpresence, hitems⟩ := Prod.mk.inj hempty
  have hgather := gather values loan hclean'
  rw [hpresence, hitems, List.nil_append] at hgather
  exact hgather

/-- An array of locations comes to all of them, or to the first that is refused. -/
theorem locations (presence : Presence) (places : List Location) (hclean : scene.arena.Clean) :
    Gives (locations (Listing.full presence places)) scene fun lent =>
      lent.map Loan.content =
        (gathered 0 (places.map scene.compilation.accept)).map fun items => (presence, items) := by
  show Gives (Decode.borrow presence _ >>= fun loan =>
    Decode.collect 0 ((places.map .ok).map Decode.location) loan none) scene _
  refine (borrow presence _ hclean).bind fun loan scene' hempty hsame hclean' => ?_
  obtain ⟨hpresence, hitems⟩ := Prod.mk.inj hempty
  have hcollect := collect places 0 loan none hclean'
  rw [hpresence, hitems, hsame] at hcollect
  exact hcollect

end Gives

end Decode

/-! ## One call -/

namespace Compilation

variable {c : Compilation}

theorem accept_of_known {l : Location} (h : l.Known c) : c.accept l = .ok l := by
  cases l with
  | nowhere => rfl
  | source path span =>
    have hpath : path ∈ c.files := h
    rw [accept, containsFile, if_pos (decide_eq_true hpath)]

theorem accept_of_unknown {path : String} (h : path ∉ c.files) (span : Span) :
    c.accept (.source path span) = .error (.notInCompilation path) := by
  rw [accept, containsFile, if_neg (by simpa using h)]

theorem known_or (l : Location) :
    l.Known c ∨ ∃ path span, l = .source path span ∧ path ∉ c.files := by
  cases l with
  | nowhere => exact .inl trivial
  | source path span =>
    by_cases hpath : path ∈ c.files
    · exact .inl hpath
    · exact .inr ⟨path, span, rfl, hpath⟩

/-- Either all locations are known, or there is a first one that is not. -/
theorem gathered_known_or (places : List Location) (index : Nat) :
    ((∀ l ∈ places, l.Known c) ∧ gathered index (places.map c.accept) = .ok places) ∨
      ∃ known path span rest, places = known ++ .source path span :: rest ∧
        (∀ l ∈ known, l.Known c) ∧ path ∉ c.files ∧
        gathered index (places.map c.accept) =
          .error (.element (index + known.length) (.notInCompilation path)) := by
  induction places generalizing index with
  | nil =>
    refine .inl ⟨fun l hl => ?_, rfl⟩
    cases hl
  | cons place rest ih =>
    rcases known_or (c := c) place with hknown | ⟨path, span, rfl, hunknown⟩
    · have hall (known : List Location) (h : ∀ l ∈ known, l.Known c) :
          ∀ l ∈ place :: known, l.Known c := by
        intro l hl
        rcases List.mem_cons.mp hl with rfl | hl
        · exact hknown
        · exact h l hl
      rw [List.map_cons, accept_of_known hknown, gathered]
      rcases ih (index + 1) with
        ⟨hrest, hok⟩ | ⟨known, path, span, later, rfl, hrest, hunknown, herror⟩
      · rw [hok]
        exact .inl ⟨hall rest hrest, rfl⟩
      · rw [herror]
        refine .inr ⟨place :: known, path, span, later, rfl, hall known hrest, hunknown, ?_⟩
        rw [List.length_cons, Nat.add_comm known.length, ← Nat.add_assoc]
        rfl
    · refine .inr ⟨[], path, span, rest, rfl, fun l hl => ?_, hunknown, ?_⟩
      · cases hl
      · rw [List.map_cons, accept_of_unknown hunknown span, gathered]
        rfl

end Compilation

namespace Reader

/-- A call has handed out such a value and has left the reader there, the compilation as it was and
the arena clean. -/
structure Outcome.Gives {α : Type} (outcome : Outcome α) (r' : Reader) (scene : Scene)
    (post : α → Prop) : Prop where
  value_eq : ∃ a, outcome.value = .ok a ∧ post a
  reader_eq : outcome.reader = r'
  compilation_eq : outcome.scene.compilation = scene.compilation
  clean : outcome.scene.arena.Clean

variable {α β : Type} {r r' : Reader} {scene : Scene} {frames tail : List Frame}

theorem Outcome.Gives.map {outcome : Outcome α} {post : α → Prop} {post' : β → Prop} {f : α → β}
    (h : outcome.Gives r' scene post) (himp : ∀ a, post a → post' (f a)) :
    (outcome.map f).Gives r' scene post' := by
  obtain ⟨⟨a, hvalue, hpost⟩, hreader, hcompilation, hclean⟩ := h
  refine ⟨⟨f a, ?_, himp a hpost⟩, hreader, hcompilation, hclean⟩
  rw [Outcome.map, hvalue]
  rfl

/-- A read goes through the frames of what it scans. -/
theorem perform_gives {scanner : Scanner α} {a : α} (h : Scan.Yields scanner frames a)
    (hahead : r.frames.drop r.place.position = frames ++ tail) {meaning : α → Scan → Decode β}
    {post : β → Prop} (hmeaning : ∀ scan, (meaning a scan).Gives scene post) :
    (r.perform scanner meaning scene).Gives (r.moved (r.place.position + frames.length)) scene
      post := by
  have hscan : scanner.run
      { position := r.place.position, rest := r.frames.drop r.place.position } =
      (a, { position := r.place.position + frames.length, rest := tail }) := by
    rw [hahead]
    exact h r.place.position tail
  obtain ⟨b, scene', hrun, hpost, hsame, hclean⟩ :=
    hmeaning { position := r.place.position + frames.length, rest := tail }
  rw [perform_match meaning hscan, hrun]
  exact ⟨⟨b, rfl, hpost⟩, rfl, hsame, hclean⟩

theorem plainly_gives {reading : Reading α} {a : α} (h : Scan.Yields reading.run frames (.ok a))
    (hahead : r.frames.drop r.place.position = frames ++ tail) (hclean : scene.arena.Clean) :
    (r.plainly reading scene).Gives (r.moved (r.place.position + frames.length)) scene (· = a) := by
  have hread : r.read reading = (.ok a, r.moved (r.place.position + frames.length)) := by
    have hrun := h r.place.position tail
    rw [← hahead] at hrun
    unfold read scan
    rw [hrun]
    rfl
  unfold plainly
  rw [hread]
  exact ⟨⟨a, rfl, rfl⟩, rfl, rfl, hclean⟩

/-- An array is read into a buffer, with its presence and its elements. -/
theorem listing_gives [Lends α] [Lends.Lawful α] {item : Reading α} {write : α → List Frame}
    (hwrite : ∀ a, write a ≠ []) (hitem : ∀ a, Scan.Yields item.run (write a) (.ok a))
    {values : Option (List α)} (hsize : (values.getD []).length < UInt32.size)
    (hclean : scene.arena.Clean)
    (hahead : r.frames.drop r.place.position = (Listing.ofItems? values).frames write ++ tail) :
    (r.perform (Scan.listing item) (fun l _ => Decode.listing l) scene).Gives
      (r.moved (r.place.position + ((Listing.ofItems? values).frames write).length)) scene
      (·.content = PlainValue.listed values) := by
  have hyields : Scan.Yields (Scan.listing item) ((Listing.ofItems? values).frames write)
      (Listing.full (.ofItems? values) (values.getD [])) :=
    .listing (PlainValue.fitsHeader_ofItems hsize) (fun a _ => hwrite a) fun a _ => hitem a
  rw [PlainValue.listed_eq]
  exact perform_gives hyields hahead fun _ => .listing _ _ hclean

/-- What an array of locations comes to is what has to come back for it. -/
theorem returns_locations {c : Compilation} {values : Option (List Location)}
    {outcome : Except Failure (Presence × List Location)}
    (h : outcome = (gathered 0 ((values.getD []).map c.accept)).map fun items =>
      (.ofItems? values, items)) :
    PlainValue.Returns c (.locations values) (.locations outcome) := by
  rcases Compilation.gathered_known_or (c := c) (values.getD []) 0 with
    ⟨hknown, hok⟩ | ⟨known, path, span, rest, hvalues, hknown, hunknown, herror⟩
  · have hlocations := PlainValue.Returns.locations hknown
    rw [PlainValue.listed_eq] at hlocations
    rw [h, hok]
    exact hlocations
  · obtain rfl : values = some (known ++ .source path span :: rest) := by
      cases values with
      | none => simp at hvalues
      | some places => exact congrArg some hvalues
    rw [h, herror, Nat.zero_add]
    exact .someUnknown hknown hunknown

/-- The call for a value, where its frames are ahead, goes through them and hands out the value. -/
theorem readPlain_gives {v : PlainValue} (hfits : v.Fits) (hclean : scene.arena.Clean)
    (hahead : r.frames.drop r.place.position = v.frames ++ tail) :
    (r.readPlain scene v.kind).Gives (r.moved (r.place.position + v.frames.length)) scene
      (v.Returns scene.compilation) := by
  cases v with
  | text value =>
    refine (plainly_gives (.text value) hahead hclean).map fun a ha => ?_
    rw [ha]
    exact .text value
  | texts values =>
    refine (listing_gives (by simp) Scan.Yields.text hfits hclean hahead).map fun loan hcontent =>
      ?_
    rw [hcontent]
    exact .texts values
  | bool value =>
    refine (plainly_gives (.bool value) hahead hclean).map fun a ha => ?_
    rw [ha]
    exact .bool value
  | bools values =>
    refine (listing_gives (by simp) Scan.Yields.bool hfits hclean hahead).map fun loan hcontent =>
      ?_
    rw [hcontent]
    exact .bools values
  | int value =>
    have hyields : Scan.Yields Scan.int.run [.int value] (.ok value) := fun _ _ => rfl
    refine (plainly_gives hyields hahead hclean).map fun a ha => ?_
    rw [ha]
    exact .int value
  | count n =>
    refine (plainly_gives (.count hfits) hahead hclean).map fun a ha => ?_
    rw [ha]
    exact .count n
  | location l =>
    refine (perform_gives (.location hfits) hahead fun _ => .location l hclean).map fun outcome h =>
      ?_
    rw [h]
    rcases Compilation.known_or l with hknown | ⟨path, span, rfl, hunknown⟩
    · rw [Compilation.accept_of_known hknown]
      exact .location hknown
    · rw [Compilation.accept_of_unknown hunknown]
      exact .unknown hunknown
  | locations values =>
    have hyields : Scan.Yields (Scan.listing Scan.location) (PlainValue.locations values).frames
        (Listing.full (.ofItems? values) (values.getD [])) :=
      Description.yields_locations ⟨_, _, rfl, PlainValue.fitsHeader_ofItems hfits.1, hfits.2⟩
    refine (perform_gives hyields hahead fun _ => .locations _ _ hclean).map fun lent hlent => ?_
    exact returns_locations hlent

/-! ## Sequences of calls -/

/-- Where the frames of some values are ahead, the calls for them hand out the values one after the
other. -/
theorem readPlains_returns {calls : List (PlainValue × (Arena → Arena))}
    (hfits : ∀ call ∈ calls, call.1.Fits) (hlater : ∀ call ∈ calls, ∀ a : Arena, a.Later (call.2 a))
    (hclean : scene.arena.Clean)
    (hahead : r.frames.drop r.place.position = calls.flatMap (fun call => call.1.frames) ++ tail) :
    ∃ answers scene', r.readPlains scene (calls.map fun call => (call.1.kind, call.2)) =
        (answers, r.moved (r.place.position + (calls.flatMap fun call => call.1.frames).length),
          scene') ∧
      List.Forall₂ (fun call answer => ∃ a, answer = .ok a ∧ call.1.Returns scene.compilation a)
        calls answers ∧
      scene'.compilation = scene.compilation := by
  induction calls generalizing r scene with
  | nil => exact ⟨[], scene, rfl, .nil, rfl⟩
  | cons call rest ih =>
    obtain ⟨v, meanwhile⟩ := call
    have hclean₁ : ({ scene with arena := meanwhile scene.arena } : Scene).arena.Clean :=
      (hlater (v, meanwhile) List.mem_cons_self scene.arena).clean hclean
    rw [List.flatMap_cons, List.append_assoc] at hahead
    obtain ⟨⟨answer, hvalue, hreturns⟩, hreader, hsame, hclean₂⟩ :=
      readPlain_gives (hfits (v, meanwhile) List.mem_cons_self) hclean₁ hahead
    -- the reader has gone through the frames of the first value, and those of the others are ahead
    have hahead' : (r.moved (r.place.position + v.frames.length)).frames.drop
        (r.place.position + v.frames.length) = rest.flatMap (fun call => call.1.frames) ++
            tail := by
      show r.frames.drop (r.place.position + v.frames.length) = _
      rw [← List.drop_drop, hahead, List.drop_left]
    obtain ⟨answers, scene', hrest, hall, hsame'⟩ :=
      ih (r := r.moved (r.place.position + v.frames.length))
        (fun call hcall => hfits call (List.mem_cons_of_mem _ hcall))
        (fun call hcall => hlater call (List.mem_cons_of_mem _ hcall)) hclean₂ hahead'
    refine ⟨.ok answer :: answers, scene', ?_, .cons ⟨answer, rfl, hreturns⟩ ?_, hsame'.trans hsame⟩
    · rw [List.map_cons, readPlains]
      simp only [hvalue, hreader, hrest]
      rw [List.flatMap_cons, List.length_append, ← Nat.add_assoc]
      rfl
    · rw [hsame] at hall
      exact hall

/-- What is written by one call after the other. -/
theorem frames_writeEach (calls : List (PlainValue × (Arena → Arena))) (w : Writer) :
    (calls.foldl (fun w call => call.1.write w) w).frames =
      w.frames ++ calls.flatMap fun call => call.1.frames := by
  induction calls generalizing w with
  | nil => exact (List.append_nil _).symm
  | cons call rest ih =>
    rw [List.foldl_cons, ih, PlainValue.frames_write, List.flatMap_cons, List.append_assoc]

/-- Whatever plain values are written one after the other, the matching calls of a reader hand them
out again in any compilation, each with its presence, and end after the last frame. A location in an
unknown file is a failure, in an array the first of these is, and the calls after it hand out their
own values all the same. -/
theorem plain_returns (calls : List (PlainValue × (Arena → Arena)))
    (hfits : ∀ call ∈ calls, call.1.Fits) (hlater : ∀ call ∈ calls, ∀ a : Arena, a.Later (call.2 a))
    (scene : Scene) (hclean : scene.arena.Clean) :
    let frames := (calls.foldl (fun w call => call.1.write w) ({} : Writer)).frames
    ∃ answers scene',
      ({ frames := frames } : Reader).readPlains scene
        (calls.map fun call => (call.1.kind, call.2)) =
        (answers, { frames := frames, place := { position := frames.length } }, scene') ∧
      List.Forall₂ (fun call answer => ∃ a, answer = .ok a ∧ call.1.Returns scene.compilation a)
        calls answers ∧
      scene'.compilation = scene.compilation := by
  intro frames
  have hframes : frames = calls.flatMap fun call => call.1.frames :=
    (frames_writeEach calls {}).trans (List.nil_append _)
  have hahead : ({ frames := frames } : Reader).frames.drop 0 =
      calls.flatMap (fun call => call.1.frames) ++ [] := by
    rw [List.drop_zero, List.append_nil]
    exact hframes
  obtain ⟨answers, scene', hrun, hall, hsame⟩ :=
    readPlains_returns (r := { frames := frames }) hfits hlater hclean hahead
  refine ⟨answers, scene', ?_, hall, hsame⟩
  rw [← hframes] at hrun
  simp only [Nat.zero_add] at hrun
  exact hrun

/-- The second of three locations is in an unknown file, and an array and a number come after them.
The buffers of the arrays stay on loan. -/
theorem plain_returns_unknown :
    let c := (Draft.empty.file "a").finish
    let site (path : String) : Location := .source path ⟨⟨1, 2, 3⟩, ⟨4, 5, 6⟩⟩
    let lend (a : Arena) : Arena := (a.acquire .populated 3 : Loan Bool × Arena).2
    let calls : List (PlainValue × (Arena → Arena)) :=
      [(.locations (some [site "a", site "b", site "c"]), id), (.bools (some []), lend),
        (.count 7, lend)]
    let frames := (calls.foldl (fun w call => call.1.write w) ({} : Writer)).frames
    ∃ answers scene', ({ frames := frames } : Reader).readPlains { compilation := c }
          (calls.map fun call => (call.1.kind, call.2)) =
        (answers, { frames := frames, place := { position := 27 } }, scene') ∧
      answers = [.ok (.locations (.error (.element 1 (.notInCompilation "b")))),
        .ok (.bools (.empty, [])), .ok (.count 7)] := by
  intro c site lend calls frames
  have hpos : Pos.Fits ⟨1, 2, 3⟩ ∧ Pos.Fits ⟨4, 5, 6⟩ := by
    refine ⟨⟨?_, ?_, ?_⟩, ⟨?_, ?_, ?_⟩⟩ <;> exact Nat.le_of_lt_succ (by decide)
  have hfits : ∀ call ∈ calls, call.1.Fits := by
    intro call hcall
    simp only [calls, List.mem_cons, List.not_mem_nil, or_false] at hcall
    rcases hcall with rfl | rfl | rfl
    · refine ⟨by decide, fun l hl => ?_⟩
      simp only [Option.getD_some, List.mem_cons, List.not_mem_nil, or_false] at hl
      rcases hl with rfl | rfl | rfl <;> exact hpos
    · show ([] : List Bool).length < UInt32.size
      decide
    · show 7 ≤ 9223372036854775807
      decide
  have hlater : ∀ call ∈ calls, ∀ a : Arena, a.Later (call.2 a) := by
    intro call hcall a
    simp only [calls, List.mem_cons, List.not_mem_nil, or_false] at hcall
    rcases hcall with rfl | rfl | rfl
    · exact .refl
    · exact .acquire .refl .populated 3
    · exact .acquire .refl .populated 3
  obtain ⟨answers, scene', hrun, -, -⟩ :=
    plain_returns calls hfits hlater { compilation := c } Arena.clean_empty
  refine ⟨answers, scene', hrun, ?_⟩
  have hanswers : (({ frames := frames } : Reader).readPlains { compilation := c }
      (calls.map fun call => (call.1.kind, call.2))).1 =
      [.ok (.locations (.error (.element 1 (.notInCompilation "b")))), .ok (.bools (.empty, [])),
        .ok (.count 7)] := by
    decide +kernel
  rw [hrun] at hanswers
  exact hanswers

end Reader
end Moniker
