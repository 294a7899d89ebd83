import Moniker.Proofs.Defects
import Moniker.Scan

/-!
# Scanning forwards and backwards

Two judgements about scanning steps. `Scan.Yields step frames a` says that from these frames on
the step goes through them all and yields `a`, whatever follows. `Scan.Tracks step post` says
what can be learnt from any run of the step: the defect that it ends with, and the frames that it
went through if it did not end the scan. Both have a rule for each way of putting steps together.
-/

namespace Moniker

namespace Frame

/-- A number that a count frame holds as it is. -/
def FitsCount (n : Nat) : Prop := n ≤ maxCount

/-- A header that may announce so many elements. -/
structure FitsHeader (presence : Presence) (n : Nat) : Prop where
  admits : presence.admits n
  lt : n < UInt32.size

theorem count_eq {n : Nat} (h : FitsCount n) : count n = .int (Int64.ofNat n) := by
  rw [count, Nat.min_eq_left h]

theorem header_eq {presence : Presence} {n : Nat} (h : n < UInt32.size) :
    header presence n = .array presence (UInt32.ofNat n) := by
  rw [header, Nat.min_eq_left (by omega)]

theorem toInt_ofNat {n : Nat} (h : FitsCount n) : (Int64.ofNat n).toInt = n := by
  have h : n ≤ 9223372036854775807 := h
  exact Int64.toInt_ofNat_of_lt (by omega)

theorem not_neg_ofNat {n : Nat} (h : FitsCount n) : ¬ Int64.ofNat n < 0 := by
  rw [Int64.lt_iff_toInt_lt, toInt_ofNat h]
  simp

end Frame

/-- What a count frame holds. -/
theorem Frame.count_toNat {value : Int64} (h : ¬ value < 0) :
    FitsCount value.toInt.toNat ∧ count value.toInt.toNat = .int value := by
  have hle : 0 ≤ value.toInt := by
    rw [Int64.lt_iff_toInt_lt] at h
    simpa using h
  have hlt := Int64.toInt_lt value
  have hfits : FitsCount value.toInt.toNat := by
    show value.toInt.toNat ≤ 9223372036854775807
    omega
  have hvalue : Int64.ofNat value.toInt.toNat = value := by
    rw [← Int64.toInt_inj, toInt_ofNat hfits]
    omega
  exact ⟨hfits, by rw [count_eq hfits, hvalue]⟩

/-- A position whose coordinates are held by count frames as they are. -/
structure Pos.Fits (p : Pos) : Prop where
  line : Frame.FitsCount p.line.toNat
  col : Frame.FitsCount p.col.toNat
  offset : Frame.FitsCount p.offset.toNat

/-- Counts are the coordinates of a position. -/
theorem Pos.fits_ofNat {line col offset : Nat} (hline : Frame.FitsCount line)
    (hcol : Frame.FitsCount col) (hoffset : Frame.FitsCount offset) :
    (⟨UInt64.ofNat line, UInt64.ofNat col, UInt64.ofNat offset⟩ : Pos).Fits ∧
      Frame.ofPos ⟨UInt64.ofNat line, UInt64.ofNat col, UInt64.ofNat offset⟩ =
        [.count line, .count col, .count offset] := by
  have hword : ∀ n, Frame.FitsCount n → (UInt64.ofNat n).toNat = n := by
    intro n hn
    have hn : n ≤ 9223372036854775807 := hn
    simp
    omega
  refine ⟨⟨?_, ?_, ?_⟩, ?_⟩
  · simpa only [hword line hline] using hline
  · simpa only [hword col hcol] using hcol
  · simpa only [hword offset hoffset] using hoffset
  · simp only [Frame.ofPos, hword line hline, hword col hcol, hword offset hoffset]

/-- The same for both ends of a location. -/
def Location.Fits : Location → Prop
  | .nowhere => True
  | .source _ span => span.start.Fits ∧ span.stop.Fits

/-- A list of images is the image of a list. -/
theorem exists_map {α β : Type} {f : α → β} {good : α → Prop} {images : List β}
    (h : ∀ b ∈ images, ∃ a, b = f a ∧ good a) :
    ∃ as : List α, images = as.map f ∧ ∀ a ∈ as, good a := by
  induction images with
  | nil => exact ⟨[], rfl, by simp⟩
  | cons b rest ih =>
      obtain ⟨a, rfl, ha⟩ := h b (by simp)
      obtain ⟨as, rfl, has⟩ := ih fun b hb => h b (by simp [hb])
      refine ⟨a :: as, rfl, fun a' ha' => ?_⟩
      rcases List.mem_cons.mp ha' with rfl | ha'
      · exact ha
      · exact has a' ha'

/-- The array with this header and these values. -/
def Listing.full (presence : Presence) (values : List α) : Listing α :=
  ⟨.ok presence, values.map .ok⟩

/-- A well-formed array of plain values. -/
def Listing.Shaped (good : α → Prop) (l : Listing α) : Prop :=
  ∃ presence values, l = .full presence values ∧ Frame.FitsHeader presence values.length ∧
    ∀ a ∈ values, good a

namespace Scan

variable {α β : Type}

theorem run_bind (step : Scanner α) (next : α → Scanner β) (scan : Scan) :
    (step >>= next).run scan = (next (step.run scan).1).run (step.run scan).2 := rfl

theorem run_map (f : α → β) (step : Scanner α) (scan : Scan) :
    (f <$> step).run scan = (f (step.run scan).1, (step.run scan).2) := rfl

/-! ## Forwards -/

/-- From the frames on, the step goes through them and yields the value, whatever follows. -/
def Yields (step : Scanner α) (frames : List Frame) (a : α) : Prop :=
  ∀ (position : Nat) (tail : List Frame),
    step.run { position := position, rest := frames ++ tail } =
      (a, { position := position + frames.length, rest := tail })

namespace Yields

theorem done (a : α) : Yields (pure a) [] a := fun _ _ => rfl

theorem congr {step : Scanner α} {frames frames' : List Frame} {a : α} (h : Yields step frames a)
    (heq : frames = frames') : Yields step frames' a :=
  heq ▸ h

theorem bind {step : Scanner α} {next : α → Scanner β} {frames frames' : List Frame} {a : α} {b : β}
    (h : Yields step frames a) (h' : Yields (next a) frames' b) :
    Yields (step >>= next) (frames ++ frames') b := by
  intro position tail
  rw [List.append_assoc, run_bind, h position (frames' ++ tail), h' (position + frames.length) tail,
    List.length_append, Nat.add_assoc]

theorem kind (category : Category) : Yields kind.run [.kind category] (.ok category) :=
  fun _ _ => rfl

theorem text (value : Option String) : Yields text.run [.text value] (.ok value) :=
  fun _ _ => rfl

theorem bool (value : Bool) : Yields bool.run [.bool value] (.ok value) := fun _ _ => rfl

theorem name (name : String) : Yields Scan.name.run (Frame.ofName name) (.ok name) :=
  fun _ _ => rfl

theorem count {n : Nat} (h : Frame.FitsCount n) :
    Yields Scan.count.run (Frame.ofCount n) (.ok n) := by
  intro position tail
  have hrun : Scan.count.run.run { position := position, rest := .int (Int64.ofNat n) :: tail } =
      (if Int64.ofNat n < 0 then raise (.negativeCount (Int64.ofNat n) position)
        else pure (Int64.ofNat n).toInt.toNat : Reading Nat).run.run
          { position := position + 1, rest := tail } := rfl
  rw [Frame.ofCount, Frame.count_eq h]
  rw [if_neg (Frame.not_neg_ofNat h), Frame.toInt_ofNat h] at hrun
  exact hrun

/-- One reading after another. -/
theorem andThen {step : Reading α} {next : α → Reading β} {frames frames' : List Frame} {a : α}
    {slot : Except Defect β} (h : Yields step.run frames (.ok a))
    (h' : Yields (next a).run frames' slot) :
    Yields (step >>= next).run (frames ++ frames') slot := by
  rw [ExceptT.run_bind]
  exact h.bind h'

/-- The coordinates of a position that count frames hold as they are. -/
theorem pos {p : Pos} (h : p.Fits) : Yields Scan.pos.run (Frame.ofPos p) (.ok p) := by
  have h : Yields Scan.pos.run (Frame.ofCount p.line.toNat ++
      (Frame.ofCount p.col.toNat ++ (Frame.ofCount p.offset.toNat ++ [])))
      (.ok ⟨UInt64.ofNat p.line.toNat, UInt64.ofNat p.col.toNat, UInt64.ofNat p.offset.toNat⟩) :=
    andThen (count h.line) (andThen (count h.col) (andThen (count h.offset) (done _)))
  simp only [UInt64.ofNat_toNat] at h
  exact h

theorem location {l : Location} (h : l.Fits) :
    Yields Scan.location.run (Frame.ofLocation l) (.ok l) := by
  cases l with
  | nowhere => exact fun _ _ => rfl
  | source path span =>
      obtain ⟨hstart, hstop⟩ := h
      have hsite : Yields (do return .source (← Scan.name) ⟨← Scan.pos, ← Scan.pos⟩ :
          Reading Location).run (Frame.ofName path ++ (Frame.ofPos span.start ++
            (Frame.ofPos span.stop ++ []))) (.ok (.source path span)) :=
        andThen (name path) (andThen (pos hstart) (andThen (pos hstop) (done _)))
      intro position tail
      have hrun := hsite (position + 1) tail
      rw [List.append_nil] at hrun
      refine Eq.trans hrun ?_
      have hlen : position + 1 + (Frame.ofName path ++
          (Frame.ofPos span.start ++ Frame.ofPos span.stop)).length =
          position + (Frame.ofLocation (.source path span)).length := by
        simp only [Frame.ofLocation, Frame.ofName, List.length_append, List.length_cons,
          List.length_nil]
        omega
      rw [hlen]

/-! ### Arrays -/

theorem times {step : Scanner α} {items : List α} {frames : α → List Frame}
    (h : ∀ a ∈ items, Yields step (frames a) a) :
    Yields (Scan.times step items.length) (items.flatMap frames) items := by
  induction items with
  | nil => exact done []
  | cons a rest ih =>
      have htail : Yields (do return a :: (← Scan.times step rest.length))
          (rest.flatMap frames ++ []) (a :: rest) :=
        (ih fun b hb => h b (by simp [hb])).bind (done (a :: rest))
      rw [List.append_nil] at htail
      exact (h a (by simp)).bind htail

/-- A header is taken back if as many frames follow as it announces elements. -/
theorem header_run {presence : Presence} {n : Nat} (h : Frame.FitsHeader presence n)
    (position : Nat) (tail : List Frame) (hlen : n ≤ tail.length) :
    Scan.header.run.run { position := position, rest := Frame.header presence n :: tail } =
      (.ok (presence, n), { position := position + 1, rest := tail }) := by
  have hn : (UInt32.ofNat n).toNat = n := by
    simpa using Nat.mod_eq_of_lt h.lt
  rw [Frame.header_eq h.lt]
  have hrun : Scan.header.run.run
      { position := position, rest := .array presence (UInt32.ofNat n) :: tail } =
      (do
        if !presence.admits (UInt32.ofNat n).toNat then
          raise (.header presence (UInt32.ofNat n).toNat position)
        let remaining := (← get).rest.length
        if remaining < (UInt32.ofNat n).toNat then
          raise (.overlong position (UInt32.ofNat n).toNat remaining)
        return (presence, (UInt32.ofNat n).toNat) : Reading (Presence × Nat)).run.run
          { position := position + 1, rest := tail } := rfl
  have hlen : ¬ tail.length < n := by omega
  have hlast : (do
      let remaining := (← get).rest.length
      if remaining < n then
        raise (.overlong position n remaining)
      return (presence, n) : Reading (Presence × Nat)).run.run
        { position := position + 1, rest := tail } =
      (if tail.length < n then
        (do raise (.overlong position n tail.length); return (presence, n))
       else return (presence, n) : Reading (Presence × Nat)).run.run
        { position := position + 1, rest := tail } := rfl
  rw [hrun, hn, h.admits]
  rw [if_neg hlen] at hlast
  exact hlast

/-- Elements that have frames are no more than their frames. -/
theorem length_le_flatMap {items : List α} {frames : α → List Frame}
    (h : ∀ a ∈ items, frames a ≠ []) : items.length ≤ (items.flatMap frames).length := by
  induction items with
  | nil => simp
  | cons a rest ih =>
      have hhead := List.length_pos_iff.mpr (h a (by simp))
      have htail := ih fun b hb => h b (by simp [hb])
      rw [List.flatMap_cons, List.length_append, List.length_cons]
      omega

theorem array {step : Scanner α} {items : List α} {frames : α → List Frame} {presence : Presence}
    (hheader : Frame.FitsHeader presence items.length) (hframes : ∀ a ∈ items, frames a ≠ [])
    (h : ∀ a ∈ items, Yields step (frames a) a) :
    Yields (Scan.array step) (Frame.header presence items.length :: items.flatMap frames)
      (.ok presence, items) := by
  intro position tail
  have hlen : items.length ≤ (items.flatMap frames ++ tail).length := by
    have := length_le_flatMap hframes
    rw [List.length_append]
    omega
  have hitems : Yields (do return (.ok presence, ← Scan.times step items.length) :
      Scanner (Except Defect Presence × List α)) (items.flatMap frames ++ [])
      (.ok presence, items) := by
    refine (times h).bind ?_
    exact done _
  have hrun : (Scan.array step).run
        { position := position, rest := Frame.header presence items.length ::
          (items.flatMap frames ++ tail) } =
      (do return (.ok presence, ← Scan.times step items.length) :
        Scanner (Except Defect Presence × List α)).run
        { position := position + 1, rest := items.flatMap frames ++ tail } := by
    rw [Scan.array, run_bind, header_run hheader position _ hlen]
  rw [List.append_nil] at hitems
  refine hrun.trans ((hitems (position + 1) tail).trans ?_)
  rw [List.length_cons, Nat.add_assoc, Nat.add_comm 1]

/-- An array of plain values, each of which has frames. -/
theorem listing {item : Reading α} {values : List α} {write : α → List Frame} {presence : Presence}
    (hheader : Frame.FitsHeader presence values.length) (hwrite : ∀ a ∈ values, write a ≠ [])
    (h : ∀ a ∈ values, Yields item.run (write a) (.ok a)) :
    Yields (Scan.listing item) ((Listing.full presence values).frames write)
      (Listing.full presence values) := by
  have harray : Yields (Scan.array item.run)
      (Frame.header presence (values.map Except.ok : List (Slot α)).length ::
        (values.map Except.ok : List (Slot α)).flatMap (Slot.frames write))
      (.ok presence, values.map .ok) := by
    refine array (by rwa [List.length_map]) ?_ ?_
    · intro slot hslot
      obtain ⟨a, ha, rfl⟩ := List.mem_map.mp hslot
      exact hwrite a ha
    · intro slot hslot
      obtain ⟨a, ha, rfl⟩ := List.mem_map.mp hslot
      exact h a ha
  intro position tail
  exact congrArg (fun r => ((⟨r.1.1, r.1.2⟩ : Listing α), r.2)) (harray position tail)

end Yields

/-! ## Backwards -/

/-- Nothing is read any more once a defect has ended the scan. -/
def Stops (reading : Reading α) : Prop :=
  ∀ (scan : Scan) (d : Defect), scan.defect = some d → reading.run.run scan = (.error d, scan)

/-- From a scan that goes on, the reading ends it with a defect, or it yields a value and has gone
through frames that are as said. -/
def Live (reading : Reading α) (post : α → List Frame → Prop) : Prop :=
  ∀ scan : Scan, scan.defect = none →
    match reading.run.run scan with
    | (.ok a, scan') =>
      scan'.defect = none ∧ ∃ frames, scan.rest = frames ++ scan'.rest ∧ post a frames
    | (.error d, scan') => scan'.defect = some d

theorem run_readings (step : Reading α) (next : α → Reading β) (scan : Scan) :
    (step >>= next).run.run scan =
      match step.run.run scan with
      | (.ok a, scan') => (next a).run.run scan'
      | (.error d, scan') => (.error d, scan') := by
  rw [ExceptT.run_bind, run_bind]
  cases step.run.run scan with
  | mk slot scan' => cases slot <;> rfl

theorem Stops.bind {step : Reading α} (h : Stops step) (next : α → Reading β) :
    Stops (step >>= next) := by
  intro scan d hd
  rw [run_readings, h scan d hd]

theorem stops_resume : Stops resume := by
  intro scan d hd
  obtain ⟨position, rest, defect⟩ := scan
  cases hd
  rfl

namespace Live

variable {post : α → List Frame → Prop}

theorem done {a : α} (h : post a []) : Live (pure a) post :=
  fun _ hlive => ⟨hlive, [], rfl, h⟩

theorem raise {d : Defect} : Live (Scan.raise d) post := fun _ _ => rfl

theorem bind {step : Reading α} {next : α → Reading β} {post' : β → List Frame → Prop}
    (h : Live step post)
    (h' : ∀ a frames, post a frames → Live (next a) fun b frames' => post' b (frames ++ frames')) :
    Live (step >>= next) post' := by
  intro scan hlive
  rw [run_readings]
  have hstep := h scan hlive
  cases hrun : step.run.run scan with
  | mk slot scan' =>
      rw [hrun] at hstep
      cases slot with
      | error d => exact hstep
      | ok a =>
          obtain ⟨hlive', frames, hrest, hpost⟩ := hstep
          have hnext := h' a frames hpost scan' hlive'
          simp only
          cases hrun' : (next a).run.run scan' with
          | mk slot' scan'' =>
              rw [hrun'] at hnext
              cases slot' with
              | error d => exact hnext
              | ok b =>
                  obtain ⟨hlive'', frames', hrest', hpost'⟩ := hnext
                  exact ⟨hlive'', frames ++ frames', by rw [hrest, hrest', List.append_assoc],
                    hpost'⟩

theorem mono {step : Reading α} {post' : α → List Frame → Prop} (h : Live step post)
    (himp : ∀ a frames, post a frames → post' a frames) : Live step post' := by
  intro scan hlive
  have hstep := h scan hlive
  cases hrun : step.run.run scan with
  | mk slot scan' =>
      rw [hrun] at hstep
      cases slot with
      | error d => exact hstep
      | ok a =>
          obtain ⟨hlive', frames, hrest, hpost⟩ := hstep
          exact ⟨hlive', frames, hrest, himp a frames hpost⟩

theorem map {step : Reading α} {f : α → β} {post' : β → List Frame → Prop} (h : Live step post)
    (himp : ∀ a frames, post a frames → post' (f a) frames) : Live (f <$> step) post' := by
  rw [map_eq_pure_bind]
  refine h.bind fun a frames ha => done ?_
  rw [List.append_nil]
  exact himp a frames ha

/-- Whatever the state of the scan, which a reading may look at. -/
theorem look {next : Scan → Reading β} {post' : β → List Frame → Prop}
    (h : ∀ scan, Live (next scan) post') : Live (get >>= next) post' :=
  fun scan hlive => h scan scan hlive

theorem next : Live Scan.next fun read frames => frames = [read.2] := by
  intro scan hlive
  obtain ⟨position, rest, defect⟩ := scan
  cases hlive
  cases rest with
  | nil => exact rfl
  | cons frame rest => exact ⟨rfl, [frame], rfl, rfl⟩

theorem expect (wanted : Frame.Content) (value? : Frame → Option α) :
    Live (Scan.expect wanted value?) fun read frames =>
      ∃ frame, frames = [frame] ∧ value? frame = some read.2 := by
  refine next.bind fun read frames hread => ?_
  obtain ⟨position, frame⟩ := read
  simp only
  cases hvalue : value? frame with
  | none => exact raise
  | some value => exact done ⟨frame, by rw [List.append_nil, hread], hvalue⟩

theorem kind : Live Scan.kind fun category frames => frames = [.kind category] := by
  refine (expect _ _).map fun read frames hread => ?_
  obtain ⟨frame, rfl, hvalue⟩ := hread
  cases frame with
  | kind category => cases hvalue; rfl
  | _ => cases hvalue

theorem text : Live Scan.text fun value frames => frames = [.text value] := by
  refine (expect _ _).map fun read frames hread => ?_
  obtain ⟨frame, rfl, hvalue⟩ := hread
  cases frame with
  | text value => cases hvalue; rfl
  | _ => cases hvalue

theorem bool : Live Scan.bool fun value frames => frames = [.bool value] := by
  refine (expect _ _).map fun read frames hread => ?_
  obtain ⟨frame, rfl, hvalue⟩ := hread
  cases frame with
  | bool value => cases hvalue; rfl
  | _ => cases hvalue

theorem intAt : Live Scan.intAt fun read frames => frames = [.int read.2] := by
  refine (expect _ _).mono fun read frames hread => ?_
  obtain ⟨frame, rfl, hvalue⟩ := hread
  cases frame with
  | int value => cases hvalue; rfl
  | _ => cases hvalue

theorem name : Live Scan.name fun name frames => frames = Frame.ofName name := by
  refine (expect _ _).bind fun read frames hread => ?_
  obtain ⟨frame, rfl, hvalue⟩ := hread
  obtain ⟨position, value⟩ := read
  cases frame with
  | text value' =>
      cases hvalue
      cases value with
      | none => exact raise
      | some name => exact done rfl
  | _ => cases hvalue

theorem count : Live Scan.count fun n frames => Frame.FitsCount n ∧ frames = Frame.ofCount n := by
  refine intAt.bind fun read frames hread => ?_
  obtain ⟨position, value⟩ := read
  subst hread
  simp only
  by_cases hneg : value < 0
  · rw [if_pos hneg]
    exact raise
  · rw [if_neg hneg]
    obtain ⟨hfits, hcount⟩ := Frame.count_toNat hneg
    exact done ⟨hfits, by rw [Frame.ofCount, hcount]; rfl⟩

/-- Presence and number in a header that was taken fit each other. -/
theorem header : Live Scan.header fun read frames =>
    Frame.FitsHeader read.1 read.2 ∧ frames = [Frame.header read.1 read.2] := by
  refine (expect _ _).bind fun read frames hread => ?_
  obtain ⟨frame, rfl, hvalue⟩ := hread
  obtain ⟨position, presence, announced⟩ := read
  cases frame with
  | array presence' n =>
      cases hvalue
      simp only
      by_cases hadmits : presence.admits n.toNat
      · rw [hadmits]
        refine look fun scan => ?_
        by_cases hlen : scan.rest.length < n.toNat
        · rw [if_pos hlen]
          exact raise.bind fun _ _ h => (h : False).elim
        · rw [if_neg hlen]
          have hlt : n.toNat < UInt32.size := n.toNat_lt
          refine done ⟨⟨hadmits, hlt⟩, ?_⟩
          rw [Frame.header_eq hlt, UInt32.ofNat_toNat]
          rfl
      · have hadmits : presence.admits n.toNat = false := by simpa using hadmits
        rw [hadmits]
        exact raise.bind fun _ _ h => (h : False).elim
  | _ => cases hvalue

theorem pos : Live Scan.pos fun p frames => p.Fits ∧ frames = Frame.ofPos p := by
  refine count.bind fun line frames hline => ?_
  obtain ⟨hline, rfl⟩ := hline
  refine count.bind fun col frames hcol => ?_
  obtain ⟨hcol, rfl⟩ := hcol
  refine count.bind fun offset frames hoffset => ?_
  obtain ⟨hoffset, rfl⟩ := hoffset
  obtain ⟨hfits, hframes⟩ := Pos.fits_ofNat hline hcol hoffset
  exact done ⟨hfits, hframes.symm⟩

theorem location : Live Scan.location fun l frames => l.Fits ∧ frames = Frame.ofLocation l := by
  refine intAt.bind fun read frames hread => ?_
  obtain ⟨position, value⟩ := read
  subst hread
  simp only
  split
  · exact done ⟨trivial, rfl⟩
  · refine name.bind fun path frames hpath => ?_
    subst hpath
    refine pos.bind fun start frames hstart => ?_
    obtain ⟨hstart, rfl⟩ := hstart
    refine pos.bind fun stop frames hstop => ?_
    obtain ⟨hstop, rfl⟩ := hstop
    exact done ⟨⟨hstart, hstop⟩, rfl⟩
  · exact raise

end Live

/-- Any run of the step ends the scan with the defect, if it was not ended before; and if it goes
on, these are the frames that the step went through. -/
def Tracks (step : Scanner α) (post : α → Option Defect → List Frame → Prop) : Prop :=
  ∀ scan : Scan, ∃ defect? frames,
    (step.run scan).2.defect = (scan.defect <|> defect?) ∧
    ((step.run scan).2.defect = none → scan.rest = frames ++ (step.run scan).2.rest) ∧
    post (step.run scan).1 defect? frames

/-- What is read back is as it should be and has the frames that were gone through, or it has the
defect that ended the scan. -/
def Reads (defectOf : α → Option Defect) (good : α → Prop) (write : α → List Frame) (a : α)
    (defect? : Option Defect) (frames : List Frame) : Prop :=
  defectOf a = defect? ∧ (defect? = none → good a ∧ write a = frames)

/-- The same for a slot. -/
abbrev ReadsSlot (good : α → Prop) (write : α → List Frame) :
    Slot α → Option Defect → List Frame → Prop :=
  Reads Slot.defect? (fun slot => ∃ a, slot = .ok a ∧ good a) (Slot.frames write)

namespace Tracks

variable {post : α → Option Defect → List Frame → Prop}

theorem done {a : α} (h : post a none []) : Tracks (pure a) post :=
  fun scan => ⟨none, [], by simp; rfl, fun _ => rfl, h⟩

theorem mono {step : Scanner α} {post' : α → Option Defect → List Frame → Prop}
    (h : Tracks step post) (himp : ∀ a e frames, post a e frames → post' a e frames) :
    Tracks step post' := by
  intro scan
  obtain ⟨e, frames, hdefect, hrest, hpost⟩ := h scan
  exact ⟨e, frames, hdefect, hrest, himp _ e frames hpost⟩

theorem bind {step : Scanner α} {next : α → Scanner β}
    {post' : β → Option Defect → List Frame → Prop} (h : Tracks step post)
    (h' : ∀ a e frames, post a e frames →
      Tracks (next a) fun b e' frames' => post' b (e <|> e') (frames ++ frames')) :
    Tracks (step >>= next) post' := by
  intro scan
  obtain ⟨e, frames, hdefect, hrest, hpost⟩ := h scan
  obtain ⟨e', frames', hdefect', hrest', hpost'⟩ := h' _ e frames hpost (step.run scan).2
  rw [run_bind]
  refine ⟨e <|> e', frames ++ frames', ?_, fun hnone => ?_, hpost'⟩
  · rw [hdefect', hdefect]
    simp [Option.or_assoc]
  · have hnone' : (step.run scan).2.defect = none := by
      rw [hdefect'] at hnone
      cases hd : (step.run scan).2.defect with
      | none => rfl
      | some d => rw [hd] at hnone; cases hnone
    rw [hrest hnone', hrest' hnone, List.append_assoc]

theorem slot {reading : Reading α} {good : α → Prop} {write : α → List Frame}
    (hstops : Stops reading) (h : Live reading fun a frames => good a ∧ frames = write a) :
    Tracks reading.run (ReadsSlot good write) := by
  intro scan
  cases hdefect : scan.defect with
  | some d =>
      rw [hstops scan d hdefect]
      exact ⟨some d, [], by simp [hdefect], fun hnone => by simp [hdefect] at hnone, rfl,
        fun hnone => by cases hnone⟩
  | none =>
      have hlive := h scan hdefect
      cases hrun : reading.run.run scan with
      | mk slot scan' =>
          rw [hrun] at hlive
          cases slot with
          | error d =>
              exact ⟨some d, [], by simpa using hlive, fun hnone => by simp [hlive] at hnone, rfl,
                fun hnone => by cases hnone⟩
          | ok a =>
              obtain ⟨hlive', frames, hrest, hgood, rfl⟩ := hlive
              exact ⟨none, write a, by simpa using hlive', fun _ => hrest, rfl,
                fun _ => ⟨⟨a, rfl, hgood⟩, rfl⟩⟩

theorem stops_expect (wanted : Frame.Content) (value? : Frame → Option α) :
    Stops (Scan.expect wanted value?) :=
  (stops_resume.bind _).bind _

theorem kind : Tracks Scan.kind.run (ReadsSlot (fun _ => True) fun category => [.kind category]) :=
  slot ((stops_expect _ _).bind _) (Live.kind.mono fun _ _ h => ⟨trivial, h⟩)

theorem text : Tracks Scan.text.run (ReadsSlot (fun _ => True) fun value => [.text value]) :=
  slot ((stops_expect _ _).bind _) (Live.text.mono fun _ _ h => ⟨trivial, h⟩)

theorem bool : Tracks Scan.bool.run (ReadsSlot (fun _ => True) fun b => [.bool b]) :=
  slot ((stops_expect _ _).bind _) (Live.bool.mono fun _ _ h => ⟨trivial, h⟩)

theorem name : Tracks Scan.name.run (ReadsSlot (fun _ => True) Frame.ofName) :=
  slot ((stops_expect _ _).bind _) (Live.name.mono fun _ _ h => ⟨trivial, h⟩)

theorem count : Tracks Scan.count.run (ReadsSlot Frame.FitsCount Frame.ofCount) :=
  slot ((stops_expect _ _).bind _) Live.count

theorem location : Tracks Scan.location.run (ReadsSlot Location.Fits Frame.ofLocation) :=
  slot ((stops_expect _ _).bind _) Live.location

theorem header : Tracks Scan.header.run (ReadsSlot (fun h => Frame.FitsHeader h.1 h.2)
    fun h => [Frame.header h.1 h.2]) :=
  slot ((stops_expect _ _).bind _) Live.header

/-! ### Arrays -/

variable {step : Scanner α} {defectOf : α → Option Defect} {good : α → Prop} {write : α →
  List Frame}

theorem times (h : Tracks step (Reads defectOf good write)) (n : Nat) :
    Tracks (Scan.times step n) fun items e frames => items.length = n ∧
      Reads (List.findSome? defectOf) (fun items => ∀ a ∈ items, good a) (List.flatMap write)
        items e frames := by
  induction n with
  | zero => exact done ⟨rfl, rfl, fun _ => ⟨by simp, rfl⟩⟩
  | succ n ih =>
      refine h.bind ?_
      rintro a e frames ⟨rfl, ha⟩
      refine ih.bind ?_
      rintro items e frames' ⟨hlength, rfl, hitems⟩
      refine done ⟨by simp [hlength], ?_, fun hnone => ?_⟩
      · cases hd : defectOf a <;> simp [hd]
      · simp only [Option.orElse_eq_orElse, Option.orElse_eq_or, Option.or_eq_none_iff] at hnone
        obtain ⟨hgood, rfl⟩ := ha hnone.1
        obtain ⟨hgoods, rfl⟩ := hitems hnone.2.1
        refine ⟨fun b hb => ?_, by simp⟩
        rcases List.mem_cons.mp hb with rfl | hb
        · exact hgood
        · exact hgoods b hb

/-- An array whose elements are as they should be, unless it or one of them has a defect. -/
theorem array (h : Tracks step (Reads defectOf good write)) :
    Tracks (Scan.array step) fun a e frames =>
      (a.1.defect? <|> a.2.findSome? defectOf) = e ∧ (e = none → ∃ presence, a.1 = .ok presence ∧
        Frame.FitsHeader presence a.2.length ∧ (∀ b ∈ a.2, good b) ∧
        Frame.header presence a.2.length :: a.2.flatMap write = frames) := by
  refine header.bind ?_
  rintro slot e frames ⟨rfl, hslot⟩
  cases slot with
  | error d => exact done ⟨rfl, fun hnone => by cases hnone⟩
  | ok read =>
      obtain ⟨⟨_, hread, hheader⟩, rfl⟩ := hslot rfl
      cases hread
      refine (times h read.2).bind ?_
      rintro items e frames ⟨hlength, rfl, hitems⟩
      refine done ⟨by simp, fun hnone => ?_⟩
      obtain ⟨hgoods, rfl⟩ := hitems (by simpa using hnone)
      exact ⟨read.1, rfl, hlength ▸ hheader, hgoods, by simp [Slot.frames, hlength]⟩

/-- The array of plain values that was written, unless it has a defect. -/
theorem listing {item : Reading α} (h : Tracks item.run (ReadsSlot good write)) :
    Tracks (Scan.listing item)
      (Reads Listing.defect? (Listing.Shaped good) (Listing.frames write)) := by
  refine (array h).bind ?_
  rintro ⟨slot, items⟩ e frames ⟨hdefect, hitems⟩
  refine done ⟨by simpa [Listing.defect?] using hdefect, fun hnone => ?_⟩
  obtain ⟨presence, rfl, hheader, hgoods, rfl⟩ := hitems (by simpa using hnone)
  obtain ⟨values, rfl, hvalues⟩ := exists_map hgoods
  refine ⟨⟨presence, values, rfl, by simpa using hheader, hvalues⟩, ?_⟩
  simp [Listing.frames, Frame.ofHeader, Slot.frames]

end Tracks
end Scan
end Moniker
