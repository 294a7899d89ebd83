import Moniker.Description.OfFrames
import Moniker.Proofs.Scanning

/-!
# Descriptions and their frames

A description is `Shaped` to a depth if every slot is filled, every number fits its frame, every
header fits its array, and segments are nested at most so deeply. These are the descriptions that
frames can hold: reading the frames of one yields it again (`Shaped.yields`), and whatever is read
without a defect is one, and has the frames that were read (`tracks_ofFrames`).
-/

namespace Moniker

namespace Description

open Scan

/-- A description that frames can hold, with segments nested at most so deeply. -/
inductive Shaped : Nat → Description → Prop
  | global {n : Nat} : Shaped (n + 1) .global
  | nameSpace {n : Nat} {container : Description} {name : String}
    (hcontainer : Shaped n container) : Shaped (n + 1) (.nameSpace container (.ok name))
  | namedType {n : Nat} {container : Description} {name : String} {arity : Nat}
    {presence : Presence}
    {arguments : List Description} (hcontainer : Shaped n container)
    (harity : Frame.FitsCount arity)
    (hheader : Frame.FitsHeader presence arguments.length) (harguments : ∀ d ∈ arguments,
      Shaped n d) :
    Shaped (n + 1) (.namedType container (.ok name) (.ok arity) (.ok presence) arguments)
  | arrayType {n : Nat} {element : Description} {rank : Nat} (helement : Shaped n element)
    (hrank : Frame.FitsCount rank) : Shaped (n + 1) (.arrayType element (.ok rank))
  | pointerType {n : Nat} {pointee : Description} (hpointee : Shaped n pointee) :
    Shaped (n + 1) (.pointerType pointee)
  | tupleType {n : Nat} {presence : Presence} {types : List Description}
    {names : Listing (Option String)} {locations : Listing Location}
    (hheader : Frame.FitsHeader presence types.length) (htypes : ∀ d ∈ types, Shaped n d)
    (hnames : names.Shaped fun _ => True) (hlocations : locations.Shaped Location.Fits) :
    Shaped (n + 1) (.tupleType (.ok presence) types names locations)
  | anonymousType {n : Nat} {presence : Presence} {types : List Description}
    {names : Listing (Option String)} {readOnly : Listing Bool} {locations : Listing Location}
    (hheader : Frame.FitsHeader presence types.length) (htypes : ∀ d ∈ types, Shaped n d)
    (hnames : names.Shaped fun _ => True) (hreadOnly : readOnly.Shaped fun _ => True)
    (hlocations : locations.Shaped Location.Fits) :
    Shaped (n + 1) (.anonymousType (.ok presence) types names readOnly locations)
  | typeParameter {n : Nat} {owner : Description} {name : String} (howner : Shaped n owner) :
    Shaped (n + 1) (.typeParameter owner (.ok name))
  | typeParameterOrdinal {n depth ordinal : Nat} (hdepth : Frame.FitsCount depth)
    (hordinal : Frame.FitsCount ordinal) :
    Shaped (n + 1) (.typeParameterOrdinal (.ok depth) (.ok ordinal))
  | field {n : Nat} {container : Description} {name : String} (hcontainer : Shaped n container) :
    Shaped (n + 1) (.field container (.ok name))
  | property {n : Nat} {container : Description} {name : String} {presence : Presence}
    {parameters : List Description} (hcontainer : Shaped n container)
    (hheader : Frame.FitsHeader presence parameters.length)
    (hparameters : ∀ d ∈ parameters, Shaped n d) :
    Shaped (n + 1) (.property container (.ok name) (.ok presence) parameters)
  | method {n : Nat} {container : Description} {name : String} {arity : Nat} {presence : Presence}
    {parameters : List Description} (hcontainer : Shaped n container)
    (harity : Frame.FitsCount arity) (hheader : Frame.FitsHeader presence parameters.length)
    (hparameters : ∀ d ∈ parameters, Shaped n d) :
    Shaped (n + 1) (.method container (.ok name) (.ok arity) (.ok presence) parameters)
  | parameter {n : Nat} {owner : Description} {name : String} (howner : Shaped n owner) :
    Shaped (n + 1) (.parameter owner (.ok name))
  | localVariable {n : Nat} {owner : Description} {name : String} {ordinal : Nat}
    (howner : Shaped n owner) (hordinal : Frame.FitsCount ordinal) :
    Shaped (n + 1) (.localVariable owner (.ok name) (.ok ordinal))

variable {o : ResolveOptions} {n : Nat} {d : Description} {ds : List Description}
  {presence : Presence}

/-- Reading a segment takes its kind frame and then its body. -/
theorem ofFrames_eq (hlive : o.cancelled = false) :
    ofFrames o (n + 1) = (do
      match ← Scan.kind.run with
      | .ok category => bodyOfFrames (ofFrames o n) category
      | .error d => return unreadable d) := by
  funext scan
  show (ofFrames o (n + 1)).run scan = StateT.run (_ : Scanner Description) scan
  rw [run_bind]
  have hadmission : ∀ scan : Scan, scan.defect = none →
      (admission o).run.run scan = (.ok (), scan) := by
    rintro ⟨position, rest, defect⟩ rfl
    unfold admission
    rw [hlive]
    rfl
  have hstops : Stops (admission o) := stops_resume.bind _
  have hrun : (ofFrames o (n + 1)).run scan =
      match (admission o).run.run scan with
      | (.ok _, scan') =>
        match Scan.kind.run.run scan' with
        | (.ok category, scan'') => (bodyOfFrames (ofFrames o n) category).run scan''
        | (.error d, scan'') => (unreadable d, scan'')
      | (.error d, scan') => (unreadable d, scan') := by
    rw [ofFrames, run_map, run_readings]
    cases (admission o).run.run scan with
    | mk slot scan' =>
        cases slot with
        | error d => rfl
        | ok _ =>
            simp only
            rw [run_readings]
            cases Scan.kind.run.run scan' with
            | mk slot scan'' => cases slot <;> rfl
  have hkind : (ofFrames o (n + 1)).run scan =
      match Scan.kind.run.run scan with
      | (.ok category, scan') => (bodyOfFrames (ofFrames o n) category).run scan'
      | (.error d, scan') => (unreadable d, scan') := by
    cases hdefect : scan.defect with
    | none => rw [hrun, hadmission scan hdefect]
    | some d =>
        have hkind : Stops Scan.kind := (Tracks.stops_expect _ _).bind _
        rw [hrun, hstops scan d hdefect, hkind scan d hdefect]
  rw [hkind]
  cases Scan.kind.run.run scan with
  | mk slot scan' => cases slot <;> rfl

/-- Where the call is cancelled or the limit reached, there is a defect in place of a segment. -/
theorem run_ofFrames_refused (h : o.cancelled = true ∨ n = 0) (scan : Scan) :
    ∃ d, (ofFrames o n).run scan = (unreadable d, { scan with defect := some d }) ∧
      (scan.defect <|> some d) = some d := by
  obtain ⟨position, rest, defect⟩ := scan
  cases defect with
  | some d => cases n <;> exact ⟨d, rfl, rfl⟩
  | none =>
      by_cases hcancelled : o.cancelled
      · refine ⟨.cancelled, ?_, rfl⟩
        have hrefused : (admission o).run.run { position := position, rest := rest } =
            (.error .cancelled,
              { position := position, rest := rest, defect := some .cancelled }) := by
          unfold admission
          rw [hcancelled]
          rfl
        cases n with
        | zero => rw [ofFrames, run_map, run_readings, hrefused]; rfl
        | succ n => rw [ofFrames, run_map, run_readings, hrefused]; rfl
      · obtain rfl : n = 0 := by simpa [hcancelled] using h
        have hlive : o.cancelled = false := by simpa using hcancelled
        have hadmitted : (admission o).run.run { position := position, rest := rest } =
            (.ok (), { position := position, rest := rest }) := by
          unfold admission
          rw [hlive]
          rfl
        refine ⟨.tooDeep o.maxDepth.toNat, ?_, rfl⟩
        rw [ofFrames, run_map, run_readings, hadmitted]
        rfl

theorem Shaped.frames_ne_nil (h : d.Shaped n) : d.frames ≠ [] := by
  cases h <;> exact List.cons_ne_nil _ _

theorem yields_segment (hlive : o.cancelled = false) {category : Category}
    (hcategory : d.category? = some category)
    (h : Yields (bodyOfFrames (ofFrames o n) category) d.body d) :
    Yields (ofFrames o (n + 1)) d.frames d := by
  rw [ofFrames_eq hlive, frames, withKind, hcategory]
  exact (Yields.kind category).bind h

theorem bodies_eq (ds : List Description) : bodies ds = ds.flatMap frames := by
  induction ds with
  | nil => rfl
  | cons d rest ih => rw [bodies, ih]; rfl

theorem withKind_body (d : Description) : d.withKind d.body = d.frames := rfl

theorem yields_array (hds : ∀ d ∈ ds, d.Shaped n)
    (hyields : ∀ d ∈ ds, Yields (ofFrames o n) d.frames d)
    (hheader : Frame.FitsHeader presence ds.length) :
    Yields (Scan.array (ofFrames o n)) (Frame.header presence ds.length :: ds.flatMap frames)
      (.ok presence, ds) :=
  .array hheader (fun d hd => (hds d hd).frames_ne_nil) hyields

theorem yields_texts {l : Listing (Option String)} (h : l.Shaped fun _ => True) :
    Yields (Scan.listing Scan.text) (l.frames fun value => [.text value]) l := by
  obtain ⟨presence, values, rfl, hheader, -⟩ := h
  exact .listing hheader (by simp) fun value _ => .text value

theorem yields_bools {l : Listing Bool} (h : l.Shaped fun _ => True) :
    Yields (Scan.listing Scan.bool) (l.frames fun b => [.bool b]) l := by
  obtain ⟨presence, values, rfl, hheader, -⟩ := h
  exact .listing hheader (by simp) fun b _ => .bool b

theorem yields_locations {l : Listing Location} (h : l.Shaped Location.Fits) :
    Yields (Scan.listing Scan.location) (l.frames Frame.ofLocation) l := by
  obtain ⟨presence, values, rfl, hheader, hfits⟩ := h
  refine .listing hheader (fun l _ => ?_) fun l hl => .location (hfits l hl)
  cases l <;> simp [Frame.ofLocation]

/-- Reading the frames of a description yields it. -/
theorem Shaped.yields (hlive : o.cancelled = false) (h : d.Shaped n) :
    Yields (ofFrames o n) d.frames d := by
  induction h with
  | global =>
      refine yields_segment hlive rfl ?_
      exact (Yields.bool true).bind (.done _)
  | nameSpace _ ih =>
      refine yields_segment hlive rfl (.congr ((Yields.bool false).bind (ih.bind
        ((Yields.name _).bind (.done _)))) ?_)
      simp [body, withKind_body, Slot.frames]
  | namedType _ harity hheader harguments ih iharguments =>
      refine yields_segment hlive rfl
        (.congr (ih.bind ((Yields.name _).bind ((Yields.count harity).bind
        ((yields_array harguments iharguments hheader).bind (.done _))))) ?_)
      simp [body, withKind_body, Slot.frames, Frame.ofHeader, bodies_eq]
  | arrayType _ hrank ih =>
      refine yields_segment hlive rfl (.congr (ih.bind ((Yields.count hrank).bind (.done _))) ?_)
      simp [body, withKind_body, Slot.frames]
  | pointerType _ ih =>
      refine yields_segment hlive rfl (.congr (ih.bind (.done _)) ?_)
      simp [body, withKind_body]
  | tupleType hheader htypes hnames hlocations ih =>
      refine yields_segment hlive rfl (.congr ((yields_array htypes ih hheader).bind
        ((yields_texts hnames).bind ((yields_locations hlocations).bind (.done _)))) ?_)
      simp [body, Slot.frames, Frame.ofHeader, bodies_eq]
  | anonymousType hheader htypes hnames hreadOnly hlocations ih =>
      refine yields_segment hlive rfl (.congr ((yields_array htypes ih hheader).bind
        ((yields_texts hnames).bind ((yields_bools hreadOnly).bind
          ((yields_locations hlocations).bind (.done _))))) ?_)
      simp [body, Slot.frames, Frame.ofHeader, bodies_eq]
  | typeParameter _ ih | field _ ih | parameter _ ih =>
      refine yields_segment hlive rfl (.congr (ih.bind ((Yields.name _).bind (.done _))) ?_)
      simp [body, withKind_body, Slot.frames]
  | typeParameterOrdinal hdepth hordinal =>
      refine yields_segment hlive rfl (.congr ((Yields.count hdepth).bind
        ((Yields.count hordinal).bind (.done _))) ?_)
      simp [body, Slot.frames]
  | property _ hheader hparameters ih ihparameters =>
      refine yields_segment hlive rfl (.congr (ih.bind ((Yields.name _).bind
        ((yields_array hparameters ihparameters hheader).bind (.done _)))) ?_)
      simp [body, withKind_body, Slot.frames, Frame.ofHeader, bodies_eq]
  | method _ harity hheader hparameters ih ihparameters =>
      refine yields_segment hlive rfl
        (.congr (ih.bind ((Yields.name _).bind ((Yields.count harity).bind
        ((yields_array hparameters ihparameters hheader).bind (.done _))))) ?_)
      simp [body, withKind_body, Slot.frames, Frame.ofHeader, bodies_eq]
  | localVariable _ hordinal ih =>
      refine yields_segment hlive rfl (.congr (ih.bind ((Yields.name _).bind
        ((Yields.count hordinal).bind (.done _)))) ?_)
      simp [body, withKind_body, Slot.frames]

/-- What is read in place of a segment is shaped, or has the defect that ended the scan. -/
abbrev ReadsSegment (n : Nat) : Description → Option Defect → List Frame → Prop :=
  Scan.Reads defect? (Shaped n) frames

/-- The same of the body of a segment. -/
def ReadsBody (n : Nat) (category : Category) (d : Description) (e : Option Defect)
    (frames : List Frame) : Prop :=
  d.defect? = e ∧ (e = none → d.Shaped n ∧ d.category? = some category ∧ d.body = frames)

theorem findSome?_defects (ds : List Description) : ds.findSome? defect? = defects? ds := by
  induction ds with
  | nil => rfl
  | cons d rest ih =>
      rw [List.findSome?_cons, defects?, ih]
      cases d.defect? <;> rfl

/-- An array of segments is read back, unless it has a defect. -/
theorem tracks_array {nested : Scanner Description} (h : Tracks nested (ReadsSegment n)) :
    Tracks (Scan.array nested) fun a e frames =>
      (a.1.defect? <|> defects? a.2) = e ∧ (e = none → ∃ presence, a.1 = .ok presence ∧
        Frame.FitsHeader presence a.2.length ∧ (∀ d ∈ a.2, d.Shaped n) ∧
        Frame.header presence a.2.length :: bodies a.2 = frames) := by
  refine (Tracks.array h).mono fun a e frames ha => ?_
  rwa [findSome?_defects, ← bodies_eq] at ha

section Bodies

attribute [local simp] defect? body withKind_body Slot.frames Frame.ofHeader

variable {nested : Scanner Description}

/-- A segment and a name, after frames that say which of the categories this is. -/
theorem tracks_named {category : Category} {make : Description → Slot String → Description}
    (lead : List Frame) (h : Tracks nested (ReadsSegment n))
    (hdefect : ∀ d name, (make d name).defect? = (d.defect? <|> name.defect?))
    (hmake : ∀ {d : Description} {name : String}, d.Shaped n →
      (make d (.ok name)).Shaped (n + 1) ∧ (make d (.ok name)).category? = some category ∧
        (make d (.ok name)).body = lead ++ (d.frames ++ Frame.ofName name)) :
    Tracks (do return make (← nested) (← Scan.name.run)) fun d e frames =>
      ReadsBody (n + 1) category d e (lead ++ frames) := by
  refine h.bind ?_
  rintro d e frames ⟨rfl, hd'⟩
  refine Tracks.name.bind ?_
  rintro name e names ⟨rfl, hname'⟩
  refine .done ⟨by simp [hdefect], fun hnone => ?_⟩
  obtain ⟨hd, hn⟩ : d.defect? = none ∧ Slot.defect? name = none := by simpa using hnone
  obtain ⟨hshaped, rfl⟩ := hd' hd
  obtain ⟨⟨name, rfl, -⟩, rfl⟩ := hname' hn
  simpa using hmake hshaped

theorem tracks_namedType (h : Tracks nested (ReadsSegment n)) :
    Tracks (bodyOfFrames nested .namedType) (ReadsBody (n + 1) .namedType) := by
  refine h.bind ?_
  rintro container e frames ⟨rfl, hcontainer'⟩
  refine Tracks.name.bind ?_
  rintro name e names ⟨rfl, hname'⟩
  refine Tracks.count.bind ?_
  rintro arity e arities ⟨rfl, harity'⟩
  refine (tracks_array h).bind ?_
  rintro ⟨presence, arguments⟩ e elements ⟨rfl, harguments⟩
  refine .done ⟨by simp, fun hnone => ?_⟩
  obtain ⟨hc, hn, ha, hp, hargs⟩ : container.defect? = none ∧ Slot.defect? name = none ∧
      Slot.defect? arity = none ∧ presence.defect? = none ∧ defects? arguments = none := by
    simpa using hnone
  obtain ⟨hcontainer, rfl⟩ := hcontainer' hc
  obtain ⟨⟨name, rfl, -⟩, rfl⟩ := hname' hn
  obtain ⟨⟨arity, rfl, harity⟩, rfl⟩ := harity' ha
  obtain ⟨presence, rfl, hheader, hshaped, rfl⟩ := harguments (by simp [hargs, hp])
  exact ⟨.namedType hcontainer harity hheader hshaped, rfl, by simp⟩

theorem tracks_arrayType (h : Tracks nested (ReadsSegment n)) :
    Tracks (bodyOfFrames nested .arrayType) (ReadsBody (n + 1) .arrayType) := by
  refine h.bind ?_
  rintro element e frames ⟨rfl, helement'⟩
  refine Tracks.count.bind ?_
  rintro rank e ranks ⟨rfl, hrank'⟩
  refine .done ⟨by simp, fun hnone => ?_⟩
  obtain ⟨he, hr⟩ : element.defect? = none ∧ Slot.defect? rank = none := by simpa using hnone
  obtain ⟨helement, rfl⟩ := helement' he
  obtain ⟨⟨rank, rfl, hrank⟩, rfl⟩ := hrank' hr
  exact ⟨.arrayType helement hrank, rfl, by simp⟩

theorem tracks_pointerType (h : Tracks nested (ReadsSegment n)) :
    Tracks (bodyOfFrames nested .pointerType) (ReadsBody (n + 1) .pointerType) := by
  refine h.bind ?_
  rintro pointee e frames ⟨rfl, hpointee'⟩
  refine .done ⟨by simp, fun hnone => ?_⟩
  obtain ⟨hpointee, rfl⟩ := hpointee' (by simpa using hnone)
  exact ⟨.pointerType hpointee, rfl, by simp⟩

theorem tracks_tupleType (h : Tracks nested (ReadsSegment n)) :
    Tracks (bodyOfFrames nested .tupleType) (ReadsBody (n + 1) .tupleType) := by
  refine (tracks_array h).bind ?_
  rintro ⟨presence, types⟩ e elements ⟨rfl, htypes⟩
  refine (Tracks.listing .text).bind ?_
  rintro names e texts ⟨rfl, hnames'⟩
  refine (Tracks.listing .location).bind ?_
  rintro locations e sites ⟨rfl, hlocations'⟩
  refine .done ⟨by simp [Option.or_assoc], fun hnone => ?_⟩
  obtain ⟨⟨hp, ht⟩, hn, hl⟩ : (presence.defect? = none ∧ defects? types = none) ∧
      names.defect? = none ∧ locations.defect? = none := by
    simpa using hnone
  obtain ⟨presence, rfl, hheader, hshaped, rfl⟩ := htypes (by simp [hp, ht])
  obtain ⟨hnames, rfl⟩ := hnames' hn
  obtain ⟨hlocations, rfl⟩ := hlocations' hl
  exact ⟨.tupleType hheader hshaped hnames hlocations, rfl, by simp⟩

theorem tracks_anonymousType (h : Tracks nested (ReadsSegment n)) :
    Tracks (bodyOfFrames nested .anonymousType) (ReadsBody (n + 1) .anonymousType) := by
  refine (tracks_array h).bind ?_
  rintro ⟨presence, types⟩ e elements ⟨rfl, htypes⟩
  refine (Tracks.listing .text).bind ?_
  rintro names e texts ⟨rfl, hnames'⟩
  refine (Tracks.listing .bool).bind ?_
  rintro readOnly e bools ⟨rfl, hreadOnly'⟩
  refine (Tracks.listing .location).bind ?_
  rintro locations e sites ⟨rfl, hlocations'⟩
  refine .done ⟨by simp [Option.or_assoc], fun hnone => ?_⟩
  obtain ⟨⟨hp, ht⟩, hn, hf, hl⟩ : (presence.defect? = none ∧ defects? types = none) ∧
      names.defect? = none ∧ readOnly.defect? = none ∧ locations.defect? = none := by
    simpa using hnone
  obtain ⟨presence, rfl, hheader, hshaped, rfl⟩ := htypes (by simp [hp, ht])
  obtain ⟨hnames, rfl⟩ := hnames' hn
  obtain ⟨hreadOnly, rfl⟩ := hreadOnly' hf
  obtain ⟨hlocations, rfl⟩ := hlocations' hl
  exact ⟨.anonymousType hheader hshaped hnames hreadOnly hlocations, rfl, by simp⟩

theorem tracks_typeParameterOrdinal :
    Tracks (bodyOfFrames nested .typeParameterOrdinal)
      (ReadsBody (n + 1) .typeParameterOrdinal) := by
  refine Tracks.count.bind ?_
  rintro depth e depths ⟨rfl, hdepth'⟩
  refine Tracks.count.bind ?_
  rintro ordinal e ordinals ⟨rfl, hordinal'⟩
  refine .done ⟨by simp, fun hnone => ?_⟩
  obtain ⟨hd, ho⟩ : Slot.defect? depth = none ∧ Slot.defect? ordinal = none := by simpa using hnone
  obtain ⟨⟨depth, rfl, hdepth⟩, rfl⟩ := hdepth' hd
  obtain ⟨⟨ordinal, rfl, hordinal⟩, rfl⟩ := hordinal' ho
  exact ⟨.typeParameterOrdinal hdepth hordinal, rfl, by simp⟩

theorem tracks_property (h : Tracks nested (ReadsSegment n)) :
    Tracks (bodyOfFrames nested .property) (ReadsBody (n + 1) .property) := by
  refine h.bind ?_
  rintro container e frames ⟨rfl, hcontainer'⟩
  refine Tracks.name.bind ?_
  rintro name e names ⟨rfl, hname'⟩
  refine (tracks_array h).bind ?_
  rintro ⟨presence, parameters⟩ e elements ⟨rfl, hparameters⟩
  refine .done ⟨by simp, fun hnone => ?_⟩
  obtain ⟨hc, hn, hp, hps⟩ : container.defect? = none ∧ Slot.defect? name = none ∧
      presence.defect? = none ∧ defects? parameters = none := by
    simpa using hnone
  obtain ⟨hcontainer, rfl⟩ := hcontainer' hc
  obtain ⟨⟨name, rfl, -⟩, rfl⟩ := hname' hn
  obtain ⟨presence, rfl, hheader, hshaped, rfl⟩ := hparameters (by simp [hps, hp])
  exact ⟨.property hcontainer hheader hshaped, rfl, by simp⟩

theorem tracks_method (h : Tracks nested (ReadsSegment n)) :
    Tracks (bodyOfFrames nested .method) (ReadsBody (n + 1) .method) := by
  refine h.bind ?_
  rintro container e frames ⟨rfl, hcontainer'⟩
  refine Tracks.name.bind ?_
  rintro name e names ⟨rfl, hname'⟩
  refine Tracks.count.bind ?_
  rintro arity e arities ⟨rfl, harity'⟩
  refine (tracks_array h).bind ?_
  rintro ⟨presence, parameters⟩ e elements ⟨rfl, hparameters⟩
  refine .done ⟨by simp, fun hnone => ?_⟩
  obtain ⟨hc, hn, ha, hp, hps⟩ : container.defect? = none ∧ Slot.defect? name = none ∧
      Slot.defect? arity = none ∧ presence.defect? = none ∧ defects? parameters = none := by
    simpa using hnone
  obtain ⟨hcontainer, rfl⟩ := hcontainer' hc
  obtain ⟨⟨name, rfl, -⟩, rfl⟩ := hname' hn
  obtain ⟨⟨arity, rfl, harity⟩, rfl⟩ := harity' ha
  obtain ⟨presence, rfl, hheader, hshaped, rfl⟩ := hparameters (by simp [hps, hp])
  exact ⟨.method hcontainer harity hheader hshaped, rfl, by simp⟩

theorem tracks_localVariable (h : Tracks nested (ReadsSegment n)) :
    Tracks (bodyOfFrames nested .localVariable) (ReadsBody (n + 1) .localVariable) := by
  refine h.bind ?_
  rintro owner e frames ⟨rfl, howner'⟩
  refine Tracks.name.bind ?_
  rintro name e names ⟨rfl, hname'⟩
  refine Tracks.count.bind ?_
  rintro ordinal e ordinals ⟨rfl, hordinal'⟩
  refine .done ⟨by simp, fun hnone => ?_⟩
  obtain ⟨ho, hn, hi⟩ : owner.defect? = none ∧ Slot.defect? name = none ∧
      Slot.defect? ordinal = none := by
    simpa using hnone
  obtain ⟨howner, rfl⟩ := howner' ho
  obtain ⟨⟨name, rfl, -⟩, rfl⟩ := hname' hn
  obtain ⟨⟨ordinal, rfl, hordinal⟩, rfl⟩ := hordinal' hi
  exact ⟨.localVariable howner hordinal, rfl, by simp⟩

/-- The body of a segment is read back, whatever its category. -/
theorem tracks_body (h : Tracks nested (ReadsSegment n)) (category : Category) :
    Tracks (bodyOfFrames nested category) (ReadsBody (n + 1) category) := by
  cases category with
  | nameSpace =>
      refine Tracks.bool.bind ?_
      rintro slot e frames ⟨rfl, hslot⟩
      cases slot with
      | error d => exact .done ⟨rfl, fun hnone => by cases hnone⟩
      | ok b =>
          obtain ⟨-, rfl⟩ := hslot rfl
          cases b with
          | true => exact .done ⟨rfl, fun _ => ⟨.global, rfl, rfl⟩⟩
          | false =>
              exact tracks_named [.bool false] h (fun _ _ => by simp)
                fun hd => ⟨.nameSpace hd, rfl, by simp⟩
  | namedType => exact tracks_namedType h
  | arrayType => exact tracks_arrayType h
  | pointerType => exact tracks_pointerType h
  | tupleType => exact tracks_tupleType h
  | anonymousType => exact tracks_anonymousType h
  | typeParameter =>
      exact tracks_named [] h (fun _ _ => by simp)
        fun hd => ⟨.typeParameter hd, rfl, by simp⟩
  | typeParameterOrdinal => exact tracks_typeParameterOrdinal
  | field =>
      exact tracks_named [] h (fun _ _ => by simp)
        fun hd => ⟨.field hd, rfl, by simp⟩
  | property => exact tracks_property h
  | method => exact tracks_method h
  | parameter =>
      exact tracks_named [] h (fun _ _ => by simp)
        fun hd => ⟨.parameter hd, rfl, by simp⟩
  | localVariable => exact tracks_localVariable h

end Bodies

/-- A segment that is refused is read back as the defect. -/
theorem tracks_refused (h : o.cancelled = true ∨ n = 0) :
    Tracks (ofFrames o n) (ReadsSegment n) := by
  intro scan
  obtain ⟨d, hrun, hd⟩ := run_ofFrames_refused h scan
  rw [hrun]
  exact ⟨some d, [], hd.symm, nofun, rfl, nofun⟩

/-- Whatever is read without a defect is shaped, and has the frames that were read. -/
theorem tracks_ofFrames (o : ResolveOptions) (n : Nat) :
    Tracks (ofFrames o n) (ReadsSegment n) := by
  induction n with
  | zero => exact tracks_refused (.inr rfl)
  | succ n ih =>
      by_cases hcancelled : o.cancelled
      · exact tracks_refused (.inl hcancelled)
      · rw [ofFrames_eq (by simpa using hcancelled)]
        refine Tracks.kind.bind ?_
        rintro slot e frames ⟨rfl, hslot⟩
        cases slot with
        | error d => exact .done ⟨rfl, fun hnone => by cases hnone⟩
        | ok category =>
            obtain ⟨-, rfl⟩ := hslot rfl
            refine (tracks_body ih category).mono ?_
            rintro d e frames ⟨rfl, hbody⟩
            refine ⟨rfl, fun hnone => ?_⟩
            obtain ⟨hshaped, hcategory, rfl⟩ := hbody hnone
            refine ⟨hshaped, ?_⟩
            rw [Description.frames, withKind, hcategory]
            rfl

/-- A description that frames can hold has no defect: reading its frames yields it, and would have
ended with the defect. -/
theorem Shaped.intact (h : d.Shaped n) : d.Intact := by
  have hrun := h.yields (o := {}) rfl 0 []
  obtain ⟨e, frames, hdefect, -, hread, -⟩ :=
    tracks_ofFrames {} n { position := 0, rest := d.frames ++ [] }
  rw [hrun] at hdefect hread
  rw [Intact, hread]
  simpa using hdefect.symm

theorem Shaped.succ (h : d.Shaped n) : d.Shaped (n + 1) := by
  induction h with
  | global => exact .global
  | nameSpace _ ih => exact .nameSpace ih
  | namedType _ harity hheader _ ih iharguments => exact .namedType ih harity hheader iharguments
  | arrayType _ hrank ih => exact .arrayType ih hrank
  | pointerType _ ih => exact .pointerType ih
  | tupleType hheader _ hnames hlocations ih => exact .tupleType hheader ih hnames hlocations
  | anonymousType hheader _ hnames hreadOnly hlocations ih =>
      exact .anonymousType hheader ih hnames hreadOnly hlocations
  | typeParameter _ ih => exact .typeParameter ih
  | typeParameterOrdinal hdepth hordinal => exact .typeParameterOrdinal hdepth hordinal
  | field _ ih => exact .field ih
  | property _ hheader _ ih ihparameters => exact .property ih hheader ihparameters
  | method _ harity hheader _ ih ihparameters => exact .method ih harity hheader ihparameters
  | parameter _ ih => exact .parameter ih
  | localVariable _ hordinal ih => exact .localVariable ih hordinal

/-- What is not nested too deeply for one limit is not for a greater one. -/
theorem Shaped.mono {m : Nat} (h : d.Shaped n) (hle : n ≤ m) : d.Shaped m := by
  induction hle with
  | refl => exact h
  | step _ ih => exact ih.succ

/-- Descriptions that frames can hold are told apart by their frames. -/
theorem Shaped.eq_of_frames {d' : Description} {n' : Nat} (h : d.Shaped n) (h' : d'.Shaped n')
    (hframes : d.frames = d'.frames) : d = d' := by
  have hrun := (h.mono (Nat.le_max_left n n')).yields (o := {}) rfl 0 []
  have hrun' := (h'.mono (Nat.le_max_right n n')).yields (o := {}) rfl 0 []
  rw [hframes, hrun'] at hrun
  exact (congrArg Prod.fst hrun).symm

end Description
end Moniker
