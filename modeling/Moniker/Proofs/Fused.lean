import Moniker.Proofs.Fusing

/-!
# Keys in one pass

Reading a segment in one pass does what scanning it first and resolving it afterwards does, whatever
the compilation is (`Reader.key_eq`), given that the same is true of the segments inside it
(`Pass.Nested`). The induction is on how often the recursion is unfolded: the segments inside begin
behind the kind frame, so there are fewer frames left for them (`Pass.fuses_deepen`).
-/

namespace Moniker
namespace Pass

open Decode (Quiet)

/-! ## Segments -/

section Own

open Factories

variable (place : Place)

theorem put_array (element : SymbolId) (rank : UInt64) :
    (own.array element rank).put place = Decode.build (·.arrayType element rank) := rfl

theorem put_pointer (pointee : SymbolId) :
    (own.pointer pointee).put place = Decode.build (·.pointerType pointee) := rfl

theorem put_tuple (types : List SymbolId) (names : List (Option String))
    (locations : List Location) :
    (own.tuple types names locations).put place =
      Decode.build (·.tupleType types names locations) := rfl

theorem put_anonymous (types : List SymbolId) (names : List String) (readOnly : List Bool)
    (locations : List Location) :
    (own.anonymous types names readOnly locations).put place =
      Decode.build (·.anonymousType types names readOnly locations) := rfl

theorem put_construct (definition : SymbolId) (arguments : List SymbolId) :
    (own.construct definition arguments).put place =
      Decode.tryBuild place fun c => c.construct definition arguments := by
  funext scene
  show ((own.construct definition arguments).put place).run scene =
    (Decode.tryBuild place fun c => c.construct definition arguments).run scene
  have hget : (get : Decode Scene).run scene = (.ok scene, scene) := rfl
  unfold Factory.put own Factory.ofTryBuild
  rw [Decode.run_tryBuild, Decode.run_bind, hget]
  dsimp only
  cases scene.compilation.construct definition arguments <;> rfl

theorem own_constructEach (arguments definitions : List SymbolId) :
    own.constructEach place arguments definitions =
      Description.constructEach place arguments definitions := by
  induction definitions with
  | nil => rfl
  | cons definition rest ih =>
    rewrite [Factories.constructEach, Description.constructEach, put_construct, ih]
    rfl

theorem own_constructed (name : String) (definitions : List SymbolId) (arguments : Loan SymbolId) :
    own.constructed place name definitions arguments =
      Description.constructed place name definitions arguments := by
  rw [Factories.constructed, Description.constructed, own_constructEach]

end Own

open Description (ofFrames bodyOfFrames)

/-- The pass reads segments at one depth, wherever a reader stands from a position on. -/
def Nested (o : ResolveOptions) (budget : Nat) (frames : List Frame) (depth start : Nat)
    (nested : Pass Resolved) : Prop :=
  ∀ (r : Reader) (scan : Scan), r.frames = frames → r.place.depth = depth →
    start ≤ r.place.position → r.Faces scan →
      Fuses r ((ofFrames o budget).run scan).2
        (((ofFrames o budget).run scan).1.resolveAt o r.place) nested

namespace Nested

variable {o : ResolveOptions} {budget start : Nat} {r : Reader} {nested : Pass Resolved}
  {scan : Scan}

/-- An array of segments, the first of which begins so many frames further on. -/
theorem keys (h : Nested o budget r.frames r.place.depth r.place.position nested) {q n : Nat}
    (hn : q + 1 = r.place.position + n) (hle : r.place.position ≤ q)
    (hfaces : (r.moved q).Faces scan) :
    Fuses (r.moved q) ((Scan.array (ofFrames o budget)).run scan).2
      (Decode.elements ((Scan.array (ofFrames o budget)).run scan).1.1
        (Description.resolveEach o ((Scan.array (ofFrames o budget)).run scan).1.2
          (r.place.forward n)))
      (Pass.keys nested) := by
  have helements : Elements r r.place.position (ofFrames o budget) (Description.resolveEach o)
      (Decode.first <$> nested) := by
    refine ⟨halts_ofFrames o budget, fun ds place => ?_, fun q scan rest hq hfaces =>
      ⟨_, _, rfl, ?_, fun hreaches => ?_⟩⟩
    · induction ds generalizing place with
      | nil => rfl
      | cons d rest ih => exact congrArg (· + 1) (ih _)
    · rw [map_eq_pure_bind, map_eq_pure_bind]
      exact (h (r.moved q) scan rfl rfl hq hfaces).bind (.refl _) fun _ _ h => .done h.faces _
    · have hplace : (r.moved ((ofFrames o budget).run scan).2.position).place =
          (r.moved q).place.forward ((ofFrames o budget).run scan).1.width := by
        rw [hfaces.position_segment hreaches]
        rfl
      rw [hplace]
  have hplace : r.place.forward n = (r.moved q).place.forward 1 := by
    rw [Place.forward, ← hn]
    rfl
  rw [hplace]
  exact helements.elements hle hfaces

theorem later (h : Nested o budget r.frames r.place.depth r.place.position nested) {q : Nat}
    (hle : r.place.position ≤ q) :
    Nested o budget (r.moved q).frames (r.moved q).place.depth (r.moved q).place.position nested :=
  fun r' scan' hframes hdepth hq => h r' scan' hframes hdepth (Nat.le_trans hle hq)

/-- A signature that is replayed. -/
theorem signature (h : Nested o budget r.frames r.place.depth r.place.position nested)
    (hfaces : r.Faces scan) (candidates : List SymbolId) :
    Fuses r ((Scan.array (ofFrames o budget)).run scan).2
      (Description.replayAll (r.place.forward 1)
        (fun place => Decode.elements ((Scan.array (ofFrames o budget)).run scan).1.1
          (Description.resolveEach o ((Scan.array (ofFrames o budget)).run scan).1.2 place))
        candidates)
      (Pass.replayAll (Pass.keys nested) candidates) := by
  refine .replayAll (h.keys (q := r.place.position) rfl (Nat.le_refl _) hfaces) (fun method => ?_)
    candidates
  have hinside : Nested o budget (r.pushMethod method).frames (r.pushMethod method).place.depth
      (r.pushMethod method).place.position nested := h
  exact hinside.keys (q := r.place.position) (n := 1) rfl (Nat.le_refl _)
    ⟨hfaces.eq, hfaces.inside⟩

theorem part (h : Nested o budget r.frames r.place.depth r.place.position nested)
    (hfaces : r.Faces scan) :
    Fuses r ((ofFrames o budget).run scan).2
      (Decode.segment ((ofFrames o budget).run scan).1 r.place
        (((ofFrames o budget).run scan).1.resolve o)) nested :=
  h r scan rfl rfl (Nat.le_refl _) hfaces

/-- A segment that is looked up by name in the segment inside it. -/
theorem named (h : Nested o budget r.frames r.place.depth r.place.position nested)
    (hfaces : r.Faces scan) (lookup : Resolved → String → Decode Resolved)
    (hlookup : ∀ owner name, Quiet (lookup owner name)) :
    Fuses r (Scan.name.run.run ((ofFrames o budget).run scan).2).2
      (do
        let owner ← Decode.segment ((ofFrames o budget).run scan).1 r.place
          (((ofFrames o budget).run scan).1.resolve o)
        let name ← Decode.ofSlot (Scan.name.run.run ((ofFrames o budget).run scan).2).1
        lookup owner name)
      (do
        let owner ← nested
        let name ← name
        Pass.lift (lookup owner name)) :=
  (h.part hfaces).bind (halts_name.stays _) fun owner _ howner =>
    (Spells.name howner.faces).bind (.refl _) fun name _ hname =>
      .quiet hname.faces (hlookup owner name)

theorem nameSpace (h : Nested o budget r.frames r.place.depth r.place.position nested)
    (hfaces : r.Faces scan) :
    Fuses r ((bodyOfFrames (ofFrames o budget) .nameSpace).run scan).2
      (((bodyOfFrames (ofFrames o budget) .nameSpace).run scan).1.resolve o r.place)
      (Pass.body .own o nested r.place .nameSpace) := by
  simp only [bodyOfFrames, Pass.body]
  refine (Spells.bool hfaces).branch (fun d : Description => d.resolve o r.place) ?_ ?_ ?_
  · exact fun _ => .pure _
  · intro d after
    rw [Scan.run_pure, Description.resolve]
  · intro flag after hrun hflag
    cases flag with
    | true =>
      simp only [Scan.run_pure, Description.resolve, if_true]
      exact fun scene => Fuses.done hflag.faces _ scene
    | false =>
      simp only [Scan.run_bind, Scan.run_pure, Description.resolve, Bool.false_eq_true, if_false]
      have hscan : (Scan.bool.run.run scan).2 = after := by rw [hrun]
      have hposition := hfaces.position_slot Scan.Tracks.bool (by rw [hrun]) (hscan ▸ hflag)
      have hplace : r.place.forward 1 = (r.moved after.position).place := by
        rw [hscan] at hposition
        rw [hposition]
        rfl
      rw [hplace]
      exact (h.later hflag.le).named hflag.faces _ fun _ _ => .require fun _ =>
        .bind (.query _ _) fun _ => .done _

theorem method (h : Nested o budget r.frames r.place.depth r.place.position nested)
    (hfaces : r.Faces scan) :
    Fuses r ((bodyOfFrames (ofFrames o budget) .method).run scan).2
      (((bodyOfFrames (ofFrames o budget) .method).run scan).1.resolve o r.place)
      (Pass.body .own o nested r.place .method) := by
  have harray := halts_array (halts_ofFrames o budget)
  simp only [bodyOfFrames, Scan.run_bind, Scan.run_pure, Description.resolve, Pass.body]
  refine (h.part hfaces).bind (halts_name.staysThen (halts_count.staysThen (harray.stays _)))
    fun container _ hcontainer => ?_
  refine (Spells.name hcontainer.faces).bind (halts_count.staysThen (harray.stays _))
    fun name hname' hname => ?_
  refine (Spells.count hname.faces).bind (harray.stays _) fun arity harity' harity => ?_
  have hle := Nat.le_trans hcontainer.le (Nat.le_trans hname.le harity.le)
  have hplace : r.place.forward (((ofFrames o budget).run scan).1.width + 3) =
      (r.moved (Scan.count.run.run (Scan.name.run.run
        ((ofFrames o budget).run scan).2).2).2.position).place.forward 1 := by
    rw [hname.faces.position_count harity' harity, Reader.moved_position,
      hcontainer.faces.position_name hname' hname, Reader.moved_position,
      hfaces.position_segment hcontainer]
    rfl
  rw [hplace]
  have hrest (candidates : List SymbolId) {verdict : Description.Replay → Decode Resolved}
      (hverdict : ∀ outcome, Quiet (verdict outcome)) :=
    ((h.later hle).signature harity.faces candidates).bind (.refl _) fun outcome _ houtcome =>
      .quiet houtcome.faces (hverdict outcome)
  cases container with
  | ok container =>
    exact (Fuses.quiet harity.faces (.query _ _)).bind (harray.stays _) fun candidates _ _ =>
      hrest candidates fun _ => .require fun _ => by split <;> exact .done _
  | error reason =>
    exact (Fuses.quiet harity.faces (.done [])).bind (harray.stays _) fun candidates _ _ =>
      hrest candidates fun _ => .require fun _ => by split <;> exact .done _

theorem body (h : Nested o budget r.frames r.place.depth r.place.position nested)
    (hfaces : r.Faces scan) (category : Category) :
    Fuses r ((bodyOfFrames (ofFrames o budget) category).run scan).2
      (((bodyOfFrames (ofFrames o budget) category).run scan).1.resolve o r.place)
      (Pass.body .own o nested r.place category) := by
  have harray := halts_array (halts_ofFrames o budget)
  cases category with
  | nameSpace => exact h.nameSpace hfaces
  | method => exact h.method hfaces
  | namedType =>
    simp only [bodyOfFrames, Scan.run_bind, Scan.run_pure, Description.resolve, Pass.body,
      ← own_constructed]
    refine (h.part hfaces).bind (halts_name.staysThen (halts_count.staysThen (harray.stays _)))
      fun container _ hcontainer => ?_
    refine (Spells.name hcontainer.faces).bind (halts_count.staysThen (harray.stays _))
      fun name hname' hname => ?_
    refine (Spells.count hname.faces).bind (harray.stays _) fun arity harity' harity => ?_
    refine (h.keys ?_ (Nat.le_trans hcontainer.le (Nat.le_trans hname.le harity.le))
      harity.faces).bind (.refl _) fun arguments _ harguments =>
        .duringEither arguments (.quiet harguments.faces ?_)
    -- the arguments begin after the container, its name and a count
    · rw [hname.faces.position_count harity' harity, Reader.moved_position,
        hcontainer.faces.position_name hname' hname, Reader.moved_position,
        hfaces.position_segment hcontainer]
      rfl
    · exact .require fun _ => .require fun _ => .bind (.query _ _) fun _ => .constructed _ _ _ _ _
  | arrayType =>
    simp only [bodyOfFrames, Scan.run_bind, Scan.run_pure, Description.resolve, Pass.body,
      put_array]
    refine (h.part hfaces).bind (halts_count.stays _) fun element _ helement => ?_
    refine (Spells.count helement.faces).bind (.refl _) fun rank _ hrank => ?_
    exact .quiet hrank.faces
      (.require fun element => .bind (.mapM (fun s => .build _) _) fun _ => .done _)
  | pointerType =>
    simp only [bodyOfFrames, Scan.run_bind, Scan.run_pure, Description.resolve, Pass.body,
      put_pointer]
    refine (h.part hfaces).bind (.refl _) fun pointee _ hpointee => ?_
    exact .quiet hpointee.faces
      (.require fun pointee => .bind (.mapM (fun s => .build _) _) fun _ => .done _)
  | tupleType =>
    simp only [bodyOfFrames, Scan.run_bind, Scan.run_pure, Description.resolve, Pass.body,
      put_tuple]
    refine (h.keys (q := r.place.position) rfl (Nat.le_refl _) hfaces).bind
      ((halts_listing halts_text).staysThen ((halts_listing halts_location).stays _))
      fun types _ htypes => .duringEither types ?_
    refine (Fuses.listing halts_text (fun _ _ => Spells.text) htypes.faces).bind
      ((halts_listing halts_location).stays _) fun names _ hnames => .during names ?_
    refine (Fuses.locations hnames.faces).bind (.refl _) fun locations _ hlocations =>
      .duringEither locations (.quiet hlocations.faces ?_)
    exact .require fun _ => .require fun _ => .rebuild (.build _)
  | anonymousType =>
    simp only [bodyOfFrames, Scan.run_bind, Scan.run_pure, Description.resolve, Pass.body,
      put_anonymous]
    refine (h.keys (q := r.place.position) rfl (Nat.le_refl _) hfaces).bind
      ((halts_listing halts_text).staysThen ((halts_listing halts_bool).staysThen
        ((halts_listing halts_location).stays _)))
      fun types _ htypes => .duringEither types ?_
    refine (Fuses.listing halts_text (fun _ _ => Spells.text) htypes.faces).bind
      ((halts_listing halts_bool).staysThen ((halts_listing halts_location).stays _))
      fun names _ hnames => .during names ?_
    refine (Fuses.listing halts_bool (fun _ _ => Spells.bool) hnames.faces).bind
      ((halts_listing halts_location).stays _) fun readOnly _ hreadOnly => .during readOnly ?_
    refine (Fuses.locations hreadOnly.faces).bind (.refl _) fun locations _ hlocations =>
      .duringEither locations (.quiet hlocations.faces ?_)
    exact .require fun _ => .require fun _ => .rebuild (.build _)
  | typeParameterOrdinal =>
    simp only [bodyOfFrames, Scan.run_bind, Scan.run_pure, Description.resolve, Pass.body]
    refine (Spells.count hfaces).bind (halts_count.stays _) fun depth hdepth' hdepth => ?_
    refine (Spells.count hdepth.faces).bind (.refl _) fun ordinal hordinal' hordinal => ?_
    have hposition := hdepth.faces.position_count hordinal' hordinal
    rw [Reader.moved_position, hfaces.position_count hdepth' hdepth] at hposition
    have hplace : r.place.forward 2 =
        (r.moved (Scan.count.run.run (Scan.count.run.run scan).2).2.position).place := by
      rw [hposition]
      rfl
    rw [hplace]
    exact fun scene => Fuses.quiet hordinal.faces (.enclosing _ depth ordinal) scene
  | typeParameter | field | parameter =>
    simp only [bodyOfFrames, Scan.run_bind, Scan.run_pure, Description.resolve, Pass.body]
    exact h.named hfaces _ fun _ _ => .require fun _ => .bind (.query _ _) fun _ => .done _
  | property =>
    simp only [bodyOfFrames, Scan.run_bind, Scan.run_pure, Description.resolve, Pass.body]
    refine (h.part hfaces).bind (halts_name.staysThen (harray.stays _))
      fun container _ hcontainer => ?_
    refine (Spells.name hcontainer.faces).bind (harray.stays _) fun name hname' hname => ?_
    refine (h.keys ?_ (Nat.le_trans hcontainer.le hname.le) hname.faces).bind (.refl _)
      fun types _ htypes => .duringEither types (.quiet htypes.faces ?_)
    · have hbefore := hfaces.position_segment hcontainer
      have hafter : _ = _ + 1 := hcontainer.faces.position_name hname' hname
      rw [hafter, Reader.moved_position, hbefore]
      rfl
    · exact .require fun _ => .require fun _ => .bind (.query _ _) fun _ => .done _
  | localVariable =>
    simp only [bodyOfFrames, Scan.run_bind, Scan.run_pure, Description.resolve, Pass.body]
    refine (h.part hfaces).bind (halts_name.staysThen (halts_count.stays _))
      fun owner _ howner => ?_
    refine (Spells.name howner.faces).bind (halts_count.stays _) fun name _ hname => ?_
    refine (Spells.count hname.faces).bind (.refl _) fun ordinal _ hordinal => ?_
    exact .quiet hordinal.faces (.require fun _ => .bind (.query _ _) fun _ => .done _)

end Nested

/-- Work inside a segment, which is left again unless there is a fault. -/
theorem Fuses.inside {r : Reader} {final : Scan} {step : Decode α} {pass : Place → Pass α}
    (hdepth : r.place.depth + 1 < UInt64.size)
    (h : Fuses { r with place := { r.place with depth := r.place.depth + 1 } } final step
      (pass { r.place with depth := r.place.depth + 1 })) :
    Fuses r final step (Pass.inside pass) := by
  intro scene
  have hagrees := h scene
  have hdeeper : deeper.run (r, scene) =
      (.ok (), { r with place := { r.place with depth := r.place.depth + 1 } }, scene) := by
    have hplace : place.run (r, scene) = (.ok r.place, r, scene) := rfl
    unfold deeper
    rw [run_bind, hplace]
    dsimp only
    rw [if_pos hdepth]
    rfl
  have hshallower (position : Nat) (scene : Scene) : shallower.run
      (({ r with place := { r.place with depth := r.place.depth + 1 } } : Reader).moved position,
        scene) = (.ok (), r.moved position, scene) := rfl
  have hpass (r : Reader) : (place >>= pass).run (r, scene) = (pass r.place).run (r, scene) := rfl
  unfold Pass.inside
  rw [run_bind, hdeeper]
  dsimp only
  rw [run_afterwards, hpass]
  generalize step.run scene = run, (pass _).run _ = run' at hagrees
  cases hagrees with
  | done hreaches =>
    dsimp only
    rw [run_bind, hshallower]
    exact .done ⟨hreaches.le, hreaches.faces.eq, hreaches.faces.inside⟩
  | defect hscan hle hinside =>
    dsimp only
    rw [run_bind, hshallower]
    exact .defect hscan hle hinside
  | fault => exact .fault

theorem category_bodyOfFrames (nested : Scanner Description) (category : Category) (scan : Scan) :
    ((bodyOfFrames nested category).run scan).1.category? = some category := by
  cases category with
  | nameSpace =>
    simp only [bodyOfFrames, Scan.run_bind]
    cases (Scan.bool.run.run scan).1 with
    | ok flag => cases flag <;> rfl
    | error d => rfl
  | _ => rfl

variable {o : ResolveOptions} {r : Reader} {scan : Scan}

theorem run_ofFrames_cancelled (h : o.cancelled = true) (n : Nat) (hscan : scan.defect = none) :
    (ofFrames o n).run scan =
      (.unreadable .cancelled, { scan with defect := some .cancelled }) := by
  obtain ⟨position, rest, defect⟩ := scan
  obtain rfl : defect = none := hscan
  have hrefused : (Description.admission o).run.run { position := position, rest := rest } =
      (.error .cancelled, { position := position, rest := rest, defect := some .cancelled }) := by
    unfold Description.admission
    rw [h]
    rfl
  cases n <;> rw [ofFrames, Scan.run_map, Scan.run_readings, hrefused] <;> rfl

theorem run_ofFrames_tooDeep (hlive : o.cancelled = false) (hscan : scan.defect = none) :
    (ofFrames o 0).run scan = (.unreadable (.tooDeep o.maxDepth.toNat),
      { scan with defect := some (.tooDeep o.maxDepth.toNat) }) := by
  obtain ⟨position, rest, defect⟩ := scan
  obtain rfl : defect = none := hscan
  have hadmitted : (Description.admission o).run.run { position := position, rest := rest } =
      (.ok (), { position := position, rest := rest }) := by
    unfold Description.admission
    rw [hlive]
    rfl
  rw [ofFrames, Scan.run_map, Scan.run_readings, hadmitted]
  rfl

/-- A segment after its kind frame. -/
theorem Nested.opened {budget : Nat} {nested : Pass Resolved}
    (h : Nested o budget r.frames (r.place.depth + 1) r.place.position nested)
    (hdepth : r.place.depth + 1 < UInt64.size) (hfaces : r.Faces scan) (category : Category) :
    Fuses r ((bodyOfFrames (ofFrames o budget) category).run scan).2 (do
        Decode.emit (.entered category r.place.position)
        let resolved ← ((bodyOfFrames (ofFrames o budget) category).run scan).1.resolve o
          { r.place with depth := r.place.depth + 1 }
        if let .error reason := resolved then
          Decode.emit (.failed category reason)
        return resolved)
      (Pass.opened .own o nested category) := by
  have hbody : Fuses { r with place := { r.place with depth := r.place.depth + 1 } }
      ((bodyOfFrames (ofFrames o budget) category).run scan).2
      (((bodyOfFrames (ofFrames o budget) category).run scan).1.resolve o
        { r.place with depth := r.place.depth + 1 })
      (Pass.body .own o nested { r.place with depth := r.place.depth + 1 } category) :=
    Nested.body (r := { r with place := { r.place with depth := r.place.depth + 1 } }) h
      ⟨hfaces.eq, hfaces.inside⟩ category
  have hstays : Stays scan ((bodyOfFrames (ofFrames o budget) category).run scan).2 := by
    intro d hd
    rw [hfaces.live] at hd
    cases hd
  intro scene
  unfold Pass.opened
  rw [run_position]
  refine ((Fuses.quiet hfaces (.emit _)).bind hstays fun _ _ hfaces' => ?_) scene
  rw [hfaces.moved_eq]
  refine (Fuses.inside hdepth hbody).bind (.refl _) fun resolved _ hresolved => ?_
  cases resolved with
  | ok _ => exact .done hresolved.faces _
  | error reason =>
    exact (Fuses.quiet hresolved.faces (.emit _)).bind (.refl _) fun _ _ h => .done h.faces _

/-- A segment, given that those inside it are read. -/
theorem Nested.segment {nested : Pass Resolved}
    (h : Nested o (r.budget o - 1) r.frames (r.place.depth + 1) (r.place.position + 1) nested)
    (hfaces : r.Faces scan) :
    Fuses r ((ofFrames o (r.budget o)).run scan).2
      (((ofFrames o (r.budget o)).run scan).1.resolveAt o r.place)
        (Pass.segment .own o nested) := by
  have hrefused (d : Defect) (rest : Pass Resolved) :
      Fuses r { scan with defect := some d } ((Description.unreadable d).resolveAt o r.place)
        (Pass.defect d >>= fun _ : PUnit => rest) :=
    fun scene => Spells.raise hfaces d scene
  unfold Pass.segment
  by_cases hcancelled : o.cancelled
  · rw [run_ofFrames_cancelled hcancelled _ hfaces.live, if_pos hcancelled]
    exact hrefused _ _
  · have hlive : o.cancelled = false := by simpa using hcancelled
    rw [if_neg hcancelled]
    intro scene
    rw [run_place]
    by_cases hdeep : o.maxDepth.toNat ≤ r.place.depth
    · have hbudget : r.budget o = 0 := Nat.sub_eq_zero_of_le hdeep
      rw [if_pos hdeep, hbudget, run_ofFrames_tooDeep hlive hfaces.live]
      exact hrefused _ _ scene
    · obtain ⟨budget, hbudget⟩ : ∃ budget, r.budget o = budget + 1 :=
        ⟨r.budget o - 1, by unfold Reader.budget; omega⟩
      rw [if_neg hdeep, hbudget, Description.ofFrames_eq hlive]
      rw [hbudget, Nat.add_sub_cancel] at h
      refine (Spells.kind hfaces).branch (fun d : Description => d.resolveAt o r.place) ?_ ?_
        ?_ scene
      · exact fun _ => .pure _
      · exact fun _ _ => rfl
      · intro category after hrun hafter
        have hscan : (Scan.kind.run.run scan).2 = after := by rw [hrun]
        have hposition := hfaces.position_slot Scan.Tracks.kind (by rw [hrun]) (hscan ▸ hafter)
        rw [hscan] at hposition
        have hcategory := category_bodyOfFrames (ofFrames o budget) category after
        have henter : r.place.enter =
            { (r.moved after.position).place with depth := r.place.depth + 1 } := by
          rw [hposition]
          rfl
        simp only [Description.resolveAt, Decode.segment, hcategory, henter]
        have hinner : Nested o budget r.frames (r.place.depth + 1) after.position nested :=
          hposition ▸ h
        -- the limit is a machine word, so the depth below it can be counted
        have hdepth : r.place.depth + 1 < UInt64.size := by
          have hlimit := o.maxDepth.toNat_lt
          show r.place.depth + 1 < 2 ^ 64
          omega
        exact Nested.opened (r := r.moved after.position) hinner hdepth hafter.faces category

/-- A segment, when the recursion is unfolded as often as there are frames left, and once more. -/
theorem fuses_deepen (o : ResolveOptions) (other : Pass Resolved) {n : Nat}
    (hn : r.frames.length - r.place.position < n) (hfaces : r.Faces scan) :
    Fuses r ((ofFrames o (r.budget o)).run scan).2
      (((ofFrames o (r.budget o)).run scan).1.resolveAt o r.place) (deepen .own o other n) := by
  induction n generalizing r scan with
  | zero => exact absurd hn (Nat.not_lt_zero _)
  | succ n ih =>
    refine Nested.segment (fun r' scan' hframes hdepth hstart hfaces' => ?_) hfaces
    -- the budget of the scan goes down where the depth of the pass goes up
    have hbudget : r.budget o - 1 = r'.budget o := by
      unfold Reader.budget
      rw [hdepth, Nat.sub_sub]
    have hinside := hfaces'.inside
    rw [hbudget]
    refine ih ?_ hfaces'
    rw [hframes] at hinside ⊢
    omega

end Pass

namespace Reader

variable {r : Reader} {scene : Scene}

theorem faces_self (h : r.place.position ≤ r.frames.length) :
    r.Faces { position := r.place.position, rest := r.frames.drop r.place.position } := ⟨rfl, h⟩

theorem Faces.atEnd_eq {scan : Scan} (h : r.Faces scan) : r.isAtEnd = scan.rest.isEmpty := by
  have hinside := h.inside
  have hlength := h.rest_length
  rw [isAtEnd, Bool.eq_iff_iff, beq_iff_eq, List.isEmpty_iff_length_eq_zero, hlength]
  omega

/-- What a reader takes over of making sense of what it scanned. -/
theorem perform_match {α β : Type} {step : Scanner α} (meaning : α → Scan → Decode β) {a : α}
    {scan : Scan} (hscan : step.run
      { position := r.place.position, rest := r.frames.drop r.place.position } = (a, scan)) :
    r.perform step meaning scene =
      match (meaning a scan).run scene with
      | (.error (.fault fault place), scene) =>
        ⟨.error (.fault fault place), { r with place := place }, scene⟩
      | (value, scene) => ⟨value, r.moved scan.position, scene⟩ := by
  unfold perform Reader.scan
  rw [hscan]
  rfl

/-- What comes of reading a segment in one pass is what comes of scanning and resolving it. Unless
there is a fault, the reader is as it was at another position, which it has not passed before. -/
theorem key_eq (h : r.place.position ≤ r.frames.length) (o : ResolveOptions) (scene : Scene) :
    ∃ after, (Pass.key .own o).run (r, scene) =
        ((r.readKey o scene).value, after, (r.readKey o scene).scene) ∧
      ((∀ fault place, (r.readKey o scene).value ≠ .error (.fault fault place)) →
        after = (r.readKey o scene).reader ∧
        ∃ position, r.place.position ≤ position ∧ position ≤ r.frames.length ∧
          after = r.moved position) := by
  have hagrees := Pass.fuses_deepen o (Pass.fault .endless) (n := r.frames.length + 1) (by omega)
    (faces_self h) scene
  rw [Pass.run_key]
  rcases hscan : (Description.ofFrames o (r.budget o)).run
    { position := r.place.position, rest := r.frames.drop r.place.position } with ⟨d, scan⟩
  rw [readKey, perform_match _ hscan]
  rw [hscan] at hagrees
  generalize (Pass.deepen .own o (Pass.fault .endless) (r.frames.length + 1)).run (r, scene) = run',
    (d.resolveAt o r.place).run scene = run at hagrees
  cases hagrees with
  | done hreaches =>
    exact ⟨_, rfl, fun _ => ⟨rfl, _, hreaches.le, hreaches.faces.inside, rfl⟩⟩
  | defect hscan hle hinside => exact ⟨_, rfl, fun _ => ⟨rfl, _, hle, hinside, rfl⟩⟩
  | fault => exact ⟨_, rfl, fun hfaultless => absurd rfl (hfaultless _ _)⟩

/-- The same of a whole key. -/
theorem root_eq (h : r.place.position ≤ r.frames.length) (o : ResolveOptions) (scene : Scene) :
    ∃ after, (Pass.root .own o).run (r, scene) =
        ((r.readRoot o scene).value, after, (r.readRoot o scene).scene) := by
  have hagrees := Pass.fuses_deepen o (Pass.fault .endless) (n := r.frames.length + 1) (by omega)
    (faces_self h) scene
  unfold Pass.root
  rw [Pass.run_bind, Pass.run_key]
  rcases hscan : (Description.ofFrames o (r.budget o)).run
    { position := r.place.position, rest := r.frames.drop r.place.position } with ⟨d, scan⟩
  rw [readRoot, perform_match _ hscan, Decode.run_bind]
  rw [hscan] at hagrees
  generalize (Pass.deepen .own o (Pass.fault .endless) (r.frames.length + 1)).run (r, scene) = run',
    (d.resolveAt o r.place).run scene = run at hagrees
  cases hagrees with
  | done hreaches =>
    dsimp only
    rw [Pass.run_get]
    dsimp only
    rw [hreaches.faces.atEnd_eq]
    cases hrest : scan.rest.isEmpty with
    | true => exact ⟨_, rfl⟩
    | false =>
      -- as many frames trail as the scan has left
      have hlength := hreaches.faces.rest_length
      rw [Bool.not_false, if_pos rfl, Pass.run_bind, Pass.run_left, Pass.run_minus,
        if_pos hreaches.faces.inside, ← hlength]
      exact ⟨_, rfl⟩
  | defect hscan hle hinside => exact ⟨_, rfl⟩
  | fault => exact ⟨_, rfl⟩

end Reader

/-- Resolving a key in one pass is resolving it. -/
theorem Key.resolveThrough_own (o : ResolveOptions) (k : Key) (scene : Scene) :
    k.resolveThrough .own o scene = k.resolveIn o scene := by
  obtain ⟨after, hrun⟩ := Reader.root_eq (r := { frames := k.frames }) (Nat.zero_le _) o scene
  unfold resolveThrough resolveIn
  rewrite [hrun]
  rfl

end Moniker
