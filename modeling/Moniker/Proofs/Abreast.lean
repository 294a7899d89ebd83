import Moniker.Proofs.Quiet
import Moniker.Proofs.Rerunning

/-!
# Two passes abreast

`Pass.Abreast` compares two passes over the same frames that start where the same reader stands.
What their scenes have to do with each other is left to a `Discipline`, which also says when two
buffers on loan count as the same and what it means that so many are on loan. Whatever the
discipline, the two passes come to the same outcome, leave the reader the same, and never go back
behind the position they are judged from; on the way out of a pass that is halted, the buffers it
was responsible for are back.

There is one rule for each way to put passes together. From them it follows once for all
disciplines that a segment treats the segments inside it alike (`Abreast.segment`), and that it
makes no difference how often a recursion is unfolded beyond the number of frames left
(`Abreast.deepen`).
-/

namespace Moniker

/-- How many buffers of each pool are on loan. -/
@[ext] structure Tally where
  symbols : Nat
  strings : Nat
  bools : Nat
  locations : Nat

namespace Tally

instance : Zero Tally := ⟨⟨0, 0, 0, 0⟩⟩

instance : Add Tally where
  add t u := ⟨t.symbols + u.symbols, t.strings + u.strings, t.bools + u.bools,
    t.locations + u.locations⟩

@[simp] theorem add_none (t : Tally) : t + 0 = t := rfl

end Tally

def Arena.tally (a : Arena) : Tally :=
  ⟨a.symbols.outstanding, a.strings.outstanding, a.bools.outstanding, a.locations.outstanding⟩

/-- One buffer on loan. -/
def Tally.one (α : Type) [Lends α] : Tally :=
  (Lends.setPool ({ outstanding := 1 } : Pool α) {}).tally

/-- What is on loan of an element type is what its pool says. -/
class Lends.Counted (α : Type) [Lends α] : Prop extends Lends.Lawful α where
  tally_setPool : ∀ (a : Arena) (p : Pool α),
    p.outstanding = (Lends.pool a : Pool α).outstanding + 1 →
      (Lends.setPool p a).tally = a.tally + .one α
  tally_eq : ∀ {a : Arena} {t : Tally} (p : Pool α), a.tally = t + .one α →
    p.outstanding = (Lends.pool a : Pool α).outstanding - 1 → (Lends.setPool p a).tally = t

instance : Lends.Counted SymbolId where
  tally_setPool _ _ h := congrArg (fun n => Tally.mk n _ _ _) h
  tally_eq _ h hp := by
    obtain ⟨hsymbols, hstrings, hbools, hlocations⟩ := Tally.ext_iff.mp h
    exact Tally.ext (hp.trans (Nat.sub_eq_of_eq_add hsymbols)) hstrings hbools hlocations

instance : Lends.Counted (Option String) where
  tally_setPool _ _ h := congrArg (fun n => Tally.mk _ n _ _) h
  tally_eq _ h hp := by
    obtain ⟨hsymbols, hstrings, hbools, hlocations⟩ := Tally.ext_iff.mp h
    exact Tally.ext hsymbols (hp.trans (Nat.sub_eq_of_eq_add hstrings)) hbools hlocations

instance : Lends.Counted Bool where
  tally_setPool _ _ h := congrArg (fun n => Tally.mk _ _ n _) h
  tally_eq _ h hp := by
    obtain ⟨hsymbols, hstrings, hbools, hlocations⟩ := Tally.ext_iff.mp h
    exact Tally.ext hsymbols hstrings (hp.trans (Nat.sub_eq_of_eq_add hbools)) hlocations

instance : Lends.Counted Location where
  tally_setPool _ _ h := congrArg (fun n => Tally.mk _ _ _ n) h
  tally_eq _ h hp := by
    obtain ⟨hsymbols, hstrings, hbools, hlocations⟩ := Tally.ext_iff.mp h
    exact Tally.ext hsymbols hstrings hbools (hp.trans (Nat.sub_eq_of_eq_add hlocations))

theorem Pool.outstanding_acquire (p : Pool α) (presence : Presence) (n : Nat) :
    (p.acquire presence n).2.outstanding = p.outstanding + 1 := by
  unfold Pool.acquire
  cases p.idle <;> rfl

theorem Arena.tally_acquire [Lends α] [Lends.Counted α] (a : Arena) (presence : Presence)
    (n : Nat) :
    (a.acquire presence n : Loan α × Arena).2.tally = a.tally + .one α :=
  Lends.Counted.tally_setPool a _ (Pool.outstanding_acquire _ presence n)

theorem Arena.tally_release [Lends α] [Lends.Counted α] {a : Arena} {t : Tally} (l : Loan α)
    (h : a.tally = t + .one α) : (a.release l).tally = t :=
  Lends.Counted.tally_eq _ h rfl

/-- How the scenes of two runs stand to each other. -/
structure Discipline where
  /-- The scenes of two runs when so many buffers are on loan. -/
  rel : Tally → Scene → Scene → Prop
  /-- Buffers of the two runs that count as the same. -/
  alike : (α : Type) → Loan α → Loan α → Prop
  content : ∀ {α : Type} {l l' : Loan α}, alike α l l' → l'.content = l.content
  push : ∀ {α : Type} {l l' : Loan α}, alike α l l' → ∀ a, alike α (l.push a) (l'.push a)
  quiet : ∀ {α : Type} {step : Decode α}, step.Quiet → ∀ {t scene scene'}, rel t scene scene' →
    (step.run scene').1 = (step.run scene).1 ∧ rel t (step.run scene).2 (step.run scene').2
  acquire : ∀ {α : Type} [Lends α] [Lends.Counted α] {t scene scene'}, rel t scene scene' →
    ∀ (presence : Presence) (n : Nat),
      alike α (scene.arena.acquire presence n).1 (scene'.arena.acquire presence n).1 ∧
      rel (t + .one α) { scene with arena := (scene.arena.acquire presence n : Loan α × Arena).2 }
        { scene' with arena := (scene'.arena.acquire presence n : Loan α × Arena).2 }
  release : ∀ {α : Type} [Lends α] [Lends.Counted α] {t scene scene'} {l l' : Loan α},
    alike α l l' → rel (t + .one α) scene scene' →
      rel t { scene with arena := scene.arena.release l }
        { scene' with arena := scene'.arena.release l' }

namespace Pass

/-- What two runs have to yield, and how much of it is on loan. -/
abbrev Post (α : Type) := α → α → Tally → Prop

/-- The same value, with nothing on loan. -/
def Post.plain : Post α := fun a a' t => a' = a ∧ t = 0

/-- The same value, while a buffer stays on loan. -/
def Post.beside (β : Type) [Lends β] : Post α := fun a a' t => a' = a ∧ t = .one β

/-- A buffer on loan. -/
def Post.lent (D : Discipline) [Lends α] : Post (Loan α) :=
  fun l l' t => D.alike α l l' ∧ t = .one α

/-- A buffer on loan, or a failure that leaves nothing on loan. -/
inductive Post.lentOr (D : Discipline) [Lends α] : Post (Except Failure (Loan α))
  | ok {l l' : Loan α} (h : D.alike α l l') : lentOr D (.ok l) (.ok l') (.one α)
  | error (reason : Failure) : lentOr D (.error reason) (.error reason) 0

/-- The reader is among these frames, at the position or further on. -/
structure Stands (frames : List Frame) (low : Nat) (r : Reader) : Prop where
  frames_eq : r.frames = frames
  le : low ≤ r.place.position

/-- Two runs that come to the same. -/
inductive Meets (D : Discipline) (frames : List Frame) (low : Nat) (keep : Tally) (post : Post α) :
    Except Halt α × Reader × Scene → Except Halt α × Reader × Scene → Prop
  | done {a a' : α} {t : Tally} {r : Reader} {scene scene' : Scene} (hpost : post a a' t)
    (hstands : Stands frames low r) (hrel : D.rel (keep + t) scene scene') :
    Meets D frames low keep post (.ok a, r, scene) (.ok a', r, scene')
  | halted {halt : Halt} {r : Reader} {scene scene' : Scene} (hstands : Stands frames low r)
    (hrel : D.rel keep scene scene') :
    Meets D frames low keep post (.error halt, r, scene) (.error halt, r, scene')

/-- What comes to the same further on does so from further back. -/
theorem Meets.lower {D : Discipline} {frames : List Frame} {low high : Nat} {keep : Tally}
    {post : Post α} {run run' : Except Halt α × Reader × Scene}
    (h : Meets D frames high keep post run run') (hle : low ≤ high) :
    Meets D frames low keep post run run' := by
  cases h with
  | done hpost hstands hrel =>
    exact .done hpost ⟨hstands.frames_eq, Nat.le_trans hle hstands.le⟩ hrel
  | halted hstands hrel => exact .halted ⟨hstands.frames_eq, Nat.le_trans hle hstands.le⟩ hrel

/-- Two passes that come to the same from the position on. They begin responsible for so many
buffers, and whatever else is on loan stays so. -/
def Abreast (D : Discipline) (frames : List Frame) (low : Nat) (own : Tally) (pass pass' : Pass α)
    (post : Post α) : Prop :=
  ∀ keep r scene scene', Stands frames low r → D.rel (keep + own) scene scene' →
    Meets D frames low keep post (pass.run (r, scene)) (pass'.run (r, scene'))

namespace Abreast

variable {D : Discipline} {frames : List Frame} {low : Nat} {own : Tally} {α β : Type}
  {pass pass' : Pass α} {post : Post α}

/-! ## Sequences -/

theorem yields {a a' : α} (h : post a a' own) : Abreast D frames low own (pure a) (pure a') post :=
  fun _ _ _ _ hstands hrel => .done h hstands hrel

theorem done (a : α) : Abreast D frames low 0 (pure a) (pure a) .plain := yields ⟨rfl, rfl⟩

theorem bind {mid : Post α} {next next' : α → Pass β} {post : Post β}
    (h : Abreast D frames low own pass pass' mid)
    (hnext : ∀ a a' t, mid a a' t → Abreast D frames low t (next a) (next' a') post) :
    Abreast D frames low own (pass >>= next) (pass' >>= next') post := by
  intro keep r scene scene' hstands hrel
  have hmeets := h keep r scene scene' hstands hrel
  rw [run_bind, run_bind]
  generalize pass.run (r, scene) = run, pass'.run (r, scene') = run' at hmeets
  cases hmeets with
  | done hmid hstands hrel => exact hnext _ _ _ hmid keep _ _ _ hstands hrel
  | halted hstands hrel => exact .halted hstands hrel

/-- A pass after one that leaves nothing on loan. -/
theorem andThen {next next' : α → Pass β} {post : Post β}
    (h : Abreast D frames low own pass pass' .plain)
    (hnext : ∀ a, Abreast D frames low 0 (next a) (next' a) post) :
    Abreast D frames low own (pass >>= next) (pass' >>= next') post :=
  h.bind fun _ a t hplain => by
    obtain ⟨rfl, rfl⟩ := hplain
    exact hnext a

/-- A pass after one that leaves on loan what has been. -/
theorem beside [Lends γ] {next next' : α → Pass β} {post : Post β}
    (h : Abreast D frames low own pass pass' (.beside γ))
    (hnext : ∀ a, Abreast D frames low (.one γ) (next a) (next' a) post) :
    Abreast D frames low own (pass >>= next) (pass' >>= next') post :=
  h.bind fun _ a t hbeside => by
    obtain ⟨rfl, rfl⟩ := hbeside
    exact hnext a

theorem map {f : α → β} (h : Abreast D frames low own pass pass' .plain) :
    Abreast D frames low own (f <$> pass) (f <$> pass') .plain := by
  rw [map_eq_pure_bind, map_eq_pure_bind]
  exact h.andThen fun a => done (f a)

/-! ## The reader -/

/-- A pass that takes no notice of the scene. -/
theorem still (outcome : Reader → Except Halt α × Reader)
    (hrun : ∀ r scene, pass.run (r, scene) = ((outcome r).1, (outcome r).2, scene))
    (hstands : ∀ r, Stands frames low r → Stands frames low (outcome r).2) :
    Abreast D frames low 0 pass pass .plain := by
  intro keep r scene scene' hr hrel
  rw [hrun, hrun]
  have hafter := hstands r hr
  rcases houtcome : outcome r with ⟨value, after⟩
  rw [houtcome] at hafter
  cases value with
  | ok a => exact .done ⟨rfl, rfl⟩ hafter hrel
  | error halt => exact .halted hafter (by simpa using hrel)

theorem defect (d : Defect) : Abreast D frames low 0 (Pass.defect d) (Pass.defect d) post :=
  fun _ _ _ _ hstands hrel => .halted hstands (by rwa [Tally.add_none] at hrel)

/-- A defect, whatever would have followed. -/
theorem refused (d : Defect) (next next' : α → Pass β) {post : Post β} :
    Abreast D frames low 0 (Pass.defect d >>= next) (Pass.defect d >>= next') post :=
  fun _ _ _ _ hstands hrel => .halted hstands (by rwa [Tally.add_none] at hrel)

theorem fault (f : Fault) : Abreast D frames low 0 (Pass.fault f : Pass α) (Pass.fault f) .plain :=
  still (fun r => (.error (.fault f r.place), r)) (fun _ _ => rfl) fun _ h => h

/-- A pass that asks for the place of the reader. -/
theorem atPlace {next next' : Place → Pass α}
    (h : ∀ place : Place, low ≤ place.position →
      Abreast D frames low own (next place) (next' place) post) :
    Abreast D frames low own (Pass.place >>= next) (Pass.place >>= next') post :=
  fun keep r scene scene' hstands hrel =>
    h r.place hstands.le keep r scene scene' hstands hrel

theorem position : Abreast D frames low 0 Pass.position Pass.position .plain :=
  still (fun r => (.ok r.place.position, r)) (fun _ _ => rfl) fun _ h => h

theorem minus (a b : Nat) : Abreast D frames low 0 (Pass.minus a b) (Pass.minus a b) .plain := by
  unfold Pass.minus
  split
  · exact done _
  · exact fault _

theorem last : Abreast D frames low 0 Pass.last Pass.last .plain :=
  position.andThen fun _ => minus _ _

theorem left : Abreast D frames low 0 Pass.left Pass.left .plain := by
  intro keep r scene scene' hstands hrel
  rw [run_left, run_left]
  exact minus _ _ keep r scene scene' hstands hrel

theorem rewind {position : Nat} (h : low ≤ position) :
    Abreast D frames low 0 (Pass.rewind position) (Pass.rewind position) .plain := by
  have hrun (r : Reader) (scene : Scene) : (Pass.rewind position).run (r, scene) =
      if position ≤ r.place.position then (.ok (), r.moved position, scene)
      else (.error (.fault .rewindAhead r.place), r, scene) := by
    split
    · exact run_rewind ‹_› scene
    · have hget : (get : Pass (Reader × Scene)).run (r, scene) = (.ok (r, scene), r, scene) := rfl
      unfold Pass.rewind
      rw [run_bind, hget]
      dsimp only
      rw [Reader.rewind, if_neg ‹_›]
      rfl
  refine still (fun r => if position ≤ r.place.position then (.ok (), r.moved position)
    else (.error (.fault .rewindAhead r.place), r)) (fun r scene => ?_) fun r hr => ?_
  · rw [hrun]
    split <;> rfl
  · split
    · exact ⟨hr.frames_eq, h⟩
    · exact hr

theorem push (method : SymbolId) :
    Abreast D frames low 0 (Pass.push method) (Pass.push method) .plain :=
  still (fun r => (.ok (), r.pushMethod method)) (fun _ _ => rfl)
    fun _ h => ⟨h.frames_eq, h.le⟩

theorem setDepth (depth : Nat) :
    Abreast D frames low 0 (Pass.setDepth depth) (Pass.setDepth depth) .plain :=
  still (fun r => (.ok (), { r with place := { r.place with depth := depth } }))
    (fun _ _ => rfl) fun _ h => ⟨h.frames_eq, h.le⟩

theorem deeper : Abreast D frames low 0 Pass.deeper Pass.deeper .plain := by
  refine atPlace fun place _ => ?_
  dsimp only
  split
  · exact setDepth _
  · exact fault _

theorem shallower : Abreast D frames low 0 Pass.shallower Pass.shallower .plain :=
  atPlace fun _ _ => (minus _ _).andThen setDepth

/-- A pass that ends with putting the reader right. -/
theorem afterwards {undo : Pass Unit} (h : Abreast D frames low 0 pass pass' .plain)
    (hundo : Abreast D frames low 0 undo undo .plain) :
    Abreast D frames low 0 (Pass.afterwards pass undo) (Pass.afterwards pass' undo) .plain := by
  intro keep r scene scene' hstands hrel
  have hmeets := h keep r scene scene' hstands hrel
  rw [run_afterwards, run_afterwards]
  generalize pass.run (r, scene) = run, pass'.run (r, scene') = run' at hmeets
  cases hmeets with
  | @done a a' t r scene scene' hplain hstands hrel =>
    obtain ⟨rfl, rfl⟩ := hplain
    exact (hundo.andThen fun _ => done a') keep r scene scene' hstands hrel
  | @halted halt r scene scene' hstands hrel =>
    -- after a fault nothing is put right
    cases halt with
    | fault f place => exact .halted hstands hrel
    | defect d =>
      exact (hundo.andThen fun _ => defect d) keep r scene scene' hstands (by rwa [Tally.add_none])

/-- The next frame. If there is one, what follows is judged from the position after it. -/
theorem next_bind {next next' : Frame → Pass α}
    (h : ∀ frame, low < frames.length →
      Abreast D frames (low + 1) 0 (next frame) (next' frame) post) :
    Abreast D frames low 0 (Pass.next >>= next) (Pass.next >>= next') post := by
  intro keep r scene scene' hstands hrel
  rw [run_bind, run_bind, run_next, run_next]
  cases hframe : r.frames[r.place.position]? with
  | none => exact .halted hstands (by rwa [Tally.add_none] at hrel)
  | some frame =>
    have hlt : r.place.position < r.frames.length := (List.getElem?_eq_some_iff.mp hframe).1
    have hle := hstands.le
    have hinside : low < frames.length := by
      rw [← hstands.frames_eq]
      omega
    have hafter : Stands frames (low + 1) { r with place := r.place.forward 1 } :=
      ⟨hstands.frames_eq, Nat.succ_le_succ hle⟩
    exact (h frame hinside keep _ scene scene' hafter hrel).lower (Nat.le_succ low)

/-! ## Values -/

theorem next : Abreast D frames low 0 Pass.next Pass.next .plain := by
  intro keep r scene scene' hstands hrel
  rw [run_next, run_next]
  cases r.frames[r.place.position]? with
  | none => exact .halted hstands (by rwa [Tally.add_none] at hrel)
  | some frame => exact .done ⟨rfl, rfl⟩ ⟨hstands.frames_eq, Nat.le_succ_of_le hstands.le⟩ hrel

theorem expect (wanted : Frame.Content) (value? : Frame → Option α) :
    Abreast D frames low 0 (Pass.expect wanted value?) (Pass.expect wanted value?) .plain := by
  refine next.andThen fun frame => ?_
  split
  · exact done _
  · exact last.andThen fun _ => defect _

theorem text : Abreast D frames low 0 Pass.text Pass.text .plain := expect _ _

theorem bool : Abreast D frames low 0 Pass.bool Pass.bool .plain := expect _ _

theorem name : Abreast D frames low 0 Pass.name Pass.name .plain := by
  refine text.andThen fun value => ?_
  cases value with
  | some name => exact done name
  | none => exact last.andThen fun _ => defect _

theorem count : Abreast D frames low 0 Pass.count Pass.count .plain := by
  refine (expect _ _).andThen fun value => ?_
  split
  · exact last.andThen fun _ => defect _
  · exact done _

theorem pos : Abreast D frames low 0 Pass.pos Pass.pos .plain :=
  count.andThen fun _ => count.andThen fun _ => count.andThen fun _ => done _

theorem site : Abreast D frames low 0 Pass.site Pass.site .plain := by
  refine (expect _ _).andThen fun value => ?_
  split
  · exact done _
  · exact name.andThen fun _ => pos.andThen fun _ => pos.andThen fun _ => done _
  · exact last.andThen fun _ => defect _

theorem quiet {step : Decode α} (h : step.Quiet) :
    Abreast D frames low 0 (Pass.lift step) (Pass.lift step) .plain := by
  intro keep r scene scene' hstands hrel
  obtain ⟨houtcome, hafter⟩ := D.quiet h hrel
  rw [run_lift, run_lift, houtcome]
  cases (step.run scene).1 with
  | ok a => exact .done ⟨rfl, rfl⟩ hstands hafter
  | error halt => exact .halted hstands (by rwa [Tally.add_none] at hafter)

/-- The same of two steps that are one. -/
theorem quiet_of_eq {step step' : Decode α} (h : step.Quiet) (heq : step' = step) :
    Abreast D frames low 0 (Pass.lift step) (Pass.lift step') .plain := by
  rw [heq]
  exact quiet h

theorem location : Abreast D frames low 0 Pass.location Pass.location .plain :=
  site.andThen fun l => quiet (.location l)

/-! ## Arrays -/

theorem header : Abreast D frames low 0 Pass.header Pass.header .plain := by
  refine (expect _ _).andThen fun ⟨presence, n⟩ => ?_
  dsimp only
  split
  · exact last.andThen fun _ => refused _ _ _
  · refine left.andThen fun remaining => ?_
    split
    · exact last.andThen fun _ => refused _ _ _
    · exact done _

section Buffers

variable [Lends β] [Lends.Counted β] {l l' : Loan β}

theorem borrow (presence : Presence) (n : Nat) :
    Abreast D frames low 0 (Pass.lift (Decode.borrow presence n : Decode (Loan β)))
      (Pass.lift (Decode.borrow presence n)) (.lent D) := by
  intro keep r scene scene' hstands hrel
  obtain ⟨hloan, hafter⟩ := D.acquire (α := β) hrel presence n
  rw [Tally.add_none] at hafter
  exact .done ⟨hloan, rfl⟩ hstands hafter

theorem giveBack (hloan : D.alike β l l') : Abreast D frames low (.one β)
    (Pass.lift (Decode.giveBack l)) (Pass.lift (Decode.giveBack l')) .plain := by
  intro keep r scene scene' hstands hrel
  exact .done ⟨rfl, rfl⟩ hstands (by rw [Tally.add_none]; exact D.release hloan hrel)

theorem orGiveBack (hloan : D.alike β l l') (h : Abreast D frames low 0 pass pass' .plain) :
    Abreast D frames low (.one β) (Pass.orGiveBack l pass) (Pass.orGiveBack l' pass')
      (.beside β) := by
  intro keep r scene scene' hstands hrel
  -- for the step inside, the buffer is one of those that stay on loan
  have hmeets := h (keep + .one β) r scene scene' hstands (by rwa [Tally.add_none])
  rw [run_orGiveBack, run_orGiveBack]
  generalize pass.run (r, scene) = run, pass'.run (r, scene') = run' at hmeets
  cases hmeets with
  | done hplain hstands hrel =>
    obtain ⟨rfl, rfl⟩ := hplain
    exact .done ⟨rfl, rfl⟩ hstands (by rwa [Tally.add_none] at hrel)
  | halted hstands hrel => exact .halted hstands (D.release hloan hrel)

theorem during (hloan : D.alike β l l') (h : Abreast D frames low 0 pass pass' .plain) :
    Abreast D frames low (.one β) (Pass.during l pass) (Pass.during l' pass') .plain :=
  (orGiveBack hloan h).beside fun a => (giveBack hloan).andThen fun _ => done a

/-- The same for arrays that both passes have, or that failed in both. -/
theorem duringEither {lent lent' : Except Failure (Loan β)} {t : Tally}
    (hlent : Post.lentOr D lent lent' t) (h : Abreast D frames low 0 pass pass' .plain) :
    Abreast D frames low t (Pass.duringEither lent pass) (Pass.duringEither lent' pass')
      .plain := by
  cases hlent with
  | ok hloan => exact during hloan h
  | error reason => exact h

theorem gather {item : Pass β} (hitem : Abreast D frames low 0 item item .plain) (n : Nat)
    (hloan : D.alike β l l') :
    Abreast D frames low (.one β) (Pass.gather item n l) (Pass.gather item n l') (.lent D) := by
  induction n generalizing l l' with
  | zero => exact yields ⟨hloan, rfl⟩
  | succ n ih => exact (orGiveBack hloan hitem).beside fun a => ih (D.push hloan a)

theorem listing {item : Pass β} (hitem : Abreast D frames low 0 item item .plain) :
    Abreast D frames low 0 (Pass.listing item) (Pass.listing item) (.lent D) :=
  header.andThen fun ⟨presence, n⟩ => (borrow presence n).bind fun l l' t hlent => by
    obtain ⟨hloan, rfl⟩ := hlent
    exact gather hitem n hloan

variable {item item' : Pass (Except Failure β)}

theorem collect (hitem : Abreast D frames low 0 item item' .plain) (index n : Nat)
    (hloan : D.alike β l l') (failure : Option Failure) :
    Abreast D frames low (.one β) (Pass.collect item index n l failure)
      (Pass.collect item' index n l' failure) (Post.lentOr D) := by
  induction n generalizing index l l' failure with
  | zero =>
    -- a failure is reported at the end only, when the buffer is of no use any more
    cases failure with
    | none => exact yields (.ok hloan)
    | some reason => exact (giveBack hloan).andThen fun _ => yields (.error reason)
  | succ n ih =>
    refine (orGiveBack hloan hitem).beside fun resolved => ?_
    cases resolved with
    | ok a => exact ih (index + 1) (D.push hloan a) failure
    | error reason => exact ih (index + 1) hloan _

theorem elements (hitem : Abreast D frames low 0 item item' .plain) :
    Abreast D frames low 0 (Pass.elements item) (Pass.elements item') (Post.lentOr D) :=
  header.andThen fun ⟨presence, n⟩ => (borrow presence n).bind fun l l' t hlent => by
    obtain ⟨hloan, rfl⟩ := hlent
    exact collect hitem 0 n hloan none

end Buffers

/-! ## Signatures -/

variable {signature signature' : Pass (Except Failure (Loan SymbolId))} {start : Place}

theorem reread (hstart : low ≤ start.position) (method : SymbolId)
    (h : Abreast D frames low 0 pass pass' post) :
    Abreast D frames low 0 (Pass.reread start method pass) (Pass.reread start method pass')
      post := by
  refine (rewind hstart).andThen fun _ => (push method).andThen fun _ => ?_
  intro keep r scene scene' hstands hrel
  have hmeets := h keep r scene scene' hstands hrel
  have hpop (r : Reader) (scene : Scene) : Pass.pop.run (r, scene) = (.ok (), r.popMethod, scene) :=
    rfl
  rw [run_afterwards, run_afterwards]
  generalize pass.run (r, scene) = run, pass'.run (r, scene') = run' at hmeets
  cases hmeets with
  | done hpost hstands hrel =>
    dsimp only
    rw [run_bind, run_bind, hpop, hpop]
    exact .done hpost ⟨hstands.frames_eq, hstands.le⟩ hrel
  | @halted halt r scene scene' hstands hrel =>
    cases halt with
    | fault f place => exact .halted hstands hrel
    | defect d =>
      dsimp only
      rw [run_bind, run_bind, hpop, hpop]
      exact .halted ⟨hstands.frames_eq, hstands.le⟩ hrel

theorem replay (hstart : low ≤ start.position)
    (h : Abreast D frames low 0 signature signature' (Post.lentOr D)) (candidates : List SymbolId)
    (sofar : Description.Replay) :
    Abreast D frames low 0 (Pass.replay start signature candidates sofar)
      (Pass.replay start signature' candidates sofar) .plain := by
  induction candidates generalizing sofar with
  | nil => exact done sofar
  | cons candidate rest ih =>
    refine (reread hstart candidate h).bind fun outcome outcome' t hlent => ?_
    cases hlent with
    | error reason => exact ih _
    | @ok types types' hloan =>
      dsimp only
      rw [Loan.items_eq (D.content hloan)]
      exact (during hloan ((quiet (.query _ _)).andThen fun _ => done _)).andThen fun fits => ih _

theorem replayAll (h : Abreast D frames low 0 signature signature' (Post.lentOr D))
    (candidates : List SymbolId) :
    Abreast D frames low 0 (Pass.replayAll signature candidates)
      (Pass.replayAll signature' candidates) .plain := by
  refine atPlace fun start hstart => (replay hstart h candidates {}).andThen fun outcome => ?_
  cases candidates with
  | nil =>
    refine Abreast.bind h fun types types' t hlent => ?_
    cases hlent with
    | ok hloan => exact (giveBack hloan).andThen fun _ => done _
    | error reason => exact done _
  | cons candidate rest => exact done _

/-! ## Segments -/

section Segments

variable {f : Factories} {o : ResolveOptions} {nested nested' : Pass Resolved} {category : Category}

/-- Going on with an array, when that depends on what is in its buffer alone. -/
theorem require_eq [Lends β] {part : String} {lent lent' : Except Failure (Loan β)} {t : Tally}
    {onward onward' : Loan β → Decode Resolved} (hlent : Post.lentOr D lent lent' t)
    (h : ∀ l l', l'.content = l.content → onward' l' = onward l) :
    Decode.require category part lent' onward' = Decode.require category part lent onward := by
  cases hlent with
  | ok hloan => exact h _ _ (D.content hloan)
  | error reason => rfl

theorem keys (h : Abreast D frames low 0 nested nested' .plain) :
    Abreast D frames low 0 (Pass.keys nested) (Pass.keys nested') (Post.lentOr D) :=
  elements h.map

/-- A segment that is looked up by name in the segment inside it. -/
theorem named (h : Abreast D frames low 0 nested nested' .plain)
    {lookup : Resolved → String → Decode Resolved}
    (hlookup : ∀ owner name, (lookup owner name).Quiet) :
    Abreast D frames low 0
      (do
        let owner ← nested
        let name ← Pass.name
        Pass.lift (lookup owner name))
      (do
        let owner ← nested'
        let name ← Pass.name
        Pass.lift (lookup owner name)) .plain :=
  h.andThen fun owner => name.andThen fun name => quiet (hlookup owner name)

omit f in
theorem method (h : Abreast D frames low 0 nested nested' .plain) (f : Factories) (start : Place) :
    Abreast D frames low 0 (Pass.body f o nested start .method)
      (Pass.body f o nested' start .method)
      .plain := by
  refine h.andThen fun container => name.andThen fun name => count.andThen fun arity => ?_
  refine (quiet ?_).andThen fun candidates => (replayAll h.keys candidates).andThen fun outcome =>
    quiet (.require fun _ => by split <;> exact .done _)
  cases container with
  | ok container => exact .query _ _
  | error reason => exact .done []

theorem body (h : Abreast D frames low 0 nested nested' .plain) (start : Place) :
    Abreast D frames low 0 (Pass.body f o nested start category)
      (Pass.body f o nested' start category)
      .plain := by
  cases category with
  | nameSpace =>
    refine bool.andThen fun flag => ?_
    cases flag with
    | true =>
      have hglobal : (get >>= fun scene : Scene =>
          pure (.ok (.symbol scene.compilation.global)) : Decode Resolved).Quiet :=
        .look (fun _ => .done _) fun _ _ => rfl
      exact fun keep r scene scene' => quiet hglobal keep r scene scene'
    | false => exact h.named fun _ _ => .require fun _ => .bind (.query _ _) fun _ => .done _
  | namedType =>
    refine h.andThen fun container => name.andThen fun name => count.andThen fun arity =>
      h.keys.bind fun arguments arguments' t hlent => ?_
    refine duringEither hlent (quiet_of_eq (.require fun _ => .require fun _ =>
      .bind (.query _ _) fun _ => .constructed _ _ _ _ _) ?_)
    congr 1
    funext container
    refine require_eq hlent fun l l' hl => ?_
    unfold Factories.constructed
    rw [Loan.items_eq hl, Loan.presence_eq hl]
  | arrayType =>
    exact h.andThen fun element => count.andThen fun rank => quiet (.require fun element =>
      .bind (.mapM (fun s => .put _ _) _) fun _ => .done _)
  | pointerType =>
    exact h.andThen fun pointee => quiet (.require fun pointee =>
      .bind (.mapM (fun s => .put _ _) _) fun _ => .done _)
  | tupleType =>
    refine h.keys.bind fun types types' t htypes => duringEither htypes ?_
    refine (listing text).bind fun names names' t ⟨hnames, ht⟩ => ht ▸ during hnames ?_
    refine (elements location).bind fun locations locations' t hlocations => ?_
    refine duringEither hlocations (quiet_of_eq (.require fun _ => .require fun _ =>
      .rebuild (.put _ _)) ?_)
    refine require_eq htypes fun l l' hl => require_eq hlocations fun k k' hk => ?_
    rw [Loan.presence_eq hl, Loan.items_eq hl, Loan.items_eq (D.content hnames), Loan.items_eq hk]
  | anonymousType =>
    refine h.keys.bind fun types types' t htypes => duringEither htypes ?_
    refine (listing text).bind fun names names' t ⟨hnames, ht⟩ => ht ▸ during hnames ?_
    refine (listing bool).bind fun readOnly readOnly' t ⟨hreadOnly, ht⟩ => ht ▸ during hreadOnly ?_
    refine (elements location).bind fun locations locations' t hlocations => ?_
    refine duringEither hlocations (quiet_of_eq (.require fun _ => .require fun _ =>
      .rebuild (.put _ _)) ?_)
    refine require_eq htypes fun l l' hl => require_eq hlocations fun k k' hk => ?_
    rw [Loan.presence_eq hl, Loan.items_eq hl, Loan.items_eq (D.content hnames),
      Loan.items_eq (D.content hreadOnly), Loan.items_eq hk]
  | typeParameterOrdinal =>
    refine count.andThen fun depth => count.andThen fun ordinal => atPlace fun place _ => ?_
    exact quiet (.enclosing place depth ordinal)
  | typeParameter | field | parameter =>
    exact h.named fun _ _ => .require fun _ => .bind (.query _ _) fun _ => .done _
  | property =>
    refine h.andThen fun container => name.andThen fun name =>
        h.keys.bind fun types types' t htypes =>
      duringEither htypes (quiet_of_eq (.require fun _ => .require fun _ =>
        .bind (.query _ _) fun _ => .done _) ?_)
    congr 1
    funext container
    refine require_eq htypes fun l l' hl => ?_
    rw [Loan.items_eq hl]
  | method => exact h.method f start
  | localVariable =>
    exact h.andThen fun owner => name.andThen fun name => count.andThen fun ordinal =>
      quiet (.require fun _ => .bind (.query _ _) fun _ => .done _)

theorem inside {pass pass' : Place → Pass Resolved}
    (h : ∀ place, Abreast D frames low 0 (pass place) (pass' place) .plain) :
    Abreast D frames low 0 (Pass.inside pass) (Pass.inside pass') .plain :=
  deeper.andThen fun _ => afterwards (atPlace fun place _ => h place) shallower

theorem opened (h : Abreast D frames low 0 nested nested' .plain) :
    Abreast D frames low 0 (Pass.opened f o nested category) (Pass.opened f o nested' category)
      .plain := by
  refine position.andThen fun position => (quiet (.emit _)).andThen fun _ =>
    (inside fun start => h.body start).andThen fun resolved => ?_
  cases resolved with
  | ok _ => exact done _
  | error reason => exact (quiet (.emit _)).andThen fun _ => done _

/-- A segment reads those inside it from further on alone. -/
theorem segment (h : low < frames.length → Abreast D frames (low + 1) 0 nested nested' .plain) :
    Abreast D frames low 0 (Pass.segment f o nested) (Pass.segment f o nested') .plain := by
  unfold Pass.segment
  split
  · exact refused _ _ _
  · refine atPlace fun place _ => ?_
    split
    · exact refused _ _ _
    · unfold Pass.kind Pass.expect
      rw [bind_assoc, bind_assoc]
      refine next_bind fun frame hinside => Abreast.andThen ?_ fun category => (h hinside).opened
      split
      · exact done _
      · exact last.andThen fun _ => defect _

/-- It makes no difference how often the recursion is unfolded, as long as it is oftener than there
are frames left, nor what is done when it is not unfolded any more. -/
theorem deepen (other other' : Pass Resolved) {n n' : Nat} (hn : frames.length - low < n)
    (hn' : frames.length - low < n') :
    Abreast D frames low 0 (Pass.deepen f o other n) (Pass.deepen f o other' n') .plain := by
  induction n generalizing low n' with
  | zero => exact absurd hn (Nat.not_lt_zero _)
  | succ n ih =>
    cases n' with
    | zero => exact absurd hn' (Nat.not_lt_zero _)
    -- the segments inside begin one frame further on at least
    | succ n' => exact segment fun hinside => ih (by omega) (by omega)

theorem key : Abreast D frames low 0 (Pass.key f o) (Pass.key f o) .plain := by
  intro keep r scene scene' hstands hrel
  rw [run_key, run_key, hstands.frames_eq]
  exact deepen _ _ (by omega) (by omega) keep r scene scene' hstands hrel

theorem root : Abreast D frames low 0 (Pass.root f o) (Pass.root f o) .plain := by
  refine key.andThen fun resolved keep r scene scene' hstands hrel => ?_
  rw [run_get, run_get]
  dsimp only
  split
  · exact (left.andThen fun _ => position.andThen fun _ => refused _ _ _) keep r scene
      scene' hstands hrel
  · exact done resolved keep r scene scene' hstands hrel

end Segments

end Abreast
end Pass
end Moniker
