import Moniker.Key
import Moniker.Proofs.Containment

/-!
# Programs as lists of requests

A program can be written down as the list of the requests that declare it. Whether these respect
containment can be computed (`Request.ContainedAll`), and if they do, the program is one of those
that the theorems are about (`Draft.made_ofRequests`).
-/

namespace Moniker

namespace SymbolTable

variable (t : SymbolTable) (s : SymbolId)

instance : Decidable (t.Issued s) := inferInstanceAs (Decidable (s.index < t.size))

instance : Decidable (t.IsDefinition s) :=
  decidable_of_iff (t.Issued s ∧ (t.entry s).kind = .namedType ∧ (t.entry s).definition = none)
    ⟨fun h => ⟨h.1, h.2.1, h.2.2⟩, fun h => ⟨h.issued, h.kind, h.definition⟩⟩

instance : Decidable (t.IsType s) :=
  decidable_of_iff (t.Issued s ∧ (t.entry s).kind.isType = true)
    ⟨fun h => ⟨h.1, h.2⟩, fun h => ⟨h.issued, h.kind⟩⟩

instance (kind : SymbolKind) : Decidable (t.Hosts s kind) := by
  cases kind <;> dsimp only [Hosts] <;> infer_instance

end SymbolTable

namespace Request

instance (t : SymbolTable) (r : TypeRequest) : Decidable (r.Contained t) :=
  inferInstanceAs (Decidable (_ ∧ _))

instance (t : SymbolTable) (r : Request) : Decidable (r.Contained t) := by
  cases r <;> dsimp only [Contained] <;> infer_instance

/-- Each of the requests respects containment when it is made. -/
def ContainedAll (t : SymbolTable) : List Request → Prop
  | [] => True
  | r :: rest => r.Contained t ∧ ContainedAll (r.after t) rest

instance decidableContainedAll : (t : SymbolTable) → (rs : List Request) →
    Decidable (ContainedAll t rs)
  | _, [] => inferInstanceAs (Decidable True)
  | t, r :: rest =>
    have := decidableContainedAll (r.after t) rest
    inferInstanceAs (Decidable (r.Contained t ∧ ContainedAll (r.after t) rest))

end Request

namespace Draft

/-- The draft that requests lead to, if they do not fault. -/
def ofRequests (rs : List Request) : Draft := rs.foldl (fun d r => r.afterDraft d) .empty

theorem Made.afterDrafts {d : Draft} (h : d.Made Request.Contained) {rs : List Request}
    (hrs : Request.ContainedAll d.table rs) :
    (rs.foldl (fun d r => r.afterDraft d) d).Made Request.Contained := by
  induction rs generalizing d with
  | nil => exact h
  | cons r rest ih => exact ih (h.request hrs.1 (r.run_eq hrs.1.issued)) hrs.2

theorem made_ofRequests {rs : List Request} (h : Request.ContainedAll empty.table rs) :
    (ofRequests rs).Made Request.Contained :=
  Made.empty.afterDrafts h

/-- Two classes, of the given name and `A`, and a class `C` that has indexers `P` and `p`, which
take an `A`, and a method with locals `v` and `V`. -/
def rivals (name : String) : Draft :=
  ofRequests [.namedType global name [], .namedType global "A" [], .namedType global "C" [],
    .indexer ⟨7⟩ "P" ⟨6⟩ [("x", ⟨6⟩)], .indexer ⟨7⟩ "p" ⟨6⟩ [("x", ⟨6⟩)], .method ⟨7⟩ "m" [],
    .localVariable ⟨12⟩ "v" ⟨6⟩, .localVariable ⟨12⟩ "V" ⟨6⟩]

theorem made_rivals {name : String} (h : name ∈ ["a", "b", "A"]) :
    (rivals name).Made Request.Contained := by
  simp only [List.mem_cons, List.not_mem_nil, or_false] at h
  rcases h with rfl | rfl | rfl <;> exact made_ofRequests (by decide)

/-- A class `A`, a class `C` with indexers `P` and `p`, which take an `A`, and a class `a` in a
namespace that they have nothing to do with. -/
def rivalsElsewhere : Draft :=
  ofRequests [.namedType global "A" [], .namedType global "C" [],
    .indexer ⟨6⟩ "P" ⟨5⟩ [("x", ⟨5⟩)], .indexer ⟨6⟩ "p" ⟨5⟩ [("x", ⟨5⟩)],
    .nameSpace global "n", .namedType ⟨11⟩ "a" []]

theorem made_rivalsElsewhere : rivalsElsewhere.Made Request.Contained := made_ofRequests (by decide)

/-- The key of the property `P` among rivals. -/
def rivalKey : Key :=
  .ofFrames [.kind .property, .kind .namedType, .kind .nameSpace, .bool true,
    .text (some "C"), .int 0,
    .array .absent 0, .text (some "P"), .array .populated 1, .kind .namedType, .kind .nameSpace,
    .bool true, .text (some "A"), .int 0, .array .absent 0]

end Draft

/-- The frames of the key of a built-in type. -/
def Key.builtinFrames (name : String) : List Frame :=
  [.kind .namedType, .kind .nameSpace, .bool true, .text (some name), .int 0, .array .absent 0]

end Moniker
