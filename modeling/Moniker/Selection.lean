/-!
# Selecting with tests that may fail

Queries about symbols can fail, so searches among symbols run tests in `Except`. The first
test that fails decides the search.
-/

namespace Moniker

/-- The entries that pass the test, in order. -/
def select (test : α → Except ε Bool) : List α → Except ε (List α)
  | [] => .ok []
  | a :: rest => do
    if ← test a then return a :: (← select test rest) else select test rest

/-- The first entry that passes the test. -/
def selectFirst? (test : α → Except ε Bool) : List α → Except ε (Option α)
  | [] => .ok none
  | a :: rest => do
    if ← test a then return some a else selectFirst? test rest

/-- What the entries expand to, in order. -/
def expand (children : α → Except ε (List β)) : List α → Except ε (List β)
  | [] => .ok []
  | a :: rest => do return (← children a) ++ (← expand children rest)

/-- What the entries that have an image are sent to, in order. -/
def pick (image? : α → Except ε (Option β)) : List α → Except ε (List β)
  | [] => .ok []
  | a :: rest => do
    match ← image? a with
    | some b => return b :: (← pick image? rest)
    | none => pick image? rest

/-- On tests that cannot fail, selecting is filtering. -/
theorem select_ok {test : α → Except ε Bool} {p : α → Bool} {as : List α}
    (pure : ∀ a ∈ as, test a = .ok (p a)) : select test as = .ok (as.filter p) := by
  induction as with
  | nil => rfl
  | cons a rest ih =>
    have head := pure a (by simp)
    have tail := ih fun b member => pure b (by simp [member])
    cases passes : p a <;> simp [select, bind, Except.bind, head, tail, passes]
    rfl

end Moniker
