import Moniker.Proofs.Steps

/-!
# The books of a pool

A pool lends buffers and takes them back in any order, also while a fault unwinds the stack. A
`Ledger` is a pool together with the loans that are out, and a `Ledger.Act` is what may happen to
them. What every act keeps is `Ledger.Balanced`: the pool counts the loans that are out, so that its
count never falls below zero, and the buffers that wait are few, small and empty.

How much room a lent buffer has does depend on what was done with it before. A buffer that has
waited is small, though, and it at most doubles for an announcement up to the same bound, so that it
stays below twice the bound whatever is announced (`Buffer.capacity_reserve_lt`).
-/

namespace Moniker

/-! ## Buffers -/

namespace Buffer

variable {α : Type} {b : Buffer α} {least n : Nat}

/-- The buffer makes at least so much room when it makes any, and has room for what it holds. -/
structure Fits (least : Nat) (b : Buffer α) : Prop where
  least_eq : b.least = least
  size_le : b.items.size ≤ b.capacity

/-- The room that an empty buffer makes. -/
theorem capacity_reserve (hempty : b.items = #[]) :
    (b.reserve n).capacity =
      if b.capacity < n then max (2 * b.capacity) (max n b.least) else b.capacity := by
  simp only [reserve, hempty, Array.size_empty, Nat.zero_add]
  split <;> rfl

/-- The room of a buffer after one more element, which grows if it is full. -/
theorem capacity_push (hsize : b.items.size ≤ b.capacity) (item : α) :
    (b.push item).capacity =
      if b.items.size = b.capacity then max (2 * b.capacity) (max (b.capacity + 1) b.least)
      else b.capacity := by
  by_cases hfull : b.items.size = b.capacity
  · have hlt : b.capacity < b.capacity + 1 := Nat.lt_succ_self b.capacity
    rw [if_pos hfull, push, reserve, hfull, if_pos hlt]
  · have hlt : ¬ b.capacity < b.items.size + 1 := by omega
    rw [if_neg hfull, push, reserve, if_neg hlt]

theorem least_reserve (b : Buffer α) (n : Nat) : (b.reserve n).least = b.least := by
  unfold reserve
  split <;> rfl

theorem Fits.reserve (h : b.Fits least) (n : Nat) : (b.reserve n).Fits least := by
  refine ⟨(b.least_reserve n).trans h.least_eq, ?_⟩
  have hsize := h.size_le
  rw [items_reserve]
  unfold Buffer.reserve
  split
  · show b.items.size ≤ max (2 * b.capacity) (max (b.items.size + n) b.least)
    omega
  · exact hsize

theorem Fits.push (h : b.Fits least) (item : α) : (b.push item).Fits least := by
  refine ⟨(b.least_reserve 1).trans h.least_eq, ?_⟩
  have hsize := h.size_le
  have hitems : (b.push item).items.size = b.items.size + 1 := by
    simp only [Buffer.push, items_reserve, Array.size_push]
  rw [hitems, capacity_push hsize]
  split <;> omega

theorem Fits.clear (h : b.Fits least) : b.clear.Fits least :=
  ⟨h.least_eq, Nat.zero_le _⟩

/-- An empty buffer has the room that it was asked for. -/
theorem le_capacity_reserve (hempty : b.items = #[]) : n ≤ (b.reserve n).capacity := by
  rw [capacity_reserve hempty]
  split <;> omega

/-- A small buffer that makes room for no more than the bound stays below twice the bound. -/
theorem capacity_reserve_lt {bound : Nat} (hempty : b.items = #[]) (hsmall : b.capacity ≤ bound)
    (hn : n ≤ bound) (hleast : b.least < 2 * bound) : (b.reserve n).capacity < 2 * bound := by
  rw [capacity_reserve hempty]
  -- room is made only where there is less than was asked for, and so less than the bound
  split <;> omega

end Buffer

/-! ## Ledgers -/

/-- A pool, and the loans that are out, the oldest first. -/
structure Ledger (α : Type) where
  pool : Pool α
  live : List (Loan α) := []

namespace Ledger

/-- What may happen to a pool and its loans. A loan is named by its place among those that are
out. -/
inductive Act (α : Type) where
  | acquire (presence : Presence) (n : Nat)
  | push (place : Nat) (item : α)
  | drop (place : Nat)
  /-- A fault unwinds the stack, on which these loans are dropped one after the other. -/
  | unwind (places : List Nat)

variable {α : Type}

/-- Drops a loan, which gives its buffer back. -/
def drop (place : Nat) (l : Ledger α) : Ledger α :=
  match l.live[place]? with
  | some loan => { pool := l.pool.release loan, live := l.live.eraseIdx place }
  | none => l

def step (l : Ledger α) : Act α → Ledger α
  | .acquire presence n =>
    let (loan, pool) := l.pool.acquire presence n
    { pool := pool, live := l.live ++ [loan] }
  | .push place item => { l with live := l.live.modify place (·.push item) }
  | .drop place => l.drop place
  | .unwind places => places.foldl (fun l place => l.drop place) l

/-- The ledger after one act after the other. -/
def run (l : Ledger α) (acts : List (Act α)) : Ledger α := acts.foldl step l

/-- The books are in order. -/
structure Balanced (l : Ledger α) : Prop where
  outstanding_eq : l.pool.outstanding = l.live.length
  length_idle_le : l.pool.idle.length ≤ maxIdle
  capacity_le : ∀ b ∈ l.pool.idle, b.capacity ≤ maxRetained
  clean : l.pool.Clean
  least_lt : l.pool.least < 2 * maxRetained
  /-- Buffers are of the pool, whether they wait or are out. -/
  idle_fits : ∀ b ∈ l.pool.idle, b.Fits l.pool.least
  live_fits : ∀ loan ∈ l.live, loan.buffer.Fits l.pool.least

theorem balanced_new {least : Nat} (h : least < 2 * maxRetained) :
    ({ pool := { least := least } } : Ledger α).Balanced where
  outstanding_eq := rfl
  length_idle_le := Nat.zero_le _
  capacity_le _ hb := nomatch hb
  clean _ hb := nomatch hb
  least_lt := h
  idle_fits _ hb := nomatch hb
  live_fits _ hloan := nomatch hloan

variable {l : Ledger α}

/-- What a loan is made of: a buffer that has waited, or a new one, with room for what was
announced. -/
theorem exists_acquire (h : l.Balanced) (presence : Presence) (n : Nat) :
    ∃ (b : Buffer α) (idle : List (Buffer α)),
      l.pool.acquire presence n = (⟨presence, b.reserve (min n maxRetained)⟩,
        { l.pool with idle := idle, outstanding := l.pool.outstanding + 1 }) ∧
      b.items = #[] ∧ b.capacity ≤ maxRetained ∧ b.Fits l.pool.least ∧
      (∀ b' ∈ idle, b' ∈ l.pool.idle) ∧ idle.length ≤ l.pool.idle.length := by
  unfold Pool.acquire
  cases hidle : l.pool.idle with
  | nil =>
    refine ⟨{ least := l.pool.least }, [], rfl, rfl, Nat.zero_le _, ⟨rfl, Nat.zero_le _⟩, ?_, ?_⟩
    · intro b hb
      cases hb
    · exact Nat.le_refl _
  | cons b rest =>
    have hb : b ∈ l.pool.idle := by
      rw [hidle]
      exact List.mem_cons_self
    refine ⟨b, rest, rfl, h.clean b hb, h.capacity_le b hb, h.idle_fits b hb, ?_, ?_⟩
    · intro b' hb'
      exact List.mem_cons_of_mem b hb'
    · exact Nat.le_succ _

/-- A loan starts out empty, with the room that was announced up to a bound, and within bounds. -/
theorem Balanced.lends (h : l.Balanced) (presence : Presence) (n : Nat) :
    (l.pool.acquire presence n).1.presence = presence ∧ (l.pool.acquire presence n).1.items = [] ∧
      min n maxRetained ≤ (l.pool.acquire presence n).1.buffer.capacity ∧
      (l.pool.acquire presence n).1.buffer.capacity < 2 * maxRetained := by
  obtain ⟨b, idle, hacquire, hempty, hsmall, hfits, -, -⟩ := exists_acquire h presence n
  have hleast : b.least < 2 * maxRetained := by
    rw [hfits.least_eq]
    exact h.least_lt
  rw [hacquire]
  refine ⟨rfl, ?_, Buffer.le_capacity_reserve hempty,
    Buffer.capacity_reserve_lt hempty hsmall (Nat.min_le_right n maxRetained) hleast⟩
  show (b.reserve _).items.toList = []
  rw [Buffer.items_reserve, hempty]

theorem Balanced.acquire (h : l.Balanced) (presence : Presence) (n : Nat) :
    (l.step (.acquire presence n)).Balanced := by
  obtain ⟨b, idle, hacquire, -, -, hfits, hsubset, hlength⟩ := exists_acquire h presence n
  simp only [step, hacquire]
  have hfew := h.length_idle_le
  constructor
  · show l.pool.outstanding + 1 = (l.live ++ [_]).length
    rw [h.outstanding_eq, List.length_append, List.length_singleton]
  · show idle.length ≤ maxIdle
    omega
  · intro b' hb'
    exact h.capacity_le b' (hsubset b' hb')
  · intro b' hb'
    exact h.clean b' (hsubset b' hb')
  · exact h.least_lt
  · intro b' hb'
    exact h.idle_fits b' (hsubset b' hb')
  · intro loan hloan
    rcases List.mem_append.mp hloan with hold | hnew
    · exact h.live_fits loan hold
    · rw [List.mem_singleton.mp hnew]
      exact hfits.reserve _

theorem Balanced.push (h : l.Balanced) (place : Nat) (item : α) :
    (l.step (.push place item)).Balanced := by
  refine { h with outstanding_eq := ?_, live_fits := ?_ }
  · show l.pool.outstanding = (l.live.modify place (·.push item)).length
    rw [List.length_modify]
    exact h.outstanding_eq
  · intro loan hloan
    obtain ⟨i, hi⟩ := List.getElem?_of_mem hloan
    have hmodify : (l.live.modify place (·.push item))[i]? = some loan := hi
    rw [List.getElem?_modify] at hmodify
    obtain ⟨old, hold, rfl⟩ := Option.map_eq_some_iff.mp hmodify
    have hfits := h.live_fits old (List.mem_of_getElem? hold)
    split
    · exact hfits.push item
    · exact hfits

/-- A buffer that comes back is kept only if it is small and there is room for it. -/
theorem mem_idle_release {p : Pool α} {loan : Loan α} {b : Buffer α}
    (hb : b ∈ (p.release loan).idle) :
    b ∈ p.idle ∨ b = loan.buffer.clear ∧ loan.buffer.capacity ≤ maxRetained := by
  unfold Pool.release at hb
  dsimp only at hb
  split at hb
  · rename_i hkept
    rcases List.mem_cons.mp hb with rfl | hb
    · exact .inr ⟨rfl, hkept.1⟩
    · exact .inl hb
  · exact .inl hb

theorem length_idle_release {p : Pool α} {loan : Loan α} (h : p.idle.length ≤ maxIdle) :
    (p.release loan).idle.length ≤ maxIdle := by
  unfold Pool.release
  dsimp only
  split
  · rename_i hkept
    exact hkept.2
  · exact h

/-- A loan that is out is one that the pool has counted. -/
theorem Balanced.outstanding_drop (h : l.Balanced) {place : Nat} (hplace : place < l.live.length) :
    (l.drop place).pool.outstanding + 1 = l.pool.outstanding := by
  have hcount := h.outstanding_eq
  unfold drop
  rw [List.getElem?_eq_getElem hplace]
  show l.pool.outstanding - 1 + 1 = l.pool.outstanding
  omega

theorem Balanced.drop (h : l.Balanced) (place : Nat) : (l.drop place).Balanced := by
  by_cases hplace : place < l.live.length
  · have hcount := h.outstanding_drop hplace
    have hlength := List.length_eraseIdx_of_lt hplace
    have hloan := h.live_fits _ (List.getElem_mem hplace)
    unfold Ledger.drop at hcount ⊢
    rw [List.getElem?_eq_getElem hplace] at hcount ⊢
    refine ⟨?_, length_idle_release h.length_idle_le, ?_, h.clean.release _, h.least_lt, ?_, ?_⟩
    · have hbefore := h.outstanding_eq
      dsimp only at hcount ⊢
      omega
    · intro b hb
      rcases mem_idle_release hb with hold | ⟨rfl, hsmall⟩
      · exact h.capacity_le b hold
      · exact hsmall
    · intro b hb
      rcases mem_idle_release hb with hold | ⟨rfl, -⟩
      · exact h.idle_fits b hold
      · exact hloan.clear
    · intro loan hmem
      exact h.live_fits loan (List.mem_of_mem_eraseIdx hmem)
  · unfold Ledger.drop
    rw [List.getElem?_eq_none (by omega)]
    exact h

theorem Balanced.step (h : l.Balanced) (act : Act α) : (l.step act).Balanced := by
  cases act with
  | acquire presence n => exact h.acquire presence n
  | push place item => exact h.push place item
  | drop place => exact h.drop place
  | unwind places =>
    show (places.foldl (fun l place => l.drop place) l).Balanced
    induction places generalizing l with
    | nil => exact h
    | cons place rest ih => exact ih (h.drop place)

theorem Balanced.run (h : l.Balanced) (acts : List (Act α)) : (l.run acts).Balanced := by
  induction acts generalizing l with
  | nil => exact h
  | cons act rest ih => exact ih (h.step act)

end Ledger

/-! ## Arenas -/

namespace Arena

/-- What an arena has a pool of buffers for. -/
inductive Element where
  | symbols
  | strings
  | bools
  | locations

namespace Element

/-- The elements of the buffers. -/
def Carrier : Element → Type
  | symbols => SymbolId
  | strings => Option String
  | bools => Bool
  | locations => Location

def pool (a : Arena) : (e : Element) → Pool e.Carrier
  | symbols => a.symbols
  | strings => a.strings
  | bools => a.bools
  | locations => a.locations

theorem balanced_pool (e : Element) : ({ pool := e.pool {} } : Ledger e.Carrier).Balanced := by
  cases e <;> exact Ledger.balanced_new (by decide)

end Element

/-- Whatever happens to a pool of an arena, it counts the loans that are out, and every loan that is
dropped has been counted. Few buffers wait, and those are small and empty. A buffer that is lent
next is empty, too, and has the announced room up to the bound, but less than twice the bound. -/
theorem pool_accounts (e : Element) (acts : List (Ledger.Act e.Carrier)) :
    let l : Ledger e.Carrier := Ledger.run { pool := e.pool {} } acts
    l.pool.outstanding = l.live.length ∧
    (∀ place < l.live.length, (l.drop place).pool.outstanding + 1 = l.pool.outstanding) ∧
    l.pool.idle.length ≤ maxIdle ∧
    (∀ b ∈ l.pool.idle, b.items = #[] ∧ b.capacity ≤ maxRetained) ∧
    ∀ presence n, (l.pool.acquire presence n).1.presence = presence ∧
      (l.pool.acquire presence n).1.items = [] ∧
      min n maxRetained ≤ (l.pool.acquire presence n).1.buffer.capacity ∧
      (l.pool.acquire presence n).1.buffer.capacity < 2 * maxRetained := by
  intro l
  have hbalanced : l.Balanced := e.balanced_pool.run acts
  refine ⟨hbalanced.outstanding_eq, ?_, hbalanced.length_idle_le, ?_, hbalanced.lends⟩
  · intro place hplace
    exact hbalanced.outstanding_drop hplace
  · intro b hb
    exact ⟨hbalanced.clean b hb, hbalanced.capacity_le b hb⟩

/-- A buffer that has waited may have more room than is ever kept, although less was announced. -/
example :
    let l : Ledger Location :=
      Ledger.run { pool := Element.locations.pool {} } [.acquire .populated 600, .drop 0]
    maxRetained = 1024 ∧ (l.pool.acquire .populated 1000).1.buffer.capacity = 1200 := by
  decide

end Arena
end Moniker
