/-
A `db::Query` that is fetched from row by row, and `db::query_iterator`
(utilities/database.h, database.cpp).

The position is kept twice: the iterator counts rows, the result set has a
cursor, and only `operator*` moves the cursor. `rangeFor` is the loop that
`for (auto row : query)` stands for; `rangeFor_run` says that it visits each
row once.
-/
import Mathlib.Algebra.Ring.Int.Defs
import AudioToolApi.Utilities.DatabaseFacts

namespace AudioToolApi

open Effects

/-- `sql::ResultSet`: the rows, and how many have been stepped over or onto.
The cursor starts before the first row. -/
structure ResultSet (ρ : Type) where
  rows : List ρ
  cursor : Nat := 0

/-- `ResultSet::next`. -/
def ResultSet.next {ρ : Type} (r : ResultSet ρ) : Bool × ResultSet ρ :=
  if r.cursor < r.rows.length then (true, { r with cursor := r.cursor + 1 })
  else (false, { r with cursor := r.rows.length + 1 })

/-- The row the cursor is on. -/
def ResultSet.current {ρ : Type} (r : ResultSet ρ) : Option ρ :=
  if r.cursor = 0 then none else r.rows[r.cursor - 1]?

/-- `Query`: its prepared statement, `did_execute` and `results`, which is
null at first. `addr` is where it lies, `executions` counts `executeQuery`. -/
structure Query (ρ : Type) where
  stmt : World → List ρ
  addr : Nat := 0
  didExecute : Bool := false
  results : Option (ResultSet ρ) := none
  executions : Nat := 0

abbrev Fetching (ρ : Type) := EStateM Exn (World × Query ρ)

/-- A `size_t` stored into an `int`. -/
def storeInt32 (n : Nat) : Int := Int.bmod n (2 ^ 32)

/-- An `int` compared with a `size_t`. -/
def asSizeT (i : Int) : Nat := (i % 2 ^ 64).toNat

namespace Query

variable {ρ γ : Type}

/-- `stmt->executeQuery()`. -/
def executeQuery : Fetching ρ Unit := fun (w, q) =>
  match select q.stmt w with
  | .ok rows w => .ok () (w, { q with results := some { rows }, executions := q.executions + 1 })
  | .error e w => .error e (w, { q with executions := q.executions + 1 })

def execute : Fetching ρ Unit := do
  let (_, q) ← get
  if !q.didExecute then
    executeQuery
    modify fun (w, q) => (w, { q with didExecute := true })

/-- `results->...`; through null the process is gone. -/
def result : Fetching ρ (ResultSet ρ) := do
  let (_, q) ← get
  match q.results with
  | some r => pure r
  | none => throw .gone

def row : Fetching ρ Unit := do
  execute
  let r ← result
  let (hasNext, r) := r.next
  modify fun (w, q) => (w, { q with results := some r })
  if !hasNext then throw (.runtime noRowLeft)

def rowCount : Fetching ρ Int := do
  execute
  return storeInt32 (← result).rows.length

/-- The fields of the row the cursor is on, by their names. The driver
throws when there is no such row. -/
def fields : Fetching ρ ρ := do
  execute
  match (← result).current with
  | some r => pure r
  | none => throw (.runtime [])

end Query

/-- `query_iterator`. -/
structure QueryIterator where
  rowIdx : Int
  atEnd : Bool
  query : Nat
  deriving DecidableEq, Repr

namespace QueryIterator

variable {ρ γ : Type}

/-- The constructor. -/
def new (atEnd : Bool) : Fetching ρ QueryIterator := do
  Query.execute
  let n := (← Query.result).rows.length
  let (_, q) ← get
  if atEnd then return { rowIdx := storeInt32 n, atEnd, query := q.addr }
  return { rowIdx := 0, atEnd := n == 0, query := q.addr }

/-- `operator++`. -/
def incr (it : QueryIterator) : Fetching ρ QueryIterator := do
  let it := if !it.atEnd then { it with rowIdx := it.rowIdx + 1 } else it
  if (← Query.result).rows.length ≤ asSizeT it.rowIdx then return { it with atEnd := true }
  return it

/-- `operator*`: the row is the one that the cursor of the query is on. -/
def deref (_ : QueryIterator) : Fetching ρ Unit := Query.row

/-- `operator!=`. -/
def ne (it other : QueryIterator) : Bool :=
  it.rowIdx != other.rowIdx || it.atEnd != other.atEnd || it.query != other.query

end QueryIterator

namespace Query

variable {ρ γ : Type}

def begin : Fetching ρ QueryIterator := QueryIterator.new false

def end_ : Fetching ρ QueryIterator := QueryIterator.new true

/-- One turn of the loop: `*it`, the body, `++it`. The body is given what it
has made so far and the fields of the row. -/
def turn (body : γ → ρ → γ) (acc : γ) (it : QueryIterator) : Fetching ρ (γ × QueryIterator) := do
  it.deref
  let acc := body acc (← fields)
  return (acc, ← it.incr)

/-- `for (; it != last; ++it)`, for at most `fuel` tests. -/
def loop (body : γ → ρ → γ) (last : QueryIterator) : Nat → γ → QueryIterator → World × Query ρ →
    Option (EStateM.Result Exn (World × Query ρ) γ)
  | 0, _, _, _ => none
  | fuel + 1, acc, it, s =>
    if it.ne last then
      match turn body acc it s with
      | .ok (acc, it) s => loop body last fuel acc it s
      | .error e s => some (.error e s)
    else some (.ok acc s)

/-- `for (auto row : query) body`. -/
def rangeFor (fuel : Nat) (body : γ → ρ → γ) (acc : γ) (s : World × Query ρ) :
    Option (EStateM.Result Exn (World × Query ρ) γ) :=
  match (do return (← begin, ← end_)) s with
  | .ok (first, last) s => loop body last fuel acc first s
  | .error e s => some (.error e s)

/-! ## A loop over `n` rows -/

/-- `q` once it has been executed, with `k` of its rows fetched. -/
def fetched (q : Query ρ) (rows : List ρ) (k : Nat) : Query ρ :=
  { q with didExecute := true, results := some { rows, cursor := k }, executions := q.executions + 1 }

section
variable {w : World} {q : Query ρ} {rows : List ρ} {k : Nat}

theorem execute_fetched : execute (w, q.fetched rows k) = .ok () (w, q.fetched rows k) := rfl

theorem execute_fresh (hq : q.didExecute = false) (hw : w.fault = none) :
    execute (w, q) = .ok () (w.next, q.fetched (q.stmt w.next) 0) := by
  have hrun : executeQuery (w, q) =
      .ok () (w.next, { q with results := some { rows := q.stmt w.next }, executions := q.executions + 1 }) := by
    rw [executeQuery, select_ok hw]
  have hget : (get : Fetching ρ (World × Query ρ)) (w, q) = .ok (w, q) (w, q) := rfl
  rw [execute, bind_ok hget]
  simp only [hq, Bool.not_false, if_true]
  rw [bind_ok hrun]
  rfl

theorem result_fetched : result (w, q.fetched rows k) = .ok { rows, cursor := k } (w, q.fetched rows k) := rfl

theorem row_fetched (hk : k < rows.length) :
    row (w, q.fetched rows k) = .ok () (w, q.fetched rows (k + 1)) := by
  have hnext : ResultSet.next { rows, cursor := k } = (true, { rows, cursor := k + 1 }) := by
    simp [ResultSet.next, hk]
  rw [row, bind_ok execute_fetched, bind_ok result_fetched, hnext]
  rfl

theorem fields_fetched (hk : k < rows.length) :
    fields (w, q.fetched rows (k + 1)) = .ok rows[k] (w, q.fetched rows (k + 1)) := by
  have hcurrent : ResultSet.current { rows, cursor := k + 1 } = some rows[k] := by
    simp [ResultSet.current, hk]
  rw [fields, bind_ok execute_fetched, bind_ok result_fetched, hcurrent]
  rfl

/-- The iterator that has come to row `k` of `n`. -/
def iterAt (q : Query ρ) (n k : Nat) : QueryIterator := { rowIdx := k, atEnd := decide (n ≤ k), query := q.addr }

theorem storeInt32_of_lt {n : Nat} (hn : n < 2 ^ 31) : storeInt32 n = n := by
  unfold storeInt32
  exact Int.bmod_eq_of_le (by omega) (by omega)

theorem begin_fetched : begin (w, q.fetched rows k) = .ok (q.iterAt rows.length 0) (w, q.fetched rows k) := by
  have hget : (get : Fetching ρ (World × Query ρ)) (w, q.fetched rows k) = .ok (w, q.fetched rows k) _ := rfl
  rw [begin, QueryIterator.new, bind_ok execute_fetched, bind_ok result_fetched]
  simp only [bind_ok hget]
  have hend : (rows.length == 0) = decide (rows.length ≤ 0) := by cases rows <;> simp
  simp only [Bool.false_eq_true, if_false, hend]
  rfl

theorem end_fetched (hn : rows.length < 2 ^ 31) :
    end_ (w, q.fetched rows k) = .ok (q.iterAt rows.length rows.length) (w, q.fetched rows k) := by
  have hget : (get : Fetching ρ (World × Query ρ)) (w, q.fetched rows k) = .ok (w, q.fetched rows k) _ := rfl
  rw [end_, QueryIterator.new, bind_ok execute_fetched, bind_ok result_fetched]
  simp only [bind_ok hget, storeInt32_of_lt hn, if_true]
  simp [iterAt, fetched, pure, EStateM.pure]

/-- `++it` after the row it stood for has been fetched. -/
theorem incr_fetched (hk : k < rows.length) (hn : rows.length < 2 ^ 31) :
    (q.iterAt rows.length k).incr (w, q.fetched rows (k + 1)) =
      .ok (q.iterAt rows.length (k + 1)) (w, q.fetched rows (k + 1)) := by
  have hidx : asSizeT ((k : Int) + 1) = k + 1 := by
    unfold asSizeT
    omega
  have hat : decide (rows.length ≤ k) = false := by simp [hk]
  rw [QueryIterator.incr, bind_ok result_fetched]
  simp only [iterAt, hat, Bool.not_false, if_true, hidx]
  by_cases hlast : rows.length ≤ k + 1
  · simp [hlast, pure, EStateM.pure]
  · simp [hlast, pure, EStateM.pure]

/-- The two positions go on together. -/
theorem turn_fetched (body : γ → ρ → γ) (acc : γ) (hk : k < rows.length) (hn : rows.length < 2 ^ 31) :
    turn body acc (q.iterAt rows.length k) (w, q.fetched rows k) =
      .ok (body acc rows[k], q.iterAt rows.length (k + 1)) (w, q.fetched rows (k + 1)) := by
  rw [turn, QueryIterator.deref, bind_ok (row_fetched hk), bind_ok (fields_fetched hk)]
  simp only [bind_ok (incr_fetched hk hn)]
  rfl

theorem ne_iterAt (hk : k ≤ rows.length) :
    (q.iterAt rows.length k).ne (q.iterAt rows.length rows.length) = decide (k < rows.length) := by
  by_cases hlt : k < rows.length
  · have hidx : (k : Int) ≠ rows.length := by omega
    simp [QueryIterator.ne, iterAt, hidx, hlt]
  · have heq : k = rows.length := by omega
    simp [QueryIterator.ne, heq]

/-- From row `k` on, with enough fuel for what is left. -/
theorem loop_fetched (body : γ → ρ → γ) (hn : rows.length < 2 ^ 31) :
    ∀ {fuel k : Nat} (acc : γ), k ≤ rows.length → rows.length < fuel + k →
      loop body (q.iterAt rows.length rows.length) fuel acc (q.iterAt rows.length k) (w, q.fetched rows k) =
        some (.ok ((rows.drop k).foldl body acc) (w, q.fetched rows rows.length))
  | 0, _, _, hk, hfuel => by omega
  | fuel + 1, k, acc, hk, hfuel => by
    rw [loop, ne_iterAt hk]
    by_cases hlt : k < rows.length
    · simp only [hlt, decide_true, if_true, turn_fetched body acc hlt hn]
      rw [loop_fetched body hn (body acc rows[k]) hlt (by omega), List.drop_eq_getElem_cons hlt]
      rfl
    · have heq : k = rows.length := by omega
      subst heq
      simp

/-- A query that has been executed and not fetched from. -/
theorem rangeFor_fetched (hn : rows.length < 2 ^ 31) (body : γ → ρ → γ) (acc : γ) {fuel : Nat}
    (hfuel : rows.length < fuel) :
    rangeFor fuel body acc (w, q.fetched rows 0) =
      some (.ok (rows.foldl body acc) (w, q.fetched rows rows.length)) := by
  have hits : (do return (← begin, ← end_) : Fetching ρ _) (w, q.fetched rows 0) =
      .ok (q.iterAt rows.length 0, q.iterAt rows.length rows.length) (w, q.fetched rows 0) := by
    rw [bind_ok begin_fetched, bind_ok (end_fetched hn)]
    rfl
  rw [rangeFor, hits]
  exact loop_fetched body hn acc (Nat.zero_le _) hfuel

theorem new_fresh (hq : q.didExecute = false) (hw : w.fault = none) (atEnd : Bool) :
    QueryIterator.new atEnd (w, q) = QueryIterator.new atEnd (w.next, q.fetched (q.stmt w.next) 0) := by
  rw [QueryIterator.new, bind_ok (execute_fresh hq hw), bind_ok execute_fetched]

/-- **A range-for over a query visits each row once.** For a query not yet
executed, whose statement is taken and has `n < 2^31` rows: the loop runs its
body `n` times, the `k`-th time on the fields of the `k`-th row, and ends;
the statement is executed once, and nothing throws. -/
theorem rangeFor_fresh (hq : q.didExecute = false) (hw : w.fault = none) (hn : (q.stmt w.next).length < 2 ^ 31)
    (body : γ → ρ → γ) (acc : γ) {fuel : Nat} (hfuel : (q.stmt w.next).length < fuel) :
    rangeFor fuel body acc (w, q) =
      some (.ok ((q.stmt w.next).foldl body acc) (w.next, q.fetched (q.stmt w.next) (q.stmt w.next).length)) := by
  have hsame : (do return (← begin, ← end_) : Fetching ρ _) (w, q) =
      (do return (← begin, ← end_) : Fetching ρ _) (w.next, q.fetched (q.stmt w.next) 0) := by
    rw [bind_apply, bind_apply, begin, new_fresh hq hw]
  rw [← rangeFor_fetched hn body acc hfuel, rangeFor, rangeFor, hsame]

end

end Query

end AudioToolApi
