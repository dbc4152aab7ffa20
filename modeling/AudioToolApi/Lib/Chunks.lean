/-
A list read in chunks: each request takes up to so many elements off the
front of what is left.

`flatten_read` and `getElem?_read` say what the chunks are together and one
by one, `flatten_read_of_nil` that a positive request answered with nothing
means that everything has been read.
-/
import Mathlib.Algebra.BigOperators.Group.List.Basic
import Mathlib.Algebra.GroupWithZero.Nat

namespace Chunks

variable {α : Type*}

/-- What the requests `ns` get of `xs`, in turn. -/
def read : List α → List Nat → List (List α)
  | _, [] => []
  | xs, n :: ns => xs.take n :: read (xs.drop n) ns

@[simp] theorem read_nil (xs : List α) : read xs [] = [] := rfl

@[simp] theorem read_cons (xs : List α) (n : Nat) (ns : List Nat) :
    read xs (n :: ns) = xs.take n :: read (xs.drop n) ns := rfl

@[simp] theorem length_read (xs : List α) (ns : List Nat) : (read xs ns).length = ns.length := by
  induction ns generalizing xs with
  | nil => rfl
  | cons n ns ih => simp [ih]

theorem flatten_read (xs : List α) (ns : List Nat) : (read xs ns).flatten = xs.take ns.sum := by
  induction ns generalizing xs with
  | nil => simp
  | cons n ns ih =>
    rw [read_cons, List.flatten_cons, ih, List.sum_cons, List.take_add]

theorem read_take (xs : List α) (ns : List Nat) (k : Nat) : (read xs ns).take k = read xs (ns.take k) := by
  induction ns generalizing xs k with
  | nil => simp
  | cons n ns ih =>
    cases k with
    | zero => simp
    | succ k => simp [ih]

theorem getElem?_read (xs : List α) (ns : List Nat) (k : Nat) :
    (read xs ns)[k]? = ns[k]?.map fun n => (xs.drop (ns.take k).sum).take n := by
  induction ns generalizing xs k with
  | nil => simp
  | cons n ns ih =>
    cases k with
    | zero => simp
    | succ k => simp [ih, List.drop_drop]

/-- An empty chunk for a positive request: nothing is left. -/
theorem flatten_read_of_nil {xs : List α} {ns : List Nat} (hpos : ∀ n ∈ ns, 0 < n) (h : [] ∈ read xs ns) :
    (read xs ns).flatten = xs := by
  obtain ⟨k, hk⟩ := List.mem_iff_getElem?.mp h
  rw [getElem?_read] at hk
  obtain ⟨n, hn, htake⟩ := Option.map_eq_some_iff.mp hk
  have hn0 := hpos n (List.mem_of_getElem? hn)
  have hlen : xs.length ≤ (ns.take k).sum := by
    have := congrArg List.length htake
    simp only [List.length_take, List.length_drop, List.length_nil] at this
    omega
  have hsum : (ns.take k).sum ≤ ns.sum := by
    conv_rhs => rw [← List.take_append_drop k ns, List.sum_append]
    omega
  rw [flatten_read, List.take_of_length_le (by omega)]

end Chunks
