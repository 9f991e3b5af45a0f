import Mathlib.Data.Nat.Fib.Basic
import Mathlib.Data.String.Defs

/-!
# BlogTutorials — `fibonacci` of tutorial 1, and its `for` loop

`example1_fibonacci.py` answers `0` and `1` for `n == 0` and `n == 1`, and otherwise runs
`for i in range(n)` over the pair `(prev, curr)` from `(0, 1)` and returns `curr`. Python's
integers are unbounded, so the model computes in `Int`; `range(n)` of a negative `n` is empty,
which `List.range n.toNat` gives as well. The Fibonacci numbers are Mathlib's `Nat.fib`, whose
equations are `F(0) = 0`, `F(1) = 1` and `F(k+2) = F(k+1) + F(k)`.

* **`foldl_loopBody_range`** — the loop invariant: after `k` passes `(prev, curr)` is
  `(F(k), F(k+1))`.
* **`fibonacci_natCast`** — so for `n ≥ 2` the `n` passes of `range(n)` return `F(n+1)`, one pass
  more than the `n - 1` that reach `F(n)`.
* **`fibonacci_eq_fib_iff`** — `fibonacci(n)` is `F(n)` exactly for `n = 0` and `n = 1`.
-/

namespace BlogTutorials.Fibonacci

/-! ## §1 — the program -/

/-- One pass of the `for` loop on `(prev, curr)`: `next_val = prev + curr; prev = curr;
curr = next_val`. The loop variable `i` is not read. -/
def loopBody (state : Int × Int) (_ : Nat) : Int × Int :=
  (state.2, state.1 + state.2)

/-- `fibonacci(n)`. -/
def fibonacci (n : Int) : Int :=
  if n = 0 then 0
  else if n = 1 then 1
  else ((List.range n.toNat).foldl loopBody (0, 1)).2

/-- The line `main` prints for `test_value = fibonacci(10)`. -/
def verification (testValue : Int) : String :=
  if testValue = 55 then "PASS: fib(10) = 55"
  else "FAIL: fib(10) = " ++ toString testValue ++ " (expected 55)"

/-- **The loop invariant.** After `k` passes from `(0, 1)`, `(prev, curr)` is `(F(k), F(k+1))`. -/
theorem foldl_loopBody_range (k : Nat) :
    (List.range k).foldl loopBody (0, 1) = ((Nat.fib k : Int), (Nat.fib (k + 1) : Int)) := by
  induction k with
  | zero => rfl
  | succ k ih =>
    rw [List.range_succ, List.foldl_append, ih]
    simp only [List.foldl_cons, List.foldl_nil, loopBody, Nat.fib_add_two, Nat.cast_add]

/-- `fibonacci(n)` on every `n ≥ 0`: `F(n)` from the two early returns, `F(n+1)` from the loop. -/
theorem fibonacci_natCast (n : Nat) :
    fibonacci n = if n ≤ 1 then (Nat.fib n : Int) else Nat.fib (n + 1) := by
  match n with
  | 0 => rfl
  | 1 => rfl
  | n + 2 =>
    rw [fibonacci, if_neg (by omega), if_neg (by omega), Int.toNat_ofNat, foldl_loopBody_range,
      if_neg (by omega)]

example : fibonacci 10 = 89 := by decide

/-- **`fibonacci(n)` is the `n`-th Fibonacci number only for `n = 0` and `n = 1`.** From `n = 2`
on it returns `F(n+1)`, which is larger than `F(n)`. -/
theorem fibonacci_eq_fib_iff (n : Nat) : fibonacci n = Nat.fib n ↔ n ≤ 1 := by
  rw [fibonacci_natCast]
  split_ifs with h
  · exact iff_of_true rfl h
  · exact iff_of_false (by exact_mod_cast (Nat.fib_lt_fib_succ (by omega)).ne') h

/-- `fibonacci(10)` is `89`, not `F(10) = 55`, and `main` reports the failure. -/
theorem fibonacci_ten_ne_fib :
    fibonacci (10 : Nat) ≠ Nat.fib 10 ∧
      verification (fibonacci 10) = "FAIL: fib(10) = 89 (expected 55)" :=
  ⟨fun h => absurd ((fibonacci_eq_fib_iff 10).1 h) (by decide), by decide⟩

end BlogTutorials.Fibonacci
