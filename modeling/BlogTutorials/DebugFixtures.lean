import BlogTutorials.Fibonacci
import Mathlib.Data.Nat.Factorial.Basic

/-!
# BlogTutorials — the Python programs the debugger's tests step through

`tests/fixtures/simple.py`, `tests/e2e/complex_test.py` and `tests/complex_app/scenarios.py`
are run under the debugger by the end-to-end tests. Their computations are modelled here;
printing, threads, sleeping and raising return nothing a model could hold and are left out.
Python's integers are unbounded, so they are `Int`; a recursion on `n - 1` stops because
`n.toNat` decreases. Formatting one in an f-string raises `ValueError` past
`sys.get_int_max_str_digits()` decimal digits (CPython 3.11 on), so `Calculator`'s methods take
that limit as a parameter.

* **`factorial_eq`** — `factorial(n)`, in `simple.py` and as `Calculator.factorial`, is `n!` for
  every `n ≥ 0` and `1` below.
* **`fibonacci_eq`** — the iterative `fibonacci` of `complex_test.py` returns `F(n)` for every
  `n ≥ 0`, and `n` itself below. Its loop body is tutorial 1's (`Fibonacci.loopBody`), run over
  `range(2, n + 1)`: `n - 1` passes after the two first values, where tutorial 1 makes `n`.
* **`processPeople_eq`** — `process_people` files each person's name under exactly one of
  `adults` and `minors`, in input order, split at age 18; `total` counts everyone.
-/

namespace BlogTutorials.DebugFixtures

/-! ## §1 — `simple.py` -/

/-- `add(a, b)`. -/
def add (a b : Int) : Int := a + b

/-- `factorial(n)`. -/
def factorial (n : Int) : Int :=
  if n ≤ 1 then 1 else n * factorial (n - 1)
termination_by n.toNat
decreasing_by omega

/-! ## §2 — `complex_test.py` -/

/-- `Person(name, age, email=None)`; nothing modelled reads `email`. -/
structure Person where
  name : String
  age : Int
  deriving Repr, DecidableEq

/-- `Person.greet()`. -/
def Person.greet (person : Person) : String := "Hello, I'm " ++ person.name ++ "!"

/-- `Person.is_adult()`. -/
def Person.isAdult (person : Person) : Bool := decide (18 ≤ person.age)

/-- `f"{i}"` for an `int`: its decimal digits after a `-` when negative, or `none` for the
`ValueError` raised past `maxStrDigits` digits (`sys.get_int_max_str_digits()`, `0` for no
limit). -/
def formatInt (maxStrDigits : Nat) (i : Int) : Option String :=
  if 0 < maxStrDigits ∧ maxStrDigits < (Nat.toDigits 10 i.natAbs).length then none
  else some (toString i)

/-- The state of a `Calculator`: its `history`. -/
structure Calculator where
  history : List String
  deriving Repr, DecidableEq

namespace Calculator

/-- `Calculator()`. -/
def init : Calculator := ⟨[]⟩

/-- What `add` and `multiply` share: compute `result`, append `f"{a} {symbol} {b} = {result}"`
to `history`, return `result`; `none` when formatting raises, before `history` changes. -/
def record (maxStrDigits : Nat) (calculator : Calculator) (symbol : String)
    (op : Int → Int → Int) (a b : Int) : Option (Int × Calculator) := do
  let result := op a b
  let entry := (← formatInt maxStrDigits a) ++ " " ++ symbol ++ " " ++
    (← formatInt maxStrDigits b) ++ " = " ++ (← formatInt maxStrDigits result)
  return (result, ⟨calculator.history ++ [entry]⟩)

/-- `add(a, b)`. -/
def add (maxStrDigits : Nat) (calculator : Calculator) (a b : Int) : Option (Int × Calculator) :=
  calculator.record maxStrDigits "+" (· + ·) a b

/-- `multiply(a, b)`. -/
def multiply (maxStrDigits : Nat) (calculator : Calculator) (a b : Int) :
    Option (Int × Calculator) :=
  calculator.record maxStrDigits "*" (· * ·) a b

example : (init.add 4300 2 3).bind (fun r => r.2.multiply 4300 r.1 (-4)) =
    some (-20, ⟨["2 + 3 = 5", "5 * -4 = -20"]⟩) := by decide

/-- `factorial(n)`: the code of `simple.py`'s, as a method that leaves `history` alone. -/
def factorial (_ : Calculator) (n : Int) : Int := DebugFixtures.factorial n

end Calculator

/-- **`factorial(n)` is `n!`** for every `n ≥ 0`, and `1` for every `n < 0`; so is
`Calculator.factorial(n)`, from every calculator. -/
theorem factorial_eq (n : Int) : factorial n = n.toNat.factorial ∧
    ∀ calculator : Calculator, calculator.factorial n = n.toNat.factorial := by
  suffices h : factorial n = n.toNat.factorial from ⟨h, fun _ => h⟩
  induction n using factorial.induct with
  | case1 n h => rw [factorial, if_pos h, Nat.factorial_eq_one.2 (by omega), Nat.cast_one]
  | case2 n h ih =>
    have hn : n.toNat = (n - 1).toNat + 1 := by omega
    rw [factorial, if_neg h, ih, hn, Nat.factorial_succ, Nat.cast_mul]
    congr 1
    omega

/-- `fibonacci(n)`: `n` itself up to `1`, else `a, b = b, a + b` over `range(2, n + 1)` from
`(0, 1)`, returning `b`. -/
def fibonacci (n : Int) : Int :=
  if n ≤ 1 then n
  else ((List.range' 2 (n - 1).toNat).foldl Fibonacci.loopBody (0, 1)).2

/-- The loop variable is not read: only the number of passes matters. -/
theorem foldl_loopBody_congr : ∀ {l l' : List Nat} (state : Int × Int), l.length = l'.length →
    l.foldl Fibonacci.loopBody state = l'.foldl Fibonacci.loopBody state
  | [], [], _, _ => rfl
  | _ :: _, _ :: _, state, h => by
    simp only [List.foldl_cons, Fibonacci.loopBody]
    exact foldl_loopBody_congr _ (by simpa using h)
  | [], _ :: _, _, h | _ :: _, [], _, h => absurd h (by simp)

/-- **`complex_test.fibonacci` is the Fibonacci function**: `F(n)` for every `n ≥ 0`, and `n`
itself for every `n < 0`. -/
theorem fibonacci_eq (n : Int) : fibonacci n = if 0 ≤ n then (Nat.fib n.toNat : Int) else n := by
  unfold fibonacci
  split_ifs with h₁ h₀ h₀
  · obtain ⟨k, rfl⟩ := Int.eq_ofNat_of_zero_le h₀
    rcases (show k = 0 ∨ k = 1 by omega) with rfl | rfl <;> rfl
  · rfl
  · -- `n - 1` passes from `(F(0), F(1))` reach `(F(n-1), F(n))`
    rw [foldl_loopBody_congr (0, 1) ((List.length_range' 2 1 _).trans (List.length_range _).symm),
      Fibonacci.foldl_loopBody_range, show (n - 1).toNat + 1 = n.toNat by omega]
  · omega

example : (List.range 10).map (fun i => fibonacci i) = [0, 1, 1, 2, 3, 5, 8, 13, 21, 34] := by
  decide

/-- The result of `process_people`: its dict's three entries. -/
structure PeopleSummary where
  adults : List String
  minors : List String
  total : Nat
  deriving Repr, DecidableEq

/-- One pass of `for person in people`: the name goes to `adults` or to `minors`. -/
def sortPerson (lists : List String × List String) (person : Person) :
    List String × List String :=
  if person.isAdult then (lists.1 ++ [person.name], lists.2)
  else (lists.1, lists.2 ++ [person.name])

/-- `process_people(people)`. -/
def processPeople (people : List Person) : PeopleSummary :=
  let lists := people.foldl sortPerson ([], [])
  ⟨lists.1, lists.2, people.length⟩

/-- The loop invariant: the passes append the adults' names to one list and the others' to the
other, in order. -/
theorem foldl_sortPerson (people : List Person) (adults minors : List String) :
    people.foldl sortPerson (adults, minors) =
      (adults ++ (people.filter (·.isAdult)).map (·.name),
        minors ++ (people.filter (!·.isAdult)).map (·.name)) := by
  induction people generalizing adults minors with
  | nil => simp
  | cons person people ih =>
    rw [List.foldl_cons, sortPerson]
    cases h : person.isAdult <;> simp [ih, h]

/-- **`process_people` files every person once**: `adults` lists the names of those aged 18 or
more and `minors` the names of the others, both in input order, so together they hold `total`
names. -/
theorem processPeople_eq (people : List Person) :
    (processPeople people).adults = (people.filter (·.isAdult)).map (·.name) ∧
      (processPeople people).minors = (people.filter (!·.isAdult)).map (·.name) ∧
      (processPeople people).adults.length + (processPeople people).minors.length =
        (processPeople people).total := by
  have h := foldl_sortPerson people [] []
  simp only [List.nil_append] at h
  simp only [processPeople, h, List.length_map, true_and]
  exact (List.length_eq_length_filter_add _).symm

example :
    processPeople [⟨"Alice", 30⟩, ⟨"Bob", 17⟩, ⟨"Charlie", 25⟩, ⟨"Diana", 15⟩, ⟨"Eve", 42⟩] =
      ⟨["Alice", "Charlie", "Eve"], ["Bob", "Diana"], 5⟩ := by
  decide

/-! ## §3 — `scenarios.py` -/

/-- `recursive_depth(n)`. -/
def recursiveDepth (n : Int) : String :=
  if n ≤ 0 then "bottom" else recursiveDepth (n - 1)
termination_by n.toNat
decreasing_by omega

end BlogTutorials.DebugFixtures
