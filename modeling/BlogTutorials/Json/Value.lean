import Mathlib.Data.List.Basic

/-!
# BlogTutorials — what the tutorial JSON parser returns and raises

`example3_json_parser.py` is a recursive-descent parser over a Python `str`. Its state is the
text and a cursor `self.pos`; every method either moves the cursor and returns a Python object
or raises. This module fixes the data that model works over:

* **`PyValue`** — the objects `parse` can build (`None`, `bool`, `int`, `float`, `str`, `list`,
  `dict`).
* **`PyError`** — how a call can end without returning: the source's own `ParseError`, the
  `IndexError` of an unguarded `self.text[self.pos]`, the `ValueError` of `int()` / `float()`,
  and the model's fuel running out (no Python counterpart; `JSONParser.parse` never ends so).
* **`UnicodeDigits`** — the two Unicode tables of Python built-ins the parser consults
  (`str.isdigit` and the digit values `int()` / `float()` accept), and the limit CPython (3.11 on)
  puts on the digits `int()` converts. Only the tables' ASCII rows are fixed; everything is proved
  for every table that agrees with Python there, and for every limit Python allows.

The text itself is a `List Char`: a Python `str` is a sequence of code points, and the parser
only ever compares a character with ASCII ones or asks the tables about it.
-/

namespace BlogTutorials.JSONParser

/-- A Python object the parser returns. A `float` is held as the exact decimal its numeral
names, `mantissa / 10 ^ scale`; rounding it to binary64 is outside the model. A `dict` lists
its items in insertion order. -/
inductive PyValue where
  | none
  | bool (b : Bool)
  | int (i : Int)
  | float (mantissa : Int) (scale : Nat)
  | str (s : String)
  | list (items : List PyValue)
  | dict (items : List (String × PyValue))
  deriving Repr

/-- How a parser call ends when it does not return. `parseError` is the source's
`ParseError(message, position)`; `outOfFuel` is the model's bound on nested calls running out. -/
inductive PyError where
  | parseError (message : String) (position : Nat)
  | indexError
  | valueError
  | outOfFuel
  deriving Repr, DecidableEq

/-- The Unicode tables behind `char.isdigit()` and behind the digits `int()` and `float()`
read, and `sys.get_int_max_str_digits()`. `decimal c = none` where `int()` rejects `c`. Python's
`isdigit` also accepts digits that `int()` rejects (superscripts such as `'²'`); only the ASCII
rows are pinned down here. The limit is `0` (off) or at least
`sys.int_info.str_digits_check_threshold`, 640: `sys.set_int_max_str_digits` refuses anything
else. -/
structure UnicodeDigits where
  isdigit : Char → Bool
  decimal : Char → Option Nat
  maxStrDigits : Nat
  isdigit_ascii : ∀ c : Char, c.toNat < 128 → isdigit c = c.isDigit
  decimal_ascii : ∀ c : Char, c.isDigit → decimal c = some (c.toNat - '0'.toNat)
  maxStrDigits_valid : maxStrDigits = 0 ∨ 640 ≤ maxStrDigits

/-- CPython's guard in `int()` on a string (`PyLong_FromString`): a run of more than
`sys.get_int_max_str_digits()` digits raises `ValueError`, unless the limit is off. The guard's
own threshold, 640 digits, lies below every limit that is on. -/
def UnicodeDigits.exceedsMaxStrDigits (U : UnicodeDigits) (digits : Nat) : Bool :=
  0 < U.maxStrDigits && U.maxStrDigits < digits

/-- Python's tables on the Latin-1 range: `isdigit` holds of `0`–`9` and of the superscripts
`¹ ² ³`, and only `0`–`9` have a decimal value. Characters above U+00FF are taken as
non-digits. The limit is CPython's default, `sys.int_info.default_max_str_digits`. -/
def UnicodeDigits.latin1 : UnicodeDigits where
  isdigit c := c.isDigit || c = '¹' || c = '²' || c = '³'
  decimal c := if c.isDigit then some (c.toNat - '0'.toNat) else none
  maxStrDigits := 4300
  isdigit_ascii c h := by
    have h₁ : c ≠ '¹' := by rintro rfl; simp at h
    have h₂ : c ≠ '²' := by rintro rfl; simp at h
    have h₃ : c ≠ '³' := by rintro rfl; simp at h
    simp [h₁, h₂, h₃]
  decimal_ascii c h := by simp [h]
  maxStrDigits_valid := .inr (by decide)

/-! ## Sequencing in `Except`

The parser's methods are written in the `Except PyError` monad. These lemmas let proofs peel a
`do` block apart without unfolding `bind`. -/

section
variable {ε α β : Type} {x : Except ε α} {f : α → Except ε β}

@[simp] theorem throw_eq_error (e : ε) : (throw e : Except ε α) = .error e := rfl

@[simp] theorem ok_bind (a : α) : (Except.ok a >>= f) = f a := rfl

@[simp] theorem error_bind (e : ε) : (Except.error e >>= f) = .error e := rfl

theorem bind_eq_ok {b : β} : x >>= f = .ok b ↔ ∃ a, x = .ok a ∧ f a = .ok b := by
  cases x <;> simp

theorem bind_eq_error {e : ε} : x >>= f = .error e ↔ x = .error e ∨ ∃ a, x = .ok a ∧ f a = .error e := by
  cases x <;> simp

end

end BlogTutorials.JSONParser
