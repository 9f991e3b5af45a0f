import BlogTutorials.Json.Value

/-!
# BlogTutorials — the RFC 8259 grammar, without exponents

The language `JSONParser` is meant to accept, written from RFC 8259 and independent of the
parser's code. `parse_number` has no exponent branch, so numbers here are RFC 8259 §6 numbers
without `exp`; everything else is the RFC's grammar:

* `Ws` — §2 `ws`: space, horizontal tab, line feed, carriage return;
* `StrChars`, `Str` — §7 strings, with every escape the RFC allows (`\"`, `\\`, `\/`, `\b`,
  `\f`, `\n`, `\r`, `\t`, `\uXXXX`);
* `Number` — §6 `number = [ minus ] int [ frac ]`;
* `Json` — §3–§5 values, arrays and objects, one inductive indexed by the nonterminal (`Sym`),
  whitespace standing wherever `begin-array`, `name-separator`, `value-separator` and the rest
  put it. Which lists stand for numbers is a parameter: the RFC's `Number`, or fewer of them;
* `JsonText` — §2 `JSON-text = ws value ws`.
-/

namespace BlogTutorials.JSONParser

/-- RFC 8259 `ws` characters. -/
def IsWs (c : Char) : Prop := c = ' ' ∨ c = '\t' ∨ c = '\n' ∨ c = '\r'

instance : DecidablePred IsWs := fun c =>
  inferInstanceAs (Decidable (c = ' ' ∨ c = '\t' ∨ c = '\n' ∨ c = '\r'))

/-- A run of RFC 8259 whitespace. -/
def Ws (w : List Char) : Prop := ∀ c ∈ w, IsWs c

/-- RFC 8259 §7 `unescaped`: `%x20-21 / %x23-5B / %x5D-10FFFF`. -/
def Unescaped (c : Char) : Prop := 0x20 ≤ c.toNat ∧ c ≠ '"' ∧ c ≠ '\\'

instance : DecidablePred Unescaped := fun c =>
  inferInstanceAs (Decidable (0x20 ≤ c.toNat ∧ c ≠ '"' ∧ c ≠ '\\'))

/-- RFC 8259 §7 `HEXDIG`. -/
def IsHexDigit (c : Char) : Prop := c.isDigit ∨ ('a' ≤ c ∧ c ≤ 'f') ∨ ('A' ≤ c ∧ c ≤ 'F')

instance : DecidablePred IsHexDigit := fun c =>
  inferInstanceAs (Decidable (c.isDigit ∨ ('a' ≤ c ∧ c ≤ 'f') ∨ ('A' ≤ c ∧ c ≤ 'F')))

/-- The characters that may follow a backslash in RFC 8259 §7, other than `u`. -/
def escapeChars : List Char := ['"', '\\', '/', 'b', 'f', 'n', 'r', 't']

/-- RFC 8259 §7: the characters between the quotation marks of a string. -/
inductive StrChars : List Char → Prop where
  | nil : StrChars []
  | unescaped {c cs} (hc : Unescaped c) (h : StrChars cs) : StrChars (c :: cs)
  | escape {e cs} (he : e ∈ escapeChars) (h : StrChars cs) : StrChars ('\\' :: e :: cs)
  | unicode {x₁ x₂ x₃ x₄ cs} (hx : ∀ x ∈ [x₁, x₂, x₃, x₄], IsHexDigit x) (h : StrChars cs) :
      StrChars ('\\' :: 'u' :: x₁ :: x₂ :: x₃ :: x₄ :: cs)

/-- RFC 8259 §7 `string = quotation-mark *char quotation-mark`. -/
def Str (s : List Char) : Prop := ∃ body, StrChars body ∧ s = '"' :: body ++ ['"']

/-- RFC 8259 §6 `int = zero / ( digit1-9 *DIGIT )`; `DIGIT` is `Char.isDigit`, `0`–`9`. -/
inductive IntPart : List Char → Prop where
  | zero : IntPart ['0']
  | digits {d ds} (hd : d.isDigit) (h0 : d ≠ '0') (hds : ∀ c ∈ ds, c.isDigit) :
      IntPart (d :: ds)

/-- RFC 8259 §6 `[ frac ]`, `frac = decimal-point 1*DIGIT`: absent, or a point and digits. -/
def FracPart (frac : List Char) : Prop :=
  frac = [] ∨ ∃ d ds, frac = '.' :: d :: ds ∧ ∀ c ∈ d :: ds, c.isDigit

/-- RFC 8259 §6 `number = [ minus ] int [ frac ] [ exp ]`, with no `exp`. -/
def Number (n : List Char) : Prop :=
  ∃ sign i frac, (sign = [] ∨ sign = ['-']) ∧ IntPart i ∧ FracPart frac ∧ n = sign ++ i ++ frac

/-- The nonterminals of `Json`: a value, the elements of a non-empty array, the members of a
non-empty object. -/
inductive Sym where
  | value
  | elements
  | members

/-- RFC 8259 §3–§5: `Json IsNumber s l` says that `l` derives from `s`, a number being a list
`IsNumber` admits. -/
inductive Json (IsNumber : List Char → Prop) : Sym → List Char → Prop where
  | literal {l : String} (h : l ∈ ["true", "false", "null"]) : Json IsNumber .value l.toList
  | number {n} (h : IsNumber n) : Json IsNumber .value n
  | string {s} (h : Str s) : Json IsNumber .value s
  | emptyObject {w} (hw : Ws w) : Json IsNumber .value ('{' :: w ++ ['}'])
  | object {w₁ m w₂} (hw₁ : Ws w₁) (hm : Json IsNumber .members m) (hw₂ : Ws w₂) :
      Json IsNumber .value ('{' :: w₁ ++ m ++ w₂ ++ ['}'])
  | emptyArray {w} (hw : Ws w) : Json IsNumber .value ('[' :: w ++ [']'])
  | array {w₁ e w₂} (hw₁ : Ws w₁) (he : Json IsNumber .elements e) (hw₂ : Ws w₂) :
      Json IsNumber .value ('[' :: w₁ ++ e ++ w₂ ++ [']'])
  | element {v} (hv : Json IsNumber .value v) : Json IsNumber .elements v
  | elements {v w₁ w₂ e} (hv : Json IsNumber .value v) (hw₁ : Ws w₁) (hw₂ : Ws w₂)
      (he : Json IsNumber .elements e) : Json IsNumber .elements (v ++ w₁ ++ ',' :: w₂ ++ e)
  | member {k w₁ w₂ v} (hk : Str k) (hw₁ : Ws w₁) (hw₂ : Ws w₂) (hv : Json IsNumber .value v) :
      Json IsNumber .members (k ++ w₁ ++ ':' :: w₂ ++ v)
  | members {k w₁ w₂ v w₃ w₄ m} (hk : Str k) (hw₁ : Ws w₁) (hw₂ : Ws w₂)
      (hv : Json IsNumber .value v) (hw₃ : Ws w₃) (hw₄ : Ws w₄) (hm : Json IsNumber .members m) :
      Json IsNumber .members (k ++ w₁ ++ ':' :: w₂ ++ v ++ w₃ ++ ',' :: w₄ ++ m)

/-- RFC 8259 §2 `JSON-text = ws value ws`, a number being a list `IsNumber` admits. -/
def JsonTextOf (IsNumber : List Char → Prop) (s : List Char) : Prop :=
  ∃ w₁ v w₂, Ws w₁ ∧ Json IsNumber .value v ∧ Ws w₂ ∧ s = w₁ ++ v ++ w₂

/-- RFC 8259 §2 JSON texts, numbers without exponent. -/
def JsonText (s : List Char) : Prop := JsonTextOf Number s

end BlogTutorials.JSONParser
