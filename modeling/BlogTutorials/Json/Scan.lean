import BlogTutorials.Json.Value

/-!
# BlogTutorials — the scanners of `JSONParser`

The methods of `JSONParser` that do not recurse into `parse_value`: `skip_whitespace`,
`parse_string`, `parse_number` and `parse_literal`, with `int()` / `float()` on the numeral.
Each `while` loop of the source that moves `self.pos` one character at a time is written with a
countdown of `len(self.text) - self.pos` passes: every pass moves the cursor forward, so the
countdown reaches zero only where the loop's own condition has already failed, and the zero
case does what the loop's exit does.

Each scanner gets its characterization here: the whitespace and digit loops stop at the end of
the longest run of matching characters (`skipWhile_eq_takeWhile`), and a call that returns moves
the cursor forward and leaves it inside the text (`Advances`).
-/

namespace BlogTutorials.JSONParser

/-- `self.text[self.pos]`: the character at `pos`, or Python's `IndexError` past the end. -/
def index (text : List Char) (pos : Nat) : Except PyError Char :=
  match text[pos]? with
  | some c => .ok c
  | none => .error .indexError

/-- The characters `skip_whitespace` passes over: `' \t\n\r'`. -/
def whitespace : List Char := [' ', '\t', '\n', '\r']

/-- `while self.pos < len(self.text) and p(self.text[self.pos]): self.pos += 1`, the loop shape
of `skip_whitespace` and of the two digit loops of `parse_number`. -/
def skipWhile (p : Char → Bool) (text : List Char) (pos : Nat) : Nat :=
  go (text.length - pos) pos
where
  go : Nat → Nat → Nat
    | 0, pos => pos
    | n + 1, pos =>
      if h : pos < text.length then (if p text[pos] then go n (pos + 1) else pos) else pos

/-- `skip_whitespace`. -/
def skipWhitespace (text : List Char) (pos : Nat) : Nat :=
  skipWhile (· ∈ whitespace) text pos

/-- The character an escape `\e` stands for in `parse_string`: `\n`, `\t`, `\r` and `\\` are
decoded, every other escaped character is appended as it stands. -/
def unescape (escapeChar : Char) : Char :=
  if escapeChar = 'n' then '\n'
  else if escapeChar = 't' then '\t'
  else if escapeChar = 'r' then '\r'
  else if escapeChar = '\\' then '\\'
  else escapeChar

/-- The `while self.pos < len(self.text)` loop of `parse_string`, `result` holding the characters
read so far. An escape moves the cursor by two, so the countdown is only an upper bound on the
passes left; it still reaches zero only once `pos` is at the end. -/
def parseStringLoop (text : List Char) : Nat → Nat → List Char → Except PyError (String × Nat)
  | 0, pos, _ => .error (.parseError "Unterminated string" pos)
  | n + 1, pos, result =>
    match text[pos]? with
    | none => .error (.parseError "Unterminated string" pos)
    | some char =>
      if char = '"' then .ok (String.mk result, pos + 1)
      else if char = '\\' then
        match text[pos + 1]? with
        | none => .error (.parseError "Unexpected end of escape sequence" (pos + 1))
        | some escapeChar => parseStringLoop text n (pos + 2) (result ++ [unescape escapeChar])
      else parseStringLoop text n (pos + 1) (result ++ [char])

/-- `parse_string`. -/
def parseString (text : List Char) (pos : Nat) : Except PyError (String × Nat) := do
  let c ← index text pos
  if c ≠ '"' then throw (.parseError "Expected '\"'" pos)
  else parseStringLoop text (text.length - (pos + 1)) (pos + 1) []

section
variable (U : UnicodeDigits)

/-- The digits of a numeral read left to right through the `decimal` table, from `acc`. -/
def digitsValue : Nat → List Char → Except PyError Nat
  | acc, [] => .ok acc
  | acc, c :: cs =>
    match U.decimal c with
    | some d => digitsValue (10 * acc + d) cs
    | none => .error .valueError

/-- The value of a run of digits as `int()` reads it; an empty run raises `ValueError`. -/
def decimalValue (ds : List Char) : Except PyError Nat :=
  if ds = [] then .error .valueError else digitsValue U 0 ds

/-- `int()` on the digits of a numeral: CPython counts them against
`sys.get_int_max_str_digits()` before it reads them. The count here takes in every character of
the run; where one of them is not a digit, `int()` raises `ValueError` either way. -/
def intValue (ds : List Char) : Except PyError Nat :=
  if U.exceedsMaxStrDigits ds.length then .error .valueError else decimalValue U ds

/-- `int(num_str)` on a numeral `parse_number` scanned: an optional `-`, then digits. -/
def pyInt : List Char → Except PyError PyValue
  | '-' :: ds => return .int (-(← intValue U ds))
  | ds => return .int (← intValue U ds)

/-- The unsigned part of a `float()` numeral `digits.digits`: its digits as one integer, and how
many stand after the point. -/
def decimalFraction (body : List Char) : Except PyError (Nat × Nat) := do
  let fracDigits := (body.dropWhile (· ≠ '.')).drop 1
  return (← decimalValue U (body.takeWhile (· ≠ '.') ++ fracDigits), fracDigits.length)

/-- `float(num_str)` on a numeral `parse_number` scanned, held as an exact decimal. -/
def pyFloat : List Char → Except PyError PyValue
  | '-' :: body => do let (m, k) ← decimalFraction U body; return .float (-m) k
  | body => do let (m, k) ← decimalFraction U body; return .float m k

/-- `float(num_str) if '.' in num_str else int(num_str)`. -/
def numberValue (numStr : List Char) : Except PyError PyValue :=
  if '.' ∈ numStr then pyFloat U numStr else pyInt U numStr

/-- The digit loops of `parse_number` from its first digit at `pos`: a digit run, then, if a `.`
follows, the point and a second run (the source has no exponent branch). -/
def numeralEnd (text : List Char) (pos : Nat) : Nat :=
  let pos := skipWhile U.isdigit text pos
  if text[pos]? = some '.' then skipWhile U.isdigit text (pos + 1) else pos

/-- `parse_number`: an optional `-`, a digit, the rest of the numeral, then `int()` or
`float()` of the slice `self.text[start:self.pos]` it passed over. -/
def parseNumber (text : List Char) (start : Nat) : Except PyError (PyValue × Nat) := do
  let c ← index text start
  let pos := if c = '-' then start + 1 else start
  if !(text[pos]?.any U.isdigit) then throw (.parseError "Expected digit" pos)
  else
    let pos := numeralEnd U text pos
    let value ← numberValue U ((text.drop start).take (pos - start))
    return (value, pos)

end

/-- `parse_literal`: the text at `pos` must spell `literal`. -/
def parseLiteral (text : List Char) (pos : Nat) (literal : String) (value : PyValue) :
    Except PyError (PyValue × Nat) :=
  if (text.drop pos).take literal.length = literal.toList then .ok (value, pos + literal.length)
  else .error (.parseError ("Expected '" ++ literal ++ "'") pos)

/-! ## §1 — reading one character -/

theorem index_eq_ok {text : List Char} {pos : Nat} {c : Char} :
    index text pos = .ok c ↔ text[pos]? = some c := by
  cases h : text[pos]? <;> simp [index, h]

@[simp] theorem index_of_getElem? {text : List Char} {pos : Nat} {c : Char}
    (h : text[pos]? = some c) : index text pos = .ok c := index_eq_ok.2 h

theorem lt_length_of_getElem? {text : List Char} {pos : Nat} {c : Char}
    (h : text[pos]? = some c) : pos < text.length :=
  (List.getElem?_eq_some_iff.1 h).1

/-! ## §2 — the skipping loops

`skipWhile p` stops at the end of the longest run of characters satisfying `p` that starts at
the cursor; everything else about it follows from that. -/

theorem skipWhile_go (p : Char → Bool) (text : List Char) :
    ∀ n pos, text.length - pos ≤ n →
      skipWhile.go p text n pos = pos + ((text.drop pos).takeWhile p).length
  | 0, pos, h => by simp [skipWhile.go, List.drop_eq_nil_of_le (show text.length ≤ pos by omega)]
  | n + 1, pos, h => by
    unfold skipWhile.go
    by_cases hlt : pos < text.length
    · rw [dif_pos hlt, List.drop_eq_getElem_cons hlt]
      by_cases hp : p text[pos]
      · rw [if_pos hp, skipWhile_go p text n (pos + 1) (by omega), List.takeWhile_cons_of_pos hp]
        simp only [List.length_cons]; omega
      · simp [hp]
    · simp [hlt, List.drop_eq_nil_of_le (show text.length ≤ pos by omega)]

/-- **The loop's closed form.** -/
theorem skipWhile_eq_takeWhile (p : Char → Bool) (text : List Char) (pos : Nat) :
    skipWhile p text pos = pos + ((text.drop pos).takeWhile p).length :=
  skipWhile_go p text _ pos le_rfl

theorem le_skipWhile (p : Char → Bool) (text : List Char) (pos : Nat) :
    pos ≤ skipWhile p text pos := by
  rw [skipWhile_eq_takeWhile]; omega

theorem skipWhile_le (p : Char → Bool) {text : List Char} {pos : Nat} (h : pos ≤ text.length) :
    skipWhile p text pos ≤ text.length := by
  have := (List.takeWhile_sublist p (l := text.drop pos)).length_le
  rw [skipWhile_eq_takeWhile]; simp at this; omega

/-- A run of `p`-characters followed by one that is not (or by the end) is skipped exactly. -/
theorem skipWhile_of_drop {p : Char → Bool} {text w rest : List Char} {pos : Nat}
    (hd : text.drop pos = w ++ rest) (hw : ∀ c ∈ w, p c)
    (hr : ∀ c t, rest = c :: t → p c = false) : skipWhile p text pos = pos + w.length := by
  rw [skipWhile_eq_takeWhile, hd, List.takeWhile_append_of_pos hw]
  cases rest with
  | nil => simp
  | cons c t => simp [List.takeWhile_cons_of_neg (by simp [hr c t rfl] : ¬ p c = true)]

theorem lt_skipWhile {p : Char → Bool} {text : List Char} {pos : Nat} {c : Char}
    (h : text[pos]? = some c) (hc : p c) : pos < skipWhile p text pos := by
  obtain ⟨hlt, rfl⟩ := List.getElem?_eq_some_iff.1 h
  rw [skipWhile_eq_takeWhile, List.drop_eq_getElem_cons hlt, List.takeWhile_cons_of_pos hc]
  simp

/-! ## §3 — a scanner that returns moved forward, and never runs out of fuel

`Advances text pos r`: the call made at `pos` that produced `r`, if it returned normally, left the
cursor past `pos` and inside the text. The scanners have no fuel, so none of them ends with
`outOfFuel`. -/

/-- A call made at `pos` that returns normally moved the cursor forward and left it inside the
text. -/
def Advances {α : Type} (text : List Char) (pos : Nat) (r : Except PyError (α × Nat)) : Prop :=
  ∀ a p', r = .ok (a, p') → pos < p' ∧ p' ≤ text.length

theorem Advances.mono {α : Type} {text : List Char} {pos pos' : Nat}
    {r : Except PyError (α × Nat)} (ha : Advances text pos r) (h : pos' ≤ pos) :
    Advances text pos' r := fun a p' hr => (ha a p' hr).imp_left (by omega)

theorem parseStringLoop_advances (text : List Char) :
    ∀ n pos result, Advances text pos (parseStringLoop text n pos result)
  | 0, _, _ => by simp [Advances, parseStringLoop]
  | n + 1, pos, result => by
    intro s p' h
    unfold parseStringLoop at h
    split at h
    · simp at h
    · rename_i char hc
      have := lt_length_of_getElem? hc
      split_ifs at h
      · simp only [Except.ok.injEq, Prod.mk.injEq] at h; omega
      · split at h
        · simp at h
        · have := parseStringLoop_advances text n (pos + 2) _ s p' h; omega
      · have := parseStringLoop_advances text n (pos + 1) _ s p' h; omega

theorem parseStringLoop_ne_outOfFuel (text : List Char) :
    ∀ n pos result, parseStringLoop text n pos result ≠ .error .outOfFuel
  | 0, _, _ => by simp [parseStringLoop]
  | n + 1, pos, result => by
    unfold parseStringLoop
    split
    · simp
    · split_ifs
      · simp
      · split
        · simp
        · exact parseStringLoop_ne_outOfFuel text n _ _
      · exact parseStringLoop_ne_outOfFuel text n _ _

theorem parseString_advances (text : List Char) (pos : Nat) :
    Advances text pos (parseString text pos) := by
  intro s p' h
  obtain ⟨c, -, h⟩ := bind_eq_ok.1 h
  by_cases hc : c = '"'
  · rw [if_neg (not_not.2 hc)] at h
    have := parseStringLoop_advances text _ _ _ s p' h; omega
  · simp [hc] at h

theorem parseString_ne_outOfFuel (text : List Char) (pos : Nat) :
    parseString text pos ≠ .error .outOfFuel := by
  intro h
  rcases bind_eq_error.1 h with h | ⟨c, -, h⟩
  · cases hc : text[pos]? <;> simp [index, hc] at h
  · by_cases hc : c = '"'
    · rw [if_neg (not_not.2 hc)] at h
      exact parseStringLoop_ne_outOfFuel text _ _ _ h
    · simp [hc] at h

theorem parseLiteral_advances (text : List Char) (pos : Nat) {literal : String}
    (value : PyValue) (hl : 0 < literal.length) :
    Advances text pos (parseLiteral text pos literal value) := by
  intro v p' h
  unfold parseLiteral at h
  split_ifs at h with ht
  · simp only [Except.ok.injEq, Prod.mk.injEq] at h
    have hlen := congrArg List.length ht
    have : literal.toList.length = literal.length := by cases literal; rfl
    simp only [List.length_take, List.length_drop, this] at hlen
    omega

theorem parseLiteral_ne_outOfFuel (text : List Char) (pos : Nat) (literal : String)
    (value : PyValue) : parseLiteral text pos literal value ≠ .error .outOfFuel := by
  unfold parseLiteral; split_ifs <;> simp

section
variable (U : UnicodeDigits)

theorem digitsValue_ne_outOfFuel : ∀ acc ds, digitsValue U acc ds ≠ .error .outOfFuel
  | _, [] => by simp [digitsValue]
  | acc, c :: cs => by
    unfold digitsValue
    split
    · exact digitsValue_ne_outOfFuel _ cs
    · simp

theorem decimalValue_ne_outOfFuel (ds : List Char) : decimalValue U ds ≠ .error .outOfFuel := by
  unfold decimalValue; split_ifs
  · simp
  · exact digitsValue_ne_outOfFuel U 0 ds

theorem intValue_ne_outOfFuel (ds : List Char) : intValue U ds ≠ .error .outOfFuel := by
  unfold intValue; split_ifs
  · simp
  · exact decimalValue_ne_outOfFuel U ds

theorem pyInt_ne_outOfFuel (s : List Char) : pyInt U s ≠ .error .outOfFuel := by
  intro h
  unfold pyInt at h
  split at h <;>
  · rcases bind_eq_error.1 h with h | ⟨_, -, h⟩
    · exact intValue_ne_outOfFuel U _ h
    · simp [pure, Except.pure] at h

theorem pyFloat_ne_outOfFuel (s : List Char) : pyFloat U s ≠ .error .outOfFuel := by
  intro h
  unfold pyFloat decimalFraction at h
  split at h <;>
  · rcases bind_eq_error.1 h with h | ⟨_, -, h⟩
    · rcases bind_eq_error.1 h with h | ⟨_, -, h⟩
      · exact decimalValue_ne_outOfFuel U _ h
      · simp [pure, Except.pure] at h
    · simp [pure, Except.pure] at h

theorem numberValue_ne_outOfFuel (s : List Char) : numberValue U s ≠ .error .outOfFuel := by
  unfold numberValue; split_ifs
  · exact pyFloat_ne_outOfFuel U s
  · exact pyInt_ne_outOfFuel U s

theorem numeralEnd_bounds {text : List Char} {pos : Nat} {d : Char} (hd : text[pos]? = some d)
    (hdig : U.isdigit d) : pos < numeralEnd U text pos ∧ numeralEnd U text pos ≤ text.length := by
  have h₁ := lt_skipWhile hd hdig
  have h₂ := skipWhile_le U.isdigit (lt_length_of_getElem? hd).le
  simp only [numeralEnd]
  split_ifs with hdot
  · have := le_skipWhile U.isdigit text (skipWhile U.isdigit text pos + 1)
    have := skipWhile_le U.isdigit
      (show skipWhile U.isdigit text pos + 1 ≤ text.length from lt_length_of_getElem? hdot)
    omega
  · omega

/-- The sign and the first digit `parse_number` demands before its loops. -/
theorem parseNumber_ok {text : List Char} {start : Nat} {v : PyValue} {p' : Nat}
    (h : parseNumber U text start = .ok (v, p')) :
    ∃ c q d, text[start]? = some c ∧ q = (if c = '-' then start + 1 else start) ∧
      text[q]? = some d ∧ U.isdigit d ∧ p' = numeralEnd U text q := by
  obtain ⟨c, hc, h⟩ := bind_eq_ok.1 h
  generalize hq : (if c = '-' then start + 1 else start) = q at h
  dsimp only at h
  cases hd : text[q]? with
  | none => simp [hd] at h
  | some d =>
    by_cases hdig : U.isdigit d
    · simp only [hd, Option.any_some, hdig, Bool.not_true, Bool.false_eq_true, if_false] at h
      obtain ⟨value, -, h⟩ := bind_eq_ok.1 h
      simp only [pure, Except.pure, Except.ok.injEq, Prod.mk.injEq] at h
      exact ⟨c, q, d, index_eq_ok.1 hc, hq.symm, hd, hdig, h.2.symm⟩
    · simp [hd, hdig] at h

theorem parseNumber_advances (text : List Char) (start : Nat) :
    Advances text start (parseNumber U text start) := by
  intro v p' h
  obtain ⟨c, q, d, -, hq, hd, hdig, rfl⟩ := parseNumber_ok U h
  have := numeralEnd_bounds U hd hdig
  split_ifs at hq <;> omega

theorem parseNumber_ne_outOfFuel (text : List Char) (start : Nat) :
    parseNumber U text start ≠ .error .outOfFuel := by
  intro h
  rcases bind_eq_error.1 h with h | ⟨c, -, h⟩
  · cases hc : text[start]? <;> simp [index, hc] at h
  · generalize (if c = '-' then start + 1 else start) = q at h
    dsimp only at h
    split_ifs at h
    · simp at h
    · rcases bind_eq_error.1 h with h | ⟨_, -, h⟩
      · exact numberValue_ne_outOfFuel U _ h
      · simp [pure, Except.pure] at h

end

end BlogTutorials.JSONParser
