import BlogTutorials.Json.Scan

/-!
# BlogTutorials — `JSONParser.parse_value` and the recursion through objects and arrays

`parse_value`, `parse_object` and `parse_array` call each other, and the last two loop with
`while True` until a closing bracket. Nothing in the source bounds either: the recursion and the
loops stop because every nested `parse_value` call and every further pass of a loop comes after
the cursor has moved. The model runs them on fuel, one unit for each call of the five
functions below (the two loops are functions of their own, one call a pass), and `parse` hands
out `3 * len(text) + 1` units: `Termination.lean` shows that this is never used up, so `parse`
is the source's `parse` on every input.

The characterization lemmas at the end say once what each step can do; the termination and
completeness proofs never unfold the five definitions again.
-/

namespace BlogTutorials.JSONParser

/-- `result[key] = value` on the `dict` being built: an existing key keeps its place and takes
the new value, a new key goes last. -/
def dictSet (items : List (String × PyValue)) (key : String) (value : PyValue) :
    List (String × PyValue) :=
  if items.any (·.1 = key) then items.map fun kv => if kv.1 = key then (key, value) else kv
  else items ++ [(key, value)]

/-- The opening `parse_object` and `parse_array` share: their bracket `openChar` at the cursor,
whitespace, then either `closeChar` at once (the empty container `empty`) or their `while True`
loop from the first non-blank character. -/
def parseOpening (text : List Char) (pos : Nat) (openChar closeChar : Char) (empty : PyValue)
    (loop : Nat → Except PyError (PyValue × Nat)) : Except PyError (PyValue × Nat) := do
  if (← index text pos) ≠ openChar then
    throw (.parseError ("Expected '" ++ openChar.toString ++ "'") pos)
  else
    let pos := skipWhitespace text (pos + 1)
    if text[pos]? = some closeChar then return (empty, pos + 1)
    else loop pos

/-- How a pass of either `while True` loop ends once its value is read: whitespace, then
`closeChar` (the container `done` is returned), a comma (the next pass), or an error. -/
def passEnd (text : List Char) (pos : Nat) (closeChar : Char) (done : PyValue)
    (next : Nat → Except PyError (PyValue × Nat)) : Except PyError (PyValue × Nat) :=
  let pos := skipWhitespace text pos
  match text[pos]? with
  | none => throw (.parseError "Unexpected end of input" pos)
  | some c =>
    if c = closeChar then return (done, pos + 1)
    else if c = ',' then next (pos + 1)
    else throw (.parseError ("Expected ',' or '" ++ closeChar.toString ++ "'") pos)

section
variable (U : UnicodeDigits)

mutual

/-- `parse_value`: skip whitespace, then dispatch on the character at the cursor. -/
def parseValue (fuel : Nat) (text : List Char) (pos : Nat) : Except PyError (PyValue × Nat) :=
  match fuel with
  | 0 => .error .outOfFuel
  | fuel + 1 =>
    let pos := skipWhitespace text pos
    match text[pos]? with
    | none => .error (.parseError "Unexpected end of input" pos)
    | some char =>
      if char = '"' then do
        let (s, pos) ← parseString text pos
        return (.str s, pos)
      else if char = '{' then parseObject fuel text pos
      else if char = '[' then parseArray fuel text pos
      else if char = 't' then parseLiteral text pos "true" (.bool true)
      else if char = 'f' then parseLiteral text pos "false" (.bool false)
      else if char = 'n' then parseLiteral text pos "null" .none
      else if char = '-' ∨ U.isdigit char then parseNumber U text pos
      else .error (.parseError ("Unexpected character: " ++ char.toString) pos)
termination_by structural fuel

/-- `parse_object`. -/
def parseObject (fuel : Nat) (text : List Char) (pos : Nat) : Except PyError (PyValue × Nat) :=
  match fuel with
  | 0 => .error .outOfFuel
  | fuel + 1 => parseOpening text pos '{' '}' (.dict []) fun pos => parseObjectLoop fuel text pos []
termination_by structural fuel

/-- One pass of the `while True` loop of `parse_object`, then the rest of the loop. -/
def parseObjectLoop (fuel : Nat) (text : List Char) (pos : Nat)
    (result : List (String × PyValue)) : Except PyError (PyValue × Nat) :=
  match fuel with
  | 0 => .error .outOfFuel
  | fuel + 1 => do
    let (key, pos) ← parseString text (skipWhitespace text pos)
    let pos := skipWhitespace text pos
    if text[pos]? ≠ some ':' then throw (.parseError "Expected ':'" pos)
    else
      let (value, pos) ← parseValue fuel text (pos + 1)
      let result := dictSet result key value
      passEnd text pos '}' (.dict result) fun pos => parseObjectLoop fuel text pos result
termination_by structural fuel

/-- `parse_array`. -/
def parseArray (fuel : Nat) (text : List Char) (pos : Nat) : Except PyError (PyValue × Nat) :=
  match fuel with
  | 0 => .error .outOfFuel
  | fuel + 1 => parseOpening text pos '[' ']' (.list []) fun pos => parseArrayLoop fuel text pos []
termination_by structural fuel

/-- One pass of the `while True` loop of `parse_array`, then the rest of the loop. -/
def parseArrayLoop (fuel : Nat) (text : List Char) (pos : Nat) (result : List PyValue) :
    Except PyError (PyValue × Nat) :=
  match fuel with
  | 0 => .error .outOfFuel
  | fuel + 1 => do
    let (value, pos) ← parseValue fuel text pos
    let result := result ++ [value]
    passEnd text pos ']' (.list result) fun pos => parseArrayLoop fuel text pos result
termination_by structural fuel

end

/-- `JSONParser(text).parse()`: one value, then nothing but whitespace. -/
def parse (text : List Char) : Except PyError PyValue := do
  let (result, pos) ← parseValue U (3 * text.length + 1) text (skipWhitespace text 0)
  let pos := skipWhitespace text pos
  match text[pos]? with
  | some c => throw (.parseError ("Unexpected character: " ++ c.toString) pos)
  | none => return result

/-! ## §1 — what one call can do

Said once for each function: `parseValue` either hands over to `parseObject` or `parseArray` at
the first non-blank character, or ends on its own having advanced from there; an opening either
starts its loop past the bracket and the whitespace after it, or ends on its own; a pass ends in
the next pass just past a comma, or on its own. The two loops themselves are one `bind` of a
call and `passEnd`, which their unfolding shows directly. -/

theorem parseOpening_cases (text : List Char) (pos : Nat) (openChar closeChar : Char)
    (empty : PyValue) (loop : Nat → Except PyError (PyValue × Nat)) :
    (text[pos]? = some openChar ∧
      parseOpening text pos openChar closeChar empty loop = loop (skipWhitespace text (pos + 1))) ∨
    (parseOpening text pos openChar closeChar empty loop ≠ .error .outOfFuel ∧
      Advances text pos (parseOpening text pos openChar closeChar empty loop)) := by
  unfold parseOpening
  cases hc : text[pos]? with
  | none => exact .inr ⟨by simp [index, hc], by simp [Advances, index, hc]⟩
  | some c =>
    simp only [index_of_getElem? hc, ok_bind]
    by_cases ho : c = openChar
    · subst ho
      simp only [ne_eq, not_true_eq_false, if_false]
      by_cases hcl : text[skipWhitespace text (pos + 1)]? = some closeChar
      · refine .inr ⟨by simp [hcl, pure, Except.pure], fun v p' h => ?_⟩
        simp only [hcl, if_true, pure, Except.pure, Except.ok.injEq, Prod.mk.injEq] at h
        have := le_skipWhile (· ∈ whitespace) text (pos + 1)
        have := lt_length_of_getElem? hcl
        simp only [skipWhitespace] at *
        omega
      · exact .inl ⟨trivial, by simp [hcl]⟩
    · exact .inr ⟨by simp [ho], by simp [Advances, ho]⟩

theorem passEnd_cases (text : List Char) (pos : Nat) (closeChar : Char) (done : PyValue)
    (next : Nat → Except PyError (PyValue × Nat)) :
    (text[skipWhitespace text pos]? = some ',' ∧
      passEnd text pos closeChar done next = next (skipWhitespace text pos + 1)) ∨
    (passEnd text pos closeChar done next ≠ .error .outOfFuel ∧
      Advances text pos (passEnd text pos closeChar done next)) := by
  unfold passEnd
  have hle := le_skipWhile (· ∈ whitespace) text pos
  simp only [skipWhitespace] at *
  generalize skipWhile (· ∈ whitespace) text pos = q at *
  cases hc : text[q]? with
  | none => exact .inr ⟨by simp, by simp [Advances]⟩
  | some c =>
    have := lt_length_of_getElem? hc
    simp only
    split_ifs with h₁ h₂
    · refine .inr ⟨by simp [pure, Except.pure], fun v p' h => ?_⟩
      simp only [pure, Except.pure, Except.ok.injEq, Prod.mk.injEq] at h
      omega
    · exact .inl ⟨h₂ ▸ rfl, rfl⟩
    · exact .inr ⟨by simp, by simp [Advances]⟩

theorem parseValue_succ_cases (f : Nat) (text : List Char) (pos : Nat) :
    (text[skipWhitespace text pos]? = some '{' ∧
      parseValue U (f + 1) text pos = parseObject U f text (skipWhitespace text pos)) ∨
    (text[skipWhitespace text pos]? = some '[' ∧
      parseValue U (f + 1) text pos = parseArray U f text (skipWhitespace text pos)) ∨
    (parseValue U (f + 1) text pos ≠ .error .outOfFuel ∧
      Advances text (skipWhitespace text pos) (parseValue U (f + 1) text pos)) := by
  -- the dispatch of `parse_value`, one `elif` at a time
  rw [parseValue]
  generalize skipWhitespace text pos = q
  cases hc : text[q]? with
  | none => exact .inr (.inr ⟨by simp, by simp [Advances]⟩)
  | some c =>
    dsimp only
    by_cases h₁ : c = '"'
    · rw [if_pos h₁]
      refine .inr (.inr ⟨fun h => ?_, fun v p' h => ?_⟩)
      · rcases bind_eq_error.1 h with h | ⟨_, -, h⟩
        · exact parseString_ne_outOfFuel text q h
        · simp [pure, Except.pure] at h
      · obtain ⟨⟨s, p⟩, hs, h⟩ := bind_eq_ok.1 h
        simp only [pure, Except.pure, Except.ok.injEq, Prod.mk.injEq] at h
        exact h.2 ▸ parseString_advances text q s p hs
    rw [if_neg h₁]
    by_cases h₂ : c = '{'
    · rw [if_pos h₂]; exact .inl ⟨h₂ ▸ rfl, rfl⟩
    rw [if_neg h₂]
    by_cases h₃ : c = '['
    · rw [if_pos h₃]; exact .inr (.inl ⟨h₃ ▸ rfl, rfl⟩)
    rw [if_neg h₃]
    refine .inr (.inr ?_)
    by_cases h₄ : c = 't'
    · rw [if_pos h₄]; exact ⟨parseLiteral_ne_outOfFuel text q _ _, parseLiteral_advances _ _ _ (by decide)⟩
    rw [if_neg h₄]
    by_cases h₅ : c = 'f'
    · rw [if_pos h₅]; exact ⟨parseLiteral_ne_outOfFuel text q _ _, parseLiteral_advances _ _ _ (by decide)⟩
    rw [if_neg h₅]
    by_cases h₆ : c = 'n'
    · rw [if_pos h₆]; exact ⟨parseLiteral_ne_outOfFuel text q _ _, parseLiteral_advances _ _ _ (by decide)⟩
    rw [if_neg h₆]
    by_cases h₇ : c = '-' ∨ U.isdigit c
    · rw [if_pos h₇]; exact ⟨parseNumber_ne_outOfFuel U text q, parseNumber_advances U text q⟩
    rw [if_neg h₇]
    exact ⟨by simp, by simp [Advances]⟩

/-! ## §2 — one step forward

The same steps read forward, for a text whose next characters are known. -/

section
variable {U} {f : Nat} {text : List Char} {pos : Nat}

theorem parseValue_of_string (h : text[skipWhitespace text pos]? = some '"') :
    parseValue U (f + 1) text pos = (do
      let (s, pos) ← parseString text (skipWhitespace text pos)
      return (.str s, pos)) := by
  simp [parseValue, h]

theorem parseValue_of_object (h : text[skipWhitespace text pos]? = some '{') :
    parseValue U (f + 1) text pos = parseObject U f text (skipWhitespace text pos) := by
  simp [parseValue, h]

theorem parseValue_of_array (h : text[skipWhitespace text pos]? = some '[') :
    parseValue U (f + 1) text pos = parseArray U f text (skipWhitespace text pos) := by
  simp [parseValue, h]

theorem parseValue_of_literal {c : Char} {literal : String} {value : PyValue}
    (h : text[skipWhitespace text pos]? = some c)
    (hc : (c, literal, value) ∈ [('t', "true", .bool true), ('f', "false", .bool false),
      ('n', "null", .none)]) :
    parseValue U (f + 1) text pos = parseLiteral text (skipWhitespace text pos) literal value := by
  simp only [List.mem_cons, Prod.mk.injEq, List.mem_singleton, List.not_mem_nil, or_false] at hc
  rcases hc with ⟨rfl, rfl, rfl⟩ | ⟨rfl, rfl, rfl⟩ | ⟨rfl, rfl, rfl⟩ <;> simp [parseValue, h]

theorem parseValue_of_number {c : Char} (h : text[skipWhitespace text pos]? = some c)
    (hc : c = '-' ∨ U.isdigit c) :
    parseValue U (f + 1) text pos = parseNumber U text (skipWhitespace text pos) := by
  have ha : ∀ a : Char, a.toNat < 128 → ¬ a.isDigit → a ≠ '-' → c ≠ a := by
    rintro a ha hd hm rfl
    rcases hc with rfl | hc
    · exact hm rfl
    · exact hd (U.isdigit_ascii _ ha ▸ hc)
  have := ha '"' (by decide) (by decide) (by decide)
  have := ha '{' (by decide) (by decide) (by decide)
  have := ha '[' (by decide) (by decide) (by decide)
  have := ha 't' (by decide) (by decide) (by decide)
  have := ha 'f' (by decide) (by decide) (by decide)
  have := ha 'n' (by decide) (by decide) (by decide)
  simp_all [parseValue]

theorem parseOpening_of_close {openChar closeChar : Char} {empty : PyValue}
    {loop : Nat → Except PyError (PyValue × Nat)} (h : text[pos]? = some openChar)
    (hc : text[skipWhitespace text (pos + 1)]? = some closeChar) :
    parseOpening text pos openChar closeChar empty loop =
      .ok (empty, skipWhitespace text (pos + 1) + 1) := by
  simp [parseOpening, h, hc, pure, Except.pure]

theorem parseOpening_of_loop {openChar closeChar : Char} {empty : PyValue}
    {loop : Nat → Except PyError (PyValue × Nat)} (h : text[pos]? = some openChar)
    (hc : text[skipWhitespace text (pos + 1)]? ≠ some closeChar) :
    parseOpening text pos openChar closeChar empty loop = loop (skipWhitespace text (pos + 1)) := by
  simp [parseOpening, h, hc]

theorem passEnd_of_close {closeChar : Char} {done : PyValue}
    {next : Nat → Except PyError (PyValue × Nat)} (h : text[skipWhitespace text pos]? = some closeChar) :
    passEnd text pos closeChar done next = .ok (done, skipWhitespace text pos + 1) := by
  simp [passEnd, h, pure, Except.pure]

theorem passEnd_of_comma {closeChar : Char} {done : PyValue}
    {next : Nat → Except PyError (PyValue × Nat)} (h : text[skipWhitespace text pos]? = some ',')
    (hc : closeChar ≠ ',') :
    passEnd text pos closeChar done next = next (skipWhitespace text pos + 1) := by
  simp [passEnd, h, hc.symm]

/-- A pass of the object loop once its key and colon are read. -/
theorem parseObjectLoop_of_member {result : List (String × PyValue)} {key : String} {q : Nat}
    (hs : parseString text (skipWhitespace text pos) = .ok (key, q))
    (hc : text[skipWhitespace text q]? = some ':') :
    parseObjectLoop U (f + 1) text pos result = (do
      let (value, pos) ← parseValue U f text (skipWhitespace text q + 1)
      passEnd text pos '}' (.dict (dictSet result key value))
        fun pos => parseObjectLoop U f text pos (dictSet result key value)) := by
  simp [parseObjectLoop, hs, hc]

end

end

end BlogTutorials.JSONParser
