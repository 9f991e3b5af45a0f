import BlogTutorials.Json.Termination

/-!
# BlogTutorials — where `JSONParser` says its errors are

`ParseError(message, position)` carries the cursor at which the parser gave up. Every position
it can carry lies in `0 … len(text)`: each `raise` stands at a cursor that is inside the text
(a character was just read there) or at its end (the loops stop there), never past it.

* **`ReportsWithin`** — the property of one call's result, with its `bind` rule.
* One lemma per scanner, and **`reportsWithin_all`** for the five recursive functions, by
  induction on the fuel as `advances_all`: a nested call starts at a cursor an earlier call left
  inside the text (`advances_all`).
* **`parse_parseError_le_length`** — hence every `ParseError` that `parse` raises names a
  position from `0` to `len(text)`.
-/

namespace BlogTutorials.JSONParser

/-- Every `ParseError` the call raises names a position from `0` to `len(text)`. -/
def ReportsWithin {α : Type} (text : List Char) (r : Except PyError α) : Prop :=
  ∀ message p, r = .error (.parseError message p) → p ≤ text.length

namespace ReportsWithin
variable {text : List Char} {α β : Type}

theorem ok (a : α) : ReportsWithin text (.ok a : Except PyError α) := fun _ _ h => nomatch h

theorem valueError : ReportsWithin text (.error .valueError : Except PyError α) :=
  fun _ _ h => nomatch h

theorem indexError : ReportsWithin text (.error .indexError : Except PyError α) :=
  fun _ _ h => nomatch h

theorem outOfFuel : ReportsWithin text (.error .outOfFuel : Except PyError α) :=
  fun _ _ h => nomatch h

theorem parseError {message : String} {p : Nat} (h : p ≤ text.length) :
    ReportsWithin text (.error (.parseError message p) : Except PyError α) := fun _ _ he => by
  cases he; exact h

theorem bind {r : Except PyError α} {g : α → Except PyError β} (hr : ReportsWithin text r)
    (hg : ∀ a, r = .ok a → ReportsWithin text (g a)) : ReportsWithin text (r >>= g) :=
  fun m p h => by
    rcases bind_eq_error.1 h with h | ⟨a, ha, h⟩
    exacts [hr m p h, hg a ha m p h]

end ReportsWithin

open ReportsWithin

section
variable {text : List Char}

theorem skipWhitespace_le_length {pos : Nat} (h : pos ≤ text.length) :
    skipWhitespace text pos ≤ text.length :=
  skipWhile_le _ h

/-! ## §1 — the scanners -/

theorem index_reportsWithin (pos : Nat) : ReportsWithin text (index text pos) := by
  cases h : text[pos]? <;> simp only [index, h]
  exacts [indexError, ok _]

/-- `parse_string` stops at the end of the text: `Unterminated string` there, or `Unexpected end
of escape sequence` just after a backslash that was the last character. -/
theorem parseStringLoop_reportsWithin :
    ∀ n pos result, pos ≤ text.length → ReportsWithin text (parseStringLoop text n pos result)
  | 0, _, _, h => parseError h
  | n + 1, pos, result, h => by
    unfold parseStringLoop
    split
    · exact parseError h
    · rename_i char hc
      have := lt_length_of_getElem? hc
      split_ifs
      · exact ok _
      · split
        · exact parseError this
        · rename_i hc'
          exact parseStringLoop_reportsWithin n _ _ (lt_length_of_getElem? hc')
      · exact parseStringLoop_reportsWithin n _ _ this

theorem parseString_reportsWithin (pos : Nat) : ReportsWithin text (parseString text pos) := by
  refine (index_reportsWithin pos).bind fun c hc => ?_
  have := lt_length_of_getElem? (index_eq_ok.1 hc)
  split_ifs
  · exact parseError this.le
  · exact parseStringLoop_reportsWithin _ _ _ this

theorem parseLiteral_reportsWithin {pos : Nat} (h : pos ≤ text.length) (literal : String)
    (value : PyValue) : ReportsWithin text (parseLiteral text pos literal value) := by
  unfold parseLiteral
  split_ifs
  exacts [ok _, parseError h]

section
variable (U : UnicodeDigits)

/-- `int()` and `float()` raise `ValueError`, never `ParseError`. -/
theorem digitsValue_reportsWithin : ∀ acc ds, ReportsWithin text (digitsValue U acc ds)
  | _, [] => ok _
  | acc, c :: cs => by
    unfold digitsValue
    split
    · exact digitsValue_reportsWithin _ cs
    · exact valueError

theorem decimalValue_reportsWithin (ds : List Char) : ReportsWithin text (decimalValue U ds) := by
  unfold decimalValue
  split_ifs
  exacts [valueError, digitsValue_reportsWithin U 0 ds]

theorem intValue_reportsWithin (ds : List Char) : ReportsWithin text (intValue U ds) := by
  unfold intValue
  split_ifs
  exacts [valueError, decimalValue_reportsWithin U ds]

theorem decimalFraction_reportsWithin (body : List Char) :
    ReportsWithin text (decimalFraction U body) :=
  (decimalValue_reportsWithin U _).bind fun _ _ => ok _

theorem numberValue_reportsWithin (s : List Char) : ReportsWithin text (numberValue U s) := by
  unfold numberValue pyFloat pyInt
  split_ifs <;> split
  all_goals first
    | exact (decimalFraction_reportsWithin U _).bind fun _ _ => ok _
    | exact (intValue_reportsWithin U _).bind fun _ _ => ok _

theorem parseNumber_reportsWithin (start : Nat) : ReportsWithin text (parseNumber U text start) := by
  refine (index_reportsWithin start).bind fun c hc => ?_
  have := lt_length_of_getElem? (index_eq_ok.1 hc)
  generalize hq : (if c = '-' then start + 1 else start) = q
  have hq : q ≤ text.length := by split_ifs at hq <;> omega
  dsimp only
  split_ifs
  · exact parseError hq
  · exact (numberValue_reportsWithin U _).bind fun _ _ => ok _

end

/-! ## §2 — openings and passes -/

variable {openChar closeChar : Char} {empty done : PyValue}
  {loop : Nat → Except PyError (PyValue × Nat)}

theorem parseOpening_reportsWithin (pos : Nat)
    (hloop : ∀ q, q ≤ text.length → ReportsWithin text (loop q)) :
    ReportsWithin text (parseOpening text pos openChar closeChar empty loop) := by
  refine (index_reportsWithin pos).bind fun c hc => ?_
  have := lt_length_of_getElem? (index_eq_ok.1 hc)
  dsimp only
  split_ifs
  · exact parseError this.le
  · exact ok _
  · exact hloop _ (skipWhitespace_le_length this)

theorem passEnd_reportsWithin {q : Nat} (hq : q ≤ text.length)
    (hnext : ∀ q', q' ≤ text.length → ReportsWithin text (loop q')) :
    ReportsWithin text (passEnd text q closeChar done loop) := by
  have hskip := skipWhitespace_le_length hq
  unfold passEnd
  dsimp only
  split
  · exact parseError hskip
  · rename_i c hc
    have := lt_length_of_getElem? hc
    split_ifs
    · exact ok _
    · exact hnext _ this
    · exact parseError hskip

end

/-! ## §3 — the recursive functions -/

variable (U : UnicodeDigits)

/-- `parse_value`'s own errors stand at the first non-blank character, or at the end. -/
theorem parseValue_succ_reportsWithin {f : Nat} {text : List Char} {pos : Nat}
    (hpos : pos ≤ text.length)
    (hcontainer : ∀ q, q ≤ text.length →
      ReportsWithin text (parseObject U f text q) ∧ ReportsWithin text (parseArray U f text q)) :
    ReportsWithin text (parseValue U (f + 1) text pos) := by
  have hq := skipWhitespace_le_length hpos
  have hc := hcontainer _ hq
  rw [parseValue]
  generalize skipWhitespace text pos = q at hq hc
  split
  · exact parseError hq
  · rename_i c _
    dsimp only
    by_cases h₁ : c = '"'
    · rw [if_pos h₁]; exact (parseString_reportsWithin q).bind fun _ _ => ok _
    rw [if_neg h₁]
    by_cases h₂ : c = '{'
    · rw [if_pos h₂]; exact hc.1
    rw [if_neg h₂]
    by_cases h₃ : c = '['
    · rw [if_pos h₃]; exact hc.2
    rw [if_neg h₃]
    by_cases h₄ : c = 't'
    · rw [if_pos h₄]; exact parseLiteral_reportsWithin hq _ _
    rw [if_neg h₄]
    by_cases h₅ : c = 'f'
    · rw [if_pos h₅]; exact parseLiteral_reportsWithin hq _ _
    rw [if_neg h₅]
    by_cases h₆ : c = 'n'
    · rw [if_pos h₆]; exact parseLiteral_reportsWithin hq _ _
    rw [if_neg h₆]
    split_ifs
    · exact parseNumber_reportsWithin U q
    · exact parseError hq

/-- **Every error the parser functions raise is within the text**, for calls made at a cursor
within it, on any fuel. -/
theorem reportsWithin_all (text : List Char) : ∀ f pos, pos ≤ text.length →
    ReportsWithin text (parseValue U f text pos) ∧
    ReportsWithin text (parseObject U f text pos) ∧
    ReportsWithin text (parseArray U f text pos) ∧
    (∀ result, ReportsWithin text (parseObjectLoop U f text pos result)) ∧
    (∀ result, ReportsWithin text (parseArrayLoop U f text pos result))
  | 0, _, _ => ⟨outOfFuel, outOfFuel, outOfFuel, fun _ => outOfFuel, fun _ => outOfFuel⟩
  | f + 1, pos, hpos => by
    have ih := reportsWithin_all text f
    have adv := advances_all U text f
    refine ⟨parseValue_succ_reportsWithin U hpos fun q hq => ⟨(ih q hq).2.1, (ih q hq).2.2.1⟩,
      parseOpening_reportsWithin pos fun q hq => (ih q hq).2.2.2.1 [],
      parseOpening_reportsWithin pos fun q hq => (ih q hq).2.2.2.2 [], fun result => ?_,
      fun result => ((ih pos hpos).1).bind fun ⟨_, r⟩ hv =>
        passEnd_reportsWithin ((adv pos).1 _ r hv).2 fun q hq => (ih q hq).2.2.2.2 _⟩
    -- the key, the colon, the value, then the end of the pass
    refine (parseString_reportsWithin _).bind fun ⟨key, q⟩ hs => ?_
    have hq := (parseString_advances text _ key q hs).2
    have hskip := skipWhitespace_le_length hq
    dsimp only
    split_ifs with hc
    · exact parseError hskip
    · have := lt_length_of_getElem? (not_not.1 hc)
      exact ((ih _ this).1).bind fun ⟨_, r⟩ hv =>
        passEnd_reportsWithin ((adv _).1 _ r hv).2 fun q hq => (ih q hq).2.2.2.1 _

/-- **Every `ParseError` that `parse` raises names a position from `0` to `len(text)`**:
`parse_value` starts inside the text, every nested call starts where an earlier one stopped,
and the final check for trailing characters reports one that is there. -/
theorem parse_parseError_le_length (text : List Char) (message : String) (p : Nat)
    (h : parse U text = .error (.parseError message p)) : p ≤ text.length := by
  have hv := (reportsWithin_all U text (3 * text.length + 1) _
    (skipWhitespace_le_length (Nat.zero_le _))).1
  refine ((hv.bind fun ⟨_, r⟩ hr => ?_) : ReportsWithin text (parse U text)) message p h
  have hr := (advances_all U text _ _).1 _ r hr
  dsimp only
  split
  · rename_i c hc
    exact parseError (lt_length_of_getElem? hc).le
  · exact ok _

/-- `[1, 2` ends inside the array: `parse` reports the end of the text, position `5`. -/
theorem parse_unclosed_array_position :
    parse .latin1 "[1, 2".toList = .error (.parseError "Unexpected end of input" 5) ∧
      5 ≤ "[1, 2".toList.length :=
  have h : parse .latin1 "[1, 2".toList = .error (.parseError "Unexpected end of input" 5) := rfl
  ⟨h, parse_parseError_le_length .latin1 _ _ _ h⟩

end BlogTutorials.JSONParser
