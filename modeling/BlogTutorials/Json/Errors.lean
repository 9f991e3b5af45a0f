import BlogTutorials.Json.Parser

/-!
# BlogTutorials — exceptions other than `ParseError` that `JSONParser.parse` lets out

Every branch of the parser that reads `self.text[self.pos]` is meant to be guarded:
`parse_value` raises `ParseError("Unexpected end of input")` before it indexes, and
`parse_object` checks `self.pos < len(self.text)` before looking for `}` and `:`. One path is not:
`parse_object`'s loop calls `parse_string` straight after skipping whitespace, and
`parse_string` indexes before any bounds check. An object left open at the end of the text
(`{`, or `{` and whitespace) therefore raises Python's `IndexError`
(`parse_unclosed_object_indexError`).
-/

namespace BlogTutorials.JSONParser

variable (U : UnicodeDigits)

theorem skipWhitespace_length (text : List Char) : skipWhitespace text text.length = text.length :=
  by simp [skipWhitespace, skipWhile_eq_takeWhile]

/-- `parse_string` at the end of the text indexes past it. -/
theorem parseString_length (text : List Char) : parseString text text.length = .error .indexError := by
  simp only [parseString, index, List.getElem?_len_le le_rfl, error_bind]

/-- **An object opened at the end of the text raises `IndexError`.** For any leading and trailing
whitespace, `parse` on `ws₁ ++ "{" ++ ws₂` reaches `parse_string` at `len(text)` and indexes past
the end. -/
theorem parse_unclosed_object_indexError (pre ws : List Char)
    (hpre : ∀ c ∈ pre, c ∈ whitespace) (hws : ∀ c ∈ ws, c ∈ whitespace) :
    parse U (pre ++ '{' :: ws) = .error .indexError := by
  generalize htext : pre ++ '{' :: ws = text
  have hlen : text.length = pre.length + 1 + ws.length := by
    rw [← htext, List.length_append, List.length_cons]; omega
  have hstop : ∀ c t, '{' :: ws = c :: t → decide (c ∈ whitespace) = false := by
    rintro _ _ ⟨⟩; decide
  -- the whitespace before `{` is skipped, `{` is not, and the whitespace after it runs to the end
  have hd₁ : text.drop pre.length = [] ++ '{' :: ws := by rw [← htext, List.nil_append, List.drop_left]
  have hd₂ : text.drop (pre.length + 1) = ws ++ [] := by
    rw [← htext, List.append_nil, List.append_cons, List.drop_left' (by simp)]
  have hbrace : text[pre.length]? = some '{' := by rw [← List.head?_drop, hd₁]; rfl
  have hskip₀ : skipWhitespace text 0 = pre.length :=
    (skipWhile_of_drop (by rw [List.drop_zero, htext]) (fun c hc => decide_eq_true (hpre c hc))
      hstop).trans (Nat.zero_add _)
  have hskip₁ : skipWhitespace text pre.length = pre.length :=
    skipWhile_of_drop hd₁ (fun _ h => nomatch h) hstop
  have hskip₂ : skipWhitespace text (pre.length + 1) = text.length := by
    rw [skipWhitespace, skipWhile_of_drop hd₂ (fun c hc => decide_eq_true (hws c hc))
      (fun _ _ h => nomatch h)]
    omega
  -- `parse_value` dispatches to `parse_object`, whose loop starts with `parse_string`
  have hfuel : 3 * text.length + 1 = 3 * text.length - 2 + 1 + 1 + 1 := by omega
  rw [parse, hskip₀, hfuel, parseValue_of_object (by rw [hskip₁]; exact hbrace), hskip₁]
  simp only [parseObject]
  rw [parseOpening_of_loop hbrace (by rw [hskip₂, List.getElem?_len_le le_rfl]; nofun), hskip₂]
  simp only [parseObjectLoop, skipWhitespace_length, parseString_length, error_bind]

/-- The input `{` itself. -/
theorem parse_open_brace_indexError :
    (∀ c ∈ ([] : List Char), c ∈ whitespace) ∧ (∀ c ∈ ([] : List Char), c ∈ whitespace) ∧
      parse .latin1 ['{'] = .error .indexError :=
  ⟨by simp, by simp, parse_unclosed_object_indexError .latin1 [] [] (by simp) (by simp)⟩

end BlogTutorials.JSONParser
