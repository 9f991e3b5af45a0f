import BlogTutorials.Json.Parser

/-!
# BlogTutorials — `JSONParser.parse` terminates

`parse_value`, `parse_object` and `parse_array` recurse into each other and loop with
`while True`; nothing in the source bounds the recursion depth or the number of passes. They stop
because of a measure the source never names, `len(self.text) - self.pos`:

* **`advances_all`** — every call that returns has moved the cursor strictly forward and left it
  at most at the end of the text. Nothing about fuel: this is read off the code's branches.
* **`ne_outOfFuel_all`** — hence every nested `parse_value` call and every further pass of a loop
  starts strictly later than the call that makes it, and `3 * (len - pos)` units of fuel (plus a
  constant per function) cover the whole run from `pos`.
* **`parse_terminates`** — `parse` gives `3 * len + 1` units, so it never runs out: on every
  input it returns or raises a Python exception.
-/

namespace BlogTutorials.JSONParser

/-! ## §1 — what an opening and a pass hand on

An opening hands over to its loop past the bracket, a pass to the next pass past a comma: what
holds of every later call holds of them (`parseOpening_cases`, `passEnd_cases`). -/

section
variable {text : List Char} {α : Type}

theorem Advances.bind {β : Type} {pos : Nat} {r : Except PyError (α × Nat)}
    {g : α × Nat → Except PyError (β × Nat)} (hr : Advances text pos r)
    (hg : ∀ a q, r = .ok (a, q) → Advances text q (g (a, q))) : Advances text pos (r >>= g) :=
  fun b p' h => by
    obtain ⟨⟨a, q⟩, hq, h⟩ := bind_eq_ok.1 h
    have := hr a q hq; have := hg a q hq b p' h; omega

theorem bind_ne_outOfFuel {β : Type} {r : Except PyError α} {g : α → Except PyError β}
    (hr : r ≠ .error .outOfFuel) (hg : ∀ a, r = .ok a → g a ≠ .error .outOfFuel) :
    r >>= g ≠ .error .outOfFuel := fun h => by
  rcases bind_eq_error.1 h with h | ⟨a, ha, h⟩
  exacts [hr h, hg a ha h]

variable {openChar closeChar : Char} {empty : PyValue} {loop : Nat → Except PyError (PyValue × Nat)}

theorem parseOpening_advances {pos : Nat} (hloop : ∀ q, Advances text q (loop q)) :
    Advances text pos (parseOpening text pos openChar closeChar empty loop) := by
  rcases parseOpening_cases text pos openChar closeChar empty loop with ⟨-, h⟩ | ⟨-, h⟩
  · rw [h]; exact (hloop _).mono (Nat.le_of_succ_le (le_skipWhile _ text (pos + 1)))
  · exact h

theorem parseOpening_ne_outOfFuel {pos : Nat} (hloop : ∀ q, pos < q → loop q ≠ .error .outOfFuel) :
    parseOpening text pos openChar closeChar empty loop ≠ .error .outOfFuel := by
  rcases parseOpening_cases text pos openChar closeChar empty loop with ⟨-, h⟩ | ⟨h, -⟩
  · rw [h]; exact hloop _ (le_skipWhile _ text (pos + 1))
  · exact h

theorem passEnd_advances {q : Nat} {done : PyValue} (hnext : ∀ q', Advances text q' (loop q')) :
    Advances text q (passEnd text q closeChar done loop) := by
  rcases passEnd_cases text q closeChar done loop with ⟨-, h⟩ | ⟨-, h⟩
  · rw [h]; exact (hnext _).mono (Nat.le_succ_of_le (le_skipWhile _ text q))
  · exact h

theorem passEnd_ne_outOfFuel {q : Nat} {done : PyValue}
    (hnext : ∀ q', q < q' → q' ≤ text.length → loop q' ≠ .error .outOfFuel) :
    passEnd text q closeChar done loop ≠ .error .outOfFuel := by
  rcases passEnd_cases text q closeChar done loop with ⟨hc, h⟩ | ⟨h, -⟩
  · rw [h]; exact hnext _ (Nat.lt_succ_of_le (le_skipWhile _ text q)) (lt_length_of_getElem? hc)
  · exact h

end

/-! ## §2 — the measure -/

variable (U : UnicodeDigits)

/-- A call that returns has moved the cursor forward and left it inside the text, on any fuel. -/
theorem advances_all (text : List Char) : ∀ f pos,
    Advances text pos (parseValue U f text pos) ∧
    Advances text pos (parseObject U f text pos) ∧
    Advances text pos (parseArray U f text pos) ∧
    (∀ result, Advances text pos (parseObjectLoop U f text pos result)) ∧
    (∀ result, Advances text pos (parseArrayLoop U f text pos result))
  | 0, _ => by
    simp [Advances, parseValue, parseObject, parseArray, parseObjectLoop, parseArrayLoop]
  | f + 1, pos => by
    have ih := advances_all text f
    have h₀ : pos ≤ skipWhitespace text pos := le_skipWhile _ text pos
    refine ⟨?_, parseOpening_advances fun q => (ih q).2.2.2.1 [],
      parseOpening_advances fun q => (ih q).2.2.2.2 [], fun result => ?_, fun result =>
        (ih pos).1.bind fun _ _ _ => passEnd_advances fun q => (ih q).2.2.2.2 _⟩
    · rcases parseValue_succ_cases U f text pos with ⟨-, h⟩ | ⟨-, h⟩ | ⟨-, h⟩
      · rw [h]; exact (ih _).2.1.mono h₀
      · rw [h]; exact (ih _).2.2.1.mono h₀
      · exact h.mono h₀
    · -- the key, the colon, the value, then the end of the pass
      refine ((parseString_advances text _).mono h₀).bind fun key q _ => ?_
      dsimp only
      split_ifs
      · exact fun _ _ h => nomatch h
      · exact ((ih _).1.mono (Nat.le_succ_of_le (le_skipWhile _ text q))).bind fun _ _ _ =>
          passEnd_advances fun q => (ih q).2.2.2.1 _

/-- **Fuel that covers a run.** From `pos`, `parseValue` needs `3 * (len - pos) + 1` units, an
opening at its bracket `3 * (len - pos)`, and a loop pass `3 * (len - pos) + 2`: each nested
call and each further pass starts strictly later (`advances_all`), which pays for what it uses. -/
theorem ne_outOfFuel_all (text : List Char) : ∀ f pos,
    (3 * (text.length - pos) + 1 ≤ f → parseValue U f text pos ≠ .error .outOfFuel) ∧
    (pos < text.length → 3 * (text.length - pos) ≤ f →
      parseObject U f text pos ≠ .error .outOfFuel ∧ parseArray U f text pos ≠ .error .outOfFuel) ∧
    (3 * (text.length - pos) + 2 ≤ f →
      (∀ result, parseObjectLoop U f text pos result ≠ .error .outOfFuel) ∧
      ∀ result, parseArrayLoop U f text pos result ≠ .error .outOfFuel)
  | 0, _ => ⟨by omega, fun _ _ => by omega, by omega⟩
  | f + 1, pos => by
    have ih := ne_outOfFuel_all text f
    have adv := advances_all U text f
    refine ⟨fun hf => ?_, fun hlt hf => ⟨?_, ?_⟩, fun hf => ⟨fun result => ?_, fun result => ?_⟩⟩
    · have h₀ : pos ≤ skipWhitespace text pos := le_skipWhile _ text pos
      rcases parseValue_succ_cases U f text pos with ⟨hc, h⟩ | ⟨hc, h⟩ | ⟨h, -⟩
      · rw [h]; exact ((ih _).2.1 (lt_length_of_getElem? hc) (by omega)).1
      · rw [h]; exact ((ih _).2.1 (lt_length_of_getElem? hc) (by omega)).2
      · exact h
    · exact parseOpening_ne_outOfFuel fun q _ => ((ih q).2.2 (by omega)).1 []
    · exact parseOpening_ne_outOfFuel fun q _ => ((ih q).2.2 (by omega)).2 []
    · -- the key, the colon, the value, then the end of the pass
      refine bind_ne_outOfFuel (parseString_ne_outOfFuel text _) fun ⟨key, q⟩ hs => ?_
      have h₁ := parseString_advances text _ key q hs
      have h₂ : pos ≤ skipWhitespace text pos := le_skipWhile _ text pos
      have h₃ : q ≤ skipWhitespace text q := le_skipWhile _ text q
      dsimp only
      split_ifs with hc
      · simp
      · have := lt_length_of_getElem? (not_not.1 hc)
        refine bind_ne_outOfFuel ((ih _).1 (by omega)) fun ⟨value, r⟩ hv => ?_
        have h₄ := (adv _).1 value r hv
        exact passEnd_ne_outOfFuel fun q' _ _ => ((ih q').2.2 (by omega)).1 _
    · refine bind_ne_outOfFuel ((ih _).1 (by omega)) fun ⟨value, r⟩ hv => ?_
      have h₁ := (adv _).1 value r hv
      exact passEnd_ne_outOfFuel fun q' _ _ => ((ih q').2.2 (by omega)).2 _

/-- **`JSONParser(text).parse()` terminates on every input**: it never exhausts the
`3 * len(text) + 1` units it hands out, so every run ends by returning or by raising a Python
exception. Underneath, every `parse_value` call at `pos` given more than `3 * (len - pos)` units
finishes within them, and when it returns the cursor has moved strictly forward and is still at
most `len(text)`. -/
theorem parse_terminates (text : List Char) :
    parse U text ≠ .error .outOfFuel ∧
      ∀ fuel pos, 3 * (text.length - pos) + 1 ≤ fuel →
        parseValue U fuel text pos ≠ .error .outOfFuel ∧
          Advances text pos (parseValue U fuel text pos) := by
  refine ⟨fun h => ?_, fun fuel pos hf =>
    ⟨(ne_outOfFuel_all U text fuel pos).1 hf, (advances_all U text fuel pos).1⟩⟩
  simp only [parse] at h
  rcases bind_eq_error.1 h with h | ⟨⟨v, p⟩, -, h⟩
  · exact (ne_outOfFuel_all U text _ _).1 (by omega) h
  · dsimp only at h
    split at h <;> simp [pure, Except.pure] at h

end BlogTutorials.JSONParser
