import BlogTutorials.Json.Completeness

/-!
# BlogTutorials — `JSONParser` against the standard encoder

Decoding should undo `json.dumps`. The encoder is not part of the repository, so `dumps` below
follows the description of it the parser is held to (strings quoted, `"` and `\` escaped,
newline, carriage return, tab, backspace and form feed as `\n \r \t \b \f`, every other control
or non-ASCII character as `\uXXXX`, with surrogate pairs above U+FFFF; `", "` and `": "` between
items).

* **`readEscapes`** — what the loop of `parse_string` makes of the characters between two
  quotes: a backslash pair `\e` becomes `unescape e`, that is `e` itself unless `e` is `n`, `t`,
  `r` or `\`.
* **`parse_dumpsString`** — `parse` returns, for an encoded string, the concatenation of what it
  reads back from each character's encoding (`readBack`).
* **`readBack_eq_self_iff`** — a character comes back as itself exactly when it is printable
  ASCII or one of newline, carriage return and tab (`Roundtrips`). Backspace comes back as `b`,
  form feed as `f`, and a `\uXXXX` escape as the letter `u` followed by its four hex digits.
-/

namespace BlogTutorials.JSONParser

/-! ## §1 — the encoder -/

/-- A hexadecimal digit, in the lower case `json.dumps` writes. -/
def hexDigit (d : Nat) : Char :=
  if d < 10 then Char.ofNat (48 + d) else Char.ofNat (87 + d)

/-- `\uXXXX` for a UTF-16 code unit. -/
def unicodeEscape (n : Nat) : List Char :=
  ['\\', 'u', hexDigit (n / 4096 % 16), hexDigit (n / 256 % 16), hexDigit (n / 16 % 16),
    hexDigit (n % 16)]

/-- The characters `json.dumps` writes as a backslash and a letter (its `ESCAPE_DCT`). -/
def shortEscapes : List (Char × Char) :=
  [('\\', '\\'), ('"', '"'), ('\x08', 'b'), ('\x0c', 'f'), ('\n', 'n'), ('\r', 'r'), ('\t', 't')]

/-- How `json.dumps` writes one character of a string: a short escape, `\uXXXX` for any other
control or non-ASCII character (a surrogate pair above U+FFFF), or the character itself. -/
def escapeChar (c : Char) : List Char :=
  match shortEscapes.lookup c with
  | some e => ['\\', e]
  | none =>
    if c.toNat < 0x20 ∨ 0x7f ≤ c.toNat then
      if c.toNat < 0x10000 then unicodeEscape c.toNat
      else unicodeEscape (0xd800 + (c.toNat - 0x10000) / 0x400) ++
        unicodeEscape (0xdc00 + (c.toNat - 0x10000) % 0x400)
    else [c]

/-- A string, quoted and escaped. -/
def dumpsString (s : String) : List Char :=
  '"' :: s.data.flatMap escapeChar ++ ['"']

/-- A float as the decimal numeral of its exact value (floats are outside the round trip the
parser is held to). -/
def dumpsFloat (mantissa : Int) (scale : Nat) : List Char :=
  let digits := (toString mantissa.natAbs).toList
  let digits := List.replicate (scale + 1 - digits.length) '0' ++ digits
  (if mantissa < 0 then ['-'] else []) ++ digits.take (digits.length - scale) ++
    '.' :: (if scale = 0 then ['0'] else digits.drop (digits.length - scale))

mutual

/-- `json.dumps` with its default separators. An integer is written by `int.__repr__`, which
raises `ValueError` past `sys.get_int_max_str_digits()` digits; `dumps` writes its digits
whatever their number, and the round trip (`Dumpable`) admits only integers within the limit. -/
def dumps : PyValue → List Char
  | .none => "null".toList
  | .bool b => if b then "true".toList else "false".toList
  | .int i => (toString i).toList
  | .float mantissa scale => dumpsFloat mantissa scale
  | .str s => dumpsString s
  | .list items => '[' :: dumpsItems items ++ [']']
  | .dict items => '{' :: dumpsMembers items ++ ['}']

/-- The items of a list, joined by `", "`. -/
def dumpsItems : List PyValue → List Char
  | [] => []
  | [v] => dumps v
  | v :: vs => dumps v ++ ',' :: ' ' :: dumpsItems vs

/-- The items of a dict, each `key: value`, joined by `", "`. -/
def dumpsMembers : List (String × PyValue) → List Char
  | [] => []
  | [(k, v)] => dumpsString k ++ ':' :: ' ' :: dumps v
  | (k, v) :: kvs => dumpsString k ++ ':' :: ' ' :: dumps v ++ ',' :: ' ' :: dumpsMembers kvs

end

/-! ## §2 — what `parse_string` reads back -/

/-- The loop of `parse_string` over the characters between two quotes, as a function: each
backslash pair `\e` gives `unescape e`, any other character itself. -/
def readEscapes : List Char → List Char
  | '\\' :: e :: cs => unescape e :: readEscapes cs
  | c :: cs => c :: readEscapes cs
  | [] => []

/-- What `parse_string` reads back from the encoding of one character. -/
def readBack (c : Char) : List Char := readEscapes (escapeChar c)

/-- The characters the round trip keeps: newline, carriage return, tab and printable ASCII. -/
def Roundtrips (c : Char) : Prop :=
  c = '\n' ∨ c = '\r' ∨ c = '\t' ∨ (0x20 ≤ c.toNat ∧ c.toNat < 0x7f)

instance : DecidablePred Roundtrips := fun c =>
  inferInstanceAs (Decidable (c = '\n' ∨ c = '\r' ∨ c = '\t' ∨ (0x20 ≤ c.toNat ∧ c.toNat < 0x7f)))

theorem hexDigit_plain (d : Nat) : hexDigit (d % 16) ≠ '"' ∧ hexDigit (d % 16) ≠ '\\' := by
  have key : ∀ e < 16, hexDigit e ≠ '"' ∧ hexDigit e ≠ '\\' := by decide
  exact key _ (Nat.mod_lt _ (by decide))

theorem Escaped.append {a b c d : List Char} (h₁ : Escaped a b) (h₂ : Escaped c d) :
    Escaped (a ++ c) (b ++ d) := by
  induction h₁ with
  | nil => exact h₂
  | plain h₁ h₂ _ ih => exact .plain h₁ h₂ ih
  | escape _ ih => exact .escape ih

theorem escaped_unicodeEscape (n : Nat) :
    Escaped (unicodeEscape n) ('u' :: (unicodeEscape n).drop 2) := by
  have h₁ := hexDigit_plain (n / 4096); have h₂ := hexDigit_plain (n / 256)
  have h₃ := hexDigit_plain (n / 16); have h₄ := hexDigit_plain n
  exact .escape (.plain h₁.1 h₁.2 (.plain h₂.1 h₂.2 (.plain h₃.1 h₃.2 (.plain h₄.1 h₄.2 .nil))))

theorem readEscapes_of_escaped {body out : List Char} (h : Escaped body out) :
    readEscapes body = out := by
  induction h with
  | nil => rfl
  | plain _ h₂ _ ih => simp [readEscapes, h₂, ih]
  | escape _ ih => simp [readEscapes, ih]

theorem Escaped.ne_nil {body out : List Char} (h : Escaped body out) (hb : body ≠ []) :
    out ≠ [] := by
  cases h <;> simp_all

theorem lookup_shortEscapes_eq_none {c : Char} (h : shortEscapes.lookup c = none) :
    c ≠ '"' ∧ c ≠ '\\' ∧ c ≠ '\n' ∧ c ≠ '\r' ∧ c ≠ '\t' := by
  simp only [List.lookup_eq_none_iff, shortEscapes, List.mem_cons, List.mem_singleton,
    List.not_mem_nil, or_false, forall_eq_or_imp, forall_eq, bne_iff_ne] at h
  exact ⟨h.2.1, h.1, h.2.2.2.2.1, h.2.2.2.2.2.1, h.2.2.2.2.2.2⟩

theorem mem_shortEscapes {c e : Char} (h : shortEscapes.lookup c = some e) :
    (c, e) ∈ shortEscapes := by
  obtain ⟨l₁, l₂, hl, -⟩ := List.lookup_eq_some_iff.1 h
  rw [hl]; simp

/-- The encoding of a character other than a short escape, with the two branches of `\uXXXX`. -/
theorem escapeChar_of_lookup_none {c : Char} (h : shortEscapes.lookup c = none) :
    escapeChar c = if c.toNat < 0x20 ∨ 0x7f ≤ c.toNat then
      if c.toNat < 0x10000 then unicodeEscape c.toNat
      else unicodeEscape (0xd800 + (c.toNat - 0x10000) / 0x400) ++
        unicodeEscape (0xdc00 + (c.toNat - 0x10000) % 0x400)
    else [c] := by
  rw [escapeChar, h]

/-- Every character's encoding is read by the loop of `parse_string`. -/
theorem escaped_escapeChar (c : Char) : Escaped (escapeChar c) (readBack c) := by
  suffices h : ∃ out, Escaped (escapeChar c) out by
    obtain ⟨out, h⟩ := h
    rwa [readBack, readEscapes_of_escaped h]
  cases hl : shortEscapes.lookup c with
  | some e => rw [escapeChar, hl]; exact ⟨_, .escape .nil⟩
  | none =>
    obtain ⟨hq, hb, -⟩ := lookup_shortEscapes_eq_none hl
    rw [escapeChar_of_lookup_none hl]
    split_ifs
    · exact ⟨_, escaped_unicodeEscape _⟩
    · exact ⟨_, (escaped_unicodeEscape _).append (escaped_unicodeEscape _)⟩
    · exact ⟨_, .plain hq hb .nil⟩

theorem readBack_ne_nil (c : Char) : readBack c ≠ [] := by
  refine (escaped_escapeChar c).ne_nil ?_
  cases hl : shortEscapes.lookup c with
  | some e => simp [escapeChar, hl]
  | none => rw [escapeChar_of_lookup_none hl]; split_ifs <;> simp [unicodeEscape]

/-- **Which characters survive the round trip.** A character is read back as itself exactly
when it is printable ASCII or a newline, carriage return or tab. -/
theorem readBack_eq_self_iff (c : Char) : readBack c = [c] ↔ Roundtrips c := by
  unfold readBack
  cases hl : shortEscapes.lookup c with
  | some e =>
    -- a short escape comes back as itself exactly for the four that `parse_string` decodes
    rw [escapeChar, hl]
    have table : ∀ p ∈ shortEscapes, readEscapes ['\\', p.2] = [p.1] ↔ Roundtrips p.1 := by
      decide
    exact table _ (mem_shortEscapes hl)
  | none =>
    have ⟨hq, hb, hn, hr, ht⟩ := lookup_shortEscapes_eq_none hl
    have hrt : Roundtrips c ↔ 0x20 ≤ c.toNat ∧ c.toNat < 0x7f := by
      simp [Roundtrips, hn, hr, ht]
    rw [escapeChar_of_lookup_none hl, hrt]
    split_ifs with hp
    · -- written as `\uXXXX`, read back as `u` and four digits
      rw [readEscapes_of_escaped (escaped_unicodeEscape _)]
      simp [unicodeEscape]; omega
    · rw [readEscapes_of_escaped ((escaped_unicodeEscape _).append (escaped_unicodeEscape _))]
      simp [unicodeEscape]; omega
    · -- printable, written as itself
      rw [readEscapes_of_escaped (.plain hq hb .nil)]
      simp only [true_iff]; omega

theorem length_le_flatMap_readBack (cs : List Char) :
    cs.length ≤ (cs.flatMap readBack).length := by
  induction cs with
  | nil => simp
  | cons c cs ih =>
    have := List.length_pos.2 (readBack_ne_nil c)
    simp only [List.flatMap_cons, List.length_append, List.length_cons]
    omega

theorem flatMap_readBack_eq_self_iff (cs : List Char) :
    cs.flatMap readBack = cs ↔ ∀ c ∈ cs, Roundtrips c := by
  induction cs with
  | nil => simp
  | cons c cs ih =>
    rw [List.flatMap_cons, List.forall_mem_cons, ← ih, ← readBack_eq_self_iff]
    constructor
    · intro h
      have hlen := length_le_flatMap_readBack cs
      match hc : readBack c, h with
      | [], _ => exact absurd hc (readBack_ne_nil c)
      | [d], h => simp only [List.singleton_append, List.cons.injEq] at h; exact ⟨by rw [h.1], h.2⟩
      | _ :: _ :: _, h =>
        have := congrArg List.length h
        simp only [List.cons_append, List.length_cons, List.length_append] at this
        omega
    · rintro ⟨h₁, h₂⟩
      rw [h₁, h₂]; rfl

/-! ## §3 — parsing an encoded string -/

theorem escaped_flatMap (cs : List Char) :
    Escaped (cs.flatMap escapeChar) (cs.flatMap readBack) := by
  induction cs with
  | nil => exact .nil
  | cons c cs ih => exact (escaped_escapeChar c).append ih

/-- `parse` on an encoded string returns what `parse_string` reads back from each character. -/
theorem parse_dumpsString (U : UnicodeDigits) (s : String) :
    parse U (dumpsString s) = .ok (.str (String.mk (s.data.flatMap readBack))) := by
  have hd : (dumpsString s).drop 0 = [] ++ '"' :: (s.data.flatMap escapeChar ++ ['"']) := by
    simp [dumpsString]
  have ⟨hskip, hfirst⟩ := skipWhitespace_to hd (by simp [Ws]) (by decide)
  simp only [List.length_nil, Nat.add_zero] at hskip hfirst
  have hv : parseValue U (3 * (dumpsString s).length + 1) (dumpsString s)
      (skipWhitespace (dumpsString s) 0) =
        .ok (.str (String.mk (s.data.flatMap readBack)), (dumpsString s).length) := by
    rw [hskip, parseValue_of_string (by rw [hskip]; exact hfirst), hskip,
      parseString_of_escaped (escaped_flatMap s.data)
        (show (dumpsString s).drop 0 = '"' :: s.data.flatMap escapeChar ++ '"' :: [] by
          simp [dumpsString])]
    simp [dumpsString, pure, Except.pure]
  refine parse_of_value_at_end hv ?_
  rw [skipWhitespace_of_ws (show (dumpsString s).drop (dumpsString s).length = [] ++ [] by simp)
    (by simp [Ws]) (by simp)]
  rfl

/-- **`parse` does not undo `json.dumps`**: a string holding any character other than printable
ASCII, newline, carriage return and tab is encoded with `\b`, `\f` or `\uXXXX`, and `parse` reads
that escape back as its letter, not as the character. -/
theorem parse_dumps_str_ne (U : UnicodeDigits) (s : String) (h : ∃ c ∈ s.data, ¬ Roundtrips c) :
    parse U (dumps (.str s)) ≠ .ok (.str s) := by
  rw [dumps, parse_dumpsString]
  intro heq
  simp only [Except.ok.injEq, PyValue.str.injEq] at heq
  obtain ⟨c, hc, hnot⟩ := h
  exact hnot ((flatMap_readBack_eq_self_iff s.data).1 (congrArg String.data heq) c hc)

/-- A backspace is encoded as `\b` and parsed back as `b`. -/
theorem parse_dumps_backspace :
    (∃ c ∈ "\x08".data, ¬ Roundtrips c) ∧ parse .latin1 (dumps (.str "\x08")) ≠ .ok (.str "\x08") := by
  have h : ∃ c ∈ "\x08".data, ¬ Roundtrips c := ⟨'\x08', by simp, by decide⟩
  exact ⟨h, parse_dumps_str_ne .latin1 "\x08" h⟩

example : parse .latin1 (dumps (.str "\x08")) = .ok (.str "b") := rfl

end BlogTutorials.JSONParser
