import BlogTutorials.Json.Termination
import BlogTutorials.Json.Grammar

/-!
# BlogTutorials — `JSONParser.parse` accepts every exponent-free JSON text

The other direction from the error paths: on a text the RFC 8259 grammar derives (numbers
without exponent), `parse` returns normally, provided every integer in it has no more digits
than `sys.get_int_max_str_digits()` (`WithinMaxStrDigits`); past that, CPython's `int()` raises
`ValueError` (`parse_int_valueError`). The proof follows the derivation. Each scanner consumes
exactly what one production derives and leaves the cursor just after it
(`parseStringLoop_of_escaped`, `parseNumber_of_number`); the recursive functions then do the same
by induction on the derivation (`accepts`), where a result `Returns` at the expected position
unless the model's fuel runs out, and `parse_terminates` rules that out at the top.

A number is scanned by maximal munch, so what follows it matters: in a JSON text a value is
followed by whitespace, a separator, a closing bracket or the end (`Follows`).
-/

namespace BlogTutorials.JSONParser

/-! ## §1 — the cursor and the text after it -/

section
variable {text : List Char} {pos : Nat}

theorem drop_add_of_drop {a b : List Char} (h : text.drop pos = a ++ b) :
    text.drop (pos + a.length) = b := by
  rw [← List.drop_drop, h, List.drop_left]

/-- The text after a known prefix, at a cursor given in any form. -/
theorem drop_eq_of_drop (a : List Char) {b : List Char} {q : Nat} (h : text.drop pos = a ++ b)
    (hq : pos + a.length = q) : text.drop q = b :=
  hq ▸ drop_add_of_drop h

theorem drop_succ_of_drop {c : Char} {t : List Char} (h : text.drop pos = c :: t) :
    text.drop (pos + 1) = t :=
  drop_eq_of_drop [c] h rfl

theorem getElem?_of_drop {c : Char} {t : List Char} (h : text.drop pos = c :: t) :
    text[pos]? = some c := by
  rw [← List.head?_drop, h]; rfl

theorem mem_whitespace {c : Char} : c ∈ whitespace ↔ IsWs c := by
  simp [whitespace, IsWs]

/-- Whitespace the grammar put before a character that is not whitespace is skipped exactly. -/
theorem skipWhitespace_of_ws {w rest : List Char} (hd : text.drop pos = w ++ rest) (hw : Ws w)
    (hr : ∀ c t, rest = c :: t → ¬ IsWs c) : skipWhitespace text pos = pos + w.length :=
  skipWhile_of_drop hd (fun c hc => by simpa [mem_whitespace] using hw c hc)
    (fun c t h => by simpa [mem_whitespace] using hr c t h)

end

/-! ## §2 — strings

`Escaped body out`: `body` is what `parse_string` reads before its closing quote (characters
other than `"` and `\`, and backslash pairs), and `out` the characters it appends for them. -/

/-- The loop of `parse_string` reading `body` appends `out`. -/
inductive Escaped : List Char → List Char → Prop where
  | nil : Escaped [] []
  | plain {c cs out} (h₁ : c ≠ '"') (h₂ : c ≠ '\\') (h : Escaped cs out) :
      Escaped (c :: cs) (c :: out)
  | escape {e cs out} (h : Escaped cs out) : Escaped ('\\' :: e :: cs) (unescape e :: out)

theorem parseStringLoop_of_escaped {text : List Char} {body out : List Char}
    (h : Escaped body out) :
    ∀ {n q acc rest}, text.drop q = body ++ '"' :: rest → text.length - q ≤ n →
      parseStringLoop text n q acc = .ok (String.mk (acc ++ out), q + body.length + 1) := by
  induction h with
  | nil =>
    intro n q acc rest hd hn
    have hq := getElem?_of_drop hd
    obtain ⟨m, rfl⟩ : ∃ m, n = m + 1 := ⟨n - 1, by have := lt_length_of_getElem? hq; omega⟩
    simp [parseStringLoop, hq]
  | @plain c cs out h₁ h₂ _ ih =>
    intro n q acc rest hd hn
    have hq := getElem?_of_drop hd
    obtain ⟨m, rfl⟩ : ∃ m, n = m + 1 := ⟨n - 1, by have := lt_length_of_getElem? hq; omega⟩
    simp only [parseStringLoop, hq, h₁, h₂, if_false]
    rw [ih (drop_succ_of_drop hd) (by omega)]
    simp [Nat.add_assoc, Nat.add_comm 1]
  | @escape e cs out _ ih =>
    intro n q acc rest hd hn
    have hd₁ := drop_succ_of_drop hd
    have hq := getElem?_of_drop hd
    obtain ⟨m, rfl⟩ : ∃ m, n = m + 1 := ⟨n - 1, by have := lt_length_of_getElem? hq; omega⟩
    simp only [parseStringLoop, hq, getElem?_of_drop hd₁, if_neg (show '\\' ≠ '"' by decide),
      if_true]
    rw [ih (drop_succ_of_drop hd₁) (by omega)]
    simp; omega

theorem parseString_of_escaped {text body out rest : List Char} {pos : Nat}
    (h : Escaped body out) (hd : text.drop pos = '"' :: body ++ '"' :: rest) :
    parseString text pos = .ok (String.mk out, pos + body.length + 2) := by
  simp only [parseString, index_of_getElem? (getElem?_of_drop hd), ok_bind, ne_eq,
    not_true_eq_false, if_false]
  rw [parseStringLoop_of_escaped h (drop_succ_of_drop hd) le_rfl]
  simp; omega

theorem IsHexDigit.ne {x : Char} (h : IsHexDigit x) : x ≠ '"' ∧ x ≠ '\\' := by
  constructor <;> rintro rfl <;> revert h <;> decide

/-- Every RFC string body is read by the loop. -/
theorem StrChars.escaped {body : List Char} (h : StrChars body) : ∃ out, Escaped body out := by
  induction h with
  | nil => exact ⟨[], .nil⟩
  | unescaped hc _ ih =>
    obtain ⟨out, h⟩ := ih
    exact ⟨_, .plain hc.2.1 hc.2.2 h⟩
  | escape _ _ ih =>
    obtain ⟨out, h⟩ := ih
    exact ⟨_, .escape h⟩
  | @unicode x₁ x₂ x₃ x₄ _ hx _ ih =>
    obtain ⟨out, h⟩ := ih
    have h₁ := (hx x₁ (by simp)).ne; have h₂ := (hx x₂ (by simp)).ne
    have h₃ := (hx x₃ (by simp)).ne; have h₄ := (hx x₄ (by simp)).ne
    exact ⟨_, .escape (.plain h₁.1 h₁.2 (.plain h₂.1 h₂.2 (.plain h₃.1 h₃.2 (.plain h₄.1 h₄.2 h))))⟩

/-! ## §3 — numbers -/

/-- What may follow a value in a JSON text: nothing, whitespace, a separator or a closing
bracket. -/
def Follows (rest : List Char) : Prop :=
  ∀ c t, rest = c :: t → c ∈ whitespace ++ [',', ']', '}']

theorem Follows.nil : Follows [] := by simp [Follows]

theorem Follows.close {c : Char} {t : List Char} (hc : c ∈ [',', ']', '}']) : Follows (c :: t) := by
  rintro _ _ ⟨⟩; simp_all

theorem Follows.ws {w rest : List Char} (hw : Ws w) (hr : Follows rest) : Follows (w ++ rest) := by
  cases w with
  | nil => exact hr
  | cons c _ => rintro _ _ ⟨⟩; simp [mem_whitespace.2 (hw c (by simp))]

theorem toNat_lt_of_isDigit {c : Char} (h : c.isDigit) : c.toNat < 128 := by
  simp only [Char.isDigit, Char.toNat, UInt32.le_def, Bool.and_eq_true, decide_eq_true_eq] at h ⊢
  simp only [BitVec.le_def, UInt32.toNat] at h ⊢
  have : (UInt32.toBitVec 57).toNat = 57 := rfl
  omega

theorem IntPart.cons_digits {i : List Char} (h : IntPart i) :
    ∃ d ds, i = d :: ds ∧ ∀ c ∈ d :: ds, c.isDigit := by
  cases h with
  | zero => exact ⟨'0', [], rfl, by decide⟩
  | digits hd _ hds => exact ⟨_, _, rfl, by simpa [hd] using hds⟩

section
variable (U : UnicodeDigits)

theorem isdigit_of_isDigit {c : Char} (h : c.isDigit) : U.isdigit c := by
  rw [U.isdigit_ascii c (toNat_lt_of_isDigit h)]; exact h

/-- The characters that end a numeral in a JSON text are not digits in any table. -/
theorem isdigit_of_follows {c : Char} (hc : c ∈ '.' :: whitespace ++ [',', ']', '}']) :
    U.isdigit c = false := by
  simp only [whitespace, List.cons_append, List.nil_append, List.mem_cons, List.not_mem_nil,
    or_false] at hc
  rcases hc with rfl | rfl | rfl | rfl | rfl | rfl | rfl | rfl <;>
    exact (U.isdigit_ascii _ (by decide)).trans rfl

theorem digitsValue_ok : ∀ (acc : Nat) (ds : List Char), (∀ c ∈ ds, c.isDigit) →
    ∃ m, digitsValue U acc ds = .ok m
  | acc, [], _ => ⟨acc, rfl⟩
  | acc, c :: cs, h => by
    simp only [digitsValue, U.decimal_ascii c (h c (by simp))]
    exact digitsValue_ok _ cs fun c hc => h c (by simp [hc])

theorem decimalValue_ok {ds : List Char} (hne : ds ≠ []) (h : ∀ c ∈ ds, c.isDigit) :
    ∃ m, decimalValue U ds = .ok m := by
  simpa [decimalValue, hne] using digitsValue_ok U 0 ds h

/-- A number `parse_number` reads without error: one with a fraction part, which `float()` reads
whatever its length, or one with at most `sys.get_int_max_str_digits()` digits. -/
def WithinMaxStrDigits (n : List Char) : Prop :=
  Number n ∧ ('.' ∉ n → U.exceedsMaxStrDigits (n.filter Char.isDigit).length = false)

theorem numberValue_of_number {n : List Char} (hn : WithinMaxStrDigits U n) :
    ∃ v, numberValue U n = .ok v := by
  obtain ⟨⟨sign, i, frac, hs, hi, hf, rfl⟩, hfit⟩ := hn
  obtain ⟨d, ds, rfl, hdig⟩ := hi.cons_digits
  have hd : d ≠ '-' := by rintro rfl; simp at hdig
  have hdot : ∀ c ∈ d :: ds, decide (c ≠ '.') = true := by
    rintro c hc; simpa using fun h : c = '.' => by simpa [h] using hdig _ hc
  have hsign : '.' ∉ sign := by rcases hs with rfl | rfl <;> simp
  rcases hf with rfl | ⟨e, es, rfl, hes⟩
  · have hm : '.' ∉ sign ++ d :: ds ++ [] := by
      rw [List.append_nil, List.mem_append, not_or]
      exact ⟨hsign, fun h => by simpa using hdot _ h⟩
    have hfilter : (d :: ds).filter Char.isDigit = d :: ds := List.filter_eq_self.2 hdig
    have hlim : U.exceedsMaxStrDigits (ds.length + 1) = false := by
      have hminus : Char.isDigit '-' = false := by decide
      rcases hs with rfl | rfl <;> simpa [hfilter, hminus] using hfit hm
    obtain ⟨m, hm'⟩ := decimalValue_ok U (List.cons_ne_nil d ds) hdig
    rw [numberValue, if_neg hm]
    rcases hs with rfl | rfl <;> simp [pyInt, intValue, hd, hm', hlim]
  · have hm : '.' ∈ sign ++ d :: ds ++ '.' :: e :: es := by simp
    have hfrac : decimalFraction U (d :: ds ++ '.' :: e :: es) =
        (do return (← decimalValue U (d :: ds ++ e :: es), (e :: es).length)) := by
      rw [decimalFraction, List.takeWhile_append_of_pos hdot, List.dropWhile_append_of_pos hdot]
      simp
    obtain ⟨m, hm'⟩ := decimalValue_ok U (by simp) (List.forall_mem_append.2 ⟨hdig, hes⟩)
    rw [numberValue, if_pos hm]
    rcases hs with rfl | rfl
    · rw [List.nil_append, pyFloat.eq_2 _ _ (by simp [hd]), hfrac, hm']; exact ⟨_, rfl⟩
    · rw [List.singleton_append, List.cons_append, pyFloat, hfrac, hm']; exact ⟨_, rfl⟩

/-- After its first digit, `parse_number` passes over exactly the rest of a grammar numeral. -/
theorem numeralEnd_of_number {text i frac rest : List Char} {q : Nat}
    (hi : ∀ c ∈ i, c.isDigit) (hf : FracPart frac) (hd : text.drop q = i ++ frac ++ rest)
    (hr : Follows rest) : numeralEnd U text q = q + i.length + frac.length := by
  have hstop : ∀ c t, rest = c :: t → U.isdigit c = false := fun c t h =>
    isdigit_of_follows U (List.mem_cons_of_mem _ (hr c t h))
  have hrun : ∀ {w : List Char}, (∀ c ∈ w, c.isDigit) → ∀ c ∈ w, U.isdigit c := fun h c hc =>
    isdigit_of_isDigit U (h c hc)
  rcases hf with rfl | ⟨e, es, rfl, hes⟩
  · rw [List.append_nil] at hd
    have hdot : text[q + i.length]? ≠ some '.' := by
      rw [← List.head?_drop, drop_add_of_drop hd]
      cases rest with
      | nil => simp
      | cons c t => simpa using fun h : c = '.' => by simpa [h, whitespace] using hr c t rfl
    simp only [numeralEnd, skipWhile_of_drop hd (hrun hi) hstop, hdot, if_false,
      List.length_nil, Nat.add_zero]
  · have hd' : text.drop q = i ++ ('.' :: (e :: es ++ rest)) := by simpa using hd
    have hd₁ := drop_add_of_drop hd'
    have h₁ := skipWhile_of_drop hd' (hrun hi) fun c t h => by
      cases h; exact isdigit_of_follows U (by simp)
    have h₂ := skipWhile_of_drop (drop_succ_of_drop hd₁) (hrun hes) hstop
    simp only [numeralEnd, h₁, getElem?_of_drop hd₁, if_true, h₂, List.length_cons]
    omega

/-- **`parse_number` reads a grammar number whole**, whatever may follow it in a JSON text, and
returns what `int()` or `float()` makes of it. -/
theorem parseNumber_of_number {text n rest : List Char} {pos : Nat} (hn : Number n)
    (hd : text.drop pos = n ++ rest) (hr : Follows rest) :
    parseNumber U text pos = (do let v ← numberValue U n; return (v, pos + n.length)) := by
  obtain ⟨sign, i, frac, hs, hi, hf, rfl⟩ := hn
  obtain ⟨d, ds, rfl, hdig⟩ := hi.cons_digits
  have hq : text.drop (pos + sign.length) = d :: ds ++ frac ++ rest :=
    drop_add_of_drop (by simpa using hd)
  have hend : numeralEnd U text (pos + sign.length) = pos + (sign ++ d :: ds ++ frac).length := by
    rw [numeralEnd_of_number U hdig hf hq hr]; simp; omega
  have hslice : (text.drop pos).take (pos + (sign ++ d :: ds ++ frac).length - pos) =
      sign ++ d :: ds ++ frac := by
    rw [hd, Nat.add_sub_cancel_left, List.take_left]
  have hdd : U.isdigit d := isdigit_of_isDigit U (hdig d (by simp))
  -- past the sign, the same run whether or not there was one
  have hrun : ∀ c, text[pos]? = some c → (if c = '-' then pos + 1 else pos) = pos + sign.length →
      parseNumber U text pos = (do
        let v ← numberValue U (sign ++ d :: ds ++ frac)
        return (v, pos + (sign ++ d :: ds ++ frac).length)) := by
    intro c hc hsign
    simp only [parseNumber, index_of_getElem? hc, ok_bind, hsign, getElem?_of_drop hq,
      Option.any_some, hdd, hend, hslice]
    rfl
  rcases hs with rfl | rfl
  · exact hrun d (getElem?_of_drop (by simpa using hq)) (if_neg (by rintro rfl; simp at hdig))
  · exact hrun '-' (getElem?_of_drop (by simpa using hd)) (if_pos rfl)

end

/-! ## §4 — where each derivation starts -/

theorem not_isWs_of_isDigit {c : Char} (h : c.isDigit) : ¬ IsWs c := by
  rintro (rfl | rfl | rfl | rfl) <;> simp at h

theorem Str.head {s : List Char} (h : Str s) : ∃ t, s = '"' :: t := by
  obtain ⟨body, -, rfl⟩ := h; exact ⟨_, rfl⟩

theorem Number.head {n : List Char} (h : Number n) : ∃ c t, n = c :: t ∧ (c = '-' ∨ c.isDigit) := by
  obtain ⟨sign, i, frac, hs, hi, -, rfl⟩ := h
  obtain ⟨d, ds, rfl, hdig⟩ := hi.cons_digits
  rcases hs with rfl | rfl
  · exact ⟨d, _, rfl, .inr (hdig d (by simp))⟩
  · exact ⟨'-', _, rfl, .inl rfl⟩

section
variable {IsNumber : List Char → Prop}

/-- A derivation starts with a character that is neither whitespace nor `]`, its numbers being
grammar numbers. -/
theorem Json.value_head (hnum : ∀ n, IsNumber n → Number n) {d : List Char}
    (h : Json IsNumber .value d) : ∃ c t, d = c :: t ∧ ¬ IsWs c ∧ c ≠ ']' := by
  cases h with
  | literal h =>
    simp only [List.mem_cons, List.mem_singleton, List.not_mem_nil, or_false] at h
    rcases h with rfl | rfl | rfl <;> exact ⟨_, _, rfl, by decide, by decide⟩
  | number h =>
    obtain ⟨c, t, rfl, hc⟩ := (hnum _ h).head
    rcases hc with rfl | hc
    · exact ⟨_, _, rfl, by decide, by decide⟩
    · exact ⟨_, _, rfl, not_isWs_of_isDigit hc, by rintro rfl; simp at hc⟩
  | string h => obtain ⟨t, rfl⟩ := h.head; exact ⟨_, _, rfl, by decide, by decide⟩
  | emptyObject | object | emptyArray | array => exact ⟨_, _, rfl, by decide, by decide⟩

theorem Json.elements_head (hnum : ∀ n, IsNumber n → Number n) {e : List Char}
    (h : Json IsNumber .elements e) : ∃ c t, e = c :: t ∧ ¬ IsWs c ∧ c ≠ ']' := by
  cases h with
  | element hv => exact hv.value_head hnum
  | elements hv =>
    obtain ⟨c, t, rfl, hc⟩ := hv.value_head hnum
    exact ⟨c, _, rfl, hc⟩

theorem Json.members_head {m : List Char} (h : Json IsNumber .members m) : ∃ t, m = '"' :: t := by
  cases h with
  | member hk | members hk => obtain ⟨t, rfl⟩ := hk.head; exact ⟨_, rfl⟩

end

/-! ## §5 — values, arrays and objects

The recursive functions are read by induction on the derivation. A call is allowed to run out of
the model's fuel (`Returns`); `ne_outOfFuel_all` excludes that afterwards. -/

/-- The call returns a value satisfying `P` with the cursor at `p`, unless the model's fuel runs
out first. -/
def Returns {α : Type} (r : Except PyError (α × Nat)) (P : α → Prop) (p : Nat) : Prop :=
  r = .error .outOfFuel ∨ ∃ a, P a ∧ r = .ok (a, p)

namespace Returns
variable {α β : Type} {P : α → Prop} {Q : β → Prop} {p p' : Nat}

theorem ok {a : α} (ha : P a) (h : p = p') : Returns (.ok (a, p)) P p' := .inr ⟨a, ha, h ▸ rfl⟩

theorem bind {r : Except PyError (α × Nat)} {g : α × Nat → Except PyError (β × Nat)}
    (hr : Returns r P p) (hg : ∀ a, P a → Returns (g (a, p)) Q p') : Returns (r >>= g) Q p' := by
  rcases hr with rfl | ⟨a, ha, rfl⟩
  · exact .inl rfl
  · exact hg a ha

theorem outOfFuel : Returns (.error .outOfFuel : Except PyError (α × Nat)) P p := .inl rfl

theorem of_eq {r : Except PyError (α × Nat)} (h : Returns r P p) (hp : p = p') : Returns r P p' :=
  hp ▸ h

end Returns

section
variable {text : List Char}

/-- Whitespace before a character that is not whitespace is skipped up to it. -/
theorem skipWhitespace_to {w t : List Char} {pos : Nat} {c : Char}
    (hd : text.drop pos = w ++ c :: t) (hw : Ws w) (hc : ¬ IsWs c) :
    skipWhitespace text pos = pos + w.length ∧ text[pos + w.length]? = some c :=
  ⟨skipWhitespace_of_ws hd hw (by rintro _ _ ⟨⟩; exact hc),
    getElem?_of_drop (drop_add_of_drop hd)⟩

theorem parseLiteral_of_drop {literal : String} {value : PyValue} {rest : List Char} {p : Nat}
    (hd : text.drop p = literal.toList ++ rest) :
    parseLiteral text p literal value = .ok (value, p + literal.toList.length) := by
  have hl : literal.length = literal.toList.length := by cases literal; rfl
  rw [parseLiteral, hd, hl, List.take_left, if_pos rfl]

/-- `parse_object` / `parse_array` on an empty container. -/
theorem parseOpening_of_empty {openChar closeChar : Char} {empty : PyValue}
    {loop : Nat → Except PyError (PyValue × Nat)} {w rest : List Char} {p : Nat}
    (hd : text.drop p = openChar :: (w ++ closeChar :: rest)) (hw : Ws w) (hc : ¬ IsWs closeChar) :
    parseOpening text p openChar closeChar empty loop = .ok (empty, p + 1 + w.length + 1) := by
  have ⟨hskip, hclose⟩ := skipWhitespace_to (drop_succ_of_drop hd) hw hc
  rw [parseOpening_of_close (getElem?_of_drop hd) (hskip ▸ hclose), hskip]

/-- `parse_object` / `parse_array` hand a non-empty container to their loop. -/
theorem parseOpening_of_body {openChar closeChar c : Char} {empty : PyValue}
    {loop : Nat → Except PyError (PyValue × Nat)} {w t : List Char} {p : Nat}
    (hd : text.drop p = openChar :: (w ++ c :: t)) (hw : Ws w) (hc : ¬ IsWs c) (hcc : c ≠ closeChar) :
    parseOpening text p openChar closeChar empty loop = loop (p + 1 + w.length) := by
  have ⟨hskip, hfirst⟩ := skipWhitespace_to (drop_succ_of_drop hd) hw hc
  rw [parseOpening_of_loop (getElem?_of_drop hd) (by rw [hskip, hfirst]; simpa using hcc), hskip]

theorem passEnd_of_ws_close {closeChar : Char} {done : PyValue}
    {next : Nat → Except PyError (PyValue × Nat)} {w rest : List Char} {q : Nat}
    (hd : text.drop q = w ++ closeChar :: rest) (hw : Ws w) (hc : ¬ IsWs closeChar) :
    passEnd text q closeChar done next = .ok (done, q + w.length + 1) := by
  have ⟨hskip, hclose⟩ := skipWhitespace_to hd hw hc
  rw [passEnd_of_close (hskip ▸ hclose), hskip]

theorem passEnd_of_ws_comma {closeChar : Char} {done : PyValue}
    {next : Nat → Except PyError (PyValue × Nat)} {w rest : List Char} {q : Nat}
    (hd : text.drop q = w ++ ',' :: rest) (hw : Ws w) (hc : closeChar ≠ ',') :
    passEnd text q closeChar done next = next (q + w.length + 1) := by
  have ⟨hskip, hcomma⟩ := skipWhitespace_to hd hw (by decide)
  rw [passEnd_of_comma (hskip ▸ hcomma) hc, hskip]

/-- A pass of the object loop reads a key and its colon. -/
theorem parseObjectLoop_of_key (U : UnicodeDigits) (f : Nat) (result : List (String × PyValue))
    {k w w₁ rest : List Char} {pos : Nat} (hk : Str k) (hw : Ws w) (hw₁ : Ws w₁)
    (hd : text.drop pos = w ++ k ++ w₁ ++ ':' :: rest) : ∃ key,
    parseObjectLoop U (f + 1) text pos result = (do
      let (value, pos) ← parseValue U f text (pos + w.length + k.length + w₁.length + 1)
      passEnd text pos '}' (.dict (dictSet result key value))
        fun pos => parseObjectLoop U f text pos (dictSet result key value)) := by
  obtain ⟨body, hbody, rfl⟩ := hk
  obtain ⟨out, hout⟩ := hbody.escaped
  have hd₀ : text.drop pos = w ++ '"' :: (body ++ '"' :: (w₁ ++ ':' :: rest)) := by simpa using hd
  have hd₁ : text.drop (pos + w.length) = '"' :: body ++ '"' :: (w₁ ++ ':' :: rest) := by
    simpa using drop_add_of_drop hd₀
  have hq : text.drop (pos + w.length + body.length + 2) = w₁ ++ ':' :: rest := by
    rw [show pos + w.length + body.length + 2 = pos + w.length + ('"' :: body ++ ['"']).length by
      simp; omega]
    exact drop_add_of_drop (by simpa using hd₁)
  have hs : parseString text (skipWhitespace text pos) =
      .ok (String.mk out, pos + w.length + body.length + 2) := by
    rw [(skipWhitespace_to hd₀ hw (by decide)).1, parseString_of_escaped hout hd₁]
  have ⟨hskip, hcolon⟩ := skipWhitespace_to hq hw₁ (by decide)
  refine ⟨String.mk out, ?_⟩
  rw [parseObjectLoop_of_member hs (hskip ▸ hcolon), hskip]
  simp [Nat.add_assoc]

end

section
variable (U : UnicodeDigits) (text : List Char)

/-- What the parser does with text each nonterminal derives: a value is read whole from any
whitespace before it; the elements or members of a container are read by its loop, from any
whitespace before them up to and including the closing bracket. -/
def Accepts : Sym → List Char → Prop
  | .value, d => ∀ pos w rest, Ws w → text.drop pos = w ++ d ++ rest → Follows rest →
      ∀ f, Returns (parseValue U f text pos) (fun _ => True) (pos + w.length + d.length)
  | .elements, e => ∀ pos w w' rest, Ws w → Ws w' → text.drop pos = w ++ e ++ w' ++ ']' :: rest →
      ∀ result f, Returns (parseArrayLoop U f text pos result) (fun _ => True)
        (pos + w.length + e.length + w'.length + 1)
  | .members, m => ∀ pos w w' rest, Ws w → Ws w' → text.drop pos = w ++ m ++ w' ++ '}' :: rest →
      ∀ result f, Returns (parseObjectLoop U f text pos result) (fun _ => True)
        (pos + w.length + m.length + w'.length + 1)

variable {U text}

theorem accepts_literal {l : String} (h : l ∈ ["true", "false", "null"]) :
    Accepts U text .value l.toList := by
  intro pos w rest hw hd _
  obtain ⟨c, value, t, hc, hl, hws⟩ : ∃ c value t, (c, l, value) ∈ [('t', "true", .bool true),
      ('f', "false", .bool false), ('n', "null", PyValue.none)] ∧ l.toList = c :: t ∧ ¬ IsWs c := by
    simp only [List.mem_cons, List.mem_singleton, List.not_mem_nil, or_false] at h
    rcases h with rfl | rfl | rfl
    exacts [⟨'t', .bool true, _, by simp, rfl, by decide⟩,
      ⟨'f', .bool false, _, by simp, rfl, by decide⟩, ⟨'n', .none, _, by simp, rfl, by decide⟩]
  have hd₀ : text.drop pos = w ++ c :: (t ++ rest) := by rw [hd, hl]; simp
  have ⟨hskip, hfirst⟩ := skipWhitespace_to hd₀ hw hws
  rintro (_ | f)
  · exact .outOfFuel
  rw [parseValue_of_literal (hskip ▸ hfirst) hc, hskip,
    parseLiteral_of_drop (drop_add_of_drop (by simpa using hd))]
  exact .ok trivial (by omega)

theorem accepts_number {n : List Char} (h : WithinMaxStrDigits U n) : Accepts U text .value n := by
  intro pos w rest hw hd hr
  obtain ⟨c, t, rfl, hc⟩ := h.1.head
  have hd₀ : text.drop pos = w ++ c :: (t ++ rest) := by simpa using hd
  have ⟨hskip, hfirst⟩ := skipWhitespace_to hd₀ hw
    (by rcases hc with rfl | hc; decide; exact not_isWs_of_isDigit hc)
  obtain ⟨v, hv⟩ := numberValue_of_number U h
  rintro (_ | f)
  · exact .outOfFuel
  rw [parseValue_of_number (hskip ▸ hfirst) (hc.imp_right (isdigit_of_isDigit U)), hskip,
    parseNumber_of_number U h.1 (drop_add_of_drop (by simpa using hd)) hr, hv]
  exact .ok trivial rfl

theorem accepts_string {s : List Char} (h : Str s) : Accepts U text .value s := by
  intro pos w rest hw hd _
  obtain ⟨body, hbody, rfl⟩ := h
  obtain ⟨out, hout⟩ := hbody.escaped
  have hd₀ : text.drop pos = w ++ '"' :: (body ++ '"' :: rest) := by simpa using hd
  have ⟨hskip, hfirst⟩ := skipWhitespace_to hd₀ hw (by decide)
  rintro (_ | f)
  · exact .outOfFuel
  rw [parseValue_of_string (hskip ▸ hfirst), hskip,
    parseString_of_escaped hout (by simpa using drop_add_of_drop hd₀)]
  exact .ok trivial (by simp; omega)

/-- A list or dict read by `parse_array` / `parse_object` once `parse_value` dispatched on its
bracket: whatever the container's loop returns, `parse_value` returns. -/
theorem returns_container {openChar : Char} {g : Nat → Nat → Except PyError (PyValue × Nat)}
    {P : PyValue → Prop} {d rest w : List Char} {pos : Nat} (hopen : ¬ IsWs openChar) (hw : Ws w)
    (hd : text.drop pos = w ++ openChar :: (d ++ rest)) (h0 : ∀ p, g 0 p = .error .outOfFuel)
    (hdispatch : ∀ f, text[skipWhitespace text pos]? = some openChar →
      parseValue U (f + 1) text pos = g f (skipWhitespace text pos))
    (hg : ∀ f, Returns (g (f + 1) (pos + w.length)) P (pos + w.length + 1 + d.length)) :
    ∀ f, Returns (parseValue U f text pos) P (pos + w.length + (openChar :: d).length) := by
  have ⟨hskip, hfirst⟩ := skipWhitespace_to hd hw hopen
  have hdispatch := fun f => hdispatch f (hskip ▸ hfirst)
  rintro (_ | _ | f)
  · exact .outOfFuel
  · rw [hdispatch, h0]; exact .outOfFuel
  · rw [hdispatch, hskip, List.length_cons, ← Nat.add_assoc, Nat.add_right_comm _ d.length]
    exact hg f

theorem accepts_emptyObject {w₀ : List Char} (hw₀ : Ws w₀) :
    Accepts U text .value ('{' :: w₀ ++ ['}']) := by
  intro pos w rest hw hd _
  have hd₀ : text.drop pos = w ++ '{' :: (w₀ ++ '}' :: rest) := by simpa using hd
  refine returns_container (by decide) hw (by simpa using hd) (fun _ => rfl) (fun _ => parseValue_of_object)
    fun f => ?_
  rw [parseObject, parseOpening_of_empty (drop_add_of_drop hd₀) hw₀ (by decide)]
  exact .ok trivial (by simp; omega)

theorem accepts_object {w₁ m w₂ : List Char} (hw₁ : Ws w₁) (hm : Json (WithinMaxStrDigits U) .members m)
    (ihm : Accepts U text .members m) (hw₂ : Ws w₂) :
    Accepts U text .value ('{' :: w₁ ++ m ++ w₂ ++ ['}']) := by
  intro pos w rest hw hd _
  obtain ⟨t, rfl⟩ := hm.members_head
  have hd₀ : text.drop pos = w ++ '{' :: (w₁ ++ '"' :: (t ++ w₂ ++ '}' :: rest)) := by
    simpa using hd
  refine returns_container (by decide) hw (by simpa using hd) (fun _ => rfl) (fun _ => parseValue_of_object)
    fun f => ?_
  rw [parseObject, parseOpening_of_body (drop_add_of_drop hd₀) hw₁ (by decide) (by decide)]
  exact (ihm _ [] w₂ rest (by simp [Ws]) hw₂
    (drop_eq_of_drop (w ++ '{' :: w₁) (by simpa using hd) (by simp; omega)) [] f).of_eq
    (by simp; omega)

theorem accepts_emptyArray {w₀ : List Char} (hw₀ : Ws w₀) :
    Accepts U text .value ('[' :: w₀ ++ [']']) := by
  intro pos w rest hw hd _
  have hd₀ : text.drop pos = w ++ '[' :: (w₀ ++ ']' :: rest) := by simpa using hd
  refine returns_container (by decide) hw (by simpa using hd) (fun _ => rfl) (fun _ => parseValue_of_array)
    fun f => ?_
  rw [parseArray, parseOpening_of_empty (drop_add_of_drop hd₀) hw₀ (by decide)]
  exact .ok trivial (by simp; omega)

theorem accepts_array {w₁ e w₂ : List Char} (hw₁ : Ws w₁) (he : Json (WithinMaxStrDigits U) .elements e)
    (ihe : Accepts U text .elements e) (hw₂ : Ws w₂) :
    Accepts U text .value ('[' :: w₁ ++ e ++ w₂ ++ [']']) := by
  intro pos w rest hw hd _
  obtain ⟨c, t, rfl, hc, hcc⟩ := he.elements_head fun _ h => h.1
  have hd₀ : text.drop pos = w ++ '[' :: (w₁ ++ c :: (t ++ w₂ ++ ']' :: rest)) := by
    simpa using hd
  refine returns_container (by decide) hw (by simpa using hd) (fun _ => rfl) (fun _ => parseValue_of_array)
    fun f => ?_
  rw [parseArray, parseOpening_of_body (drop_add_of_drop hd₀) hw₁ hc hcc]
  exact (ihe _ [] w₂ rest (by simp [Ws]) hw₂
    (drop_eq_of_drop (w ++ '[' :: w₁) (by simpa using hd) (by simp; omega)) [] f).of_eq
    (by simp; omega)

theorem accepts_element {v : List Char} (ihv : Accepts U text .value v) :
    Accepts U text .elements v := by
  intro pos w w' rest hw hw' hd result
  rintro (_ | f)
  · exact .outOfFuel
  have hd₀ : text.drop (pos + w.length + v.length) = w' ++ ']' :: rest :=
    drop_eq_of_drop (w ++ v) (by simpa using hd) (by simp; omega)
  rw [parseArrayLoop]
  refine (ihv pos w (w' ++ ']' :: rest) hw (by simpa using hd)
    (Follows.ws hw' (.close (by simp))) f).bind fun _ _ => ?_
  dsimp only
  rw [passEnd_of_ws_close hd₀ hw' (by decide)]
  exact .ok trivial rfl

theorem accepts_elements {v w₁ w₂ e : List Char} (ihv : Accepts U text .value v) (hw₁ : Ws w₁)
    (hw₂ : Ws w₂) (ihe : Accepts U text .elements e) :
    Accepts U text .elements (v ++ w₁ ++ ',' :: w₂ ++ e) := by
  intro pos w w' rest hw hw' hd result
  rintro (_ | f)
  · exact .outOfFuel
  have hd₀ : text.drop (pos + w.length + v.length) = w₁ ++ ',' :: (w₂ ++ e ++ w' ++ ']' :: rest) :=
    drop_eq_of_drop (w ++ v) (by simpa using hd) (by simp; omega)
  rw [parseArrayLoop]
  refine (ihv pos w (w₁ ++ ',' :: (w₂ ++ e ++ w' ++ ']' :: rest)) hw (by simpa using hd)
    (Follows.ws hw₁ (.close (by simp))) f).bind fun _ _ => ?_
  dsimp only
  rw [passEnd_of_ws_comma hd₀ hw₁ (by decide)]
  exact (ihe _ w₂ w' rest hw₂ hw' (drop_eq_of_drop (w₁ ++ [',']) (by simpa using hd₀)
    (by simp; omega)) _ f).of_eq (by simp; omega)

theorem accepts_member {k w₁ w₂ v : List Char} (hk : Str k) (hw₁ : Ws w₁) (hw₂ : Ws w₂)
    (ihv : Accepts U text .value v) : Accepts U text .members (k ++ w₁ ++ ':' :: w₂ ++ v) := by
  intro pos w w' rest hw hw' hd result
  rintro (_ | f)
  · exact .outOfFuel
  obtain ⟨key, hkey⟩ := parseObjectLoop_of_key U f result hk hw hw₁
    (show text.drop pos = w ++ k ++ w₁ ++ ':' :: (w₂ ++ v ++ w' ++ '}' :: rest) by simpa using hd)
  have hd₀ : text.drop (pos + w.length + k.length + w₁.length + 1 + w₂.length + v.length) =
      w' ++ '}' :: rest :=
    drop_eq_of_drop (w ++ k ++ w₁ ++ ':' :: w₂ ++ v) (by simpa using hd) (by simp; omega)
  rw [hkey]
  refine (ihv _ w₂ (w' ++ '}' :: rest) hw₂ (drop_eq_of_drop (w ++ k ++ w₁ ++ [':'])
    (by simpa using hd) (by simp; omega)) (Follows.ws hw' (.close (by simp))) f).bind fun _ _ => ?_
  dsimp only
  rw [passEnd_of_ws_close hd₀ hw' (by decide)]
  exact .ok trivial (by simp; omega)

theorem accepts_members {k w₁ w₂ v w₃ w₄ m : List Char} (hk : Str k) (hw₁ : Ws w₁) (hw₂ : Ws w₂)
    (ihv : Accepts U text .value v) (hw₃ : Ws w₃) (hw₄ : Ws w₄) (ihm : Accepts U text .members m) :
    Accepts U text .members (k ++ w₁ ++ ':' :: w₂ ++ v ++ w₃ ++ ',' :: w₄ ++ m) := by
  intro pos w w' rest hw hw' hd result
  rintro (_ | f)
  · exact .outOfFuel
  obtain ⟨key, hkey⟩ := parseObjectLoop_of_key U f result hk hw hw₁ (show text.drop pos =
    w ++ k ++ w₁ ++ ':' :: (w₂ ++ v ++ w₃ ++ ',' :: (w₄ ++ m ++ w' ++ '}' :: rest)) by simpa using hd)
  have hd₀ : text.drop (pos + w.length + k.length + w₁.length + 1 + w₂.length + v.length) =
      w₃ ++ ',' :: (w₄ ++ m ++ w' ++ '}' :: rest) :=
    drop_eq_of_drop (w ++ k ++ w₁ ++ ':' :: w₂ ++ v) (by simpa using hd) (by simp; omega)
  rw [hkey]
  refine (ihv _ w₂ (w₃ ++ ',' :: (w₄ ++ m ++ w' ++ '}' :: rest)) hw₂
    (drop_eq_of_drop (w ++ k ++ w₁ ++ [':']) (by simpa using hd) (by simp; omega))
    (Follows.ws hw₃ (.close (by simp))) f).bind fun _ _ => ?_
  dsimp only
  rw [passEnd_of_ws_comma hd₀ hw₃ (by decide)]
  exact (ihm _ w₄ w' rest hw₄ hw' (drop_eq_of_drop (w₃ ++ [',']) (by simpa using hd₀)
    (by simp; omega)) _ f).of_eq (by simp; omega)

/-- **Every derivation is read whole**: for each nonterminal, the parser function that reads it
consumes exactly the text the derivation spans, on any fuel that does not run out. -/
theorem accepts {s : Sym} {d : List Char} (h : Json (WithinMaxStrDigits U) s d) : Accepts U text s d := by
  induction h with
  | literal h => exact accepts_literal h
  | number h => exact accepts_number h
  | string h => exact accepts_string h
  | emptyObject hw => exact accepts_emptyObject hw
  | object hw₁ hm hw₂ ih => exact accepts_object hw₁ hm ih hw₂
  | emptyArray hw => exact accepts_emptyArray hw
  | array hw₁ he hw₂ ih => exact accepts_array hw₁ he ih hw₂
  | element _ ih => exact accepts_element ih
  | elements _ hw₁ hw₂ _ ihv ihe => exact accepts_elements ihv hw₁ hw₂ ihe
  | member hk hw₁ hw₂ _ ih => exact accepts_member hk hw₁ hw₂ ih
  | members hk hw₁ hw₂ _ hw₃ hw₄ _ ihv ihm => exact accepts_members hk hw₁ hw₂ ihv hw₃ hw₄ ihm

end

/-! ## §6 — whole texts -/

/-- `parse` returns the value `parse_value` read when only whitespace follows it. -/
theorem parse_of_value_at_end {U : UnicodeDigits} {text : List Char} {v : PyValue} {p : Nat}
    (hv : parseValue U (3 * text.length + 1) text (skipWhitespace text 0) = .ok (v, p))
    (hend : skipWhitespace text p = text.length) : parse U text = .ok v := by
  simp only [parse, hv, ok_bind, hend, List.getElem?_len_le le_rfl]
  rfl

/-- **`parse` accepts every exponent-free JSON text whose integers `int()` takes**: on any text
RFC 8259 derives, numbers without exponent and integers of at most
`sys.get_int_max_str_digits()` digits, it returns a value, raising neither `ParseError` nor
`IndexError` nor `ValueError`, whatever Python's digit tables hold beyond ASCII. -/
theorem parse_accepts_json_text (U : UnicodeDigits) (text : List Char)
    (h : JsonTextOf (WithinMaxStrDigits U) text) : ∃ v, parse U text = .ok v := by
  obtain ⟨w₁, d, w₂, hw₁, hd, hw₂, rfl⟩ := h
  obtain ⟨c, t, rfl, hc, -⟩ := hd.value_head fun _ h => h.1
  have hskip : skipWhitespace (w₁ ++ c :: t ++ w₂) 0 = w₁.length := by
    simpa using (skipWhitespace_to (show (w₁ ++ c :: t ++ w₂).drop 0 = w₁ ++ c :: (t ++ w₂) by
      simp) hw₁ hc).1
  have hrun : Accepts U (w₁ ++ c :: t ++ w₂) .value (c :: t) := accepts hd
  obtain ⟨v, -, hv⟩ := (hrun w₁.length [] w₂ (by simp [Ws]) (by simp)
    (by simpa using Follows.ws hw₂ .nil) (3 * (w₁ ++ c :: t ++ w₂).length + 1)).resolve_left
    ((ne_outOfFuel_all U _ _ _).1 (by omega))
  refine ⟨v, parse_of_value_at_end (by rw [hskip]; exact hv) ?_⟩
  rw [skipWhitespace_of_ws (drop_eq_of_drop (w₁ ++ c :: t)
    (show (w₁ ++ c :: t ++ w₂).drop 0 = (w₁ ++ c :: t) ++ (w₂ ++ []) by simp) (by simp)) hw₂
    (by simp)]
  simp; omega

/-- A text of whitespace and `null` is parsed. -/
theorem parse_accepts_null :
    JsonTextOf (WithinMaxStrDigits .latin1) (' ' :: "null".toList ++ ['\n']) ∧
      ∃ v, parse .latin1 (' ' :: "null".toList ++ ['\n']) = .ok v := by
  have h : JsonTextOf (WithinMaxStrDigits .latin1) (' ' :: "null".toList ++ ['\n']) :=
    ⟨[' '], _, ['\n'], by simp [Ws, IsWs], .literal (by simp), by simp [Ws, IsWs], rfl⟩
  exact ⟨h, parse_accepts_json_text .latin1 _ h⟩

/-! ## §7 — past the digit limit -/

/-- **An integer longer than `sys.get_int_max_str_digits()` is refused**: `parse_number` scans a
text that is one such numeral whole, and `int()` raises `ValueError`. -/
theorem parse_int_valueError (U : UnicodeDigits) {i : List Char} (hi : IntPart i)
    (hlim : U.exceedsMaxStrDigits i.length) : parse U i = .error .valueError := by
  obtain ⟨d, ds, rfl, hdig⟩ := hi.cons_digits
  have hd : d.isDigit := hdig d (List.mem_cons_self _ _)
  have hskip : skipWhitespace (d :: ds) 0 = 0 := by
    simpa using (skipWhitespace_to (show (d :: ds).drop 0 = [] ++ d :: ds by simp) (by simp [Ws])
      (not_isWs_of_isDigit hd)).1
  have hval : numberValue U (d :: ds) = .error .valueError := by
    have hdot : '.' ∉ d :: ds := fun h => by simpa using hdig _ h
    rw [numberValue, if_neg hdot, pyInt.eq_2 _ _ (by rintro _ ⟨⟩; simp at hd), intValue,
      if_pos hlim]
    rfl
  have hn : Number (d :: ds) := ⟨[], d :: ds, [], .inl rfl, hi, .inl rfl, by simp⟩
  rw [parse, hskip, parseValue_of_number (show (d :: ds)[skipWhitespace (d :: ds) 0]? = some d by
      rw [hskip]; simp) (.inr (isdigit_of_isDigit U hd)), hskip,
    parseNumber_of_number U hn (show (d :: ds).drop 0 = d :: ds ++ [] by simp) .nil, hval]
  rfl

/-- `'1' * 4301`, an RFC 8259 JSON text, has one digit more than CPython's default limit. -/
theorem parse_long_int_valueError :
    JsonText (List.replicate 4301 '1') ∧
      parse .latin1 (List.replicate 4301 '1') = .error .valueError := by
  have hi : IntPart (List.replicate 4301 '1') :=
    .digits (by decide) (by decide) fun c hc => by rw [List.eq_of_mem_replicate hc]; decide
  have hlen : (List.replicate 4301 '1').length = 4301 := List.length_replicate _ _
  generalize List.replicate 4301 '1' = l at hi hlen ⊢
  have hlim : UnicodeDigits.latin1.exceedsMaxStrDigits l.length := by rw [hlen]; decide
  exact ⟨⟨[], l, [], by simp [Ws], .number ⟨[], l, [], .inl rfl, hi, .inl rfl, by simp⟩,
    by simp [Ws], by simp⟩, parse_int_valueError .latin1 hi hlim⟩

end BlogTutorials.JSONParser
