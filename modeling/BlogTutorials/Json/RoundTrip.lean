import BlogTutorials.Json.Dumps

/-!
# BlogTutorials — `parse` undoes `json.dumps` on what it can hold

A string character outside printable ASCII, newline, carriage return and tab comes back changed
from the round trip through the encoder. Nothing else does: for every value `Dumpable` admits,
`parse` returns the value `dumps` encoded. Integers are held to `sys.get_int_max_str_digits()`,
as `json.dumps` itself is: past it both `str()` and `int()` raise `ValueError`.

* **`numberValue_toString`** — `int()` reads back the numeral `str()` writes, for every integer
  within the limit.
* **`Dumpable.readsBack`** — one lemma per kind of value: `parse_value` reads the encoding of `v`
  back from any position of any text, after whitespace and before anything that may follow a
  value there (`ReadsBack`). The `while True` loops of `parse_array` and `parse_object` are read by
  induction on the items (`readsBack_items`, `readsBack_members`); a dict's keys are distinct, so
  every `result[key] = value` appends (`dictSet_of_not_mem`) and the items keep their order.
* **`parse_dumps`** — hence `parse (dumps v) = v`.
-/

namespace BlogTutorials.JSONParser

/-! ## §1 — integers

`str(i)` writes `Nat.toDigits 10 |i|`, after a `-` when `i < 0`; `int()` folds the digits back
from the most significant one. -/

section
variable (U : UnicodeDigits)

theorem digitChar_digit {d : Nat} (hd : d < 10) :
    (Nat.digitChar d).isDigit ∧ (Nat.digitChar d).toNat - '0'.toNat = d := by
  have key : ∀ d < 10, (Nat.digitChar d).isDigit ∧ (Nat.digitChar d).toNat - '0'.toNat = d := by
    decide
  exact key d hd

/-- One pass of `Nat.toDigitsCore`, the loop behind `str()`: the last digit goes in front. -/
theorem toDigitsCore_succ (fuel n : Nat) (ds : List Char) :
    Nat.toDigitsCore 10 (fuel + 1) n ds =
      if n / 10 = 0 then Nat.digitChar (n % 10) :: ds
      else Nat.toDigitsCore 10 fuel (n / 10) (Nat.digitChar (n % 10) :: ds) := rfl

/-- `int()` reads back the digits `str()` writes, from the most significant one. -/
theorem digitsValue_toDigitsCore : ∀ fuel n (ds : List Char), n < fuel →
    digitsValue U 0 (Nat.toDigitsCore 10 fuel n ds) = digitsValue U n ds
  | 0, _, _, h => absurd h (Nat.not_lt_zero _)
  | fuel + 1, n, ds, h => by
    have hd := digitChar_digit (Nat.mod_lt n (by decide : 10 > 0))
    have hlast : ∀ acc, digitsValue U acc (Nat.digitChar (n % 10) :: ds) =
        digitsValue U (10 * acc + n % 10) ds := fun acc => by
      rw [digitsValue, U.decimal_ascii _ hd.1, hd.2]
    rw [toDigitsCore_succ]
    split_ifs with h0
    · rw [hlast, Nat.mul_zero, Nat.zero_add, Nat.mod_eq_of_lt (by omega)]
    · rw [digitsValue_toDigitsCore fuel (n / 10) _ (by omega), hlast, Nat.div_add_mod]

theorem toDigitsCore_digits : ∀ fuel n (ds : List Char), n < fuel →
    (∀ c ∈ ds, c.isDigit) →
    ∃ d cs, Nat.toDigitsCore 10 fuel n ds = d :: cs ∧ (0 < n → d ≠ '0') ∧
      ∀ c ∈ d :: cs, c.isDigit
  | 0, _, _, h, _ => absurd h (Nat.not_lt_zero _)
  | fuel + 1, n, ds, h, hds => by
    have hd := digitChar_digit (Nat.mod_lt n (by decide : 10 > 0))
    have hall : ∀ c ∈ Nat.digitChar (n % 10) :: ds, c.isDigit :=
      List.forall_mem_cons.2 ⟨hd.1, hds⟩
    rw [toDigitsCore_succ]
    split_ifs with h0
    · refine ⟨_, ds, rfl, fun hn hz => ?_, hall⟩
      have := hd.2
      rw [hz] at this
      omega
    · obtain ⟨d, cs, he, hpos, hdig⟩ := toDigitsCore_digits fuel (n / 10) _ (by omega) hall
      exact ⟨d, cs, he, fun _ => hpos (by omega), hdig⟩

theorem intPart_toDigits (n : Nat) : IntPart (Nat.toDigits 10 n) := by
  obtain ⟨d, cs, he, hpos, hdig⟩ :=
    toDigitsCore_digits (n + 1) n [] (Nat.lt_succ_self n) (by simp)
  rw [show Nat.toDigits 10 n = Nat.toDigitsCore 10 (n + 1) n [] from rfl, he]
  rcases Nat.eq_zero_or_pos n with rfl | hn
  · have h0 : Nat.toDigitsCore 10 1 0 [] = ['0'] := rfl
    rw [h0] at he
    cases he
    exact .zero
  · exact .digits (hdig d (List.mem_cons_self _ _)) (hpos hn)
      fun c hc => hdig c (List.mem_cons_of_mem _ hc)

/-- `str(i)`: an optional `-`, then the digits of `|i|`. -/
theorem number_toString (i : Int) : Number (toString i).toList := by
  cases i with
  | ofNat m =>
    exact ⟨[], _, [], .inl rfl, intPart_toDigits m, .inl rfl, (List.append_nil _).symm⟩
  | negSucc m =>
    exact ⟨['-'], _, [], .inr rfl, intPart_toDigits (m + 1), .inl rfl, (List.append_nil _).symm⟩

/-- **`int()` reads back `str()`**, for every integer whose digits are within
`sys.get_int_max_str_digits()`. -/
theorem numberValue_toString (i : Int)
    (hi : U.exceedsMaxStrDigits (Nat.toDigits 10 i.natAbs).length = false) :
    numberValue U (toString i).toList = .ok (.int i) := by
  have hdigits : ∀ n, U.exceedsMaxStrDigits (Nat.toDigits 10 n).length = false →
      ∃ d cs, Nat.toDigits 10 n = d :: cs ∧ d ≠ '-' ∧ '.' ∉ d :: cs ∧
        intValue U (d :: cs) = .ok n := by
    intro n hn
    obtain ⟨d, cs, he, -, hdig⟩ :=
      toDigitsCore_digits (n + 1) n [] (Nat.lt_succ_self n) (by simp)
    have he' : Nat.toDigits 10 n = d :: cs := he
    refine ⟨d, cs, he', fun h => ?_, fun h => ?_, ?_⟩
    · simpa [h] using hdig d (List.mem_cons_self _ _)
    · simpa using hdig _ h
    · rw [intValue, if_neg (by rw [← he']; simp [hn]), decimalValue, if_neg (List.cons_ne_nil _ _),
        ← he, digitsValue_toDigitsCore U _ _ _ (Nat.lt_succ_self n)]
      rfl
  cases i with
  | ofNat m =>
    obtain ⟨d, cs, he, hminus, hdot, hval⟩ := hdigits m hi
    show numberValue U (Nat.toDigits 10 m) = _
    rw [he, numberValue, if_neg hdot, pyInt.eq_2 _ _ (by simp [hminus]), hval]
    rfl
  | negSucc m =>
    obtain ⟨d, cs, he, -, hdot, hval⟩ := hdigits (m + 1) hi
    show numberValue U ('-' :: Nat.toDigits 10 (m + 1)) = _
    rw [he, numberValue, if_neg (by simpa using hdot), pyInt, hval]
    rfl

end

/-! ## §2 — encodable values -/

/-- The values `json.dumps` writes that `parse` is to read back: no floats (`json.dumps` writes
them with `repr`, exponents included, and the parser has no exponent branch), integers whose
digits are within `sys.get_int_max_str_digits()` (`json.dumps` raises `ValueError` on longer
ones), strings and keys made of characters that survive (`Roundtrips`), and dicts with distinct
keys, as every Python dict has. -/
inductive Dumpable (U : UnicodeDigits) : PyValue → Prop where
  | none : Dumpable U .none
  | bool (b : Bool) : Dumpable U (.bool b)
  | int (i : Int) (hi : U.exceedsMaxStrDigits (Nat.toDigits 10 i.natAbs).length = false) :
      Dumpable U (.int i)
  | str {s : String} (hs : ∀ c ∈ s.data, Roundtrips c) : Dumpable U (.str s)
  | list {items : List PyValue} (h : ∀ v ∈ items, Dumpable U v) : Dumpable U (.list items)
  | dict {items : List (String × PyValue)}
      (hkeys : ∀ kv ∈ items, ∀ c ∈ kv.1.data, Roundtrips c)
    (hnodup : (items.map Prod.fst).Nodup) (h : ∀ kv ∈ items, Dumpable U kv.2) :
      Dumpable U (.dict items)

theorem Dumpable.dumps_head {U : UnicodeDigits} {v : PyValue} (h : Dumpable U v) :
    ∃ c t, dumps v = c :: t ∧ ¬ IsWs c ∧ c ≠ ']' := by
  cases h with
  | none => exact ⟨_, _, rfl, by decide, by decide⟩
  | bool b => cases b <;> exact ⟨_, _, rfl, by decide, by decide⟩
  | int i _ =>
    obtain ⟨c, t, ht, hc⟩ := (number_toString i).head
    refine ⟨c, t, ht, ?_, ?_⟩
    · rcases hc with rfl | hc
      · decide
      · exact not_isWs_of_isDigit hc
    · rintro rfl; rcases hc with hc | hc <;> simp at hc
  | str | list | dict => exact ⟨_, _, rfl, by decide, by decide⟩

/-! ## §3 — reading each kind of value back -/

section
variable (U : UnicodeDigits) (text : List Char)

/-- `parse_value` reads `v` back from its encoding, after any whitespace and before whatever
may follow a value in a JSON text. -/
def ReadsBack (v : PyValue) : Prop :=
  ∀ pos w rest, Ws w → text.drop pos = w ++ dumps v ++ rest → Follows rest →
    ∀ f, Returns (parseValue U f text pos) (· = v) (pos + w.length + (dumps v).length)

variable {U text}

theorem readsBack_literal {c : Char} {literal : String} {v : PyValue} {t : List Char}
    (hc : (c, literal, v) ∈ [('t', "true", .bool true), ('f', "false", .bool false),
      ('n', "null", PyValue.none)])
    (hv : dumps v = literal.toList) (ht : literal.toList = c :: t) (hws : ¬ IsWs c) :
    ReadsBack U text v := by
  intro pos w rest hw hd _
  rw [hv] at hd ⊢
  have ⟨hskip, hfirst⟩ := skipWhitespace_to (show text.drop pos = w ++ c :: (t ++ rest) by
    rw [hd, ht]; simp) hw hws
  rintro (_ | f)
  · exact .outOfFuel
  rw [parseValue_of_literal (hskip ▸ hfirst) hc, hskip,
    parseLiteral_of_drop (drop_add_of_drop (by simpa using hd))]
  exact .ok rfl (by omega)

theorem readsBack_int (i : Int)
    (hi : U.exceedsMaxStrDigits (Nat.toDigits 10 i.natAbs).length = false) :
    ReadsBack U text (.int i) := by
  intro pos w rest hw hd hr
  have hn := number_toString i
  obtain ⟨c, t, hct, hc⟩ := hn.head
  change text.drop pos = w ++ (toString i).toList ++ rest at hd
  change ∀ f, Returns _ _ (pos + w.length + (toString i).toList.length)
  have ⟨hskip, hfirst⟩ := skipWhitespace_to (show text.drop pos = w ++ c :: (t ++ rest) by
    rw [hd, hct]; simp) hw (by rcases hc with rfl | hc; decide; exact not_isWs_of_isDigit hc)
  rintro (_ | f)
  · exact .outOfFuel
  rw [parseValue_of_number (hskip ▸ hfirst) (hc.imp_right (isdigit_of_isDigit U)), hskip,
    parseNumber_of_number U hn (drop_add_of_drop (by simpa using hd)) hr, numberValue_toString U i hi]
  exact .ok rfl rfl

theorem readsBack_str {s : String} (hs : ∀ c ∈ s.data, Roundtrips c) :
    ReadsBack U text (.str s) := by
  intro pos w rest hw hd _
  change text.drop pos = w ++ dumpsString s ++ rest at hd
  change ∀ f, Returns _ _ (pos + w.length + (dumpsString s).length)
  have hd₀ : text.drop pos = w ++ '"' :: (s.data.flatMap escapeChar ++ '"' :: rest) := by
    simpa [dumpsString] using hd
  have ⟨hskip, hfirst⟩ := skipWhitespace_to hd₀ hw (by decide)
  rintro (_ | f)
  · exact .outOfFuel
  rw [parseValue_of_string (hskip ▸ hfirst), hskip,
    parseString_of_escaped (escaped_flatMap s.data) (by simpa using drop_add_of_drop hd₀),
    (flatMap_readBack_eq_self_iff _).2 hs]
  exact .ok rfl (by simp [dumpsString]; omega)

theorem ws_space : Ws [' '] := by simp [Ws, IsWs]

/-- The `while True` loop of `parse_array` reads the encoded items back, one pass each, appends
them to `result`, and returns after the `]`. -/
theorem readsBack_items {items : List PyValue} (h : ∀ v ∈ items, ReadsBack U text v) :
    items ≠ [] → ∀ pos w rest result f, Ws w →
      text.drop pos = w ++ dumpsItems items ++ ']' :: rest →
      Returns (parseArrayLoop U f text pos result) (· = .list (result ++ items))
        (pos + w.length + (dumpsItems items).length + 1) := by
  induction items with
  | nil => exact fun hne => absurd rfl hne
  | cons v vs ih =>
    rintro - pos w rest result (_ | f) hw hd
    · exact .outOfFuel
    have hv := h v (List.mem_cons_self _ _)
    rw [parseArrayLoop]
    cases vs with
    | nil =>
      -- the last item, then `]`
      have hd₀ : text.drop (pos + w.length + (dumps v).length) = [] ++ ']' :: rest :=
        drop_eq_of_drop (w ++ dumps v) (by simpa [dumpsItems] using hd) (by simp [Nat.add_assoc])
      refine (hv pos w (']' :: rest) hw (by simpa [dumpsItems] using hd) (.close (by simp))
        f).bind ?_
      intro _ ha
      rw [ha]
      dsimp only
      rw [passEnd_of_ws_close hd₀ (by simp [Ws]) (by decide)]
      exact .ok rfl (by simp [dumpsItems])
    | cons v' vs =>
      -- an item, then `, ` and the next pass
      have hd₀ : text.drop (pos + w.length + (dumps v).length) =
          [] ++ ',' :: (' ' :: dumpsItems (v' :: vs) ++ ']' :: rest) :=
        drop_eq_of_drop (w ++ dumps v) (by simpa [dumpsItems] using hd) (by simp [Nat.add_assoc])
      refine (hv pos w _ hw (by simpa [dumpsItems] using hd) (.close (by simp)) f).bind ?_
      intro _ ha
      rw [ha]
      dsimp only
      rw [passEnd_of_ws_comma hd₀ (by simp [Ws]) (by decide),
        show result ++ v :: v' :: vs = (result ++ [v]) ++ v' :: vs by simp]
      exact (ih (fun u hu => h u (List.mem_cons_of_mem _ hu)) (List.cons_ne_nil _ _) _ [' '] rest
        _ f ws_space (by simpa using drop_succ_of_drop hd₀)).of_eq (by simp [dumpsItems]; omega)

theorem readsBack_list {items : List PyValue} (hdump : ∀ v ∈ items, Dumpable U v)
    (h : ∀ v ∈ items, ReadsBack U text v) : ReadsBack U text (.list items) := by
  intro pos w rest hw hd _
  change text.drop pos = w ++ ('[' :: dumpsItems items ++ [']']) ++ rest at hd
  change ∀ f, Returns _ _ (pos + w.length + ('[' :: (dumpsItems items ++ [']'])).length)
  refine returns_container (by decide) hw (by simpa using hd) (fun _ => rfl)
    (fun _ => parseValue_of_array) fun f => ?_
  have hd₀ := drop_add_of_drop (show text.drop pos =
    w ++ '[' :: (dumpsItems items ++ ']' :: rest) by simpa using hd)
  rw [parseArray]
  cases items with
  | nil =>
    rw [parseOpening_of_empty (show text.drop (pos + w.length) = '[' :: ([] ++ ']' :: rest) by
      simpa [dumpsItems] using hd₀) (by simp [Ws]) (by decide)]
    exact .ok rfl (by simp [dumpsItems])
  | cons v vs =>
    obtain ⟨c, t, hct, hc, hcc⟩ := (hdump v (List.mem_cons_self _ _)).dumps_head
    have hhead : ∃ t', dumpsItems (v :: vs) = c :: t' := by
      cases vs <;> simp [dumpsItems, hct]
    obtain ⟨t', ht'⟩ := hhead
    rw [parseOpening_of_body (show text.drop (pos + w.length) =
      '[' :: ([] ++ c :: (t' ++ ']' :: rest)) by simpa [ht'] using hd₀) (by simp [Ws]) hc hcc]
    exact (readsBack_items h (List.cons_ne_nil _ _) _ [] rest [] f (by simp [Ws])
      (by simpa using drop_succ_of_drop hd₀)).of_eq (by simp; omega)

/-- `result[key] = value` for a key not yet in the dict appends the item. -/
theorem dictSet_of_not_mem {items : List (String × PyValue)} {key : String}
    (h : key ∉ items.map Prod.fst) (value : PyValue) :
    dictSet items key value = items ++ [(key, value)] := by
  rw [dictSet, if_neg]
  simpa using h

/-- A pass of the object loop reads an encoded key back, and the colon after it. -/
theorem parseObjectLoop_of_dumpsKey {k : String} (hk : ∀ c ∈ k.data, Roundtrips c)
    {w after : List Char} {pos f : Nat} {result : List (String × PyValue)} (hw : Ws w)
    (hd : text.drop pos = w ++ dumpsString k ++ ':' :: after) :
    parseObjectLoop U (f + 1) text pos result = (do
      let (value, pos) ← parseValue U f text (pos + w.length + (dumpsString k).length + 1)
      passEnd text pos '}' (.dict (dictSet result k value))
        fun pos => parseObjectLoop U f text pos (dictSet result k value)) := by
  have hd₀ : text.drop pos = w ++ '"' :: (k.data.flatMap escapeChar ++ '"' :: ':' :: after) := by
    simpa [dumpsString] using hd
  have hq : text.drop (pos + w.length + (dumpsString k).length) = [] ++ ':' :: after :=
    drop_eq_of_drop (w ++ dumpsString k) (by simpa using hd) (by simp [Nat.add_assoc])
  have hs : parseString text (skipWhitespace text pos) =
      .ok (k, pos + w.length + (dumpsString k).length) := by
    rw [(skipWhitespace_to hd₀ hw (by decide)).1, parseString_of_escaped (escaped_flatMap k.data)
      (by simpa using drop_add_of_drop hd₀), (flatMap_readBack_eq_self_iff _).2 hk]
    simp [dumpsString]; omega
  have ⟨hskip, hcolon⟩ := skipWhitespace_to hq (by simp [Ws]) (by decide)
  rw [List.length_nil, Nat.add_zero] at hskip hcolon
  rw [parseObjectLoop_of_member hs (by rw [hskip]; exact hcolon), hskip]

/-- A pass of the object loop over an encoded member `k: v` whose key is not in the dict yet:
key, colon and value are read back, the item is appended, and `passEnd` decides the rest. -/
theorem parseObjectLoop_of_encoded {k : String} {v : PyValue} {result : List (String × PyValue)}
    (hk : ∀ c ∈ k.data, Roundtrips c) (hv : ReadsBack U text v) (hnew : k ∉ result.map Prod.fst)
    {w after : List Char} {pos f : Nat} {P : PyValue → Prop} {p' : Nat} (hw : Ws w)
    (hd : text.drop pos = w ++ dumpsString k ++ ':' :: ' ' :: dumps v ++ after)
    (hafter : Follows after)
    (hend : Returns (passEnd text (pos + w.length + (dumpsString k).length + 1 +
      [' '].length + (dumps v).length) '}' (.dict (result ++ [(k, v)]))
        fun pos => parseObjectLoop U f text pos (result ++ [(k, v)])) P p') :
    Returns (parseObjectLoop U (f + 1) text pos result) P p' := by
  rw [parseObjectLoop_of_dumpsKey hk hw (show text.drop pos = w ++ dumpsString k ++ ':' ::
    (' ' :: dumps v ++ after) by simpa using hd)]
  simp only [dictSet_of_not_mem hnew]
  exact (hv _ [' '] after ws_space (drop_eq_of_drop (w ++ dumpsString k ++ [':'])
    (by simpa using hd) (by simp; omega)) hafter f).bind (by rintro _ rfl; exact hend)

/-- The `while True` loop of `parse_object` reads the encoded members back, one pass each. Keys
not yet in `result` are appended in order, so the dict comes back as written. -/
theorem readsBack_members {items : List (String × PyValue)}
    (hkeys : ∀ kv ∈ items, ∀ c ∈ kv.1.data, Roundtrips c)
    (hnodup : (items.map Prod.fst).Nodup)
    (h : ∀ kv ∈ items, ReadsBack U text kv.2) :
    items ≠ [] → ∀ pos w rest result f, Ws w →
      text.drop pos = w ++ dumpsMembers items ++ '}' :: rest →
      (∀ kv ∈ items, kv.1 ∉ result.map Prod.fst) →
      Returns (parseObjectLoop U f text pos result) (· = .dict (result ++ items))
        (pos + w.length + (dumpsMembers items).length + 1) := by
  induction items with
  | nil => exact fun hne => absurd rfl hne
  | cons kv kvs ih =>
    obtain ⟨k, v⟩ := kv
    rintro - pos w rest result (_ | f) hw hd hfresh
    · exact .outOfFuel
    have hk := hkeys (k, v) (List.mem_cons_self _ _)
    have hv := h (k, v) (List.mem_cons_self _ _)
    have hnew := hfresh (k, v) (List.mem_cons_self _ _)
    cases kvs with
    | nil =>
      -- the last member, then `}`
      have hd₀ : text.drop pos = w ++ dumpsString k ++ ':' :: ' ' :: dumps v ++ '}' :: rest := by
        simpa [dumpsMembers] using hd
      have hd₁ : text.drop (pos + w.length + (dumpsString k).length + 1 + [' '].length +
          (dumps v).length) = [] ++ '}' :: rest :=
        drop_eq_of_drop (w ++ dumpsString k ++ ':' :: ' ' :: dumps v) hd₀ (by simp; omega)
      refine parseObjectLoop_of_encoded hk hv hnew hw hd₀ (.close (by simp)) ?_
      rw [passEnd_of_ws_close hd₁ (by simp [Ws]) (by decide)]
      exact .ok rfl (by simp [dumpsMembers]; omega)
    | cons kv' kvs =>
      -- a member, then `, ` and the next pass
      have hd₀ : text.drop pos = w ++ dumpsString k ++ ':' :: ' ' :: dumps v ++
          ',' :: (' ' :: dumpsMembers (kv' :: kvs) ++ '}' :: rest) := by
        simpa [dumpsMembers] using hd
      have hd₁ : text.drop (pos + w.length + (dumpsString k).length + 1 + [' '].length +
          (dumps v).length) = [] ++ ',' :: (' ' :: dumpsMembers (kv' :: kvs) ++ '}' :: rest) :=
        drop_eq_of_drop (w ++ dumpsString k ++ ':' :: ' ' :: dumps v) hd₀ (by simp; omega)
      have hk' : k ∉ (kv' :: kvs).map Prod.fst := (List.nodup_cons.1 hnodup).1
      have hfresh' : ∀ kv ∈ kv' :: kvs, kv.1 ∉ (result ++ [(k, v)]).map Prod.fst := by
        intro kv hkv
        simp only [List.map_append, List.mem_append, List.map_cons, List.map_nil,
          List.mem_singleton, not_or]
        exact ⟨hfresh kv (List.mem_cons_of_mem _ hkv),
          fun heq => hk' (heq ▸ List.mem_map_of_mem Prod.fst hkv)⟩
      refine parseObjectLoop_of_encoded hk hv hnew hw hd₀ (.close (by simp)) ?_
      rw [passEnd_of_ws_comma hd₁ (by simp [Ws]) (by decide),
        show result ++ (k, v) :: kv' :: kvs = (result ++ [(k, v)]) ++ kv' :: kvs by simp]
      exact (ih (fun kv hkv => hkeys kv (List.mem_cons_of_mem _ hkv)) (List.nodup_cons.1 hnodup).2
        (fun kv hkv => h kv (List.mem_cons_of_mem _ hkv)) (List.cons_ne_nil _ _) _ [' '] rest _ f
        ws_space (by simpa using drop_succ_of_drop hd₁) hfresh').of_eq
        (by simp [dumpsMembers]; omega)

theorem readsBack_dict {items : List (String × PyValue)}
    (hkeys : ∀ kv ∈ items, ∀ c ∈ kv.1.data, Roundtrips c)
    (hnodup : (items.map Prod.fst).Nodup)
    (h : ∀ kv ∈ items, ReadsBack U text kv.2) : ReadsBack U text (.dict items) := by
  intro pos w rest hw hd _
  change text.drop pos = w ++ ('{' :: dumpsMembers items ++ ['}']) ++ rest at hd
  change ∀ f, Returns _ _ (pos + w.length + ('{' :: (dumpsMembers items ++ ['}'])).length)
  refine returns_container (by decide) hw (by simpa using hd) (fun _ => rfl)
    (fun _ => parseValue_of_object) fun f => ?_
  have hd₀ := drop_add_of_drop (show text.drop pos =
    w ++ '{' :: (dumpsMembers items ++ '}' :: rest) by simpa using hd)
  rw [parseObject]
  cases items with
  | nil =>
    rw [parseOpening_of_empty (show text.drop (pos + w.length) = '{' :: ([] ++ '}' :: rest) by
      simpa [dumpsMembers] using hd₀) (by simp [Ws]) (by decide)]
    exact .ok rfl (by simp [dumpsMembers])
  | cons kv kvs =>
    have hhead : ∃ t, dumpsMembers (kv :: kvs) = '"' :: t := by
      cases kvs <;> simp [dumpsMembers, dumpsString]
    obtain ⟨t, ht⟩ := hhead
    rw [parseOpening_of_body (show text.drop (pos + w.length) =
      '{' :: ([] ++ '"' :: (t ++ '}' :: rest)) by simpa [ht] using hd₀) (by simp [Ws]) (by decide)
      (by decide)]
    exact (readsBack_members hkeys hnodup h (List.cons_ne_nil _ _) _ [] rest [] f (by simp [Ws])
      (by simpa using drop_succ_of_drop hd₀) (by simp)).of_eq (by simp; omega)

end

/-! ## §4 — whole texts -/

/-- **Every encodable value is read back**, from any position of any text that holds its
encoding after whitespace and before what may follow a value. -/
theorem Dumpable.readsBack (U : UnicodeDigits) (text : List Char) {v : PyValue} (h : Dumpable U v) :
    ReadsBack U text v := by
  induction h with
  | none => exact readsBack_literal (by simp) rfl rfl (by decide)
  | bool b => cases b <;> exact readsBack_literal (by simp) rfl rfl (by decide)
  | int i hi => exact readsBack_int i hi
  | str hs => exact readsBack_str hs
  | list hdump ih => exact readsBack_list hdump ih
  | dict hkeys hnodup _ ih => exact readsBack_dict hkeys hnodup ih

/-- **`parse` undoes `json.dumps`** on every value without floats whose strings and keys hold
only printable ASCII, newlines, carriage returns and tabs: `None`, booleans, integers of either
sign with at most `sys.get_int_max_str_digits()` digits, and lists and dicts of such values
nested to any depth, dict items in their order. -/
theorem parse_dumps (U : UnicodeDigits) {v : PyValue} (h : Dumpable U v) :
    parse U (dumps v) = .ok v := by
  obtain ⟨c, t, hct, hc, -⟩ := h.dumps_head
  have hskip := (skipWhitespace_to (show (dumps v).drop 0 = [] ++ c :: t by simp [hct])
    (by simp [Ws]) hc).1
  obtain ⟨_, ha, hv⟩ := (h.readsBack U (dumps v) 0 [] [] (by simp [Ws]) (by simp) .nil
    (3 * (dumps v).length + 1)).resolve_left ((ne_outOfFuel_all U _ _ _).1 (by omega))
  rw [ha] at hv
  refine parse_of_value_at_end (by rw [hskip]; exact hv) ?_
  rw [skipWhitespace_of_ws (show (dumps v).drop (0 + [].length + (dumps v).length) = [] ++ [] by
    simp) (by simp [Ws]) (by simp)]
  simp

/-- The input of `test_json_parser` marked as the one that triggers the bug,
`{"quote": "He said \"hello\""}`, is the encoding of its dict, and `parse` reads that dict back,
quotes included. -/
theorem parse_dumps_quote :
    Dumpable .latin1 (.dict [("quote", .str "He said \"hello\"")]) ∧
      parse .latin1 (dumps (.dict [("quote", .str "He said \"hello\"")])) =
        .ok (.dict [("quote", .str "He said \"hello\"")]) := by
  have h : Dumpable .latin1 (.dict [("quote", .str "He said \"hello\"")]) :=
    .dict (by decide) (by decide) fun kv hkv => by
      rw [List.mem_singleton.1 hkv]
      exact .str (by decide)
  exact ⟨h, parse_dumps .latin1 h⟩

example : dumps (.dict [("quote", .str "He said \"hello\"")]) =
    "\x7b\"quote\": \"He said \\\"hello\\\"\"\x7d".toList := by
  decide

end BlogTutorials.JSONParser
