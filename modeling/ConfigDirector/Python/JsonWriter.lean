/-
`json.dumps` in any of its layouts, and how `json.loads` reads what it writes of a string or a number. A string
comes back as it is, unless two lone surrogates stand next to each other: their escapes read as one character.
-/
import ConfigDirector.Python.Encodable
import ConfigDirector.Python.JsonReader
import ConfigDirector.Python.NumberToString
import ConfigDirector.Python.Raise

namespace Python

/-! ## Model -/

/-- `int.__repr__`, which raises for too many digits. -/
def intRepr (n : ℤ) : Except Exc Text :=
  if maxStrDigits < (natText n.natAbs).length then .error .valueError else .ok (intText n)

/-- `json.dumps` in a style. -/
def dumps (style : JsonStyle) (v : PyValue) : Except Exc Text := dumpsWith intRepr style v

def dumpsList (style : JsonStyle) (vs : List PyValue) : Except Exc (List Text) := dumpsListWith intRepr style vs

def dumpsEntries (style : JsonStyle) (es : List (Text × PyValue)) : Except Exc (List Text) :=
  dumpsEntriesWith intRepr style es

section

variable (style : JsonStyle)

theorem dumps_int (n : ℤ) : dumps style (.int n) = intRepr n := rfl

theorem dumps_float (x : PyFloat) : dumps style (.float x) =
    if style.allowNan || x.isFinite then .ok (jsonFloat x) else .error .valueError := rfl

theorem dumps_list (items : List PyValue) : dumps style (.list items) = do
    let parts ← dumpsList style items
    return lit "[" ++ join style.itemSeparator parts ++ lit "]" := rfl

theorem dumps_dict (entries : List (Text × PyValue)) : dumps style (.dict entries) = do
    let parts ← dumpsEntries style entries
    return lit "\x7b" ++ join style.itemSeparator parts ++ lit "\x7d" := rfl

theorem dumpsList_cons (v : PyValue) (vs : List PyValue) : dumpsList style (v :: vs) = do
    let t ← dumps style v
    let ts ← dumpsList style vs
    return t :: ts := rfl

theorem dumpsEntries_cons (k : Text) (v : PyValue) (es : List (Text × PyValue)) : dumpsEntries style ((k, v) :: es) = do
    let t ← dumps style v
    let ts ← dumpsEntries style es
    return (jsonString style.ensureAscii k ++ style.keySeparator ++ t) :: ts := rfl

end

/-- A comma and a colon, with nothing but space after them. -/
structure JsonStyle.Separates (style : JsonStyle) : Prop where
  item : ∃ after, style.itemSeparator = 0x2C :: after ∧ ∀ c ∈ after, isJsonSpace c = true
  key : ∃ after, style.keySeparator = 0x3A :: after ∧ ∀ c ∈ after, isJsonSpace c = true

theorem JsonStyle.standard_separates : standard.Separates := by
  have hspace : ∀ c ∈ lit " ", isJsonSpace c = true := by
    intro c hc
    rw [List.mem_singleton.1 hc]
    rfl
  exact ⟨⟨lit " ", rfl, hspace⟩, ⟨lit " ", rfl, hspace⟩⟩

theorem JsonStyle.compact_separates : compact.Separates :=
  ⟨⟨[], rfl, nofun⟩, ⟨[], rfl, nofun⟩⟩

/-! ## Escapes -/

theorem hexValue_hexDigit (n : ℕ) : hexValue (hexDigit n) = some (n % 16) := by
  unfold hexDigit hexValue
  split
  · rename_i hdecimal
    rw [if_pos ⟨Nat.le_add_right _ _, by show 0x30 + n % 16 ≤ 0x39; omega⟩]
    exact congrArg some (by show 0x30 + n % 16 - 0x30 = n % 16; omega)
  · rename_i hletter
    rw [if_neg (by show ¬ (0x30 ≤ 0x57 + n % 16 ∧ 0x57 + n % 16 ≤ 0x39); omega),
      if_pos (by show 0x61 ≤ 0x57 + n % 16 ∧ 0x57 + n % 16 ≤ 0x66; omega)]
    exact congrArg some (by show 0x57 + n % 16 - 0x57 = n % 16; omega)

theorem readHex_hexText {n : ℕ} (h : n < 0x10000) (rest : Text) : readHex (hexText 4 n ++ rest) = some (n, rest) := by
  have htext : hexText 4 n = [hexDigit (n / 16 / 16 / 16), hexDigit (n / 16 / 16), hexDigit (n / 16), hexDigit n] := rfl
  rw [htext, List.cons_append, List.cons_append, List.cons_append, List.cons_append, List.nil_append]
  simp only [readHex, hexValue_hexDigit]
  have hvalue : ((n / 16 / 16 / 16 % 16 * 16 + n / 16 / 16 % 16) * 16 + n / 16 % 16) * 16 + n % 16 = n := by omega
  rw [hvalue]

theorem readUnit_escape {n : ℕ} (h : n < 0x10000) (rest : Text) :
    readUnit (lit "\\u" ++ hexText 4 n ++ rest) = some (.escaped n, rest) := by
  have hread := readHex_hexText h rest
  show (readHex (hexText 4 n ++ rest)).map (fun p => (JsonUnit.escaped p.1, p.2)) = _
  rw [hread]
  rfl

/-- The characters that have an escape of their own. -/
def shortEscapes : List (CodePoint × Text) :=
  [(0x22, lit "\\\""), (0x5C, lit "\\\\"), (0x0A, lit "\\n"), (0x0D, lit "\\r"), (0x09, lit "\\t"), (0x08, lit "\\b"),
    (0x0C, lit "\\f")]

/-- What `json.dumps` makes of a character: an escape of its own, a `\u` escape, the character itself, or the
escapes of its two surrogates. -/
inductive JsonWritten (ensureAscii : Bool) (c : CodePoint) : Text → List JsonUnit → Prop
  | short (text : Text) (h : (c, text) ∈ shortEscapes) : JsonWritten ensureAscii c text [.plain c]
  | copied (h : c ≠ 0x22 ∧ c ≠ 0x5C ∧ 0x20 ≤ c.val) (hascii : ensureAscii = true → c.val < 0x7F) :
      JsonWritten ensureAscii c [c] [.plain c]
  | escaped (h : c.val < 0x10000) (hsurrogate : ensureAscii = true ∨ c.val < 0x20) :
      JsonWritten ensureAscii c (lit "\\u" ++ hexText 4 c.val) [.escaped c.val]
  | pair (h : 0x10000 ≤ c.val) : JsonWritten ensureAscii c
      (lit "\\u" ++ hexText 4 (0xD800 + (c.val - 0x10000) / 0x400) ++
        (lit "\\u" ++ hexText 4 (0xDC00 + (c.val - 0x10000) % 0x400)))
      [.escaped (0xD800 + (c.val - 0x10000) / 0x400), .escaped (0xDC00 + (c.val - 0x10000) % 0x400)]

theorem jsonChar_written (ensureAscii : Bool) (c : CodePoint) :
    ∃ units, JsonWritten ensureAscii c (jsonChar ensureAscii c) units := by
  have hshort : ∀ {d : CodePoint} {text : Text}, (d, text) ∈ shortEscapes → c = d →
      ∃ units, JsonWritten ensureAscii c text units := by
    rintro d text h rfl
    exact ⟨_, .short text h⟩
  have hmem : ∀ i (h : i < shortEscapes.length), (shortEscapes[i].1, shortEscapes[i].2) ∈ shortEscapes :=
    fun i h => List.getElem_mem h
  unfold jsonChar
  by_cases hquote : c = 0x22
  · rw [if_pos hquote]
    exact hshort (hmem 0 (by decide)) hquote
  rw [if_neg hquote]
  by_cases hback : c = 0x5C
  · rw [if_pos hback]
    exact hshort (hmem 1 (by decide)) hback
  rw [if_neg hback]
  by_cases hline : c = 0x0A
  · rw [if_pos hline]
    exact hshort (hmem 2 (by decide)) hline
  rw [if_neg hline]
  by_cases hreturn : c = 0x0D
  · rw [if_pos hreturn]
    exact hshort (hmem 3 (by decide)) hreturn
  rw [if_neg hreturn]
  by_cases htab : c = 0x09
  · rw [if_pos htab]
    exact hshort (hmem 4 (by decide)) htab
  rw [if_neg htab]
  by_cases hbackspace : c = 0x08
  · rw [if_pos hbackspace]
    exact hshort (hmem 5 (by decide)) hbackspace
  rw [if_neg hbackspace]
  by_cases hfeed : c = 0x0C
  · rw [if_pos hfeed]
    exact hshort (hmem 6 (by decide)) hfeed
  rw [if_neg hfeed]
  by_cases hcontrol : c.val < 0x20
  · rw [if_pos hcontrol]
    exact ⟨_, .escaped (by omega) (.inr hcontrol)⟩
  rw [if_neg hcontrol]
  by_cases hcopied : (!ensureAscii || decide (c.val < 0x7F)) = true
  · rw [if_pos hcopied]
    rw [Bool.or_eq_true, Bool.not_eq_true', decide_eq_true_eq] at hcopied
    refine ⟨_, .copied ⟨hquote, hback, not_lt.1 hcontrol⟩ fun hascii => hcopied.resolve_left ?_⟩
    rw [hascii]
    exact Bool.noConfusion
  rw [if_neg hcopied]
  by_cases hbasic : c.val < 0x10000
  · rw [if_pos hbasic]
    have hascii : ensureAscii = true := by
      cases ensureAscii with
      | true => rfl
      | false => exact absurd rfl hcopied
    exact ⟨_, .escaped hbasic (.inl hascii)⟩
  · rw [if_neg hbasic]
    exact ⟨_, .pair (not_lt.1 hbasic)⟩

theorem shortEscape_read {c : CodePoint} {text : Text} (h : (c, text) ∈ shortEscapes) (rest : Text) :
    readUnit (text ++ rest) = some (.plain c, rest) ∧ text.head? = some 0x5C := by
  simp only [shortEscapes, List.mem_cons, List.not_mem_nil, or_false, Prod.mk.injEq] at h
  rcases h with ⟨rfl, rfl⟩ | ⟨rfl, rfl⟩ | ⟨rfl, rfl⟩ | ⟨rfl, rfl⟩ | ⟨rfl, rfl⟩ | ⟨rfl, rfl⟩ | ⟨rfl, rfl⟩ <;>
    exact ⟨rfl, rfl⟩

/-- A unit that does not start with a quote is read before the ones behind it. -/
theorem readUnits_cons (fuel : ℕ) {s rest : Text} {unit : JsonUnit} (h : readUnit s = some (unit, rest))
    (hquote : s.head? ≠ some 0x22) :
    readUnits (fuel + 1) s = (readUnits fuel rest).map fun p => (unit :: p.1, p.2) := by
  cases s with
  | nil => cases h
  | cons c s =>
    have hc : c ≠ 0x22 := fun hc => hquote (by rw [hc, List.head?_cons])
    rw [readUnits, if_neg hc, h]

/-- What is written of a character is read as its units. -/
theorem JsonWritten.read {ensureAscii : Bool} {c : CodePoint} {text : Text} {units : List JsonUnit}
    (h : JsonWritten ensureAscii c text units) (fuel : ℕ) (rest : Text) :
    readUnits (fuel + units.length) (text ++ rest) = (readUnits fuel rest).map fun p => (units ++ p.1, p.2) := by
  cases h with
  | short text h =>
    obtain ⟨hread, hhead⟩ := shortEscape_read h rest
    refine readUnits_cons _ hread ?_
    cases text with
    | nil => cases hhead
    | cons d text =>
      rw [List.cons_append, List.head?_cons, ← List.head?_cons (l := text), hhead]
      decide
  | copied h hascii =>
    have hread : readUnit ([c] ++ rest) = some (.plain c, rest) := by
      rw [List.singleton_append, readUnit.eq_def]
      dsimp only
      rw [if_neg h.2.1, if_neg (not_lt.2 h.2.2)]
    refine readUnits_cons _ hread ?_
    rw [List.singleton_append, List.head?_cons]
    exact fun hc => h.1 (Option.some.inj hc)
  | escaped h hsurrogate => exact readUnits_cons _ (readUnit_escape h rest) (by rw [List.append_assoc]; exact nofun)
  | pair h =>
    have hc := c.isLt
    have hfirst := readUnit_escape (n := 0xD800 + (c.val - 0x10000) / 0x400) (by omega)
      (lit "\\u" ++ hexText 4 (0xDC00 + (c.val - 0x10000) % 0x400) ++ rest)
    have hsecond := readUnit_escape (n := 0xDC00 + (c.val - 0x10000) % 0x400) (by omega) rest
    have hunit₁ := readUnits_cons (fuel + 1) hfirst (by rw [List.append_assoc]; exact nofun)
    have hunit₂ := readUnits_cons fuel hsecond (by rw [List.append_assoc]; exact nofun)
    rw [hunit₂] at hunit₁
    rw [List.append_assoc]
    refine hunit₁.trans ?_
    rw [Option.map_map]
    rfl

theorem JsonWritten.length_le {ensureAscii : Bool} {c : CodePoint} {text : Text} {units : List JsonUnit}
    (h : JsonWritten ensureAscii c text units) : units.length ≤ text.length := by
  cases h with
  | short text h =>
    have hhead := (shortEscape_read h []).2
    cases text with
    | nil => cases hhead
    | cons d text => exact Nat.succ_le_succ (Nat.zero_le _)
  | copied h hascii => exact le_refl 1
  | escaped h hsurrogate => exact Nat.succ_le_succ (Nat.zero_le _)
  | pair h => exact Nat.succ_le_succ (Nat.succ_le_succ (Nat.zero_le _))

/-! ## Strings -/

/-- The units of a text as it is written. -/
inductive JsonUnits (ensureAscii : Bool) : Text → List JsonUnit → Prop
  | nil : JsonUnits ensureAscii [] []
  | cons {c : CodePoint} {s text : Text} {units rest : List JsonUnit} (h : JsonWritten ensureAscii c text units)
      (hs : JsonUnits ensureAscii s rest) : JsonUnits ensureAscii (c :: s) (units ++ rest)

theorem readUnits_written (ensureAscii : Bool) (s : Text) : ∃ units, JsonUnits ensureAscii s units ∧
    ∀ fuel rest, (s.flatMap (jsonChar ensureAscii)).length < fuel →
      readUnits fuel (s.flatMap (jsonChar ensureAscii) ++ 0x22 :: rest) = some (units, rest) := by
  induction s with
  | nil =>
    refine ⟨[], .nil, fun fuel rest hfuel => ?_⟩
    obtain ⟨fuel, rfl⟩ : ∃ n, fuel = n + 1 := ⟨fuel - 1, by simp at hfuel; omega⟩
    rfl
  | cons c s ih =>
    obtain ⟨units, hwritten⟩ := jsonChar_written ensureAscii c
    obtain ⟨others, hothers, hread⟩ := ih
    refine ⟨units ++ others, .cons hwritten hothers, fun fuel rest hfuel => ?_⟩
    rw [List.flatMap_cons, List.length_append] at hfuel
    have hlength := hwritten.length_le
    obtain ⟨fuel, rfl⟩ : ∃ n, fuel = n + units.length := ⟨fuel - units.length, by omega⟩
    rw [List.flatMap_cons, List.append_assoc, hwritten.read, hread fuel rest (by omega)]
    rfl

/-- The halves of a surrogate pair. -/
def Halves (c d : CodePoint) : Prop := isHighSurrogate c.val = true ∧ isLowSurrogate d.val = true

/-- No two characters next to each other are the halves of a surrogate pair. -/
def PairFree (s : Text) : Prop := s.IsChain fun c d => ¬ Halves c d

theorem Encodable.pairFree {s : Text} (h : Encodable s) : PairFree s := by
  have hall : ∀ c ∈ s, ∀ d, ¬ Halves c d := by
    rintro c hc d ⟨hhigh, -⟩
    have hsurrogate := h c hc
    unfold isHighSurrogate at hhigh
    unfold CodePoint.isSurrogate at hsurrogate
    rw [Bool.and_eq_true, decide_eq_true_eq, decide_eq_true_eq] at hhigh
    rw [Bool.and_eq_false_iff, decide_eq_false_iff_not, decide_eq_false_iff_not] at hsurrogate
    omega
  induction s with
  | nil => exact List.isChain_nil
  | cons c s ih =>
    rw [List.forall_mem_cons] at hall
    have hs := ih (fun d hd => h d (List.mem_cons_of_mem _ hd)) hall.2
    cases s with
    | nil => exact List.isChain_singleton c
    | cons d s => exact List.isChain_cons_cons.2 ⟨hall.1 d, hs⟩

theorem codePointOf_val (c : CodePoint) : codePointOf c.val = c := by
  unfold codePointOf
  rw [dif_pos c.isLt]

/-- The escape of a low surrogate is next. -/
def StartsLow (units : List JsonUnit) : Prop := ∃ n rest, units = .escaped n :: rest ∧ isLowSurrogate n = true

/-- An escape is a character of its own unless it is the first half of a pair. -/
theorem joinUnits_escaped {n : ℕ} {units : List JsonUnit} (h : isHighSurrogate n = true → ¬ StartsLow units) :
    joinUnits (.escaped n :: units) = codePointOf n :: joinUnits units := by
  cases units with
  | nil => rfl
  | cons unit units =>
    cases unit with
    | plain c => rfl
    | escaped m =>
      rw [joinUnits, if_neg]
      rw [Bool.and_eq_true]
      rintro ⟨hhigh, hlow⟩
      exact h hhigh ⟨m, units, rfl, hlow⟩

theorem join_pair {c : CodePoint} (h : 0x10000 ≤ c.val) (units : List JsonUnit) :
    joinUnits (.escaped (0xD800 + (c.val - 0x10000) / 0x400) :: .escaped (0xDC00 + (c.val - 0x10000) % 0x400) :: units) =
      c :: joinUnits units := by
  have hc := c.isLt
  rw [joinUnits, if_pos]
  · have hvalue : 0x10000 + (0xD800 + (c.val - 0x10000) / 0x400 - 0xD800) * 0x400 +
        (0xDC00 + (c.val - 0x10000) % 0x400 - 0xDC00) = c.val := by omega
    rw [hvalue, codePointOf_val]
  · unfold isHighSurrogate isLowSurrogate
    simp only [Bool.and_eq_true, decide_eq_true_eq]
    omega

/-- The units of a text that start with the escape of a low surrogate are those of a low surrogate. -/
theorem JsonUnits.low {ensureAscii : Bool} {s : Text} {units : List JsonUnit} (h : JsonUnits ensureAscii s units)
    (hlow : StartsLow units) : ensureAscii = true ∧ ∃ d rest, s = d :: rest ∧ isLowSurrogate d.val = true := by
  obtain ⟨n, others, rfl, hn⟩ := hlow
  have hrange := hn
  unfold isLowSurrogate at hrange
  rw [Bool.and_eq_true, decide_eq_true_eq, decide_eq_true_eq] at hrange
  generalize hunits : JsonUnit.escaped n :: others = units at h
  cases h with
  | nil => cases hunits
  | cons hwritten hs =>
    rename_i c _ _ _ _
    cases hwritten with
    | short text h => cases hunits
    | copied h hascii => cases hunits
    | escaped h hsurrogate =>
      cases hunits
      exact ⟨hsurrogate.resolve_right (by omega), _, _, rfl, hn⟩
    | pair h =>
      cases hunits
      have hc := c.isLt
      omega

/-- The units of a text are the text again, unless halves of a pair are next to each other as escapes. -/
theorem JsonUnits.join {ensureAscii : Bool} {s : Text} {units : List JsonUnit} (h : JsonUnits ensureAscii s units)
    (hpairs : ensureAscii = true → PairFree s) : joinUnits units = s := by
  induction h with
  | nil => rfl
  | cons hwritten hs ih =>
    rename_i c s text units rest
    have hrest := ih fun hascii => (hpairs hascii).tail
    cases hwritten with
    | short text h => exact congrArg (c :: ·) hrest
    | copied h hascii => exact congrArg (c :: ·) hrest
    | pair h => exact (join_pair h rest).trans (congrArg (c :: ·) hrest)
    | escaped h hsurrogate =>
      rw [List.singleton_append, joinUnits_escaped, codePointOf_val, hrest]
      intro hhigh hlow
      obtain ⟨hascii, d, others, rfl, hd⟩ := hs.low hlow
      exact (List.isChain_cons_cons.1 (hpairs hascii)).1 ⟨hhigh, hd⟩

/-- A string that was written is read back. -/
theorem readString_written {ensureAscii : Bool} {s : Text} (h : ensureAscii = true → PairFree s) (rest : Text) :
    readString (s.flatMap (jsonChar ensureAscii) ++ 0x22 :: rest) = some (s, rest) := by
  obtain ⟨units, hunits, hread⟩ := readUnits_written ensureAscii s
  unfold readString
  rw [hread _ rest (by rw [List.length_append]; omega), Option.map_some, hunits.join h]

/-! ## Numbers -/

/-- What may follow a value: nothing, or what no number goes on with. -/
def Delimits (rest : Text) : Prop :=
  ∀ c, rest.head? = some c → c = 0x2C ∨ c = 0x5D ∨ c = 0x7D ∨ isJsonSpace c = true

theorem delimits_cons {c : CodePoint} (h : c = 0x2C ∨ c = 0x5D ∨ c = 0x7D) (rest : Text) : Delimits (c :: rest) := by
  intro d hd
  cases hd
  rcases h with h | h | h
  · exact .inl h
  · exact .inr (.inl h)
  · exact .inr (.inr (.inl h))

/-- A delimiter is none of the characters of a number. -/
theorem Delimits.head {c : CodePoint} {rest : Text} (h : Delimits (c :: rest)) :
    c.isAsciiDigit = false ∧ c ≠ 0x2E ∧ c ≠ 0x65 ∧ c ≠ 0x45 := by
  rcases h c rfl with rfl | rfl | rfl | hspace
  · decide
  · decide
  · decide
  · unfold isJsonSpace at hspace
    simp only [Bool.or_eq_true, decide_eq_true_eq] at hspace
    rcases hspace with ((rfl | rfl) | rfl) | rfl <;> decide

theorem Delimits.endsDigits {rest : Text} (h : Delimits rest) : EndsDigits rest := by
  cases rest with
  | nil => rfl
  | cons c rest =>
    unfold EndsDigits
    rw [List.takeWhile_cons, h.head.1]
    rfl

/-- The whole part of a number. -/
def IsWhole (s : Text) : Prop := s = [0x30] ∨ AllDigits s ∧ s ≠ [] ∧ s.head? ≠ some 0x30

def IsFraction (s : Text) : Prop := s = [] ∨ ∃ digits, s = 0x2E :: digits ∧ AllDigits digits ∧ digits ≠ []

def IsExponent (s : Text) : Prop :=
  s = [] ∨ ∃ sign digits, s = 0x65 :: (sign ++ digits) ∧ (sign = [0x2B] ∨ sign = [0x2D]) ∧ AllDigits digits ∧ digits ≠ []

theorem readWhole_append {whole rest : Text} (h : IsWhole whole) (hrest : EndsDigits rest) :
    readWhole (whole ++ rest) = some (whole, rest) := by
  rcases h with rfl | ⟨hdigits, hne, hhead⟩
  · rfl
  · cases whole with
    | nil => exact absurd rfl hne
    | cons c whole =>
      have hc : c ≠ 0x30 := fun hc => hhead (by rw [hc, List.head?_cons])
      have htake := takeWhile_digits hdigits hrest
      have hdrop := dropWhile_digits hdigits hrest
      rw [List.cons_append] at htake hdrop ⊢
      rw [readWhole, if_neg hc, if_pos (hdigits c List.mem_cons_self), htake, hdrop]

theorem readFraction_append {fraction rest : Text} (h : IsFraction fraction) (hrest : EndsDigits rest)
    (hpoint : rest.head? ≠ some 0x2E) : readFraction (fraction ++ rest) = (fraction, rest) := by
  rcases h with rfl | ⟨digits, rfl, hdigits, hne⟩
  · cases rest with
    | nil => rfl
    | cons c rest =>
      have hc : c ≠ 0x2E := fun hc => hpoint (by rw [hc, List.head?_cons])
      rw [List.nil_append, readFraction]
      simp only [hc, decide_false, Bool.false_and, Bool.false_eq_true, if_false]
  · rw [List.cons_append, readFraction, takeWhile_digits hdigits hrest, dropWhile_digits hdigits hrest,
      List.isEmpty_eq_false_iff.2 hne]
    rfl

theorem readExponent_append {exponent rest : Text} (h : IsExponent exponent) (hrest : Delimits rest) :
    readExponent (exponent ++ rest) = (exponent, rest) := by
  rcases h with rfl | ⟨sign, digits, rfl, hsign, hdigits, hne⟩
  · cases rest with
    | nil => rfl
    | cons c rest =>
      obtain ⟨-, -, hlower, hupper⟩ := hrest.head
      rw [List.nil_append, readExponent]
      simp only [hlower, hupper, or_self, decide_false, Bool.false_and, Bool.false_eq_true, if_false]
  · have hread : readSign (sign ++ (digits ++ rest)) = (sign, digits ++ rest) := by
      rcases hsign with rfl | rfl <;> rfl
    rw [List.cons_append, List.append_assoc, readExponent, hread]
    simp only [takeWhile_digits hdigits hrest.endsDigits, dropWhile_digits hdigits hrest.endsDigits,
      List.isEmpty_eq_false_iff.2 hne, true_or, decide_true, Bool.not_false, Bool.and_self, if_true]

/-- A number in JSON notation is read up to its end. -/
theorem readNumber_append (neg : Bool) {whole fraction exponent rest : Text} (hwhole : IsWhole whole)
    (hfraction : IsFraction fraction) (hexponent : IsExponent exponent) (hrest : Delimits rest) :
    readNumber (signText neg ++ (whole ++ (fraction ++ exponent)) ++ rest) =
      if fraction.isEmpty && exponent.isEmpty then (intOfText (signText neg ++ whole)).map fun n => (.int n, rest)
      else (floatOfText (signText neg ++ (whole ++ (fraction ++ exponent)))).map fun x => (.float x, rest) := by
  have htail : EndsDigits (exponent ++ rest) ∧ (exponent ++ rest).head? ≠ some 0x2E := by
    rcases hexponent with rfl | ⟨sign, digits, rfl, -⟩
    · refine ⟨hrest.endsDigits, ?_⟩
      intro hpoint
      cases rest with
      | nil => cases hpoint
      | cons c rest =>
        cases hpoint
        exact hrest.head.2.1 rfl
    · exact ⟨rfl, nofun⟩
  have hmiddle : EndsDigits (fraction ++ (exponent ++ rest)) := by
    rcases hfraction with rfl | ⟨digits, rfl, -⟩
    · exact htail.1
    · rfl
  have hbody : readWhole (whole ++ (fraction ++ (exponent ++ rest))) = some (whole, fraction ++ (exponent ++ rest)) :=
    readWhole_append hwhole hmiddle
  have htext : signText neg ++ (whole ++ (fraction ++ exponent)) ++ rest =
      signText neg ++ (whole ++ (fraction ++ (exponent ++ rest))) := by simp only [List.append_assoc]
  have hminus : readMinus (signText neg ++ (whole ++ (fraction ++ (exponent ++ rest)))) =
      (signText neg, whole ++ (fraction ++ (exponent ++ rest))) := by
    cases neg with
    | true => rfl
    | false =>
      rcases hwhole with rfl | ⟨hdigits, hne, -⟩
      · rfl
      · cases whole with
        | nil => exact absurd rfl hne
        | cons c whole =>
          have hc : c ≠ 0x2D := by
            rintro rfl
            exact absurd (hdigits _ List.mem_cons_self) (by decide)
          exact if_neg hc
  rw [htext]
  unfold readNumber
  rw [hminus]
  simp only [hbody, readFraction_append hfraction htail.1 htail.2, readExponent_append hexponent hrest]

theorem isWhole_natText (n : ℕ) : IsWhole (natText n) := by
  by_cases hn : n = 0
  · subst hn
    exact .inl rfl
  · exact .inr ⟨allDigits_natText n, natText_ne_nil n, head_natText hn⟩

/-- The text of an integer: a sign, and the digits of its absolute value. -/
theorem intText_sign (n : ℤ) : intText n = signText (decide (n < 0)) ++ natText n.natAbs := by
  unfold intText signText
  by_cases hn : n < 0
  · simp only [hn, if_true, decide_true]
  · simp only [hn, if_false, decide_false, List.nil_append, Bool.false_eq_true]

theorem intOfText_intText {n : ℤ} (h : (natText n.natAbs).length ≤ maxStrDigits) : intOfText (intText n) = some n := by
  have hliteral := decimalLiteral_whole (allDigits_natText n.natAbs) (natText_ne_nil n.natAbs) [] rfl nofun
  rw [List.append_nil] at hliteral
  unfold intOfText
  rw [intText_sign, takeSign_signed _ hliteral]
  simp only [isAsciiDigits_natText, h, decide_true, Bool.and_self, if_true, digitsToNat_natText, decide_eq_true_eq]
  congr 1
  split <;> omega

theorem readNumber_intText {n : ℤ} (h : (natText n.natAbs).length ≤ maxStrDigits) {rest : Text} (hrest : Delimits rest) :
    readNumber (intText n ++ rest) = some (.int n, rest) := by
  have hread := readNumber_append (decide (n < 0)) (isWhole_natText n.natAbs) (.inl rfl) (.inl rfl) hrest
  rw [List.append_nil, List.append_nil, ← intText_sign, intOfText_intText h] at hread
  exact hread

theorem padTwo_digits (n : ℕ) : AllDigits (padTwo n) ∧ padTwo n ≠ [] := by
  obtain ⟨hne, hdigits⟩ := (isAsciiDigits_iff _).1 (padTwo_spec n).1
  exact ⟨hdigits, hne⟩

theorem isExponent_text (e : ℤ) : IsExponent (lit "e" ++ (if e < 0 then lit "-" else lit "+") ++ padTwo e.natAbs) := by
  refine .inr ⟨if e < 0 then lit "-" else lit "+", padTwo e.natAbs, rfl, ?_, padTwo_digits _⟩
  split
  · exact .inr rfl
  · exact .inl rfl

/-- The notation of a float: a point or an exponent, or both. -/
structure IsFloatText (whole fraction exponent : Text) : Prop where
  isWhole : IsWhole whole
  isFraction : IsFraction fraction
  isExponent : IsExponent exponent
  nonempty : (fraction.isEmpty && exponent.isEmpty) = false

theorem layoutRepr_notation {digits : Text} (h : Significant digits) (point : ℤ) : ∃ whole fraction exponent,
    layoutRepr digits point = whole ++ (fraction ++ exponent) ∧ IsFloatText whole fraction exponent := by
  have hlength := h.length_pos
  unfold layoutRepr
  split
  · split
    · -- the point is before the digits
      refine ⟨[0x30], 0x2E :: (List.replicate (-point).toNat 0x30 ++ digits), [], ?_, .inl rfl, ?_, .inl rfl, rfl⟩
      · rw [List.append_nil, List.append_assoc]
        rfl
      · exact .inr ⟨_, rfl, allDigits_append.2 ⟨allDigits_zeros _, h.digits⟩, List.append_ne_nil_of_right_ne_nil _ h.ne_nil⟩
    · split
      · -- it is after them
        refine ⟨digits ++ List.replicate (point.toNat - digits.length) 0x30, lit ".0", [], ?_, ?_, ?_, .inl rfl, rfl⟩
        · rw [List.append_nil]
        · refine .inr ⟨allDigits_append.2 ⟨h.digits, allDigits_zeros _⟩, List.append_ne_nil_of_left_ne_nil h.ne_nil _, ?_⟩
          rw [List.head?_append_of_ne_nil _ h.ne_nil]
          exact h.head
        · exact .inr ⟨[0x30], rfl, allDigits_zeros 1, List.cons_ne_nil _ _⟩
      · -- it is among them
        rename_i hbefore hafter
        refine ⟨digits.take point.toNat, 0x2E :: digits.drop point.toNat, [], ?_, ?_, ?_, .inl rfl, rfl⟩
        · rw [List.append_nil, List.append_assoc]
          rfl
        · refine .inr ⟨h.digits.subset (List.take_subset _ _), ?_, ?_⟩
          · rw [← List.length_pos_iff_ne_nil, List.length_take]
            omega
          · rw [List.head?_take, if_neg (by omega)]
            exact h.head
        · refine .inr ⟨_, rfl, h.digits.subset (List.drop_subset _ _), ?_⟩
          rw [← List.length_pos_iff_ne_nil, List.length_drop]
          omega
  · have hexponent := isExponent_text (point - 1)
    have hassoc : ∀ a b c d : Text, a ++ b ++ c ++ d = a ++ (b ++ c ++ d) := by simp
    simp only [hassoc]
    split
    · refine ⟨digits, [], _, ?_, .inr ⟨h.digits, h.ne_nil, h.head⟩, .inl rfl, hexponent, rfl⟩
      rw [List.nil_append]
    · refine ⟨digits.take 1, 0x2E :: digits.drop 1, _, ?_, ?_, ?_, hexponent, rfl⟩
      · simp only [List.append_assoc]
        rfl
      · refine .inr ⟨h.digits.subset (List.take_subset _ _), ?_, ?_⟩
        · rw [← List.length_pos_iff_ne_nil, List.length_take]
          omega
        · rw [List.head?_take, if_neg one_ne_zero]
          exact h.head
      · refine .inr ⟨_, rfl, h.digits.subset (List.drop_subset _ _), ?_⟩
        rw [← List.length_pos_iff_ne_nil, List.length_drop]
        omega

theorem floatRepr_notation (x : Binary64) : ∃ whole fraction exponent,
    (PyFloat.finite x).repr = signText x.neg ++ (whole ++ (fraction ++ exponent)) ∧ IsFloatText whole fraction exponent := by
  have hrepr : (PyFloat.finite x).repr =
      signText x.neg ++ if x.mant = 0 then lit "0.0" else layoutRepr (reprDigits x).1 (reprDigits x).2 := rfl
  rw [hrepr]
  split
  · exact ⟨[0x30], lit ".0", [], rfl, .inl rfl, .inr ⟨[0x30], rfl, allDigits_zeros 1, List.cons_ne_nil _ _⟩, .inl rfl, rfl⟩
  · rename_i hmant
    obtain ⟨whole, fraction, exponent, htext, h⟩ :=
      layoutRepr_notation (significant_reprDigits (Nat.pos_of_ne_zero hmant)) (reprDigits x).2
    exact ⟨whole, fraction, exponent, by rw [htext], h⟩

/-- A character of a number. -/
def IsNumeral (c : CodePoint) : Prop := c.isAsciiDigit = true ∨ c = 0x2B ∨ c = 0x2D ∨ c = 0x2E ∨ c = 0x65

theorem IsNumeral.plain {c : CodePoint} (h : IsNumeral c) : c.isAscii = true ∧ c.isAsciiSpace = false ∧ c ≠ 0x5F := by
  rcases h with hdigit | rfl | rfl | rfl | rfl
  · have hval := asciiDigit_val hdigit
    refine ⟨decide_eq_true (by omega), ?_, ?_⟩
    · unfold CodePoint.isAsciiSpace
      rw [Bool.or_eq_false_iff, Bool.and_eq_false_iff, decide_eq_false_iff_not, decide_eq_false_iff_not, beq_eq_false_iff_ne]
      omega
    · rintro rfl
      exact absurd hval (by decide)
  all_goals decide

theorem IsFloatText.numerals {whole fraction exponent : Text} (h : IsFloatText whole fraction exponent) (neg : Bool) :
    ∀ c ∈ signText neg ++ (whole ++ (fraction ++ exponent)), IsNumeral c := by
  simp only [List.forall_mem_append]
  refine ⟨?_, ?_, ?_, ?_⟩
  · cases neg with
    | true =>
      intro c hc
      rw [List.mem_singleton.1 hc]
      exact .inr (.inr (.inl rfl))
    | false => exact fun c hc => absurd hc List.not_mem_nil
  · rcases h.isWhole with rfl | ⟨hdigits, -⟩
    · intro c hc
      rw [List.mem_singleton.1 hc]
      exact .inl rfl
    · exact fun c hc => .inl (hdigits c hc)
  · rcases h.isFraction with rfl | ⟨digits, rfl, hdigits, -⟩
    · exact fun c hc => absurd hc List.not_mem_nil
    · rw [List.forall_mem_cons]
      exact ⟨.inr (.inr (.inr (.inl rfl))), fun c hc => .inl (hdigits c hc)⟩
  · rcases h.isExponent with rfl | ⟨sign, digits, rfl, hsign, hdigits, -⟩
    · exact fun c hc => absurd hc List.not_mem_nil
    · rw [List.forall_mem_cons, List.forall_mem_append]
      refine ⟨.inr (.inr (.inr (.inr rfl))), ?_, fun c hc => .inl (hdigits c hc)⟩
      rcases hsign with rfl | rfl
      · intro c hc
        rw [List.mem_singleton.1 hc]
        exact .inr (.inl rfl)
      · intro c hc
        rw [List.mem_singleton.1 hc]
        exact .inr (.inr (.inl rfl))

/-- What is read of a text made of the characters of a number. -/
theorem floatOfText_numerals {s : Text} (h : ∀ c ∈ s, IsNumeral c) :
    floatOfText s = unsignedFloat (takeSign s).1 (takeSign s).2 := by
  have hascii : s.all CodePoint.isAscii = true := List.all_eq_true.2 fun c hc => (h c hc).plain.1
  unfold floatOfText numeralText
  rw [if_pos hascii, stripWith_eq_self fun c hc => (h c hc).plain.2.1,
    dropUnderscores_eq (fun c hc => (h c hc).plain.2.2) (by decide)]

/-- `float` reads the `repr` of a float as that float. -/
theorem floatOfText_repr (x : Binary64) : floatOfText (PyFloat.finite x).repr = some (.finite x) := by
  obtain ⟨whole, fraction, exponent, htext, h⟩ := floatRepr_notation x
  obtain ⟨d, hd, -, hfloat⟩ := Decimal.ofText_repr x
  rw [floatOfText_numerals (htext ▸ h.numerals x.neg)]
  unfold Decimal.ofText at hd
  obtain ⟨r, hliteral, rfl⟩ := Option.map_eq_some_iff.1 hd
  unfold unsignedFloat
  rw [hliteral]
  exact congrArg some hfloat

theorem readNumber_repr (x : Binary64) {rest : Text} (hrest : Delimits rest) :
    readNumber ((PyFloat.finite x).repr ++ rest) = some (.float (.finite x), rest) := by
  obtain ⟨whole, fraction, exponent, htext, h⟩ := floatRepr_notation x
  have hread := readNumber_append x.neg h.isWhole h.isFraction h.isExponent hrest
  rw [h.nonempty, if_neg Bool.false_ne_true, ← htext, floatOfText_repr] at hread
  exact hread

end Python
