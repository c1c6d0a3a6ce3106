/-
`json.loads` of bytes: how the encoding is told from the first four of them, and the strict UTF-8 decoder, which
lets surrogates through. The decoders of the other encodings are a parameter. What `json.dumps` writes, encoded,
is read back from its bytes.
-/
import ConfigDirector.Python.JsonRoundTrip

namespace Python

/-! ## Decoding -/

/-- A byte inside a character. -/
def isContinuation (b : UInt8) : Bool := 0x80 ≤ b.toNat && b.toNat < 0xC0

/-- The first character of the bytes, in its shortest form; a surrogate is one. -/
def readCharacter : Bytes → Option (CodePoint × Bytes)
  | [] => none
  | a :: rest =>
    if a.toNat < 0x80 then some (Decoder.codePoint a.toNat, rest)
    else
      match rest with
      | [] => none
      | b :: rest =>
        if !isContinuation b then none
        else if 0xC2 ≤ a.toNat ∧ a.toNat < 0xE0 then
          some (Decoder.codePoint ((a.toNat - 0xC0) * 0x40 + (b.toNat - 0x80)), rest)
        else
          match rest with
          | [] => none
          | c :: rest =>
            let bits := (a.toNat - 0xE0) * 0x1000 + (b.toNat - 0x80) * 0x40 + (c.toNat - 0x80)
            if !isContinuation c then none
            else if 0xE0 ≤ a.toNat ∧ a.toNat < 0xF0 then
              if 0x800 ≤ bits then some (Decoder.codePoint bits, rest) else none
            else
              match rest with
              | [] => none
              | d :: rest =>
                let bits := (a.toNat - 0xF0) * 0x40000 + (b.toNat - 0x80) * 0x1000 + (c.toNat - 0x80) * 0x40 +
                  (d.toNat - 0x80)
                if !isContinuation d then none
                else if 0xF0 ≤ a.toNat ∧ 0x10000 ≤ bits ∧ bits < 0x110000 then some (Decoder.codePoint bits, rest)
                else none

def readCharacters : ℕ → Bytes → Option Text
  | _, [] => some []
  | 0, _ :: _ => none
  | fuel + 1, a :: rest =>
    match readCharacter (a :: rest) with
    | none => none
    | some (c, rest) => (readCharacters fuel rest).map (c :: ·)

/-- `bytes.decode("utf-8", "surrogatepass")`; none where it raises `UnicodeDecodeError`. -/
def decodeUtf8 (bytes : Bytes) : Option Text := readCharacters bytes.length bytes

/-- The encodings `json.loads` tells apart. -/
inductive JsonEncoding
  | utf8
  | utf8Sig
  | utf16
  | utf16be
  | utf16le
  | utf32
  | utf32be
  | utf32le
deriving DecidableEq

/-- `json.detect_encoding`. -/
def detectEncoding (bytes : Bytes) : JsonEncoding :=
  if [0x00, 0x00, 0xFE, 0xFF].isPrefixOf bytes || [0xFF, 0xFE, 0x00, 0x00].isPrefixOf bytes then .utf32
  else if [0xFE, 0xFF].isPrefixOf bytes || [0xFF, 0xFE].isPrefixOf bytes then .utf16
  else if [0xEF, 0xBB, 0xBF].isPrefixOf bytes then .utf8Sig
  else
    match bytes with
    | a :: b :: c :: d :: _ =>
      if a = 0 then if b ≠ 0 then .utf16be else .utf32be
      else if b = 0 then if c ≠ 0 ∨ d ≠ 0 then .utf16le else .utf32le
      else .utf8
    | [a, b] =>
      if a = 0 then .utf16be
      else if b = 0 then .utf16le
      else .utf8
    | _ => .utf8

/-- `json.loads(bytes)`, the decoders of the wide encodings a parameter; none where it raises a `ValueError`. -/
def jsonLoadsBytes (wide : JsonEncoding → Bytes → Option Text) (bytes : Bytes) : Option PyValue :=
  match detectEncoding bytes with
  | .utf8 => (decodeUtf8 bytes).bind jsonLoads
  | .utf8Sig => (decodeUtf8 (bytes.drop 3)).bind jsonLoads
  | encoding => (wide encoding bytes).bind jsonLoads

theorem jsonLoadsBytes_json {wide : JsonEncoding → Bytes → Option Text} {bytes : Bytes} {v : PyValue}
    (h : jsonLoadsBytes wide bytes = some v) : v.IsJson := by
  unfold jsonLoadsBytes at h
  split at h
  all_goals
    obtain ⟨text, -, hv⟩ := Option.bind_eq_some_iff.1 h
    exact jsonLoads_json hv

/-! ## Decoding undoes encoding -/

theorem toNat_ofNat_byte {n : ℕ} (h : n < 0x100) : (UInt8.ofNat n).toNat = n := by
  rw [UInt8.toNat_ofNat', Nat.mod_eq_of_lt h]

theorem isContinuation_ofNat (n : ℕ) : isContinuation (UInt8.ofNat (0x80 + n % 0x40)) = true := by
  unfold isContinuation
  rw [toNat_ofNat_byte (by omega), Bool.and_eq_true, decide_eq_true_eq, decide_eq_true_eq]
  omega

/-- Any character is read from its bytes, a surrogate too. -/
theorem readCharacter_utf8 (c : CodePoint) (rest : Bytes) : readCharacter (c.utf8 ++ rest) = some (c, rest) := by
  have hc := c.isLt
  have hval : ∀ n, n = c.val → Decoder.codePoint n = c := by
    rintro n rfl
    exact Decoder.codePoint_val c
  unfold CodePoint.utf8
  split
  · rename_i hascii
    simp only [List.cons_append, List.nil_append, readCharacter]
    rw [toNat_ofNat_byte (by omega), if_pos hascii, hval _ rfl]
  · split
    · simp only [List.cons_append, List.nil_append, readCharacter]
      rw [toNat_ofNat_byte (by omega), if_neg (by omega), isContinuation_ofNat, toNat_ofNat_byte (by omega),
        if_neg (by decide), if_pos (by omega), hval _ (by omega)]
    · split
      · simp only [List.cons_append, List.nil_append, readCharacter]
        rw [toNat_ofNat_byte (by omega), if_neg (by omega), isContinuation_ofNat, toNat_ofNat_byte (by omega),
          if_neg (by decide), if_neg (by omega), isContinuation_ofNat, toNat_ofNat_byte (by omega), if_neg (by decide),
          if_pos (by omega), if_pos (by omega), hval _ (by omega)]
      · simp only [List.cons_append, List.nil_append, readCharacter]
        rw [toNat_ofNat_byte (by omega), if_neg (by omega), isContinuation_ofNat, toNat_ofNat_byte (by omega),
          if_neg (by decide), if_neg (by omega), isContinuation_ofNat, toNat_ofNat_byte (by omega), if_neg (by decide),
          if_neg (by omega), isContinuation_ofNat, toNat_ofNat_byte (by omega), if_neg (by decide), if_pos (by omega),
          hval _ (by omega)]

theorem utf8_eq_cons (c : CodePoint) : ∃ b bs, c.utf8 = b :: bs := by
  unfold CodePoint.utf8
  split
  · exact ⟨_, _, rfl⟩
  · split
    · exact ⟨_, _, rfl⟩
    · split <;> exact ⟨_, _, rfl⟩

theorem readCharacters_flatMap (t : Text) : ∀ fuel, (t.flatMap CodePoint.utf8).length ≤ fuel →
    readCharacters fuel (t.flatMap CodePoint.utf8) = some t := by
  induction t with
  | nil =>
    intro fuel _
    cases fuel <;> rfl
  | cons c t ih =>
    intro fuel hfuel
    have hread := readCharacter_utf8 c (t.flatMap CodePoint.utf8)
    obtain ⟨b, bs, hb⟩ := utf8_eq_cons c
    rw [List.flatMap_cons, List.length_append, hb, List.length_cons] at hfuel
    rw [hb, List.cons_append] at hread
    rw [List.flatMap_cons, hb, List.cons_append]
    cases fuel with
    | zero => omega
    | succ fuel =>
      rw [readCharacters, hread]
      dsimp only
      rw [ih fuel (by omega), Option.map_some]

theorem decodeUtf8_encode {s : Text} {bytes : Bytes} (h : encode? s = some bytes) : decodeUtf8 bytes = some s := by
  unfold encode? at h
  split at h
  · cases h
    exact readCharacters_flatMap s _ le_rfl
  · cases h

/-! ## The characters that are written -/

/-- A character `json.dumps` writes: never a NUL, and an ASCII one with `ensure_ascii`. -/
def IsWritten (ensureAscii : Bool) (c : CodePoint) : Prop := c ≠ 0 ∧ (ensureAscii = true → c.val < 0x80)

theorem isWritten_ascii (ensureAscii : Bool) {c : CodePoint} (h : c ≠ 0 ∧ c.val < 0x80) : IsWritten ensureAscii c :=
  ⟨h.1, fun _ => h.2⟩

/-- Texts of the language itself. -/
theorem isWritten_text (ensureAscii : Bool) {t : Text} (h : (t.all fun c => c ≠ 0 && c.val < 0x80) = true) :
    ∀ c ∈ t, IsWritten ensureAscii c := by
  intro c hc
  have hall := List.all_eq_true.1 h c hc
  rw [Bool.and_eq_true, decide_eq_true_eq, decide_eq_true_eq] at hall
  exact isWritten_ascii ensureAscii hall

theorem isWritten_numeral (ensureAscii : Bool) {c : CodePoint} (h : IsNumeral c) : IsWritten ensureAscii c := by
  rcases h with hdigit | rfl | rfl | rfl | rfl
  · have hval := asciiDigit_val hdigit
    refine isWritten_ascii _ ⟨?_, by omega⟩
    rintro rfl
    exact absurd hval (by decide)
  all_goals exact isWritten_ascii _ (by decide)

theorem isWritten_hexText (ensureAscii : Bool) : ∀ (width n : ℕ), ∀ c ∈ hexText width n, IsWritten ensureAscii c
  | 0, _, c, hc => absurd hc List.not_mem_nil
  | width + 1, n, c, hc => by
    rw [hexText, List.mem_append, List.mem_singleton] at hc
    rcases hc with hc | rfl
    · exact isWritten_hexText ensureAscii width _ c hc
    · unfold hexDigit
      split
      · refine isWritten_ascii _ ⟨fun h => ?_, by show 0x30 + n % 16 < 0x80; omega⟩
        have hval := congrArg Fin.val h
        exact absurd hval (by show ¬ 0x30 + n % 16 = 0; omega)
      · refine isWritten_ascii _ ⟨fun h => ?_, by show 0x57 + n % 16 < 0x80; omega⟩
        have hval := congrArg Fin.val h
        exact absurd hval (by show ¬ 0x57 + n % 16 = 0; omega)

theorem isWritten_escape (ensureAscii : Bool) (n : ℕ) : ∀ c ∈ lit "\\u" ++ hexText 4 n, IsWritten ensureAscii c := by
  rw [List.forall_mem_append]
  exact ⟨isWritten_text _ (by decide), isWritten_hexText _ 4 n⟩

theorem JsonWritten.isWritten {ensureAscii : Bool} {c : CodePoint} {text : Text} {units : List JsonUnit}
    (h : JsonWritten ensureAscii c text units) : ∀ d ∈ text, IsWritten ensureAscii d := by
  cases h with
  | short text h =>
    simp only [shortEscapes, List.mem_cons, List.not_mem_nil, or_false, Prod.mk.injEq] at h
    rcases h with ⟨rfl, rfl⟩ | ⟨rfl, rfl⟩ | ⟨rfl, rfl⟩ | ⟨rfl, rfl⟩ | ⟨rfl, rfl⟩ | ⟨rfl, rfl⟩ | ⟨rfl, rfl⟩ <;>
      exact isWritten_text _ (by decide)
  | copied h hascii =>
    intro d hd
    rw [List.mem_singleton.1 hd]
    refine ⟨?_, fun htrue => Nat.lt_succ_of_lt (hascii htrue)⟩
    rintro rfl
    exact absurd h.2.2 (by decide)
  | escaped h hsurrogate => exact isWritten_escape _ _
  | pair h =>
    rw [List.forall_mem_append]
    exact ⟨isWritten_escape _ _, isWritten_escape _ _⟩

theorem isWritten_jsonString (ensureAscii : Bool) (s : Text) : ∀ c ∈ jsonString ensureAscii s, IsWritten ensureAscii c := by
  have hquote : ∀ c ∈ ([0x22] : Text), IsWritten ensureAscii c := isWritten_text _ (by decide)
  unfold jsonString
  rw [List.forall_mem_append, List.forall_mem_append]
  refine ⟨⟨hquote, ?_⟩, hquote⟩
  intro d hd
  obtain ⟨c, -, hd⟩ := List.mem_flatMap.1 hd
  obtain ⟨units, h⟩ := jsonChar_written ensureAscii c
  exact h.isWritten d hd

theorem isWritten_intText (ensureAscii : Bool) (n : ℤ) : ∀ c ∈ intText n, IsWritten ensureAscii c := by
  rw [intText_sign, List.forall_mem_append]
  refine ⟨?_, fun c hc => isWritten_numeral _ (.inl (allDigits_natText _ c hc))⟩
  cases decide (n < 0) <;> exact isWritten_text _ (by decide)

theorem isWritten_jsonFloat (ensureAscii : Bool) (x : PyFloat) : ∀ c ∈ jsonFloat x, IsWritten ensureAscii c := by
  cases x with
  | nan => exact isWritten_text _ (by decide)
  | inf neg => cases neg <;> exact isWritten_text _ (by decide)
  | finite x =>
    obtain ⟨whole, fraction, exponent, htext, h⟩ := floatRepr_notation x
    show ∀ c ∈ (PyFloat.finite x).repr, _
    rw [htext]
    exact fun c hc => isWritten_numeral _ (h.numerals x.neg c hc)

theorem isWritten_join {ensureAscii : Bool} {sep : Text} (hsep : ∀ c ∈ sep, IsWritten ensureAscii c) :
    ∀ {parts : List Text}, (∀ t ∈ parts, ∀ c ∈ t, IsWritten ensureAscii c) → ∀ c ∈ join sep parts, IsWritten ensureAscii c
  | [], _ => fun c hc => absurd hc List.not_mem_nil
  | [t], h => h t (List.mem_singleton_self t)
  | t :: u :: rest, h => by
    obtain ⟨ht, hrest⟩ := List.forall_mem_cons.1 h
    rw [join, List.forall_mem_append, List.forall_mem_append]
    exact ⟨⟨ht, hsep⟩, isWritten_join hsep hrest⟩

theorem isWritten_separator (ensureAscii : Bool) {c : CodePoint} {after : Text} (hc : c = 0x2C ∨ c = 0x3A)
    (hafter : ∀ d ∈ after, isJsonSpace d = true) : ∀ d ∈ c :: after, IsWritten ensureAscii d := by
  rw [List.forall_mem_cons]
  refine ⟨by rcases hc with rfl | rfl <;> exact isWritten_ascii _ (by decide), ?_⟩
  intro d hd
  have hspace := hafter d hd
  unfold isJsonSpace at hspace
  simp only [Bool.or_eq_true, decide_eq_true_eq] at hspace
  rcases hspace with ((rfl | rfl) | rfl) | rfl <;> exact isWritten_ascii _ (by decide)

section Written

variable {style : JsonStyle}

theorem isWritten_brackets {before after text : Text} (hbefore : (before.all fun c => c ≠ 0 && c.val < 0x80) = true)
    (hafter : (after.all fun c => c ≠ 0 && c.val < 0x80) = true) {ensureAscii : Bool}
    (h : ∀ c ∈ text, IsWritten ensureAscii c) : ∀ c ∈ before ++ text ++ after, IsWritten ensureAscii c := by
  rw [List.forall_mem_append, List.forall_mem_append]
  exact ⟨⟨isWritten_text _ hbefore, h⟩, isWritten_text _ hafter⟩

mutual
theorem isWritten_dumps (hstyle : style.Separates) : ∀ (v : PyValue) {text : Text}, dumps style v = .ok text →
    ∀ c ∈ text, IsWritten style.ensureAscii c
  | .none, _, h => by
    cases h
    exact isWritten_text _ (by decide)
  | .bool b, _, h => by
    cases h
    cases b <;> exact isWritten_text _ (by decide)
  | .int n, _, h => by
    rw [dumps_int] at h
    unfold intRepr at h
    split at h
    · cases h
    · cases h
      exact isWritten_intText _ n
  | .float x, _, h => by
    rw [dumps_float] at h
    split at h
    · cases h
      exact isWritten_jsonFloat _ x
    · cases h
  | .str s, _, h => by
    cases h
    exact isWritten_jsonString _ s
  | .list items, _, h => by
    obtain ⟨after, hsep, hspace⟩ := hstyle.item
    rw [dumps_list] at h
    obtain ⟨parts, hparts, h⟩ := bind_eq_ok_iff.1 h
    cases h
    refine isWritten_brackets (by decide) (by decide) (isWritten_join ?_ (isWritten_dumpsList hstyle items hparts))
    rw [hsep]
    exact isWritten_separator _ (.inl rfl) hspace
  | .dict entries, _, h => by
    obtain ⟨after, hsep, hspace⟩ := hstyle.item
    rw [dumps_dict] at h
    obtain ⟨parts, hparts, h⟩ := bind_eq_ok_iff.1 h
    cases h
    refine isWritten_brackets (by decide) (by decide) (isWritten_join ?_ (isWritten_dumpsEntries hstyle entries hparts))
    rw [hsep]
    exact isWritten_separator _ (.inl rfl) hspace
  | .other _, _, h => by cases h

theorem isWritten_dumpsList (hstyle : style.Separates) : ∀ (vs : List PyValue) {texts : List Text},
    dumpsList style vs = .ok texts → ∀ t ∈ texts, ∀ c ∈ t, IsWritten style.ensureAscii c
  | [], _, h => by
    cases h
    exact fun t ht => absurd ht List.not_mem_nil
  | v :: vs, _, h => by
    rw [dumpsList_cons] at h
    obtain ⟨t, ht, h⟩ := bind_eq_ok_iff.1 h
    obtain ⟨ts, hts, h⟩ := bind_eq_ok_iff.1 h
    cases h
    exact List.forall_mem_cons.2 ⟨isWritten_dumps hstyle v ht, isWritten_dumpsList hstyle vs hts⟩

theorem isWritten_dumpsEntries (hstyle : style.Separates) : ∀ (es : List (Text × PyValue)) {texts : List Text},
    dumpsEntries style es = .ok texts → ∀ t ∈ texts, ∀ c ∈ t, IsWritten style.ensureAscii c
  | [], _, h => by
    cases h
    exact fun t ht => absurd ht List.not_mem_nil
  | (k, v) :: es, _, h => by
    obtain ⟨after, hsep, hspace⟩ := hstyle.key
    rw [dumpsEntries_cons] at h
    obtain ⟨t, ht, h⟩ := bind_eq_ok_iff.1 h
    obtain ⟨ts, hts, h⟩ := bind_eq_ok_iff.1 h
    cases h
    refine List.forall_mem_cons.2 ⟨?_, isWritten_dumpsEntries hstyle es hts⟩
    rw [List.forall_mem_append, List.forall_mem_append, hsep]
    exact ⟨⟨isWritten_jsonString _ k, isWritten_separator _ (.inr rfl) hspace⟩, isWritten_dumps hstyle v ht⟩
end

/-- What is written with `ensure_ascii` can be encoded. -/
theorem encodable_dumps (hstyle : style.Separates) (hascii : style.ensureAscii = true) {v : PyValue} {text : Text}
    (h : dumps style v = .ok text) : Encodable text := by
  refine encodable_of_lt fun c hc => ?_
  have hlt := (isWritten_dumps hstyle v h c hc).2 hascii
  omega

end Written

/-! ## Bytes that are read back -/

theorem utf8_nonzero {c : CodePoint} (hc : c ≠ 0) : ∀ b ∈ c.utf8, b ≠ 0 := by
  have hval : c.val ≠ 0 := fun h => hc (Fin.ext h)
  have hlt := c.isLt
  have hbyte : ∀ n, n ≠ 0 → n < 0x100 → UInt8.ofNat n ≠ 0 := by
    intro n hn hn' h
    have htoNat := congrArg UInt8.toNat h
    rw [toNat_ofNat_byte hn'] at htoNat
    exact hn htoNat
  unfold CodePoint.utf8
  split
  · simp only [List.forall_mem_cons]
    exact ⟨hbyte _ hval (by omega), nofun⟩
  · split
    · simp only [List.forall_mem_cons]
      exact ⟨hbyte _ (by omega) (by omega), hbyte _ (by omega) (by omega), nofun⟩
    · split
      · simp only [List.forall_mem_cons]
        exact ⟨hbyte _ (by omega) (by omega), hbyte _ (by omega) (by omega), hbyte _ (by omega) (by omega), nofun⟩
      · simp only [List.forall_mem_cons]
        exact ⟨hbyte _ (by omega) (by omega), hbyte _ (by omega) (by omega), hbyte _ (by omega) (by omega),
          hbyte _ (by omega) (by omega), nofun⟩

/-- Bytes without a zero that start with an ASCII character are taken for UTF-8. -/
theorem detectEncoding_utf8 {b : UInt8} {bs : Bytes} (h : ∀ c ∈ b :: bs, c ≠ 0) (hb : b.toNat < 0x80) :
    detectEncoding (b :: bs) = .utf8 := by
  have hmark : ∀ a : UInt8, 0x80 ≤ a.toNat ∨ a = 0 → (a == b) = false := by
    rintro a ha
    rw [beq_eq_false_iff_ne]
    rintro rfl
    rcases ha with ha | rfl
    · omega
    · exact h 0 List.mem_cons_self rfl
  obtain ⟨hzero, hrest⟩ := List.forall_mem_cons.1 h
  unfold detectEncoding
  simp only [List.isPrefixOf, hmark 0x00 (.inr rfl), hmark 0xFF (.inl (by decide)), hmark 0xFE (.inl (by decide)),
    hmark 0xEF (.inl (by decide)), Bool.false_and, Bool.or_self, Bool.false_eq_true, if_false]
  match bs, hrest with
  | [], _ => rfl
  | [c], hrest => simp only [hzero, hrest c List.mem_cons_self, if_false]
  | [c, d], _ => rfl
  | c :: d :: e :: _, hrest => simp only [hzero, hrest c List.mem_cons_self, if_false]

/-- The bytes of a text without NULs that starts with an ASCII character are read as the text is. -/
theorem jsonLoadsBytes_encode (wide : JsonEncoding → Bytes → Option Text) {c : CodePoint} {text : Text} {bytes : Bytes}
    (h : encode? (c :: text) = some bytes) (hnul : ∀ d ∈ c :: text, d ≠ 0) (hascii : c.val < 0x80) :
    jsonLoadsBytes wide bytes = jsonLoads (c :: text) := by
  have hdecode := decodeUtf8_encode h
  unfold encode? at h
  split at h
  · have hhead : c.utf8 = [UInt8.ofNat c.val] := by
      unfold CodePoint.utf8
      rw [if_pos hascii]
    have hbytes : bytes = UInt8.ofNat c.val :: text.flatMap CodePoint.utf8 := by
      rw [← Option.some.inj h, List.flatMap_cons, hhead]
      rfl
    have hnonzero : ∀ b ∈ bytes, b ≠ 0 := by
      rw [← Option.some.inj h]
      intro b hb
      obtain ⟨d, hd, hb⟩ := List.mem_flatMap.1 hb
      exact utf8_nonzero (hnul d hd) b hb
    have hdetect : detectEncoding bytes = .utf8 := by
      rw [hbytes] at hnonzero ⊢
      exact detectEncoding_utf8 hnonzero (by rw [toNat_ofNat_byte (by omega)]; exact hascii)
    unfold jsonLoadsBytes
    rw [hdetect, hdecode]
    rfl
  · cases h

/-- What `json.dumps` writes of a JSON document is read back from its bytes as that document. -/
theorem jsonLoadsBytes_dumps (wide : JsonEncoding → Bytes → Option Text) {style : JsonStyle} (hstyle : style.Separates)
    {v : PyValue} {text : Text} {bytes : Bytes} (h : dumps style v = .ok text) (hbytes : encode? text = some bytes)
    (hjson : v.IsJson) (hpairs : style.ensureAscii = true → v.PairFree) : jsonLoadsBytes wide bytes = some v := by
  have hread := jsonLoads_dumps hstyle h hjson hpairs
  have hwritten := isWritten_dumps hstyle v h
  obtain ⟨c, rest, rfl, -, -, -, hascii⟩ := (readsBack_dumps hstyle v h hjson hpairs).starts
  rw [jsonLoadsBytes_encode wide hbytes (fun d hd => (hwritten d hd).1) hascii]
  exact hread

end Python
