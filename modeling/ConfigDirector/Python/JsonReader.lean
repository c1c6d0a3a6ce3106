/-
`json.loads` of a `str`: a reader for the whole grammar, with the liberties the language takes (`NaN` and the
infinities, lone surrogates, a key given twice). Whatever it returns is a JSON document. Only the limit on
nested calls is left out: a text nested deeper than that is read here, and is an error there.
-/
import ConfigDirector.Python.Dict
import ConfigDirector.Python.Value

namespace Python

/-! ## Strings -/

/-- What stands for a character in a string: the character, or the number of a `\u` escape. -/
inductive JsonUnit
  | plain (c : CodePoint)
  | escaped (n : ℕ)
deriving DecidableEq

def isHighSurrogate (n : ℕ) : Bool := 0xD800 ≤ n && n ≤ 0xDBFF

def isLowSurrogate (n : ℕ) : Bool := 0xDC00 ≤ n && n ≤ 0xDFFF

def codePointOf (n : ℕ) : CodePoint := if h : n < 0x110000 then ⟨n, h⟩ else 0xFFFD

/-- The text of units: two escapes that are the halves of a surrogate pair are one character. -/
def joinUnits : List JsonUnit → Text
  | [] => []
  | .plain c :: units => c :: joinUnits units
  | [.escaped n] => [codePointOf n]
  | .escaped n :: .plain c :: units => codePointOf n :: c :: joinUnits units
  | .escaped n :: .escaped m :: units =>
    if isHighSurrogate n && isLowSurrogate m then
      codePointOf (0x10000 + (n - 0xD800) * 0x400 + (m - 0xDC00)) :: joinUnits units
    else codePointOf n :: joinUnits (.escaped m :: units)

/-- The value of a hexadecimal digit, in either case. -/
def hexValue (c : CodePoint) : Option ℕ :=
  if 0x30 ≤ c.val ∧ c.val ≤ 0x39 then some (c.val - 0x30)
  else if 0x61 ≤ c.val ∧ c.val ≤ 0x66 then some (c.val - 0x57)
  else if 0x41 ≤ c.val ∧ c.val ≤ 0x46 then some (c.val - 0x37)
  else none

/-- The four digits of a `\u` escape. -/
def readHex : Text → Option (ℕ × Text)
  | a :: b :: c :: d :: rest =>
    match hexValue a, hexValue b, hexValue c, hexValue d with
    | some a, some b, some c, some d => some (((a * 16 + b) * 16 + c) * 16 + d, rest)
    | _, _, _, _ => none
  | _ => none

/-- What the character after a backslash stands for. -/
def unescaped (c : CodePoint) : Option CodePoint :=
  if c = 0x22 ∨ c = 0x5C ∨ c = 0x2F then some c
  else if c = 0x62 then some 0x08
  else if c = 0x66 then some 0x0C
  else if c = 0x6E then some 0x0A
  else if c = 0x72 then some 0x0D
  else if c = 0x74 then some 0x09
  else none

/-- The next character of a string; a control character is none. -/
def readUnit : Text → Option (JsonUnit × Text)
  | [] => none
  | c :: rest =>
    if c = 0x5C then
      match rest with
      | [] => none
      | d :: rest =>
        if d = 0x75 then (readHex rest).map fun p => (.escaped p.1, p.2)
        else (unescaped d).map fun e => (.plain e, rest)
    else if c.val < 0x20 then none
    else some (.plain c, rest)

/-- The characters up to the closing quote, and what follows it. -/
def readUnits : ℕ → Text → Option (List JsonUnit × Text)
  | 0, _ => none
  | fuel + 1, s =>
    match s with
    | [] => none
    | c :: rest =>
      if c = 0x22 then some ([], rest)
      else
        match readUnit (c :: rest) with
        | none => none
        | some (unit, rest) => (readUnits fuel rest).map fun p => (unit :: p.1, p.2)

/-- A string, from behind its opening quote. -/
def readString (s : Text) : Option (Text × Text) :=
  (readUnits (s.length + 1) s).map fun p => (joinUnits p.1, p.2)

/-! ## Numbers -/

/-- A zero, or digits that do not start with one. -/
def readWhole : Text → Option (Text × Text)
  | [] => none
  | c :: rest =>
    if c = 0x30 then some ([c], rest)
    else if c.isAsciiDigit then
      some ((c :: rest).takeWhile CodePoint.isAsciiDigit, (c :: rest).dropWhile CodePoint.isAsciiDigit)
    else none

/-- A point with digits behind it, if there are any. -/
def readFraction : Text → Text × Text
  | [] => ([], [])
  | c :: rest =>
    let digits := rest.takeWhile CodePoint.isAsciiDigit
    if c = 0x2E && !digits.isEmpty then (c :: digits, rest.dropWhile CodePoint.isAsciiDigit) else ([], c :: rest)

/-- The sign of an exponent. -/
def readSign : Text → Text × Text
  | [] => ([], [])
  | c :: rest => if c = 0x2B ∨ c = 0x2D then ([c], rest) else ([], c :: rest)

/-- An exponent with digits, if there is one. -/
def readExponent : Text → Text × Text
  | [] => ([], [])
  | c :: rest =>
    let (sign, rest') := readSign rest
    let digits := rest'.takeWhile CodePoint.isAsciiDigit
    if (c = 0x65 ∨ c = 0x45) && !digits.isEmpty then
      (c :: (sign ++ digits), rest'.dropWhile CodePoint.isAsciiDigit)
    else ([], c :: rest)

def readMinus : Text → Text × Text
  | [] => ([], [])
  | c :: rest => if c = 0x2D then ([c], rest) else ([], c :: rest)

/-- A number: an `int` without fraction and exponent, which must not have too many digits. -/
def readNumber (s : Text) : Option (PyValue × Text) :=
  let (sign, body) := readMinus s
  match readWhole body with
  | none => none
  | some (whole, rest) =>
    let (fraction, rest) := readFraction rest
    let (exponent, rest) := readExponent rest
    if fraction.isEmpty && exponent.isEmpty then (intOfText (sign ++ whole)).map fun n => (.int n, rest)
    else (floatOfText (sign ++ (whole ++ (fraction ++ exponent)))).map fun x => (.float x, rest)

/-! ## Values -/

/-- The words that stand for a value. -/
def jsonWords : List (Text × PyValue) :=
  [(lit "null", .none), (lit "true", .bool true), (lit "false", .bool false), (lit "NaN", .float .nan),
    (lit "Infinity", .float (.inf false)), (lit "-Infinity", .float (.inf true))]

/-- A word or a number. -/
def readWord (s : Text) : Option (PyValue × Text) :=
  match jsonWords.find? fun p => startsWith s p.1 with
  | some (word, v) => some (v, s.drop word.length)
  | none => readNumber s

/-- Space, tab, line feed and carriage return. -/
def isJsonSpace (c : CodePoint) : Bool := c = 0x20 || c = 0x09 || c = 0x0A || c = 0x0D

def skipSpace (s : Text) : Text := s.dropWhile isJsonSpace

/-- The dictionary of the members of an object: a later one replaces an earlier one of the same key. -/
def ofMembers (members : List (Text × PyValue)) : Dict Text PyValue :=
  members.foldl (fun d p => d.set p.1 p.2) ∅

mutual
def readValue : ℕ → Text → Option (PyValue × Text)
  | 0, _ => none
  | fuel + 1, s =>
    match s with
    | [] => none
    | c :: rest =>
      if c = 0x22 then (readString rest).map fun p => (.str p.1, p.2)
      else if c = 0x5B then
        match skipSpace rest with
        | [] => none
        | d :: rest =>
          if d = 0x5D then some (.list [], rest)
          else (readItems fuel (d :: rest)).map fun p => (.list p.1, p.2)
      else if c = 0x7B then
        match skipSpace rest with
        | [] => none
        | d :: rest =>
          if d = 0x7D then some (.dict [], rest)
          else (readMembers fuel (d :: rest)).map fun p => (.dict (ofMembers p.1).entries, p.2)
      else readWord (c :: rest)

/-- The items of an array up to its closing bracket; there is at least one. -/
def readItems : ℕ → Text → Option (List PyValue × Text)
  | 0, _ => none
  | fuel + 1, s =>
    match readValue fuel s with
    | none => none
    | some (v, rest) =>
      match skipSpace rest with
      | [] => none
      | c :: rest =>
        if c = 0x5D then some ([v], rest)
        else if c = 0x2C then (readItems fuel (skipSpace rest)).map fun p => (v :: p.1, p.2)
        else none

/-- The members of an object up to its closing brace; there is at least one. -/
def readMembers : ℕ → Text → Option (List (Text × PyValue) × Text)
  | 0, _ => none
  | fuel + 1, s =>
    match readMember fuel s with
    | none => none
    | some (member, rest) =>
      match skipSpace rest with
      | [] => none
      | c :: rest =>
        if c = 0x7D then some ([member], rest)
        else if c = 0x2C then (readMembers fuel (skipSpace rest)).map fun p => (member :: p.1, p.2)
        else none

/-- A key, a colon and a value. -/
def readMember : ℕ → Text → Option ((Text × PyValue) × Text)
  | 0, _ => none
  | fuel + 1, s =>
    match s with
    | [] => none
    | c :: rest =>
      if c = 0x22 then
        match readString rest with
        | none => none
        | some (key, rest) =>
          match skipSpace rest with
          | [] => none
          | d :: rest =>
            if d = 0x3A then (readValue fuel (skipSpace rest)).map fun p => ((key, p.1), p.2) else none
      else none
end

/-- `json.loads(s)`; none where it raises a `ValueError`. -/
def jsonLoads (s : Text) : Option PyValue :=
  if startsWith s [0xFEFF] then none
  else
    match readValue (2 * s.length + 2) (skipSpace s) with
    | none => none
    | some (v, rest) => if (skipSpace rest).isEmpty then some v else none

/-! ## What is read -/

theorem jsonWords_json {p : Text × PyValue} (h : p ∈ jsonWords) : p.2.IsJson := by
  simp only [jsonWords, List.mem_cons, List.not_mem_nil, or_false] at h
  rcases h with rfl | rfl | rfl | rfl | rfl | rfl <;> trivial

theorem readNumber_json {s rest : Text} {v : PyValue} (h : readNumber s = some (v, rest)) : v.IsJson := by
  unfold readNumber at h
  dsimp only at h
  split at h
  · cases h
  · split at h
    · obtain ⟨n, -, hn⟩ := Option.map_eq_some_iff.1 h
      cases hn
      trivial
    · obtain ⟨x, -, hx⟩ := Option.map_eq_some_iff.1 h
      cases hx
      trivial

theorem readWord_json {s rest : Text} {v : PyValue} (h : readWord s = some (v, rest)) : v.IsJson := by
  unfold readWord at h
  split at h
  · rename_i word w hfind
    cases h
    exact jsonWords_json (List.mem_of_find?_eq_some hfind)
  · exact readNumber_json h

theorem mem_ofMembers {members : List (Text × PyValue)} {p : Text × PyValue} (h : p ∈ (ofMembers members).entries) :
    p ∈ members := by
  have hfold : ∀ (l : List (Text × PyValue)) (d : Dict Text PyValue),
      p ∈ (l.foldl (fun d q => d.set q.1 q.2) d).entries → p ∈ l ∨ p ∈ d.entries := by
    intro l
    induction l with
    | nil => exact fun d hd => .inr hd
    | cons q l ih =>
      intro d hd
      rcases ih _ hd with hl | hl
      · exact .inl (List.mem_cons_of_mem _ hl)
      · rcases Dict.mem_setEntries hl with rfl | hl
        · exact .inl (List.mem_cons_self ..)
        · exact .inr hl
  exact (hfold members ∅ h).resolve_right List.not_mem_nil

/-- What the readers return are JSON documents, whatever the fuel. -/
structure ReadsJson (fuel : ℕ) : Prop where
  value : ∀ {s rest v}, readValue fuel s = some (v, rest) → v.IsJson
  items : ∀ {s rest vs}, readItems fuel s = some (vs, rest) → ∀ v ∈ vs, v.IsJson
  members : ∀ {s rest ms}, readMembers fuel s = some (ms, rest) → ∀ p ∈ ms, p.2.IsJson
  member : ∀ {s rest p}, readMember fuel s = some (p, rest) → p.2.IsJson

theorem readsJson (fuel : ℕ) : ReadsJson fuel := by
  induction fuel with
  | zero => exact ⟨nofun, nofun, nofun, nofun⟩
  | succ fuel ih =>
    constructor
    · intro s rest v h
      rw [readValue.eq_def] at h
      dsimp only at h
      split at h
      · cases h
      · split at h
        · obtain ⟨p, -, hp⟩ := Option.map_eq_some_iff.1 h
          cases hp
          trivial
        · split at h
          · split at h
            · cases h
            · split at h
              · cases h
                trivial
              · obtain ⟨p, hitems, hp⟩ := Option.map_eq_some_iff.1 h
                cases hp
                rw [PyValue.IsJson, PyValue.isJsonList_iff]
                exact ih.items hitems
          · split at h
            · split at h
              · cases h
              · split at h
                · cases h
                  exact ⟨List.nodup_nil, trivial⟩
                · obtain ⟨p, hmembers, hp⟩ := Option.map_eq_some_iff.1 h
                  cases hp
                  rw [PyValue.IsJson, PyValue.isJsonEntries_iff]
                  exact ⟨(ofMembers p.1).nodup, fun q hq => ih.members hmembers q (mem_ofMembers hq)⟩
            · exact readWord_json h
    · intro s rest vs h
      rw [readItems.eq_def] at h
      dsimp only at h
      split at h
      · cases h
      · rename_i v after hvalue
        split at h
        · cases h
        · split at h
          · cases h
            intro w hw
            rw [List.mem_singleton.1 hw]
            exact ih.value hvalue
          · split at h
            · obtain ⟨p, hitems, hp⟩ := Option.map_eq_some_iff.1 h
              cases hp
              exact List.forall_mem_cons.2 ⟨ih.value hvalue, ih.items hitems⟩
            · cases h
    · intro s rest ms h
      rw [readMembers.eq_def] at h
      dsimp only at h
      split at h
      · cases h
      · rename_i m after hmember
        split at h
        · cases h
        · split at h
          · cases h
            intro w hw
            rw [List.mem_singleton.1 hw]
            exact ih.member hmember
          · split at h
            · obtain ⟨p, hmembers, hp⟩ := Option.map_eq_some_iff.1 h
              cases hp
              exact List.forall_mem_cons.2 ⟨ih.member hmember, ih.members hmembers⟩
            · cases h
    · intro s rest m h
      rw [readMember.eq_def] at h
      dsimp only at h
      split at h
      · cases h
      · split at h
        · split at h
          · cases h
          · split at h
            · cases h
            · split at h
              · obtain ⟨p, hvalue, hp⟩ := Option.map_eq_some_iff.1 h
                cases hp
                exact ih.value hvalue
              · cases h
        · cases h

theorem jsonLoads_json {s : Text} {v : PyValue} (h : jsonLoads s = some v) : v.IsJson := by
  unfold jsonLoads at h
  split at h
  · cases h
  · split at h
    · cases h
    · rename_i w rest hvalue
      split at h
      · cases h
        exact (readsJson _).value hvalue
      · cases h

/-- The reader of the language. -/
def JsonLoads.reader : JsonLoads := ⟨jsonLoads, fun _ _ => jsonLoads_json⟩

end Python
