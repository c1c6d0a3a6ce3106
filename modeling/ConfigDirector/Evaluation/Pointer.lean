/-
Pointer lookup is RFC 6901: the text of some reference tokens is looked up by walking the document token by
token, and a text that is not the text of any finds nothing. The two replacements undo the escapes in any
token, and the pattern for an index reads canonical decimals only.
-/
import ConfigDirector.Evaluation.Condition
import ConfigDirector.Python.Captures
import ConfigDirector.Python.NumberToString
import ConfigDirector.Python.Splitting

namespace ConfigDirector.Evaluation

open Python

/-! ## The reference -/

/-- `~` as `~0`. -/
def escapeTilde (token : Text) : Text := token.flatMap fun c => if c = 0x7E then [0x7E, 0x30] else [c]

/-- `/` as `~1`. -/
def escapeSlash (token : Text) : Text := token.flatMap fun c => if c = 0x2F then [0x7E, 0x31] else [c]

def escape (token : Text) : Text := escapeSlash (escapeTilde token)

/-- The text of some reference tokens. -/
def pointerText (tokens : List Text) : Text := tokens.flatMap fun token => 0x2F :: escape token

/-- The member of an object with that name, or the element of an array whose canonical decimal index it is. -/
def child? (document : PyValue) (token : Text) : Option PyValue :=
  match document with
  | .dict entries => entries.lookup token
  | .list items => if token = natText (digitsToNat token) then items[digitsToNat token]? else none
  | _ => none

/-- What the tokens lead to, one after another. -/
def walk (document : PyValue) : List Text → Option PyValue
  | [] => some document
  | token :: tokens => (child? document token).bind fun next => walk next tokens

/-- A `~` that neither `0` nor `1` follows. -/
def BadEscape (rawToken : Text) : Prop :=
  ∃ before after, rawToken = before ++ 0x7E :: after ∧ after.head? ≠ some 0x30 ∧ after.head? ≠ some 0x31

/-- A text `int` reads, if it is an index. -/
def WithinDigitLimit (token : Text) : Prop := isAsciiDigits token = true → token.length ≤ maxStrDigits

/-! ## Escapes -/

theorem escapeTilde_cons (c : CodePoint) (token : Text) :
    escapeTilde (c :: token) = (if c = 0x7E then [0x7E, 0x30] else [c]) ++ escapeTilde token := List.flatMap_cons ..

theorem escape_cons (c : CodePoint) (token : Text) : escape (c :: token) =
    (if c = 0x7E then [0x7E, 0x30] else if c = 0x2F then [0x7E, 0x31] else [c]) ++ escape token := by
  rw [escape, escapeTilde_cons, escapeSlash, List.flatMap_append]
  congr 1
  split
  · rfl
  · exact List.flatMap_singleton ..

/-- The first replacement leaves the escapes of `~`. -/
theorem replaceSlash_escape (token : Text) : replacePair 0x7E 0x31 (lit "/") (escape token) = escapeTilde token := by
  induction token with
  | nil => rfl
  | cons c token ih =>
    rw [escape_cons, escapeTilde_cons]
    by_cases htilde : c = 0x7E
    · rw [if_pos htilde, if_pos htilde]
      show replacePair 0x7E 0x31 (lit "/") (0x7E :: 0x30 :: escape token) = 0x7E :: 0x30 :: escapeTilde token
      rw [replacePair_cons_cons_of_ne _ (by decide), replacePair_cons_of_ne (by decide), ih]
    · rw [if_neg htilde, if_neg htilde]
      by_cases hslash : c = 0x2F
      · subst hslash
        rw [if_pos rfl]
        show replacePair 0x7E 0x31 (lit "/") (0x7E :: 0x31 :: escape token) = _
        rw [replacePair_pair, ih]
        rfl
      · rw [if_neg hslash, List.singleton_append, List.singleton_append, replacePair_cons_of_ne htilde, ih]

theorem replaceTilde_escapeTilde (token : Text) : replacePair 0x7E 0x30 (lit "~") (escapeTilde token) = token := by
  induction token with
  | nil => rfl
  | cons c token ih =>
    rw [escapeTilde_cons]
    by_cases htilde : c = 0x7E
    · subst htilde
      rw [if_pos rfl]
      show replacePair 0x7E 0x30 (lit "~") (0x7E :: 0x30 :: escapeTilde token) = _
      rw [replacePair_pair, ih]
      rfl
    · rw [if_neg htilde, List.singleton_append, replacePair_cons_of_ne htilde, ih]

/-- The two replacements, in this order, undo the escapes. -/
theorem unescape_escape (token : Text) : unescape (escape token) = token := by
  rw [unescape, replaceSlash_escape, replaceTilde_escapeTilde]

theorem escape_injective {token token' : Text} (h : escape token = escape token') : token = token' := by
  rw [← unescape_escape token, h, unescape_escape]

/-- Digits are escaped as they are. -/
theorem escape_digits {token : Text} (h : AllDigits token) : escape token = token := by
  induction token with
  | nil => rfl
  | cons c token ih =>
    obtain ⟨hc, hrest⟩ := List.forall_mem_cons.1 h
    have htilde : c ≠ 0x7E := by
      rintro rfl
      cases hc
    have hslash : c ≠ 0x2F := by
      rintro rfl
      cases hc
    rw [escape_cons, if_neg htilde, if_neg hslash, List.singleton_append, ih hrest]

theorem slash_not_mem_escape (token : Text) : 0x2F ∉ escape token := by
  induction token with
  | nil => exact List.not_mem_nil
  | cons c token ih =>
    rw [escape_cons, List.mem_append, not_or]
    refine ⟨?_, ih⟩
    split
    · decide
    · split
      · decide
      · rename_i hslash
        exact fun h => hslash (List.mem_singleton.1 h).symm

theorem invalidEscape_iff (rawToken : Text) : invalidEscape rawToken = true ↔ BadEscape rawToken := by
  induction rawToken with
  | nil =>
    refine iff_of_false Bool.false_ne_true ?_
    rintro ⟨before, after, h, -⟩
    exact List.append_ne_nil_of_right_ne_nil _ (List.cons_ne_nil _ _) h.symm
  | cons c rawToken ih =>
    rw [invalidEscape, Bool.or_eq_true, ih]
    constructor
    · rintro (hhere | ⟨before, after, rfl, hafter⟩)
      · simp only [Bool.and_eq_true, decide_eq_true_eq, Bool.not_eq_true', Bool.or_eq_false_iff,
          decide_eq_false_iff_not] at hhere
        exact ⟨[], rawToken, by rw [hhere.1, List.nil_append], hhere.2⟩
      · exact ⟨c :: before, after, rfl, hafter⟩
    · rintro ⟨before, after, h, hafter⟩
      cases before with
      | nil =>
        obtain ⟨rfl, rfl⟩ := List.cons.inj h
        left
        simp only [Bool.and_eq_true, decide_eq_true_eq, Bool.not_eq_true', Bool.or_eq_false_iff,
          decide_eq_false_iff_not]
        exact ⟨trivial, hafter⟩
      | cons d before =>
        obtain ⟨-, rfl⟩ := List.cons.inj h
        exact .inr ⟨before, after, rfl, hafter⟩

/-- The escapes of a token are good. -/
theorem invalidEscape_escape (token : Text) : invalidEscape (escape token) = false := by
  induction token with
  | nil => rfl
  | cons c token ih =>
    rw [escape_cons]
    by_cases htilde : c = 0x7E
    · rw [if_pos htilde]
      exact ih
    · rw [if_neg htilde]
      by_cases hslash : c = 0x2F
      · rw [if_pos hslash]
        exact ih
      · rw [if_neg hslash, List.singleton_append, invalidEscape, ih]
        simp [htilde]

/-- A raw token without a bad escape is a token, escaped. -/
theorem exists_escape : ∀ {rawToken : Text}, 0x2F ∉ rawToken → invalidEscape rawToken = false →
    ∃ token, escape token = rawToken
  | [], _, _ => ⟨[], rfl⟩
  | [c], hfree, hvalid => by
    have hslash : c ≠ 0x2F := fun h => hfree (h ▸ List.mem_singleton_self c)
    have htilde : c ≠ 0x7E := by
      rintro rfl
      cases hvalid
    exact ⟨[c], by rw [escape_cons, if_neg htilde, if_neg hslash]; rfl⟩
  | c :: d :: rest, hfree, hvalid => by
    rw [List.mem_cons, not_or] at hfree
    rw [invalidEscape, Bool.or_eq_false_iff] at hvalid
    by_cases htilde : c = 0x7E
    · subst htilde
      have hrest := Bool.or_eq_false_iff.1 hvalid.2
      obtain ⟨token, htoken⟩ := exists_escape (fun h => hfree.2 (List.mem_cons_of_mem _ h)) hrest.2
      -- the pair is an escape of one of the two
      have hpair : d = 0x30 ∨ d = 0x31 := or_iff_not_imp_left.2 (by simpa using hvalid.1)
      rcases hpair with rfl | rfl
      · exact ⟨0x7E :: token, by rw [escape_cons, if_pos rfl, htoken]; rfl⟩
      · exact ⟨0x2F :: token, by rw [escape_cons, if_neg (by decide), if_pos rfl, htoken]; rfl⟩
    · obtain ⟨token, htoken⟩ := exists_escape hfree.2 hvalid.2
      exact ⟨c :: token, by rw [escape_cons, if_neg htilde, if_neg (Ne.symm hfree.1), htoken]; rfl⟩

theorem exists_escapes : ∀ {rawTokens : List Text}, (∀ raw ∈ rawTokens, 0x2F ∉ raw) →
    (∀ raw ∈ rawTokens, invalidEscape raw = false) → ∃ tokens : List Text, tokens.map escape = rawTokens
  | [], _, _ => ⟨[], rfl⟩
  | raw :: rawTokens, hfree, hvalid => by
    rw [List.forall_mem_cons] at hfree hvalid
    obtain ⟨token, htoken⟩ := exists_escape hfree.1 hvalid.1
    obtain ⟨tokens, hmap⟩ := exists_escapes hfree.2 hvalid.2
    exact ⟨token :: tokens, by rw [List.map_cons, htoken, hmap]⟩

/-! ## Indices -/

theorem arrayIndexPattern_plain : arrayIndexPattern.Plain := ⟨trivial, trivial, trivial⟩

/-- The pattern matches the canonical decimals. -/
theorem arrayIndex_iff (token : Text) :
    (arrayIndexPattern.fullMatch token).isSome = true ↔ token = natText (digitsToNat token) := by
  rw [Regex.fullMatch_isSome_iff arrayIndexPattern_plain]
  constructor
  · rintro ⟨gs, ⟨c, hc, rfl, -⟩ | ⟨_, t, _, _, ⟨c, hc, rfl, -⟩, ⟨hdigits, -⟩, rfl, -⟩⟩
    · have hzero : c = CodePoint.ofChar '0' := of_decide_eq_true hc
      rw [hzero]
      decide
    · rw [Bool.and_eq_true, decide_eq_true_eq, decide_eq_true_eq] at hc
      have hhead : ([c] ++ t).head? ≠ some 0x30 := by
        rintro h
        cases h
        exact absurd hc.1 (by decide)
      have hall : AllDigits ([c] ++ t) := by
        refine allDigits_append.2 ⟨fun d hd => ?_, hdigits⟩
        rw [List.mem_singleton.1 hd, CodePoint.isAsciiDigit, Bool.and_eq_true, decide_eq_true_eq, decide_eq_true_eq]
        exact ⟨(by decide : 0x30 ≤ 0x31).trans hc.1, hc.2⟩
      exact (natText_digitsToNat hall (List.cons_ne_nil c t) hhead).symm
  · intro h
    by_cases hzero : digitsToNat token = 0
    · rw [h, hzero]
      exact ⟨[], .inl ⟨CodePoint.ofChar '0', by decide, rfl, rfl⟩⟩
    · have hhead := head_natText hzero
      have hall := allDigits_natText (digitsToNat token)
      rw [← h] at hhead hall
      cases token with
      | nil => exact absurd rfl hzero
      | cons c t =>
        have hc := hall c (List.mem_cons_self ..)
        rw [CodePoint.isAsciiDigit, Bool.and_eq_true, decide_eq_true_eq, decide_eq_true_eq] at hc
        have hne : c.val ≠ 0x30 := fun hval => hhead (congrArg some (Fin.ext hval))
        refine ⟨[], .inr ⟨[c], t, [], [], ⟨c, ?_, rfl, rfl⟩, ⟨?_, Nat.zero_le _, (fun _ hm => by cases hm), rfl⟩, rfl, rfl⟩⟩
        · rw [Bool.and_eq_true, decide_eq_true_eq, decide_eq_true_eq]
          exact ⟨Nat.lt_of_le_of_ne hc.1 (Ne.symm hne), hc.2⟩
        · exact fun d hd => hall d (List.mem_cons_of_mem _ hd)

/-! ## The walk -/

/-- The token is an index of a list of more digits than `int` reads. -/
def BeyondDigitLimit (current : PyValue) (token : Text) : Prop :=
  (∃ items, current = .list items) ∧ token = natText (digitsToNat token) ∧ maxStrDigits < token.length

theorem pointerStep_beyond {current : PyValue} {token : Text} (h : BeyondDigitLimit current token) :
    pointerStep current token = .error .valueError := by
  obtain ⟨⟨items, rfl⟩, hindex, hlong⟩ := h
  rw [pointerStep, if_pos ((arrayIndex_iff token).2 hindex), if_pos hlong]

/-- Any other step takes to the child. -/
theorem pointerStep_within {current : PyValue} {token : Text} (h : ¬ BeyondDigitLimit current token) :
    pointerStep current token = .ok (child? current token) := by
  cases current with
  | list items =>
    rw [pointerStep, child?]
    by_cases hindex : token = natText (digitsToNat token)
    · have hshort : ¬ maxStrDigits < token.length := fun hlong => h ⟨⟨items, rfl⟩, hindex, hlong⟩
      rw [if_pos ((arrayIndex_iff token).2 hindex), if_neg hshort, if_pos hindex]
    · rw [if_neg (mt (arrayIndex_iff token).1 hindex), if_neg hindex]
  | _ => rfl

theorem WithinDigitLimit.not_beyond {token : Text} (h : WithinDigitLimit token) (current : PyValue) :
    ¬ BeyondDigitLimit current token := by
  rintro ⟨-, hindex, hlong⟩
  have hdigits : isAsciiDigits token = true := by
    rw [hindex]
    exact isAsciiDigits_natText _
  exact absurd (h hdigits) (Nat.not_le.2 hlong)

theorem pointerWalk_escape : ∀ (tokens : List Text) (current : PyValue), (∀ token ∈ tokens, WithinDigitLimit token) →
    pointerWalk current (tokens.map escape) = .ok ((walk current tokens).getD .none)
  | [], _, _ => rfl
  | token :: tokens, current, h => by
    rw [List.forall_mem_cons] at h
    rw [List.map_cons, pointerWalk, invalidEscape_escape, if_neg Bool.false_ne_true, unescape_escape,
      pointerStep_within (h.1.not_beyond current), walk]
    cases hchild : child? current token with
    | none => rfl
    | some next => exact pointerWalk_escape tokens next h.2

theorem withinDigitLimit_unescape {rawToken : Text} (hfree : 0x2F ∉ rawToken) (hvalid : invalidEscape rawToken = false)
    (h : WithinDigitLimit rawToken) : WithinDigitLimit (unescape rawToken) := by
  obtain ⟨token, rfl⟩ := exists_escape hfree hvalid
  rw [unescape_escape]
  intro hdigits
  rw [escape_digits ((isAsciiDigits_iff token).1 hdigits).2] at h
  exact h hdigits

/-- A raw token with a bad escape ends the walk with nothing, if nothing else does. -/
theorem pointerWalk_invalid : ∀ {rawTokens : List Text} (current : PyValue), (∀ raw ∈ rawTokens, 0x2F ∉ raw) →
    (∀ raw ∈ rawTokens, WithinDigitLimit raw) → (∃ raw ∈ rawTokens, invalidEscape raw = true) →
    pointerWalk current rawTokens = .ok .none
  | [], _, _, _, ⟨_, hmem, _⟩ => by cases hmem
  | rawToken :: rest, current, hfree, hlimit, ⟨raw, hmem, hbad⟩ => by
    rw [List.forall_mem_cons] at hfree hlimit
    rw [pointerWalk]
    cases hvalid : invalidEscape rawToken with
    | true => rfl
    | false =>
      have hrest : ∃ raw ∈ rest, invalidEscape raw = true := by
        rcases List.mem_cons.1 hmem with rfl | hmem
        · rw [hvalid] at hbad
          cases hbad
        · exact ⟨raw, hmem, hbad⟩
      have hwithin := withinDigitLimit_unescape hfree.1 hvalid hlimit.1
      rw [if_neg Bool.false_ne_true, pointerStep_within (hwithin.not_beyond current)]
      cases child? current (unescape rawToken) with
      | none => rfl
      | some next => exact pointerWalk_invalid next hfree.2 hlimit.2 hrest

/-! ## RFC 6901 -/

theorem splitOn_pointerText (token : Text) (tokens : List Text) :
    ∃ rest, pointerText (token :: tokens) = 0x2F :: rest ∧ splitOn 0x2F rest = (token :: tokens).map escape := by
  refine ⟨escape token ++ (tokens.map escape).flatMap (0x2F :: ·), ?_, splitOn_flatMap ?_⟩
  · rw [pointerText, List.flatMap_cons, List.flatMap_map]
    rfl
  · intro p hp
    obtain ⟨t, -, rfl⟩ := List.mem_map.1 (List.map_cons .. ▸ hp : p ∈ (token :: tokens).map escape)
    exact slash_not_mem_escape t

/-- The texts of tokens are those that start with `/` and have no bad escape. -/
theorem exists_pointerText_iff (pointer : Text) : (∃ tokens, tokens ≠ [] ∧ pointer = pointerText tokens) ↔
    pointer.head? = some 0x2F ∧ ∀ raw ∈ splitOn 0x2F pointer, ¬ BadEscape raw := by
  simp only [← invalidEscape_iff, Bool.not_eq_true]
  constructor
  · rintro ⟨tokens, hne, rfl⟩
    obtain ⟨token, tokens, rfl⟩ := List.exists_cons_of_ne_nil hne
    obtain ⟨rest, htext, hsplit⟩ := splitOn_pointerText token tokens
    rw [htext, splitOn_cons_self, hsplit, List.forall_mem_cons]
    refine ⟨rfl, rfl, fun raw hraw => ?_⟩
    obtain ⟨t, -, rfl⟩ := List.mem_map.1 hraw
    exact invalidEscape_escape t
  · rintro ⟨hhead, hvalid⟩
    obtain ⟨rest, rfl⟩ : ∃ rest, pointer = 0x2F :: rest := by
      cases pointer with
      | nil => cases hhead
      | cons c rest =>
        cases hhead
        exact ⟨rest, rfl⟩
    obtain ⟨part, parts, hsplit, hfree, hrest⟩ := splitOn_parts 0x2F rest
    rw [splitOn_cons_self, hsplit, List.forall_mem_cons] at hvalid
    obtain ⟨tokens, hmap⟩ := exists_escapes hfree hvalid.2
    refine ⟨tokens, ?_, ?_⟩
    · rintro rfl
      cases hmap
    · rw [pointerText, ← List.flatMap_map escape (0x2F :: ·), hmap, List.flatMap_cons, hrest]
      rfl

/-- The text of some tokens finds what walking the document finds, any other text finds nothing, and these are
the texts without a leading `/` or with a bad escape. -/
theorem findByPointer_rfc6901 (document : PyValue) :
    (∀ tokens : List Text, tokens ≠ [] → (∀ token ∈ tokens, WithinDigitLimit token) →
      findByPointer (pointerText tokens) document = .ok ((walk document tokens).getD .none)) ∧
    (∀ pointer : Text, (¬ ∃ tokens, tokens ≠ [] ∧ pointer = pointerText tokens) →
      (∀ raw ∈ splitOn 0x2F pointer, WithinDigitLimit raw) → findByPointer pointer document = .ok .none) ∧
    ∀ pointer : Text, (∃ tokens, tokens ≠ [] ∧ pointer = pointerText tokens) ↔
      pointer.head? = some 0x2F ∧ ∀ raw ∈ splitOn 0x2F pointer, ¬ BadEscape raw := by
  refine ⟨fun tokens hne hlimit => ?_, fun pointer hnot hlimit => ?_, exists_pointerText_iff⟩
  · obtain ⟨token, tokens, rfl⟩ := List.exists_cons_of_ne_nil hne
    obtain ⟨rest, htext, hsplit⟩ := splitOn_pointerText token tokens
    rw [htext, findByPointer, if_pos rfl, hsplit]
    exact pointerWalk_escape _ document hlimit
  · rw [exists_pointerText_iff, not_and] at hnot
    cases pointer with
    | nil => rfl
    | cons c rest =>
      rw [findByPointer]
      by_cases hslash : c = 0x2F
      · subst hslash
        have hbad := hnot rfl
        rw [splitOn_cons_self, List.forall_mem_cons] at hbad hlimit
        obtain ⟨part, parts, hsplit, hfree, -⟩ := splitOn_parts 0x2F rest
        rw [if_pos rfl]
        refine pointerWalk_invalid document (hsplit ▸ hfree) hlimit.2 ?_
        by_contra hgood
        push Not at hgood
        refine hbad ⟨fun h => ?_, fun raw hraw h => hgood raw hraw ((invalidEscape_iff raw).2 h)⟩
        exact absurd ((invalidEscape_iff _).2 h) Bool.false_ne_true
      · rw [if_neg hslash]

end ConfigDirector.Evaluation
