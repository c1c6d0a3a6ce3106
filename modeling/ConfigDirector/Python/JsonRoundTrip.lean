/-
The round trip: what `json.dumps` writes of a JSON document, `json.loads` reads back as that document, and what it
writes with `ensure_ascii` can be encoded.
-/
import ConfigDirector.Python.JsonWriter
import ConfigDirector.Python.Utf8RoundTrip

namespace Python

/-! ## Values -/

namespace PyValue

mutual
/-- No text in a value has the halves of a surrogate pair next to each other. -/
def PairFree : PyValue → Prop
  | str s => Python.PairFree s
  | list items => PairFreeList items
  | dict entries => PairFreeEntries entries
  | _ => True

def PairFreeList : List PyValue → Prop
  | [] => True
  | v :: vs => v.PairFree ∧ PairFreeList vs

def PairFreeEntries : List (Text × PyValue) → Prop
  | [] => True
  | (k, v) :: es => Python.PairFree k ∧ v.PairFree ∧ PairFreeEntries es
end

mutual
theorem Clean.pairFree : ∀ v : PyValue, v.Clean → v.PairFree
  | .none, _ | .bool _, _ | .int _, _ | .float _, _ | .other _, _ => trivial
  | .str _, h => Encodable.pairFree h
  | .list items, h => Clean.pairFreeList items h
  | .dict entries, h => Clean.pairFreeEntries entries h

theorem Clean.pairFreeList : ∀ vs : List PyValue, CleanList vs → PairFreeList vs
  | [], _ => trivial
  | v :: vs, h => ⟨Clean.pairFree v h.1, Clean.pairFreeList vs h.2⟩

theorem Clean.pairFreeEntries : ∀ es : List (Text × PyValue), CleanEntries es → PairFreeEntries es
  | [], _ => trivial
  | (_, v) :: es, h => ⟨h.1.pairFree, Clean.pairFree v h.2.1, Clean.pairFreeEntries es h.2.2⟩
end

end PyValue

/-- A text that starts with an ASCII character, which is no space and no closing bracket. -/
def StartsValue (text : Text) : Prop :=
  ∃ c rest, text = c :: rest ∧ isJsonSpace c = false ∧ c ≠ 0x5D ∧ c ≠ 0x7D ∧ c.val < 0x80

theorem StartsValue.append {text : Text} (h : StartsValue text) (rest : Text) : StartsValue (text ++ rest) := by
  obtain ⟨c, t, rfl, hc⟩ := h
  exact ⟨c, t ++ rest, rfl, hc⟩

theorem StartsValue.length_pos {text : Text} (h : StartsValue text) : 0 < text.length := by
  obtain ⟨c, t, rfl, -⟩ := h
  exact Nat.succ_pos _

theorem skipSpace_append {space rest : Text} (h : ∀ c ∈ space, isJsonSpace c = true) :
    skipSpace (space ++ rest) = skipSpace rest := List.dropWhile_append_of_pos h

theorem skipSpace_of_not {c : CodePoint} (h : isJsonSpace c = false) (rest : Text) : skipSpace (c :: rest) = c :: rest := by
  unfold skipSpace
  rw [List.dropWhile_cons, h]
  rfl

theorem StartsValue.skipSpace {text : Text} (h : StartsValue text) : Python.skipSpace text = text := by
  obtain ⟨c, t, rfl, hc, -⟩ := h
  exact skipSpace_of_not hc t

/-- No word has a digit in it, and none is a sign only. -/
theorem jsonWords_letters {p : Text × PyValue} (h : p ∈ jsonWords) :
    2 ≤ p.1.length ∧ ∀ c ∈ p.1, c.isAsciiDigit = false := by
  have hall : jsonWords.all (fun p => decide (2 ≤ p.1.length) && p.1.all fun c => !c.isAsciiDigit) = true := by decide
  have hp := List.all_eq_true.1 hall p h
  rw [Bool.and_eq_true, decide_eq_true_eq, List.all_eq_true] at hp
  exact ⟨hp.1, fun c hc => by simpa using hp.2 c hc⟩

/-- Digits, perhaps with a sign, are no word. -/
theorem readWord_signed (neg : Bool) {s : Text} (h : ∃ c rest, s = c :: rest ∧ c.isAsciiDigit = true) :
    readWord (signText neg ++ s) = readNumber (signText neg ++ s) := by
  obtain ⟨c, rest, rfl, hc⟩ := h
  have hword : jsonWords.find? (fun p => startsWith (signText neg ++ c :: rest) p.1) = none := by
    rw [List.find?_eq_none]
    intro p hp hprefix
    obtain ⟨hlength, hletters⟩ := jsonWords_letters hp
    obtain ⟨after, hafter⟩ := List.isPrefixOf_iff_prefix.1 hprefix
    -- the digit would be the first or the second character of the word
    have hmem : c ∈ p.1 := by
      generalize p.1 = word at hlength hafter
      match word, hlength with
      | d :: e :: word, _ =>
        cases neg with
        | false =>
          cases hafter
          exact List.mem_cons_self
        | true =>
          cases hafter
          exact List.mem_cons_of_mem _ List.mem_cons_self
    rw [hletters c hmem] at hc
    cases hc
  unfold readWord
  rw [hword]

/-- What starts with a sign or a digit is read as a word or a number. -/
theorem readValue_word {fuel : ℕ} {c : CodePoint} {rest : Text} (h : c ≠ 0x22 ∧ c ≠ 0x5B ∧ c ≠ 0x7B) :
    readValue (fuel + 1) (c :: rest) = readWord (c :: rest) := by
  rw [readValue.eq_def]
  dsimp only
  rw [if_neg h.1, if_neg h.2.1, if_neg h.2.2]

theorem readValue_signed (fuel : ℕ) (neg : Bool) {s : Text} (h : ∃ c rest, s = c :: rest ∧ c.isAsciiDigit = true) :
    readValue (fuel + 1) (signText neg ++ s) = readNumber (signText neg ++ s) := by
  rw [← readWord_signed neg h]
  obtain ⟨c, rest, rfl, hc⟩ := h
  cases neg with
  | false =>
    refine readValue_word ⟨?_, ?_, ?_⟩ <;>
      · rintro rfl
        exact absurd hc (by decide)
  | true => exact readValue_word (by decide)

theorem startsValue_signed (neg : Bool) {s : Text} (h : ∃ c rest, s = c :: rest ∧ c.isAsciiDigit = true) :
    StartsValue (signText neg ++ s) := by
  obtain ⟨c, rest, rfl, hc⟩ := h
  cases neg with
  | false =>
    have hval := asciiDigit_val hc
    refine ⟨c, rest, rfl, ?_, ?_, ?_, by omega⟩
    · have hspaces : ∀ d : CodePoint, d.val < 0x30 → c ≠ d := by
        rintro d hd rfl
        omega
      unfold isJsonSpace
      simp only [hspaces 0x20 (by decide), hspaces 0x09 (by decide), hspaces 0x0A (by decide), hspaces 0x0D (by decide),
        decide_false, Bool.or_self]
    all_goals
      rintro rfl
      exact absurd hc (by decide)
  | true => exact ⟨0x2D, c :: rest, rfl, rfl, by decide, by decide, by decide⟩

theorem natText_head (n : ℕ) (rest : Text) : ∃ c t, natText n ++ rest = c :: t ∧ c.isAsciiDigit = true := by
  have hne := natText_ne_nil n
  have hdigits := allDigits_natText n
  generalize natText n = s at hne hdigits
  cases s with
  | nil => exact absurd rfl hne
  | cons c s => exact ⟨c, s ++ rest, rfl, hdigits c List.mem_cons_self⟩

theorem IsWhole.head {whole : Text} (h : IsWhole whole) (rest : Text) :
    ∃ c t, whole ++ rest = c :: t ∧ c.isAsciiDigit = true := by
  rcases h with rfl | ⟨hdigits, hne, -⟩
  · exact ⟨0x30, rest, rfl, rfl⟩
  · cases whole with
    | nil => exact absurd rfl hne
    | cons c whole => exact ⟨c, whole ++ rest, rfl, hdigits c List.mem_cons_self⟩

/-! ## The round trip -/

section RoundTrip

variable {style : JsonStyle}

/-- A value that is written as `text` is read back from it, whatever follows. -/
structure ReadsBack (text : Text) (v : PyValue) : Prop where
  starts : StartsValue text
  reads : ∀ (fuel : ℕ) (rest : Text), 2 * text.length ≤ fuel → Delimits rest → readValue fuel (text ++ rest) = some (v, rest)

theorem readsBack_of_succ {text : Text} {v : PyValue} (hstarts : StartsValue text)
    (h : ∀ fuel {rest}, Delimits rest → readValue (fuel + 1) (text ++ rest) = some (v, rest)) : ReadsBack text v := by
  refine ⟨hstarts, ?_⟩
  intro fuel rest hfuel hrest
  have hpos := hstarts.length_pos
  obtain ⟨n, rfl⟩ : ∃ n, fuel = n + 1 := ⟨fuel - 1, by omega⟩
  exact h n hrest

theorem readsBack_int {n : ℤ} {text : Text} (h : intRepr n = .ok text) : ReadsBack text (.int n) := by
  unfold intRepr at h
  split at h
  · cases h
  · rename_i hfits
    cases h
    have hhead := natText_head n.natAbs []
    rw [List.append_nil] at hhead
    refine readsBack_of_succ ?_ ?_
    · rw [intText_sign]
      exact startsValue_signed _ hhead
    · intro fuel rest hrest
      rw [← readNumber_intText (not_lt.1 hfits) hrest, intText_sign, List.append_assoc]
      exact readValue_signed fuel _ (natText_head _ rest)

theorem readsBack_float (x : Binary64) : ReadsBack (PyFloat.finite x).repr (.float (.finite x)) := by
  obtain ⟨whole, fraction, exponent, htext, h⟩ := floatRepr_notation x
  refine readsBack_of_succ ?_ ?_
  · rw [htext]
    exact startsValue_signed _ (h.isWhole.head _)
  · intro fuel rest hrest
    rw [← readNumber_repr x hrest, htext, List.append_assoc, List.append_assoc]
    exact readValue_signed fuel _ (h.isWhole.head _)

theorem readsBack_word {word : Text} {v : PyValue} (h : (word, v) ∈ jsonWords) : ReadsBack word v := by
  simp only [jsonWords, List.mem_cons, List.not_mem_nil, or_false, Prod.mk.injEq] at h
  rcases h with ⟨rfl, rfl⟩ | ⟨rfl, rfl⟩ | ⟨rfl, rfl⟩ | ⟨rfl, rfl⟩ | ⟨rfl, rfl⟩ | ⟨rfl, rfl⟩ <;>
    exact readsBack_of_succ ⟨_, _, rfl, rfl, by decide, by decide, by decide⟩ fun _ _ _ => rfl

theorem readsBack_jsonFloat (x : PyFloat) : ReadsBack (jsonFloat x) (.float x) := by
  cases x with
  | finite x => exact readsBack_float x
  | nan => exact readsBack_word (by simp [jsonWords, jsonFloat])
  | inf neg => cases neg <;> exact readsBack_word (by simp [jsonWords, jsonFloat])

theorem readsBack_string {ensureAscii : Bool} {s : Text} (h : ensureAscii = true → PairFree s) :
    ReadsBack (jsonString ensureAscii s) (.str s) := by
  have htext : ∀ rest, jsonString ensureAscii s ++ rest = 0x22 :: (s.flatMap (jsonChar ensureAscii) ++ 0x22 :: rest) := by
    intro rest
    unfold jsonString
    simp only [List.append_assoc, List.cons_append, List.nil_append]
  refine readsBack_of_succ ?_ ?_
  · rw [← List.append_nil (jsonString ensureAscii s), htext]
    exact ⟨_, _, rfl, rfl, by decide, by decide, by decide⟩
  · intro fuel rest hrest
    rw [htext, readValue.eq_def]
    dsimp only
    rw [if_pos rfl, readString_written h]
    rfl

/-- An array of texts that are read back is read back, from behind its bracket. -/
theorem readItems_join {sep after : Text} (hsep : sep = 0x2C :: after) (hafter : ∀ c ∈ after, isJsonSpace c = true)
    {texts : List Text} {vs : List PyValue} (h : List.Forall₂ ReadsBack texts vs) (hne : texts ≠ []) :
    ∀ (fuel : ℕ) (rest : Text), 2 * (join sep texts).length + 1 ≤ fuel →
      readItems fuel (join sep texts ++ 0x5D :: rest) = some (vs, rest) := by
  induction h with
  | nil => exact absurd rfl hne
  | cons hv hvs ih =>
    rename_i text v texts vs
    intro fuel rest hfuel
    obtain ⟨fuel, rfl⟩ : ∃ n, fuel = n + 1 := ⟨fuel - 1, by omega⟩
    cases hvs with
    | nil =>
      have hread := hv.reads fuel (0x5D :: rest) (by rw [join] at hfuel; omega)
        (delimits_cons (.inr (.inl rfl)) rest)
      rw [join, readItems.eq_def]
      dsimp only
      rw [hread]
      rfl
    | cons hw hws =>
      rename_i text' w texts vs
      subst hsep
      rw [join, List.length_append, List.length_append, List.length_cons] at hfuel
      have hread := hv.reads fuel ((0x2C :: after) ++ (join (0x2C :: after) (text' :: texts) ++ 0x5D :: rest))
        (by omega) (delimits_cons (.inl rfl) _)
      have hrest := ih (List.cons_ne_nil _ _) fuel rest (by omega)
      have hstarts : StartsValue (join (0x2C :: after) (text' :: texts) ++ 0x5D :: rest) := by
        cases texts with
        | nil => exact hw.starts.append _
        | cons text'' texts =>
          rw [join, List.append_assoc, List.append_assoc]
          exact hw.starts.append _
      rw [join, List.append_assoc, List.append_assoc, readItems.eq_def]
      dsimp only
      rw [hread]
      dsimp only
      rw [List.cons_append, skipSpace_of_not rfl]
      dsimp only
      rw [if_neg (by decide), if_pos rfl, skipSpace_append hafter, hstarts.skipSpace, hrest]
      rfl

/-- A key, a colon and a text that is read back. -/
def memberText (style : JsonStyle) (key text : Text) : Text := jsonString style.ensureAscii key ++ style.keySeparator ++ text

/-- The member of an object that is written as `text`. -/
structure ReadsMember (text : Text) (p : Text × PyValue) : Prop where
  starts : StartsValue text
  reads : ∀ (fuel : ℕ) (rest : Text), 2 * text.length ≤ fuel → Delimits rest → readMember fuel (text ++ rest) = some (p, rest)

theorem readsMember (hstyle : style.Separates) {key text : Text} {v : PyValue} (h : ReadsBack text v)
    (hkey : style.ensureAscii = true → PairFree key) : ReadsMember (memberText style key text) (key, v) := by
  obtain ⟨after, hsep, hafter⟩ := hstyle.key
  have htext : ∀ rest, memberText style key text ++ rest =
      0x22 :: (key.flatMap (jsonChar style.ensureAscii) ++ 0x22 :: (0x3A :: (after ++ (text ++ rest)))) := by
    intro rest
    unfold memberText jsonString
    simp only [hsep, List.append_assoc, List.cons_append, List.nil_append]
  have hlength := congrArg List.length (htext [])
  simp only [List.append_nil, List.length_cons, List.length_append] at hlength
  refine ⟨?_, ?_⟩
  · rw [← List.append_nil (memberText style key text), htext]
    exact ⟨_, _, rfl, rfl, by decide, by decide, by decide⟩
  · intro fuel rest hfuel hrest
    obtain ⟨fuel, rfl⟩ : ∃ n, fuel = n + 1 := ⟨fuel - 1, by omega⟩
    rw [htext, readMember.eq_def]
    dsimp only
    rw [if_pos rfl, readString_written hkey]
    dsimp only
    rw [skipSpace_of_not rfl]
    dsimp only
    rw [if_pos rfl, skipSpace_append hafter, (h.starts.append rest).skipSpace, h.reads _ _ (by omega) hrest]
    rfl

/-- Members that are read back are read back, from behind the brace of their object. -/
theorem readMembers_join {sep after : Text} (hsep : sep = 0x2C :: after) (hafter : ∀ c ∈ after, isJsonSpace c = true)
    {texts : List Text} {es : List (Text × PyValue)} (h : List.Forall₂ ReadsMember texts es) (hne : texts ≠ []) :
    ∀ (fuel : ℕ) (rest : Text), 2 * (join sep texts).length + 1 ≤ fuel →
      readMembers fuel (join sep texts ++ 0x7D :: rest) = some (es, rest) := by
  induction h with
  | nil => exact absurd rfl hne
  | cons hv hvs ih =>
    rename_i text p texts es
    intro fuel rest hfuel
    obtain ⟨fuel, rfl⟩ : ∃ n, fuel = n + 1 := ⟨fuel - 1, by omega⟩
    cases hvs with
    | nil =>
      have hread := hv.reads fuel (0x7D :: rest) (by rw [join] at hfuel; omega)
        (delimits_cons (.inr (.inr rfl)) rest)
      rw [join, readMembers.eq_def]
      dsimp only
      rw [hread]
      rfl
    | cons hw hws =>
      rename_i text' q texts es
      subst hsep
      rw [join, List.length_append, List.length_append, List.length_cons] at hfuel
      have hread := hv.reads fuel ((0x2C :: after) ++ (join (0x2C :: after) (text' :: texts) ++ 0x7D :: rest))
        (by omega) (delimits_cons (.inl rfl) _)
      have hrest := ih (List.cons_ne_nil _ _) fuel rest (by omega)
      have hstarts : StartsValue (join (0x2C :: after) (text' :: texts) ++ 0x7D :: rest) := by
        cases texts with
        | nil => exact hw.starts.append _
        | cons text'' texts =>
          rw [join, List.append_assoc, List.append_assoc]
          exact hw.starts.append _
      rw [join, List.append_assoc, List.append_assoc, readMembers.eq_def]
      dsimp only
      rw [hread]
      dsimp only
      rw [List.cons_append, skipSpace_of_not rfl]
      dsimp only
      rw [if_neg (by decide), if_pos rfl, skipSpace_append hafter, hstarts.skipSpace, hrest]
      rfl

/-- Items with distinct keys are those of the dictionary they are put in. -/
theorem Dict.entries_foldl_set {κ ν : Type} [DecidableEq κ] {items : List (κ × ν)} (h : (items.map Prod.fst).Nodup) :
    (items.foldl (fun d p => d.set p.1 p.2) (∅ : Dict κ ν)).entries = items := by
  have hset : ∀ (k : κ) (v : ν) (l : List (κ × ν)), k ∉ l.map Prod.fst → Dict.setEntries k v l = l ++ [(k, v)] := by
    intro k v l
    induction l with
    | nil => exact fun _ => rfl
    | cons p l ih =>
      intro hk
      rw [List.map_cons, List.mem_cons, not_or] at hk
      rw [Dict.setEntries, if_neg (Ne.symm hk.1), ih hk.2]
      rfl
  have hfold : ∀ (l : List (κ × ν)) (d : Dict κ ν), ((d.entries ++ l).map Prod.fst).Nodup →
      (l.foldl (fun d p => d.set p.1 p.2) d).entries = d.entries ++ l := by
    intro l
    induction l with
    | nil => exact fun d _ => (List.append_nil _).symm
    | cons p l ih =>
      intro d hd
      have hnew : p.1 ∉ d.entries.map Prod.fst := by
        intro hmem
        rw [List.map_append, List.nodup_append] at hd
        exact hd.2.2 _ hmem _ (List.mem_cons_self ..) rfl
      have hentries : (d.set p.1 p.2).entries = d.entries ++ [p] := hset p.1 p.2 d.entries hnew
      rw [List.foldl_cons, ih _ (by rw [hentries, List.append_assoc]; exact hd), hentries, List.append_assoc]
      rfl
  exact hfold items ∅ h

/-- Members with distinct keys are the items of their dictionary. -/
theorem entries_ofMembers {members : List (Text × PyValue)} (h : (members.map Prod.fst).Nodup) :
    (ofMembers members).entries = members := Dict.entries_foldl_set h

mutual
/-- What `json.dumps` writes of a JSON document is read back as it. -/
theorem readsBack_dumps (hstyle : style.Separates) : ∀ (v : PyValue) {text : Text}, dumps style v = .ok text → v.IsJson →
    (style.ensureAscii = true → v.PairFree) → ReadsBack text v
  | .none, _, h, _, _ => by
    cases h
    exact readsBack_word (by simp [jsonWords])
  | .bool b, _, h, _, _ => by
    cases h
    cases b <;> exact readsBack_word (by simp [jsonWords])
  | .int _, _, h, _, _ => by
    rw [dumps_int] at h
    exact readsBack_int h
  | .float x, _, h, _, _ => by
    rw [dumps_float] at h
    split at h
    · cases h
      exact readsBack_jsonFloat x
    · cases h
  | .str s, _, h, _, hpairs => by
    cases h
    exact readsBack_string hpairs
  | .list items, text, h, hjson, hpairs => by
    rw [dumps_list] at h
    obtain ⟨parts, hparts, htext⟩ := bind_eq_ok_iff.1 h
    cases htext
    rw [PyValue.IsJson] at hjson
    have hitems := readsBack_dumpsList hstyle items hparts hjson hpairs
    obtain ⟨after, hsep, hafter⟩ := hstyle.item
    refine ⟨⟨0x5B, join style.itemSeparator parts ++ lit "]", rfl, rfl, by decide, by decide, by decide⟩, ?_⟩
    intro fuel rest hfuel hrest
    simp only [List.length_append] at hfuel
    have hopen : (lit "[").length = 1 := rfl
    have hclose : (lit "]").length = 1 := rfl
    obtain ⟨fuel, rfl⟩ : ∃ n, fuel = n + 1 := ⟨fuel - 1, by omega⟩
    have hshape : lit "[" ++ join style.itemSeparator parts ++ lit "]" ++ rest =
        0x5B :: (join style.itemSeparator parts ++ 0x5D :: rest) := by
      simp only [List.append_assoc]
      rfl
    rw [hshape, readValue.eq_def]
    dsimp only
    rw [if_neg (by decide), if_pos rfl]
    cases hitems with
    | nil => rfl
    | cons hv hvs =>
      rename_i part v parts vs
      have hread := readItems_join hsep hafter (.cons hv hvs) (List.cons_ne_nil _ _) fuel rest (by omega)
      have hstarts : StartsValue (join style.itemSeparator (part :: parts) ++ 0x5D :: rest) := by
        cases parts with
        | nil => exact hv.starts.append _
        | cons part' parts =>
          rw [join, List.append_assoc, List.append_assoc]
          exact hv.starts.append _
      rw [hstarts.skipSpace]
      obtain ⟨c, t, ht, -, hbracket, -, -⟩ := hstarts
      rw [ht] at hread ⊢
      dsimp only
      rw [if_neg hbracket, hread]
      rfl
  | .dict entries, text, h, hjson, hpairs => by
    rw [dumps_dict] at h
    obtain ⟨parts, hparts, htext⟩ := bind_eq_ok_iff.1 h
    cases htext
    rw [PyValue.IsJson] at hjson
    have hmembers := readsBack_dumpsEntries hstyle entries hparts hjson.2 hpairs
    obtain ⟨after, hsep, hafter⟩ := hstyle.item
    refine ⟨⟨0x7B, join style.itemSeparator parts ++ lit "\x7d", rfl, rfl, by decide, by decide, by decide⟩, ?_⟩
    intro fuel rest hfuel hrest
    simp only [List.length_append] at hfuel
    have hopen : (lit "\x7b").length = 1 := rfl
    have hclose : (lit "\x7d").length = 1 := rfl
    obtain ⟨fuel, rfl⟩ : ∃ n, fuel = n + 1 := ⟨fuel - 1, by omega⟩
    have hshape : lit "\x7b" ++ join style.itemSeparator parts ++ lit "\x7d" ++ rest =
        0x7B :: (join style.itemSeparator parts ++ 0x7D :: rest) := by
      simp only [List.append_assoc]
      rfl
    rw [hshape, readValue.eq_def]
    dsimp only
    rw [if_neg (by decide), if_neg (by decide), if_pos rfl]
    have hentries := entries_ofMembers hjson.1
    cases hmembers with
    | nil => rfl
    | cons hv hvs =>
      rename_i part p parts es
      have hread := readMembers_join hsep hafter (.cons hv hvs) (List.cons_ne_nil _ _) fuel rest (by omega)
      have hstarts : StartsValue (join style.itemSeparator (part :: parts) ++ 0x7D :: rest) := by
        cases parts with
        | nil => exact hv.starts.append _
        | cons part' parts =>
          rw [join, List.append_assoc, List.append_assoc]
          exact hv.starts.append _
      rw [hstarts.skipSpace]
      obtain ⟨c, t, ht, -, -, hbrace, -⟩ := hstarts
      rw [ht] at hread ⊢
      dsimp only
      rw [if_neg hbrace, hread, Option.map_some, hentries]
  | .other _, _, _, hjson, _ => by simp [PyValue.IsJson] at hjson

theorem readsBack_dumpsList (hstyle : style.Separates) : ∀ (vs : List PyValue) {texts : List Text},
    dumpsList style vs = .ok texts → PyValue.IsJsonList vs → (style.ensureAscii = true → PyValue.PairFreeList vs) →
    List.Forall₂ ReadsBack texts vs
  | [], _, h, _, _ => by
    cases h
    exact .nil
  | v :: vs, _, h, hjson, hpairs => by
    rw [dumpsList_cons] at h
    obtain ⟨t, ht, h⟩ := bind_eq_ok_iff.1 h
    obtain ⟨ts, hts, h⟩ := bind_eq_ok_iff.1 h
    cases h
    rw [PyValue.IsJsonList] at hjson
    exact .cons (readsBack_dumps hstyle v ht hjson.1 fun hascii => (hpairs hascii).1)
      (readsBack_dumpsList hstyle vs hts hjson.2 fun hascii => (hpairs hascii).2)

theorem readsBack_dumpsEntries (hstyle : style.Separates) : ∀ (es : List (Text × PyValue)) {texts : List Text},
    dumpsEntries style es = .ok texts → PyValue.IsJsonEntries es →
    (style.ensureAscii = true → PyValue.PairFreeEntries es) → List.Forall₂ ReadsMember texts es
  | [], _, h, _, _ => by
    cases h
    exact .nil
  | (k, v) :: es, _, h, hjson, hpairs => by
    rw [dumpsEntries_cons] at h
    obtain ⟨t, ht, h⟩ := bind_eq_ok_iff.1 h
    obtain ⟨ts, hts, h⟩ := bind_eq_ok_iff.1 h
    cases h
    rw [PyValue.IsJsonEntries] at hjson
    exact .cons
      (readsMember hstyle (readsBack_dumps hstyle v ht hjson.1 fun hascii => (hpairs hascii).2.1)
        fun hascii => (hpairs hascii).1)
      (readsBack_dumpsEntries hstyle es hts hjson.2 fun hascii => (hpairs hascii).2.2)
end

end RoundTrip

/-- What `json.dumps` writes of a JSON document, `json.loads` reads back as that document. -/
theorem jsonLoads_dumps {style : JsonStyle} (hstyle : style.Separates) {v : PyValue} {text : Text}
    (h : dumps style v = .ok text) (hjson : v.IsJson) (hpairs : style.ensureAscii = true → v.PairFree) :
    jsonLoads text = some v := by
  have hback := readsBack_dumps hstyle v h hjson hpairs
  have hread := hback.reads (2 * text.length + 2) [] (by omega) nofun
  rw [List.append_nil] at hread
  have hmark : startsWith text [0xFEFF] = false := by
    obtain ⟨c, t, rfl, -, -, -, hc⟩ := hback.starts
    have hne : (0xFEFF : CodePoint) ≠ c := by
      rintro rfl
      exact absurd hc (by decide)
    show ((0xFEFF : CodePoint) == c && List.isPrefixOf [] t) = false
    rw [beq_eq_false_iff_ne.2 hne, Bool.false_and]
  unfold jsonLoads
  rw [hmark, hback.starts.skipSpace, hread]
  rfl

end Python
