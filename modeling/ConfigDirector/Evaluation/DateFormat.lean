/-
The date-time strings the date comparison reads, as a grammar of their parts, and the instants they
denote. The parser accepts a wider set: digits of any script, a newline at the end, offsets of more
than an hour's minutes, and it raises for an offset of a day or more.
-/
import ConfigDirector.Evaluation.Order
import ConfigDirector.Python.Captures
import Mathlib.Tactic.IntervalCases
import Mathlib.Tactic.Ring

namespace ConfigDirector.Evaluation

open Python

/-! ## Parts of a date -/

/-- Digits of a class, so many of them. -/
def Digits (p : CodePoint → Bool) (n : ℕ) (t : Text) : Prop := t.length = n ∧ ∀ c ∈ t, p c = true

def IsSign (c : CodePoint) : Prop := c = 0x2B ∨ c = 0x2D

/-- `YYYY`, or a sign and six digits. -/
def IsYear (p : CodePoint → Bool) (t : Text) : Prop :=
  Digits p 4 t ∨ ∃ sign ds, IsSign sign ∧ Digits p 6 ds ∧ t = sign :: ds

/-- `Z`, `z`, or a signed `HH:mm`. -/
inductive OffsetText
  | zulu (c : CodePoint)
  | signed (sign : CodePoint) (hour minute : Text)

/-- `THH:mm`, with seconds and their fraction, and an offset. -/
structure TimeText where
  hour : Text
  minute : Text
  second : Option (Text × Option Text)
  offset : Option OffsetText

/-- The year, the month with its day, and the time of day. -/
structure DateText where
  year : Text
  month : Option (Text × Option Text)
  time : Option TimeText

def OffsetText.text : OffsetText → Text
  | zulu c => [c]
  | signed sign hour minute => sign :: (hour ++ 0x3A :: minute)

def OffsetText.WellFormed (p : CodePoint → Bool) : OffsetText → Prop
  | zulu c => c = 0x5A ∨ c = 0x7A
  | signed sign hour minute => IsSign sign ∧ Digits p 2 hour ∧ Digits p 2 minute

/-- A field after a character, and perhaps one more after another. -/
def nestedText (c c' : CodePoint) : Option (Text × Option Text) → Text
  | none => []
  | some (a, none) => c :: a
  | some (a, some b) => c :: (a ++ c' :: b)

/-- The fields have these properties. -/
def NestedAre (P Q : Text → Prop) : Option (Text × Option Text) → Prop
  | none => True
  | some (a, none) => P a
  | some (a, some b) => P a ∧ Q b

def nestedGroups (n k : ℕ) : Option (Text × Option Text) → List (ℕ × Text)
  | none => []
  | some (a, none) => [(n, a)]
  | some (a, some b) => [(k, b), (n, a)]

/-- `-MM` and `-DD`. -/
def monthText : Option (Text × Option Text) → Text := nestedText 0x2D 0x2D

/-- `:ss` and `.fraction`. -/
def secondText : Option (Text × Option Text) → Text := nestedText 0x3A 0x2E

def offsetText : Option OffsetText → Text
  | none => []
  | some offset => offset.text

def timeText : Option TimeText → Text
  | none => []
  | some t => 0x54 :: (t.hour ++ 0x3A :: (t.minute ++ (secondText t.second ++ offsetText t.offset)))

def DateText.text (d : DateText) : Text := d.year ++ (monthText d.month ++ timeText d.time)

structure TimeText.WellFormed (p : CodePoint → Bool) (t : TimeText) : Prop where
  hour : Digits p 2 t.hour
  minute : Digits p 2 t.minute
  second : NestedAre (Digits p 2) (fun f => f ≠ [] ∧ ∀ c ∈ f, p c = true) t.second
  offset : ∀ o ∈ t.offset, o.WellFormed p

/-- The parts are written with digits of the class. -/
structure DateText.WellFormed (p : CodePoint → Bool) (d : DateText) : Prop where
  year : IsYear p d.year
  month : NestedAre (Digits p 2) (Digits p 2) d.month
  time : ∀ t ∈ d.time, t.WellFormed p

/-! ## The groups of a match -/

def offsetGroups : Option OffsetText → List (ℕ × Text)
  | none => []
  | some offset => [(8, offset.text)]

def timeGroups : Option TimeText → List (ℕ × Text)
  | none => []
  | some t => offsetGroups t.offset ++ (nestedGroups 6 7 t.second ++ [(5, t.minute), (4, t.hour)])

def DateText.groups (d : DateText) : List (ℕ × Text) := timeGroups d.time ++ (nestedGroups 2 3 d.month ++ [(1, d.year)])

section Captures

variable {t : Text} {gs : List (ℕ × Text)}

theorem captures_digits (n : ℕ) : (digits n).Captures t gs ↔ Digits CodePoint.isDecimal n t ∧ gs = [] := by
  unfold digits Digits Regex.Captures
  simp only [Option.some.injEq, forall_eq']
  constructor
  · rintro ⟨hall, hmin, hmax, rfl⟩
    exact ⟨⟨by omega, hall⟩, rfl⟩
  · rintro ⟨⟨hlength, hall⟩, rfl⟩
    exact ⟨hall, by omega, by omega, rfl⟩

theorem captures_char (c : Char) : (char c).Captures t gs ↔ t = [CodePoint.ofChar c] ∧ gs = [] := by
  simp [char, Regex.Captures]

theorem captures_opt {r : Regex} : r.opt.Captures t gs ↔ r.Captures t gs ∨ t = [] ∧ gs = [] := Iff.rfl

theorem captures_group {n : ℕ} {r : Regex} : (Regex.group n r).Captures t gs ↔ ∃ g, r.Captures t g ∧ gs = (n, t) :: g :=
  Iff.rfl

theorem captures_seq {r s : Regex} : (Regex.seq r s).Captures t gs ↔
    ∃ t₁ t₂ g₁ g₂, r.Captures t₁ g₁ ∧ s.Captures t₂ g₂ ∧ t = t₁ ++ t₂ ∧ gs = g₂ ++ g₁ := Iff.rfl

theorem captures_alt {r s : Regex} : (Regex.alt r s).Captures t gs ↔ r.Captures t gs ∨ s.Captures t gs := Iff.rfl

theorem captures_signChar : signChar.Captures t gs ↔ ∃ sign, IsSign sign ∧ t = [sign] ∧ gs = [] := by
  unfold signChar Regex.Captures IsSign
  simp

/-- The pattern of the year. -/
def yearPattern : Regex := .group 1 (.alt (.seq signChar (digits 6)) (digits 4))

theorem captures_year : yearPattern.Captures t gs ↔ IsYear CodePoint.isDecimal t ∧ gs = [(1, t)] := by
  unfold yearPattern IsYear
  simp only [captures_group, captures_alt, captures_seq, captures_signChar, captures_digits]
  constructor
  · rintro ⟨g, ⟨t₁, t₂, g₁, g₂, ⟨sign, hsign, rfl, rfl⟩, ⟨hdigits, rfl⟩, rfl, rfl⟩ | ⟨hdigits, rfl⟩, rfl⟩
    · exact ⟨.inr ⟨sign, t₂, hsign, hdigits, rfl⟩, rfl⟩
    · exact ⟨.inl hdigits, rfl⟩
  · rintro ⟨hdigits | ⟨sign, ds, hsign, hdigits, rfl⟩, rfl⟩
    · exact ⟨[], .inr ⟨hdigits, rfl⟩, rfl⟩
    · exact ⟨[], .inl ⟨[sign], ds, [], [], ⟨sign, hsign, rfl, rfl⟩, ⟨hdigits, rfl⟩, rfl, rfl⟩, rfl⟩

/-- A character and a group of digits, with what follows them. -/
theorem captures_field (c : Char) (n k : ℕ) (r : Regex) :
    (Regex.seq (char c) (.seq (.group n (digits k)) r)).Captures t gs ↔
      ∃ field t' g', Digits CodePoint.isDecimal k field ∧ r.Captures t' g' ∧
        t = CodePoint.ofChar c :: (field ++ t') ∧ gs = g' ++ [(n, field)] := by
  simp only [captures_seq, captures_char, captures_group, captures_digits]
  constructor
  · rintro ⟨_, _, _, _, ⟨rfl, rfl⟩, ⟨field, t', _, g', ⟨g, ⟨hfield, rfl⟩, rfl⟩, hr, rfl, rfl⟩, rfl, rfl⟩
    exact ⟨field, t', g', hfield, hr, rfl, List.append_nil _⟩
  · rintro ⟨field, t', g', hfield, hr, rfl, rfl⟩
    exact ⟨_, _, _, _, ⟨rfl, rfl⟩, ⟨field, t', _, g', ⟨[], ⟨hfield, rfl⟩, rfl⟩, hr, rfl, rfl⟩, rfl,
      (List.append_nil _).symm⟩

/-- An optional field, and an optional one in it. -/
theorem captures_nested (c c' : Char) (n k : ℕ) {r : Regex} {Q : Text → Prop}
    (hr : ∀ {f : Text} {g : List (ℕ × Text)}, r.Captures f g ↔ Q f ∧ g = []) :
    (Regex.opt (.seq (char c) (.seq (.group n (digits 2)) (.opt (.seq (char c') (.group k r)))))).Captures t gs ↔
      ∃ x, NestedAre (Digits CodePoint.isDecimal 2) Q x ∧
        t = nestedText (CodePoint.ofChar c) (CodePoint.ofChar c') x ∧ gs = nestedGroups n k x := by
  rw [captures_opt, captures_field]
  simp only [captures_opt, captures_seq, captures_char, captures_group, hr]
  constructor
  · rintro (⟨a, _, _, ha, ⟨_, b, _, _, ⟨rfl, rfl⟩, ⟨g, ⟨hb, rfl⟩, rfl⟩, rfl, rfl⟩ | ⟨rfl, rfl⟩, rfl, rfl⟩ | ⟨rfl, rfl⟩)
    · exact ⟨some (a, some b), ⟨ha, hb⟩, rfl, rfl⟩
    · exact ⟨some (a, none), ha, by rw [List.append_nil]; rfl, rfl⟩
    · exact ⟨none, trivial, rfl, rfl⟩
  · rintro ⟨x, hx, rfl, rfl⟩
    match x, hx with
    | none, _ => exact .inr ⟨rfl, rfl⟩
    | some (a, none), ha => exact .inl ⟨a, [], [], ha, .inr ⟨rfl, rfl⟩, by rw [List.append_nil]; rfl, rfl⟩
    | some (a, some b), ⟨ha, hb⟩ =>
      exact .inl ⟨a, _, _, ha, .inl ⟨_, b, [], _, ⟨rfl, rfl⟩, ⟨[], ⟨hb, rfl⟩, rfl⟩, rfl, rfl⟩, rfl, rfl⟩

/-- The pattern of the month and the day. -/
def monthPattern : Regex :=
  .opt (.seq (char '-') (.seq (.group 2 (digits 2)) (.opt (.seq (char '-') (.group 3 (digits 2))))))

theorem captures_month : monthPattern.Captures t gs ↔
    ∃ m, NestedAre (Digits CodePoint.isDecimal 2) (Digits CodePoint.isDecimal 2) m ∧
      t = monthText m ∧ gs = nestedGroups 2 3 m :=
  captures_nested '-' '-' 2 3 (captures_digits 2)

/-- The pattern of the seconds and their fraction. -/
def secondPattern : Regex :=
  .opt (.seq (char ':') (.seq (.group 6 (digits 2)) (.opt (.seq (char '.') (.group 7 (.rep CodePoint.isDecimal 1 none))))))

theorem captures_second : secondPattern.Captures t gs ↔
    ∃ s, NestedAre (Digits CodePoint.isDecimal 2) (fun f => f ≠ [] ∧ ∀ c ∈ f, CodePoint.isDecimal c = true) s ∧
      t = secondText s ∧ gs = nestedGroups 6 7 s := by
  refine captures_nested ':' '.' 6 7 fun {f g} => ?_
  unfold Regex.Captures
  rw [← List.length_pos_iff]
  constructor
  · rintro ⟨hall, hmin, -, rfl⟩
    exact ⟨⟨hmin, hall⟩, rfl⟩
  · rintro ⟨⟨hmin, hall⟩, rfl⟩
    exact ⟨hall, hmin, by simp, rfl⟩

/-- The pattern of the offset. -/
def offsetPattern : Regex :=
  .opt (.group 8 (.alt (.chars fun c => c = 0x5A || c = 0x7A)
    (.seq signChar (.seq (digits 2) (.seq (char ':') (digits 2))))))

theorem captures_offset : offsetPattern.Captures t gs ↔
    ∃ o : Option OffsetText, (∀ o' ∈ o, o'.WellFormed CodePoint.isDecimal) ∧ t = offsetText o ∧ gs = offsetGroups o := by
  unfold offsetPattern
  simp only [captures_opt, captures_group, captures_alt, captures_seq, captures_signChar, captures_digits, captures_char]
  constructor
  · rintro (⟨g, ⟨c, hc, rfl, rfl⟩ | ⟨_, _, _, _, ⟨sign, hsign, rfl, rfl⟩, ⟨hour, _, _, _, ⟨hhour, rfl⟩,
      ⟨_, minute, _, _, ⟨rfl, rfl⟩, ⟨hminute, rfl⟩, rfl, rfl⟩, rfl, rfl⟩, rfl, rfl⟩, rfl⟩ | ⟨rfl, rfl⟩)
    · refine ⟨some (.zulu c), ?_, rfl, rfl⟩
      intro o ho
      cases ho
      show c = 0x5A ∨ c = 0x7A
      simpa using hc
    · refine ⟨some (.signed sign hour minute), ?_, rfl, rfl⟩
      intro o ho
      cases ho
      exact ⟨hsign, hhour, hminute⟩
    · exact ⟨none, by simp, rfl, rfl⟩
  · rintro ⟨o, ho, rfl, rfl⟩
    match o, ho with
    | none, _ => exact .inr ⟨rfl, rfl⟩
    | some (.zulu c), h => exact .inl ⟨[], .inl ⟨c, by simpa [OffsetText.WellFormed] using h, rfl, rfl⟩, rfl⟩
    | some (.signed sign hour minute), h =>
      obtain ⟨hsign, hhour, hminute⟩ := h _ rfl
      exact .inl ⟨[], .inr ⟨[sign], _, [], _, ⟨sign, hsign, rfl, rfl⟩, ⟨hour, _, [], _, ⟨hhour, rfl⟩,
        ⟨_, minute, [], [], ⟨rfl, rfl⟩, ⟨hminute, rfl⟩, rfl, rfl⟩, rfl, rfl⟩, rfl, rfl⟩, rfl⟩

/-- The pattern of the time of day. -/
def timePattern : Regex :=
  .opt (.seq (char 'T') <| .seq (.group 4 (digits 2)) <| .seq (char ':') <| .seq (.group 5 (digits 2)) <|
    .seq secondPattern offsetPattern)

theorem captures_time : timePattern.Captures t gs ↔
    ∃ o : Option TimeText, (∀ t' ∈ o, t'.WellFormed CodePoint.isDecimal) ∧ t = timeText o ∧ gs = timeGroups o := by
  unfold timePattern
  rw [captures_opt, captures_field]
  simp only [captures_field]
  simp only [captures_seq, captures_second, captures_offset]
  constructor
  · rintro (⟨hour, _, _, hhour, ⟨minute, _, _, hminute, ⟨_, _, _, _, ⟨s, hs, rfl, rfl⟩, ⟨o, ho, rfl, rfl⟩, rfl, rfl⟩,
      rfl, rfl⟩, rfl, rfl⟩ | ⟨rfl, rfl⟩)
    · refine ⟨some ⟨hour, minute, s, o⟩, ?_, rfl, ?_⟩
      · intro t' ht'
        cases ht'
        exact ⟨hhour, hminute, hs, ho⟩
      · simp [timeGroups]
    · exact ⟨none, by simp, rfl, rfl⟩
  · rintro ⟨o, ho, rfl, rfl⟩
    match o, ho with
    | none, _ => exact .inr ⟨rfl, rfl⟩
    | some ⟨hour, minute, s, o⟩, h =>
      obtain ⟨hhour, hminute, hs, ho⟩ := h _ rfl
      exact .inl ⟨hour, _, _, hhour, ⟨minute, _, _, hminute, ⟨_, _, _, _, ⟨s, hs, rfl, rfl⟩, ⟨o, ho, rfl, rfl⟩, rfl, rfl⟩,
        rfl, rfl⟩, rfl, by simp [timeGroups]⟩

end Captures

/-! ## Readings -/

/-- The pattern reads the text as these parts, with digits of any script, up to a newline at most. -/
structure Reads (s : Text) (d : DateText) (rest : Text) : Prop where
  wellFormed : d.WellFormed CodePoint.isDecimal
  text : s = d.text ++ rest
  rest : rest = [] ∨ rest = [0x0A]

theorem isoPattern_eq :
    isoPattern = .seq .start (.seq yearPattern (.seq monthPattern (.seq timePattern .stop))) := rfl

theorem mem_isoPattern_iff (s : Text) (m : Regex.Position) : m ∈ isoPattern.matchesAt ⟨true, s, []⟩ ↔
    ∃ d rest, Reads s d rest ∧ m = Regex.Position.after ⟨true, s, []⟩ d.text rest d.groups := by
  have hstart : isoPattern.matchesAt ⟨true, s, []⟩ =
      (Regex.seq yearPattern (.seq monthPattern (.seq timePattern .stop))).matchesAt ⟨true, s, []⟩ := by
    rw [isoPattern_eq, Regex.matchesAt, Regex.matchesAt, if_pos rfl, List.flatMap_singleton]
  have hyear : yearPattern.Plain := ⟨⟨trivial, trivial⟩, trivial⟩
  have hmonth : monthPattern.Plain := ⟨⟨trivial, trivial, ⟨trivial, trivial⟩, trivial⟩, trivial⟩
  have htime : timePattern.Plain := by
    simp [timePattern, secondPattern, offsetPattern, Regex.opt, Regex.Plain, char, digits, signChar]
  rw [hstart]
  simp only [Regex.matchesAt, List.mem_flatMap, Regex.mem_matchesAt_iff hyear, Regex.mem_matchesAt_iff hmonth,
    Regex.mem_matchesAt_iff htime, captures_year, captures_month, captures_time]
  constructor
  · rintro ⟨_, ⟨year, r₁, _, ⟨hy, rfl⟩, h₁, rfl⟩, _, ⟨_, r₂, _, ⟨month, hm, rfl, rfl⟩, h₂, rfl⟩, _,
      ⟨_, r₃, _, ⟨time, ht, rfl, rfl⟩, h₃, rfl⟩, hstop⟩
    have h₁' : s = year ++ r₁ := h₁
    have h₂' : r₁ = monthText month ++ r₂ := h₂
    have h₃' : r₂ = timeText time ++ r₃ := h₃
    rw [Regex.Position.after_after, Regex.Position.after_after] at hstop
    split at hstop
    · rename_i hrest
      rw [List.mem_singleton] at hstop
      refine ⟨⟨year, month, time⟩, r₃, ⟨⟨hy, hm, ht⟩, ?_, hrest⟩, ?_⟩
      · rw [h₁', h₂', h₃']
        simp only [DateText.text, List.append_assoc]
      · rw [hstop, DateText.text, DateText.groups, List.append_assoc]
    · exact absurd hstop List.not_mem_nil
  · rintro ⟨⟨year, month, time⟩, rest, ⟨⟨hy, hm, ht⟩, rfl, hrest⟩, rfl⟩
    refine ⟨_, ⟨year, monthText month ++ (timeText time ++ rest), _, ⟨hy, rfl⟩, ?_, rfl⟩, _,
      ⟨monthText month, timeText time ++ rest, _, ⟨month, hm, rfl, rfl⟩, rfl, rfl⟩, _,
      ⟨timeText time, rest, _, ⟨time, ht, rfl, rfl⟩, rfl, rfl⟩, ?_⟩
    · simp only [DateText.text, List.append_assoc]
    · rw [Regex.Position.after_after, Regex.Position.after_after]
      show _ ∈ if rest = [] ∨ rest = [0x0A] then _ else _
      rw [if_pos hrest, List.mem_singleton, List.append_assoc (timeGroups time)]
      rfl

theorem matchStart_none_iff (s : Text) : isoPattern.matchStart s = none ↔ ¬ ∃ d rest, Reads s d rest := by
  unfold Regex.matchStart
  rw [List.head?_eq_none_iff, List.eq_nil_iff_forall_not_mem]
  constructor
  · rintro h ⟨d, rest, hreads⟩
    exact h _ ((mem_isoPattern_iff s _).2 ⟨d, rest, hreads, rfl⟩)
  · rintro h m hm
    obtain ⟨d, rest, hreads, -⟩ := (mem_isoPattern_iff s m).1 hm
    exact h ⟨d, rest, hreads⟩

/-! ## A text has one reading -/

/-- The text does not go on with such a character. -/
def NotLed (q : CodePoint → Prop) (t : Text) : Prop := ∀ c s, t = c :: s → ¬ q c

theorem append_digits_inj {p : CodePoint → Bool} {a a' x x' : Text} (ha : ∀ c ∈ a, p c = true) (ha' : ∀ c ∈ a', p c = true)
    (hx : NotLed (p · = true) x) (hx' : NotLed (p · = true) x') (h : a ++ x = a' ++ x') : a = a' ∧ x = x' := by
  have htake : ∀ {b y : Text}, (∀ c ∈ b, p c = true) → NotLed (p · = true) y → (b ++ y).takeWhile p = b := by
    intro b y hb hy
    rw [List.takeWhile_append_of_pos hb]
    cases y with
    | nil => rw [List.takeWhile_nil, List.append_nil]
    | cons c y => rw [List.takeWhile_cons_of_neg (hy c y rfl), List.append_nil]
  have heq : a = a' := by rw [← htake ha hx, h, htake ha' hx']
  rw [heq] at h
  exact ⟨heq, List.append_cancel_left h⟩

/-- Nested fields are known from their text, before what goes on otherwise. -/
theorem nestedText_inj {c c' : CodePoint} {p : CodePoint → Bool} {Q : Text → Prop} (hQ : ∀ f, Q f → ∀ d ∈ f, p d = true)
    {x x' : Option (Text × Option Text)} (hx : NestedAre (Digits p 2) Q x) (hx' : NestedAre (Digits p 2) Q x')
    {r r' : Text} (hr : NotLed (fun d => d = c ∨ d = c' ∨ p d = true) r)
    (hr' : NotLed (fun d => d = c ∨ d = c' ∨ p d = true) r')
    (h : nestedText c c' x ++ r = nestedText c c' x' ++ r') : x = x' ∧ r = r' := by
  have hdigit : ∀ {t : Text}, NotLed (fun d => d = c ∨ d = c' ∨ p d = true) t → NotLed (p · = true) t :=
    fun ht d s hd hp => ht d s hd (.inr (.inr hp))
  have htext : ∀ a b r : Text, nestedText c c' (some (a, some b)) ++ r = c :: (a ++ (c' :: (b ++ r))) :=
    fun a b r => by simp [nestedText]
  match x, x', hx, hx' with
  | none, none, _, _ => exact ⟨rfl, h⟩
  | none, some (a, none), _, _ => exact absurd (.inl rfl) (hr _ _ h)
  | none, some (a, some b), _, _ => exact absurd (.inl rfl) (hr _ _ h)
  | some (a, none), none, _, _ => exact absurd (.inl rfl) (hr' _ _ h.symm)
  | some (a, some b), none, _, _ => exact absurd (.inl rfl) (hr' _ _ h.symm)
  | some (a, none), some (a', none), ha, ha' =>
    obtain ⟨rfl, hrest⟩ := List.append_inj (List.cons.inj h).2 (ha.1.trans ha'.1.symm)
    exact ⟨rfl, hrest⟩
  | some (a, none), some (a', some b'), ha, ha' =>
    rw [htext] at h
    obtain ⟨-, hrest⟩ := List.append_inj (List.cons.inj h).2 (ha.1.trans ha'.1.1.symm)
    exact absurd (.inr (.inl rfl)) (hr _ _ hrest)
  | some (a, some b), some (a', none), ha, ha' =>
    rw [htext] at h
    obtain ⟨-, hrest⟩ := List.append_inj (List.cons.inj h).2 (ha.1.1.trans ha'.1.symm)
    exact absurd (.inr (.inl rfl)) (hr' _ _ hrest.symm)
  | some (a, some b), some (a', some b'), ha, ha' =>
    rw [htext, htext] at h
    obtain ⟨rfl, hsecond⟩ := List.append_inj (List.cons.inj h).2 (ha.1.1.trans ha'.1.1.symm)
    obtain ⟨rfl, hrest⟩ := append_digits_inj (hQ b ha.2) (hQ b' ha'.2) (hdigit hr) (hdigit hr') (List.cons.inj hsecond).2
    exact ⟨rfl, hrest⟩

/-- A newline at most. -/
def LineEnd (t : Text) : Prop := t = [] ∨ t = [0x0A]

theorem LineEnd.notLed {t : Text} (h : LineEnd t) {q : CodePoint → Prop} (hq : ¬ q 0x0A) : NotLed q t := by
  rintro c s rfl
  rcases h with h | h
  · cases h
  · cases h
    exact hq

theorem not_isDecimal_of_isSign {c : CodePoint} (h : IsSign c) : ¬ CodePoint.isDecimal c = true := by
  rcases h with rfl | rfl <;> decide

/-- What an offset starts with. -/
def LeadsOffset (c : CodePoint) : Prop := c = 0x5A ∨ c = 0x7A ∨ IsSign c

theorem OffsetText.leads {o : OffsetText} (h : o.WellFormed CodePoint.isDecimal) :
    ∃ c s, o.text = c :: s ∧ LeadsOffset c := by
  cases o with
  | zulu c => exact ⟨c, [], rfl, h.elim .inl fun h => .inr (.inl h)⟩
  | signed sign hour minute => exact ⟨sign, _, rfl, .inr (.inr h.1)⟩

theorem offset_notLed {o : Option OffsetText} (h : ∀ o' ∈ o, o'.WellFormed CodePoint.isDecimal) {r : Text} (hr : LineEnd r)
    {q : CodePoint → Prop} (hq : ¬ q 0x0A) (hq' : ∀ c, LeadsOffset c → ¬ q c) : NotLed q (offsetText o ++ r) := by
  cases o with
  | none => exact hr.notLed hq
  | some o =>
    obtain ⟨c, s, htext, hc⟩ := OffsetText.leads (h o rfl)
    rintro c' s' hs'
    rw [offsetText, htext, List.cons_append, List.cons.injEq] at hs'
    rw [← hs'.1]
    exact hq' c hc

theorem offsetText_inj {o o' : Option OffsetText} (h : ∀ x ∈ o, x.WellFormed CodePoint.isDecimal)
    (h' : ∀ x ∈ o', x.WellFormed CodePoint.isDecimal) {r r' : Text} (hr : LineEnd r) (hr' : LineEnd r')
    (heq : offsetText o ++ r = offsetText o' ++ r') : o = o' ∧ r = r' := by
  have hline : ¬ LeadsOffset 0x0A := by
    unfold LeadsOffset IsSign
    decide
  match o, o', h, h' with
  | none, none, _, _ => exact ⟨rfl, heq⟩
  | none, some x, _, h' =>
    obtain ⟨c, s, htext, hc⟩ := OffsetText.leads (h' x rfl)
    rw [offsetText, offsetText, htext] at heq
    exact absurd hc (hr.notLed hline c _ heq)
  | some x, none, h, _ =>
    obtain ⟨c, s, htext, hc⟩ := OffsetText.leads (h x rfl)
    rw [offsetText, offsetText, htext] at heq
    exact absurd hc (hr'.notLed hline c _ heq.symm)
  | some (.zulu c), some (.zulu c'), _, _ =>
    obtain ⟨rfl, hrest⟩ := List.cons.inj heq
    exact ⟨rfl, hrest⟩
  | some (.zulu c), some (.signed sign _ _), h, h' =>
    obtain ⟨rfl, -⟩ := List.cons.inj heq
    rcases h _ rfl with rfl | rfl <;> rcases (h' _ rfl).1 with hs | hs <;> exact absurd hs (by decide)
  | some (.signed sign _ _), some (.zulu c), h, h' =>
    obtain ⟨rfl, -⟩ := List.cons.inj heq
    rcases h' _ rfl with rfl | rfl <;> rcases (h _ rfl).1 with hs | hs <;> exact absurd hs (by decide)
  | some (.signed sign hour minute), some (.signed sign' hour' minute'), h, h' =>
    obtain ⟨-, hhour, hminute⟩ := h _ rfl
    obtain ⟨-, hhour', hminute'⟩ := h' _ rfl
    have htail : sign :: (hour ++ (0x3A :: (minute ++ r))) = sign' :: (hour' ++ (0x3A :: (minute' ++ r'))) := by
      simpa [offsetText, OffsetText.text] using heq
    obtain ⟨rfl, hafterSign⟩ := List.cons.inj htail
    obtain ⟨rfl, hafterHour⟩ := List.append_inj hafterSign (hhour.1.trans hhour'.1.symm)
    obtain ⟨rfl, hrest⟩ := List.append_inj (List.cons.inj hafterHour).2 (hminute.1.trans hminute'.1.symm)
    exact ⟨rfl, hrest⟩

theorem timeText_inj {o o' : Option TimeText} (h : ∀ x ∈ o, x.WellFormed CodePoint.isDecimal)
    (h' : ∀ x ∈ o', x.WellFormed CodePoint.isDecimal) {r r' : Text} (hr : LineEnd r) (hr' : LineEnd r')
    (heq : timeText o ++ r = timeText o' ++ r') : o = o' ∧ r = r' := by
  match o, o', h, h' with
  | none, none, _, _ => exact ⟨rfl, heq⟩
  | none, some x, _, _ => exact absurd rfl (hr.notLed (q := (· = 0x54)) (by decide) _ _ heq)
  | some x, none, _, _ => exact absurd rfl (hr'.notLed (q := (· = 0x54)) (by decide) _ _ heq.symm)
  | some ⟨hour, minute, s, z⟩, some ⟨hour', minute', s', z'⟩, h, h' =>
    obtain ⟨hhour, hminute, hs, hz⟩ := h _ rfl
    obtain ⟨hhour', hminute', hs', hz'⟩ := h' _ rfl
    have htail : hour ++ (0x3A :: (minute ++ (secondText s ++ (offsetText z ++ r)))) =
        hour' ++ (0x3A :: (minute' ++ (secondText s' ++ (offsetText z' ++ r')))) := by
      simpa [timeText] using heq
    obtain ⟨rfl, hafterHour⟩ := List.append_inj htail (hhour.1.trans hhour'.1.symm)
    obtain ⟨rfl, hafterMinute⟩ := List.append_inj (List.cons.inj hafterHour).2 (hminute.1.trans hminute'.1.symm)
    -- no offset goes on like the seconds
    have hlead : ∀ c, LeadsOffset c → ¬ (c = 0x3A ∨ c = 0x2E ∨ CodePoint.isDecimal c = true) := by
      rintro c (rfl | rfl | rfl | rfl) <;> decide
    have hline : ¬ ((0x0A : CodePoint) = 0x3A ∨ (0x0A : CodePoint) = 0x2E ∨ CodePoint.isDecimal 0x0A = true) := by decide
    obtain ⟨rfl, hafterSecond⟩ := nestedText_inj (fun f hf => hf.2) hs hs' (offset_notLed hz hr hline hlead)
      (offset_notLed hz' hr' hline hlead) hafterMinute
    obtain ⟨rfl, hrest⟩ := offsetText_inj hz hz' hr hr' hafterSecond
    exact ⟨rfl, hrest⟩

theorem time_notLed {o : Option TimeText} {r : Text} (hr : LineEnd r) {q : CodePoint → Prop} (hq : ¬ q 0x0A)
    (hq' : ¬ q 0x54) : NotLed q (timeText o ++ r) := by
  cases o with
  | none => exact hr.notLed hq
  | some t =>
    rintro c s hs
    rw [← (List.cons.inj hs).1]
    exact hq'

theorem year_inj {y y' x x' : Text} (h : IsYear CodePoint.isDecimal y) (h' : IsYear CodePoint.isDecimal y')
    (heq : y ++ x = y' ++ x') : y = y' ∧ x = x' := by
  have hmixed : ∀ {a s ds z z' : Text} {sign : CodePoint}, Digits CodePoint.isDecimal 4 a → IsSign sign →
      a ++ z ≠ sign :: ds ++ z' := by
    intro a s ds z z' sign ha hsign heq
    cases a with
    | nil => cases ha.1
    | cons c a =>
      rw [List.cons_append, List.cons_append, List.cons.injEq] at heq
      rw [← heq.1] at hsign
      exact not_isDecimal_of_isSign hsign (ha.2 c (List.mem_cons_self ..))
  rcases h with h | ⟨sign, ds, hsign, hds, rfl⟩
  · rcases h' with h' | ⟨sign', ds', hsign', hds', rfl⟩
    · exact List.append_inj heq (h.1.trans h'.1.symm)
    · exact absurd heq (hmixed (s := []) h hsign')
  · rcases h' with h' | ⟨sign', ds', hsign', hds', rfl⟩
    · exact absurd heq.symm (hmixed (s := []) h' hsign)
    · refine List.append_inj heq ?_
      rw [List.length_cons, List.length_cons, hds.1, hds'.1]

/-- The pattern reads a text in one way. -/
theorem Reads.unique {s : Text} {d d' : DateText} {rest rest' : Text} (h : Reads s d rest) (h' : Reads s d' rest') :
    d = d' ∧ rest = rest' := by
  obtain ⟨⟨hy, hm, ht⟩, rfl, hrest⟩ := h
  obtain ⟨⟨hy', hm', ht'⟩, htext, hrest'⟩ := h'
  obtain ⟨year, month, time⟩ := d
  obtain ⟨year', month', time'⟩ := d'
  have heq : year ++ (monthText month ++ (timeText time ++ rest)) =
      year' ++ (monthText month' ++ (timeText time' ++ rest')) := by
    simpa [DateText.text] using htext
  obtain ⟨rfl, hafterYear⟩ := year_inj hy hy' heq
  have hline : ¬ ((0x0A : CodePoint) = 0x2D ∨ (0x0A : CodePoint) = 0x2D ∨ CodePoint.isDecimal 0x0A = true) := by decide
  have htime : ¬ ((0x54 : CodePoint) = 0x2D ∨ (0x54 : CodePoint) = 0x2D ∨ CodePoint.isDecimal 0x54 = true) := by decide
  obtain ⟨rfl, hafterMonth⟩ := nestedText_inj (fun f hf => hf.2) hm hm' (time_notLed hrest hline htime)
    (time_notLed hrest' hline htime) hafterYear
  obtain ⟨rfl, hline⟩ := timeText_inj ht ht' hrest hrest' hafterMonth
  exact ⟨rfl, hline⟩

/-! ## What a date denotes -/

/-- The number decimal digits of any script denote. -/
def digitValue (t : Text) : ℕ := t.foldl (fun n c => 10 * n + (c.decimal?).getD 0) 0

/-- The whole milliseconds of a fraction of a second. -/
def milliseconds (fraction : Text) : ℕ := digitValue fraction * 1000 / 10 ^ fraction.length

/-- The days from the first of January of year 1 to a date, that one included. -/
def dayNumber (year month day : ℤ) : ℤ :=
  ((List.range (year - 1).toNat).map fun y : ℕ => if isLeap (y + 1) then (366 : ℤ) else 365).sum +
    ((List.range (month - 1).toNat).map fun m : ℕ => daysInMonth year (m + 1)).sum + day

/-- The minutes an offset is ahead of UTC. -/
def OffsetText.minutes : OffsetText → ℤ
  | zulu _ => 0
  | signed sign hour minute => (if sign = 0x2D then -1 else 1) * (intOfDigits hour * 60 + intOfDigits minute)

def OffsetText.InRange : OffsetText → Prop
  | zulu _ => True
  | signed _ hour minute => intOfDigits hour ≤ 23 ∧ intOfDigits minute ≤ 59

namespace DateText

variable (d : DateText)

def yearValue : ℤ := intOfDigits d.year
def monthValue : ℤ := ((d.month.map Prod.fst).map intOfDigits).getD 1
def dayValue : ℤ := ((d.month.bind Prod.snd).map intOfDigits).getD 1
def hourValue : ℤ := ((d.time.map TimeText.hour).map intOfDigits).getD 0
def minuteValue : ℤ := ((d.time.map TimeText.minute).map intOfDigits).getD 0
def second : Option (Text × Option Text) := d.time.bind TimeText.second
def secondValue : ℤ := ((d.second.map Prod.fst).map intOfDigits).getD 0
def fraction : Text := (d.second.bind Prod.snd).getD []
def offset : Option OffsetText := d.time.bind TimeText.offset

/-- A missing offset means UTC. -/
def offsetValue : ℤ := (d.offset.map OffsetText.minutes).getD 0

/-- There is such a date and such a time of day. -/
structure Exists : Prop where
  year : 1 ≤ d.yearValue ∧ d.yearValue ≤ 9999
  month : 1 ≤ d.monthValue ∧ d.monthValue ≤ 12
  day : 1 ≤ d.dayValue ∧ d.dayValue ≤ daysInMonth d.yearValue d.monthValue
  hour : 0 ≤ d.hourValue ∧ d.hourValue ≤ 23
  minute : 0 ≤ d.minuteValue ∧ d.minuteValue ≤ 59
  second : 0 ≤ d.secondValue ∧ d.secondValue ≤ 59

/-- The instant in UTC, in microseconds, to the millisecond. -/
def instant : ℤ :=
  ((((dayNumber d.yearValue d.monthValue d.dayValue * 24 + d.hourValue) * 60 + d.minuteValue - d.offsetValue) * 60 +
    d.secondValue) * 1000 + milliseconds d.fraction) * 1000

end DateText

/-- The text is a date-time string in ASCII digits with components in range, and denotes that instant. -/
def Denotes (s : Text) (t : ℤ) : Prop :=
  ∃ d : DateText, d.WellFormed CodePoint.isAsciiDigit ∧ s = d.text ∧ d.Exists ∧ (∀ o ∈ d.offset, o.InRange) ∧
    t = d.instant

/-! ### The calendar -/

theorem daysBeforeYear_eq (n : ℕ) : daysBeforeYear (n + 1) =
    ((List.range n).map fun y : ℕ => if isLeap (y + 1) then (366 : ℤ) else 365).sum := by
  induction n with
  | zero => rfl
  | succ n ih =>
    rw [List.range_succ, List.map_append, List.sum_append, ← ih]
    simp only [List.map_cons, List.map_nil, List.sum_cons, List.sum_nil, isLeap, Bool.and_eq_true, Bool.or_eq_true,
      beq_iff_eq, bne_iff_ne]
    unfold daysBeforeYear
    push_cast
    split <;> omega

theorem daysBeforeMonth_eq (y : ℤ) {m : ℤ} (h : 1 ≤ m ∧ m ≤ 12) :
    daysBeforeMonth y m = ((List.range (m - 1).toNat).map fun i : ℕ => daysInMonth y (i + 1)).sum := by
  obtain ⟨hlow, hhigh⟩ := h
  interval_cases m <;> simp [daysBeforeMonth, List.range_succ, add_assoc]

theorem dayNumber_eq {y m day : ℤ} (hy : 1 ≤ y) (hm : 1 ≤ m ∧ m ≤ 12) :
    daysBeforeYear y + daysBeforeMonth y m + day = dayNumber y m day := by
  have hyear : y = ((y - 1).toNat : ℤ) + 1 := by omega
  rw [dayNumber, daysBeforeMonth_eq y hm, ← daysBeforeYear_eq, ← hyear]

/-! ### The fraction -/

theorem digitValue_concat (t : Text) (c : CodePoint) :
    digitValue (t ++ [c]) = 10 * digitValue t + (c.decimal?).getD 0 := by
  rw [digitValue, List.foldl_append]
  rfl

theorem digitValue_append (a b : Text) : digitValue (a ++ b) = digitValue a * 10 ^ b.length + digitValue b := by
  induction b using List.reverseRecOn with
  | nil => simp [digitValue]
  | append_singleton b c ih =>
    rw [← List.append_assoc, digitValue_concat, digitValue_concat, ih, List.length_append, List.length_singleton, pow_succ]
    ring

theorem decimal_lt (c : CodePoint) : (c.decimal?).getD 0 < 10 := by
  unfold CodePoint.decimal?
  cases hfind : decimalZeros.find? fun z => z ≤ c.val && c.val < z + 10 with
  | none => exact Nat.succ_pos 9
  | some z =>
    have hz := List.find?_some hfind
    simp only [Bool.and_eq_true, decide_eq_true_eq] at hz
    simp only [Option.map_some, Option.getD_some]
    omega

theorem digitValue_lt (t : Text) : digitValue t < 10 ^ t.length := by
  induction t using List.reverseRecOn with
  | nil => decide
  | append_singleton t c ih =>
    have hc := decimal_lt c
    rw [digitValue_concat, List.length_append, List.length_singleton, pow_succ]
    omega

theorem digitValue_zeros (n : ℕ) : digitValue (List.replicate n 0x30) = 0 := by
  induction n with
  | zero => rfl
  | succ n ih =>
    rw [List.replicate_succ', digitValue_concat, ih]
    decide

/-- Without a sign `int` reads the digits. -/
theorem intOfDigits_eq {t : Text} (h : ∀ c ∈ t, CodePoint.isDecimal c = true) : intOfDigits t = digitValue t := by
  cases t with
  | nil => rfl
  | cons c t =>
    have hc := h c (List.mem_cons_self ..)
    have hminus : c ≠ 0x2D := fun heq => not_isDecimal_of_isSign (.inr heq) hc
    have hplus : c ≠ 0x2B := fun heq => not_isDecimal_of_isSign (.inl heq) hc
    have hsign : takeSign (c :: t) = (false, c :: t) := by rw [takeSign, if_neg hminus, if_neg hplus]
    unfold intOfDigits
    rw [hsign]
    rfl

theorem isDecimal_zero : CodePoint.isDecimal 0x30 = true := by decide

/-- Three digits, filled up with zeros, are the milliseconds. -/
theorem fractionMicroseconds_eq {f : Text} (h : ∀ c ∈ f, CodePoint.isDecimal c = true) :
    fractionMicroseconds f = milliseconds f * 1000 := by
  unfold fractionMicroseconds milliseconds
  by_cases hempty : f = []
  · subst hempty
    decide
  · rw [if_neg (by simpa using hempty)]
    have hdigits : ∀ c ∈ f.take 3 ++ List.replicate (3 - (f.take 3).length) 0x30, CodePoint.isDecimal c = true := by
      intro c hc
      rcases List.mem_append.1 hc with hc | hc
      · exact h c (List.mem_of_mem_take hc)
      · rw [List.eq_of_mem_replicate hc]
        exact isDecimal_zero
    have hsplit := List.take_append_drop 3 f
    have hlow := digitValue_lt (f.drop 3)
    simp only
    rw [intOfDigits_eq hdigits, digitValue_append, digitValue_zeros, Nat.add_zero, List.length_replicate]
    congr 2
    rcases Nat.le_total f.length 3 with hshort | hlong
    · rw [List.take_of_length_le hshort]
      refine (Nat.div_eq_of_eq_mul_left (by positivity) ?_).symm
      rw [mul_assoc, ← pow_add, Nat.sub_add_cancel hshort]
      rfl
    · have hlength : (f.take 3).length = 3 := by
        rw [List.length_take]
        omega
      have hvalue : digitValue f = digitValue (f.take 3) * 10 ^ (f.drop 3).length + digitValue (f.drop 3) := by
        rw [← digitValue_append, hsplit]
      have hpow : 10 ^ f.length = 10 ^ (f.drop 3).length * 1000 := by
        rw [List.length_drop, show (1000 : ℕ) = 10 ^ 3 from rfl, ← pow_add, Nat.sub_add_cancel hlong]
      have hdiv : (digitValue (f.take 3) * 10 ^ (f.drop 3).length + digitValue (f.drop 3)) / 10 ^ (f.drop 3).length =
          digitValue (f.take 3) := by
        rw [mul_comm, Nat.mul_add_div (Nat.pow_pos (by decide)), Nat.div_eq_of_lt hlow, Nat.add_zero]
      rw [hlength, hpow, Nat.mul_div_mul_right _ _ (by decide), hvalue, hdiv, Nat.sub_self, pow_zero, mul_one]

/-! ## What the parser returns for a reading -/

theorem groups_lookup (d : DateText) :
    d.groups.lookup 1 = some d.year ∧ d.groups.lookup 2 = d.month.map Prod.fst ∧
      d.groups.lookup 3 = d.month.bind Prod.snd ∧ d.groups.lookup 4 = d.time.map TimeText.hour ∧
      d.groups.lookup 5 = d.time.map TimeText.minute ∧ d.groups.lookup 6 = d.second.map Prod.fst ∧
      d.groups.lookup 7 = d.second.bind Prod.snd ∧ d.groups.lookup 8 = d.offset.map OffsetText.text := by
  obtain ⟨year, month, time⟩ := d
  have hmonth : month = none ∨ (∃ a, month = some (a, none)) ∨ ∃ a b, month = some (a, some b) := by
    match month with
    | none => exact .inl rfl
    | some (a, none) => exact .inr (.inl ⟨a, rfl⟩)
    | some (a, some b) => exact .inr (.inr ⟨a, b, rfl⟩)
  have htime : time = none ∨ ∃ hour minute offset, time = some ⟨hour, minute, none, offset⟩ ∨
      (∃ a, time = some ⟨hour, minute, some (a, none), offset⟩) ∨
      ∃ a b, time = some ⟨hour, minute, some (a, some b), offset⟩ := by
    match time with
    | none => exact .inl rfl
    | some ⟨hour, minute, none, offset⟩ => exact .inr ⟨hour, minute, offset, .inl rfl⟩
    | some ⟨hour, minute, some (a, none), offset⟩ => exact .inr ⟨hour, minute, offset, .inr (.inl ⟨a, rfl⟩)⟩
    | some ⟨hour, minute, some (a, some b), offset⟩ => exact .inr ⟨hour, minute, offset, .inr (.inr ⟨a, b, rfl⟩)⟩
  rcases htime with rfl | ⟨hour, minute, offset, rfl | ⟨a, rfl⟩ | ⟨a, b, rfl⟩⟩
  · rcases hmonth with rfl | ⟨c, rfl⟩ | ⟨c, e, rfl⟩ <;> exact ⟨rfl, rfl, rfl, rfl, rfl, rfl, rfl, rfl⟩
  · rcases hmonth with rfl | ⟨c, rfl⟩ | ⟨c, e, rfl⟩ <;> cases offset <;> exact ⟨rfl, rfl, rfl, rfl, rfl, rfl, rfl, rfl⟩
  · rcases hmonth with rfl | ⟨c, rfl⟩ | ⟨c, e, rfl⟩ <;> cases offset <;> exact ⟨rfl, rfl, rfl, rfl, rfl, rfl, rfl, rfl⟩
  · rcases hmonth with rfl | ⟨c, rfl⟩ | ⟨c, e, rfl⟩ <;> cases offset <;> exact ⟨rfl, rfl, rfl, rfl, rfl, rfl, rfl, rfl⟩

theorem intGroup_eq {m : Regex.Position} {n : ℕ} {o : Option Text} (h : m.group n = o) (hne : ∀ t ∈ o, t ≠ [])
    (default : ℤ) :
    intGroup m n default = (o.map intOfDigits).getD default := by
  unfold intGroup
  rw [h]
  cases o with
  | none => rfl
  | some t => simp [hne t rfl]

theorem Digits.ne_nil {p : CodePoint → Bool} {n : ℕ} {t : Text} (h : Digits p (n + 1) t) : t ≠ [] := by
  rintro rfl
  cases h.1

/-- The timezone of an offset. -/
theorem timezone_eq {o : Option OffsetText} (h : ∀ x ∈ o, x.WellFormed CodePoint.isDecimal) :
    (if ((o.map OffsetText.text).getD []).isEmpty || (o.map OffsetText.text).getD [] = lit "Z" ||
        (o.map OffsetText.text).getD [] = lit "z" then (.ok 0 : Except Exc ℤ)
      else timezoneMinutes ((o.map OffsetText.text).getD [])) =
    if |(o.map OffsetText.minutes).getD 0| < 1440 then .ok ((o.map OffsetText.minutes).getD 0) else .error .valueError := by
  match o, h with
  | none, _ => rfl
  | some (.zulu c), h =>
    rcases h _ rfl with rfl | rfl
    · rfl
    · rfl
  | some (.signed sign hour minute), h =>
    obtain ⟨hsign, hhour, hminute⟩ := h _ rfl
    have hutc : ((OffsetText.signed sign hour minute).text.isEmpty ||
        decide ((OffsetText.signed sign hour minute).text = lit "Z") ||
        decide ((OffsetText.signed sign hour minute).text = lit "z")) = false := by
      have hZ : (OffsetText.signed sign hour minute).text ≠ lit "Z" := fun heq => by
        have hhead : sign = 0x5A := (List.cons.inj heq).1
        rcases hsign with hs | hs <;> exact absurd (hs.symm.trans hhead) (by decide)
      have hz : (OffsetText.signed sign hour minute).text ≠ lit "z" := fun heq => by
        have hhead : sign = 0x7A := (List.cons.inj heq).1
        rcases hsign with hs | hs <;> exact absurd (hs.symm.trans hhead) (by decide)
      rw [decide_eq_false hZ, decide_eq_false hz]
      rfl
    have hhours : ((OffsetText.signed sign hour minute).text.drop 1).take 2 = hour := by
      rw [OffsetText.text, List.drop_one, List.tail_cons, ← hhour.1, List.take_left]
    have hminutes : ((OffsetText.signed sign hour minute).text.drop 4).take 2 = minute := by
      have hdrop : (hour ++ 0x3A :: minute).drop 3 = minute := by
        rw [List.drop_append, hhour.1, List.drop_eq_nil_of_le (by rw [hhour.1]; decide)]
        rfl
      rw [OffsetText.text, List.drop_succ_cons, hdrop, List.take_of_length_le hminute.1.le]
    simp only [Option.map_some, Option.getD_some]
    rw [if_neg (by rw [hutc]; decide), timezoneMinutes, hhours, hminutes]
    have hhead : ((OffsetText.signed sign hour minute).text.head? = some 0x2D) ↔ sign = 0x2D := by
      simp [OffsetText.text]
    simp only [hhead, ← abs_lt]
    rfl

theorem datetime_eq (y m d h mi s us off : ℤ) :
    datetime? y m d h mi s us off = if 1 ≤ y ∧ y ≤ 9999 ∧ 1 ≤ m ∧ m ≤ 12 ∧ 1 ≤ d ∧ d ≤ daysInMonth y m ∧
        0 ≤ h ∧ h ≤ 23 ∧ 0 ≤ mi ∧ mi ≤ 59 ∧ 0 ≤ s ∧ s ≤ 59 then
      some ((((dayNumber y m d * 24 + h) * 60 + mi - off) * 60 + s) * 1000000 + us) else none := by
  unfold datetime?
  split
  · rename_i hrange
    rw [← dayNumber_eq hrange.1 ⟨hrange.2.2.1, hrange.2.2.2.1⟩]
  · rfl

namespace DateText

variable {d : DateText}

theorem exists_iff : (1 ≤ d.yearValue ∧ d.yearValue ≤ 9999 ∧ 1 ≤ d.monthValue ∧ d.monthValue ≤ 12 ∧ 1 ≤ d.dayValue ∧
    d.dayValue ≤ daysInMonth d.yearValue d.monthValue ∧ 0 ≤ d.hourValue ∧ d.hourValue ≤ 23 ∧ 0 ≤ d.minuteValue ∧
      d.minuteValue ≤ 59 ∧ 0 ≤ d.secondValue ∧ d.secondValue ≤ 59) ↔ d.Exists := by
  constructor
  · rintro ⟨hy, hy', hm, hm', hd, hd', hh, hh', hmi, hmi', hs, hs'⟩
    exact ⟨⟨hy, hy'⟩, ⟨hm, hm'⟩, ⟨hd, hd'⟩, ⟨hh, hh'⟩, ⟨hmi, hmi'⟩, ⟨hs, hs'⟩⟩
  · rintro ⟨⟨hy, hy'⟩, ⟨hm, hm'⟩, ⟨hd, hd'⟩, ⟨hh, hh'⟩, ⟨hmi, hmi'⟩, ⟨hs, hs'⟩⟩
    exact ⟨hy, hy', hm, hm', hd, hd', hh, hh', hmi, hmi', hs, hs'⟩

theorem WellFormed.year_ne_nil (h : d.WellFormed CodePoint.isDecimal) : d.year ≠ [] := by
  rcases h.year with hyear | ⟨sign, ds, -, -, heq⟩
  · exact hyear.ne_nil
  · rw [heq]
    exact List.cons_ne_nil _ _

theorem nested_ne_nil {P Q : Text → Prop} {x : Option (Text × Option Text)} (h : NestedAre P Q x)
    (hP : ∀ t, P t → t ≠ []) (hQ : ∀ t, Q t → t ≠ []) :
    (∀ t ∈ x.map Prod.fst, t ≠ []) ∧ ∀ t ∈ x.bind Prod.snd, t ≠ [] := by
  match x, h with
  | none, _ => exact ⟨by simp, by simp⟩
  | some (a, none), ha => exact ⟨fun t ht => by cases ht; exact hP a ha, fun t ht => by cases ht⟩
  | some (a, some b), ⟨ha, hb⟩ => exact ⟨fun t ht => by cases ht; exact hP a ha, fun t ht => by cases ht; exact hQ b hb⟩

theorem WellFormed.second (h : d.WellFormed CodePoint.isDecimal) :
    NestedAre (Digits CodePoint.isDecimal 2) (fun f => f ≠ [] ∧ ∀ c ∈ f, CodePoint.isDecimal c = true) d.second := by
  unfold DateText.second
  cases htime : d.time with
  | none => exact trivial
  | some t => exact (h.time t htime).second

theorem WellFormed.offset (h : d.WellFormed CodePoint.isDecimal) : ∀ o ∈ d.offset, o.WellFormed CodePoint.isDecimal := by
  unfold DateText.offset
  intro o ho
  cases htime : d.time with
  | none =>
    rw [htime] at ho
    cases ho
  | some t =>
    rw [htime] at ho
    exact (h.time t htime).offset o ho

theorem WellFormed.fraction (h : d.WellFormed CodePoint.isDecimal) : ∀ c ∈ d.fraction, CodePoint.isDecimal c = true := by
  have hsecond := h.second
  unfold DateText.fraction
  match d.second, hsecond with
  | none, _ => simp
  | some (a, none), _ => simp
  | some (a, some b), ⟨_, hb⟩ => exact hb.2

end DateText

/-- What the parser builds of the groups of a reading. -/
theorem parseDate_of_reads {s : Text} {d : DateText} {rest : Text} (h : Reads s d rest) :
    parseDate s = (if |d.offsetValue| < 1440 then .ok d.offsetValue else .error .valueError) >>= fun tzinfo =>
      pure (datetime? d.yearValue d.monthValue d.dayValue d.hourValue d.minuteValue d.secondValue
        (fractionMicroseconds d.fraction) tzinfo) := by
  cases hmatch : isoPattern.matchStart s with
  | none => exact absurd ⟨d, rest, h⟩ ((matchStart_none_iff s).1 hmatch)
  | some m =>
    obtain ⟨d', rest', hreads, hm⟩ := (mem_isoPattern_iff s m).1 (List.mem_of_mem_head? hmatch)
    obtain ⟨rfl, rfl⟩ := h.unique hreads
    have hgroup : ∀ n, m.group n = d.groups.lookup n := fun n => by
      rw [hm, Regex.Position.group, Regex.Position.after, List.append_nil]
    obtain ⟨h1, h2, h3, h4, h5, h6, h7, h8⟩ := groups_lookup d
    have hfields : ∀ t : Text, Digits CodePoint.isDecimal 2 t → t ≠ [] := fun t ht => ht.ne_nil
    obtain ⟨hmonth, hday⟩ := DateText.nested_ne_nil h.wellFormed.month hfields hfields
    obtain ⟨hsecond, -⟩ := DateText.nested_ne_nil h.wellFormed.second hfields fun t ht => ht.1
    have hyearValue : intGroup m 1 0 = d.yearValue := intGroup_eq ((hgroup 1).trans h1) (fun t ht => by
      cases ht
      exact h.wellFormed.year_ne_nil) 0
    have hmonthValue : intGroup m 2 1 = d.monthValue := intGroup_eq ((hgroup 2).trans h2) hmonth 1
    have hdayValue : intGroup m 3 1 = d.dayValue := intGroup_eq ((hgroup 3).trans h3) hday 1
    have hhourValue : intGroup m 4 0 = d.hourValue := intGroup_eq ((hgroup 4).trans h4) (fun t ht => by
      obtain ⟨time, htime, rfl⟩ := Option.map_eq_some_iff.1 ht
      exact (h.wellFormed.time time htime).hour.ne_nil) 0
    have hminuteValue : intGroup m 5 0 = d.minuteValue := intGroup_eq ((hgroup 5).trans h5) (fun t ht => by
      obtain ⟨time, htime, rfl⟩ := Option.map_eq_some_iff.1 ht
      exact (h.wellFormed.time time htime).minute.ne_nil) 0
    have hsecondValue : intGroup m 6 0 = d.secondValue := intGroup_eq ((hgroup 6).trans h6) hsecond 0
    have hoffset : (m.group 8).getD [] = (d.offset.map OffsetText.text).getD [] := by rw [hgroup, h8]
    have hfraction : (m.group 7).getD [] = d.fraction := by
      rw [hgroup, h7]
      rfl
    unfold parseDate
    simp only [hmatch, hyearValue, hmonthValue, hdayValue, hhourValue, hminuteValue, hsecondValue, hoffset, hfraction]
    unfold DateText.offsetValue
    rw [← timezone_eq h.wellFormed.offset]
    split
    · rfl
    · rfl

/-- For an offset of less than a day the parser returns the instant, if there is such a date. -/
theorem parseDate_of_offset {s : Text} {d : DateText} {rest : Text} (h : Reads s d rest) (hoffset : |d.offsetValue| < 1440) :
    (d.Exists → parseDate s = .ok (some d.instant)) ∧ (¬ d.Exists → parseDate s = .ok none) := by
  rw [parseDate_of_reads h, if_pos hoffset, ok_bind, datetime_eq]
  constructor
  · intro hexists
    rw [if_pos (DateText.exists_iff.2 hexists), fractionMicroseconds_eq h.wellFormed.fraction]
    have hinstant : ∀ x f : ℤ, x * 1000000 + f * 1000 = (x * 1000 + f) * 1000 := fun x f => by ring
    rw [hinstant]
    rfl
  · intro hnot
    rw [if_neg fun hexists => hnot (DateText.exists_iff.1 hexists)]
    rfl

/-! ## Parsed exactly -/

/-- The parser returns for the text, and what it returns is the instant the text denotes, if any. -/
def ParsedExactly (s : Text) : Prop := ∃ r, parseDate s = .ok r ∧ ∀ t, r = some t ↔ Denotes s t

/-- Read with digits of any script and a newline at the end, the text has an offset of less than a day;
and unless there is no such date it has no newline, ASCII digits, and an offset in range. -/
def WithinFormat (s : Text) : Prop :=
  ∀ d rest, Reads s d rest → |d.offsetValue| < 1440 ∧
    (d.Exists → rest = [] ∧ d.WellFormed CodePoint.isAsciiDigit ∧ ∀ o ∈ d.offset, o.InRange)

theorem Digits.mono {p q : CodePoint → Bool} (hpq : ∀ c, p c = true → q c = true) {n : ℕ} {t : Text} (h : Digits p n t) :
    Digits q n t := ⟨h.1, fun c hc => hpq c (h.2 c hc)⟩

theorem NestedAre.mono {P P' Q Q' : Text → Prop} (hP : ∀ t, P t → P' t) (hQ : ∀ t, Q t → Q' t) :
    ∀ {x : Option (Text × Option Text)}, NestedAre P Q x → NestedAre P' Q' x
  | none, _ => trivial
  | some (a, none), ha => hP a ha
  | some (a, some b), ⟨ha, hb⟩ => ⟨hP a ha, hQ b hb⟩

theorem DateText.WellFormed.mono {p q : CodePoint → Bool} (hpq : ∀ c, p c = true → q c = true) {d : DateText}
    (h : d.WellFormed p) : d.WellFormed q where
  year := h.year.imp (Digits.mono hpq) fun ⟨sign, ds, hsign, hds, heq⟩ => ⟨sign, ds, hsign, hds.mono hpq, heq⟩
  month := h.month.mono (fun _ ht => ht.mono hpq) fun _ ht => ht.mono hpq
  time := fun t ht =>
    ⟨(h.time t ht).hour.mono hpq, (h.time t ht).minute.mono hpq,
      (h.time t ht).second.mono (fun _ hs => hs.mono hpq) fun f hf => ⟨hf.1, fun c hc => hpq c (hf.2 c hc)⟩,
      fun o ho => by
        have hwf := (h.time t ht).offset o ho
        cases o with
        | zulu c => exact hwf
        | signed sign hour minute => exact ⟨hwf.1, hwf.2.1.mono hpq, hwf.2.2.mono hpq⟩⟩

theorem isDecimal_of_isAsciiDigit (c : CodePoint) (h : CodePoint.isAsciiDigit c = true) : CodePoint.isDecimal c = true := by
  unfold CodePoint.isAsciiDigit at h
  rw [Bool.and_eq_true, decide_eq_true_eq, decide_eq_true_eq] at h
  unfold CodePoint.isDecimal CodePoint.decimal? decimalZeros
  rw [List.find?_cons_of_pos (by simp; omega)]
  rfl

theorem Denotes.reads {s : Text} {t : ℤ} (h : Denotes s t) :
    ∃ d, Reads s d [] ∧ d.WellFormed CodePoint.isAsciiDigit ∧ d.Exists ∧ (∀ o ∈ d.offset, o.InRange) ∧ t = d.instant := by
  obtain ⟨d, hwf, rfl, hexists, hrange, rfl⟩ := h
  exact ⟨d, ⟨hwf.mono isDecimal_of_isAsciiDigit, (List.append_nil _).symm, .inl rfl⟩, hwf, hexists, hrange, rfl⟩

/-- The parser does what its format promises for the texts within the format, and for no others. -/
theorem parsedExactly_iff (s : Text) : ParsedExactly s ↔ WithinFormat s := by
  by_cases hreads : ∃ d rest, Reads s d rest
  · obtain ⟨d, rest, h⟩ := hreads
    constructor
    · rintro ⟨r, hr, hdenotes⟩ d' rest' h'
      obtain ⟨rfl, rfl⟩ := h.unique h'
      have hoffset : |d.offsetValue| < 1440 := by
        by_contra hlarge
        rw [parseDate_of_reads h, if_neg hlarge] at hr
        cases hr
      refine ⟨hoffset, fun hexists => ?_⟩
      rw [(parseDate_of_offset h hoffset).1 hexists] at hr
      cases hr
      obtain ⟨d', h', hwf, -, hrange, -⟩ := ((hdenotes _).1 rfl).reads
      obtain ⟨rfl, rfl⟩ := h.unique h'
      exact ⟨rfl, hwf, hrange⟩
    · intro hwithin
      obtain ⟨hoffset, hexact⟩ := hwithin d rest h
      by_cases hexists : d.Exists
      · obtain ⟨rfl, hwf, hrange⟩ := hexact hexists
        refine ⟨_, (parseDate_of_offset h hoffset).1 hexists, fun t => ?_⟩
        constructor
        · intro ht
          cases ht
          exact ⟨d, hwf, h.text.trans (List.append_nil _), hexists, hrange, rfl⟩
        · intro ht
          obtain ⟨d', h', -, -, -, rfl⟩ := ht.reads
          obtain ⟨rfl, -⟩ := h.unique h'
          rfl
      · refine ⟨_, (parseDate_of_offset h hoffset).2 hexists, fun t => iff_of_false (by simp) fun ht => ?_⟩
        obtain ⟨d', h', -, hexists', -, -⟩ := ht.reads
        obtain ⟨rfl, -⟩ := h.unique h'
        exact hexists hexists'
  · have hnone : parseDate s = .ok none := by
      unfold parseDate
      rw [(matchStart_none_iff s).2 hreads]
    refine iff_of_true ⟨none, hnone, fun t => iff_of_false (by simp) fun ht => ?_⟩
      fun d rest h => absurd ⟨d, rest, h⟩ hreads
    obtain ⟨d, h, -⟩ := ht.reads
    exact hreads ⟨d, [], h⟩

/-- An offset of a day raises. -/
theorem not_parsedExactly : ¬ ∀ s, ParsedExactly s := by
  intro h
  obtain ⟨r, hr, -⟩ := h (lit "2024-01-01T00:00+24:00")
  have hraised : parseDate (lit "2024-01-01T00:00+24:00") = .error .valueError := by decide +kernel
  rw [hraised] at hr
  cases hr

end ConfigDirector.Evaluation
