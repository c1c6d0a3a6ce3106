/-
The delay before a reconnect (`EventSourceClient._ask`, `_as_seconds`, `_reconnect_delay`): what the caller's
function answers, if that is a number of seconds in range, and else the delay of the server, which nothing has
checked.
-/
import ConfigDirector.EventSource.Connection
import ConfigDirector.Python.Rounding

namespace ConfigDirector.EventSource

open Python

variable {ε : Type}

/-! ## Model -/

/-- `_DEFAULT_SERVER_DELAY`, `_MIN_RECONNECT_DELAY` and `_MAX_RECONNECT_DELAY`. -/
def defaultServerDelay : PyFloat := .ofRat 2

def minReconnectDelay : PyFloat := .ofRat (1 / 1000)

def maxReconnectDelay : PyFloat := .ofRat 3600

structure Failure (ε : Type) where
  status : Option ℕ
  error : Option ε

structure ReconnectionState (ε : Type) where
  attempt : ℕ
  serverReconnectDelay : PyFloat
  status : Option ℕ
  error : Option ε

/-- What is logged of a function of the caller that raised. -/
inductive HandlerLog (ε : Type)
  | raised (error : ε)
  | raisedUsing (default : PyValue) (error : ε)

/-- `_ask`, with what it logs. -/
def ask (callback : Option (ReconnectionState ε → Except ε PyValue)) (state : ReconnectionState ε) (default : PyValue) :
    PyValue × List (HandlerLog ε) :=
  match callback with
  | none => (default, [])
  | some f =>
    match f state with
    | .ok answer => (answer, [])
    | .error error => (default, [.raisedUsing default error])

/-- `_as_seconds`. -/
def asSeconds (value : PyValue) : Except Exc (Option PyFloat) :=
  match value with
  | .int _ | .float _ =>
    match value.toFloat with
    | .ok seconds => .ok (if seconds.isFinite then some seconds else none)
    | .error e => .error e
  | _ => .ok none

def inRange (delay : PyFloat) : Bool := minReconnectDelay.le delay && delay.le maxReconnectDelay

/-- The message of the `ValueOutOfRangeError`. -/
def outOfRangeMessage (delay : Option PyFloat) (serverDelay : PyFloat) : Text :=
  lit "The calculated reconnect delay " ++ (match delay with | some delay => delay.repr | none => lit "None") ++
    lit " is out of range; falling back to " ++ serverDelay.repr ++ lit " seconds"

/-- What `_reconnect_delay` returns or raises, the message `on_error` was given and what was logged. -/
structure Delayed (ε : Type) where
  result : Except Exc PyFloat
  reported : Option Text
  logged : List (HandlerLog ε)

def reconnectDelay (calculate : Option (ReconnectionState ε → Except ε PyValue)) (onError : Option (Text → Option ε))
    (serverDelay : PyFloat) (state : ReconnectionState ε) : Delayed ε :=
  let (answer, logged) := ask calculate state (.float serverDelay)
  match asSeconds answer with
  | .error e => ⟨.error e, none, logged⟩
  | .ok delay =>
    match delay.filter inRange with
    | some delay => ⟨.ok delay, none, logged⟩
    | none =>
      let message := outOfRangeMessage delay serverDelay
      match onError with
      | none => ⟨.ok serverDelay, none, logged⟩
      | some notify => ⟨.ok serverDelay, some message, logged ++ ((notify message).map .raised).toList⟩

/-- `_handle_retry`: one that raises leaves the delay as it is. -/
def afterRetry (serverDelay : PyFloat) (milliseconds : ℕ) : PyFloat :=
  match PyFloat.ofInt? milliseconds with
  | some x => x.divThousand
  | none => serverDelay

/-- The delay of the server after some retries. -/
def serverDelay (retries : List ℕ) : PyFloat := retries.foldl afterRetry defaultServerDelay

/-- What the loop waits for after a failure. -/
def loopDelay (calculate : Option (ReconnectionState ε → Except ε PyValue)) (onError : Option (Text → Option ε))
    (retries : List ℕ) (attempt : ℕ) (failure : Failure ε) : Except Exc PyFloat :=
  (reconnectDelay calculate onError (serverDelay retries)
    ⟨attempt, serverDelay retries, failure.status, failure.error⟩).result

/-! ## Numbers in range -/

theorem inRange_iff (x : PyFloat) :
    inRange x = true ↔ minReconnectDelay.le x = true ∧ x.le maxReconnectDelay = true := by
  unfold inRange
  rw [Bool.and_eq_true]

/-- Rounded, a number above the range stays above it. -/
theorem not_inRange_of_ge {p q : ℚ} (hp : 0 < p) (h : p ≤ q) (hout : (PyFloat.ofRat p).le maxReconnectDelay = false) :
    inRange (.ofRat q) = false := by
  rw [← Bool.not_eq_true, inRange_iff]
  rintro ⟨-, hmax⟩
  rw [PyFloat.le_trans (ofRat_le hp h) hmax] at hout
  cases hout

theorem inRange_of_bounds {q : ℚ} (hlo : 1 / 1000 ≤ q) (hhi : q ≤ 3600) : inRange (.ofRat q) = true := by
  rw [inRange_iff]
  exact ⟨ofRat_le (by norm_num) hlo, ofRat_le (by linarith) hhi⟩

/-- What an `int` is as a float. -/
theorem ofInt?_eq_some {n : ℤ} {x : PyFloat} (h : PyFloat.ofInt? n = some x) :
    PyFloat.ofRat n = x ∧ ∃ y : Binary64, x = .finite y := by
  unfold PyFloat.ofInt? at h
  split at h
  · rename_i y hy
    cases h
    exact ⟨hy, y, rfl⟩
  · cases h

/-- A number of seconds in range. -/
theorem inRange_int (n : ℤ) : inRange (.ofRat n) = true ↔ 1 ≤ n ∧ n ≤ 3600 := by
  rcases lt_or_ge n 1 with hlow | hlow
  · have hle : (n : ℚ) ≤ 0 := by exact_mod_cast Int.lt_add_one_iff.1 hlow
    refine iff_of_false ?_ (by omega)
    rw [inRange_iff]
    rintro ⟨hmin, -⟩
    exact absurd (PyFloat.le_trans hmin (ofRat_le_zero hle)) (by decide +kernel)
  · rcases le_or_gt n 3600 with hhigh | hhigh
    · refine iff_of_true (inRange_of_bounds ?_ (by exact_mod_cast hhigh)) ⟨hlow, hhigh⟩
      have hone : (1 : ℚ) ≤ n := by exact_mod_cast hlow
      linarith
    · have hge : (3601 : ℚ) ≤ n := by exact_mod_cast hhigh
      refine iff_of_false ?_ (by omega)
      rw [not_inRange_of_ge (by norm_num) hge (by decide +kernel)]
      exact Bool.false_ne_true

/-- An `int` that is a float is at least as large as a smaller one. -/
theorem le_ofInt {m n : ℕ} {x y : Binary64} (hm : 0 < m) (h : m ≤ n) (hx : PyFloat.ofRat m = .finite x)
    (hy : PyFloat.ofRat n = .finite y) : x.toRat ≤ y.toRat := by
  have hle := ofRat_le (p := m) (q := n) (by exact_mod_cast hm) (by exact_mod_cast h)
  rw [hx, hy, PyFloat.le_finite] at hle
  exact hle

theorem divThousand_of_pos {x : Binary64} (h : 0 < x.toRat) :
    (PyFloat.finite x).divThousand = .ofRat (x.toRat / 1000) := by
  have hmant : x.mant ≠ 0 := fun h0 => h.ne' ((Binary64.mant_eq_zero_iff x).1 h0)
  rw [PyFloat.divThousand, if_neg hmant]

/-- Milliseconds that are seconds in range. -/
theorem inRange_retry {n : ℕ} {x : PyFloat} (h : PyFloat.ofInt? n = some x) :
    inRange x.divThousand = true ↔ 1 ≤ n ∧ n ≤ 3600000 := by
  obtain ⟨hx, y, rfl⟩ := ofInt?_eq_some h
  rw [Int.cast_natCast] at hx
  rcases Nat.eq_zero_or_pos n with rfl | hpos
  · rw [Nat.cast_zero, ofRat_zero, PyFloat.finite.injEq] at hx
    rw [← hx]
    exact iff_of_false (by decide +kernel) (by omega)
  · obtain ⟨u, hu, huval⟩ := ofRat_natCast (n := 1) (by norm_num)
    have hone := le_ofInt one_pos hpos hu hx
    rw [huval, Nat.cast_one] at hone
    rw [divThousand_of_pos (by linarith)]
    rcases le_or_gt n 3600000 with hhigh | hhigh
    · obtain ⟨v, hv, hvval⟩ := ofRat_natCast (n := 3600000) (by norm_num)
      have hle := le_ofInt hpos hhigh hx hv
      rw [hvval, Nat.cast_ofNat] at hle
      exact iff_of_true (inRange_of_bounds (by linarith) (by linarith)) ⟨hpos, hhigh⟩
    · obtain ⟨v, hv, hvval⟩ := ofRat_natCast (n := 3600001) (by norm_num)
      have hle := le_ofInt (by norm_num) hhigh hv hx
      rw [hvval, Nat.cast_ofNat] at hle
      have hge : (3600001 / 1000 : ℚ) ≤ y.toRat / 1000 := by linarith
      refine iff_of_false ?_ (by omega)
      rw [not_inRange_of_ge (by norm_num) hge (by decide +kernel)]
      exact Bool.false_ne_true

/-! ## The delay of the server -/

/-- The last retry that `_handle_retry` takes, in milliseconds, or the default. -/
def lastRetry (retries : List ℕ) : ℕ :=
  (retries.filter fun n => (PyFloat.ofInt? (n : ℕ)).isSome).getLast?.getD 2000

/-- Delays that come from another by retries. -/
def FromRetries (before after : PyFloat) : Prop := ∃ retries : List ℕ, after = retries.foldl afterRetry before

theorem FromRetries.refl (delay : PyFloat) : FromRetries delay delay := ⟨[], rfl⟩

theorem FromRetries.trans {d₁ d₂ d₃ : PyFloat} (h₁ : FromRetries d₁ d₂) (h₂ : FromRetries d₂ d₃) :
    FromRetries d₁ d₃ := by
  obtain ⟨retries, rfl⟩ := h₁
  obtain ⟨retries', rfl⟩ := h₂
  exact ⟨retries ++ retries', (List.foldl_append ..).symm⟩

theorem inRange_serverDelay (retries : List ℕ) :
    inRange (serverDelay retries) = true ↔ 1 ≤ lastRetry retries ∧ lastRetry retries ≤ 3600000 := by
  induction retries using List.reverseRecOn with
  | nil =>
    have htwo : inRange (.ofRat 2) = true := inRange_of_bounds (by norm_num) (by norm_num)
    exact iff_of_true htwo (by decide)
  | append_singleton retries n ih =>
    unfold serverDelay lastRetry
    rw [List.foldl_append, List.foldl_cons, List.foldl_nil, afterRetry, List.filter_append]
    cases hn : PyFloat.ofInt? (n : ℕ) with
    | none =>
      rw [List.filter_cons_of_neg (by rw [hn]; exact Bool.false_ne_true), List.filter_nil, List.append_nil]
      exact ih
    | some x =>
      rw [List.filter_cons_of_pos (by rw [hn]; rfl), List.filter_nil, List.getLast?_append, List.getLast?_singleton]
      exact inRange_retry hn

namespace EventSourceClient

/-- A retry sets the delay, and nothing else does. -/
theorem callStep_serverDelay (s : EventSourceClient) (calls : List Call) (result : Except StreamError Parser)
    (decoder : Option Decoder) (call : Call) :
    FromRetries s.serverDelay (s.callStep calls result decoder call).1.serverDelay := by
  cases call with
  | event message =>
    unfold callStep begins
    simp only
    split <;> split <;> exact .refl _
  | comment text =>
    unfold callStep begins
    simp only
    split <;> exact .refl _
  | retry n =>
    refine ⟨[n], ?_⟩
    rw [List.foldl_cons, List.foldl_nil, afterRetry, callStep]
    cases PyFloat.ofInt? n <;> rfl

theorem closeStep_serverDelay (s : EventSourceClient) (closing : Closing) :
    (s.closeStep closing).1.serverDelay = s.serverDelay := by
  cases closing with
  | settingStop event => rfl
  | joining event =>
    rw [closeStep]
    split <;> rfl

theorem goStep_serverDelay {o : Options} {s s' : EventSourceClient} {w w' : Worker}
    (h : s.goStep o w = some (s', w')) : FromRetries s.serverDelay s'.serverDelay := by
  cases w with
  | connected =>
    cases h
    unfold begins
    split <;> exact .refl _
  | received chunk decoder parser =>
    rw [goStep] at h
    split at h <;> cases h <;> exact .refl _
  | ending decoder parser =>
    rw [goStep] at h
    split at h <;> cases h <;> exact .refl _
  | feeding calls result decoder =>
    cases calls with
    | nil => cases result <;> cases decoder <;> cases h <;> exact .refl _
    | cons call calls =>
      have hcall := callStep_serverDelay s calls result decoder call
      rw [goStep] at h
      rw [Option.some.inj h] at hcall
      exact hcall
  | handling closing next =>
    cases closing with
    | none => cases h
    | some closing =>
      cases h
      rw [closeStep_serverDelay]
      exact .refl _
  | opening => cases h
  | reading decoder parser => cases h
  | failed => cases h
  | ended => cases h
  | _ => cases h; exact .refl _

theorem workerStep_serverDelay {o : Options} {s s' : EventSourceClient} {w w' : Worker} {e : WorkerStep}
    (h : s.workerStep o w e = some (s', w')) : FromRetries s.serverDelay s'.serverDelay := by
  unfold workerStep at h
  split at h
  · exact goStep_serverDelay h
  all_goals first
    | cases h; done
    | cases h; exact .refl _
    | split at h <;> cases h <;> exact .refl _

theorem step_serverDelay {o : Options} {s s' : EventSourceClient} {e : ClientStep} (h : s.step o e = some s') :
    FromRetries s.serverDelay s'.serverDelay := by
  cases e with
  | connect =>
    cases h
    unfold connectStep
    split <;> exact .refl _
  | closer i =>
    rw [step] at h
    split at h
    · cases h
      exact .refl _
    · rename_i closing _
      cases h
      show FromRetries s.serverDelay (s.closeStep closing).1.serverDelay
      rw [closeStep_serverDelay]
      exact .refl _
  | worker i e =>
    rw [step] at h
    split at h
    · obtain ⟨⟨s₁, w'⟩, hstep, rfl⟩ := Option.map_eq_some_iff.1 h
      have hworker := workerStep_serverDelay hstep
      exact hworker
    · cases h

/-- In every run, the delay of the server is the one of some retries. -/
theorem serverDelay_of_run {o : Options} {trace : List ClientStep} {s : EventSourceClient}
    (h : run o init trace = some s) : ∃ retries, s.serverDelay = EventSource.serverDelay retries := by
  have hretries : FromRetries defaultServerDelay s.serverDelay :=
    Transition.invariant_of_step (P := fun s => FromRetries defaultServerDelay s.serverDelay)
      (fun _ _ _ hs hstep => hs.trans (step_serverDelay hstep)) (.refl _) h
  exact hretries

end EventSourceClient

/-! ## What the loop waits for -/

/-- What the caller's function returns, if it does. -/
def answered (calculate : Option (ReconnectionState ε → Except ε PyValue)) (state : ReconnectionState ε) :
    Option PyValue :=
  calculate.bind fun f => (f state).toOption

/-- A number of seconds in range. -/
def AnswersInRange : Option PyValue → Prop
  | some (.int n) => 1 ≤ n ∧ n ≤ 3600
  | some (.float x) => inRange x = true
  | _ => False

/-- An `int` that is no float. -/
def AnswersTooLarge (answer : Option PyValue) : Prop := ∃ n : ℤ, answer = some (.int n) ∧ overflowBound ≤ n.natAbs

/-- What is asked is the answer or the default. -/
theorem ask_fst (callback : Option (ReconnectionState ε → Except ε PyValue)) (state : ReconnectionState ε)
    (default : PyValue) : (ask callback state default).1 = (answered callback state).getD default := by
  cases callback with
  | none => rfl
  | some f =>
    unfold ask answered
    rw [Option.bind_some]
    cases hf : f state with
    | ok answer => simp only [hf]; rfl
    | error error => simp only [hf]; rfl

theorem reconnectDelay_result (calculate : Option (ReconnectionState ε → Except ε PyValue))
    (onError : Option (Text → Option ε)) (serverDelay : PyFloat) (state : ReconnectionState ε) :
    (reconnectDelay calculate onError serverDelay state).result =
      (asSeconds ((answered calculate state).getD (.float serverDelay))).map fun delay =>
        (delay.filter inRange).getD serverDelay := by
  rw [← ask_fst]
  unfold reconnectDelay
  simp only
  cases asSeconds (ask calculate state (.float serverDelay)).1 with
  | error e => rfl
  | ok delay =>
    simp only [Except.map]
    cases delay.filter inRange with
    | some delay => rfl
    | none => cases onError <;> rfl

theorem isFinite_of_inRange {x : PyFloat} (h : inRange x = true) : x.isFinite = true := by
  cases x with
  | finite x => rfl
  | inf neg => exact absurd h (by revert neg; decide +kernel)
  | nan => exact absurd h (by decide +kernel)

/-- A float is waited for if it is in range. -/
theorem asSeconds_float (x serverDelay : PyFloat) :
    (asSeconds (.float x)).map (fun delay => (delay.filter inRange).getD serverDelay) =
      .ok (if inRange x then x else serverDelay) := by
  have hfloat : asSeconds (.float x) = .ok (if x.isFinite then some x else none) := rfl
  rw [hfloat, Except.map]
  by_cases hx : inRange x = true
  · rw [if_pos (isFinite_of_inRange hx), if_pos hx, Option.filter_some_pos hx, Option.getD_some]
  · rw [if_neg hx]
    split
    · rw [Option.filter_some_neg (Bool.not_eq_true _ ▸ hx), Option.getD_none]
    · rfl

theorem asSeconds_int {n : ℤ} (h : (n.natAbs : ℚ) < overflowBound) : asSeconds (.int n) = .ok (some (.ofRat n)) := by
  obtain ⟨x, hx⟩ := Option.isSome_iff_exists.1 ((ofInt?_isSome_iff n).2 h)
  obtain ⟨hrat, y, rfl⟩ := ofInt?_eq_some hx
  rw [hrat, asSeconds, PyValue.toFloat, hx]
  rfl

theorem asSeconds_tooLarge {n : ℤ} (h : overflowBound ≤ n.natAbs) : asSeconds (.int n) = .error .overflowError := by
  have hnone : PyFloat.ofInt? n = none := by
    rw [← Option.not_isSome_iff_eq_none, ofInt?_isSome_iff]
    exact not_lt.2 h
  rw [asSeconds, PyValue.toFloat, hnone]

/-- The loop waits within the range exactly if it is answered a number in range, or an `int` that is no float is not
what it is answered and the last retry was within the range. -/
theorem loopDelay_inRange_iff (calculate : Option (ReconnectionState ε → Except ε PyValue))
    (onError : Option (Text → Option ε)) (retries : List ℕ) (attempt : ℕ) (failure : Failure ε) :
    (∃ delay, loopDelay calculate onError retries attempt failure = .ok delay ∧ inRange delay = true) ↔
      AnswersInRange (answered calculate ⟨attempt, serverDelay retries, failure.status, failure.error⟩) ∨
      ¬ AnswersTooLarge (answered calculate ⟨attempt, serverDelay retries, failure.status, failure.error⟩) ∧
        1 ≤ lastRetry retries ∧ lastRetry retries ≤ 3600000 := by
  rw [loopDelay, reconnectDelay_result, ← inRange_serverDelay]
  generalize serverDelay retries = server
  generalize answered calculate _ = answer
  have hfallback (delay : PyFloat) : (∃ d, (Except.ok delay : Except Exc PyFloat) = .ok d ∧ inRange d = true) ↔
      inRange delay = true :=
    ⟨fun ⟨_, heq, hin⟩ => (Except.ok.inj heq) ▸ hin, fun hin => ⟨delay, rfl, hin⟩⟩
  -- without a number as answer it is the delay of the server
  have hserver (hin : ¬ AnswersInRange answer) (hlarge : ¬ AnswersTooLarge answer)
      (hresult : (asSeconds (answer.getD (.float server))).map (fun delay => (delay.filter inRange).getD server) = .ok server) :
      (∃ delay, (asSeconds (answer.getD (.float server))).map (fun delay => (delay.filter inRange).getD server) = .ok delay ∧
        inRange delay = true) ↔ AnswersInRange answer ∨ ¬ AnswersTooLarge answer ∧ inRange server = true := by
    rw [hresult, hfallback]
    exact ⟨fun h => .inr ⟨hlarge, h⟩, fun h => (h.resolve_left hin).2⟩
  have hlarge_of (h : ∀ n : ℤ, answer ≠ some (.int n)) : ¬ AnswersTooLarge answer := fun ⟨n, heq, _⟩ => h n heq
  cases answer with
  | none =>
    refine hserver id (hlarge_of fun n h => (by cases h)) ?_
    rw [Option.getD_none, asSeconds_float, ite_self]
  | some v =>
    cases v with
    | float x =>
      have hlarge : ¬ AnswersTooLarge (some (.float x)) := hlarge_of fun n h => (by cases h)
      by_cases hx : inRange x = true
      · rw [Option.getD_some, asSeconds_float, if_pos hx, hfallback]
        exact iff_of_true hx (.inl hx)
      · refine hserver hx hlarge ?_
        rw [Option.getD_some, asSeconds_float, if_neg hx]
    | int n =>
      rcases lt_or_ge (n.natAbs : ℚ) overflowBound with hn | hn
      · have hlarge : ¬ AnswersTooLarge (some (.int n)) := by
          rintro ⟨m, heq, hm⟩
          cases heq
          exact absurd hn (not_lt.2 hm)
        by_cases hx : inRange (.ofRat n) = true
        · rw [Option.getD_some, asSeconds_int hn, Except.map, Option.filter_some_pos hx, Option.getD_some, hfallback]
          exact iff_of_true hx (.inl ((inRange_int n).1 hx))
        · refine hserver (fun h => hx ((inRange_int n).2 h)) hlarge ?_
          rw [Option.getD_some, asSeconds_int hn, Except.map, Option.filter_some_neg (Bool.not_eq_true _ ▸ hx),
            Option.getD_none]
      · rw [Option.getD_some, asSeconds_tooLarge hn]
        refine iff_of_false (fun ⟨_, heq, _⟩ => (by cases heq)) ?_
        rintro (⟨hlow, hhigh⟩ | ⟨hlarge, -⟩)
        · have hsmall : (n.natAbs : ℚ) ≤ 3600 := by exact_mod_cast (show n.natAbs ≤ 3600 by omega)
          have hbound : (3600 : ℚ) < overflowBound := by
            rw [overflowBound_eq]
            calc (3600 : ℚ) < (2 ^ 54 - 1) * 1 := by norm_num
              _ ≤ (2 ^ 54 - 1) * (2 : ℚ) ^ (970 : ℤ) := by
                gcongr
                exact one_le_zpow₀ (by norm_num) (by norm_num)
          linarith
        · exact hlarge ⟨n, rfl, hn⟩
    | none | bool b | str t | list items | dict entries | other t =>
      exact hserver id (hlarge_of fun n h => (by cases h)) rfl

/-- A server can make the loop wait for no time at all. -/
theorem retry_zero_is_no_delay : ¬ ∀ (calculate : Option (ReconnectionState Exc → Except Exc PyValue))
    (onError : Option (Text → Option Exc)) (retries : List ℕ) (attempt : ℕ) (failure : Failure Exc),
    ∃ delay, loopDelay calculate onError retries attempt failure = .ok delay ∧ inRange delay = true := by
  intro hall
  obtain ⟨delay, hdelay, hin⟩ := hall none none [0] 1 ⟨none, none⟩
  have hzero : loopDelay (ε := Exc) none none [0] 1 ⟨none, none⟩ = .ok (.finite (.zero false)) := by decide +kernel
  rw [hzero] at hdelay
  cases hdelay
  exact absurd hin (by decide +kernel)

end ConfigDirector.EventSource
