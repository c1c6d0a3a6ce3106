/-
Whole runs of the streaming transport: whatever the server answers, and whatever the messages and the handlers of
the bundles raise, each bundle of each stream is delivered once and in order, and only a response without content
or a status that cannot be recovered from ends the run.
-/
import ConfigDirector.Client.History
import ConfigDirector.Transport.Streaming
import Mathlib.Data.List.Infix
import Mathlib.Data.List.TakeWhile

namespace ConfigDirector.Transport

open Python ConfigDirector.Bundle EventSource

/-! ## Some replies and one more -/

theorem inits_concat {α : Type} (l : List α) (a : α) : (l ++ [a]).inits = l.inits ++ [l ++ [a]] := by
  rw [List.inits_append]
  rfl

theorem inits_ne_nil {α : Type} (l : List α) : l.inits ≠ [] := by
  intro h
  have hlength := List.length_inits l
  rw [h] at hlength
  cases hlength

theorem tail_inits_concat {α : Type} (l : List α) (a : α) : (l ++ [a]).inits.tail = l.inits.tail ++ [l ++ [a]] := by
  rw [inits_concat, List.tail_append_of_ne_nil (inits_ne_nil l)]

theorem nil_notMem_tail_inits {α : Type} (l : List α) : [] ∉ l.inits.tail := by
  induction l using List.reverseRecOn with
  | nil => exact List.not_mem_nil
  | append_singleton l a ih =>
    rw [tail_inits_concat, List.mem_append, List.mem_singleton]
    rintro (h | h)
    · exact ih h
    · exact absurd h.symm (List.append_ne_nil_of_right_ne_nil l (List.cons_ne_nil a []))

theorem dropLast_inits_concat {α : Type} (l : List α) (a : α) : (l ++ [a]).inits.dropLast = l.inits.dropLast ++ [l] := by
  rw [inits_concat, List.dropLast_concat]
  induction l using List.reverseRecOn with
  | nil => rfl
  | append_singleton l b _ => rw [inits_concat, List.dropLast_concat]

section
variable {replies : List StreamReply}

theorem servedReplies_of_none (h : replies.any StreamReply.givesUp = false) : servedReplies replies = replies := by
  rw [servedReplies, List.takeWhile_eq_self_iff]
  intro reply hreply
  rw [Bool.not_eq_true', ← Bool.not_eq_true]
  exact List.any_eq_false.1 h reply hreply

theorem answeredReplies_of_none (h : replies.any StreamReply.givesUp = false) : answeredReplies replies = replies := by
  rw [answeredReplies, servedReplies_of_none h]
  exact List.take_of_length_le (Nat.le_succ _)

theorem length_servedReplies_lt (h : replies.any StreamReply.givesUp = true) :
    (servedReplies replies).length < replies.length := by
  have hleading : (servedReplies replies).Sublist replies := List.takeWhile_sublist _
  refine lt_of_le_of_ne hleading.length_le fun hlength => ?_
  have hself : servedReplies replies = replies := hleading.eq_of_length hlength
  rw [servedReplies, List.takeWhile_eq_self_iff] at hself
  obtain ⟨given, hmem, hgives⟩ := List.any_eq_true.1 h
  have hnot := hself given hmem
  rw [hgives] at hnot
  cases hnot

theorem servedReplies_concat_of_any (h : replies.any StreamReply.givesUp = true) (reply : StreamReply) :
    servedReplies (replies ++ [reply]) = servedReplies replies := by
  have hlength : (servedReplies replies).length ≠ replies.length := (length_servedReplies_lt h).ne
  unfold servedReplies at hlength ⊢
  rw [List.takeWhile_append, if_neg hlength]

theorem answeredReplies_concat_of_any (h : replies.any StreamReply.givesUp = true) (reply : StreamReply) :
    answeredReplies (replies ++ [reply]) = answeredReplies replies := by
  rw [answeredReplies, servedReplies_concat_of_any h, List.take_append_of_le_length (length_servedReplies_lt h)]
  rfl

theorem servedReplies_concat_of_givesUp (h : replies.any StreamReply.givesUp = false) {reply : StreamReply}
    (hreply : reply.givesUp = true) : servedReplies (replies ++ [reply]) = replies := by
  have hserved := servedReplies_of_none h
  unfold servedReplies at hserved ⊢
  rw [List.takeWhile_append, if_pos (by rw [hserved]), List.takeWhile_cons_of_neg (by simp [hreply]), List.append_nil]

theorem answeredReplies_concat (h : replies.any StreamReply.givesUp = false) (reply : StreamReply) :
    answeredReplies (replies ++ [reply]) = replies ++ [reply] := by
  cases hreply : reply.givesUp with
  | false => exact answeredReplies_of_none (by rw [List.any_append, h]; simp [hreply])
  | true =>
    rw [answeredReplies, servedReplies_concat_of_givesUp h hreply]
    exact List.take_of_length_le (by simp)

theorem failuresSince_concat (replies : List StreamReply) (reply : StreamReply) :
    failuresSince (replies ++ [reply]) = (if reply.opens then 0 else failuresSince replies) + 1 := by
  unfold failuresSince
  rw [List.reverse_append, List.reverse_singleton, List.singleton_append, List.any_append]
  cases hopens : reply.opens with
  | false =>
    rw [List.takeWhile_cons_of_pos (by simp [hopens]), List.length_cons, List.any_cons, hopens, List.any_nil]
    simp only [Bool.or_false, Bool.false_eq_true, if_false]
    omega
  | true =>
    rw [List.takeWhile_cons_of_neg (by simp [hopens]), List.any_cons, hopens]
    simp

end

/-! ## Runs -/

/-- What the worker has come to after some replies. -/
structure After (r : StreamRuntime) (replies : List StreamReply) (s : Streaming) : Prop where
  running : s.running = !replies.any StreamReply.givesUp
  heard : s.session.heard = (messagesServed replies).map .message
  lastEventId : s.session.lastEventId = lastId (messagesServed replies)
  attempt : s.running = true → s.attempt = failuresSince replies
  readyState : s.readyState = if s.running then .connecting else .closed
  settled : s.settled = (answeredReplies replies).any fun reply => reply.opens || reply.fatalError.isSome
  fatalError : s.fatalError = (replies.find? StreamReply.givesUp).bind StreamReply.fatalError
  requests : s.requests = (answeredReplies replies).inits.dropLast.map (requestAfter r)
  waits : s.waits = (servedReplies replies).inits.tail.map waitAfter

theorem after_init (r : StreamRuntime) : After r [] .init :=
  ⟨rfl, rfl, rfl, fun _ => rfl, rfl, rfl, rfl, rfl, rfl⟩

theorem fatalError_of_served {reply : StreamReply} (h : reply.givesUp = false) : reply.fatalError = none := by
  cases reply with
  | unopened error => rfl
  | responded status chunks breaks =>
    obtain ⟨-, hfatal⟩ : status ≠ 204 ∧ isFatalStatus (some status) = false := by simpa [StreamReply.givesUp] using h
    rw [StreamReply.fatalError, hfatal]
    rfl

theorem find?_of_none {replies : List StreamReply} (h : replies.any StreamReply.givesUp = false) :
    replies.find? StreamReply.givesUp = none := by
  rw [List.find?_eq_none]
  exact List.any_eq_false.1 h

theorem opens_of_givesUp {reply : StreamReply} (h : reply.givesUp = true) : reply.opens = false := by
  cases reply with
  | unopened error => rfl
  | responded status chunks breaks =>
    unfold StreamReply.givesUp isFatalStatus at h
    unfold StreamReply.opens
    simp only [Bool.or_eq_true, decide_eq_true_eq, Bool.and_eq_true] at h
    rcases h with rfl | ⟨⟨h400, -⟩, -⟩
    · rfl
    · simp [not_lt.2 h400]

theorem givesUp_of_opens {reply : StreamReply} (h : reply.opens = true) : reply.givesUp = false := by
  rw [← Bool.not_eq_true]
  intro hgives
  rw [opens_of_givesUp hgives] at h
  cases h

section
variable [Unicode] {r : StreamRuntime} {s : Streaming} {replies : List StreamReply} {reply : StreamReply}

theorem After.served (h : After r replies s) (hnone : replies.any StreamReply.givesUp = false)
    (hreply : reply.givesUp = false) : After r (replies ++ [reply]) (s.turn r reply) := by
  have hrun : s.running = true := by rw [h.running, hnone]; rfl
  have hturn : Served r s (s.turn r reply) reply := turn_served hrun hreply
  have hnone' : (replies ++ [reply]).any StreamReply.givesUp = false := by
    rw [List.any_append, hnone]
    simp [hreply]
  have hmessages : messagesServed (replies ++ [reply]) = messagesServed replies ++ reply.messages := by
    rw [messagesServed, messagesServed, servedReplies_of_none hnone, servedReplies_of_none hnone', List.flatMap_append]
    simp
  have hattempt : (s.turn r reply).attempt = failuresSince (replies ++ [reply]) := by
    rw [hturn.attempt, h.attempt hrun, failuresSince_concat]
  refine ⟨?_, ?_, ?_, fun _ => hattempt, ?_, ?_, ?_, ?_, ?_⟩
  · rw [hturn.running, hnone']
    rfl
  · rw [hturn.hears.heard, h.heard, hmessages, List.map_append]
  · rw [hturn.hears.lastEventId, h.lastEventId, hmessages, lastId_append]
  · rw [hturn.readyState, hturn.running]
    rfl
  · rw [hturn.settled, h.settled, answeredReplies_concat hnone, answeredReplies_of_none hnone, List.any_append,
      List.any_cons, List.any_nil, Bool.or_false, fatalError_of_served hreply, Option.isSome_none, Bool.or_false]
  · rw [hturn.fatalError, h.fatalError, find?_of_none hnone, find?_of_none hnone']
  · rw [hturn.requests, h.requests, answeredReplies_concat hnone, answeredReplies_of_none hnone,
      dropLast_inits_concat, List.map_append, List.map_singleton, requestAfter, h.lastEventId, messagesServed,
      servedReplies_of_none hnone]
    simp
  · rw [hturn.waits, h.waits, servedReplies_of_none hnone, servedReplies_of_none hnone', tail_inits_concat,
      List.map_append, List.map_singleton, waitAfter, hattempt]

theorem After.gaveUp (h : After r replies s) (hnone : replies.any StreamReply.givesUp = false)
    (hreply : reply.givesUp = true) : After r (replies ++ [reply]) (s.turn r reply) := by
  have hrun : s.running = true := by rw [h.running, hnone]; rfl
  have hturn : GaveUp r s (s.turn r reply) reply := turn_gaveUp hrun hreply
  have hserved : servedReplies (replies ++ [reply]) = servedReplies replies := by
    rw [servedReplies_concat_of_givesUp hnone hreply, servedReplies_of_none hnone]
  have hmessages : messagesServed (replies ++ [reply]) = messagesServed replies := by
    rw [messagesServed, hserved]
    rfl
  refine ⟨?_, ?_, ?_, ?_, ?_, ?_, ?_, ?_, ?_⟩
  · rw [hturn.running, List.any_append, hnone]
    simp [hreply]
  · rw [hturn.session, h.heard, hmessages]
  · rw [hturn.session, h.lastEventId, hmessages]
  · rw [hturn.running]
    nofun
  · rw [hturn.readyState, hturn.running]
    rfl
  · rw [hturn.settled, h.settled, answeredReplies_concat hnone, answeredReplies_of_none hnone, List.any_append,
      List.any_cons, List.any_nil, Bool.or_false, opens_of_givesUp hreply, Bool.false_or]
  · rw [hturn.fatalError, h.fatalError, List.find?_append, find?_of_none hnone, Option.none_or,
      List.find?_cons_of_pos hreply, Option.bind_none, Option.or_none, Option.bind_some]
  · rw [hturn.requests, h.requests, answeredReplies_concat hnone, answeredReplies_of_none hnone,
      dropLast_inits_concat, List.map_append, List.map_singleton, requestAfter, h.lastEventId, messagesServed,
      servedReplies_of_none hnone]
    simp
  · rw [hturn.waits, h.waits, hserved]

theorem After.stopped (h : After r replies s) (hany : replies.any StreamReply.givesUp = true) :
    After r (replies ++ [reply]) (s.turn r reply) := by
  have hrun : s.running = false := by rw [h.running, hany]; rfl
  have hserved : servedReplies (replies ++ [reply]) = servedReplies replies := servedReplies_concat_of_any hany reply
  have hanswered : answeredReplies (replies ++ [reply]) = answeredReplies replies :=
    answeredReplies_concat_of_any hany reply
  have hmessages : messagesServed (replies ++ [reply]) = messagesServed replies := by
    rw [messagesServed, hserved]
    rfl
  rw [turn_stopped hrun]
  refine ⟨?_, ?_, ?_, ?_, h.readyState, ?_, ?_, ?_, ?_⟩
  · rw [hrun, List.any_append, hany]
    rfl
  · rw [h.heard, hmessages]
  · rw [h.lastEventId, hmessages]
  · rw [hrun]
    nofun
  · rw [h.settled, hanswered]
  · obtain ⟨given, hgiven⟩ := Option.isSome_iff_exists.1 (List.find?_isSome.2 (List.any_eq_true.1 hany))
    rw [h.fatalError, List.find?_append, hgiven, Option.some_or]
  · rw [h.requests, hanswered]
  · rw [h.waits, hserved]

theorem after_run (r : StreamRuntime) (replies : List StreamReply) : After r replies (Streaming.run r .init replies) := by
  induction replies using List.reverseRecOn with
  | nil => exact after_init r
  | append_singleton replies reply ih =>
    rw [Streaming.run, List.foldl_append]
    cases hany : replies.any StreamReply.givesUp with
    | true => exact ih.stopped hany
    | false =>
      cases hreply : reply.givesUp with
      | false => exact ih.served hany hreply
      | true => exact ih.gaveUp hany hreply

/-- A run goes on as long as no reply ends it. -/
theorem none_of_running (h : (Streaming.run r .init replies).running = true) :
    replies.any StreamReply.givesUp = false := by
  rw [← Bool.not_eq_true', ← (after_run r replies).running, h]

/-! ## What a run comes to -/

/-- The bundles of some messages. -/
def bundlesIn (r : Runtime) (messages : List EventSourceMessage) : List ConfigBundle :=
  messages.filterMap fun message => (parseBundle r.loads message.data).toOption

theorem parseBundle_disjoint {r : Runtime} {payload : Text} {bundle : ConfigBundle}
    (h : parseBundle r.loads payload = .ok bundle) : bundle.Disjoint := by
  unfold parseBundle at h
  cases hload : r.loads payload with
  | none =>
    rw [hload] at h
    cases h
  | some document =>
    rw [hload] at h
    cases document with
    | dict entries =>
      cases hconfigs : fieldOf entries (lit "configs") with
      | dict configs => exact parse_disjoint (d := ⟨entries, configs, r.loads_json payload _ hload, hconfigs⟩) h
      | _ =>
        simp only [parseDocument, hconfigs] at h
        cases h
    | _ => cases h

omit [Unicode] in
/-- The transport is settled by the streams before the end of the run, or by the status that ends it. -/
theorem settled_iff (replies : List StreamReply) :
    ((answeredReplies replies).any fun reply => reply.opens || reply.fatalError.isSome) = true ↔
      (∃ reply ∈ servedReplies replies, reply.opens = true) ∨
        ((replies.find? StreamReply.givesUp).bind StreamReply.fatalError).isSome = true := by
  -- on the replies from the first one on: one that gives up is the last that is answered
  induction replies with
  | nil => simp [answeredReplies, servedReplies]
  | cons reply replies ih =>
    cases hreply : reply.givesUp with
    | true =>
      have hserved : servedReplies (reply :: replies) = [] := by
        rw [servedReplies, List.takeWhile_cons_of_neg (by simp [hreply])]
      have hanswered : answeredReplies (reply :: replies) = [reply] := by
        rw [answeredReplies, hserved]
        rfl
      rw [hanswered, hserved, List.find?_cons_of_pos hreply]
      simp [opens_of_givesUp hreply]
    | false =>
      have hserved : servedReplies (reply :: replies) = reply :: servedReplies replies := by
        rw [servedReplies, List.takeWhile_cons_of_pos (by simp [hreply])]
        rfl
      have hanswered : answeredReplies (reply :: replies) = reply :: answeredReplies replies := by
        rw [answeredReplies, hserved]
        rfl
      rw [hanswered, hserved, List.find?_cons_of_neg (by simp [hreply]), List.any_cons, Bool.or_eq_true, ih,
        fatalError_of_served hreply, List.exists_mem_cons_iff, or_assoc]
      simp

/-- At every moment the fatal error is that of the reply that ended the run. -/
theorem Moment.fatalError (h : Streaming.Moment r replies s) :
    s.fatalError = (replies.find? StreamReply.givesUp).bind StreamReply.fatalError := by
  cases h with
  | between => exact (after_run r replies).fatalError
  | @reading replies status chunks breaks hrun hopens session =>
    have hnone := none_of_running hrun
    have hreply : (StreamReply.responded status chunks breaks).givesUp = false :=
      givesUp_of_opens (by simp [StreamReply.opens, hopens])
    rw [List.find?_append, find?_of_none hnone, List.find?_cons_of_neg (by simp [hreply])]
    show (Streaming.run r .init replies).fatalError = none
    rw [(after_run r replies).fatalError, find?_of_none hnone]
    rfl
  | @rejected replies status chunks breaks hrun hfatal state hstate =>
    have hnone := none_of_running hrun
    have hreply : (StreamReply.responded status chunks breaks).givesUp = true := by simp [StreamReply.givesUp, hfatal]
    rw [List.find?_append, find?_of_none hnone, List.find?_cons_of_pos hreply, Option.none_or, Option.bind_some,
      StreamReply.fatalError, if_pos hfatal]
    show some (fatalStatusError state.status (state.error.map r.describe)) = _
    rw [hstate.1, hstate.2]
    rfl

/-- The transport is settled at no moment before a stream opens or a status ends the run. -/
theorem Moment.settled (h : Streaming.Moment r replies s) (hsettled : s.settled = true) :
    (∃ reply ∈ servedReplies replies, reply.opens = true) ∨
      ((replies.find? StreamReply.givesUp).bind StreamReply.fatalError).isSome = true := by
  cases h with
  | between =>
    rw [(after_run r replies).settled] at hsettled
    exact (settled_iff replies).1 hsettled
  | @reading replies status chunks breaks hrun hopens session =>
    have hnone := none_of_running hrun
    have hopened : (StreamReply.responded status chunks breaks).opens = true := by simp [StreamReply.opens, hopens]
    refine .inl ⟨.responded status chunks breaks, ?_, hopened⟩
    rw [servedReplies_of_none (by rw [List.any_append, hnone]; simp [givesUp_of_opens hopened])]
    exact List.mem_append_right _ (List.mem_singleton_self _)
  | @rejected replies status chunks breaks hrun hfatal state hstate =>
    have hnone := none_of_running hrun
    have hreply : (StreamReply.responded status chunks breaks).givesUp = true := by simp [StreamReply.givesUp, hfatal]
    rw [List.find?_append, find?_of_none hnone, List.find?_cons_of_pos hreply]
    simp [StreamReply.fatalError, hfatal]

/-- The waits double from two seconds on and stop at 512; only a stream that was opened starts them anew, and no
retry of the server has a part in them. -/
theorem stream_run_waits (r : StreamRuntime) (replies : List StreamReply) :
    (Streaming.run r .init replies).waits = (servedReplies replies).inits.tail.map waitAfter ∧
      ∀ wait ∈ (Streaming.run r .init replies).waits, ∃ n, 1 ≤ n ∧ n ≤ 9 ∧ wait = .ofRat ((2 ^ n : ℕ) : ℚ) := by
  have h := after_run r replies
  refine ⟨h.waits, fun wait hwait => ?_⟩
  rw [h.waits] at hwait
  obtain ⟨before, hbefore, rfl⟩ := List.mem_map.1 hwait
  refine ⟨min (failuresSince before) maxBackoffExponent, ?_, min_le_right _ _, rfl⟩
  -- every wait follows a reply
  have hne : before ≠ [] := by
    rintro rfl
    exact nil_notMem_tail_inits _ hbefore
  obtain ⟨before, reply, rfl⟩ := List.eq_nil_or_concat before |>.resolve_left hne
  rw [List.concat_eq_append, failuresSince_concat]
  unfold maxBackoffExponent
  omega

/-- Each request resumes from the last id that was heard before it on any of the streams, and draws an id of its
own for the session. -/
theorem stream_run_resumes (r : StreamRuntime) (replies : List StreamReply) :
    (Streaming.run r .init replies).requests = (answeredReplies replies).inits.dropLast.map (requestAfter r) := 
  (after_run r replies).requests

end

end ConfigDirector.Transport
