import CodeSearch.Embedding.InFlight
import Mathlib.Data.List.Forall2

/-!
# Requests answered in any order

In whatever order the workers of a call come to their ends, and whenever the caller looks at them,
it learns the same: a crash if there is one, else the first failure in the order of the texts, else
whether the number of vectors is right, else the vectors. If no reply has more vectors than its
request has texts, the right number means that each reply has exactly one for each text, so the
vectors stand with their texts.
-/

set_option autoImplicit false

namespace CodeSearch

section Batches
variable {α β : Type}

theorem length_flatten_le_of_forall₂ {as : List (List α)} {bs : List (List β)}
    (h : List.Forall₂ (fun a b => a.length ≤ b.length) as bs) :
    as.flatten.length ≤ bs.flatten.length := by
  induction h with
  | nil => exact Nat.le_refl _
  | cons hle _ ih =>
    rw [List.flatten_cons, List.flatten_cons, List.length_append, List.length_append]
    omega

/-- Lists that are no longer than others are as long as those if they are as long together. -/
theorem map_length_eq_of_forall₂ {as : List (List α)} {bs : List (List β)}
    (h : List.Forall₂ (fun a b => a.length ≤ b.length) as bs)
    (hflat : as.flatten.length = bs.flatten.length) :
    as.map List.length = bs.map List.length := by
  induction h with
  | nil => rfl
  | cons hle hrest ih =>
    have hsum := length_flatten_le_of_forall₂ hrest
    rw [List.flatten_cons, List.flatten_cons, List.length_append, List.length_append] at hflat
    rw [List.map_cons, List.map_cons, ih (by omega)]
    congr 1
    omega

/-- Lists as long as the groups of some items have an entry for each item, where the item stands in
its group. -/
theorem getElem?_flatten_of_groups {size : Nat} (hsize : 1 ≤ size) {items : List α}
    {answers : List (List β)}
    (hlen : answers.map List.length = (groupsOf size items).map List.length) {i : Nat}
    (hi : i < items.length) :
    ∃ answer, answers[i / size]? = some answer ∧ i % size < answer.length ∧
      answers.flatten[i]? = answer[i % size]? := by
  fun_induction groupsOf size items generalizing answers i with
  | case1 => exact absurd hi (Nat.not_lt_zero i)
  | case2 x xs ih =>
    obtain ⟨answer, rest, rfl⟩ := List.exists_cons_of_ne_nil (l := answers) (by
      rintro rfl
      simp at hlen)
    obtain ⟨hanswer, hrest⟩ := List.cons.inj hlen
    rw [List.length_cons, List.length_take] at hanswer
    rw [List.length_cons] at hi
    -- Full groups take the place of `size` items, and the last group is the only shorter one.
    by_cases hfirst : i < size
    · have hlt : i < answer.length := by omega
      rw [Nat.div_eq_of_lt hfirst, Nat.mod_eq_of_lt hfirst]
      refine ⟨answer, rfl, hlt, ?_⟩
      rw [List.flatten_cons, List.getElem?_append_left hlt]
    · obtain ⟨j, rfl⟩ : ∃ j, i = j + size := ⟨i - size, by omega⟩
      obtain ⟨later, hlater, hlt, heq⟩ := ih hrest (i := j) (by rw [List.length_drop]; omega)
      rw [Nat.add_div_right j hsize, Nat.add_mod_right]
      refine ⟨later, hlater, hlt, ?_⟩
      rw [List.flatten_cons, List.getElem?_append_right (by omega), ← heq]
      congr 1
      omega

end Batches

namespace EmbeddingClient

section Replies

/-- What a call comes to, by the replies to its requests in the order of the texts. -/
inductive Outcome (expected : Nat) (replies : List Reply) :
    Except EmbedError (List Vec) → Prop where
  | crashed (h : .crashed ∈ replies) : Outcome expected replies (.error (.worker crashReason))
  | failed {answers : List (List Vec)} {e : EmbedError} {after : List Reply}
      (hno : .crashed ∉ replies) (h : replies = answers.map .vectors ++ .failed e :: after) :
      Outcome expected replies (.error e)
  | miscounted {answers : List (List Vec)} (h : replies = answers.map .vectors)
      (hcount : answers.flatten.length ≠ expected) :
      Outcome expected replies (.error (.countMismatch expected answers.flatten.length))
  | complete {answers : List (List Vec)} (h : replies = answers.map .vectors)
      (hcount : answers.flatten.length = expected) :
      Outcome expected replies (.ok answers.flatten)

theorem hasCrash_iff (replies : List Reply) : hasCrash replies = true ↔ .crashed ∈ replies := by
  rw [hasCrash, List.any_eq_true]
  constructor
  · rintro ⟨reply, hmem, hcrash⟩
    cases reply with
    | crashed => exact hmem
    | vectors vs => simp at hcrash
    | failed e => simp at hcrash
  · intro hmem
    exact ⟨.crashed, hmem, rfl⟩

theorem collect_cases {replies : List Reply} (hno : .crashed ∉ replies) :
    (∃ answers : List (List Vec), replies = answers.map .vectors ∧
      collect replies = .ok answers.flatten) ∨
    ∃ (answers : List (List Vec)) (e : EmbedError) (after : List Reply),
      replies = answers.map .vectors ++ .failed e :: after ∧ collect replies = .error e := by
  induction replies with
  | nil => exact Or.inl ⟨[], rfl, rfl⟩
  | cons reply rest ih =>
    rw [List.mem_cons, not_or] at hno
    obtain ⟨hne, hrest⟩ := hno
    cases reply with
    | crashed => exact absurd rfl hne
    | failed e => exact Or.inr ⟨[], e, rest, rfl, rfl⟩
    | vectors vs =>
      rcases ih hrest with ⟨answers, rfl, hok⟩ | ⟨answers, e, after, rfl, herror⟩
      · exact Or.inl ⟨vs :: answers, rfl, by simp [collect, hok]⟩
      · exact Or.inr ⟨vs :: answers, e, after, rfl, by simp [collect, herror]⟩

theorem outcome_combine (expected : Nat) (replies : List Reply) :
    Outcome expected replies (combine expected replies) := by
  rw [combine]
  split
  · rename_i hcrash
    exact .crashed ((hasCrash_iff replies).mp hcrash)
  · rename_i hcrash
    have hno : .crashed ∉ replies := fun hmem => hcrash ((hasCrash_iff replies).mpr hmem)
    rcases collect_cases hno with ⟨answers, hall, hok⟩ | ⟨answers, e, after, hall, herror⟩
    · rw [hok]
      simp only
      split
      · rename_i hcount
        exact .complete hall hcount
      · rename_i hcount
        exact .miscounted hall hcount
    · rw [herror]
      exact .failed hno hall

end Replies

section Alignment
variable (c : EmbeddingClient) (texts : List String)

/-- Each vector is the one that the reply to the request of its text has at its place. -/
structure Aligned (replies : List Reply) (vectors : List Vec) : Prop where
  length_eq : vectors.length = texts.length
  place : ∀ i < texts.length, ∃ request answer,
    (c.requests texts)[i / c.batchSize]? = some request ∧
    request[i % c.batchSize]? = texts[i]? ∧
    replies[i / c.batchSize]? = some (.vectors answer) ∧
    i % c.batchSize < answer.length ∧ vectors[i]? = answer[i % c.batchSize]?

theorem flatten_requests : (c.requests texts).flatten = texts :=
  flatten_groupsOf c.batchSize texts

variable {c texts}

theorem aligned_of_complete (hsize : 1 ≤ c.batchSize) {answers : List (List Vec)}
    (hlen : answers.length = (c.requests texts).length)
    (hcount : answers.flatten.length = texts.length)
    (hfew : ∀ (k : Nat) (request : List String) (answer : List Vec),
      (c.requests texts)[k]? = some request → answers[k]? = some answer →
      answer.length ≤ request.length) :
    Aligned c texts (answers.map .vectors) answers.flatten := by
  have hle : List.Forall₂ (fun (answer : List Vec) (request : List String) =>
      answer.length ≤ request.length) answers (c.requests texts) := by
    rw [List.forall₂_iff_get]
    refine ⟨hlen, ?_⟩
    intro k hk hk'
    exact hfew k _ _ (List.getElem?_eq_getElem hk') (List.getElem?_eq_getElem hk)
  have hlengths := map_length_eq_of_forall₂ hle (by rw [hcount, flatten_requests])
  refine ⟨hcount, ?_⟩
  intro i hi
  obtain ⟨answer, hanswer, hlt, hvector⟩ := getElem?_flatten_of_groups hsize hlengths hi
  have hgroups :
      (c.requests texts).map List.length = (groupsOf c.batchSize texts).map List.length := rfl
  obtain ⟨request, hrequest, _, htext⟩ := getElem?_flatten_of_groups hsize hgroups hi
  rw [flatten_requests] at htext
  refine ⟨request, answer, hrequest, htext.symm, ?_, hlt, hvector⟩
  rw [List.getElem?_map, hanswer]
  rfl

end Alignment

end EmbeddingClient

namespace Call
variable {w : Waiting} {call : Call} {replies : List Reply} {events : List Event}

/-- What has come in are the replies, and a result is the one that they give together. -/
structure OnCourse (replies : List Reply) (call : Call) : Prop where
  length_eq : call.inbox.length = replies.length
  own : ∀ (k : Nat) (reply : Reply), call.inbox[k]? = some (some reply) →
    replies[k]? = some reply
  result : ∀ result, call.result = some result →
    result = EmbeddingClient.combine call.expected replies

/-- Every event that ends a request brings its reply. -/
def Brings (replies : List Reply) (events : List Event) : Prop :=
  ∀ k reply, .ended k reply ∈ events → replies[k]? = some reply

theorem OnCourse.replies_of_inbox (h : call.OnCourse replies) {seen : List Reply}
    (hinbox : call.inbox = seen.map some) : seen = replies := by
  have hlen : seen.length = replies.length := by
    rw [← h.length_eq, hinbox, List.length_map]
  apply List.ext_getElem hlen
  intro k hk hk'
  have hcame : call.inbox[k]? = some (some seen[k]) := by
    rw [hinbox, List.getElem?_map, List.getElem?_eq_getElem hk]
    rfl
  have hown := h.own k seen[k] hcame
  rw [List.getElem?_eq_getElem hk'] at hown
  exact (Option.some.inj hown).symm

theorem OnCourse.look (h : call.OnCourse replies) (w : Waiting) :
    (call.look w).OnCourse replies := by
  unfold Call.look
  split
  · exact h
  · rename_i hsight
    obtain ⟨k, hk⟩ := List.mem_iff_getElem?.mp (w.crash_of_crashed hsight)
    have hcrash : .crashed ∈ replies := List.mem_of_getElem? (h.own k _ hk)
    refine ⟨h.length_eq, h.own, ?_⟩
    intro result hresult
    rw [EmbeddingClient.combine, if_pos ((EmbeddingClient.hasCrash_iff replies).mpr hcrash)]
    exact (Option.some.inj hresult).symm
  · rename_i seen hsight
    obtain ⟨hinbox, _⟩ := w.replies_of_complete hsight
    refine ⟨h.length_eq, h.own, ?_⟩
    intro result hresult
    rw [← h.replies_of_inbox hinbox]
    exact (Option.some.inj hresult).symm

theorem OnCourse.step (h : call.OnCourse replies) {event : Event}
    (hbrings : Brings replies [event]) : (call.step w event).OnCourse replies := by
  cases event with
  | ended k reply =>
    have hown := hbrings k reply List.mem_cons_self
    refine ⟨by simpa [Call.step] using h.length_eq, ?_, h.result⟩
    intro k' reply' hk'
    simp only [Call.step, List.getElem?_set] at hk'
    split at hk'
    · rename_i heq
      subst heq
      split at hk'
      · obtain rfl := Option.some.inj (Option.some.inj hk')
        exact hown
      · simp at hk'
    · exact h.own k' reply' hk'
  | looked =>
    simp only [Call.step]
    split
    · exact h
    · exact h.look w

/-- What each event keeps, all of them keep together. -/
theorem run_induct {P : Call → Prop} (h : P call)
    (hstep : ∀ call, P call → ∀ event ∈ events, P (call.step w event)) : P (call.run w events) :=
  List.foldlRecOn events (Call.step w) h hstep

theorem OnCourse.run (h : call.OnCourse replies) (hbrings : Brings replies events) :
    (call.run w events).OnCourse replies := by
  apply run_induct h
  intro call h event hmem
  apply h.step
  intro k reply hended
  rw [List.mem_singleton] at hended
  subst hended
  exact hbrings k reply hmem

theorem onCourse_start (c : EmbeddingClient) (texts : List String)
    (hlen : replies.length = (c.requests texts).length) : (start c texts).OnCourse replies := by
  refine ⟨by simp [start, hlen], ?_, ?_⟩
  · intro k reply hk
    simp [start, List.getElem?_replicate] at hk
  · intro result hresult
    cases texts with
    | cons text texts => simp [start] at hresult
    | nil =>
      have hnone : replies = [] := by simpa [EmbeddingClient.requests, groupsOf] using hlen
      subst hnone
      exact (Option.some.inj hresult).symm

/-- A look can only change what the caller knows. -/
theorem exists_step_looked (w : Waiting) (call : Call) :
    ∃ result, call.step w .looked = { call with result } := by
  simp only [Call.step]
  split
  · exact ⟨call.result, rfl⟩
  · unfold Call.look
    split
    · exact ⟨call.result, rfl⟩
    · exact ⟨_, rfl⟩
    · exact ⟨_, rfl⟩

theorem run_append (w : Waiting) (call : Call) (before after : List Event) :
    call.run w (before ++ after) = (call.run w before).run w after :=
  List.foldl_append

@[simp] theorem expected_step (w : Waiting) (call : Call) (event : Event) :
    (call.step w event).expected = call.expected := by
  cases event with
  | ended k reply => rfl
  | looked =>
    obtain ⟨result, heq⟩ := exists_step_looked w call
    rw [heq]

theorem expected_run (w : Waiting) (call : Call) (events : List Event) :
    (call.run w events).expected = call.expected := by
  apply run_induct (P := fun later => later.expected = call.expected) rfl
  intro later h event _
  rw [expected_step, h]

section Arrival
variable {k : Nat}

/-- A request whose worker has come to its end. -/
def Answered (call : Call) (k : Nat) : Prop := ∃ reply, call.inbox[k]? = some (some reply)

theorem Answered.step (h : call.Answered k) (event : Event) : (call.step w event).Answered k := by
  obtain ⟨reply, hk⟩ := h
  cases event with
  | ended k' reply' =>
    by_cases heq : k' = k
    · subst heq
      have hlt := (List.getElem?_eq_some_iff.mp hk).1
      exact ⟨reply', List.getElem?_set_self hlt⟩
    · exact ⟨reply, by simpa [Call.step, List.getElem?_set_ne heq] using hk⟩
  | looked =>
    obtain ⟨result, heq⟩ := exists_step_looked w call
    rw [heq]
    exact ⟨reply, hk⟩

theorem Answered.run (h : call.Answered k) (events : List Event) :
    (call.run w events).Answered k :=
  run_induct (P := fun later => later.Answered k) h fun _ h event _ => h.step event

@[simp] theorem length_inbox_step (w : Waiting) (call : Call) (event : Event) :
    (call.step w event).inbox.length = call.inbox.length := by
  cases event with
  | ended k reply => exact List.length_set
  | looked =>
    obtain ⟨result, heq⟩ := exists_step_looked w call
    rw [heq]

theorem answered_run (hk : k < call.inbox.length) {reply : Reply}
    (hended : .ended k reply ∈ events) : (call.run w events).Answered k := by
  induction events generalizing call with
  | nil => exact absurd hended List.not_mem_nil
  | cons event events ih =>
    rcases List.mem_cons.mp hended with rfl | hlater
    · have hnow : (call.step w (.ended k reply)).Answered k := ⟨reply, List.getElem?_set_self hk⟩
      exact hnow.run events
    · exact ih (by rwa [length_inbox_step]) hlater

theorem known_look (hall : ∀ k < call.inbox.length, call.Answered k) (w : Waiting) :
    ∃ result, (call.look w).result = some result := by
  unfold Call.look
  split
  · rename_i hsight
    obtain ⟨k, hk⟩ := List.mem_iff_getElem?.mp (w.out_of_waiting hsight)
    obtain ⟨reply, hreply⟩ := hall k (List.getElem?_eq_some_iff.mp hk).1
    rw [hk] at hreply
    simp at hreply
  · exact ⟨_, rfl⟩
  · exact ⟨_, rfl⟩

theorem result_run_of_known {result : Except EmbedError (List Vec)}
    (h : call.result = some result) (events : List Event) :
    (call.run w events).result = some result := by
  apply run_induct (P := fun later => later.result = some result) h
  intro later h event _
  cases event with
  | ended k reply => exact h
  | looked => simp [Call.step, h]

end Arrival

/-- The workers bring the replies, and once all have come to their ends the caller looks. -/
structure Course (replies : List Reply) (events : List Event) : Prop where
  brings : Brings replies events
  last_look : ∃ before after, events = before ++ .looked :: after ∧
    ∀ k reply, replies[k]? = some reply → .ended k reply ∈ before

theorem known_of_course (h : call.OnCourse replies) (hcourse : Course replies events) :
    ∃ result, (call.run w events).result = some result := by
  obtain ⟨before, after, rfl, hended⟩ := hcourse.last_look
  have hall : ∀ k < (call.run w before).inbox.length, (call.run w before).Answered k := by
    have hbefore : (call.run w before).OnCourse replies := by
      apply h.run
      intro k reply hmem
      exact hcourse.brings k reply (List.mem_append_left _ hmem)
    intro k hk
    rw [hbefore.length_eq] at hk
    refine answered_run ?_ (hended k replies[k] (List.getElem?_eq_getElem hk))
    rwa [h.length_eq]
  -- With every request answered, a look cannot leave the caller waiting.
  have hlook : ∃ result, ((call.run w before).step w .looked).result = some result := by
    simp only [Call.step]
    split
    · rename_i hknown
      exact Option.isSome_iff_exists.mp hknown
    · exact known_look hall w
  obtain ⟨result, hresult⟩ := hlook
  refine ⟨result, ?_⟩
  rw [run_append]
  exact result_run_of_known hresult after

open EmbeddingClient in
/-- However the workers come to their ends, the call ends with the result that the replies in the
order of the texts give; it is the one of asking for one request after the other. Vectors that it
ends with stand with their texts. -/
theorem result_in_any_order (w : Waiting) (c : EmbeddingClient) (hsize : 1 ≤ c.batchSize)
    (texts : List String) (replies : List Reply) (events : List Event)
    (hlen : replies.length = (c.requests texts).length) (hcourse : Course replies events) :
    ∃ result, ((start c texts).run w events).result = some result ∧
      Outcome texts.length replies result ∧
      (replies = (c.requests texts).map c.provider.answer → c.embedTexts texts = result) ∧
      ∀ vectors, result = .ok vectors →
        (∀ (k : Nat) (request : List String) (answer : List Vec),
          (c.requests texts)[k]? = some request → replies[k]? = some (.vectors answer) →
          answer.length ≤ request.length) →
        Aligned c texts replies vectors := by
  have hstart := onCourse_start c texts hlen
  obtain ⟨result, hresult⟩ := known_of_course (w := w) hstart hcourse
  have hcombine : result = combine texts.length replies := by
    have hrun := (hstart.run (w := w) hcourse.brings).result result hresult
    rwa [expected_run] at hrun
  have houtcome : Outcome texts.length replies result := by
    rw [hcombine]
    exact outcome_combine texts.length replies
  refine ⟨result, hresult, houtcome, ?_, ?_⟩
  · intro hreplies
    rw [hcombine, hreplies, embedTexts]
    split
    · rename_i hempty
      -- Nothing is asked for without texts, and no replies give no vectors.
      rw [List.isEmpty_iff.mp hempty]
      simp [requests, groupsOf, combine, collect, hasCrash]
    · rfl
  · rintro vectors rfl hfew
    cases houtcome with
    | complete hall hcount =>
      subst hall
      refine aligned_of_complete hsize (by simpa using hlen) hcount ?_
      intro k request answer hrequest hanswer
      apply hfew k request answer hrequest
      rw [List.getElem?_map, hanswer]
      rfl

/-- A vector for each text, as long as the text; two texts to a request. -/
def lengthClient : EmbeddingClient where
  provider := ⟨1, fun texts => .vectors (texts.map fun text => List.replicate text.length 0)⟩
  batchSize := 2

def lengthReplies : List Reply := [.vectors [[0], [0, 0]], .vectors [[0, 0, 0]]]

/-- The worker of the last text is the first to come to its end. -/
def lastFirst : List Event :=
  [.ended 1 (.vectors [[0, 0, 0]]), .looked, .ended 0 (.vectors [[0], [0, 0]]), .looked]

theorem requests_lengthClient :
    lengthClient.requests ["a", "bb", "ccc"] = [["a", "bb"], ["ccc"]] := by
  simp [lengthClient, EmbeddingClient.requests, groupsOf]

theorem course_lastFirst : Course lengthReplies lastFirst := by
  constructor
  · intro k reply hmem
    rcases (by simpa [lastFirst] using hmem) with ⟨rfl, rfl⟩ | ⟨rfl, rfl⟩ <;> rfl
  · refine ⟨[_, _, _], [], rfl, ?_⟩
    intro k reply hk
    rcases k with _ | _ | k
    · obtain rfl := Option.some.inj hk
      simp
    · obtain rfl := Option.some.inj hk
      simp
    · simp [lengthReplies] at hk

/-- The vectors stand with their texts though the last came first. -/
theorem result_with_last_first :
    1 ≤ lengthClient.batchSize ∧
      lengthReplies.length = (lengthClient.requests ["a", "bb", "ccc"]).length ∧
      Course lengthReplies lastFirst ∧
      ((start lengthClient ["a", "bb", "ccc"]).run .usual lastFirst).result =
        some (.ok [[0], [0, 0], [0, 0, 0]]) ∧
      lengthClient.embedTexts ["a", "bb", "ccc"] = .ok [[0], [0, 0], [0, 0, 0]] ∧
      EmbeddingClient.Aligned lengthClient ["a", "bb", "ccc"] lengthReplies
        [[0], [0, 0], [0, 0, 0]] := by
  have hlen : lengthReplies.length = (lengthClient.requests ["a", "bb", "ccc"]).length := by
    rw [requests_lengthClient]
    rfl
  obtain ⟨result, hresult, _, hembed, haligned⟩ := result_in_any_order .usual lengthClient
    (by decide) ["a", "bb", "ccc"] lengthReplies lastFirst hlen course_lastFirst
  have hok : result = .ok [[0], [0, 0], [0, 0, 0]] := by
    simpa [lastFirst, start, run, Call.step, Call.look, Waiting.usual, Waiting.scan,
      requests_lengthClient, EmbeddingClient.combine, EmbeddingClient.collect,
      EmbeddingClient.hasCrash, eq_comm] using hresult
  subst hok
  have hreplies : lengthReplies =
      (lengthClient.requests ["a", "bb", "ccc"]).map lengthClient.provider.answer := by
    rw [requests_lengthClient]
    rfl
  refine ⟨by decide, hlen, course_lastFirst, hresult, hembed hreplies, haligned _ rfl ?_⟩
  rw [requests_lengthClient]
  intro k request answer hrequest hanswer
  rcases k with _ | _ | k
  · cases hrequest
    cases hanswer
    decide
  · cases hrequest
    cases hanswer
    decide
  · simp at hrequest

end Call

end CodeSearch
