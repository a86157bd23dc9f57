import CodeSearch.Embedding.Batching

/-!
A call while its requests are out. Each request has a worker, and the workers come to their ends in
any order. The caller looks at what they have brought, as often as it likes, until it knows the
result.
-/

set_option autoImplicit false

namespace CodeSearch

/-- What the caller finds when it looks at its requests. -/
inductive Sight where
  | waiting
  /-- A worker has died. -/
  | crashed
  /-- All requests are answered; their replies stand in the order of the requests. -/
  | complete (replies : List Reply)

/-- A way to wait for requests, each of them answered or still out. It may give up at a crash while
other requests are out, or not before those in front are answered. -/
structure Waiting where
  look : List (Option Reply) → Sight
  crash_of_crashed : ∀ {inbox}, look inbox = .crashed → some .crashed ∈ inbox
  replies_of_complete : ∀ {inbox replies}, look inbox = .complete replies →
    inbox = replies.map some ∧ .crashed ∉ replies
  out_of_waiting : ∀ {inbox}, look inbox = .waiting → none ∈ inbox

namespace Waiting

/-- Looks at the requests in order, up to a crash. One that `stops` looks no further than the first
request that is out. -/
def scan (stops : Bool) : List (Option Reply) → Sight
  | [] => .complete []
  | some .crashed :: _ => .crashed
  | some reply :: rest =>
    match scan stops rest with
    | .complete replies => .complete (reply :: replies)
    | sight => sight
  | none :: rest =>
    match scan stops rest with
    | .crashed => if stops then .waiting else .crashed
    | _ => .waiting

theorem scan_cases (stops : Bool) (inbox : List (Option Reply)) :
    (scan stops inbox = .crashed ∧ some .crashed ∈ inbox) ∨
      (∃ replies, scan stops inbox = .complete replies ∧ inbox = replies.map some ∧
        .crashed ∉ replies) ∨
      (scan stops inbox = .waiting ∧ none ∈ inbox) := by
  induction inbox with
  | nil => exact Or.inr (Or.inl ⟨[], rfl, rfl, List.not_mem_nil⟩)
  | cons entry rest ih =>
    match entry with
    | none =>
      rcases ih with ⟨hrest, hmem⟩ | ⟨replies, hrest, _⟩ | ⟨hrest, _⟩
      · cases stops with
        | false => exact Or.inl ⟨by simp [scan, hrest], List.mem_cons_of_mem _ hmem⟩
        | true => exact Or.inr (Or.inr ⟨by simp [scan, hrest], List.mem_cons_self⟩)
      · exact Or.inr (Or.inr ⟨by simp [scan, hrest], List.mem_cons_self⟩)
      · exact Or.inr (Or.inr ⟨by simp [scan, hrest], List.mem_cons_self⟩)
    | some .crashed => exact Or.inl ⟨rfl, List.mem_cons_self⟩
    | some (.vectors _) | some (.failed _) =>
      rcases ih with ⟨hrest, hmem⟩ | ⟨replies, hrest, rfl, hno⟩ | ⟨hrest, hmem⟩
      · exact Or.inl ⟨by simp [scan, hrest], List.mem_cons_of_mem _ hmem⟩
      · exact Or.inr (Or.inl ⟨_, by simp only [scan, hrest]; rfl, rfl, by simpa using hno⟩)
      · exact Or.inr (Or.inr ⟨by simp [scan, hrest], List.mem_cons_of_mem _ hmem⟩)

/-- Few requests are waited for all at once and many in their order. -/
def usual : Waiting where
  look inbox := scan (30 < inbox.length) inbox
  crash_of_crashed {inbox} h := by
    rcases scan_cases (30 < inbox.length) inbox with ⟨_, hmem⟩ | ⟨_, hscan, _⟩ | ⟨hscan, _⟩
    · exact hmem
    · simp [h] at hscan
    · simp [h] at hscan
  replies_of_complete {inbox replies} h := by
    rcases scan_cases (30 < inbox.length) inbox with ⟨hscan, _⟩ | ⟨_, hscan, hall⟩ | ⟨hscan, _⟩
    · simp [h] at hscan
    · rw [h] at hscan
      cases hscan
      exact hall
    · simp [h] at hscan
  out_of_waiting {inbox} h := by
    rcases scan_cases (30 < inbox.length) inbox with ⟨hscan, _⟩ | ⟨_, hscan, _⟩ | ⟨_, hmem⟩
    · simp [h] at hscan
    · simp [h] at hscan
    · exact hmem

end Waiting

structure Call where
  /-- The number of texts. -/
  expected : Nat
  /-- What has become of each request; none as long as it is out. -/
  inbox : List (Option Reply)
  result : Option (Except EmbedError (List Vec)) := none

namespace Call

inductive Event where
  /-- The worker of a request comes to its end. -/
  | ended (request : Nat) (reply : Reply)
  | looked

/-- All requests are sent at once. Without texts there is nothing to ask for. -/
def start (c : EmbeddingClient) (texts : List String) : Call where
  expected := texts.length
  inbox := (c.requests texts).map fun _ => none
  result := if texts.isEmpty then some (.ok []) else none

def look (w : Waiting) (call : Call) : Call :=
  match w.look call.inbox with
  | .waiting => call
  | .crashed => { call with result := some (.error (.worker EmbeddingClient.crashReason)) }
  | .complete replies =>
    { call with result := some (EmbeddingClient.combine call.expected replies) }

/-- A caller that knows the result does not look again. -/
def step (w : Waiting) (call : Call) : Event → Call
  | .ended request reply => { call with inbox := call.inbox.set request (some reply) }
  | .looked => if call.result.isSome then call else call.look w

def run (w : Waiting) (call : Call) (events : List Event) : Call := events.foldl (step w) call

end Call

end CodeSearch
