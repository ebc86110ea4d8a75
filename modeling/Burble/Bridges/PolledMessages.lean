import Burble.Bridges.AiBridge

namespace Burble.Bridges.Ai

/-- A `GET /recv` that passes the gate. -/
def Config.letsPoll (config : Config) (request : Request) : Bool :=
  (config.httpGate request).isNone && request.method = "GET" && request.pathname = "/recv"

namespace Served
variable (config : Config)

/-- The payload a frame brought to the queue. -/
def arrived (served : Served) : List (Option Json) :=
  match served.event with
  | .message _ text =>
    match config.incoming text with
    | .received payload => [payload]
    | _ => []
  | _ => []

def polls (served : Served) : Bool :=
  match served.event with
  | .http request _ _ => config.letsPoll request
  | _ => false

end Served

/-- The payloads that arrived before each poll since the one before it, and those that came after the last. -/
def batches (config : Config) (served : List Served) : List (List (Option Json)) × List (Option Json) :=
  served.foldl (fun (polled, rest) one =>
    if one.polls config then (polled ++ [rest], []) else (polled, rest ++ one.arrived config)) ([], [])

section Batches
variable {config : Config}

theorem batches_snoc (served : List Served) (one : Served) :
    batches config (served ++ [one]) =
      if one.polls config then ((batches config served).1 ++ [(batches config served).2], [])
      else ((batches config served).1, (batches config served).2 ++ one.arrived config) := by
  rw [batches, List.foldl_append]
  rfl

theorem arrived_of_polls {one : Served} (polls : one.polls config = true) : one.arrived config = [] := by
  obtain ⟨event, reply⟩ := one
  cases event <;> first | rfl | cases polls

theorem batches_flatten (served : List Served) :
    (batches config served).1.flatten ++ (batches config served).2 = served.flatMap (Served.arrived config) := by
  induction served using List.reverseRecOn with
  | nil => rfl
  | append_singleton served one ih =>
    rw [batches_snoc, List.flatMap_append, ← ih, List.flatMap_singleton]
    split
    next polls =>
      rw [arrived_of_polls polls, List.append_nil, List.append_nil, List.flatten_append, List.flatten_singleton]
    next => rw [List.append_assoc]

end Batches

section Queue
variable {config : Config} {s after : Bridge} {one : Served}

theorem enqueue_recent {rest : List (Option Json)} (kept : s.messageQueue = recent maxMessageQueueSize rest)
    (payload : Option Json) : (s.enqueue payload).messageQueue = recent maxMessageQueueSize (rest ++ [payload]) := by
  rw [recent_snoc (by decide), ← kept, Bridge.enqueue]
  split <;> rfl

/-- Only a poll that is let in takes anything from the queue. -/
theorem http_queue (config : Config) (s : Bridge) (request : Request) (body sendError : Option String) :
    if config.letsPoll request then
      s.http config request body sendError = (.of (messagesResponse s.messageQueue), { s with messageQueue := [] })
    else (s.http config request body sendError).2 = s := by
  rw [Config.letsPoll, Bridge.http]
  cases gate : config.httpGate request with
  | some response => rfl
  | none =>
    by_cases recv : request.method = "GET" ∧ request.pathname = "/recv"
    · rw [if_pos (by simp [recv]), if_neg (by simp [recv]), if_neg (by simp [recv]), if_pos recv]
    · rw [if_neg (by simpa using recv), if_neg recv]
      split_ifs <;> rfl

theorem serves_queue {rest : List (Option Json)} (kept : s.messageQueue = recent maxMessageQueueSize rest)
    (taken : Serves config s one after) :
    if one.polls config then one.reply = .of (messagesResponse s.messageQueue) ∧ after.messageQueue = []
    else after.messageQueue = recent maxMessageQueueSize (rest ++ one.arrived config) := by
  cases taken.happens with
  | http request body sendError =>
    have queue := http_queue config s request body sendError
    simp only [Served.polls, Served.arrived, List.append_nil]
    split at queue
    next polls =>
      rw [queue, if_pos polls]
      exact ⟨rfl, rfl⟩
    next stays =>
      rw [queue, if_neg stays]
      exact kept
  | @message id socket text found live =>
    simp only [Served.polls, Served.arrived, Bridge.onmessage, Bool.false_eq_true, if_false]
    cases config.incoming text with
    | pong => simpa only [List.append_nil, Bridge.setSocket_messageQueue] using kept
    | received payload => exact enqueue_recent kept payload
    | ignored => simpa only [List.append_nil] using kept
  | _ =>
    simp only [Served.polls, Served.arrived, Bool.false_eq_true, if_false, List.append_nil]
    exact kept

end Queue

end Burble.Bridges.Ai
