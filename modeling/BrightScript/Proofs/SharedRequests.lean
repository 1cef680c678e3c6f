import BrightScript.Debug.Suspension

/-!
# Requests on a shared flag

Hosts raise the flag of a run from any number of threads, and the run polls it. Every operation on
the flag is atomic, so what happens to a flag is one sequence of operations. A poll answers with the
latest request since the poll before it, and with nothing of its own to report it answers as if
nobody had asked; so no request is reported twice. The latest request is also the only one that is
reported: a request to end the run is lost when a request to pause comes after it.
-/

namespace BrightScript

/-- What a poll answers to a request. -/
def Request.command : Request → Command
  | .pause => .pause
  | .exit => .exit

namespace Suspension

/-- An operation on a flag: a request of a host, or a question of the run. -/
inductive Operation where
  | request (r : Request)
  | poll (debugMode : Bool)
  deriving DecidableEq, Repr

/-- What an operation can contribute to the answers: a request what it asks for, a poll what it
answers when nobody has asked. -/
def Operation.command : Operation → Command
  | request r => r.command
  | poll debugMode => unasked debugMode

def after (s : Suspension) : List Operation → Suspension
  | [] => s
  | .request r :: rest => (s.raise r).after rest
  | .poll debugMode :: rest => (s.poll debugMode).2.after rest

/-- The answers to the polls in a sequence of operations. -/
def replies (s : Suspension) : List Operation → List Command
  | [] => []
  | .request r :: rest => (s.raise r).replies rest
  | .poll debugMode :: rest => (s.poll debugMode).1 :: (s.poll debugMode).2.replies rest

/-- The answer of a poll to the latest request, if there is one. -/
def answerTo (request? : Option Request) (debugMode : Bool) : Command :=
  (request?.map Request.command).getD (unasked debugMode)

theorem answerTo_eq_exit_iff {request? : Option Request} {debugMode : Bool} :
    answerTo request? debugMode = .exit ↔ request? = some .exit := by
  rcases request? with _ | _ | _ <;> cases debugMode <;> decide

theorem poll_flag (pending : Option Request) (debugMode : Bool) :
    (flag pending).poll debugMode = (answerTo pending debugMode, idle) := by
  rcases pending with _ | _ | _ <;> rfl

/-! ## Sequences -/

theorem after_append (s : Suspension) (before rest : List Operation) :
    s.after (before ++ rest) = (s.after before).after rest := by
  induction before generalizing s with
  | nil => rfl
  | cons op before ih => cases op <;> exact ih _

theorem replies_append (s : Suspension) (before rest : List Operation) :
    s.replies (before ++ rest) = s.replies before ++ (s.after before).replies rest := by
  induction before generalizing s with
  | nil => rfl
  | cons op before ih =>
    cases op with
    | request r => exact ih _
    | poll debugMode => exact congrArg ((s.poll debugMode).1 :: ·) (ih _)

/-- Of several requests in a row the flag keeps the latest. -/
theorem after_requests (pending : Option Request) (requests : List Request) :
    (flag pending).after (requests.map .request) = flag (requests.getLast?.or pending) := by
  induction requests generalizing pending with
  | nil => rfl
  | cons r rest ih =>
    show (flag (some r)).after (rest.map .request) = _
    rw [ih, List.getLast?_cons]
    cases rest.getLast? <;> rfl

theorem replies_requests (s : Suspension) (requests : List Request) :
    s.replies (requests.map .request) = [] := by
  induction requests generalizing s with
  | nil => rfl
  | cons r rest ih => exact ih _

theorem exists_after_flag (pending : Option Request) (operations : List Operation) :
    ∃ pending', (flag pending).after operations = flag pending' := by
  induction operations generalizing pending with
  | nil => exact ⟨pending, rfl⟩
  | cons op rest ih =>
    cases op with
    | request r => exact ih (some r)
    | poll debugMode =>
      show ∃ pending', ((flag pending).poll debugMode).2.after rest = flag pending'
      rw [poll_flag]
      exact ih none

/-- Behind a poll, as in the beginning, nothing is pending. -/
theorem after_of_settled {before : List Operation}
    (h : ∀ r, before.getLast? ≠ some (.request r)) : idle.after before = idle := by
  rcases List.eq_nil_or_concat before with rfl | ⟨earlier, op, rfl⟩
  · rfl
  · cases op with
    | request r => exact absurd (by simp) (h r)
    | poll debugMode =>
      obtain ⟨pending, hpending⟩ := exists_after_flag none earlier
      have hearlier : idle.after earlier = flag pending := hpending
      rw [List.concat_eq_append, after_append, hearlier]
      show ((flag pending).poll debugMode).2 = idle
      rw [poll_flag]

theorem replies_polls (polls : List Bool) : idle.replies (polls.map .poll) = polls.map unasked := by
  induction polls with
  | nil => rfl
  | cons debugMode rest ih => exact congrArg (unasked debugMode :: ·) ih

/-- A poll answers to the latest request since the poll before it, and the polls that follow it
answer unasked. -/
theorem replies_of_settled {before : List Operation}
    (h : ∀ r, before.getLast? ≠ some (.request r)) (requests : List Request) (debugMode : Bool)
    (polls : List Bool) :
    idle.replies (before ++ requests.map .request ++ (debugMode :: polls).map .poll) =
      idle.replies before ++ answerTo requests.getLast? debugMode :: polls.map unasked := by
  have hflag : idle.after (requests.map .request) = flag requests.getLast? := by
    rw [idle, after_requests, Option.or_none]
  have hpolls : (flag requests.getLast?).replies ((debugMode :: polls).map .poll) =
      answerTo requests.getLast? debugMode :: polls.map unasked := by
    rw [List.map_cons, replies, poll_flag, replies_polls]
  rw [replies_append, replies_append, after_append, after_of_settled h, replies_requests, hflag,
    hpolls, List.append_nil]

/-- The answers are, in their order, requests and answers that polls give unasked, none of them used
twice. -/
theorem replies_sublist (operations : List Operation) :
    (idle.replies operations).Sublist (operations.map Operation.command) := by
  -- a pending request stands in front of the operations that are left
  suffices h : ∀ pending : Option Request, ((flag pending).replies operations).Sublist
      ((pending.map Request.command).toList ++ operations.map Operation.command) from h none
  induction operations with
  | nil => exact fun _ => List.nil_sublist _
  | cons op rest ih =>
    intro pending
    cases op with
    | request r => exact (ih (some r)).trans (List.sublist_append_right _ _)
    | poll debugMode =>
      rw [replies, poll_flag]
      cases pending with
      | none => exact (ih none).cons_cons _
      | some r => exact ((ih none).trans (List.sublist_cons_self _ _)).cons_cons _

end Suspension

open Suspension

/-- For every sequence of requests and polls on a flag that nobody has raised yet. Let some polls
come after some requests, and these directly after another poll or in the beginning. The first of
the polls answers to the latest of the requests, or unasked if there are none, and the others answer
unasked. So the first one answers to end the run exactly if the latest request asks for that; a
request to end the run with a request to pause behind it is never answered. No request is reported
twice. -/
theorem requests_reported (before operations : List Operation) (requests : List Request)
    (debugMode : Bool) (polls : List Bool) (hbefore : ∀ r, before.getLast? ≠ some (.request r)) :
    idle.replies (before ++ requests.map .request ++ (debugMode :: polls).map .poll) =
      idle.replies before ++ answerTo requests.getLast? debugMode :: polls.map unasked ∧
    (answerTo requests.getLast? debugMode = .exit ↔ requests.getLast? = some .exit) ∧
    (idle.replies operations).Sublist (operations.map Operation.command) :=
  ⟨replies_of_settled hbefore requests debugMode polls, answerTo_eq_exit_iff,
    replies_sublist operations⟩

/-- A run that is being debugged, asked to pause and then to end. -/
theorem requests_reported_of_exit_last :
    idle.replies [.poll true, .request .pause, .request .exit, .poll true, .poll false] =
      [.pause, .exit, .proceed] :=
  (requests_reported [.poll true] [] [.pause, .exit] true [false]
    (fun _ h => by cases h)).1

/-- A request to pause takes the place of a request to end the run. -/
theorem exit_request_lost :
    idle.replies [.request .exit, .request .pause, .poll false, .poll false] = [.pause, .proceed] :=
  rfl

end BrightScript
