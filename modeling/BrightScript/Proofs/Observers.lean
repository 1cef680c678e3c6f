import Mathlib.Data.List.Basic
import Mathlib.Data.List.Induction
import BrightScript.ErrorLog

/-!
# Who is told about errors

Observers come and go while errors are recorded. Which observers an error reaches is a matter of the
history alone: an observer listens from its subscription on until it is removed or, if it subscribed
for one error, until an error is recorded (`ErrorLog.Listening`). The log keeps exactly the
listening observers, in the order of their subscription and under numbers of their own, so the next
error reaches each of them once (`ErrorLog.observers_told`).
-/

namespace BrightScript.ErrorLog

/-- What happens to a log. -/
inductive Operation where
  | subscribe (once : Bool)
  | unsubscribe (id : Nat)
  | record (e : ScriptError)

def Operation.error? : Operation → Option ScriptError
  | record e => some e
  | _ => none

def Operation.Ends : Operation → Observer → Prop
  | subscribe _, _ => False
  | unsubscribe id, o => o.id = id
  | record _, o => o.once = true

def step (log : ErrorLog) : Operation → ErrorLog
  | .subscribe once => (log.subscribe once).2
  | .unsubscribe id => (log.unsubscribe id).2
  | .record e => log.record e

def after (log : ErrorLog) (history : List Operation) : ErrorLog :=
  history.foldl step log

/-- The numbers that the subscriptions of a sequence of operations are given. -/
def issued (log : ErrorLog) : List Operation → List Nat
  | [] => []
  | .subscribe once :: rest => (log.subscribe once).1 :: (log.step (.subscribe once)).issued rest
  | op :: rest => (log.step op).issued rest

/-- After a history an observer is listening: it has subscribed, and nothing since then has made it
stop. -/
def Listening (history : List Operation) (o : Observer) : Prop :=
  ∃ before rest, history = before ++ .subscribe o.once :: rest ∧
    ((empty.after before).subscribe o.once).1 = o.id ∧ ∀ op ∈ rest, ¬ op.Ends o

theorem after_append (log : ErrorLog) (before rest : List Operation) :
    log.after (before ++ rest) = (log.after before).after rest :=
  List.foldl_append

/-! ## Numbers -/

theorem nextId_le_step (log : ErrorLog) (op : Operation) : log.nextId ≤ (log.step op).nextId := by
  cases op with
  | subscribe once => exact Nat.le_succ _
  | unsubscribe | record => exact Nat.le_refl _

theorem nextId_le_of_mem_issued {log : ErrorLog} {history : List Operation} {id : Nat}
    (h : id ∈ log.issued history) : log.nextId ≤ id := by
  induction history generalizing log with
  | nil => cases h
  | cons op rest ih =>
    have hle := log.nextId_le_step op
    cases op with
    | subscribe once =>
      rcases List.mem_cons.1 h with rfl | h
      · exact Nat.le_refl _
      · exact Nat.le_trans hle (ih h)
    | unsubscribe | record => exact Nat.le_trans hle (ih h)

theorem issued_nodup (log : ErrorLog) (history : List Operation) : (log.issued history).Nodup := by
  induction history generalizing log with
  | nil => exact List.nodup_nil
  | cons op rest ih =>
    cases op with
    | subscribe once =>
      refine List.nodup_cons.2 ⟨fun h => ?_, ih _⟩
      exact Nat.not_succ_le_self _ (nextId_le_of_mem_issued h)
    | unsubscribe _ => exact ih _
    | record e => exact ih _

/-- The observers that a log keeps are in the order of their subscription. -/
theorem observers_sublist (log : ErrorLog) (history : List Operation) :
    ((log.after history).observers.map Observer.id).Sublist
      (log.observers.map Observer.id ++ log.issued history) := by
  induction history generalizing log with
  | nil => exact List.sublist_append_left ..
  | cons op rest ih =>
    refine (ih (log.step op)).trans ?_
    cases op with
    | subscribe once =>
      show (List.map Observer.id (log.observers ++ [_]) ++ _).Sublist _
      rw [List.map_append, List.append_assoc]
      exact List.Sublist.refl _
    | unsubscribe | record => exact (List.filter_sublist.map _).append_right _

/-! ## Listening observers -/

theorem mem_observers_step {log : ErrorLog} {op : Operation} {o : Observer} :
    o ∈ (log.step op).observers ↔
      (op = .subscribe o.once ∧ log.nextId = o.id) ∨ (o ∈ log.observers ∧ ¬ op.Ends o) := by
  cases op with
  | subscribe once =>
    obtain ⟨id, once'⟩ := o
    grind [step, ErrorLog.subscribe, Operation.Ends]
  | unsubscribe id => simp [step, ErrorLog.unsubscribe, Operation.Ends]
  | record e => simp [step, ErrorLog.record, Operation.Ends]

theorem listening_concat {history : List Operation} {op : Operation} {o : Observer} :
    Listening (history ++ [op]) o ↔
      (op = .subscribe o.once ∧ (empty.after history).nextId = o.id) ∨
        (Listening history o ∧ ¬ op.Ends o) := by
  constructor
  · rintro ⟨before, rest, hsplit, hid, hrest⟩
    rcases List.eq_nil_or_concat rest with rfl | ⟨rest, last, rfl⟩
    · obtain ⟨rfl, hop⟩ := List.append_inj' hsplit rfl
      cases hop
      exact .inl ⟨rfl, hid⟩
    · have hsplit' : history ++ [op] = (before ++ .subscribe o.once :: rest) ++ [last] := by
        simpa using hsplit
      obtain ⟨rfl, hop⟩ := List.append_inj' hsplit' rfl
      cases hop
      exact .inr ⟨⟨before, rest, rfl, hid, fun op' h => hrest op' (by simp [h])⟩,
        hrest op (by simp)⟩
  · rintro (⟨rfl, hid⟩ | ⟨⟨before, rest, rfl, hid, hrest⟩, hop⟩)
    · exact ⟨history, [], rfl, hid, fun _ h => by cases h⟩
    · refine ⟨before, rest ++ [op], by simp, hid, fun op' hop' => ?_⟩
      rcases List.mem_append.1 hop' with hop' | hop'
      · exact hrest op' hop'
      · rwa [List.mem_singleton.1 hop']

/-- The log keeps the listening observers. Both sides change in the same way with every operation,
so the induction is on the end of the history. -/
theorem mem_observers_iff (history : List Operation) (o : Observer) :
    o ∈ (empty.after history).observers ↔ Listening history o := by
  induction history using List.reverseRecOn with
  | nil =>
    constructor
    · intro h
      cases h
    · rintro ⟨before, rest, hsplit, -⟩
      exact absurd hsplit.symm (by simp)
  | append_singleton history op ih =>
    rw [after_append, listening_concat, ← ih]
    exact mem_observers_step

theorem errors_after (log : ErrorLog) (history : List Operation) :
    (log.after history).errors = log.errors ++ history.filterMap Operation.error? := by
  induction history generalizing log with
  | nil => exact (List.append_nil _).symm
  | cons op rest ih =>
    refine (ih (log.step op)).trans ?_
    cases op with
    | subscribe | unsubscribe => rfl
    | record e => exact List.append_assoc ..

/-! ## Other observers -/

/-- What is left of a log when an observer is not looked at: the errors, and what concerns the other
observers. -/
def besides (log : ErrorLog) (id : Nat) : ErrorLog :=
  { log with
    observers := log.observers.filter (·.id != id)
    notices := log.notices.filter (·.observer != id) }

theorem besides_unsubscribe (log : ErrorLog) (id : Nat) :
    (log.unsubscribe id).2.besides id = log.besides id := by
  simp [ErrorLog.unsubscribe, besides]

theorem besides_besides (log : ErrorLog) (id : Nat) :
    (log.besides id).besides id = log.besides id := by
  simp [besides]

theorem unsubscribe_besides (log : ErrorLog) (id other : Nat) :
    ((log.besides id).unsubscribe other).2 = (log.unsubscribe other).2.besides id := by
  simp only [ErrorLog.unsubscribe, besides]
  rw [List.filter_comm]

theorem record_besides (log : ErrorLog) (id : Nat) (e : ScriptError) :
    (log.besides id).record e = (log.record e).besides id := by
  simp only [ErrorLog.record, besides, List.filter_append, List.filter_map]
  rw [List.filter_comm]
  rfl

theorem besides_step (log : ErrorLog) (op : Operation) (id : Nat) :
    (log.step op).besides id = ((log.besides id).step op).besides id := by
  cases op with
  | subscribe once => simp [step, ErrorLog.subscribe, besides]
  | unsubscribe other =>
    simp only [step]
    rw [unsubscribe_besides, besides_besides]
  | record e =>
    simp only [step]
    rw [record_besides, besides_besides]

/-- What concerns the other observers never depends on what concerns the one. -/
theorem besides_after (log : ErrorLog) (history : List Operation) (id : Nat) :
    (log.after history).besides id = ((log.besides id).after history).besides id := by
  induction history generalizing log with
  | nil => simp [after, besides]
  | cons op rest ih =>
    calc ((log.step op).after rest).besides id
      _ = (((log.step op).besides id).after rest).besides id := ih _
      _ = ((((log.besides id).step op).besides id).after rest).besides id := by rw [besides_step]
      _ = (((log.besides id).step op).after rest).besides id := (ih _).symm

/-- After every history: no two observers were given the same number, and the errors are those that
were recorded. The next error is appended to them and reaches the listening observers, each once and
in the order of their subscription; nothing but an error reaches anyone. An observer is removed
exactly if the next error would reach it, and whatever happens later, that makes no difference to
the other observers. -/
theorem observers_told (history : List Operation) :
    (empty.issued history).Nodup ∧
    (empty.after history).errors = history.filterMap Operation.error? ∧
    ∃ told : List Observer,
      (told.map Observer.id).Sublist (empty.issued history) ∧
      (∀ o, o ∈ told ↔ Listening history o) ∧
      (∀ e, ((empty.after history).record e).errors = (empty.after history).errors ++ [e] ∧
        ((empty.after history).record e).notices =
          (empty.after history).notices ++ told.map fun o => ⟨o.id, e⟩) ∧
      (∀ once, ((empty.after history).subscribe once).2.notices = (empty.after history).notices) ∧
      ∀ id, (((empty.after history).unsubscribe id).1 = true ↔ ∃ o ∈ told, o.id = id) ∧
        ((empty.after history).unsubscribe id).2.notices = (empty.after history).notices ∧
        ∀ later, (empty.after (history ++ .unsubscribe id :: later)).besides id =
          (empty.after (history ++ later)).besides id := by
  refine ⟨issued_nodup _ _, errors_after empty history, (empty.after history).observers, ?_, ?_, ?_,
    ?_, ?_⟩
  · exact observers_sublist empty history
  · exact mem_observers_iff history
  · exact fun e => ⟨rfl, rfl⟩
  · exact fun once => rfl
  · refine fun id => ⟨?_, rfl, fun later => ?_⟩
    · simp [ErrorLog.unsubscribe]
    · rw [after_append, after_append]
      show (((empty.after history).unsubscribe id).2.after later).besides id = _
      rw [besides_after, besides_unsubscribe, ← besides_after]

end BrightScript.ErrorLog
