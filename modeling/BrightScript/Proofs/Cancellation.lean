import BrightScript.Proofs.Interruptions

/-!
# Clean cancellation

Two runs of one script are compared. The host answers the first questions of both alike, and then
ends the second run. Up to that question the runs are in step, except for who answers. From there on
the second run is left by the signal that ends it: no loop, `try`, `print` or call keeps the signal,
and none writes, records or asks anything on its way out. So what the second run wrote and recorded
is what the first run had written and recorded up to that question.
-/

namespace BrightScript

/-- What was written, recorded and asked stays. -/
def Growth.written : Growth where
  le := Session.Grows
  refl := .refl
  trans := .trans
  update := fun {g f} hf s => by
    cases hf with
    | complain text => exact .write s .stderr text
    | _ => exact { Session.Grows.refl s with }
  serviced h := h.grows
  note := .note
  framed := fun {s _} h => by
    cases h <;> exact ⟨{ Session.Grows.refl s with }, { Session.Grows.refl s with }⟩

theorem Session.grows_exec {s t : Session} {budget : Nat} {statements : List Statement}
    {args : List Value} {r : Except ScriptError Finish}
    (h : s.exec budget statements args = some (r, t)) :
    ∃ u, (Run.program budget statements args s).state? = some u ∧ u.Grows t ∧
      u.suspension = t.suspension := by
  obtain ⟨u, hu, rfl | ⟨e, rfl⟩⟩ := Session.exec_state h
  · exact ⟨t, hu, .refl t, rfl⟩
  · refine ⟨u, hu, .note u e, ?_⟩
    unfold Session.note
    split <;> rfl

/-! ## Two runs in step -/

/-- Two providers of a host, and the questions of a run with the first one, the latest first. On the
first `polls` of these questions the second provider agrees, and at the next one it ends the
run. -/
structure Cancellation where
  first : List Bool → Command
  second : List Bool → Command
  polls : Nat
  asked : List Bool
  agrees : ∀ h, h <:+ asked → h ≠ [] → h.length ≤ polls → second h = first h
  exits : ∀ h, h <:+ asked → h.length = polls + 1 → second h = .exit

namespace Cancellation

/-- Before the question at which the runs part, the answers come from the two providers. At that
question the second run is ended. -/
def interruption (c : Cancellation) : Interruption where
  growth := .written
  pairs x x' := ∃ asked, x = .host c.first asked ∧ asked.length ≤ c.polls ∧
    x' = .host c.second asked
  counts t := t.suspension.asked <:+ c.asked
  counts_of_le h ht := h.asked.trans ht
  stops signal u := (∃ location, signal = .debugExit location) ∧
    ∃ asked, u.suspension = .host c.second asked ∧ asked.length = c.polls + 1
  final := by
    rintro _ u ⟨⟨location, rfl⟩, -⟩
    exact ⟨rfl, fun e h => by cases h⟩
  framed h hu := by
    cases h <;> exact hu

/-- The question at which the runs part, or one before it. -/
theorem checkpoint (c : Cancellation) (statement : Statement) :
    c.interruption.InStep (Run.checkpoint statement) (Run.checkpoint statement) := by
  rw [Run.checkpoint]
  rintro s _ ⟨_, ⟨asked, hfirst, hlength, rfl⟩, rfl⟩
  let history := s.debugMode :: asked
  let t := s.withSuspension (.host c.first history)
  let t' := s.withSuspension (.host c.second history)
  have hpoll : (Run.poll >>= Run.obey statement) s = Run.obey statement (c.first history) t := by
    rw [Routine.bind_apply, Run.poll, Routine.change, hfirst]
    rfl
  have hpoll' : (Run.poll >>= Run.obey statement) (s.withSuspension (.host c.second asked)) =
      Run.obey statement (c.second history) t' := rfl
  rw [hpoll, hpoll']
  intro v hv hasked
  have hgrows : t.Grows v :=
    Growth.of_ends (k := .written) (Contract.Keeps.obey statement _ t trivial).2 hv
  have hhistory : history <:+ c.asked := hgrows.asked.trans hasked
  by_cases hpolls : history.length ≤ c.polls
  · rw [c.agrees history hhistory (List.cons_ne_nil _ _) hpolls]
    have hpaired : c.interruption.Paired t t' := ⟨_, ⟨history, rfl, hpolls, rfl⟩, rfl⟩
    exact Interruption.InStep.obey statement _ t t' hpaired v hv hasked
  · have hlast : history.length = c.polls + 1 := by
      have hcons : history.length = asked.length + 1 := rfl
      omega
    rw [c.exits history hhistory hlast]
    exact .inr ⟨_, t'.disarmed, rfl, ⟨⟨_, rfl⟩, history, rfl, hlast⟩, { hgrows with }⟩

end Cancellation

/-! ## Cancelled scripts -/

/-- Take two providers of a host, any session and any script. If the script comes to its end with
the first provider after more than `k` questions, and the second provider gives the same answers to
the first `k` of these questions and ends the run at the next one, then the script ends with the
second provider, for that reason and without an error. What it wrote, recorded, asked and told the
debugger is what the first run had when it was asked that question, so that its outputs are
prefixes. -/
theorem cancelled_run_is_prefix (n k : Nat) (first second : List Bool → Command) (s t : Session)
    (statements : List Statement) (args : List Value) (r : Except ScriptError Finish)
    (asked : List Bool)
    (hfinished : (s.withSuspension (.host first [])).exec n statements args = some (r, t))
    (hasked : t.suspension = .host first asked) (hlength : k < asked.length)
    (hagree : ∀ h, h <:+ asked → h ≠ [] → h.length ≤ k → second h = first h)
    (hexit : ∀ h, h <:+ asked → h.length = k + 1 → second h = .exit) :
    ∃ u asked', (s.withSuspension (.host second [])).exec n statements args =
        some (.ok ⟨.invalid, .debugExit⟩, u) ∧
      u.suspension = .host second asked' ∧ asked'.length = k + 1 ∧ asked' <:+ asked ∧
      Text.Begins u.stdout t.stdout ∧ Text.Begins u.stderr t.stderr ∧
      Text.Begins u.console t.console ∧ u.log.errors <+: t.log.errors ∧ u.breaks <:+ t.breaks := by
  let c : Cancellation := ⟨first, second, k, asked, hagree, hexit⟩
  have hstart : c.interruption.Paired (s.withSuspension (.host first []))
      (s.withSuspension (.host second [])) :=
    ⟨_, ⟨[], rfl, Nat.zero_le k, rfl⟩, rfl⟩
  obtain ⟨v, hv, hgrows, hsuspension⟩ := Session.grows_exec hfinished
  rw [hasked] at hsuspension
  have hcounts : v.suspension.asked <:+ asked := by
    rw [hsuspension]
    exact List.suffix_rfl
  have hfollows := ((c.interruption.simulation c.checkpoint).program n statements
    fun _ _ => trivial).2 _ _ hstart v hv hcounts
  rcases hfollows with ⟨v', ⟨_, ⟨questions, hquestions, hle, -⟩, -⟩, -⟩ |
    ⟨_, u, hu, ⟨⟨location, rfl⟩, asked', hasked', hlength'⟩, hstopped⟩
  · rw [hsuspension] at hquestions
    cases hquestions
    exact absurd hlength (Nat.not_lt.2 hle)
  · have hgrown : u.Grows t := Session.Grows.trans hstopped hgrows
    refine ⟨u, asked', ?_, hasked', hlength', ?_, hgrown.stdout, hgrown.stderr, hgrown.console,
      hgrown.errors, hgrown.breaks⟩
    · rw [Session.exec, Run.script_apply, hu]
      rfl
    · have hsuffix := hgrown.asked
      rw [hasked, hasked'] at hsuffix
      exact hsuffix

/-- A script that would fail at its second statement is ended before it. -/
theorem cancelled_run_is_prefix_of_failing_run :
    ∃ e t u, ((Session.new { Options.standard with entryPoint := false }).withSuspension
        (.host (fun _ => .proceed) [])).exec 2 [.label ⟨"l", .builtin⟩, .exitFor .builtin] [] =
          some (.error e, t) ∧
      ((Session.new { Options.standard with entryPoint := false }).withSuspension
        (.host (fun h => if h.length = 2 then .exit else .proceed) [])).exec 2
          [.label ⟨"l", .builtin⟩, .exitFor .builtin] [] = some (.ok ⟨.invalid, .debugExit⟩, u) ∧
      u.log.errors <+: t.log.errors := by
  have hrun := cancelled_run_is_prefix 2 1 (fun _ => .proceed)
    (fun h => if h.length = 2 then .exit else .proceed)
    (.new { Options.standard with entryPoint := false }) _
    [.label ⟨"l", .builtin⟩, .exitFor .builtin] [] _ [false, false] rfl rfl (by decide)
    (fun h _ _ hlength => if_neg (by omega)) fun h _ hlength => if_pos hlength
  obtain ⟨u, _, hexec, -, -, -, -, -, -, herrors, -⟩ := hrun
  exact ⟨_, _, u, rfl, hexec, herrors⟩

end BrightScript
