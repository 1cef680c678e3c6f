import BrightScript.Proofs.Frames

/-!
# Debugging changes nothing

A run may be suspended and debugged in any way. Beside it we look at its shadow: the same run, told
to go on at every question and with no error handed to the debugger, so that it never pauses. Until
the debugger or the host ends the first run, both do the same: they have the same results and
signals, and their sessions differ only in what surrounds the run (`Surroundings`), which the rules
of the language do not read. What the first run wrote differs from what its shadow wrote only on the
channel that the debugger writes to, and there only by what the debugger added.

Along the way we count the errors that are handed to the debugger: none, or one that leaves every
call it comes to, since it was raised where nothing catches errors.
-/

namespace BrightScript

/-! ## Sources and debuggers that never end a run -/

/-- The answers to questions that are asked one after the other. -/
def Suspension.answers (s : Suspension) : List Bool → List Command
  | [] => []
  | debugMode :: rest => (s.poll debugMode).1 :: answers (s.poll debugMode).2 rest

/-- Whether all answers are to go on or to pause, whatever is asked. -/
def Suspension.NeverExits (s : Suspension) : Prop :=
  ∀ questions, .exit ∉ s.answers questions

/-- The decisions at pauses that come one after the other. -/
def Debugger.decisions (d : Debugger) : List (Session × Break) → List Action
  | [] => []
  | (s, pause) :: rest =>
    let verdict := { s with debugger := d }.verdict pause
    verdict.action :: decisions verdict.debugger rest

/-- Whether all decisions are to go on or to step, whatever the pauses are. -/
def Debugger.NeverExits (d : Debugger) : Prop :=
  ∀ pauses, .exit ∉ d.decisions pauses

def Debugger.channel? : Debugger → Option Channel
  | .console _ output => some output
  | _ => none

theorem Suspension.NeverExits.poll {s : Suspension} (h : s.NeverExits) (debugMode : Bool) :
    (s.poll debugMode).1 ≠ .exit ∧ (s.poll debugMode).2.NeverExits := by
  constructor
  · intro heq
    refine h [debugMode] ?_
    rw [answers, heq]
    exact List.mem_cons_self
  · exact fun questions hmem => h (debugMode :: questions) (List.mem_cons_of_mem _ hmem)

theorem Debugger.NeverExits.verdict {s : Session} (h : s.debugger.NeverExits) (pause : Break) :
    (s.verdict pause).action ≠ .exit ∧ (s.verdict pause).debugger.NeverExits := by
  constructor
  · intro heq
    refine h [(s, pause)] ?_
    show Action.exit ∈ [(s.verdict pause).action]
    rw [heq]
    exact List.mem_cons_self
  · exact fun pauses hmem => h ((s, pause) :: pauses) (List.mem_cons_of_mem _ hmem)

def Console.AsksExit (line : String) : Prop :=
  Text.fold (Text.trim line) = "q" ∨ Text.fold (Text.trim line) = "exit"

theorem Console.answer_ne_exit (h : Heap) (context : BreakContext) {line : String}
    (hline : ¬ AsksExit line) : answer h context line ≠ .inl .exit := by
  intro hexit
  unfold AsksExit at hline
  unfold answer at hexit
  grind

theorem Console.of_converse (h : Heap) (context : BreakContext) {input : List String}
    (hinput : ∀ line ∈ input, ¬ AsksExit line) :
    (converse h context input).1 ≠ .exit ∧ (converse h context input).2.2 <:+ input := by
  induction input with
  | nil => exact ⟨nofun, List.suffix_rfl⟩
  | cons line rest ih =>
    have hline := answer_ne_exit h context (hinput line List.mem_cons_self)
    have hrest := ih fun l hl => hinput l (List.mem_cons_of_mem _ hl)
    unfold converse
    cases ha : answer h context line with
    | inl action => exact ⟨fun heq => hline (ha.trans (congrArg _ heq)), List.suffix_cons _ _⟩
    | inr text => exact ⟨hrest.1, hrest.2.trans (List.suffix_cons _ _)⟩

-- At the end of its input a console decides to go on.
theorem Debugger.neverExits_console {input : List String} {output : Channel}
    (hinput : ∀ line ∈ input, ¬ Console.AsksExit line) :
    (Debugger.console input output).NeverExits := by
  intro pauses
  induction pauses generalizing input with
  | nil => exact List.not_mem_nil
  | cons first rest ih =>
    obtain ⟨s, pause⟩ := first
    obtain ⟨hexit, hunread⟩ := Console.of_converse s.heap
      ({ s with debugger := .console input output }.breakContext pause) hinput
    intro hmem
    rcases List.mem_cons.1 hmem with heq | hmem
    · exact hexit heq.symm
    · exact ih (fun line hline => hinput line (hunread.subset hline)) hmem

theorem Suspension.neverExits_host {answer : List Bool → Command} {asked : List Bool}
    (h : ∀ asked, answer asked ≠ .exit) : (Suspension.host answer asked).NeverExits := by
  intro questions
  induction questions generalizing asked with
  | nil => exact List.not_mem_nil
  | cons debugMode rest ih =>
    intro hmem
    rcases List.mem_cons.1 hmem with heq | hmem
    · exact h _ heq.symm
    · exact ih hmem

theorem Session.channel?_verdict (s : Session) (pause : Break) :
    (s.verdict pause).debugger.channel? = s.debugger.channel? := by
  rcases hd : s.debugger with (_ | ⟨action, rest⟩) | ⟨input, output⟩ | ⟨decide, seen⟩ <;>
    simp only [verdict, hd, Debugger.channel?]

theorem Session.text_verdict (s : Session) (pause : Break) :
    (s.verdict pause).text = "" ∨ s.debugger.channel? = some (s.verdict pause).channel := by
  rcases hd : s.debugger with (_ | ⟨action, rest⟩) | ⟨input, output⟩ | ⟨decide, seen⟩
  case console => exact .inr (by simp only [verdict, hd, Debugger.channel?])
  all_goals exact .inl (by simp only [verdict, hd])

/-! ## What surrounds a run -/

def Session.output (s : Session) : Channel → String
  | .stdout => s.stdout
  | .stderr => s.stderr
  | .console => s.console

/-- The errors that were handed to the debugger, the latest first. -/
def Session.handed (s : Session) : List ScriptError :=
  s.breaks.filterMap Break.error

/-- What the rules of the language do not read of a session, apart from the errors recorded. -/
structure Surroundings where
  stopOnCrash : Bool
  debugMode : Bool
  suspension : Suspension
  debugger : Debugger
  breaks : List Break
  output : Channel → String

def Session.surroundings (s : Session) : Surroundings :=
  ⟨s.options.stopOnCrash, s.debugMode, s.suspension, s.debugger, s.breaks, s.output⟩

def Session.surrounded (s : Session) (d : Surroundings) : Session :=
  { s with
    options := { s.options with stopOnCrash := d.stopOnCrash }
    debugMode := d.debugMode
    suspension := d.suspension
    debugger := d.debugger
    breaks := d.breaks
    stdout := d.output .stdout
    stderr := d.output .stderr
    console := d.output .console }

def Surroundings.write (d : Surroundings) (channel : Channel) (text : String) : Surroundings :=
  { d with output := fun c => if c = channel then d.output c ++ text else d.output c }

namespace Session

theorem surroundings_write (s : Session) (channel : Channel) (text : String) :
    (s.write channel text).surroundings = s.surroundings.write channel text := by
  have houtput : (s.write channel text).output =
      fun c => if c = channel then s.output c ++ text else s.output c := by
    funext c
    cases channel <;> cases c <;> rfl
  cases channel <;> exact congrArg (Surroundings.mk _ _ _ _ _) houtput

theorem surrounded_write (s : Session) (channel : Channel) (text : String) (d : Surroundings) :
    (s.write channel text).surrounded d = s.surrounded d := by
  cases channel <;> rfl

theorem write_surrounded (s : Session) (channel : Channel) (text : String) (d : Surroundings) :
    (s.surrounded d).write channel text =
      (s.write channel text).surrounded (d.write channel text) := by
  cases channel <;> rfl

theorem note_surrounded (s : Session) (e : ScriptError) (d : Surroundings) :
    (s.surrounded d).note e = (s.note e).surrounded d := by
  unfold note
  show (if s.tryMode = true then _ else _) = _
  split <;> rfl

theorem surroundings_note (s : Session) (e : ScriptError) :
    (s.note e).surroundings = s.surroundings := by
  unfold note
  split <;> rfl

theorem surrounded_consult (s : Session) (pause : Break) (d : Surroundings) :
    (s.consult pause).2.surrounded d = s.surrounded d := by
  rw [consult, surrounded_write]
  rfl

theorem surroundings_consult (s : Session) (pause : Break) :
    (s.consult pause).2.surroundings =
      { s.surroundings with
          breaks := pause :: s.breaks, debugger := (s.verdict pause).debugger }.write
        (s.verdict pause).channel (s.verdict pause).text := by
  rw [consult, surroundings_write]
  rfl

end Session

theorem Run.crash_of_not_stopOnCrash {α : Type} {s : Session}
    (h : s.options.stopOnCrash = false) (e : ScriptError) :
    (Run.crash (.error e) : Run α) s = .exit (.error e) s := by
  rw [Run.crash_error_apply, if_neg]
  simp [Run.crashes, h]

/-! ## A run and its shadow -/

/-- What is fixed when a run and its shadow start: whether the run may be ended, whether the
debugger is to be called for errors, where it writes, and the pauses so far. -/
structure Shadow where
  mayExit : Prop
  armed : Bool
  channel? : Option Channel
  breaks : List Break

namespace Shadow

variable (c : Shadow)

/-- The surroundings of a run and of its shadow, after an error was handed to the debugger or before
any was. -/
structure Around (handed : Option ScriptError) (d d' : Surroundings) : Prop where
  armed : d.stopOnCrash = (c.armed && handed.isNone)
  lasting : c.mayExit ∨ d.suspension.NeverExits ∧ d.debugger.NeverExits
  channel : d.debugger.channel? = c.channel?
  handed : d.breaks.filterMap Break.error = handed.toList ++ c.breaks.filterMap Break.error
  unarmed : d'.stopOnCrash = false
  proceeds : ∃ asked, d'.suspension = .host (fun _ => .proceed) asked
  unbroken : d'.breaks = c.breaks
  written : ∀ channel, (d'.output channel).toList.Sublist (d.output channel).toList
  same : ∀ channel, c.channel? ≠ some channel → d.output channel = d'.output channel

def Beside (handed : Option ScriptError) (s s' : Session) : Prop :=
  ∃ d, s' = s.surrounded d ∧ c.Around handed s.surroundings d

/-- How the shadow of a run ends, by how the run did: alike, unless the run was ended. -/
inductive Follows {α : Type} : Outcome Signal Session α → Outcome Signal Session α → Prop
  | done (a : α) {t t' : Session} : c.Beside none t t' → Follows (.done a t) (.done a t')
  | exit (signal : Signal) {t t' : Session} : c.Beside none t t' →
      Follows (.exit signal t) (.exit signal t')
  | crashed {e : ScriptError} {t t' : Session} : c.Beside (some e) t t' → t.tryMode = false →
      Follows (.exit (.error e) t) (.exit (.error e) t')
  | ended {location : Location} {t : Session} {o : Outcome Signal Session α} : c.mayExit →
      Follows (.exit (.debugExit location) t) o
  | exhausted : Follows .exhausted .exhausted

def InStep {α : Type} (x x' : Run α) : Prop :=
  ∀ s s', c.Beside none s s' → c.Follows (x s) (x' s')

variable {c} {handed : Option ScriptError}

theorem Around.write {d d' : Surroundings} (h : c.Around handed d d') (channel : Channel)
    (text : String) : c.Around handed (d.write channel text) (d'.write channel text) := by
  refine { h with written := fun ch => ?_, same := fun ch hch => ?_ }
  · unfold Surroundings.write
    dsimp only
    split
    · rw [String.toList_append, String.toList_append]
      exact (h.written ch).append (.refl _)
    · exact h.written ch
  · unfold Surroundings.write
    dsimp only
    rw [h.same ch hch]

theorem Around.comment {d d' : Surroundings} (h : c.Around handed d d') {channel : Channel}
    {text : String} (hchannel : text = "" ∨ c.channel? = some channel) :
    c.Around handed (d.write channel text) d' := by
  refine { h with written := fun ch => ?_, same := fun ch hch => ?_ }
  · unfold Surroundings.write
    dsimp only
    split
    · rw [String.toList_append]
      exact (h.written ch).trans (List.sublist_append_left _ _)
    · exact h.written ch
  · unfold Surroundings.write
    dsimp only
    split
    · next heq =>
      rcases hchannel with rfl | hchannel
      · rw [String.append_empty]
        exact h.same ch hch
      · exact absurd (heq ▸ hchannel) hch
    · exact h.same ch hch

namespace Beside

variable {s s' : Session}

theorem core (h : c.Beside handed s s') : s'.core = s.core := by
  obtain ⟨d, rfl, -⟩ := h
  rfl

theorem map {f : Session → Session} (h : c.Beside handed s s')
    (hf : ∀ d, f (s.surrounded d) = (f s).surrounded d)
    (hs : (f s).surroundings = s.surroundings) : c.Beside handed (f s) (f s') := by
  obtain ⟨d, rfl, hd⟩ := h
  exact ⟨d, hf d, hs.symm ▸ hd⟩

theorem write (h : c.Beside handed s s') (channel : Channel) (text : String) :
    c.Beside handed (s.write channel text) (s'.write channel text) := by
  obtain ⟨d, rfl, hd⟩ := h
  refine ⟨d.write channel text, s.write_surrounded channel text d, ?_⟩
  rw [Session.surroundings_write]
  exact hd.write channel text

theorem note (h : c.Beside handed s s') (e : ScriptError) :
    c.Beside handed (s.note e) (s'.note e) :=
  h.map (f := (·.note e)) (s.note_surrounded e) (s.surroundings_note e)

theorem debugMode (h : c.Beside handed s s') (mode : Bool) :
    c.Beside handed { s with debugMode := mode } s' := by
  obtain ⟨d, rfl, hd⟩ := h
  exact ⟨d, rfl, { hd with }⟩

-- A crash sets `stopOnCrash` before it pauses, so the pause is stated for either setting.
theorem pause {before after : Option ScriptError} (h : c.Beside before s s') (pause : Break)
    (stop : Bool) (hstop : stop = (c.armed && after.isNone))
    (hpause : pause.error.toList ++ before.toList = after.toList) :
    c.Beside after
      ({ s with options := { s.options with stopOnCrash := stop } }.consult pause).2 s' := by
  obtain ⟨d, rfl, hd⟩ := h
  let u : Session := { s with options := { s.options with stopOnCrash := stop } }
  refine ⟨d, (u.surrounded_consult pause d).symm, ?_⟩
  rw [Session.surroundings_consult]
  refine Around.comment ?_ (hd.channel ▸ u.text_verdict pause)
  have hlasting : c.mayExit ∨ u.suspension.NeverExits ∧ (u.verdict pause).debugger.NeverExits :=
    hd.lasting.imp_right fun h => ⟨h.1, (Debugger.NeverExits.verdict (s := u) h.2 pause).2⟩
  have hhanded : (pause :: u.breaks).filterMap Break.error =
      after.toList ++ c.breaks.filterMap Break.error := by
    have hbefore : u.breaks.filterMap Break.error = _ := hd.handed
    rw [List.filterMap_cons, hbefore, ← hpause]
    cases pause.error <;> rfl
  exact { hd with
    armed := hstop, lasting := hlasting, channel := (u.channel?_verdict pause).trans hd.channel,
    handed := hhanded }

theorem consult (h : c.Beside handed s s') {pause : Break} (hpause : pause.error = none) :
    c.Beside handed (s.consult pause).2 s' := by
  have harmed := h
  obtain ⟨d, -, hd⟩ := harmed
  exact h.pause pause s.options.stopOnCrash hd.armed (by rw [hpause]; rfl)

theorem mayExit (h : c.Beside handed s s') {u : Session} (hu : u.debugger = s.debugger)
    (pause : Break) (hexit : (u.consult pause).1 = .exit) : c.mayExit := by
  obtain ⟨d, rfl, hd⟩ := h
  rw [Session.consult] at hexit
  refine hd.lasting.resolve_right fun h => ?_
  exact (Debugger.NeverExits.verdict (s := u) (hu ▸ h.2) pause).1 hexit

theorem crash_shadow {α : Type} (h : c.Beside handed s s') (e : ScriptError) :
    (Run.crash (.error e) : Run α) s' = .exit (.error e) s' := by
  obtain ⟨d, rfl, hd⟩ := h
  refine Run.crash_of_not_stopOnCrash ?_ e
  exact hd.unarmed

theorem crashed {α : Type} (h : c.Beside none s s') {e : ScriptError}
    (hcrashes : Run.crashes s e = true) :
    (∃ t, (Run.crash (.error e) : Run α) s = .exit (.error e) t ∧ c.Beside (some e) t s' ∧
        t.tryMode = false) ∨
      ∃ t, (Run.crash (.error e) : Run α) s = .exit (.debugExit s.location) t ∧ c.mayExit := by
  have htry : s.tryMode = false := by
    unfold Run.crashes at hcrashes
    cases hs : s.tryMode with
    | false => rfl
    | true => rw [hs] at hcrashes; cases hcrashes
  have hpause : c.Beside (some e) (s.disarmed.consult (s.crashBreak e)).2 s' :=
    h.pause (s.crashBreak e) false (Bool.and_false _).symm rfl
  have hexit := h.mayExit (u := s.disarmed) rfl (s.crashBreak e)
  have hcore := (Session.Serviced.consult s.disarmed (s.crashBreak e)).core
  rw [Run.crash_error_apply, if_pos hcrashes]
  generalize s.disarmed.consult (s.crashBreak e) = decided at hpause hexit hcore ⊢
  obtain ⟨action, t⟩ := decided
  have htry' : t.tryMode = false := (congrArg Core.tryMode hcore).trans htry
  cases action with
  | proceed => exact .inl ⟨_, rfl, hpause.debugMode false, htry'⟩
  | step => exact .inl ⟨_, rfl, hpause, htry'⟩
  | exit => exact .inr ⟨_, rfl, hexit rfl⟩

theorem crash_again {α : Type} {e : ScriptError} (h : c.Beside (some e) s s') (e' : ScriptError) :
    (Run.crash (.error e') : Run α) s = .exit (.error e') s := by
  obtain ⟨d, rfl, hd⟩ := h
  refine Run.crash_of_not_stopOnCrash ?_ e'
  exact hd.armed.trans (Bool.and_false _)

end Beside

namespace InStep

variable {α β : Type}

theorem bind {g : Grade} {Q : α → Prop} {x x' : Run α} {f f' : α → Run β}
    (hx : (Contract.frames False).Keeps g Q x x) (hx' : c.InStep x x')
    (hf' : ∀ a, Q a → c.InStep (f a) (f' a)) : c.InStep (x >>= f) (x' >>= f') := by
  intro s s' hs
  have hends := (hx s False.elim).2
  have hfollows := hx' s s' hs
  rw [Routine.bind_apply, Routine.bind_apply]
  generalize x s = o at hends hfollows ⊢
  generalize x' s' = o' at hfollows ⊢
  cases hfollows with
  | done a ht => exact hf' a hends.1 _ _ ht
  | exit signal ht => exact .exit signal ht
  | crashed ht htry => exact .crashed ht htry
  | ended hexit => exact .ended hexit
  | exhausted => exact .exhausted

theorem intercept {g : Grade} {Q : α → Prop} {x x' : Run α} {f f' : Except Signal α → Run β}
    (hx : (Contract.frames False).Keeps g Q x x) (hx' : c.InStep x x')
    (hok : ∀ a, Q a → c.InStep (f (.ok a)) (f' (.ok a)))
    (hjump : ∀ signal, signal.isJump = true → c.InStep (f (.error signal)) (f' (.error signal)))
    (hrest : ∀ signal, signal.isJump = false → f (.error signal) = Routine.leave signal ∧
      f' (.error signal) = Routine.leave signal) :
    c.InStep (Routine.attempt x >>= f) (Routine.attempt x' >>= f') := by
  intro s s' hs
  have hends := (hx s False.elim).2
  have hfollows := hx' s s' hs
  rw [Routine.attempt_bind_apply, Routine.attempt_bind_apply]
  generalize x s = o at hends hfollows ⊢
  generalize x' s' = o' at hfollows ⊢
  cases hfollows with
  | done a ht => exact hok a hends.1 _ _ ht
  | exit signal ht =>
    cases hj : signal.isJump with
    | true => exact hjump signal hj _ _ ht
    | false =>
      dsimp only
      rw [(hrest signal hj).1, (hrest signal hj).2]
      exact .exit signal ht
  | crashed ht htry =>
    dsimp only
    rw [(hrest _ rfl).1, (hrest _ rfl).2]
    exact .crashed ht htry
  | ended hexit =>
    dsimp only
    rw [(hrest _ rfl).1]
    exact .ended hexit
  | exhausted => exact .exhausted

theorem pure (a : α) : c.InStep (Pure.pure a) (Pure.pure a) :=
  fun _ _ hs => .done a hs

theorem leave (signal : Signal) :
    c.InStep (Routine.leave signal : Run α) (Routine.leave signal) :=
  fun _ _ hs => .exit signal hs

theorem raise (e : ScriptError) : c.InStep (Run.raise e : Run α) (Run.raise e) := by
  intro s s' hs
  have htraced : s'.traced e = s.traced e := by
    obtain ⟨d, rfl, -⟩ := hs
    rfl
  unfold Run.raise
  dsimp only
  rw [htraced]
  exact .exit _ (hs.note (s.traced e))

theorem modify {f : Session → Session} (hf : ∀ s d, f (s.surrounded d) = (f s).surrounded d)
    (hs : ∀ s, (f s).surroundings = s.surroundings) :
    c.InStep (Routine.modify f) (Routine.modify f) :=
  fun s _ h => .done () (h.map (hf s) (hs s))

theorem update {P : Value → Prop} {g : Grade} {f : Session → Session} (hf : Update P True g f) :
    c.InStep (Routine.modify f) (Routine.modify f) := by
  cases hf with
  | complain text => exact fun s s' hs => .done () (hs.write .stderr text)
  | debug =>
    rintro s s' ⟨d, rfl, hd⟩
    exact .done () ⟨{ d with debugMode := true }, rfl, { hd with }⟩
  | _ => exact modify (fun _ _ => rfl) fun _ => rfl

theorem pauseAt {pause : Break} (hpause : pause.error = none) :
    c.InStep (Run.pauseAt pause) (Pure.pure ()) := by
  intro s s' hs
  have hconsult := hs.consult hpause
  have hexit := hs.mayExit rfl pause
  rw [Run.pauseAt, Routine.bind_apply, Routine.change]
  rcases hc : s.consult pause with ⟨action, t⟩
  rw [hc] at hconsult hexit
  cases action with
  | proceed => exact .done () (hconsult.debugMode false)
  | step => exact .done () hconsult
  | exit => exact .ended (hexit rfl)

theorem obey (statement : Statement) {command : Command}
    (hcommand : c.mayExit ∨ command ≠ .exit) :
    c.InStep (Run.obey statement command) (Pure.pure ()) := by
  intro s s' hs
  cases command with
  | proceed => exact .done () hs
  | exit => exact .ended (hcommand.resolve_right fun h => h rfl)
  | pause =>
    have hdebug := hs.debugMode true
    rw [Run.obey, Routine.bind_apply]
    dsimp only [Routine.modify]
    split
    · exact .done () hdebug
    · exact pauseAt rfl _ _ hdebug

theorem checkpoint (statement : Statement) :
    c.InStep (Run.checkpoint statement) (Run.checkpoint statement) := by
  rintro s s' ⟨d, rfl, hd⟩
  obtain ⟨asked, hasked⟩ := hd.proceeds
  let answer := s.suspension.poll s.debugMode
  -- Both are asked. The shadow is told to go on, so only its history of questions changes.
  let d' := { d with suspension := .host (fun _ => .proceed) (d.debugMode :: asked) }
  have hbeside : c.Beside none { s with suspension := answer.2 } (s.surrounded d') :=
    ⟨d', rfl, { hd with
      lasting := hd.lasting.imp_right fun h => ⟨(h.1.poll s.debugMode).2, h.2⟩
      proceeds := ⟨_, rfl⟩ }⟩
  have hcommand : c.mayExit ∨ answer.1 ≠ .exit :=
    hd.lasting.imp_right fun h => (h.1.poll s.debugMode).1
  have hshadow : Run.checkpoint statement (s.surrounded d) = .done () (s.surrounded d') := by
    rw [Run.checkpoint, Routine.bind_apply, Run.poll, Routine.change]
    rw [show (s.surrounded d).suspension = .host (fun _ => .proceed) asked from hasked]
    rfl
  rw [hshadow, Run.checkpoint]
  exact obey statement hcommand _ _ hbeside

theorem catching {x x' : Run Unit} {handler handler' : ScriptError → Run Unit}
    (hx : (Contract.frames False).Keeps .statement (fun _ => True) x x) (hx' : c.InStep x x')
    (hh' : ∀ e, c.InStep (handler e) (handler' e)) :
    c.InStep (Run.catching x handler) (Run.catching x' handler') := by
  rintro s s' ⟨d, rfl, hd⟩
  have hs : c.Beside none (s.withTry true) ((s.surrounded d).withTry true) := ⟨d, rfl, hd⟩
  have hends := (hx (s.withTry true) False.elim).2
  have hfollows := hx' _ _ hs
  have huntried {t t' : Session} (h : c.Beside none t t') :
      c.Beside none (t.withTry s.tryMode) (t'.withTry s.tryMode) :=
    h.map (f := (·.withTry s.tryMode)) (fun _ => rfl) rfl
  rw [Run.catching, Run.catching]
  generalize x (s.withTry true) = o at hends hfollows ⊢
  generalize x' ((s.surrounded d).withTry true) = o' at hfollows ⊢
  cases hfollows with
  | done a ht => exact .done () (huntried ht)
  | exit signal ht =>
    cases signal with
    | error e => exact hh' e _ _ (huntried ht)
    | _ => exact .exit _ (huntried ht)
  | crashed _ htry =>
    -- An error is handed to the debugger only where it is not going to be caught.
    have htried := (Contract.sameFrames_of_ends hends rfl).tryMode
    rw [htry] at htried
    cases htried
  | ended hexit => exact .ended hexit
  | exhausted => exact .exhausted

theorem printing {x x' : Run String} (hx' : c.InStep x x') :
    c.InStep (Run.printing x) (Run.printing x') := by
  rintro s s' ⟨d, rfl, hd⟩
  have hfollows := hx' s _ ⟨d, rfl, hd⟩
  have hrewound {handed : Option ScriptError} {t t' : Session} (h : c.Beside handed t t') :
      c.Beside handed { Run.withoutHelpers t with column := s.column }
        { Run.withoutHelpers t' with column := s.column } :=
    h.map (f := fun t => { Run.withoutHelpers t with column := s.column }) (fun _ => rfl) rfl
  rw [Run.printing, Run.printing]
  generalize x s = o at hfollows ⊢
  generalize x' (s.surrounded d) = o' at hfollows ⊢
  cases hfollows with
  | done line ht =>
    exact .done () ((ht.map (f := Run.withoutHelpers) (fun _ => rfl) rfl).write .stdout line)
  | exit signal ht => exact .exit signal (hrewound ht)
  | crashed ht htry => exact .crashed (hrewound ht) htry
  | ended hexit => exact .ended hexit
  | exhausted => exact .exhausted

theorem crash (signal : Signal) : c.InStep (Run.crash signal : Run α) (Run.crash signal) := by
  cases signal with
  | error e =>
    intro s s' hs
    rw [hs.crash_shadow]
    cases hcrashes : Run.crashes s e with
    | true =>
      rcases hs.crashed hcrashes with ⟨t, heq, ht, htry⟩ | ⟨t, heq, hexit⟩ <;> rw [heq]
      · exact .crashed ht htry
      · exact .ended hexit
    | false =>
      rw [Run.crash_error_apply, if_neg (by rw [hcrashes]; exact Bool.false_ne_true)]
      exact .exit _ hs
  | _ => exact leave _

theorem crashing {x x' : Run α} (hx' : c.InStep x x') :
    c.InStep (Routine.handle x Run.crash) (Routine.handle x' Run.crash) := by
  intro s s' hs
  have hfollows := hx' s s' hs
  rw [Routine.handle, Routine.handle]
  generalize x s = o at hfollows ⊢
  generalize x' s' = o' at hfollows ⊢
  cases hfollows with
  | done a ht => exact .done a ht
  | exit signal ht => exact crash signal _ _ ht
  | crashed ht htry =>
    dsimp only
    rw [ht.crash_again, ht.crash_shadow]
    exact .crashed ht htry
  | ended hexit => exact .ended hexit
  | exhausted => exact .exhausted

theorem leaveCall (returns : Kind) (signal : Signal) :
    c.InStep (Run.leaveCall returns signal) (Run.leaveCall returns signal) := by
  rcases Run.leaveCall_cases returns signal with ⟨-, heq⟩ | ⟨-, ⟨v, heq⟩ | ⟨e, heq⟩⟩ <;> rw [heq]
  · exact leave signal
  · exact pure v
  · exact raise e

theorem calling {frame? : Option Frame} {returns : Kind} {context : Option AssocRef}
    {call : Location} {x x' : Run Value} (hx' : c.InStep x x') :
    c.InStep (Run.calling frame? returns context call x)
      (Run.calling frame? returns context call x') := by
  rintro s s' ⟨d, rfl, hd⟩
  have hentered (m : AssocRef) :
      c.Follows (x (s.entered m frame?)) (x' ((s.surrounded d).entered m frame?)) :=
    hx' _ _ ⟨d, rfl, hd⟩
  have hreturned {handed : Option ScriptError} {t t' : Session} (h : c.Beside handed t t') :
      c.Beside handed (t.returnedTo s frame?) (t'.returnedTo (s.surrounded d) frame?) :=
    h.map (f := (·.returnedTo s frame?)) (fun _ => rfl) rfl
  unfold Run.calling
  show c.Follows _ (if (frame?.isSome && s.isFull) = true then _ else _)
  split
  · exact raise _ _ _ ⟨d, rfl, hd⟩
  · rw [Run.handle_inCall_apply, Run.handle_inCall_apply]
    have hfollows := hentered (context.getD s.scopes.rootM)
    rw [show (s.surrounded d).scopes.rootM = s.scopes.rootM from rfl]
    generalize x _ = o at hfollows ⊢
    generalize x' _ = o' at hfollows ⊢
    cases hfollows with
    | done v ht => exact .done v (hreturned ht)
    | exit signal ht => exact leaveCall returns signal _ _ (hreturned ht)
    | crashed ht htry => exact .crashed (hreturned ht) htry
    | ended hexit => exact .ended hexit
    | exhausted => exact .exhausted

end InStep

def simulation (c : Shadow) : Simulation fun _ => True where
  rel g _ Q x x' := (Contract.frames False).Keeps g Q x x ∧ c.InStep x x'
  admissible := .trivial
  ofExpression h := ⟨h.1.ofExpression, h.2⟩
  ofStatement h := ⟨h.1.ofStatement, h.2⟩
  ret h := ⟨.pure h, .pure _⟩
  bind hx hf := ⟨hx.1.bind fun a ha => (hf a ha).1, .bind hx.1 hx.2 fun a ha => (hf a ha).2⟩
  giveUp := ⟨(Contract.frames False).simulation.giveUp, fun _ _ _ => .exhausted⟩
  view f hf := by
    refine ⟨(Contract.frames False).simulation.view f hf, fun s s' hs => ?_⟩
    rw [Routine.view_apply, Routine.view_apply, hs.core]
    exact .done (f s.core) hs
  update hf := ⟨(Contract.frames False).simulation.update hf, .update hf⟩
  raise he := ⟨.raise he, .raise _⟩
  stray _ _ := by
    refine ⟨fun s _ => ⟨rfl, Signal.Holds.trivial _, False.elim, .ofCore rfl⟩, ?_⟩
    rintro s s' ⟨d, rfl, hd⟩
    exact .exit _ ⟨d, rfl, hd⟩
  jump hj := ⟨(Contract.frames False).simulation.jump hj, .leave _⟩
  ending := ⟨(Contract.frames False).simulation.ending, .leave _⟩
  returning hv := ⟨(Contract.frames False).simulation.returning hv, .leave _⟩
  intercept hx hok hjump hrest :=
    ⟨hx.1.intercept (fun a ha => (hok a ha).1) (fun signal hj => (hjump signal hj).1)
        fun signal hj => ⟨(hrest signal hj).1, (hrest signal hj).1⟩,
      .intercept hx.1 hx.2 (fun a ha => (hok a ha).2) (fun signal hj => (hjump signal hj).2) hrest⟩
  checkpoint statement := ⟨.checkpoint statement, .checkpoint statement⟩
  catching hx hh :=
    ⟨hx.1.catching fun e he => (hh e he).1,
      .catching hx.1 hx.2 fun e => (hh e fun _ _ => trivial).2⟩
  printing hx := ⟨hx.1.printing, .printing hx.2⟩
  crashing hx := ⟨hx.1.crashing, .crashing hx.2⟩
  calling hx := ⟨hx.1.calling, .calling hx.2⟩

def ofStart (mayExit : Prop) (s : Session) : Shadow :=
  ⟨mayExit, s.options.stopOnCrash, s.debugger.channel?, s.breaks⟩

end Shadow

/-- The session in which every answer is to go on and no error is handed to the debugger. -/
def Session.undisturbed (s : Session) : Session :=
  { s.disarmed with suspension := .host (fun _ => .proceed) [] }

namespace Shadow

theorem beside_undisturbed (mayExit : Prop) {s : Session}
    (h : mayExit ∨ s.suspension.NeverExits ∧ s.debugger.NeverExits) :
    (ofStart mayExit s).Beside none s s.undisturbed := by
  refine ⟨s.undisturbed.surroundings, rfl, ?_⟩
  exact {
    armed := (Bool.and_true _).symm, lasting := h, channel := rfl, handed := rfl, unarmed := rfl
    proceeds := ⟨[], rfl⟩, unbroken := rfl, written := fun channel => .refl _
    same := fun _ _ => rfl }

theorem exec {c : Shadow} (hlasting : ¬ c.mayExit) {s s' : Session} (hs : c.Beside none s s')
    (n : Nat) (statements : List Statement) (args : List Value) :
    (s.exec n statements args = none ∧ s'.exec n statements args = none) ∨
      ∃ r t t' handed, s.exec n statements args = some (r, t) ∧
        s'.exec n statements args = some (r, t') ∧ c.Beside handed t t' := by
  have hfollows := (c.simulation.program n statements fun v (_ : v ∈ args) => trivial).2 s s' hs
  rw [Session.exec, Session.exec, Run.script_apply, Run.script_apply]
  generalize Run.program n statements args s = o at hfollows ⊢
  generalize Run.program n statements args s' = o' at hfollows ⊢
  cases hfollows with
  | done v ht =>
    exact .inr ⟨_, _, _, none, rfl, rfl, ht⟩
  | exit signal ht =>
    cases signal with
    | returning | ending | debugExit | error => exact .inr ⟨_, _, _, none, rfl, rfl, ht⟩
    | _ =>
      obtain ⟨d, rfl, hd⟩ := ht
      exact .inr ⟨_, _, _, none, rfl, rfl, Beside.note ⟨d, rfl, hd⟩ _⟩
  | crashed ht _ =>
    exact .inr ⟨_, _, _, _, rfl, rfl, ht⟩
  | ended hexit => exact absurd hexit hlasting
  | exhausted =>
    exact .inl ⟨rfl, rfl⟩

end Shadow

/-- Take any session, whose source of answers never answers to end the run and whose debugger never
decides to, and any script. Then the script comes to an end exactly if it does when every answer is
to go on and no error is handed to the debugger, in which case it never pauses. Both runs end with
the same result or the same error, and with the same collections, bindings and recorded errors. They
wrote the same to every channel that the debugger does not write to; what is written to its channel
is there, with what the debugger wrote in between. -/
theorem debugging_changes_nothing (n : Nat) (statements : List Statement) (args : List Value)
    (s : Session) (hsuspension : s.suspension.NeverExits) (hdebugger : s.debugger.NeverExits) :
    (s.exec n statements args = none ∧ s.undisturbed.exec n statements args = none) ∨
      ∃ r t t', s.exec n statements args = some (r, t) ∧
        s.undisturbed.exec n statements args = some (r, t') ∧
        t'.core = t.core ∧ t'.log = t.log ∧ t'.breaks = s.breaks ∧
        (∀ channel, s.debugger.channel? ≠ some channel → t.output channel = t'.output channel) ∧
        ∀ channel, (t'.output channel).toList.Sublist (t.output channel).toList := by
  have hstart := Shadow.beside_undisturbed False (.inr ⟨hsuspension, hdebugger⟩)
  rcases Shadow.exec id hstart n statements args with hnone | ⟨r, t, t', handed, ht, ht', hbeside⟩
  · exact .inl hnone
  · obtain ⟨d, rfl, hd⟩ := hbeside
    have houtput (channel : Channel) : (t.surrounded d).output channel = d.output channel := by
      cases channel <;> rfl
    refine .inr ⟨r, t, _, ht, ht', rfl, rfl, hd.unbroken, ?_, ?_⟩
    · exact fun channel hchannel => (hd.same channel hchannel).trans (houtput channel).symm
    · exact fun channel => houtput channel ▸ hd.written channel

/-- A session in which a host pauses the run before every statement, and whose console reads no
commands and is called for errors. -/
def Session.troubled : Session :=
  { Session.new { Options.standard with entryPoint := false, stopOnCrash := true } with
    suspension := .host (fun _ => .pause) [], debugger := .console [] .console }

/-- A script that calls what is not a function. -/
def failingScript : List Statement :=
  [.expression (.call (.literal .invalid .builtin) [] false .builtin .builtin)]

theorem debugging_changes_nothing_of_troubled :
    ∃ (e : ScriptError) (t t' : Session),
      Session.troubled.exec 3 failingScript [] = some (.error e, t) ∧
        Session.troubled.undisturbed.exec 3 failingScript [] = some (.error e, t') ∧
        t.breaks.length = 2 ∧ t'.breaks = [] ∧ t'.log = t.log ∧ t.stdout = t'.stdout := by
  have hrun : ∃ (e : ScriptError) (t : Session),
      Session.troubled.exec 3 failingScript [] = some (.error e, t) ∧ t.breaks.length = 2 :=
    ⟨_, _, rfl, rfl⟩
  obtain ⟨e, t, hrun, hpauses⟩ := hrun
  rcases debugging_changes_nothing 3 failingScript [] Session.troubled
      (Suspension.neverExits_host fun _ => nofun) (Debugger.neverExits_console nofun) with
    ⟨hnone, -⟩ | ⟨r, u, t', hsame, hshadow, -, hlog, hbreaks, houtput, -⟩
  · rw [hrun] at hnone
    cases hnone
  · rw [hrun] at hsame
    cases hsame
    exact ⟨e, t, t', hrun, hshadow, hpauses, hbreaks, hlog, houtput .stdout nofun⟩

end BrightScript
