import BrightScript.Proofs.Mirror.Statement
import BrightScript.Proofs.Spelling.AsWritten
import BrightScript.Syntax.Program

/-!
# The column of the cursor

The column is moved while the line of a `print` is worked out, but the line is written at its end.
Inside the items of a `print` the cursor therefore stands where the output will end once the line so
far is written: it tracks the output with some text pending.

That is lost in two ways. A function called by an item may itself print: its text is written ahead
of the pending line, though the column has moved over the line first. And when an item fails, the
cursor is taken back to where the `print` began, also over what functions called by its items wrote.
Either does no harm where the output ends in the same column all the same.

To say of every statement that it is started with the cursor in place, the run is followed by one
that is told the pending text (`Evaluator.tracked`). It gives up where one of the two does harm, and
does something else wherever a statement is started with the cursor out of place. Unless it gives
up, it is the run itself.
-/

namespace BrightScript

/-! ## Cursors -/

namespace Session

/-- The column where the output ends once some more text is written. -/
def cursor (s : Session) (pending : String) : Nat :=
  columnAfter 0 (s.stdout ++ pending)

/-- The column is the one where the output ends once the pending text is written. -/
def Tracks (s : Session) (pending : String) : Prop :=
  s.column = s.cursor pending

instance (s : Session) (pending : String) : Decidable (s.Tracks pending) :=
  inferInstanceAs (Decidable (s.column = s.cursor pending))

theorem columnAfter_append (column : Nat) (a b : String) :
    columnAfter column (a ++ b) = columnAfter (columnAfter column a) b := by
  rw [columnAfter, String.toList_append, List.foldl_append, columnAfter, columnAfter]

/-- A text without a newline moves the cursor by its length. -/
theorem columnAfter_of_notMem (column : Nat) {text : String} (h : '\n' ∉ text.toList) :
    columnAfter column text = column + text.toList.length := by
  rw [columnAfter]
  generalize text.toList = characters at h ⊢
  induction characters generalizing column with
  | nil => rfl
  | cons c rest ih =>
    obtain ⟨hc, hrest⟩ := List.ne_and_not_mem_of_not_mem_cons h
    rw [List.foldl_cons, if_neg hc.symm, ih _ hrest, List.length_cons]
    omega

theorem columnAfter_blanks (column count : Nat) :
    columnAfter column (Text.blanks count) = column + count := by
  have hblanks : (Text.blanks count).toList = List.replicate count ' ' := String.toList_ofList
  have hnone : '\n' ∉ (Text.blanks count).toList := by
    rw [hblanks, List.mem_replicate]
    exact fun h => absurd h.2 (by decide)
  rw [columnAfter_of_notMem column hnone, hblanks, List.length_replicate]

theorem cursor_append (s : Session) (pending piece : String) :
    s.cursor (pending ++ piece) = columnAfter (s.cursor pending) piece := by
  rw [cursor, ← String.append_assoc, columnAfter_append, cursor]

/-- Text written ahead of pending text does not move the cursor elsewhere than text written after
it, if one of them is empty or both stay on the line. -/
theorem cursor_swap (s : Session) {pending line : String}
    (h : pending = "" ∨ line = "" ∨ '\n' ∉ (pending ++ line).toList) :
    s.cursor (line ++ pending) = s.cursor (pending ++ line) := by
  obtain rfl | rfl | hnone := h
  · rw [String.append_empty, String.empty_append]
  · rw [String.append_empty, String.empty_append]
  · have hswapped : '\n' ∉ (line ++ pending).toList := by
      rw [String.toList_append, List.mem_append, or_comm, ← List.mem_append,
        ← String.toList_append]
      exact hnone
    rw [cursor, cursor, columnAfter_append 0 s.stdout, columnAfter_append 0 s.stdout,
      columnAfter_of_notMem _ hswapped, columnAfter_of_notMem _ hnone, String.toList_append,
      String.toList_append, List.length_append, List.length_append,
      Nat.add_comm line.toList.length]

variable {s : Session} {pending : String}

theorem Tracks.advance (h : s.Tracks pending) (piece : String) :
    (s.advance piece).Tracks (pending ++ piece) :=
  (congrArg (columnAfter · piece) h).trans (s.cursor_append pending piece).symm

theorem Tracks.silent {t : Session} (h : s.Tracks pending) (hsilent : s.Silent t) :
    t.Tracks pending := by
  rw [Tracks, cursor, hsilent.column, hsilent.stdout]
  exact h

/-- A line is written ahead of pending text. -/
theorem Tracks.write {line : String} (h : s.Tracks (pending ++ line))
    (hswap : s.cursor (line ++ pending) = s.cursor (pending ++ line)) :
    (s.write .stdout line).Tracks pending := by
  show s.column = columnAfter 0 (s.stdout ++ line ++ pending)
  rw [String.append_assoc]
  exact h.trans hswap.symm

/-- What depends on the column depends on where the output ends once the pending text is written. -/
structure Placed (s : Session) (pending : String) : Prop where
  comma : ∀ ev : Evaluator, ∃ blanks, ev.printItem .comma s = .done blanks s ∧
    s.cursor (pending ++ blanks) = (s.cursor pending / Run.zone + 1) * Run.zone
  tab : ∀ args : List Value, Library.integerAt args 0 ≤ Library.maxTabColumn →
    ∃ blanks, Builtin.tab.invoke args s = .done (.string blanks) s ∧
      (s.cursor (pending ++ blanks) : Int) =
        max (s.cursor pending : Int) (Library.integerAt args 0)
  pos : ∀ args : List Value,
    Builtin.pos.invoke args s = .done (Library.int32 (s.cursor pending)) s

theorem Tracks.placed (h : s.Tracks pending) : s.Placed pending where
  comma ev := by
    refine ⟨Text.blanks (Run.zone - s.column % Run.zone), rfl, ?_⟩
    rw [cursor_append, columnAfter_blanks, ← h, Run.zone]
    omega
  tab args hmax := by
    have htab : Builtin.tab.invoke args s =
        if Library.integerAt args 0 ≤ s.column then .done (.string "") s
        else .done (.string (Text.blanks ((Library.integerAt args 0).toNat - s.column))) s := by
      show Library.tab (Library.integerAt args 0) s = _
      rw [Library.tab, Routine.bind_apply, Routine.view_apply]
      dsimp only
      split
      · rfl
      · rw [if_neg (by omega)]
        rfl
    rw [htab, h]
    split
    · refine ⟨"", rfl, ?_⟩
      rw [String.append_empty]
      omega
    · refine ⟨_, rfl, ?_⟩
      rw [cursor_append, columnAfter_blanks]
      omega
  pos args := by
    rw [← h]
    rfl

end Session

/-- The debugger does not write to the standard output. -/
def Debugger.Apart : Debugger → Prop
  | .console _ output => output ≠ .stdout
  | .scripted _ | .host _ _ => True

theorem Session.apart_verdict {s : Session} (h : s.debugger.Apart) (pause : Break) :
    (s.verdict pause).debugger.Apart ∧ (s.verdict pause).channel ≠ .stdout := by
  unfold Session.verdict
  rcases hd : s.debugger with (_ | ⟨action, rest⟩) | ⟨input, output⟩ | ⟨decide, seen⟩
  · exact ⟨trivial, fun hc => (by cases hc)⟩
  · exact ⟨trivial, fun hc => (by cases hc)⟩
  · rw [hd] at h
    exact ⟨h, h⟩
  · exact ⟨trivial, fun hc => (by cases hc)⟩

/-! ## Runs that track the output -/

namespace Evaluator

variable (ev : String → Evaluator)

/-- The text of the items after some text, each worked out by the evaluator for the text before
it. -/
def itemsUnder (line : String) : List PrintItem → Run String
  | [] => pure line
  | item :: rest => do
    let piece ← (ev line).printItem item
    Routine.modify (·.advance piece)
    itemsUnder (line ++ piece) rest

/-- The text of a whole `print`. -/
def lineUnder (items : List PrintItem) : Run String := do
  let line ← itemsUnder ev "" items
  if Run.staysOnLine items then return line
  else
    Routine.modify (·.advance "\n")
    return line ++ "\n"

/-- What a `print` does once its helpers are bound, given the run that works out the line. It gives
up where the output ends in another column because the line is written ahead of the pending text, or
because of what was written before an item failed. -/
def printingUnder (pending : String) (x : Run String) : Run Unit :=
  fun s =>
    match x s with
    | .done line t =>
      if t.cursor (line ++ pending) = t.cursor (pending ++ line) then
        .done () ((Run.withoutHelpers t).write .stdout line)
      else .exhausted
    | .exit signal t =>
      if t.cursor pending = s.cursor pending then
        .exit signal { Run.withoutHelpers t with column := s.column }
      else .exhausted
    | .exhausted => .exhausted

def performUnder (budget : Nat) (pending : String) (statement : Statement) : Run Unit :=
  match statement with
  | .print items _ => do
    Run.bindHelper .tab
    Run.bindHelper .pos
    printingUnder pending (lineUnder (fun line => ev (pending ++ line)) items)
  | statement => (ev pending).perform budget statement

/-- Evaluation under a budget while some text is pending. A statement that is started with the
cursor out of place is replaced by something else. -/
def tracked (otherwise : String → Statement → Run Unit) : (n : Nat) → (pending : String) → Evaluator
  | 0, _ => ofBudget 0
  | n + 1, pending =>
    ⟨(tracked otherwise n pending).expression n,
     fun statement s =>
      if s.Tracks pending then
        (tracked otherwise n pending).around n statement
          (performUnder (tracked otherwise n) n pending statement) s
      else otherwise pending statement s⟩

end Evaluator

/-- Runs beside runs that track the output with some text pending. -/
def Mirror.cursor (pending : String) : Mirror where
  sp := .asWritten
  fit s := s.Tracks pending ∧ s.debugger.Apart
  mayGiveUp := True
  silent := by
    rintro s t hsilent ⟨htracks, hapart⟩
    refine ⟨htracks.silent hsilent, ?_⟩
    rw [hsilent.debugger]
    exact hapart
  consult := by
    rintro s pause ⟨htracks, hapart⟩
    refine ⟨s.consult_spelled pause s.debugger.ignores_asWritten, ?_⟩
    obtain ⟨hdebugger, hchannel⟩ := Session.apart_verdict hapart pause
    rw [Session.consult]
    cases hc : (s.verdict pause).channel with
    | stdout => exact absurd hc hchannel
    | stderr | console => exact ⟨htracks, hdebugger⟩

namespace Mirror

section Printing

variable {ev : String → Evaluator} {ev' : Evaluator} {s : Session}
  (h : ∀ pending, (cursor pending).Related (ev pending) ev') (pending : String)
include h

/-- The items of a `print`: when they are worked out, all of their text is pending. -/
theorem cursor_items (line : String) (items : List PrintItem)
    (hs : (cursor (pending ++ line)).fit s) :
    ∃ after,
      (cursor after).Ends id (Evaluator.itemsUnder (fun line => ev (pending ++ line)) line items s)
        (ev'.printItems line (PrintItem.spelledAll .asWritten items) (s.spelled .asWritten)) ∧
      ∀ text t, Evaluator.itemsUnder (fun line => ev (pending ++ line)) line items s =
        .done text t → after = pending ++ text := by
  induction items generalizing line s with
  | nil =>
    refine ⟨pending ++ line, .done line hs, fun text t hdone => ?_⟩
    cases hdone
    rfl
  | cons item rest ih =>
    have hitem : (cursor (pending ++ line)).Ends id ((ev (pending ++ line)).printItem item s)
        (ev'.printItem (item.spelled .asWritten) (s.spelled .asWritten)) :=
      (cursor (pending ++ line)).printItem (h (pending ++ line)) item s hs
    rw [Evaluator.itemsUnder, PrintItem.spelledAll, Evaluator.printItems, Routine.bind_apply,
      Routine.bind_apply]
    generalize (ev (pending ++ line)).printItem item s = o,
      ev'.printItem (item.spelled .asWritten) (s.spelled .asWritten) = o' at hitem ⊢
    cases hitem with
    | gaveUp hgive => exact ⟨pending, .gaveUp hgive, fun _ _ hdone => (by cases hdone)⟩
    | done piece ht =>
      refine ih (line ++ piece) ⟨?_, ht.2⟩
      rw [← String.append_assoc]
      exact ht.1.advance piece
    | exit signal ht =>
      exact ⟨pending ++ line, .exit signal ht, fun _ _ hdone => (by cases hdone)⟩
    | exhausted => exact ⟨pending, .exhausted, fun _ _ hdone => (by cases hdone)⟩

theorem cursor_line (items : List PrintItem) (hs : (cursor pending).fit s) :
    ∃ after,
      (cursor after).Ends id (Evaluator.lineUnder (fun line => ev (pending ++ line)) items s)
        (ev'.printLine (PrintItem.spelledAll .asWritten items) (s.spelled .asWritten)) ∧
      ∀ text t, Evaluator.lineUnder (fun line => ev (pending ++ line)) items s =
        .done text t → after = pending ++ text := by
  have hstart : (cursor (pending ++ "")).fit s := by
    rw [String.append_empty]
    exact hs
  obtain ⟨after, hends, hafter⟩ := cursor_items h pending "" items hstart
  rw [Evaluator.lineUnder, Evaluator.printLine, Run.staysOnLine_spelledAll, Routine.bind_apply,
    Routine.bind_apply]
  generalize Evaluator.itemsUnder (fun line => ev (pending ++ line)) "" items s = o,
    ev'.printItems "" (PrintItem.spelledAll .asWritten items) (s.spelled .asWritten) = o'
    at hends hafter ⊢
  cases hends with
  | gaveUp hgive => exact ⟨after, .gaveUp hgive, fun _ _ hdone => (by cases hdone)⟩
  | done line ht =>
    obtain rfl := hafter line _ rfl
    dsimp only [id]
    split
    · refine ⟨_, .done line ht, fun text t hdone => ?_⟩
      cases hdone
      rfl
    · refine ⟨pending ++ (line ++ "\n"), .done (line ++ "\n") ⟨?_, ht.2⟩, fun text t hdone => ?_⟩
      · rw [← String.append_assoc]
        exact ht.1.advance "\n"
      · cases hdone
        rfl
  | exit signal ht => exact ⟨after, .exit signal ht, fun _ _ hdone => (by cases hdone)⟩
  | exhausted => exact ⟨after, .exhausted, fun _ _ hdone => (by cases hdone)⟩

/-- A `print` that does not give up is the `print`. -/
theorem cursor_printing (items : List PrintItem) :
    (cursor pending).Follows id
      (Evaluator.printingUnder pending
        (Evaluator.lineUnder (fun line => ev (pending ++ line)) items))
      (Run.printing (ev'.printLine (PrintItem.spelledAll .asWritten items))) := by
  intro s hs
  obtain ⟨after, hends, hafter⟩ := cursor_line h pending items hs
  have hspelled : s.spelled (cursor pending).sp = s.spelled .asWritten := rfl
  rw [Evaluator.printingUnder, Run.printing, hspelled]
  generalize Evaluator.lineUnder (fun line => ev (pending ++ line)) items s = o,
    ev'.printLine (PrintItem.spelledAll .asWritten items) (s.spelled .asWritten) = o'
    at hends hafter ⊢
  cases hends with
  | gaveUp hgive => exact .gaveUp hgive
  | @done line t ht =>
    obtain rfl := hafter line t rfl
    dsimp only
    rw [show (cursor (pending ++ line)).sp = .asWritten from rfl, Run.withoutHelpers_spelled]
    split
    · next hswap => exact .done () ⟨ht.1.write hswap, ht.2⟩
    · exact .gaveUp trivial
  | @exit signal t ht =>
    dsimp only
    rw [show (cursor after).sp = .asWritten from rfl, Run.withoutHelpers_spelled]
    split
    · next hback => exact .exit signal ⟨hs.1.trans hback.symm, ht.2⟩
    · exact .gaveUp trivial
  | exhausted => exact .exhausted

/-- Where a `print` gives up after its line is worked out, the `print` itself leaves the cursor out
of place. -/
theorem cursor_lost (items : List PrintItem) (hs : (cursor pending).fit s)
    (hline : Evaluator.lineUnder (fun line => ev (pending ++ line)) items s ≠ .exhausted)
    (hgave : Evaluator.printingUnder pending
      (Evaluator.lineUnder (fun line => ev (pending ++ line)) items) s = .exhausted) :
    ∃ t, (Run.printing (ev'.printLine items) s).state? = some t ∧ ¬ t.Tracks pending := by
  obtain ⟨after, hends, hafter⟩ := cursor_line h pending items hs
  rw [PrintItem.spelledAll_asWritten, Session.spelled_asWritten] at hends
  rw [Evaluator.printingUnder] at hgave
  rw [Run.printing]
  generalize Evaluator.lineUnder (fun line => ev (pending ++ line)) items s = o,
    ev'.printLine items s = o' at hends hafter hline hgave ⊢
  cases hends with
  | gaveUp | exhausted => exact absurd rfl hline
  | @done line t ht =>
    obtain rfl := hafter line t rfl
    dsimp only at hgave
    split at hgave
    · cases hgave
    · next hswap =>
      refine ⟨_, rfl, fun htracks => hswap ?_⟩
      rw [show (cursor (pending ++ line)).sp = .asWritten from rfl, Session.spelled_asWritten]
        at htracks
      have hwritten : t.column = Session.columnAfter 0 (t.stdout ++ line ++ pending) := htracks
      rw [String.append_assoc] at hwritten
      exact hwritten.symm.trans ht.1
  | @exit signal t ht =>
    dsimp only at hgave
    split at hgave
    · cases hgave
    · next hback =>
      refine ⟨_, rfl, fun htracks => hback ?_⟩
      have hcolumn : s.column = t.cursor pending := htracks
      exact hcolumn.symm.trans hs.1

theorem cursor_perform (budget : Nat) (statement : Statement) :
    (cursor pending).Follows id (Evaluator.performUnder ev budget pending statement)
      (ev'.perform budget (statement.spelled .asWritten)) := by
  unfold Evaluator.performUnder
  split
  · next items location =>
    show (cursor pending).Follows id _ (ev'.print (PrintItem.spelledAll .asWritten items))
    rw [Evaluator.print]
    refine (cursor pending).bind ((cursor pending).bindHelper .tab) fun _ => ?_
    refine (cursor pending).bind ((cursor pending).bindHelper .pos) fun _ => ?_
    exact cursor_printing h pending items
  · next hother =>
    refine (cursor pending).perform (h pending) budget statement fun items location hprint => ?_
    exact absurd hprint (hother items location)

end Printing

theorem cursor_tracked (otherwise : String → Statement → Run Unit) (n : Nat) (pending : String) :
    (cursor pending).Related (Evaluator.tracked otherwise n pending) (.ofBudget n) := by
  induction n generalizing pending with
  | zero => exact ⟨fun _ => (cursor pending).giveUp _, fun _ => (cursor pending).giveUp id⟩
  | succ n ih =>
    refine ⟨fun e => (cursor pending).expression (ih pending) n e, fun statement s hs => ?_⟩
    have hrule := (cursor pending).around (ih pending) n statement
      (cursor_perform ih pending n statement) s hs
    have hplaced : (Evaluator.tracked otherwise (n + 1) pending).execute statement s =
        (Evaluator.tracked otherwise n pending).around n statement
          (Evaluator.performUnder (Evaluator.tracked otherwise n) n pending statement) s :=
      if_pos hs.1
    rw [hplaced]
    exact hrule

end Mirror

/-! ## The column of the cursor is where the output ends -/

/-- The first of two runs gave up, or both ended the same way, with the cursor in place. -/
def Outcome.InPlace {α : Type} (pending : String) (o o' : Outcome Signal Session α) : Prop :=
  o = .exhausted ∨ o' = o ∧ ∀ t, o.state? = some t → t.Tracks pending ∧ t.debugger.Apart

theorem Mirror.Ends.inPlace {α : Type} {pending : String} {image : α → α}
    {o o' : Outcome Signal Session α} (h : (Mirror.cursor pending).Ends image o o')
    (himage : ∀ a, image a = a) : o.InPlace pending o' := by
  have hsp : (Mirror.cursor pending).sp = .asWritten := rfl
  cases h with
  | gaveUp | exhausted => exact .inl rfl
  | done a ht =>
    rw [himage, hsp, Session.spelled_asWritten]
    exact .inr ⟨rfl, fun _ hstate => Option.some.inj hstate ▸ ht⟩
  | exit signal ht =>
    rw [hsp, Session.spelled_asWritten, Signal.spelled_asWritten]
    exact .inr ⟨rfl, fun _ hstate => Option.some.inj hstate ▸ ht⟩

theorem Finish.spelled_asWritten (f : Finish) : f.spelled .asWritten = f := by
  rw [Finish.spelled, Value.spelled_asWritten]

/-- Started with the cursor in place, a run keeps it in place at every statement, unless a `print`
puts it out of place. -/
theorem output_column (otherwise : String → Statement → Run Unit) (n : Nat) {s : Session}
    {pending : String} (htracks : s.Tracks pending) (hapart : s.debugger.Apart) :
    s.Placed pending ∧
    (∀ e, ((Evaluator.tracked otherwise n pending).evaluate e s).InPlace pending
      ((Evaluator.ofBudget n).evaluate e s)) ∧
    (∀ statement, ((Evaluator.tracked otherwise n pending).execute statement s).InPlace pending
      ((Evaluator.ofBudget n).execute statement s)) ∧
    (∀ statements args,
      ((Evaluator.tracked otherwise n pending).script n statements args s).InPlace pending
        (Run.script n statements args s)) ∧
    (∀ items,
      Evaluator.lineUnder (fun line => Evaluator.tracked otherwise n (pending ++ line)) items s ≠
        .exhausted →
      Evaluator.printingUnder pending
          (Evaluator.lineUnder (fun line => Evaluator.tracked otherwise n (pending ++ line)) items)
          s = .exhausted →
      ∃ t, (Run.printing ((Evaluator.ofBudget n).printLine items) s).state? = some t ∧
        ¬ t.Tracks pending) ∧
    (∀ line, pending = "" ∨ line = "" ∨ '\n' ∉ (pending ++ line).toList →
      s.cursor (line ++ pending) = s.cursor (pending ++ line)) := by
  have hrelated := Mirror.cursor_tracked otherwise n
  have hs : (Mirror.cursor pending).fit s := ⟨htracks, hapart⟩
  refine ⟨htracks.placed, fun e => ?_, fun statement => ?_, fun statements args => ?_,
    fun items => Mirror.cursor_lost hrelated pending items hs, fun line => s.cursor_swap⟩
  · have hends := ((hrelated pending).evaluate e s hs).inPlace Value.spelled_asWritten
    rw [show (Mirror.cursor pending).sp = .asWritten from rfl, Expr.spelled_asWritten,
      Session.spelled_asWritten] at hends
    exact hends
  · have hends := ((hrelated pending).execute statement s hs).inPlace fun _ => rfl
    rw [show (Mirror.cursor pending).sp = .asWritten from rfl, Statement.spelled_asWritten,
      Session.spelled_asWritten] at hends
    exact hends
  · have hends := ((Mirror.cursor pending).script (hrelated pending) n statements args s hs).inPlace
      Finish.spelled_asWritten
    have hargs : args.map (Value.spelled .asWritten) = args := by
      rw [funext Value.spelled_asWritten, List.map_id']
    rw [show (Mirror.cursor pending).sp = .asWritten from rfl, Statement.spelledAll_asWritten,
      Session.spelled_asWritten, hargs] at hends
    exact hends

/-- The statements of a script, if its lines can be read. -/
def statementsOf (lines : List String) : List Statement :=
  (parse "main.brs" ("\n".intercalate lines)).toOption.getD []

/-- A function called by an item prints on the same line, and a later item fails. -/
def callingMain : List Statement :=
  statementsOf
    ["sub main()", "print \"ab\"; f();", "try", "print \"d\"; g()", "catch e", "end try",
      "print pos(0)", "end sub", "function f()", "print \"xy\";", "return \"q\"", "end function",
      "function g()", "throw \"no\"", "end function"]

theorem output_column_of_callingMain :
    (Session.new .standard).Tracks "" ∧ (Session.new .standard).debugger.Apart ∧
    ∃ t, (Run.script 14 callingMain [] (Session.new .standard)).state? = some t ∧
      t.stdout = "xyabq 5\n" ∧ t.Tracks "" := by
  have htracks : (Session.new .standard).Tracks "" := rfl
  have hapart : (Session.new .standard).debugger.Apart := trivial
  have hprinted : (((Evaluator.tracked (fun _ _ => Routine.giveUp) 14 "").script 14 callingMain []
      (Session.new .standard)).state?.map Session.stdout) = some "xyabq 5\n" := by
    decide +kernel
  obtain ⟨t, ht, hstdout⟩ := Option.map_eq_some_iff.1 hprinted
  obtain ⟨-, -, -, hscript, -⟩ := output_column (fun _ _ => Routine.giveUp) 14 htracks hapart
  refine ⟨htracks, hapart, t, ?_⟩
  obtain hgave | ⟨hsame, hplace⟩ := hscript callingMain []
  · rw [hgave] at ht
    cases ht
  · rw [hsame]
    exact ⟨ht, hstdout, (hplace t ht).1⟩

/-- The output of a script and the column it leaves the cursor in. -/
def printedBy (lines : List String) : Option (String × Nat) :=
  ((Session.new .standard).exec 14 (statementsOf lines) []).map fun (_, t) => (t.stdout, t.column)

/-- The cursor is out of place after a `print` in which a called function ends a line of its own,
and after one in which it does so and fails. -/
theorem output_column_lost :
    (printedBy
        ["sub main()", "print \"ab\"; f();", "end sub",
          "function f()", "print \"xy\"", "return \"q\"", "end function"] =
        some ("xy\nabq", 1) ∧
      Session.columnAfter 0 "xy\nabq" = 3) ∧
    printedBy
        ["sub main()", "print \"abc\";", "try", "print \"d\"; f()", "catch e", "end try", "end sub",
          "function f()", "print \"xy\"", "throw \"no\"", "end function"] =
        some ("abcxy\n", 3) ∧
      Session.columnAfter 0 "abcxy\n" = 0 := by
  decide +kernel

end BrightScript
