import BrightScript.Proofs.Spelling.Session

/-!
# Names as they are written

Spelling names as they are written changes nothing: not a script, not a value and not a session.
-/

namespace BrightScript

/-! ## Scripts -/

theorem Identifier.spelled_asWritten (i : Identifier) : i.spelled .asWritten = i :=
  rfl

theorem Identifier.spelledTarget_asWritten (i : Identifier) : i.spelledTarget .asWritten = i := by
  unfold spelledTarget
  split <;> rfl

mutual

theorem Expr.spelled_asWritten : ∀ e : Expr, e.spelled .asWritten = e
  | .binary left op right location => by
    rw [Expr.spelled, left.spelled_asWritten, right.spelled_asWritten]
  | .call callee args optional closing location => by
    rw [Expr.spelled, callee.spelled_asWritten, Expr.spelledAll_asWritten args]
  | .procedure body => by rw [Expr.spelled, body.spelled_asWritten]
  | .dottedGet object name optional location => by
    rw [Expr.spelled, object.spelled_asWritten, name.spelled_asWritten]
  | .attributeGet object name location => by rw [Expr.spelled, object.spelled_asWritten]
  | .indexedGet object indexes optional closing location => by
    rw [Expr.spelled, object.spelled_asWritten, Expr.spelledAll_asWritten indexes]
  | .grouping inner location => by rw [Expr.spelled, inner.spelled_asWritten]
  | .literal value location => rfl
  | .arrayLiteral elements location => by rw [Expr.spelled, Expr.spelledAll_asWritten elements]
  | .assocLiteral members location => by rw [Expr.spelled, Member.spelledAll_asWritten members]
  | .unary op operand location => by rw [Expr.spelled, operand.spelled_asWritten]
  | .reference name => by rw [Expr.spelled, name.spelled_asWritten]

theorem Expr.spelledAll_asWritten : ∀ es : List Expr, Expr.spelledAll .asWritten es = es
  | [] => rfl
  | e :: rest => by rw [Expr.spelledAll, e.spelled_asWritten, Expr.spelledAll_asWritten rest]

theorem Expr.spelledOption_asWritten : ∀ e : Option Expr, Expr.spelledOption .asWritten e = e
  | none => rfl
  | some e => by rw [Expr.spelledOption, e.spelled_asWritten]

theorem Member.spelledAll_asWritten :
    ∀ members : List Member, Member.spelledAll .asWritten members = members
  | [] => rfl
  | ⟨name, value⟩ :: rest => by
    rw [Member.spelledAll, value.spelled_asWritten, Member.spelledAll_asWritten rest]

theorem Parameter.spelledAll_asWritten :
    ∀ parameters : List Parameter, Parameter.spelledAll .asWritten parameters = parameters
  | [] => rfl
  | ⟨name, kind, default?⟩ :: rest => by
    rw [Parameter.spelledAll, Expr.spelledOption_asWritten default?,
      Parameter.spelledAll_asWritten rest]

theorem Procedure.spelled_asWritten : ∀ p : Procedure, p.spelled .asWritten = p
  | ⟨name, parameters, returns, isSub, body, location⟩ => by
    rw [Procedure.spelled, Parameter.spelledAll_asWritten parameters, body.spelled_asWritten]

theorem Block.spelled_asWritten : ∀ b : Block, b.spelled .asWritten = b
  | ⟨statements, location⟩ => by rw [Block.spelled, Statement.spelledAll_asWritten statements]

theorem Block.spelledOption_asWritten : ∀ b : Option Block, Block.spelledOption .asWritten b = b
  | none => rfl
  | some b => by rw [Block.spelledOption, b.spelled_asWritten]

theorem Clause.spelledAll_asWritten :
    ∀ clauses : List Clause, Clause.spelledAll .asWritten clauses = clauses
  | [] => rfl
  | ⟨condition, block⟩ :: rest => by
    rw [Clause.spelledAll, condition.spelled_asWritten, block.spelled_asWritten,
      Clause.spelledAll_asWritten rest]

theorem PrintItem.spelled_asWritten : ∀ item : PrintItem, item.spelled .asWritten = item
  | .expression value => by rw [PrintItem.spelled, value.spelled_asWritten]
  | .comma | .semicolon => rfl

theorem PrintItem.spelledAll_asWritten :
    ∀ items : List PrintItem, PrintItem.spelledAll .asWritten items = items
  | [] => rfl
  | item :: rest => by
    rw [PrintItem.spelledAll, item.spelled_asWritten, PrintItem.spelledAll_asWritten rest]

theorem Statement.spelled_asWritten : ∀ s : Statement, s.spelled .asWritten = s
  | .assignment name value location => by
    rw [Statement.spelled, name.spelledTarget_asWritten, value.spelled_asWritten]
  | .dim name dimensions location => by
    rw [Statement.spelled, name.spelledTarget_asWritten, Expr.spelledAll_asWritten dimensions]
  | .block body => by rw [Statement.spelled, body.spelled_asWritten]
  | .expression value => by rw [Statement.spelled, value.spelled_asWritten]
  | .declaration name body => by rw [Statement.spelled, body.spelled_asWritten]
  | .conditional condition thenBranch elseIfs elseBranch location => by
    rw [Statement.spelled, condition.spelled_asWritten, thenBranch.spelled_asWritten,
      Clause.spelledAll_asWritten elseIfs, Block.spelledOption_asWritten elseBranch]
  | .increment target op location => by rw [Statement.spelled, target.spelled_asWritten]
  | .print items location => by rw [Statement.spelled, PrintItem.spelledAll_asWritten items]
  | .goto label location => by rw [Statement.spelled, label.spelled_asWritten]
  | .label name => by rw [Statement.spelled, name.spelled_asWritten]
  | .returning value location => by rw [Statement.spelled, Expr.spelledOption_asWritten value]
  | .forLoop counter start final step body location => by
    rw [Statement.spelled, counter.spelled_asWritten, start.spelled_asWritten,
      final.spelled_asWritten, Expr.spelledOption_asWritten step, body.spelled_asWritten]
  | .forEach item target body location => by
    rw [Statement.spelled, item.spelled_asWritten, target.spelled_asWritten, body.spelled_asWritten]
  | .whileLoop condition body location => by
    rw [Statement.spelled, condition.spelled_asWritten, body.spelled_asWritten]
  | .dottedSet object name value location => by
    rw [Statement.spelled, object.spelled_asWritten, name.spelled_asWritten,
      value.spelled_asWritten]
  | .indexedSet object indexes value closing location => by
    rw [Statement.spelled, object.spelled_asWritten, Expr.spelledAll_asWritten indexes,
      value.spelled_asWritten]
  | .tryCatch tryBlock binding catchBlock location => by
    rw [Statement.spelled, tryBlock.spelled_asWritten, binding.spelled_asWritten,
      catchBlock.spelled_asWritten]
  | .throwing value location => by rw [Statement.spelled, value.spelled_asWritten]
  | .exitFor _ | .exitWhile _ | .continueFor _ | .continueWhile _ | .ending _ | .stopping _
  | .library _ _ => rfl

theorem Statement.spelledAll_asWritten :
    ∀ statements : List Statement, Statement.spelledAll .asWritten statements = statements
  | [] => rfl
  | statement :: rest => by
    rw [Statement.spelledAll, statement.spelled_asWritten, Statement.spelledAll_asWritten rest]

end

/-! ## Values and sessions -/

mutual

theorem Value.spelled_asWritten : ∀ v : Value, v.spelled .asWritten = v
  | .function c => by rw [Value.spelled, c.spelled_asWritten]
  | .boxed content => by rw [Value.spelled, content.spelled_asWritten]
  | .invalid | .uninitialized | .boolean _ | .string _ | .integer _ | .longInteger _ | .float _
  | .double _ | .array _ | .assoc _ => rfl

theorem Callable.spelled_asWritten : ∀ c : Callable, c.spelled .asWritten = c
  | ⟨identity, target, context⟩ => by rw [Callable.spelled, target.spelled_asWritten]

theorem Target.spelled_asWritten : ∀ t : Target, t.spelled .asWritten = t
  | .procedure body => by rw [Target.spelled, body.spelled_asWritten]
  | .builtin b => rfl
  | .method m receiver => by rw [Target.spelled, receiver.spelled_asWritten]

end

theorem Bindings.spelled_asWritten (b : Bindings) : Bindings.spelled .asWritten b = b := by
  refine Std.ExtTreeMap.ext_getElem? fun key => ?_
  rw [Bindings.getElem?_spelled, funext Value.spelled_asWritten]
  exact Option.map_id'

theorem AssocArray.spelled_asWritten (a : AssocArray) : a.spelled .asWritten = a := by
  have hentry (e : Entry) : e.spelled .asWritten = e :=
    congrArg (Entry.mk e.shown) e.value.spelled_asWritten
  refine AssocArray.ext (Std.ExtTreeMap.ext_getElem? fun key => ?_)
  rw [AssocArray.spelled, Std.ExtTreeMap.getElem?_map, funext hentry]
  exact Option.map_id'

theorem Heap.spelled_asWritten (h : Heap) : h.spelled .asWritten = h := by
  have harray (a : ArrayObject) : a.spelled .asWritten = a := by
    simp [ArrayObject.spelled, funext Value.spelled_asWritten]
  simp [spelled, funext harray, funext AssocArray.spelled_asWritten]

theorem Frame.spelled_asWritten (f : Frame) : f.spelled .asWritten = f := by
  have hargument (a : Argument) : a.spelled .asWritten = a := by
    simp [Argument.spelled, Expr.spelledOption_asWritten]
  simp [spelled, Signature.spelled, funext hargument]

theorem ScriptError.spelled_asWritten (e : ScriptError) : e.spelled .asWritten = e := by
  simp [spelled, funext Frame.spelled_asWritten, Value.spelled_asWritten]

theorem Signal.spelled_asWritten (signal : Signal) : signal.spelled .asWritten = signal := by
  cases signal with
  | returning value location => simp [spelled, funext Value.spelled_asWritten]
  | error e => rw [spelled, e.spelled_asWritten]
  | _ => rfl

theorem BreakContext.spelled_asWritten (c : BreakContext) : c.spelled .asWritten = c := by
  simp [spelled, funext ScriptError.spelled_asWritten, Value.spelled_asWritten]

theorem Debugger.ignores_asWritten (d : Debugger) : d.Ignores .asWritten := by
  cases d with
  | scripted | console => trivial
  | host decide seen =>
    intro contexts
    rw [funext BreakContext.spelled_asWritten, List.map_id']

theorem Session.spelled_asWritten (s : Session) : s.spelled .asWritten = s := by
  have hscopes : s.scopes.spelled .asWritten = s.scopes := by
    simp [Scopes.spelled, Activation.spelled, Bindings.spelled_asWritten]
  have hdebugger : s.debugger.spelled .asWritten = s.debugger := by
    cases s.debugger with
    | host decide seen => simp [Debugger.spelled, funext BreakContext.spelled_asWritten]
    | _ => rfl
  have hbreak (b : Break) : b.spelled .asWritten = b := by
    simp [Break.spelled, funext ScriptError.spelled_asWritten]
  have hlog : s.log.spelled .asWritten = s.log := by
    have hnotice (n : Notice) : n.spelled .asWritten = n := by
      simp [Notice.spelled, ScriptError.spelled_asWritten]
    simp [ErrorLog.spelled, funext ScriptError.spelled_asWritten, funext hnotice]
  simp [spelled, Heap.spelled_asWritten, hscopes, funext Frame.spelled_asWritten, hdebugger,
    funext hbreak, hlog]

end BrightScript
