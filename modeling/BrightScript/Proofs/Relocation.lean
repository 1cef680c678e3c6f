import BrightScript.Syntax.Program

/-!
# Scripts at another place

A `Relocation` says where a location of one text stands in another, and which numbers the functions
without a name have there. It respects the ways in which locations are joined, so that it goes
through everything a parser builds: tokens, errors and the trees of a script. Only what stands in a
text is moved; the names a script gives, its constants and its operators stay.
-/

namespace BrightScript

/-- A way to move what was read in one text to another. -/
structure Relocation where
  /-- Where a location of the first text stands in the second. -/
  place : Location → Location
  /-- The number a function without a name has in the second text. -/
  number : Nat → Nat
  /-- The name made of that number. -/
  rename : String → String
  place_union : ∀ a b, place (a.union b) = (place a).union (place b)
  place_upTo : ∀ a b, place (a.upTo b) = (place a).upTo (place b)
  number_succ : ∀ n, number (n + 1) = number n + 1
  rename_unnamed : ∀ n : Nat, rename s!"$anon_{n}" = s!"$anon_{number n}"

def Relocation.inPlace : Relocation where
  place l := l
  number n := n
  rename name := name
  place_union _ _ := rfl
  place_upTo _ _ := rfl
  number_succ _ := rfl
  rename_unnamed _ := rfl

namespace Relocation

def lower (lines : Nat) (p : Position) : Position :=
  ⟨p.line + lines, p.column⟩

theorem lower_le (lines : Nat) (p q : Position) :
    (lower lines p).le (lower lines q) = p.le q := by
  have hline : (p.line + lines == q.line + lines) = (p.line == q.line) := by
    rw [Bool.eq_iff_iff, beq_iff_eq, beq_iff_eq, Nat.add_right_cancel_iff]
  show (decide (p.line + lines < q.line + lines) ||
    (p.line + lines == q.line + lines && decide (p.column ≤ q.column))) = p.le q
  rw [hline]
  simp only [Nat.add_lt_add_iff_right, Position.le]

theorem lower_earlier (lines : Nat) (p q : Position) :
    lower lines (p.earlier q) = (lower lines p).earlier (lower lines q) := by
  rw [Position.earlier, Position.earlier, lower_le]
  split <;> rfl

theorem lower_later (lines : Nat) (p q : Position) :
    lower lines (p.later q) = (lower lines p).later (lower lines q) := by
  rw [Position.later, Position.later, lower_le]
  split <;> rfl

def behind (lines bytes : Nat) (l : Location) : Location :=
  ⟨l.file, lower lines l.start, lower lines l.stop, ⟨l.span.start + bytes, l.span.stop + bytes⟩⟩

/-- The name of a function whose number is raised. -/
def raise (count : Nat) (name : String) : String :=
  s!"$anon_{Nat.ofDigitChars 10 (name.toList.drop 6) 0 + count}"

theorem raise_unnamed (count n : Nat) : raise count s!"$anon_{n}" = s!"$anon_{n + count}" := by
  have hdigits : (s!"$anon_{n}").toList.drop 6 = Nat.toDigits 10 n := by
    have hletters : (toString "$anon_").toList.length = 6 := rfl
    rw [String.toList_append, List.drop_left' hletters, Nat.toString_eq_repr, Nat.toList_repr]
  rw [raise, hdigits, Nat.ofDigitChars_toDigits (by decide) (by decide)]

/-- The relocation of a text that is put behind another one of some lines, bytes and functions
without a name. -/
def after (lines bytes count : Nat) : Relocation where
  place := behind lines bytes
  number n := n + count
  rename := raise count
  place_union a b := by
    simp only [behind, Location.union, Span.union, lower_earlier, lower_later, Nat.add_min_add_right,
      Nat.add_max_add_right]
  place_upTo _ _ := rfl
  number_succ n := Nat.add_right_comm n 1 count
  rename_unnamed := raise_unnamed count

end Relocation

/-! ## Trees -/

def Identifier.relocated (m : Relocation) (i : Identifier) : Identifier :=
  { i with location := m.place i.location }

mutual

def Expr.relocated (m : Relocation) : Expr → Expr
  | .binary left op right location =>
    .binary (left.relocated m) op (right.relocated m) (m.place location)
  | .call callee args optional closing location =>
    .call (callee.relocated m) (Expr.relocatedAll m args) optional (m.place closing)
      (m.place location)
  | .procedure ⟨name, parameters, returns, isSub, body, location⟩ =>
    .procedure ⟨m.rename name, Parameter.relocatedAll m parameters, returns, isSub,
      body.relocated m, m.place location⟩
  | .dottedGet object name optional location =>
    .dottedGet (object.relocated m) (name.relocated m) optional (m.place location)
  | .attributeGet object name location =>
    .attributeGet (object.relocated m) (name.relocated m) (m.place location)
  | .indexedGet object indexes optional closing location =>
    .indexedGet (object.relocated m) (Expr.relocatedAll m indexes) optional (m.place closing)
      (m.place location)
  | .grouping inner location => .grouping (inner.relocated m) (m.place location)
  | .literal value location => .literal value (m.place location)
  | .arrayLiteral elements location =>
    .arrayLiteral (Expr.relocatedAll m elements) (m.place location)
  | .assocLiteral members location =>
    .assocLiteral (Member.relocatedAll m members) (m.place location)
  | .unary op operand location => .unary op (operand.relocated m) (m.place location)
  | .reference name => .reference (name.relocated m)

def Expr.relocatedAll (m : Relocation) : List Expr → List Expr
  | [] => []
  | e :: rest => e.relocated m :: Expr.relocatedAll m rest

def Expr.relocatedOption (m : Relocation) : Option Expr → Option Expr
  | none => none
  | some e => some (e.relocated m)

def Member.relocated (m : Relocation) : Member → Member
  | ⟨name, value⟩ => ⟨name, value.relocated m⟩

def Member.relocatedAll (m : Relocation) : List Member → List Member
  | [] => []
  | member :: rest => member.relocated m :: Member.relocatedAll m rest

def Parameter.relocated (m : Relocation) : Parameter → Parameter
  | ⟨name, kind, default?⟩ => ⟨name.relocated m, kind, Expr.relocatedOption m default?⟩

def Parameter.relocatedAll (m : Relocation) : List Parameter → List Parameter
  | [] => []
  | parameter :: rest => parameter.relocated m :: Parameter.relocatedAll m rest

def Block.relocated (m : Relocation) : Block → Block
  | ⟨statements, location⟩ => ⟨Statement.relocatedAll m statements, m.place location⟩

def Block.relocatedOption (m : Relocation) : Option Block → Option Block
  | none => none
  | some block => some (block.relocated m)

def Clause.relocated (m : Relocation) : Clause → Clause
  | ⟨condition, block⟩ => ⟨condition.relocated m, block.relocated m⟩

def Clause.relocatedAll (m : Relocation) : List Clause → List Clause
  | [] => []
  | clause :: rest => clause.relocated m :: Clause.relocatedAll m rest

def PrintItem.relocated (m : Relocation) : PrintItem → PrintItem
  | .expression value => .expression (value.relocated m)
  | .comma => .comma
  | .semicolon => .semicolon

def PrintItem.relocatedAll (m : Relocation) : List PrintItem → List PrintItem
  | [] => []
  | item :: rest => item.relocated m :: PrintItem.relocatedAll m rest

/-- The statement at its new place. A declared procedure keeps its name. -/
def Statement.relocated (m : Relocation) : Statement → Statement
  | .assignment name value location =>
    .assignment (name.relocated m) (value.relocated m) (m.place location)
  | .dim name dimensions location =>
    .dim (name.relocated m) (Expr.relocatedAll m dimensions) (m.place location)
  | .block body => .block (body.relocated m)
  | .expression value => .expression (value.relocated m)
  | .exitFor location => .exitFor (m.place location)
  | .exitWhile location => .exitWhile (m.place location)
  | .continueFor location => .continueFor (m.place location)
  | .continueWhile location => .continueWhile (m.place location)
  | .declaration name ⟨own, parameters, returns, isSub, body, location⟩ =>
    .declaration (name.relocated m) ⟨own, Parameter.relocatedAll m parameters, returns, isSub,
      body.relocated m, m.place location⟩
  | .conditional condition thenBranch elseIfs elseBranch location =>
    .conditional (condition.relocated m) (thenBranch.relocated m) (Clause.relocatedAll m elseIfs)
      (Block.relocatedOption m elseBranch) (m.place location)
  | .increment target op location => .increment (target.relocated m) op (m.place location)
  | .print items location => .print (PrintItem.relocatedAll m items) (m.place location)
  | .goto label location => .goto (label.relocated m) (m.place location)
  | .label name => .label (name.relocated m)
  | .returning value location => .returning (Expr.relocatedOption m value) (m.place location)
  | .ending location => .ending (m.place location)
  | .stopping location => .stopping (m.place location)
  | .forLoop counter start final step body location =>
    .forLoop (counter.relocated m) (start.relocated m) (final.relocated m)
      (Expr.relocatedOption m step) (body.relocated m) (m.place location)
  | .forEach item target body location =>
    .forEach (item.relocated m) (target.relocated m) (body.relocated m) (m.place location)
  | .whileLoop condition body location =>
    .whileLoop (condition.relocated m) (body.relocated m) (m.place location)
  | .dottedSet object name value location =>
    .dottedSet (object.relocated m) (name.relocated m) (value.relocated m) (m.place location)
  | .indexedSet object indexes value closing location =>
    .indexedSet (object.relocated m) (Expr.relocatedAll m indexes) (value.relocated m)
      (m.place closing) (m.place location)
  | .library path location => .library path (m.place location)
  | .tryCatch tryBlock binding catchBlock location =>
    .tryCatch (tryBlock.relocated m) (binding.relocated m) (catchBlock.relocated m)
      (m.place location)
  | .throwing value location => .throwing (value.relocated m) (m.place location)

def Statement.relocatedAll (m : Relocation) : List Statement → List Statement
  | [] => []
  | statement :: rest => statement.relocated m :: Statement.relocatedAll m rest

end

def Procedure.relocated (m : Relocation) (name : String) (p : Procedure) : Procedure :=
  ⟨name, p.parameters.map (Parameter.relocated m), p.returns, p.isSub, p.body.relocated m,
    m.place p.location⟩

section
variable (m : Relocation)

@[simp] theorem Expr.relocatedAll_eq (es : List Expr) :
    Expr.relocatedAll m es = es.map (Expr.relocated m) := by
  induction es with
  | nil => rfl
  | cons e rest ih => rw [Expr.relocatedAll, ih, List.map_cons]

@[simp] theorem Expr.relocatedOption_eq (e : Option Expr) :
    Expr.relocatedOption m e = e.map (Expr.relocated m) := by
  cases e <;> rfl

@[simp] theorem Member.relocatedAll_eq (members : List Member) :
    Member.relocatedAll m members = members.map (Member.relocated m) := by
  induction members with
  | nil => rfl
  | cons member rest ih => rw [Member.relocatedAll, ih, List.map_cons]

@[simp] theorem Parameter.relocatedAll_eq (parameters : List Parameter) :
    Parameter.relocatedAll m parameters = parameters.map (Parameter.relocated m) := by
  induction parameters with
  | nil => rfl
  | cons parameter rest ih => rw [Parameter.relocatedAll, ih, List.map_cons]

@[simp] theorem Block.relocatedOption_eq (b : Option Block) :
    Block.relocatedOption m b = b.map (Block.relocated m) := by
  cases b <;> rfl

@[simp] theorem Clause.relocatedAll_eq (clauses : List Clause) :
    Clause.relocatedAll m clauses = clauses.map (Clause.relocated m) := by
  induction clauses with
  | nil => rfl
  | cons clause rest ih => rw [Clause.relocatedAll, ih, List.map_cons]

@[simp] theorem PrintItem.relocatedAll_eq (items : List PrintItem) :
    PrintItem.relocatedAll m items = items.map (PrintItem.relocated m) := by
  induction items with
  | nil => rfl
  | cons item rest ih => rw [PrintItem.relocatedAll, ih, List.map_cons]

@[simp] theorem Statement.relocatedAll_eq (statements : List Statement) :
    Statement.relocatedAll m statements = statements.map (Statement.relocated m) := by
  induction statements with
  | nil => rfl
  | cons statement rest ih => rw [Statement.relocatedAll, ih, List.map_cons]

theorem Expr.relocated_procedure (p : Procedure) :
    (Expr.procedure p).relocated m = .procedure (p.relocated m (m.rename p.name)) := by
  obtain ⟨name, parameters, returns, isSub, body, location⟩ := p
  rw [Expr.relocated, Parameter.relocatedAll_eq]
  rfl

theorem Statement.relocated_declaration (name : Identifier) (p : Procedure) :
    (Statement.declaration name p).relocated m =
      .declaration (name.relocated m) (p.relocated m p.name) := by
  obtain ⟨own, parameters, returns, isSub, body, location⟩ := p
  rw [Statement.relocated, Parameter.relocatedAll_eq]
  rfl

@[simp] theorem Expr.location_relocated (e : Expr) :
    (e.relocated m).location = m.place e.location := by
  cases e with
  | procedure body => rw [Expr.relocated_procedure]; rfl
  | _ => rfl

end

/-! ## Tokens, errors and cursors -/

def Token.relocated (m : Relocation) (t : Token) : Token :=
  { t with location := m.place t.location }

@[simp] theorem Token.relocated_kind (m : Relocation) (t : Token) : (t.relocated m).kind = t.kind :=
  rfl

def SyntaxError.relocated (m : Relocation) (e : SyntaxError) : SyntaxError :=
  { e with location := m.place e.location }

def Cursor.relocated (m : Relocation) (c : Cursor) : Cursor :=
  ⟨c.rest.map (Token.relocated m), c.previous.map (Token.relocated m), c.final.relocated m,
    c.errors.map (SyntaxError.relocated m), m.number c.unnamed⟩

/-- The outcome of a parser at another place, given how its result is moved. -/
def Outcome.relocated {α : Type} (m : Relocation) (move : α → α) :
    Outcome SyntaxError Cursor α → Outcome SyntaxError Cursor α
  | .done a t => .done (move a) (t.relocated m)
  | .exit e t => .exit (e.relocated m) (t.relocated m)
  | .exhausted => .exhausted

/-! ## Leaving everything in place -/

open Relocation (inPlace)

mutual

theorem Expr.relocated_inPlace : ∀ e : Expr, e.relocated inPlace = e
  | .binary left op right location => by
    rw [Expr.relocated, left.relocated_inPlace, right.relocated_inPlace]
    rfl
  | .call callee args optional closing location => by
    rw [Expr.relocated, callee.relocated_inPlace, Expr.relocatedAll_inPlace args]
    rfl
  | .procedure ⟨name, parameters, returns, isSub, body, location⟩ => by
    rw [Expr.relocated, Parameter.relocatedAll_inPlace parameters, body.relocated_inPlace]
    rfl
  | .dottedGet object name optional location => by
    rw [Expr.relocated, object.relocated_inPlace]
    rfl
  | .attributeGet object name location => by
    rw [Expr.relocated, object.relocated_inPlace]
    rfl
  | .indexedGet object indexes optional closing location => by
    rw [Expr.relocated, object.relocated_inPlace, Expr.relocatedAll_inPlace indexes]
    rfl
  | .grouping inner location => by
    rw [Expr.relocated, inner.relocated_inPlace]
    rfl
  | .literal value location => rfl
  | .arrayLiteral elements location => by
    rw [Expr.relocated, Expr.relocatedAll_inPlace elements]
    rfl
  | .assocLiteral members location => by
    rw [Expr.relocated, Member.relocatedAll_inPlace members]
    rfl
  | .unary op operand location => by
    rw [Expr.relocated, operand.relocated_inPlace]
    rfl
  | .reference name => rfl

theorem Expr.relocatedAll_inPlace : ∀ es : List Expr, Expr.relocatedAll inPlace es = es
  | [] => rfl
  | e :: rest => by rw [Expr.relocatedAll, e.relocated_inPlace, Expr.relocatedAll_inPlace rest]

theorem Expr.relocatedOption_inPlace : ∀ e : Option Expr, Expr.relocatedOption inPlace e = e
  | none => rfl
  | some e => by rw [Expr.relocatedOption, e.relocated_inPlace]

theorem Member.relocatedAll_inPlace :
    ∀ members : List Member, Member.relocatedAll inPlace members = members
  | [] => rfl
  | ⟨name, value⟩ :: rest => by
    rw [Member.relocatedAll, Member.relocated, value.relocated_inPlace,
      Member.relocatedAll_inPlace rest]

theorem Parameter.relocatedAll_inPlace :
    ∀ parameters : List Parameter, Parameter.relocatedAll inPlace parameters = parameters
  | [] => rfl
  | ⟨name, kind, default?⟩ :: rest => by
    rw [Parameter.relocatedAll, Parameter.relocated, Expr.relocatedOption_inPlace default?,
      Parameter.relocatedAll_inPlace rest]
    rfl

theorem Block.relocated_inPlace : ∀ b : Block, b.relocated inPlace = b
  | ⟨statements, location⟩ => by
    rw [Block.relocated, Statement.relocatedAll_inPlace statements]
    rfl

theorem Block.relocatedOption_inPlace : ∀ b : Option Block, Block.relocatedOption inPlace b = b
  | none => rfl
  | some b => by rw [Block.relocatedOption, b.relocated_inPlace]

theorem Clause.relocatedAll_inPlace :
    ∀ clauses : List Clause, Clause.relocatedAll inPlace clauses = clauses
  | [] => rfl
  | ⟨condition, block⟩ :: rest => by
    rw [Clause.relocatedAll, Clause.relocated, condition.relocated_inPlace, block.relocated_inPlace,
      Clause.relocatedAll_inPlace rest]

theorem PrintItem.relocatedAll_inPlace :
    ∀ items : List PrintItem, PrintItem.relocatedAll inPlace items = items
  | [] => rfl
  | .expression value :: rest => by
    rw [PrintItem.relocatedAll, PrintItem.relocated, value.relocated_inPlace,
      PrintItem.relocatedAll_inPlace rest]
  | .comma :: rest | .semicolon :: rest => by
    rw [PrintItem.relocatedAll, PrintItem.relocated, PrintItem.relocatedAll_inPlace rest]

theorem Statement.relocated_inPlace : ∀ s : Statement, s.relocated inPlace = s
  | .assignment name value location => by
    rw [Statement.relocated, value.relocated_inPlace]
    rfl
  | .dim name dimensions location => by
    rw [Statement.relocated, Expr.relocatedAll_inPlace dimensions]
    rfl
  | .block body => by rw [Statement.relocated, body.relocated_inPlace]
  | .expression value => by rw [Statement.relocated, value.relocated_inPlace]
  | .declaration name ⟨own, parameters, returns, isSub, body, location⟩ => by
    rw [Statement.relocated, Parameter.relocatedAll_inPlace parameters, body.relocated_inPlace]
    rfl
  | .conditional condition thenBranch elseIfs elseBranch location => by
    rw [Statement.relocated, condition.relocated_inPlace, thenBranch.relocated_inPlace,
      Clause.relocatedAll_inPlace elseIfs, Block.relocatedOption_inPlace elseBranch]
    rfl
  | .increment target op location => by
    rw [Statement.relocated, target.relocated_inPlace]
    rfl
  | .print items location => by
    rw [Statement.relocated, PrintItem.relocatedAll_inPlace items]
    rfl
  | .returning value location => by
    rw [Statement.relocated, Expr.relocatedOption_inPlace value]
    rfl
  | .forLoop counter start final step body location => by
    rw [Statement.relocated, start.relocated_inPlace, final.relocated_inPlace,
      Expr.relocatedOption_inPlace step, body.relocated_inPlace]
    rfl
  | .forEach item target body location => by
    rw [Statement.relocated, target.relocated_inPlace, body.relocated_inPlace]
    rfl
  | .whileLoop condition body location => by
    rw [Statement.relocated, condition.relocated_inPlace, body.relocated_inPlace]
    rfl
  | .dottedSet object name value location => by
    rw [Statement.relocated, object.relocated_inPlace, value.relocated_inPlace]
    rfl
  | .indexedSet object indexes value closing location => by
    rw [Statement.relocated, object.relocated_inPlace, Expr.relocatedAll_inPlace indexes,
      value.relocated_inPlace]
    rfl
  | .tryCatch tryBlock binding catchBlock location => by
    rw [Statement.relocated, tryBlock.relocated_inPlace, catchBlock.relocated_inPlace]
    rfl
  | .throwing value location => by
    rw [Statement.relocated, value.relocated_inPlace]
    rfl
  | .exitFor _ | .exitWhile _ | .continueFor _ | .continueWhile _ | .ending _ | .stopping _
  | .library _ _ | .goto _ _ | .label _ => rfl

theorem Statement.relocatedAll_inPlace :
    ∀ statements : List Statement, Statement.relocatedAll inPlace statements = statements
  | [] => rfl
  | statement :: rest => by
    rw [Statement.relocatedAll, statement.relocated_inPlace, Statement.relocatedAll_inPlace rest]

end

theorem Expr.relocated_inPlace_eq : Expr.relocated inPlace = id :=
  funext Expr.relocated_inPlace

theorem Statement.relocated_inPlace_eq : Statement.relocated inPlace = id :=
  funext Statement.relocated_inPlace

theorem Cursor.relocated_inPlace (c : Cursor) : c.relocated inPlace = c := by
  have ht : Token.relocated inPlace = id := rfl
  have he : SyntaxError.relocated inPlace = id := rfl
  rw [Cursor.relocated, ht, he, List.map_id, List.map_id, Option.map_id]
  rfl

theorem Outcome.relocated_inPlace {α : Type} (o : Outcome SyntaxError Cursor α) :
    o.relocated inPlace id = o := by
  cases o with
  | done a t => rw [Outcome.relocated, t.relocated_inPlace]; rfl
  | exit e t => rw [Outcome.relocated, t.relocated_inPlace]; rfl
  | exhausted => rfl

end BrightScript
