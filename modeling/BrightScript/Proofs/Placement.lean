import BrightScript.Proofs.Casing
import BrightScript.Proofs.Termination

/-!
# Where expressions stand

The tokens of a text are in order: each runs forward, and none starts before another one has ended.
A range joined from pieces of such tokens is known by its first and its last token
(`Location.Spans`), whatever the pieces in the middle are, so it covers the ranges of all pieces.
An expression read from some tokens spans all of them (`Expr.ReadFrom`), and its sub-expressions
stand within parts of them (`Expr.ReadIn`); hence every node covers the nodes below it
(`Expr.WellPlaced`).
-/

namespace BrightScript

/-! ## The order of places -/

theorem Position.le_iff {a b : Position} :
    a.le b = true ↔ a.line < b.line ∨ a.line = b.line ∧ a.column ≤ b.column := by
  simp [Position.le]

/-- A place comes before another one or is the same, by bytes and by position. -/
def Place.UpTo (p q : Place) : Prop :=
  p.offset ≤ q.offset ∧ p.position.le q.position = true

namespace Place

theorem UpTo.refl (p : Place) : p.UpTo p :=
  ⟨Nat.le_refl _, Position.le_iff.2 (.inr ⟨rfl, Nat.le_refl _⟩)⟩

theorem UpTo.trans {p q r : Place} (h : p.UpTo q) (h' : q.UpTo r) : p.UpTo r := by
  refine ⟨Nat.le_trans h.1 h'.1, Position.le_iff.2 ?_⟩
  have h1 := Position.le_iff.1 h.2
  have h2 := Position.le_iff.1 h'.2
  omega

theorem upTo_next (p : Place) (c : Char) : p.UpTo (p.next c) := by
  unfold next
  split
  · exact ⟨Nat.le_add_right .., Position.le_iff.2 (.inl (Nat.lt_succ_self _))⟩
  · exact ⟨Nat.le_add_right .., Position.le_iff.2 (.inr ⟨rfl, Nat.le_add_right ..⟩)⟩

theorem upTo_after (p : Place) (text : List Char) : p.UpTo (p.after text) := by
  induction text generalizing p with
  | nil => exact .refl p
  | cons c text ih => exact (p.upTo_next c).trans (ih (p.next c))

theorem after_upTo (p : Place) (a b : List Char) : (p.after a).UpTo (p.after (a ++ b)) := by
  rw [after_append]
  exact upTo_after _ b

end Place

namespace Location

def opening (l : Location) : Place :=
  ⟨l.span.start, l.start⟩

def ending (l : Location) : Place :=
  ⟨l.span.stop, l.stop⟩

/-- A range ends where it starts or behind that. -/
def Forward (l : Location) : Prop :=
  l.opening.UpTo l.ending

def Covers (outer inner : Location) : Prop :=
  outer.opening.UpTo inner.opening ∧ inner.ending.UpTo outer.ending

theorem Covers.refl (l : Location) : l.Covers l :=
  ⟨.refl _, .refl _⟩

theorem Covers.trans {a b c : Location} (h : a.Covers b) (h' : b.Covers c) : a.Covers c :=
  ⟨h.1.trans h'.1, h'.2.trans h.2⟩

theorem union_upTo {a b c d : Location} (hstart : a.opening.UpTo c.opening)
    (hstop : b.ending.UpTo d.ending) : (a.upTo b).union (c.upTo d) = a.upTo d := by
  obtain ⟨hspan, hposition⟩ := hstart
  obtain ⟨hspan', hposition'⟩ := hstop
  have hearlier : a.start.earlier c.start = a.start := if_pos hposition
  have hlater : b.stop.later d.stop = d.stop := if_pos hposition'
  have hmin : min a.span.start c.span.start = a.span.start := Nat.min_eq_left hspan
  have hmax : max b.span.stop d.span.stop = d.span.stop := Nat.max_eq_right hspan'
  simp only [union, upTo, Span.union, hearlier, hlater, hmin, hmax]

end Location

/-! ## Tokens in order -/

/-- Tokens that run forward and stand behind each other. -/
structure InOrder (tokens : List Token) : Prop where
  forward : ∀ t ∈ tokens, t.location.Forward
  apart : tokens.Pairwise fun a b => a.location.ending.UpTo b.location.opening

namespace InOrder

variable {xs ys tokens : List Token} {first last : Token}

theorem sublist (h : InOrder ys) (hx : xs.Sublist ys) : InOrder xs :=
  ⟨fun t ht => h.forward t (hx.subset ht), h.apart.sublist hx⟩

theorem opening_upTo (h : InOrder tokens) (hfirst : tokens.head? = some first) {t : Token}
    (ht : t ∈ tokens) : first.location.opening.UpTo t.location.opening := by
  obtain ⟨rest, rfl⟩ := List.head?_eq_some_iff.1 hfirst
  rcases List.mem_cons.1 ht with rfl | ht
  · exact .refl _
  · exact (h.forward first List.mem_cons_self).trans ((List.pairwise_cons.1 h.apart).1 t ht)

theorem upTo_ending (h : InOrder tokens) (hlast : tokens.getLast? = some last) {t : Token}
    (ht : t ∈ tokens) : t.location.ending.UpTo last.location.ending := by
  obtain ⟨front, rfl⟩ := List.getLast?_eq_some_iff.1 hlast
  rcases List.mem_append.1 ht with ht | ht
  · have hbefore := (List.pairwise_append.1 h.apart).2.2 t ht last (List.mem_singleton.2 rfl)
    exact hbefore.trans (h.forward last (by simp))
  · rw [List.mem_singleton.1 ht]
    exact .refl _

end InOrder

theorem Token.Layout.opening_of_mem {file : String} {before text : List Char} {tokens : List Token}
    (h : Layout file before text tokens) :
    ∀ t ∈ tokens, (Place.start.after before).UpTo t.location.opening := by
  induction h with
  | @done before gap hgap =>
    intro t ht
    obtain rfl := List.mem_singleton.1 ht
    exact Place.after_upTo .start before gap
  | @token before gap taken rest kind tokens hgap hne hkind h ih =>
    intro t ht
    rcases List.mem_cons.1 ht with rfl | ht
    · exact Place.after_upTo .start before gap
    · exact (Place.after_upTo .start before _).trans (ih t ht)

theorem Token.Layout.inOrder {file : String} {before text : List Char} {tokens : List Token}
    (h : Layout file before text tokens) : InOrder tokens := by
  induction h with
  | done hgap =>
    refine ⟨fun t ht => ?_, List.pairwise_singleton _ _⟩
    obtain rfl := List.mem_singleton.1 ht
    exact .refl _
  | @token before gap taken rest kind tokens hgap hne hkind h ih =>
    refine ⟨fun t ht => ?_, List.pairwise_cons.2 ⟨fun t ht => h.opening_of_mem t ht, ih.apart⟩⟩
    rcases List.mem_cons.1 ht with rfl | ht
    · rw [← List.append_assoc]
      exact Place.after_upTo .start (before ++ gap) taken
    · exact ih.forward t ht

/-! ## Ranges of tokens -/

namespace Location

/-- A range that reaches from the first to the last of some tokens, if these are in order. -/
def Spans (tokens : List Token) (l : Location) : Prop :=
  InOrder tokens → ∃ first last, tokens.head? = some first ∧ tokens.getLast? = some last ∧
    l = first.location.upTo last.location

theorem spans_token (t : Token) : Spans [t] t.location :=
  fun _ => ⟨t, t, rfl, rfl, rfl⟩

variable {xs ys zs : List Token} {a b : Location}

/-- Two ranges join to the range of all tokens from the first one to the second. -/
theorem Spans.union (ys : List Token) (ha : Spans xs a) (hb : Spans zs b) :
    Spans (xs ++ (ys ++ zs)) (a.union b) := by
  intro h
  obtain ⟨first, last, hfirst, hlast, rfl⟩ := ha (h.sublist (List.sublist_append_left ..))
  obtain ⟨first', last', hfirst', hlast', rfl⟩ :=
    hb (h.sublist ((List.sublist_append_right ..).trans (List.sublist_append_right ..)))
  have hhead : (xs ++ (ys ++ zs)).head? = some first := by simp [hfirst]
  have hend : (xs ++ (ys ++ zs)).getLast? = some last' := by simp [hlast']
  refine ⟨first, last', hhead, hend, union_upTo ?_ ?_⟩
  · exact h.opening_upTo hhead (by simp [List.mem_of_mem_head? hfirst'])
  · exact h.upTo_ending hend (by simp [List.mem_of_mem_getLast? hlast])

theorem Spans.forward (h : Spans xs a) (hx : InOrder xs) : a.Forward := by
  obtain ⟨first, last, hfirst, hlast, rfl⟩ := h hx
  have hmem := List.mem_of_mem_head? hfirst
  exact (hx.forward first hmem).trans (hx.upTo_ending hlast hmem)

/-- The range of some tokens covers the ranges of their parts. -/
theorem Spans.covers (ha : Spans xs a) (hb : Spans ys b) (hx : InOrder xs) (hy : ys <:+: xs) :
    a.Covers b := by
  obtain ⟨first, last, hfirst, hlast, rfl⟩ := ha hx
  obtain ⟨first', last', hfirst', hlast', rfl⟩ := hb (hx.sublist hy.sublist)
  exact ⟨hx.opening_upTo hfirst (hy.subset (List.mem_of_mem_head? hfirst')),
    hx.upTo_ending hlast (hy.subset (List.mem_of_mem_getLast? hlast'))⟩

end Location

/-! ## Expressions in statements and expressions -/

/-- The expression of an item of a `print`, if it has one. -/
def PrintItem.expressions : PrintItem → List Expr
  | expression value => [value]
  | comma | semicolon => []

def Parameter.expressions (p : Parameter) : List Expr :=
  p.default?.toList

mutual

/-- The expressions that stand in a statement and in no other expression, those of its blocks
included. -/
def Statement.expressions : Statement → List Expr
  | .assignment _ value _ => [value]
  | .dim _ dimensions _ => dimensions
  | .block body => body.expressions
  | .expression value => [value]
  | .declaration _ ⟨_, parameters, _, _, body, _⟩ =>
    parameters.flatMap Parameter.expressions ++ body.expressions
  | .conditional condition thenBranch elseIfs elseBranch _ =>
    condition :: thenBranch.expressions ++ Clause.allExpressions elseIfs ++
      Block.optionExpressions elseBranch
  | .increment target _ _ => [target]
  | .print items _ => items.flatMap PrintItem.expressions
  | .returning value _ => value.toList
  | .forLoop _ start final step body _ => start :: final :: step.toList ++ body.expressions
  | .forEach _ target body _ => target :: body.expressions
  | .whileLoop condition body _ => condition :: body.expressions
  | .dottedSet object _ value _ => [object, value]
  | .indexedSet object indexes value _ _ => object :: value :: indexes
  | .tryCatch tryBlock _ catchBlock _ => tryBlock.expressions ++ catchBlock.expressions
  | .throwing value _ => [value]
  | .exitFor _ | .exitWhile _ | .continueFor _ | .continueWhile _ | .goto .. | .label _
  | .ending _ | .stopping _ | .library .. => []

def Block.expressions : Block → List Expr
  | ⟨statements, _⟩ => Statement.allExpressions statements

def Statement.allExpressions : List Statement → List Expr
  | [] => []
  | statement :: rest => statement.expressions ++ Statement.allExpressions rest

def Clause.allExpressions : List Clause → List Expr
  | [] => []
  | ⟨condition, block⟩ :: rest => condition :: block.expressions ++ Clause.allExpressions rest

def Block.optionExpressions : Option Block → List Expr
  | none => []
  | some block => block.expressions

end

def Procedure.expressions (p : Procedure) : List Expr :=
  p.parameters.flatMap Parameter.expressions ++ p.body.expressions

theorem Statement.expressions_declaration (name : Identifier) (p : Procedure) :
    (Statement.declaration name p).expressions = p.expressions := by
  obtain ⟨_, _, _, _, _, _⟩ := p
  rw [Statement.expressions, Procedure.expressions]

theorem Statement.allExpressions_eq (statements : List Statement) :
    Statement.allExpressions statements = statements.flatMap Statement.expressions := by
  induction statements with
  | nil => rfl
  | cons statement rest ih => rw [Statement.allExpressions, ih, List.flatMap_cons]

def Clause.expressions (clause : Clause) : List Expr :=
  clause.condition :: clause.block.expressions

theorem Clause.allExpressions_eq (clauses : List Clause) :
    Clause.allExpressions clauses = clauses.flatMap Clause.expressions := by
  induction clauses with
  | nil => rfl
  | cons clause rest ih =>
    obtain ⟨condition, block⟩ := clause
    rw [Clause.allExpressions, ih, List.flatMap_cons, Clause.expressions]

namespace Expr

/-- The direct sub-expressions of an expression; those of a function are the defaults of its
parameters and the expressions of its body. -/
def children : Expr → List Expr
  | binary left _ right _ => [left, right]
  | call callee args _ _ _ => callee :: args
  | procedure body => body.expressions
  | dottedGet object _ _ _ => [object]
  | attributeGet object _ _ => [object]
  | indexedGet object indexes _ _ _ => object :: indexes
  | grouping inner _ => [inner]
  | literal _ _ => []
  | arrayLiteral elements _ => elements
  | assocLiteral members _ => members.map (·.value)
  | unary _ operand _ => [operand]
  | reference _ => []

/-- An expression runs forward and covers its sub-expressions, and so do these. -/
inductive WellPlaced : Expr → Prop
  | node {e : Expr} : e.location.Forward → (∀ x ∈ e.children, e.location.Covers x.location) →
      (∀ x ∈ e.children, x.WellPlaced) → e.WellPlaced

/-- An expression that stands where some tokens stand. -/
structure ReadFrom (tokens : List Token) (e : Expr) : Prop where
  spans : e.location.Spans tokens
  wellPlaced : InOrder tokens → e.WellPlaced

/-- An expression that stands within a part of some tokens. -/
def ReadIn (tokens : List Token) (e : Expr) : Prop :=
  ∃ (part : List Token) (l : Location), part <:+: tokens ∧ l.Spans part ∧
    (InOrder part → l.Covers e.location ∧ e.WellPlaced)

variable {e : Expr} {xs ys zs : List Token}

theorem ReadFrom.readIn (h : e.ReadFrom xs) : e.ReadIn xs :=
  ⟨xs, e.location, List.infix_rfl, h.spans, fun hx => ⟨.refl _, h.wellPlaced hx⟩⟩

theorem ReadIn.mono (h : e.ReadIn xs) (hx : xs <:+: ys) : e.ReadIn ys := by
  obtain ⟨part, l, hpart, he⟩ := h
  exact ⟨part, l, hpart.trans hx, he⟩

theorem ReadIn.left (h : e.ReadIn xs) : e.ReadIn (xs ++ ys) :=
  h.mono (List.prefix_append ..).isInfix

theorem ReadIn.right (h : e.ReadIn ys) : e.ReadIn (xs ++ ys) :=
  h.mono (List.suffix_append ..).isInfix

theorem ReadIn.wellPlaced (h : e.ReadIn xs) (hx : InOrder xs) : e.WellPlaced := by
  obtain ⟨part, l, hpart, -, he⟩ := h
  exact (he (hx.sublist hpart.sublist)).2

/-- Expressions that are read from parts of some tokens. -/
def AllIn (tokens : List Token) (es : List Expr) : Prop :=
  ∀ e ∈ es, e.ReadIn tokens

section AllIn

variable {es es' : List Expr}

@[simp] theorem allIn_nil : AllIn xs [] := by
  simp [AllIn]

@[simp] theorem allIn_cons : AllIn xs (e :: es) ↔ e.ReadIn xs ∧ AllIn xs es := by
  simp [AllIn]

@[simp] theorem allIn_append : AllIn xs (es ++ es') ↔ AllIn xs es ∧ AllIn xs es' := by
  simp only [AllIn, List.mem_append]
  exact ⟨fun h => ⟨fun e he => h e (.inl he), fun e he => h e (.inr he)⟩,
    fun h e he => he.elim (h.1 e) (h.2 e)⟩

@[simp] theorem allIn_reverse : AllIn xs es.reverse ↔ AllIn xs es := by
  simp [AllIn]

theorem allIn_flatMap {α : Type} {f : α → List Expr} {l : List α} :
    AllIn xs (l.flatMap f) ↔ ∀ a ∈ l, AllIn xs (f a) := by
  simp only [AllIn, List.mem_flatMap]
  exact ⟨fun h a ha e he => h e ⟨a, ha, he⟩, fun h e ⟨a, ha, he⟩ => h a ha e he⟩

@[simp] theorem allIn_flatMap_reverse {α : Type} {f : α → List Expr} {l : List α} :
    AllIn xs (l.reverse.flatMap f) ↔ AllIn xs (l.flatMap f) := by
  simp [allIn_flatMap]

theorem AllIn.mono (h : AllIn xs es) (hx : xs <:+: ys) : AllIn ys es :=
  fun e he => (h e he).mono hx

theorem AllIn.left (h : AllIn xs es) : AllIn (xs ++ ys) es :=
  h.mono (List.prefix_append ..).isInfix

theorem AllIn.right (h : AllIn ys es) : AllIn (xs ++ ys) es :=
  h.mono (List.suffix_append ..).isInfix

end AllIn

/-- An expression over some tokens whose sub-expressions are read from parts of them. -/
theorem ReadFrom.node (h : e.location.Spans xs) (hchildren : AllIn xs e.children) :
    e.ReadFrom xs where
  spans := h
  wellPlaced hx := by
    refine .node (h.forward hx) (fun x hmem => ?_) fun x hmem => (hchildren x hmem).wellPlaced hx
    obtain ⟨part, l, hpart, hl, he⟩ := hchildren x hmem
    exact (h.covers hl hx hpart).trans (he (hx.sublist hpart.sublist)).1

theorem ReadFrom.children (h : e.ReadFrom xs) : AllIn xs e.children := by
  intro x hx
  refine ⟨xs, e.location, List.infix_rfl, h.spans, fun hxs => ?_⟩
  obtain ⟨-, hcovers, hplaced⟩ := h.wellPlaced hxs
  exact ⟨hcovers x hx, hplaced x hx⟩

theorem ReadFrom.joined (ys : List Token) {a b : Location} (ha : a.Spans xs) (hb : b.Spans zs)
    (h : e.location = a.union b) (hchildren : AllIn (xs ++ (ys ++ zs)) e.children) :
    e.ReadFrom (xs ++ (ys ++ zs)) := by
  refine .node ?_ hchildren
  rw [h]
  exact ha.union ys hb

end Expr

end BrightScript
