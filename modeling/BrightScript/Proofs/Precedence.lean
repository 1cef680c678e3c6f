import BrightScript.Proofs.Tandem

/-!
# Precedence of operators

An infix phrase is an atom, which is a name or a constant, and any number of operators with an atom
behind each. `Phrase.Tree` says how it groups: the root is the last of the operators that bind the
loosest, and both sides group in the same way. The parser climbs instead: an operand takes with it
all operators that bind more strongly than the one before it, and powers have a loop of their own.
Both loops keep the same invariant (`iterate_reads`): what has been read is a tree none of whose
operators binds more loosely than the next one.
-/

namespace BrightScript

variable {budget : Nat} {op : BinaryOp}

def BinaryOp.mark : BinaryOp → Mark
  | add => .plus | subtract => .minus | multiply => .star | divide => .slash
  | intDivide => .backslash | modulo => .modWord | power => .caret
  | leftShift => .shiftLeft | rightShift => .shiftRight
  | equal => .equal | notEqual => .notEqual | less => .less | lessEqual => .lessEqual
  | greater => .greater | greaterEqual => .greaterEqual
  | and => .andWord | or => .orWord

/-- How strongly an operator binds; three is left to the operand of `not`. -/
def BinaryOp.strength : BinaryOp → Nat
  | or => 1
  | and => 2
  | equal | notEqual | less | lessEqual | greater | greaterEqual => 4
  | leftShift | rightShift => 5
  | add | subtract => 6
  | multiply | divide | intDivide | modulo => 7
  | power => 8

def Literal.kind : Literal → TokenKind
  | invalid => .mark .invalidWord
  | boolean true => .mark .trueWord
  | boolean false => .mark .falseWord
  | string value => .string value
  | integer value => .integer value
  | longInteger value => .longInteger value
  | float value => .float value
  | double value => .double value

namespace Phrase

/-- An operand of one token: a name or a constant. -/
inductive Atom where
  | name (identifier : Identifier)
  | constant (value : Literal) (location : Location)

def Atom.token : Atom → Token
  | name identifier => ⟨.identifier identifier.name, identifier.location⟩
  | constant value location => ⟨value.kind, location⟩

def Atom.expr : Atom → Expr
  | name identifier => .reference identifier
  | constant value location => .literal value location

/-- A binary operator, where it stands, and the atom behind it. -/
structure Operation where
  op : BinaryOp
  location : Location
  operand : Atom

def Operation.token (o : Operation) : Token :=
  ⟨.mark o.op.mark, o.location⟩

def tokens (operations : List Operation) : List Token :=
  operations.flatMap fun o => [o.token, o.operand.token]

theorem tokens_append (xs ys : List Operation) : tokens (xs ++ ys) = tokens xs ++ tokens ys :=
  List.flatMap_append

/-- How an infix phrase groups. The root of a phrase with operators is the rightmost of those that
bind the loosest: none on its left binds more loosely, and all on its right bind more strongly. -/
inductive Tree : Atom → List Operation → Expr → Prop
  | atom (a : Atom) : Tree a [] a.expr
  | binary {a : Atom} {left right : List Operation} {o : Operation} {l r : Expr} :
      (∀ p ∈ left, o.op.strength ≤ p.op.strength) → (∀ p ∈ right, o.op.strength < p.op.strength) →
      Tree a left l → Tree o.operand right r →
      Tree a (left ++ o :: right) (.binary l o.op r (l.location.union r.location))

theorem root_unique {left left' right right' : List Operation} {o o' : Operation}
    (h : left ++ o :: right = left' ++ o' :: right')
    (hl : ∀ p ∈ left, o.op.strength ≤ p.op.strength)
    (hr : ∀ p ∈ right, o.op.strength < p.op.strength)
    (hl' : ∀ p ∈ left', o'.op.strength ≤ p.op.strength)
    (hr' : ∀ p ∈ right', o'.op.strength < p.op.strength) :
    left = left' ∧ o = o' ∧ right = right' := by
  rcases List.append_eq_append_iff.1 h with ⟨middle, rfl, hmiddle⟩ | ⟨middle, rfl, hmiddle⟩
  · cases middle with
    | nil => simpa using hmiddle
    | cons p middle =>
      -- The first root stands left of the second one, which stands right of it.
      obtain ⟨rfl, rfl⟩ := List.cons.inj hmiddle
      have h1 := hl' o (by simp)
      have h2 := hr o' (by simp)
      omega
  · cases middle with
    | nil => simpa [eq_comm] using hmiddle
    | cons p middle =>
      obtain ⟨rfl, rfl⟩ := List.cons.inj hmiddle
      have h1 := hl o' (by simp)
      have h2 := hr' o (by simp)
      omega

theorem Tree.unique {a : Atom} {operations : List Operation} {e e' : Expr}
    (h : Tree a operations e) (h' : Tree a operations e') : e = e' := by
  induction h generalizing e' with
  | atom a =>
    generalize hops : ([] : List Operation) = operations at h'
    cases h' with
    | atom => rfl
    | binary => simp at hops
  | @binary a left right o l r hleft hright _ _ ihl ihr =>
    generalize hops : left ++ o :: right = operations at h'
    cases h' with
    | atom => simp at hops
    | binary hleft' hright' hl' hr' =>
      obtain ⟨rfl, rfl, rfl⟩ := root_unique hops hleft hright hleft' hright'
      rw [ihl hl', ihr hr']

/-- The marks that open a call, a member or an index behind an expression. -/
def openers : List Mark :=
  [.leftParen, .questionParen, .dot, .questionDot, .leftBracket, .questionBracket, .atSign]

/-- Whether a token ends an infix phrase: it is no operator and opens nothing behind an atom. -/
def closes (kind : TokenKind) : Bool :=
  (Grammar.operator? kind).isNone && !kind.is .caret && !kind.isOneOf openers

theorem closes_iff {kind : TokenKind} : closes kind = true ↔
    Grammar.operator? kind = none ∧ kind.is .caret = false ∧ kind.isOneOf openers = false := by
  simp [closes, and_assoc]

end Phrase

/-! ## Cursors in front of a phrase -/

namespace Cursor

open Phrase

def passing (c : Cursor) (passed : List Token) : Cursor :=
  { c with rest := c.rest.drop passed.length, previous := passed.getLast?.or c.previous }

@[simp] theorem passing_nil (c : Cursor) : c.passing [] = c := rfl

theorem passing_append (c : Cursor) (xs ys : List Token) :
    c.passing (xs ++ ys) = (c.passing xs).passing ys := by
  simp only [passing, List.length_append, List.drop_drop, List.getLast?_append, Option.or_assoc]

theorem advance_eq {c : Cursor} {t : Token} {more : List Token} (h : c.rest = t :: more) :
    c.advance = c.passing [t] := by
  rw [advance, passing, h]
  rfl

theorem peek_eq {c : Cursor} {t : Token} {more : List Token} (h : c.rest = t :: more) :
    c.peek = t := by
  rw [peek, h]
  rfl

/-- Operations come next, and after them a token that ends the phrase. -/
def Faces (c : Cursor) (operations : List Operation) : Prop :=
  ∃ next more, c.rest = tokens operations ++ next :: more ∧ closes next.kind = true

/-- An infix phrase comes next, and after it a token that ends it. -/
def FacesPhrase (c : Cursor) (a : Atom) (operations : List Operation) : Prop :=
  ∃ next more, c.rest = a.token :: (tokens operations ++ next :: more) ∧ closes next.kind = true

variable {c : Cursor} {a : Atom} {o : Operation} {operations : List Operation}

theorem FacesPhrase.peek (h : c.FacesPhrase a operations) : c.peek = a.token := by
  obtain ⟨next, more, hrest, -⟩ := h
  exact peek_eq hrest

theorem FacesPhrase.advance (h : c.FacesPhrase a operations) :
    c.advance = c.passing [a.token] := by
  obtain ⟨next, more, hrest, -⟩ := h
  exact advance_eq hrest

theorem FacesPhrase.faces (h : c.FacesPhrase a operations) :
    (c.passing [a.token]).Faces operations := by
  obtain ⟨next, more, hrest, hnext⟩ := h
  exact ⟨next, more, by rw [passing, hrest]; rfl, hnext⟩

theorem Faces.peek (h : c.Faces (o :: operations)) : c.peek = o.token := by
  obtain ⟨next, more, hrest, -⟩ := h
  exact peek_eq hrest

theorem Faces.advance (h : c.Faces (o :: operations)) :
    c.advance = c.passing [o.token] := by
  obtain ⟨next, more, hrest, -⟩ := h
  exact advance_eq hrest

theorem Faces.phrase (h : c.Faces (o :: operations)) :
    (c.passing [o.token]).FacesPhrase o.operand operations := by
  obtain ⟨next, more, hrest, hnext⟩ := h
  exact ⟨next, more, by rw [passing, hrest]; rfl, hnext⟩

theorem Faces.passing (right : List Operation) (h : c.Faces (right ++ operations)) :
    (c.passing (tokens right)).Faces operations := by
  obtain ⟨next, more, hrest, hnext⟩ := h
  refine ⟨next, more, ?_, hnext⟩
  rw [Cursor.passing, hrest, tokens_append, List.append_assoc]
  exact List.drop_left

/-- After the last operation comes a token that is no operator. -/
theorem Faces.closes (h : c.Faces []) : closes c.peek.kind = true := by
  obtain ⟨next, more, hrest, hnext⟩ := h
  rwa [peek_eq hrest]

/-- What follows an atom of the phrase opens nothing behind it. -/
theorem Faces.not_opens (h : c.Faces operations) : c.peek.kind.isOneOf openers = false := by
  cases operations with
  | nil => exact (closes_iff.1 h.closes).2.2
  | cons o operations =>
    rw [h.peek, Operation.token]
    cases o.op <;> rfl

end Cursor

/-! ## Atoms and powers -/

namespace Grammar

open Phrase BrightScript.Parser

variable {g : Grammar} {c : Cursor} {a : Atom} {o : Operation} {operations : List Operation}

theorem atom_kind (a : Atom) : a.token.kind.is .minus = false ∧ a.token.kind.is .notWord = false ∧
    sign? a.token.kind = none := by
  cases a with
  | name identifier => exact ⟨rfl, rfl, rfl⟩
  | constant value location =>
    cases value with
    | boolean value => cases value <;> exact ⟨rfl, rfl, rfl⟩
    | _ => exact ⟨rfl, rfl, rfl⟩

theorem primary_atom (h : c.peek = a.token) (budget : Nat) :
    g.primary budget c = .done a.expr c.advance := by
  unfold primary
  simp only [Routine.bind_apply, peek, Routine.view_apply, h]
  cases a with
  | name identifier => rfl
  | constant value location =>
    cases value with
    | boolean value => cases value <;> rfl
    | _ => rfl

theorem link_done (h : c.peek.kind.isOneOf openers = false) (budget : Nat) (e : Expr) :
    g.link budget e c = .done (.inr e) c := by
  have hnone {m : Mark} (hm : m ∈ openers) : c.peek.kind ≠ .mark m := fun hkind =>
    Bool.eq_false_iff.1 h (TokenKind.isOneOf_iff.2 ⟨m, hm, hkind⟩)
  have hpart {ms : List Mark} (hms : ms ⊆ openers) : c.peek.kind.isOneOf ms = false := by
    rw [Bool.eq_false_iff, Ne, TokenKind.isOneOf_iff]
    rintro ⟨m, hm, hkind⟩
    exact hnone (hms hm) hkind
  have hat : c.peek.kind.is .atSign = false := by
    rw [Bool.eq_false_iff, Ne, TokenKind.is_iff]
    exact hnone (by decide)
  unfold link
  simp only [Routine.bind_apply, peekKind, Routine.view_apply]
  rw [hpart (by decide), hpart (by decide), hpart (by decide), hat]
  rfl

theorem chain_atom (h : c.FacesPhrase a operations) (hb : 0 < budget) :
    g.chain budget c = .done a.expr (c.passing [a.token]) := by
  obtain ⟨budget, rfl⟩ := Nat.exists_eq_succ_of_ne_zero (Nat.ne_of_gt hb)
  rw [chain, Routine.bind_apply, primary_atom h.peek, h.advance]
  dsimp only
  rw [Routine.iterate_succ, link_done h.faces.not_opens]

theorem exponent_atom (h : c.FacesPhrase a operations) (hb : 0 < budget) :
    g.exponent budget c = .done a.expr (c.passing [a.token]) := by
  have hminus : c.peek.kind.is .minus = false := by rw [h.peek, (atom_kind a).1]
  unfold exponent
  simp only [Routine.bind_apply, check, Routine.view_apply, hminus]
  exact chain_atom h hb

/-! ## Climbing -/

/-- A parser reads an infix phrase up to the first operator below a strength, and groups what it has
read. -/
def Climbs (p : Parser Expr) (least : Nat) (c : Cursor) (a : Atom) (operations : List Operation) :
    Prop :=
  ∃ taken left e, operations = taken ++ left ∧ (∀ o ∈ taken, least ≤ o.op.strength) ∧
    (∀ o ∈ left.head?, o.op.strength < least) ∧ Tree a taken e ∧
    p c = .done e (c.passing (a.token :: tokens taken))

/-- The step of a loop that takes operators from the strength `least` up to the strength `top`, each
with an operand that has climbed above it. -/
structure Climber (step : Expr → Parser (Expr ⊕ Expr)) (least top bound : Nat) : Prop where
  go : ∀ (left : Expr) {c : Cursor} {o : Operation} {operations : List Operation},
    c.Faces (o :: operations) → operations.length < bound → least ≤ o.op.strength →
    o.op.strength ≤ top →
    ∃ p, Climbs p (o.op.strength + 1) (c.passing [o.token]) o.operand operations ∧
      step left c = (p >>= fun right =>
        pure (.inl (.binary left o.op right (left.location.union right.location))))
          (c.passing [o.token])
  stop : ∀ {left : Expr} {c : Cursor} {operations : List Operation}, c.Faces operations →
    (∀ o ∈ operations.head?, o.op.strength < least) → step left c = .done (.inr left) c

section Climber

variable {step : Expr → Parser (Expr ⊕ Expr)} {least top bound : Nat}
  (h : Climber step least top bound)
include h

/-- The loop has read the tree `left` of the operations `before`, and the next operator binds no more
strongly than any of these. -/
theorem Climber.iterate (budget : Nat) {before : List Operation} {left : Expr} {c : Cursor}
    {operations : List Operation} (hbudget : operations.length < budget)
    (hbound : operations.length ≤ bound) (hc : c.Faces operations) (hleft : Tree a before left)
    (hnext : ∀ o ∈ operations.head?,
      o.op.strength ≤ top ∧ ∀ p ∈ before, o.op.strength ≤ p.op.strength) :
    ∃ taken rest e, operations = taken ++ rest ∧ (∀ o ∈ taken, least ≤ o.op.strength) ∧
      (∀ o ∈ rest.head?, o.op.strength < least) ∧ Tree a (before ++ taken) e ∧
      Routine.iterate step budget left c = .done e (c.passing (tokens taken)) := by
  induction budget generalizing before left c operations with
  | zero => omega
  | succ budget ih =>
    rw [Routine.iterate_succ]
    by_cases hlow : ∀ o ∈ operations.head?, o.op.strength < least
    · refine ⟨[], operations, left, rfl, by simp, hlow, by simpa using hleft, ?_⟩
      rw [h.stop hc hlow]
      rfl
    · cases operations with
      | nil => simp at hlow
      | cons o operations =>
        have hleast : least ≤ o.op.strength := by simpa using hlow
        obtain ⟨htop, hbefore⟩ := hnext o rfl
        have hlength : operations.length < bound := hbound
        obtain ⟨p, ⟨right, rest, r, rfl, hright, hrest, hr, hp⟩, hstep⟩ :=
          h.go left hc hlength hleast htop
        have hpassed : step left c =
            .done (.inl (.binary left o.op r (left.location.union r.location)))
              (c.passing (tokens (o :: right))) := by
          rw [hstep, Routine.bind_apply, hp, ← Cursor.passing_append]
          rfl
        rw [List.length_cons, List.length_append] at hbudget
        rw [List.length_append] at hlength
        rw [hpassed]
        dsimp only
        have htree := Tree.binary hbefore hright hleft hr
        have hnext' : ∀ q ∈ rest.head?, q.op.strength ≤ top ∧
            ∀ p ∈ before ++ o :: right, q.op.strength ≤ p.op.strength := by
          intro q hq
          have hle : q.op.strength ≤ o.op.strength := Nat.lt_succ_iff.1 (hrest q hq)
          refine ⟨Nat.le_trans hle htop, fun p hp => ?_⟩
          rcases List.mem_append.1 hp with hp | hp
          · exact Nat.le_trans hle (hbefore p hp)
          · rcases List.mem_cons.1 hp with rfl | hp
            · exact hle
            · exact Nat.le_trans hle (Nat.le_of_lt (hright p hp))
        obtain ⟨taken, rest', e, rfl, htaken, hrest', he, hdone⟩ :=
          ih (by omega) (by omega) (hc.passing (o :: right)) htree hnext'
        refine ⟨o :: right ++ taken, rest', e, by simp, ?_, hrest', by simpa using he, ?_⟩
        · intro q hq
          rcases List.mem_append.1 hq with hq | hq
          · rcases List.mem_cons.1 hq with rfl | hq
            · exact hleast
            · exact Nat.le_trans hleast (Nat.le_of_lt (hright q hq))
          · exact htaken q hq
        · rw [hdone, tokens_append, Cursor.passing_append]

/-- A loop takes over where its first operand stops. -/
theorem Climber.climbs {p : Parser Expr} (hp : Climbs p (top + 1) c a operations)
    (hc : c.FacesPhrase a operations) (hleast : least ≤ top + 1)
    (hbudget : operations.length < budget) (hbound : operations.length ≤ bound) :
    Climbs (p >>= fun first => Routine.iterate step budget first) least c a operations := by
  obtain ⟨before, rest, left, rfl, hbefore, hrest, hleft, hdone⟩ := hp
  rw [List.length_append] at hbudget hbound
  have hfaces := hc.faces.passing before
  rw [← Cursor.passing_append] at hfaces
  obtain ⟨taken, rest', e, rfl, htaken, hrest', he, hloop⟩ :=
    h.iterate budget (by omega) (by omega) hfaces hleft fun o ho => by
      have hle : o.op.strength ≤ top := Nat.lt_succ_iff.1 (hrest o ho)
      exact ⟨hle, fun p hp => Nat.le_trans hle (Nat.le_of_succ_le (hbefore p hp))⟩
  refine ⟨before ++ taken, rest', e, by simp, fun o ho => ?_, hrest', he, ?_⟩
  · rcases List.mem_append.1 ho with ho | ho
    · exact Nat.le_trans hleast (hbefore o ho)
    · exact htaken o ho
  · rw [Routine.bind_apply, hdone]
    dsimp only
    rw [← List.singleton_append, hloop, ← Cursor.passing_append, tokens_append, List.append_assoc]
    rfl

end Climber

theorem strength_pos (op : BinaryOp) : 0 < op.strength := by
  cases op <;> decide

theorem strength_le (op : BinaryOp) : op.strength ≤ 8 := by
  cases op <;> decide

theorem op_eq_power (h : 8 ≤ op.strength) : op = .power := by
  cases op with
  | power => rfl
  | _ => exact absurd h (by decide)

theorem operator?_mark (h : op.strength < 8) :
    operator? (.mark op.mark) = some (op, op.strength) := by
  cases op with
  | power => exact absurd h (by decide)
  | _ => rfl

theorem mark_ne_caret (h : op.strength < 8) : (TokenKind.mark op.mark).is .caret = false := by
  cases op with
  | power => exact absurd h (by decide)
  | _ => rfl

/-- An atom takes no operator along. -/
theorem climbs_atom {p : Parser Expr} (h : p c = .done a.expr (c.passing [a.token])) :
    Climbs p 9 c a operations :=
  ⟨[], operations, a.expr, rfl, by simp, fun o _ => Nat.lt_succ_iff.2 (strength_le o.op), .atom a, h⟩

theorem powerStep_climber (hb : 0 < budget) (bound : Nat) :
    Climber (g.powerStep budget) 8 8 bound where
  go := by
    intro left c o operations hc _ hleast _
    have hop := op_eq_power hleast
    have hcaret : c.peek.kind.is .caret = true := by rw [hc.peek, Operation.token, hop]; rfl
    refine ⟨g.exponent budget, ?_, ?_⟩
    · rw [hop]
      exact climbs_atom (exponent_atom hc.phrase hb)
    · rw [hop, powerStep, accept_bind]
      simp only [Routine.bind_apply, check, Routine.view_apply, hcaret, ← hc.advance]
      rfl
  stop := by
    intro left c operations hc hlow
    have hcaret : c.peek.kind.is .caret = false := by
      cases operations with
      | nil => exact (closes_iff.1 hc.closes).2.1
      | cons o operations =>
        rw [hc.peek]
        exact mark_ne_caret (hlow o rfl)
    rw [powerStep, accept_bind]
    simp only [Routine.bind_apply, check, Routine.view_apply, hcaret]
    rfl

theorem power_climbs (h : c.FacesPhrase a operations) (hb : operations.length < budget) :
    Climbs (g.power budget) 8 c a operations := by
  have hpos : 0 < budget := Nat.zero_lt_of_lt hb
  exact (powerStep_climber hpos budget).climbs (climbs_atom (chain_atom h hpos)) h (by decide) hb
    (Nat.le_of_lt hb)

/-! ## Expressions -/

/-- An operand that starts with an atom is that atom with its powers. -/
theorem operand_climbs (h : c.FacesPhrase a operations) (hb : operations.length < budget) :
    Climbs (g.operand budget) 8 c a operations := by
  obtain ⟨-, hnot, hsign⟩ := atom_kind a
  have hsigned : g.signedRule budget c = g.power budget c := by
    unfold signedRule
    simp only [Routine.bind_apply, peekKind, Routine.view_apply, h.peek, hsign]
  have hpower : g.operand budget c = g.power budget c := by
    unfold operand
    simp only [Routine.bind_apply, check, Routine.view_apply, h.peek, hnot]
    exact hsigned
  unfold Climbs
  rw [hpower]
  exact power_climbs h hb

theorem operation_climber (bound least : Nat)
    (hg : ∀ {c : Cursor} {a : Atom} {operations : List Operation} {least : Nat}, least ≤ 8 →
      c.FacesPhrase a operations → operations.length < bound →
      Climbs (g.expression least) least c a operations) :
    Climber (g.operation least) least 7 bound where
  go := by
    intro left c o operations hc hlength hleast htop
    refine ⟨g.expression (o.op.strength + 1), hg (Nat.succ_le_succ htop) hc.phrase hlength, ?_⟩
    rw [← hc.advance, operation]
    simp only [Routine.bind_apply, peekKind, Routine.view_apply, hc.peek, Operation.token,
      operator?_mark (Nat.lt_succ_iff.2 htop), if_neg (Nat.not_lt.2 hleast)]
    rfl
  stop := by
    intro left c operations hc hlow
    unfold operation
    simp only [Routine.bind_apply, peekKind, Routine.view_apply]
    cases operations with
    | nil =>
      rw [(closes_iff.1 hc.closes).1]
      rfl
    | cons o operations =>
      rw [hc.peek, Operation.token]
      by_cases hop : o.op.strength < 8
      · rw [operator?_mark hop]
        dsimp only
        rw [if_pos (hlow o rfl)]
        rfl
      · rw [op_eq_power (Nat.not_lt.1 hop)]
        rfl

theorem expression_climbs (least : Nat) (hleast : least ≤ 8) (h : c.FacesPhrase a operations)
    (hb : operations.length + 1 < budget) :
    Climbs (parseExpression budget least) least c a operations := by
  induction budget generalizing c a operations least with
  | zero => omega
  | succ budget ih =>
    have hlength : operations.length < budget := Nat.succ_lt_succ_iff.1 hb
    rw [parseExpression]
    refine (operation_climber operations.length least ?_).climbs
      (operand_climbs h hlength) h hleast hlength (Nat.le_refl _)
    intro c a operations' least hleast hc hless
    exact ih least hleast hc (by omega)

end Grammar

/-- An infix phrase in front of a token that ends it is read as a whole, and its tree is the one that
has the rightmost of the loosest operators at the root and the trees of both sides below it. -/
theorem parseExpression_phrase (c : Cursor) (a : Phrase.Atom) (operations : List Phrase.Operation)
    (next : Token) (more : List Token) (budget : Nat)
    (hrest : c.rest = a.token :: Phrase.tokens operations ++ next :: more)
    (hnext : Phrase.closes next.kind = true) (hbudget : operations.length + 1 < budget) :
    ∃ e, (∀ e', Phrase.Tree a operations e' ↔ e' = e) ∧
      parseExpression budget Grammar.anyStrength c =
        .done e { c with
          rest := next :: more
          previous := (a.token :: Phrase.tokens operations).getLast? } := by
  obtain ⟨taken, left, e, rfl, -, hleft, htree, hdone⟩ :=
    Grammar.expression_climbs Grammar.anyStrength (by decide) ⟨next, more, hrest, hnext⟩
      hbudget
  have hnil : left = [] := by
    cases left with
    | nil => rfl
    | cons o left => exact absurd (hleft o rfl) (Nat.not_lt.2 (Grammar.strength_pos o.op))
  subst hnil
  rw [List.append_nil] at hrest ⊢
  refine ⟨e, fun e' => ⟨fun h => h.unique htree, fun h => h ▸ htree⟩, ?_⟩
  rw [hdone, Cursor.passing, hrest, List.drop_left, List.getLast?_cons]
  rfl

/-- In `a - 2 ^ b - c` at the end of a line the second minus is the root. -/
theorem parseExpression_phrase_minus :
    let here := Location.builtin
    let name s := Token.mk (.identifier s) here
    let mark m := Token.mk (.mark m) here
    let c := Cursor.ofTokens [name "a", mark .minus, ⟨.integer 2, here⟩, mark .caret, name "b",
      mark .minus, name "c", mark .newline, mark .endOfText]
    let reference s := Expr.reference ⟨s, here⟩
    parseExpression 5 Grammar.anyStrength c =
      .done (.binary
        (.binary (reference "a") .subtract
          (.binary (.literal (.integer 2) here) .power (reference "b") here) here)
        .subtract (reference "c") here)
        { c with
          rest := [mark .newline, mark .endOfText]
          previous := some (name "c") } := by
  intro here name mark c reference
  let a : Phrase.Atom := .name ⟨"a", here⟩
  let minus : Phrase.Operation := ⟨.subtract, here, .constant (.integer 2) here⟩
  let power : Phrase.Operation := ⟨.power, here, .name ⟨"b", here⟩⟩
  let last : Phrase.Operation := ⟨.subtract, here, .name ⟨"c", here⟩⟩
  obtain ⟨e, he, hdone⟩ := parseExpression_phrase c a [minus, power, last] (mark .newline)
    [mark .endOfText] 5 rfl rfl (by decide)
  have hpower : Phrase.Tree minus.operand ([] ++ [power]) _ :=
    .binary (by simp) (by simp) (.atom _) (.atom _)
  have hminus : Phrase.Tree a ([] ++ [minus, power]) _ :=
    .binary (by simp) (by simp [minus, power, BinaryOp.strength]) (.atom _) hpower
  have hlast : Phrase.Tree a ([minus, power] ++ [last]) _ :=
    .binary (by simp [minus, power, last, BinaryOp.strength]) (by simp) hminus (.atom _)
  rw [hdone, ← (he _).1 hlast]
  rfl

end BrightScript
