import BrightScript.Proofs.Joining
import BrightScript.Proofs.Casing

/-!
# Parsing is compositional

When a newline and a second text follow a text, the tokens of both are found, those of the second one
further down and further on. With what is known of lists of tokens, the scripts of both texts are
read one after the other.
-/

namespace BrightScript

variable {c : Char} {rest text : List Char} {place : Place} {source : String}

/-! ## Tokens before the end -/

namespace Lexeme

theorem symbol?_not_end {extra : Nat} {m : Mark} (h : symbol? c rest = some (extra, m)) :
    TokenKind.isEnd (.mark m) = false := by
  unfold symbol? at h
  split at h
  case h_24 => split at h <;> cases h <;> rfl
  all_goals
    cases h
  all_goals
    rfl

theorem word_not_end {kind : TokenKind} (h : (word c rest).content = .token kind) :
    kind.isEnd = false := by
  have hmark {m : Mark} (hm : m ∉ [Mark.newline, .endOfText]) : TokenKind.isEnd (.mark m) = false :=
    beq_eq_false_iff_ne.2 (List.ne_of_not_mem_cons (List.not_mem_of_not_mem_cons hm))
  unfold word at h
  dsimp only at h
  split at h
  · cases h
    rfl
  · split at h
    · cases h
    · split at h
      · next m length hjoined =>
        cases h
        unfold joined at hjoined
        dsimp only at hjoined
        obtain ⟨-, hjoined⟩ := Option.ite_none_left_eq_some.1 hjoined
        obtain ⟨m', hjoin, heq⟩ := Option.map_eq_some_iff.1 hjoined
        cases heq
        exact hmark (TokenKind.join?_not_mem hjoin)
      · cases h
        split
        · next m hword => exact hmark (Mark.ofWord?_not_mem hword)
        · rfl

theorem ofText_not_end {kind : TokenKind} (h : (ofText c rest).content = .token kind) :
    kind.isEnd = false := by
  unfold ofText at h
  split at h
  · cases h
  · split at h
    · cases h
      rfl
    · split at h
      · cases h
      · split at h
        · exact word_not_end h
        · split at h
          · unfold number at h
            split at h
            · next hliteral =>
              cases h
              exact NumericLiteral.is_ofText hliteral _
            · cases h
            · cases h
          · split at h
            · unfold string at h
              split at h
              · cases h
                rfl
              · cases h
            · split at h
              · next hsymbol =>
                cases h
                exact symbol?_not_end hsymbol
              · cases h

end Lexeme

/-! ## A text behind another -/

namespace Place

/-- The point some lines further down and some bytes further on. -/
def behind (lines bytes : Nat) (p : Place) : Place :=
  ⟨p.offset + bytes, Relocation.lower lines p.position⟩

variable (lines bytes : Nat)

theorem next_behind (p : Place) (c : Char) :
    (p.behind lines bytes).next c = (p.next c).behind lines bytes := by
  simp only [next, behind, Relocation.lower]
  split <;> simp only [Nat.add_right_comm]

theorem after_behind (p : Place) (text : List Char) :
    (p.behind lines bytes).after text = (p.after text).behind lines bytes := by
  induction text generalizing p with
  | nil => rfl
  | cons c rest ih =>
    show ((p.behind lines bytes).next c).after rest = _
    rw [next_behind, ih]
    rfl

end Place

namespace Token

theorem scanFrom_place (file : String) (place : Place) (text : List Char) (found : Found) :
    (scanFrom file place text found).2 = place.after text := by
  fun_induction scanFrom file place text found with
  | case1 => rfl
  | case2 place found c rest lexeme stop ih =>
    rw [ih, ← Place.after_append, List.cons_append, List.take_append_drop]

theorem scanFrom_endless {file : String} {found : Found} (h : Endless found.tokens) :
    Endless (scanFrom file place text found).1.tokens := by
  fun_induction scanFrom file place text found with
  | case1 => exact h
  | case2 place found c rest lexeme stop ih =>
    refine ih ?_
    cases hcontent : lexeme.content with
    | skipped => exact h
    | token kind => exact List.forall_mem_cons.2 ⟨Lexeme.ofText_not_end hcontent, h⟩
    | error message => exact h

section
variable {file : String} (lines bytes count : Nat) (base : List Token)

theorem Found.add_behind (found : Found) (start stop : Place) {content : Lexeme.Content}
    (h : ∀ message, content ≠ .error message) :
    Found.add ⟨found.tokens.map (relocated (.after lines bytes count)) ++ base, []⟩ file
        (start.behind lines bytes) (stop.behind lines bytes) content =
      ⟨(found.add file start stop content).tokens.map (relocated (.after lines bytes count)) ++ base,
        []⟩ := by
  cases content with
  | skipped | token => rfl
  | error message => exact absurd rfl (h message)

/-- A text without errors is scanned in the same way further down, after other tokens. -/
theorem scanFrom_behind {found : Found} (h : (scanFrom file place text found).1.errors = []) :
    scanFrom file (place.behind lines bytes) text
        ⟨found.tokens.map (relocated (.after lines bytes count)) ++ base, []⟩ =
      (⟨(scanFrom file place text found).1.tokens.map (relocated (.after lines bytes count)) ++ base,
        []⟩, (scanFrom file place text found).2.behind lines bytes) := by
  fun_induction scanFrom file place text found with
  | case1 => rw [scanFrom]
  | case2 place found c rest lexeme stop ih =>
    obtain ⟨-, hcontent⟩ := Found.add_errors (errors_of_scanFrom h)
    rw [scanFrom]
    show scanFrom file ((place.behind lines bytes).after _) _ _ = _
    rw [Place.after_behind, Found.add_behind lines bytes count base found place _ hcontent]
    exact ih h

end

theorem cased_asWritten (t : Token) : t.cased .asWritten = t := by
  have htext (s : String) : Casing.asWritten.text s = s := by
    rw [Casing.text, Casing.asWritten, List.map_id, String.ofList_toList]
  obtain ⟨kind, location⟩ := t
  cases kind with
  | identifier | string => rw [cased, TokenKind.cased, htext]
  | _ => rfl

/-- A text without errors is scanned in the same way with a line behind it. -/
theorem scanFrom_newline {file : String} (more : List Char)
    (h : (scanFrom file place text ⟨[], []⟩).1.errors = []) :
    scanFrom file place (text ++ '\n' :: more) ⟨[], []⟩ =
      scanFrom file ((place.after text).next '\n') more
        ⟨⟨.mark .newline, (place.after text).range ((place.after text).next '\n') file⟩ ::
          (scanFrom file place text ⟨[], []⟩).1.tokens, []⟩ := by
  have hline := scanFrom_line .asWritten (.inr ⟨more, rfl⟩) h
  rw [List.map_nil, funext cased_asWritten, List.map_id', Casing.asWritten, List.map_id,
    scanFrom_place] at hline
  rw [hline, scanFrom]
  rfl

end Token

/-- The line behind a text starts some lines and bytes behind the start. -/
theorem Place.next_after (text : List Char) :
    (Place.start.after text).next '\n' =
      Place.start.behind (text.count '\n' + 1) (byteLength text + 1) := by
  have hline : (Place.start.after text).position.line = text.count '\n' + 1 := by
    rw [position_after_start]
  rw [next, if_pos rfl, offset_after, hline, Nat.add_assoc, Nat.add_comm _ 1]
  rfl

namespace Parser.Scripts

/-- The tokens found in two texts, the second on the lines behind the first. -/
def ofTexts (file a b : String) : Scripts where
  first := (Token.scanFrom file .start a.toList ⟨[], []⟩).1.tokens.reverse
  stop := Token.ofEnd file (Place.start.after a.toList)
  newline := ⟨.mark .newline,
    (Place.start.after a.toList).range ((Place.start.after a.toList).next '\n') file⟩
  second := (Token.ofEnd file (Place.start.after b.toList) ::
    (Token.scanFrom file .start b.toList ⟨[], []⟩).1.tokens).reverse
  lines := a.toList.count '\n' + 1
  bytes := byteLength a.toList + 1
  endless t ht := Token.scanFrom_endless .nil t (List.mem_reverse.1 ht)
  stop_kind := rfl
  newline_kind := rfl
  newline_upTo _ := rfl
  second_ends := ⟨_, by rw [List.getLast?_reverse, List.head?_cons], rfl⟩

variable {file a b : String} {tokens others : List Token}

theorem alone_ofTexts (ha : Token.scan file a = .ok tokens) : (ofTexts file a b).alone = tokens := by
  rw [(Token.scan_ok ha).2, Token.scanFrom_place, List.reverse_cons]
  rfl

theorem second_ofTexts (hb : Token.scan file b = .ok others) :
    (ofTexts file a b).second = others := by
  rw [(Token.scan_ok hb).2, Token.scanFrom_place]
  rfl

/-- Both texts with a newline between them have the tokens of both. -/
theorem scan_both (ha : Token.scan file a = .ok tokens) (hb : Token.scan file b = .ok others) :
    Token.scan file (a ++ "\n" ++ b) = .ok (ofTexts file a b).both := by
  have htext : (a ++ "\n" ++ b).toList = a.toList ++ '\n' :: b.toList := by
    rw [String.toList_append, String.toList_append, List.append_assoc]
    rfl
  have hbehind := Token.scanFrom_behind (a.toList.count '\n' + 1) (byteLength a.toList + 1) 0
    ((ofTexts file a b).newline :: (Token.scanFrom file .start a.toList ⟨[], []⟩).1.tokens)
    (Token.scan_ok hb).1
  rw [List.map_nil, List.nil_append, Token.scanFrom_place, ← Place.next_after] at hbehind
  have hscan := (Token.scanFrom_newline b.toList (Token.scan_ok ha).1).trans hbehind
  rw [Token.scan, htext, hscan]
  refine congrArg Except.ok ?_
  simp only [List.reverse_cons, List.reverse_append, List.append_assoc, both, ofTexts,
    List.map_append, List.map_reverse, List.map_cons, List.map_nil, List.cons_append,
    List.nil_append]
  rfl

end Parser.Scripts

/-- How many names the functions without one take in a script. -/
def unnamedIn (file source : String) : Nat :=
  match Token.scan file source with
  | .ok tokens => Parser.unnamedIn tokens
  | .error _ => 0

/-- A text that can be read has tokens that can be read. -/
theorem scan_of_parse {file : String} {sts : List Statement} (h : parse file source = .ok sts) :
    ∃ tokens, Token.scan file source = .ok tokens ∧ parseTokens tokens = .ok sts ∧
      unnamedIn file source = Parser.unnamedIn tokens := by
  rw [parse] at h
  cases hscan : Token.scan file source with
  | ok tokens =>
    simp only [hscan] at h
    exact ⟨tokens, rfl, h, by simp only [unnamedIn, hscan]⟩
  | error errors =>
    simp only [hscan] at h
    cases h

/-- Two texts that can be read make one with a newline between them that is read as the statements
of the first and then those of the second, which are moved down and get the next numbers for their
functions without a name. Only a text that ends in an open `if` cannot be followed by another. -/
theorem parse_append {file a b : String} {as bs : List Statement} (ha : parse file a = .ok as)
    (hb : parse file b = .ok bs) :
    parse file (a ++ "\n" ++ b) =
        .ok (as ++ bs.map (Statement.relocated
          (.after (a.toList.count '\n' + 1) (byteLength a.toList + 1) (unnamedIn file a)))) ∨
      ∃ tokens errors, Token.scan file a = .ok tokens ∧ EndsInOpenIf tokens ∧ errors ≠ [] ∧
        parse file (a ++ "\n" ++ b) = .error errors := by
  obtain ⟨tokens, hscan, hparse, hcount⟩ := scan_of_parse ha
  obtain ⟨others, hscan', hparse', -⟩ := scan_of_parse hb
  have hboth : parse file (a ++ "\n" ++ b) = parseTokens (Parser.Scripts.ofTexts file a b).both := by
    simp only [parse, Parser.Scripts.scan_both hscan hscan']
  have halone := Parser.Scripts.alone_ofTexts (b := b) hscan
  rw [← halone] at hparse
  rw [← Parser.Scripts.second_ofTexts (a := a) hscan'] at hparse'
  rw [hboth, hcount, ← halone]
  obtain hok | ⟨hopen, errors, hne, herror⟩ :=
    (Parser.Scripts.ofTexts file a b).parse_both hparse hparse'
  · exact .inl hok
  · exact .inr ⟨_, errors, by rw [hscan, halone], hopen, hne, herror⟩

/-- The errors of a text, if it has some. -/
def errors? (file source : String) : Option (List SyntaxError) :=
  match parse file source with
  | .ok _ => none
  | .error errors => some errors

theorem exists_parse_of_errors? {file : String} (h : errors? file source = none) :
    ∃ sts, parse file source = .ok sts := by
  rw [errors?] at h
  cases hparse : parse file source with
  | ok sts => exact ⟨sts, rfl⟩
  | error errors => simp only [hparse] at h; cases h

theorem parse_of_errors? {file : String} {errors : List SyntaxError}
    (h : errors? file source = some errors) : parse file source = .error errors := by
  rw [errors?] at h
  cases hparse : parse file source with
  | ok sts => simp only [hparse] at h; cases h
  | error errors' => simp only [hparse] at h; cases h; rfl

/-- A function without a name in each text: the second one gets the number 1. -/
theorem parse_append_unnamed :
    ∃ as bs, parse "main.brs" "f = function()\nend function" = .ok as ∧
      parse "main.brs" "print sub()\nend sub" = .ok bs ∧
      unnamedIn "main.brs" "f = function()\nend function" = 1 ∧
      parse "main.brs" ("f = function()\nend function" ++ "\n" ++ "print sub()\nend sub") =
        .ok (as ++ bs.map (Statement.relocated (.after 2 28 1))) := by
  obtain ⟨as, ha⟩ := exists_parse_of_errors?
    (show errors? "main.brs" "f = function()\nend function" = none by decide +kernel)
  obtain ⟨bs, hb⟩ := exists_parse_of_errors?
    (show errors? "main.brs" "print sub()\nend sub" = none by decide +kernel)
  obtain ⟨sts, hsts⟩ := exists_parse_of_errors?
    (show errors? "main.brs" ("f = function()\nend function" ++ "\n" ++ "print sub()\nend sub") = none
      by decide +kernel)
  have hcount : unnamedIn "main.brs" "f = function()\nend function" = 1 := by decide +kernel
  refine ⟨as, bs, ha, hb, hcount, ?_⟩
  obtain hok | ⟨tokens, errors, -, -, -, herror⟩ := parse_append ha hb
  · rw [hcount] at hok
    exact hok
  · rw [hsts] at herror
    cases herror

/-- An `if` at the end of a text has no branch, but before a newline it opens a block. -/
theorem parse_append_open_if :
    (∃ as, parse "main.brs" "if x then" = .ok as) ∧ (∃ bs, parse "main.brs" "print 1" = .ok bs) ∧
      parse "main.brs" ("if x then" ++ "\n" ++ "print 1") =
        .error [⟨"A block (such as FOR/NEXT or IF/ENDIF) was not terminated correctly.",
          ⟨"main.brs", ⟨2, 7⟩, ⟨2, 7⟩, ⟨17, 17⟩⟩, some "expected [ElseIf, Else, EndIf]"⟩] :=
  ⟨exists_parse_of_errors? (by decide +kernel), exists_parse_of_errors? (by decide +kernel),
    parse_of_errors? (by decide +kernel)⟩

end BrightScript
