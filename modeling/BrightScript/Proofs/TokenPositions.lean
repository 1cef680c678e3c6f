import BrightScript.Token.Scan

/-!
# Where tokens stand

A text that has tokens is laid out as a gap, a token, a gap, a token, and so on, up to a gap before
its end (`Token.Layout`). A gap is made of blanks on one line, and its last part can be a comment,
which goes up to the end of the line. No token but the newline has a newline in it. All that is said
about the places of tokens follows from the layout: their order, the number of newlines, and that
the places tracked while scanning are those counted from the start of the text.
-/

namespace BrightScript

variable {c : Char} {m : Mark} {rest : List Char} {kind : TokenKind} {length : Nat}
  {literal : NumericLiteral}

/-! ## Bytes and positions -/

theorem foldl_utf8Size (bytes : Nat) (text : List Char) :
    text.foldl (fun bytes c => bytes + c.utf8Size) bytes = bytes + byteLength text := by
  rw [byteLength]
  induction text generalizing bytes with
  | nil => rfl
  | cons c rest ih =>
    rw [List.foldl_cons, List.foldl_cons, ih, ih (0 + c.utf8Size)]
    omega

@[simp] theorem byteLength_append (a b : List Char) :
    byteLength (a ++ b) = byteLength a + byteLength b := by
  rw [byteLength, List.foldl_append, foldl_utf8Size, foldl_utf8Size, Nat.zero_add]

@[simp] theorem byteLength_nil : byteLength [] = 0 := rfl

theorem byteLength_cons (c : Char) (rest : List Char) :
    byteLength (c :: rest) = c.utf8Size + byteLength rest := by
  rw [byteLength, List.foldl_cons, foldl_utf8Size, Nat.zero_add]

theorem byteLength_pos {text : List Char} (h : text ≠ []) : 0 < byteLength text := by
  cases text with
  | nil => exact absurd rfl h
  | cons c rest =>
    have := c.utf8Size_pos
    rw [byteLength_cons]
    omega

/-- A text is found again by its number of bytes. -/
@[simp] theorem takeBytes_byteLength (before rest : List Char) :
    takeBytes (byteLength before) (before ++ rest) = before := by
  induction before with
  | nil =>
    cases rest with
    | nil => rfl
    | cons c rest =>
      have := c.utf8Size_pos
      exact if_neg (by simp; omega)
  | cons c before ih =>
    rw [byteLength_cons, List.cons_append, takeBytes, if_pos (Nat.le_add_right _ _),
      Nat.add_sub_cancel_left, ih]

namespace Place

theorem after_append (p : Place) (a b : List Char) : p.after (a ++ b) = (p.after a).after b :=
  List.foldl_append

@[simp] theorem offset_after (p : Place) (text : List Char) :
    (p.after text).offset = p.offset + byteLength text := by
  induction text generalizing p with
  | nil => rfl
  | cons c rest ih =>
    have hnext : (p.next c).offset = p.offset + c.utf8Size := by
      unfold next
      split <;> rfl
    rw [byteLength_cons, ← Nat.add_assoc, ← hnext]
    exact ih _

theorem position_after_start (text : List Char) :
    (start.after text).position =
      ⟨text.count '\n' + 1, byteLength (text.reverse.takeWhile (· != '\n'))⟩ := by
  -- The text grows at its end, where the position changes.
  rw [← List.reverse_reverse text]
  induction text.reverse with
  | nil => rfl
  | cons c before ih =>
    rw [List.reverse_cons, after_append]
    show ((start.after before.reverse).next c).position = _
    rw [next]
    by_cases hc : c = '\n'
    · simp [hc, ih]
    · simp [hc, ih, byteLength_cons, Nat.add_comm]

theorem position_eq_ofOffset (before rest : List Char) :
    (start.after before).position = .ofOffset (before ++ rest) (byteLength before) := by
  rw [position_after_start, Position.ofOffset, takeBytes_byteLength]

theorem range_eq_ofSpan (file : String) (before taken rest : List Char) :
    (start.after before).range (start.after (before ++ taken)) file =
      .ofSpan file (before ++ (taken ++ rest))
        ⟨byteLength before, byteLength (before ++ taken)⟩ := by
  rw [range, Location.ofSpan, position_eq_ofOffset before (taken ++ rest),
    position_eq_ofOffset (before ++ taken) rest, List.append_assoc]
  simp [start]

@[simp] theorem span_range (file : String) (a b : List Char) :
    ((start.after a).range (start.after b) file).span = ⟨byteLength a, byteLength b⟩ := by
  simp [range, start]

end Place

def Span.text (source : List Char) (span : Span) : List Char :=
  (takeBytes span.stop source).drop (takeBytes span.start source).length

theorem Span.text_eq (before middle rest : List Char) :
    Span.text (before ++ (middle ++ rest)) ⟨byteLength before, byteLength (before ++ middle)⟩ =
      middle := by
  have hstop : takeBytes (byteLength (before ++ middle)) (before ++ (middle ++ rest)) =
      before ++ middle := by
    rw [← List.append_assoc]
    exact takeBytes_byteLength _ _
  rw [text, takeBytes_byteLength, hstop, List.drop_left]

def textFrom (source : List Char) (offset : Nat) : List Char :=
  Span.text source ⟨offset, byteLength source⟩

theorem textFrom_eq (before rest : List Char) :
    textFrom (before ++ rest) (byteLength before) = rest := by
  simpa [textFrom] using Span.text_eq before rest []

/-! ## What lexemes take -/

theorem take_length_takeWhile (p : Char → Bool) (l : List Char) :
    l.take (l.takeWhile p).length = l.takeWhile p :=
  (List.prefix_iff_eq_take.1 (List.takeWhile_prefix p)).symm

theorem drop_length_takeWhile (p : Char → Bool) (l : List Char) :
    l.drop (l.takeWhile p).length = l.dropWhile p := by
  have hcut := List.take_append_drop (l.takeWhile p).length l
  rw [take_length_takeWhile] at hcut
  exact List.append_cancel_left (hcut.trans List.takeWhile_append_dropWhile.symm)

theorem not_mem_takeWhile {p : Char → Bool} (hc : p c = false) (l : List Char) :
    c ∉ l.takeWhile p := by
  intro hmem
  have := List.all_eq_true.1 (List.all_takeWhile (p := p) (l := l)) c hmem
  rw [hc] at this
  cases this

/-- What comes after the characters that are not `c` is nothing or starts with `c`. -/
theorem dropWhile_ne_cases (c : Char) (l : List Char) :
    l.dropWhile (· != c) = [] ∨ ∃ rest, l.dropWhile (· != c) = c :: rest := by
  have hhead := List.head?_dropWhile_not (· != c) l
  cases h : l.dropWhile (· != c) with
  | nil => exact .inl rfl
  | cons d rest =>
    rw [h] at hhead
    have hd : d = c := by simpa using hhead
    exact .inr ⟨rest, by rw [hd]⟩

/-- The first characters of a text are on one line, in two steps. -/
theorem not_mem_take_add {l : List Char} {m n : Nat} (hm : c ∉ l.take m)
    (hn : c ∉ (l.drop m).take n) : c ∉ l.take (m + n) := by
  rw [List.take_add, List.mem_append]
  exact fun h => h.elim hm hn

/-- A comment: an apostrophe, or the word `rem` in any case of letters, and the rest of a line. -/
inductive IsComment : List Char → Prop
  | marked {text : List Char} : '\n' ∉ text → IsComment ('\'' :: text)
  | worded {word text : List Char} : Text.fold (String.ofList word) = "rem" →
      (∀ c ∈ text.head?, Lexeme.isWordChar c = false) → Lexeme.hasDesignator text = false →
      '\n' ∉ text → IsComment (word ++ text)

/-- What may stand in front of a text that starts with a token or is empty: blanks on one line, and
then perhaps a comment if the line ends there. -/
inductive Gap : (gap rest : List Char) → Prop
  | nil {rest : List Char} : Gap [] rest
  | blank {c : Char} {gap rest : List Char} : Text.isBlank c = true → c ≠ '\n' → Gap gap rest →
      Gap (c :: gap) rest
  | comment {text rest : List Char} : IsComment text → (rest = [] ∨ ∃ more, rest = '\n' :: more) →
      Gap text rest

variable {text : List Char}

theorem IsComment.not_mem (h : IsComment text) : '\n' ∉ text := by
  cases h with
  | marked h => simpa using h
  | @worded word text hword hhead hdesignator h =>
    rw [List.mem_append]
    rintro (hmem | hmem)
    · have hfold : '\n' ∈ (Text.fold (String.ofList word)).toList := by
        rw [Text.toList_fold, String.toList_ofList]
        exact List.mem_map.2 ⟨_, hmem, rfl⟩
      rw [hword] at hfold
      exact absurd hfold (by decide)
    · exact h hmem

theorem Gap.not_mem {gap : List Char} (h : Gap gap rest) : '\n' ∉ gap := by
  induction h with
  | nil => exact List.not_mem_nil
  | blank _ hc _ ih => simp [Ne.symm hc, ih]
  | comment h _ => exact h.not_mem

namespace NumericLiteral

theorem not_mem_digits (text : List Char) :
    '\n' ∉ text.take (text.takeWhile Char.isDigit).length := by
  rw [take_length_takeWhile]
  exact not_mem_takeWhile rfl text

theorem not_mem_mantissa {text whole fraction : List Char} {pointed : Bool}
    (h : mantissa text = some (whole, fraction, pointed)) :
    '\n' ∉ text.take (whole.length + fraction.length + if pointed then 1 else 0) := by
  unfold mantissa at h
  dsimp only at h
  split at h
  · next rest hrest =>
    obtain ⟨-, h⟩ := Option.ite_none_left_eq_some.1 h
    cases h
    rw [Nat.add_right_comm, Nat.add_assoc]
    refine not_mem_take_add (not_mem_digits text) ?_
    rw [hrest, if_pos rfl, Nat.add_comm]
    simpa using not_mem_digits rest
  · obtain ⟨-, h⟩ := Option.ite_none_left_eq_some.1 h
    cases h
    exact not_mem_digits text

theorem not_mem_exponent {letter : Char} {value : Int}
    (h : exponent text = some (letter, value, length)) : '\n' ∉ text.take length := by
  cases text with
  | nil => cases h
  | cons c rest =>
    unfold exponent at h
    dsimp only at h
    obtain ⟨hc, h⟩ := Option.ite_none_right_eq_some.1 h
    obtain ⟨-, h⟩ := Option.ite_none_left_eq_some.1 h
    obtain ⟨rfl, -, rfl⟩ : c = letter ∧ _ ∧ _ = length := by simpa using h
    have hletter : '\n' ∉ (c :: rest).take 1 := by
      intro hmem
      obtain rfl : '\n' = c := by simpa using hmem
      exact absurd hc (by decide)
    have hsign : '\n' ∉ rest.take (rest.length - (Decimal.takeSign rest).2.length) ∧
        rest.drop (rest.length - (Decimal.takeSign rest).2.length) =
          (Decimal.takeSign rest).2 := by
      unfold Decimal.takeSign
      split <;> simp
    rw [Nat.add_assoc]
    refine not_mem_take_add hletter ?_
    rw [List.drop_one, List.tail_cons]
    refine not_mem_take_add hsign.1 ?_
    rw [hsign.2]
    exact not_mem_digits _

theorem not_mem_suffix (text : List Char) :
    '\n' ∉ text.take (if (suffix text).isSome then 1 else 0) := by
  cases text with
  | nil => simp
  | cons c rest =>
    by_cases hc : '\n' = c
    · subst hc
      simp [suffix]
    · split <;> simp [hc]

theorem not_mem_decimal (h : decimal text = some literal) :
    '\n' ∉ text.take literal.length := by
  unfold decimal at h
  split at h
  · cases h
  · next whole fraction pointed hmantissa =>
    cases h
    have hnumber := not_mem_mantissa hmantissa
    dsimp only
    generalize whole.length + fraction.length + (if pointed then 1 else 0) = m at hnumber ⊢
    refine not_mem_take_add (not_mem_take_add hnumber ?_) ?_
    · cases hpower : exponent (text.drop m) with
      | none => simp
      | some power => exact not_mem_exponent hpower
    · rw [← List.drop_drop]
      exact not_mem_suffix _

theorem not_mem_hex (h : hex text = some literal) {a b : Char} (ha : a ≠ '\n')
    (hb : b ≠ '\n') : '\n' ∉ (a :: b :: text).take literal.length := by
  unfold hex at h
  dsimp only at h
  obtain ⟨-, h⟩ := Option.ite_none_left_eq_some.1 h
  cases h
  dsimp only
  refine not_mem_take_add (not_mem_take_add ?_ ?_) ?_
  · simp [ha.symm, hb.symm]
  · show '\n' ∉ text.take _
    rw [take_length_takeWhile]
    exact not_mem_takeWhile rfl text
  · rw [← List.drop_drop]
    show '\n' ∉ List.take _ (text.drop _)
    cases text.drop (text.takeWhile isHexDigit).length with
    | nil => simp
    | cons c rest =>
      by_cases hc : '\n' = c
      · subst hc
        simp
      · split <;> simp [hc]

theorem not_mem_ofText (h : ofText? text = some literal) :
    '\n' ∉ text.take literal.length := by
  unfold ofText? at h
  split at h
  · exact not_mem_hex h (by decide) (by decide)
  · exact not_mem_hex h (by decide) (by decide)
  · exact not_mem_decimal h

theorem is_decimalKind (whole fraction : List Char) (pointed : Bool)
    (power : Option (Char × Int × Nat)) (letter : Option Char) (m : Mark) :
    (decimalKind whole fraction pointed power letter).is m = false := by
  unfold decimalKind
  dsimp only
  generalize (!pointed && power.isNone) = integral
  split <;> try rfl
  split <;> try rfl
  split <;> try rfl
  split <;> try rfl
  split <;> rfl

theorem is_hexKind {figures : List Char} {long : Bool} (h : hexKind figures long = .ok kind)
    (m : Mark) : kind.is m = false := by
  unfold hexKind at h
  split at h
  · split at h
    · split at h <;> cases h <;> rfl
    · cases h
  · cases h

/-- A numeric literal is no mark. -/
theorem is_ofText (h : ofText? text = some ⟨length, .ok kind⟩) (m : Mark) :
    kind.is m = false := by
  have hhex {rest : List Char} (h : hex rest = some ⟨length, .ok kind⟩) : kind.is m = false := by
    unfold hex at h
    obtain ⟨-, h⟩ := Option.ite_none_left_eq_some.1 h
    injection h with h
    injection h with _ h
    exact is_hexKind h m
  unfold ofText? at h
  split at h
  · exact hhex h
  · exact hhex h
  · unfold decimal at h
    split at h
    · cases h
    · cases h
      exact is_decimalKind _ _ _ _ _ m

end NumericLiteral

theorem Mark.not_mem_of_lookup {table : List (String × Mark)} {word : String} {marks : List Mark}
    (hall : ∀ entry ∈ table, entry.2 ∉ marks) (h : table.lookup word = some m) : m ∉ marks := by
  obtain ⟨before, after, rfl, -⟩ := List.lookup_eq_some_iff.1 h
  exact hall (word, m) (by simp)

/-- Words make neither newlines nor the end of the text. -/
theorem Mark.ofWord?_not_mem {word : String} (h : ofWord? word = some m) :
    m ∉ [newline, endOfText] :=
  not_mem_of_lookup (by decide) h

theorem TokenKind.join?_not_mem {word : String} (h : kind.join? word = some m) :
    m ∉ [Mark.newline, .endOfText] := by
  unfold join? at h
  split at h
  · exact Mark.not_mem_of_lookup (by decide) h
  · obtain ⟨-, h⟩ := Option.ite_none_right_eq_some.1 h
    cases h
    decide
  · obtain ⟨-, h⟩ := Option.ite_none_right_eq_some.1 h
    cases h
    decide
  · split at h
    · exact Mark.not_mem_of_lookup (by decide) h
    · obtain ⟨-, h⟩ := Option.ite_none_right_eq_some.1 h
      exact Mark.not_mem_of_lookup (by decide) h
  · cases h

namespace Lexeme

theorem quoted_cases (text value : List Char) (count : Nat) :
    ∃ taken, (quoted text value count).1 = count + taken ∧ '\n' ∉ text.take taken := by
  fun_induction quoted text value count with
  | case1 rest value count ih =>
    obtain ⟨taken, hcount, hnot⟩ := ih
    exact ⟨taken + 2, by omega, by simpa using hnot⟩
  | case2 => exact ⟨1, rfl, by simp⟩
  | case3 | case4 => exact ⟨0, rfl, by simp⟩
  | case5 c rest value count _ _ hc ih =>
    obtain ⟨taken, hcount, hnot⟩ := ih
    have hne : '\n' ≠ c := fun h => hc h.symm
    exact ⟨taken + 1, by omega, by simpa [hne] using hnot⟩

/-- A token on one line: it is no newline and has none in it. -/
def IsInline (lexeme : Lexeme) (c : Char) (rest : List Char) : Prop :=
  ∀ kind, lexeme.content = .token kind →
    kind.is .newline = false ∧ '\n' ∉ c :: rest.take lexeme.extra

theorem string_isInline (rest : List Char) : (string rest).IsInline '"' rest := by
  intro kind hkind
  obtain ⟨taken, hcount, hnot⟩ := quoted_cases rest [] 0
  rw [Nat.zero_add] at hcount
  unfold string at hkind ⊢
  split at hkind
  · next count value hquoted =>
    rw [hquoted] at hcount
    cases hkind
    cases hcount
    exact ⟨rfl, by simpa using hnot⟩
  · cases hkind

theorem number_isInline (hc : c ≠ '\n') (rest : List Char) :
    (number (c :: rest)).IsInline c rest := by
  intro kind hkind
  unfold number at hkind ⊢
  split at hkind
  · next length value hliteral =>
    have hnot := NumericLiteral.not_mem_ofText hliteral
    cases hkind
    refine ⟨NumericLiteral.is_ofText hliteral _, ?_⟩
    cases length with
    | zero => simpa using hc.symm
    | succ n => exact hnot
  · cases hkind
  · cases hkind

theorem symbol_isInline {extra : Nat} (h : symbol? c rest = some (extra, m)) :
    IsInline ⟨extra, .token (.mark m)⟩ c rest := by
  intro kind hkind
  cases hkind
  unfold symbol? at h
  split at h
  case h_24 =>
    split at h <;> cases h <;> exact ⟨rfl, by simp⟩
  all_goals
    cases h
  all_goals
    exact ⟨rfl, by simp⟩

theorem not_mem_word (rest : List Char) :
    '\n' ∉ rest.take (rest.takeWhile isWordChar).length := by
  rw [take_length_takeWhile]
  exact not_mem_takeWhile (by decide) rest

theorem joined_isInline (h : joined kind text = some (m, length)) :
    m ≠ .newline ∧ '\n' ∉ text.take length := by
  unfold joined at h
  dsimp only at h
  obtain ⟨-, h⟩ := Option.ite_none_left_eq_some.1 h
  obtain ⟨m', hjoin, h⟩ := Option.map_eq_some_iff.1 h
  cases h
  have hm := List.ne_of_not_mem_cons (TokenKind.join?_not_mem hjoin)
  refine ⟨hm, not_mem_take_add ?_ (not_mem_word _)⟩
  rw [take_length_takeWhile]
  exact not_mem_takeWhile (by decide) text

theorem not_mem_designator (h : hasDesignator text = true) :
    '\n' ∉ text.take 1 := by
  cases text with
  | nil => simp
  | cons c rest =>
    rintro hmem
    obtain rfl : '\n' = c := by simpa using hmem
    exact absurd h (by simp [hasDesignator])

theorem word_isInline (hc : isWordStart c = true) (rest : List Char) :
    (word c rest).IsInline c rest := by
  have hstart : '\n' ≠ c := by
    rintro rfl
    exact absurd hc (by decide)
  have hletters := not_mem_word rest
  intro kind hkind
  unfold word at hkind ⊢
  dsimp only at hkind ⊢
  generalize rest.takeWhile isWordChar = letters at *
  split at hkind
  · next hdesignator =>
    rw [if_pos hdesignator]
    cases hkind
    have hnot := not_mem_take_add hletters (not_mem_designator hdesignator)
    exact ⟨rfl, by simpa [hstart] using hnot⟩
  · next hdesignator =>
    rw [if_neg hdesignator]
    split at hkind
    · cases hkind
    · next hrem =>
      rw [if_neg hrem]
      split at hkind
      · next m length hjoined =>
        obtain ⟨hm, hgap⟩ := joined_isInline hjoined
        cases hkind
        have hnot := not_mem_take_add hletters hgap
        exact ⟨beq_eq_false_iff_ne.2 hm, by simpa [hstart] using hnot⟩
      · next hjoined =>
        cases hkind
        refine ⟨?_, by simpa [hstart] using hletters⟩
        cases hmark : Mark.ofWord? (Text.fold (String.ofList (c :: letters))) with
        | none => rfl
        | some m =>
          exact beq_eq_false_iff_ne.2 (List.ne_of_not_mem_cons (Mark.ofWord?_not_mem hmark))

/-- What is taken up to the end of a line, and what is left. -/
theorem lineLength_cases (text : List Char) :
    '\n' ∉ text.take (lineLength text) ∧
      (text.drop (lineLength text) = [] ∨ ∃ more, text.drop (lineLength text) = '\n' :: more) := by
  unfold lineLength
  rw [take_length_takeWhile, drop_length_takeWhile]
  exact ⟨not_mem_takeWhile (by simp) text, dropWhile_ne_cases '\n' text⟩

/-- A kind letter in front is seen on its line. -/
theorem hasDesignator_line (h : hasDesignator text = false) :
    hasDesignator (text.take (lineLength text)) = false := by
  unfold lineLength
  rw [take_length_takeWhile]
  unfold hasDesignator at h
  split at h
  case h_5 rest =>
    unfold startsHex at h
    split at h
    · simp [hasDesignator, startsHex]
    · simp [hasDesignator, startsHex]
    · cases h
  case h_6 h1 h2 h3 h4 h5 =>
    cases text with
    | nil => rfl
    | cons c rest =>
      rw [List.takeWhile_cons]
      split
      · unfold hasDesignator
        split <;> simp_all
      · rfl
  all_goals
    cases h

theorem word_skipped (h : (word c rest).content = .skipped) :
    IsComment (c :: rest.take (word c rest).extra) ∧
      (rest.drop (word c rest).extra = [] ∨
        ∃ more, rest.drop (word c rest).extra = '\n' :: more) := by
  have hletters := take_length_takeWhile isWordChar rest
  have hhead := List.head?_dropWhile_not isWordChar rest
  rw [← drop_length_takeWhile] at hhead
  unfold word at h ⊢
  dsimp only at h ⊢
  generalize rest.takeWhile isWordChar = letters at *
  split at h
  · cases h
  · next hdesignator =>
    rw [if_neg hdesignator]
    split at h
    · next hrem =>
      rw [if_pos hrem]
      dsimp only
      rw [List.take_add, hletters, ← List.drop_drop, ← List.cons_append]
      generalize rest.drop letters.length = after at *
      obtain ⟨hnot, hend⟩ := lineLength_cases after
      refine ⟨.worded hrem ?_ ?_ hnot, hend⟩
      · intro d hd
        rw [List.head?_take] at hd
        cases hafter : after.head? with
        | none => simp [hafter] at hd
        | some e =>
          rw [hafter] at hd hhead
          split at hd
          · cases hd
          · cases hd
            simpa using hhead
      · exact hasDesignator_line (Bool.eq_false_iff.2 hdesignator)
    · split at h <;> cases h

theorem number_ne_skipped (text : List Char) : (number text).content ≠ .skipped := by
  unfold number
  split <;> exact fun h => (by cases h)

theorem string_ne_skipped (rest : List Char) : (string rest).content ≠ .skipped := by
  unfold string
  split <;> exact fun h => (by cases h)

/-- Blanks and comments are skipped, and nothing else. -/
theorem ofText_skipped (h : (ofText c rest).content = .skipped) :
    (Text.isBlank c = true ∧ c ≠ '\n' ∧ (ofText c rest).extra = 0) ∨
      IsComment (c :: rest.take (ofText c rest).extra) ∧
        (rest.drop (ofText c rest).extra = [] ∨
          ∃ more, rest.drop (ofText c rest).extra = '\n' :: more) := by
  unfold ofText at h ⊢
  split at h
  · next hc =>
    subst hc
    obtain ⟨hnot, hend⟩ := lineLength_cases rest
    exact .inr ⟨.marked hnot, hend⟩
  · next hmark =>
    rw [if_neg hmark]
    split at h
    · cases h
    · next hc =>
      rw [if_neg hc]
      split at h
      · next hblank =>
        rw [if_pos hblank]
        exact .inl ⟨hblank, hc, rfl⟩
      · next hblank =>
        rw [if_neg hblank]
        split at h
        · next hstart =>
          rw [if_pos hstart]
          exact .inr (word_skipped h)
        · split at h
          · exact absurd h (number_ne_skipped _)
          · split at h
            · exact absurd h (string_ne_skipped _)
            · split at h <;> cases h

/-- A token is a newline, or it stands on one line. -/
theorem ofText_token (h : (ofText c rest).content = .token kind) :
    kind.is .newline = true ∧ c :: rest.take (ofText c rest).extra = ['\n'] ∨
      kind.is .newline = false ∧ '\n' ∉ c :: rest.take (ofText c rest).extra := by
  by_cases hc : c = '\n'
  · subst hc
    cases h
    exact .inl ⟨rfl, rfl⟩
  · have hinline : (ofText c rest).IsInline c rest := by
      unfold ofText
      split
      · exact fun _ h => (by cases h)
      · split
        · exact fun _ h => (by cases h)
        · split
          · next hstart => exact word_isInline hstart rest
          · split
            · exact number_isInline hc rest
            · split
              · next hquote =>
                subst hquote
                exact string_isInline rest
              · split
                · next hsymbol => exact symbol_isInline hsymbol
                · exact fun _ h => (by cases h)
    exact .inr (hinline kind h)

end Lexeme

namespace Token

def ofEnd (file : String) (place : Place) : Token :=
  ⟨.mark .endOfText, place.range place file⟩

/-- The tokens of a text that stands after the text `before`, each behind a gap. -/
inductive Layout (file : String) : (before text : List Char) → List Token → Prop
  | done {before gap : List Char} : Gap gap [] →
      Layout file before gap [ofEnd file (Place.start.after (before ++ gap))]
  | token {before gap taken rest : List Char} {kind : TokenKind} {tokens : List Token} :
      Gap gap (taken ++ rest) → taken ≠ [] →
      (kind.is .newline = true ∧ taken = ['\n'] ∨ kind.is .newline = false ∧ '\n' ∉ taken) →
      Layout file (before ++ (gap ++ taken)) rest tokens →
      Layout file before (gap ++ (taken ++ rest))
        (⟨kind, (Place.start.after (before ++ gap)).range
          (Place.start.after (before ++ (gap ++ taken))) file⟩ :: tokens)

section Layout

variable {file : String} {before text : List Char} {tokens : List Token}

theorem Layout.blank (hblank : Text.isBlank c = true) (hc : c ≠ '\n')
    (h : Layout file (before ++ [c]) text tokens) : Layout file before (c :: text) tokens := by
  cases h with
  | done hgap =>
    rw [List.append_assoc]
    exact .done (.blank hblank hc hgap)
  | token hgap hne hkind h =>
    rw [List.append_assoc, List.append_assoc] at *
    exact .token (.blank hblank hc hgap) hne hkind h

/-- Up to the end of a line there is no gap left. -/
theorem Layout.comment {comment : List Char} (hcomment : IsComment comment)
    (hend : text = [] ∨ ∃ more, text = '\n' :: more)
    (h : Layout file (before ++ comment) text tokens) :
    Layout file before (comment ++ text) tokens := by
  have hnil {gap rest : List Char} (hgap : Gap gap (rest)) (hrest : text = gap ++ rest) :
      gap = [] := by
    have hnot := hgap.not_mem
    cases gap with
    | nil => rfl
    | cons c gap =>
      rcases hend with rfl | ⟨more, rfl⟩
      · cases hrest
      · cases hrest
        exact absurd (List.mem_cons_self) hnot
  cases h with
  | done hgap =>
    obtain rfl := hnil hgap (List.append_nil _).symm
    rw [List.append_assoc, List.append_nil]
    exact .done (.comment hcomment hend)
  | token hgap hne hkind h =>
    obtain rfl := hnil hgap rfl
    rw [List.append_assoc] at h
    rw [List.append_assoc, List.append_assoc, List.append_nil, List.nil_append] at *
    exact .token (.comment hcomment hend) hne hkind h

end Layout

/-- What is found in the rest of a text without errors is laid out there. -/
theorem scanFrom_layout {file : String} {place : Place} {before text : List Char} {found : Found}
    (hplace : place = Place.start.after before)
    (h : (scanFrom file place text found).1.errors = []) :
    found.errors = [] ∧ ∃ tokens, Layout file before text tokens ∧
      (ofEnd file (scanFrom file place text found).2 ::
        (scanFrom file place text found).1.tokens).reverse = found.tokens.reverse ++ tokens := by
  fun_induction scanFrom file place text found generalizing before with
  | case1 place found =>
    subst hplace
    have hdone : Layout file before [] [ofEnd file (Place.start.after (before ++ []))] := .done .nil
    rw [List.append_nil] at hdone
    exact ⟨h, _, hdone, by simp⟩
  | case2 place found c rest lexeme stop =>
    rename_i ih
    have hstop : stop = Place.start.after (before ++ c :: rest.take lexeme.extra) := by
      rw [Place.after_append, ← hplace]
    obtain ⟨herrors, tokens, hlayout, htokens⟩ := ih hstop h
    cases hcontent : lexeme.content with
    | skipped =>
      rw [hcontent] at herrors htokens
      refine ⟨herrors, tokens, ?_, htokens⟩
      rcases Lexeme.ofText_skipped hcontent with ⟨hblank, hc, hextra⟩ | ⟨hcomment, hend⟩
      · rw [hextra] at hlayout
        exact hlayout.blank hblank hc
      · have hline := hlayout.comment hcomment hend
        rwa [List.cons_append, List.take_append_drop] at hline
    | token kind =>
      rw [hcontent] at herrors htokens
      refine ⟨herrors, ⟨kind, place.range stop file⟩ :: tokens, ?_, ?_⟩
      · have htoken :=
          Layout.token .nil (List.cons_ne_nil _ _) (Lexeme.ofText_token hcontent) hlayout
        rwa [List.nil_append, List.nil_append, List.append_nil, List.cons_append,
          List.take_append_drop, ← hstop, ← hplace] at htoken
      · rw [htokens, Found.add, List.reverse_cons, List.append_assoc, List.singleton_append]
    | error message =>
      rw [hcontent] at herrors
      cases herrors

theorem scan_layout {file source : String} {tokens : List Token}
    (h : scan file source = .ok tokens) : Layout file [] source.toList tokens := by
  unfold scan at h
  dsimp only at h
  split at h
  · next hempty =>
    obtain ⟨-, tokens', hlayout, htokens⟩ :=
      scanFrom_layout (Eq.refl (Place.start.after [])) (List.isEmpty_iff.1 hempty)
    injection h with h
    rw [List.reverse_nil, List.nil_append] at htokens
    rw [← h]
    exact htokens ▸ hlayout
  · cases h

/-- The gaps in front of tokens, from the end of the token before (`start` for the first one). -/
def gaps (start : Nat) : List Token → List Span
  | [] => []
  | t :: tokens => ⟨start, t.location.span.start⟩ :: gaps t.location.span.stop tokens

namespace Layout

variable {file : String} {before text : List Char} {tokens : List Token}

/-- Tracked places are the counted ones. -/
theorem location_eq (h : Layout file before text tokens) :
    ∀ t ∈ tokens, t.location = .ofSpan file (before ++ text) t.location.span := by
  induction h with
  | @done before gap hgap =>
    intro t ht
    obtain rfl := List.mem_singleton.1 ht
    simpa [ofEnd] using Place.range_eq_ofSpan file (before ++ gap) [] []
  | @token before gap taken rest kind tokens hgap hne hkind h ih =>
    intro t ht
    rcases List.mem_cons.1 ht with rfl | ht
    · simpa using Place.range_eq_ofSpan file (before ++ gap) taken rest
    · simpa using ih t ht

theorem span_mem (h : Layout file before text tokens) :
    ∀ t ∈ tokens, byteLength before ≤ t.location.span.start ∧
      t.location.span.start ≤ t.location.span.stop ∧
      t.location.span.stop ≤ byteLength (before ++ text) := by
  induction h with
  | done hgap =>
    intro t ht
    obtain rfl := List.mem_singleton.1 ht
    simp [ofEnd]
  | token hgap hne hkind h ih =>
    intro t ht
    rcases List.mem_cons.1 ht with rfl | ht
    · simp
    · have := ih t ht
      simp at this ⊢
      omega

theorem pairwise_span (h : Layout file before text tokens) :
    tokens.Pairwise fun a b => a.location.span.start < b.location.span.start ∧
      a.location.span.stop ≤ b.location.span.start := by
  induction h with
  | done hgap => exact List.pairwise_singleton _ _
  | @token before gap taken rest kind tokens hgap hne hkind h ih =>
    refine List.pairwise_cons.2 ⟨fun b hb => ?_, ih⟩
    have hafter := (h.span_mem b hb).1
    have htaken := byteLength_pos hne
    simp at hafter ⊢
    omega

/-- What stands between tokens. -/
theorem gap_of_mem (h : Layout file before text tokens) :
    ∀ span ∈ gaps (byteLength before) tokens,
      Gap (span.text (before ++ text)) (textFrom (before ++ text) span.stop) := by
  induction h with
  | @done before gap hgap =>
    intro span hspan
    obtain rfl := List.mem_singleton.1 hspan
    have htext := Span.text_eq before gap []
    have hrest := textFrom_eq (before ++ gap) []
    rw [List.append_nil] at htext hrest
    simp only [ofEnd, Place.span_range]
    rwa [htext, hrest]
  | @token before gap taken rest kind tokens hgap hne hkind h ih =>
    intro span hspan
    rcases List.mem_cons.1 hspan with rfl | hspan
    · have htext := Span.text_eq before gap (taken ++ rest)
      have hrest := textFrom_eq (before ++ gap) (taken ++ rest)
      rw [List.append_assoc] at hrest
      simp only [Place.span_range]
      rwa [htext, hrest]
    · rw [Place.span_range] at hspan
      simpa using ih span hspan

theorem count_newline (h : Layout file before text tokens) :
    tokens.countP (·.kind.is .newline) = text.count '\n' := by
  induction h with
  | done hgap => simp [ofEnd, TokenKind.is, List.count_eq_zero.2 hgap.not_mem]
  | token hgap hne hkind h ih =>
    rw [List.count_append, List.count_append, List.count_eq_zero.2 hgap.not_mem, Nat.zero_add,
      List.countP_cons, ih, Nat.add_comm]
    rcases hkind with ⟨hkind, rfl⟩ | ⟨hkind, htaken⟩
    · simp [hkind]
    · simp [hkind, List.count_eq_zero.2 htaken]

theorem getLast?_eq (h : Layout file before text tokens) :
    tokens.getLast? = some (ofEnd file (Place.start.after (before ++ text))) := by
  induction h with
  | done hgap => rfl
  | @token before gap taken rest kind tokens hgap hne hkind h ih =>
    rw [List.getLast?_cons, ih]
    simp

end Layout

end Token

/-- The tokens of a text stand in it in order and apart. In front of each one there are only blanks
and a comment up to the end of the line, so that newlines and newline tokens are as many. The last
token marks the end of the text, and each token is located where counting from the start of the text
puts it. -/
theorem token_positions {file source : String} {tokens : List Token}
    (h : Token.scan file source = .ok tokens) :
    tokens.Pairwise (fun a b => a.location.span.start < b.location.span.start ∧
        a.location.span.stop ≤ b.location.span.start) ∧
      (∀ t ∈ tokens, t.location.span.start ≤ t.location.span.stop ∧
        t.location.span.stop ≤ byteLength source.toList) ∧
      (∀ span ∈ Token.gaps 0 tokens,
        Gap (span.text source.toList) (textFrom source.toList span.stop)) ∧
      tokens.countP (·.kind.is .newline) = source.toList.count '\n' ∧
      tokens.getLast? = some ⟨.mark .endOfText, .ofSpan file source.toList
        ⟨byteLength source.toList, byteLength source.toList⟩⟩ ∧
      ∀ t ∈ tokens, t.location = .ofSpan file source.toList t.location.span := by
  have hlayout := Token.scan_layout h
  refine ⟨hlayout.pairwise_span, fun t ht => (hlayout.span_mem t ht).2, hlayout.gap_of_mem,
    hlayout.count_newline, ?_, hlayout.location_eq⟩
  have hend := Place.range_eq_ofSpan file source.toList [] []
  simp only [List.append_nil] at hend
  rw [hlayout.getLast?_eq, Token.ofEnd, List.nil_append, hend]

theorem token_positions_comment :
    Token.scan "f" "end  if 'é\n\"ü\"" = .ok
        [⟨.mark .endIf, ⟨"f", ⟨1, 0⟩, ⟨1, 7⟩, ⟨0, 7⟩⟩⟩,
          ⟨.mark .newline, ⟨"f", ⟨1, 11⟩, ⟨2, 0⟩, ⟨11, 12⟩⟩⟩,
          ⟨.string "ü", ⟨"f", ⟨2, 0⟩, ⟨2, 4⟩, ⟨12, 16⟩⟩⟩,
          ⟨.mark .endOfText, ⟨"f", ⟨2, 4⟩, ⟨2, 4⟩, ⟨16, 16⟩⟩⟩] ∧
      Gap [' ', '\'', 'é'] ['\n', '"', 'ü', '"'] := by
  have hscan : Token.scan "f" "end  if 'é\n\"ü\"" = .ok
      [⟨.mark .endIf, ⟨"f", ⟨1, 0⟩, ⟨1, 7⟩, ⟨0, 7⟩⟩⟩,
        ⟨.mark .newline, ⟨"f", ⟨1, 11⟩, ⟨2, 0⟩, ⟨11, 12⟩⟩⟩,
        ⟨.string "ü", ⟨"f", ⟨2, 0⟩, ⟨2, 4⟩, ⟨12, 16⟩⟩⟩,
        ⟨.mark .endOfText, ⟨"f", ⟨2, 4⟩, ⟨2, 4⟩, ⟨16, 16⟩⟩⟩] := by
    with_unfolding_all rfl
  refine ⟨hscan, ?_⟩
  obtain ⟨-, -, hgaps, -⟩ := token_positions hscan
  exact hgaps ⟨7, 11⟩ (by decide)

end BrightScript
