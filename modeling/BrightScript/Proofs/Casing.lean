import BrightScript.Proofs.TokenPositions

/-!
# The case of letters in a text

A `Casing` changes at most the case of letters. No lexeme depends on it: a text written in another
case is cut in the same places, and its tokens differ in the letters of names and strings only. A
lexeme also does not look past the end of its line, so the same holds for a text with more lines
behind it. Each function of the scanner is therefore followed once, on a text `text` and on
`text.map k.letter ++ tail`, where `tail` is empty or starts a new line.
-/

namespace BrightScript

variable {c d : Char} {file : String}

/-! ## Letters -/

def capitalLetters : List Char :=
  ['A', 'B', 'C', 'D', 'E', 'F', 'G', 'H', 'I', 'J', 'K', 'L', 'M', 'N', 'O', 'P', 'Q', 'R', 'S',
   'T', 'U', 'V', 'W', 'X', 'Y', 'Z']

theorem toLower_cases (c : Char) : c.toLower = c ∨ c ∈ capitalLetters := by
  by_cases h : c.val ≥ 'A'.val ∧ c.val ≤ 'Z'.val
  · have hlow : 65 ≤ c.toNat := UInt32.le_iff_toNat_le.1 h.1
    have hhigh : c.toNat ≤ 90 := UInt32.le_iff_toNat_le.1 h.2
    have hmem : ∀ n, n < 91 → 65 ≤ n → Char.ofNat n ∈ capitalLetters := by decide
    rw [← Char.ofNat_toNat c]
    exact .inr (hmem c.toNat (by omega) hlow)
  · exact .inl (dif_neg h)

/-- What is the same for a capital letter and its small letter is the same for every character and
its small letter. -/
theorem toLower_keeps {α : Type} [DecidableEq α] (f : Char → α)
    (h : capitalLetters.all (fun c => f c.toLower = f c) = true) (c : Char) :
    f c.toLower = f c := by
  rcases toLower_cases c with heq | hmem
  · rw [heq]
  · exact of_decide_eq_true (List.all_eq_true.1 h c hmem)

/-- A way to write letters that changes at most their case. -/
structure Casing where
  letter : Char → Char
  toLower_letter : ∀ c, (letter c).toLower = c.toLower

namespace Casing

def asWritten : Casing :=
  ⟨id, fun _ => rfl⟩

theorem toLower_toUpper (c : Char) : c.toUpper.toLower = c.toLower := by
  by_cases h : c.val ≥ 'a'.val ∧ c.val ≤ 'z'.val
  · have hlow : 97 ≤ c.toNat := UInt32.le_iff_toNat_le.1 h.1
    have hhigh : c.toNat ≤ 122 := UInt32.le_iff_toNat_le.1 h.2
    have heq : ∀ n, n < 123 → 97 ≤ n →
        (Char.ofNat n).toUpper.toLower = (Char.ofNat n).toLower := by decide
    rw [← Char.ofNat_toNat c]
    exact heq c.toNat (by omega) hlow
  · exact congrArg Char.toLower (dif_neg h)

def capitals : Casing :=
  ⟨Char.toUpper, toLower_toUpper⟩

variable (k : Casing)

/-- What is the same for a capital letter and its small letter does not depend on the casing. -/
theorem keeps {α : Type} [DecidableEq α] (f : Char → α)
    (h : capitalLetters.all (fun c => f c.toLower = f c) = true) (c : Char) :
    f (k.letter c) = f c := by
  rw [← toLower_keeps f h, k.toLower_letter, toLower_keeps f h]

/-- Characters of a kind that has no letters are left alone. -/
theorem letter_eq_of {p : Char → Bool}
    (hp : capitalLetters.all (fun c => !p c && !p c.toLower) = true) (hc : p c = true) :
    k.letter c = c := by
  have hnone {d : Char} (hd : d ∈ capitalLetters) : p d = false ∧ p d.toLower = false := by
    simpa using List.all_eq_true.1 hp d hd
  have hsmall {d : Char} (hd : p d = true) : d.toLower = d := by
    refine (toLower_cases d).resolve_right fun hmem => ?_
    rw [(hnone hmem).1] at hd
    cases hd
  have hkeeps : capitalLetters.all (fun c => p c.toLower = p c) = true :=
    List.all_eq_true.2 fun d hd => decide_eq_true ((hnone hd).2.trans (hnone hd).1.symm)
  have hletter : p (k.letter c) = true := by rw [k.keeps p hkeeps, hc]
  rw [← hsmall hletter, k.toLower_letter, hsmall hc]

theorem letter_eq (hc : c.isAlpha = false) : k.letter c = c :=
  k.letter_eq_of (p := fun c => !c.isAlpha) (by decide) (by rw [hc]; rfl)

theorem letter_eq_iff (hd : d.isAlpha = false) (c : Char) : k.letter c = d ↔ c = d := by
  constructor
  · intro h
    have hc : c.isAlpha = false := by rw [← k.keeps Char.isAlpha (by decide), h, hd]
    rw [← h, k.letter_eq hc]
  · rintro rfl
    exact k.letter_eq hd

theorem utf8Size_letter (c : Char) : (k.letter c).utf8Size = c.utf8Size :=
  k.keeps Char.utf8Size (by decide) c

def text (s : String) : String :=
  String.ofList (s.toList.map k.letter)

theorem text_ofList (l : List Char) : k.text (String.ofList l) = String.ofList (l.map k.letter) := by
  rw [text, String.toList_ofList]

theorem text_append (a b : String) : k.text (a ++ b) = k.text a ++ k.text b := by
  rw [text, String.toList_append, List.map_append, String.ofList_append]
  rfl

theorem fold_ofList (l : List Char) :
    Text.fold (String.ofList (l.map k.letter)) = Text.fold (String.ofList l) := by
  rw [Text.fold, Text.fold, String.toList_ofList, String.toList_ofList, List.map_map]
  exact congrArg String.ofList (List.map_congr_left fun c _ => k.toLower_letter c)

theorem fold_text (s : String) : Text.fold (k.text s) = Text.fold s := by
  rw [text, k.fold_ofList, String.ofList_toList]

end Casing

variable {text : List Char}

/-! ## Tokens -/

/-- The token in another case: names and strings are written in it. -/
def TokenKind.cased (k : Casing) : TokenKind → TokenKind
  | .identifier name => .identifier (k.text name)
  | .string value => .string (k.text value)
  | kind => kind

/-- The token in another case, at the same place. -/
def Token.cased (k : Casing) (t : Token) : Token :=
  { t with kind := t.kind.cased k }

theorem TokenKind.join?_cased (k : Casing) (kind : TokenKind) (next : String) :
    (kind.cased k).join? next = kind.join? next := by
  have hsame (name other : String) :
      Text.sameWord (k.text name) other = Text.sameWord name other := by
    rw [Text.sameWord, Text.sameWord, k.fold_text]
  cases kind with
  | identifier name => simp only [cased, join?, hsame]
  | _ => rfl

/-! ## The rest of a line -/

/-- A text that is empty or starts with the end of a line. -/
def AtLineEnd (tail : List Char) : Prop :=
  tail = [] ∨ ∃ more, tail = '\n' :: more

section Line

variable (k : Casing) {tail : List Char} (ht : AtLineEnd tail)

include ht in
theorem takeWhile_line {p : Char → Bool} (hp : ∀ c, p (k.letter c) = p c) (hn : p '\n' = false)
    (text : List Char) :
    (text.map k.letter ++ tail).takeWhile p = (text.takeWhile p).map k.letter := by
  induction text with
  | nil => rcases ht with rfl | ⟨more, rfl⟩ <;> simp [hn]
  | cons c text ih =>
    rw [List.map_cons, List.cons_append, List.takeWhile_cons, List.takeWhile_cons, hp, ih]
    split <;> rfl

theorem drop_line {n : Nat} (h : n ≤ text.length) :
    (text.map k.letter ++ tail).drop n = (text.drop n).map k.letter ++ tail := by
  rw [List.drop_append_of_le_length (by simpa using h), List.map_drop]

theorem drop_takeWhile_line (p : Char → Bool) (text : List Char) :
    (text.map k.letter ++ tail).drop (text.takeWhile p).length =
      (text.drop (text.takeWhile p).length).map k.letter ++ tail :=
  drop_line k (List.takeWhile_prefix p).length_le

/-- What does not reach the end of the line stays within the text. -/
theorem le_length_of_line {n : Nat}
    (h : '\n' ∉ (text.map k.letter ++ ['\n']).take n) : n ≤ text.length := by
  refine Nat.le_of_not_lt fun hlt => h ?_
  rw [List.take_of_length_le (by simp; omega)]
  simp

include ht in
theorem head?_line (hd : d.isAlpha = false) (hn : d ≠ '\n') (text : List Char) :
    ((text.map k.letter ++ tail).head? == some d) = (text.head? == some d) := by
  cases text with
  | nil => rcases ht with rfl | ⟨more, rfl⟩ <;> simp [hn.symm]
  | cons c text =>
    rw [Bool.eq_iff_iff]
    simp [k.letter_eq_iff hd]

end Line

/-! ## Words and strings -/

namespace Lexeme

theorem startsHex_cons (c : Char) (rest : List Char) :
    startsHex (c :: rest) = (c == 'h' || c == 'H') := by
  unfold startsHex
  split <;> simp_all

theorem hasDesignator_cons (c : Char) (rest : List Char) :
    hasDesignator (c :: rest) =
      (c == '$' || c == '%' || c == '!' || c == '#' || c == '&' && !startsHex rest) := by
  unfold hasDesignator
  split <;> simp_all

/-- What a lexeme stands for, and the same in another case. -/
inductive Content.Cased (k : Casing) : (a b : Content) → Prop
  | skipped : Cased k .skipped .skipped
  | token (kind : TokenKind) : Cased k (.token kind) (.token (kind.cased k))
  | error (message message' : String) : Cased k (.error message) (.error message')

/-- A lexeme, and one of the same length that stands for the same in another case. -/
structure Cased (k : Casing) (a b : Lexeme) : Prop where
  extra : b.extra = a.extra
  content : a.content.Cased k b.content

section Line

variable (k : Casing) {tail : List Char} (ht : AtLineEnd tail)

include ht in
theorem startsHex_line (text : List Char) :
    startsHex (text.map k.letter ++ tail) = startsHex text := by
  cases text with
  | nil => rcases ht with rfl | ⟨more, rfl⟩ <;> rfl
  | cons c text =>
    rw [List.map_cons, List.cons_append, startsHex_cons, startsHex_cons]
    exact k.keeps (fun c => c == 'h' || c == 'H') (by decide) c

include ht in
theorem startsDigit_line (text : List Char) :
    startsDigit (text.map k.letter ++ tail) = startsDigit text := by
  cases text with
  | nil => rcases ht with rfl | ⟨more, rfl⟩ <;> rfl
  | cons c text => exact k.keeps Char.isDigit (by decide) c

include ht in
theorem hasDesignator_line_eq (text : List Char) :
    hasDesignator (text.map k.letter ++ tail) = hasDesignator text := by
  cases text with
  | nil => rcases ht with rfl | ⟨more, rfl⟩ <;> rfl
  | cons c text =>
    rw [List.map_cons, List.cons_append, hasDesignator_cons, hasDesignator_cons,
      startsHex_line k ht]
    exact k.keeps (fun c => c == '$' || c == '%' || c == '!' || c == '#' ||
      c == '&' && !startsHex text) (by simp [capitalLetters]) c

include ht in
theorem lineLength_line (text : List Char) :
    lineLength (text.map k.letter ++ tail) = lineLength text := by
  rw [lineLength, takeWhile_line k ht (k.keeps _ (by decide)) (by decide), List.length_map,
    lineLength]

include ht in
theorem joined_line (kind : TokenKind) (text : List Char) :
    joined (kind.cased k) (text.map k.letter ++ tail) = joined kind text := by
  rw [joined, joined]
  rw [takeWhile_line k ht (k.keeps _ (by decide)) (by decide), List.length_map,
    drop_takeWhile_line, takeWhile_line k ht (k.keeps _ (by decide)) (by decide)]
  simp only [List.isEmpty_map, List.length_map, k.fold_ofList, TokenKind.join?_cased]

include ht in
theorem word_line (c : Char) (rest : List Char) :
    (word c rest).Cased k (word (k.letter c) (rest.map k.letter ++ tail)) := by
  have hletters := takeWhile_line k ht (p := isWordChar) (k.keeps _ (by decide)) (by decide) rest
  unfold word
  simp only [hletters, List.length_map, drop_takeWhile_line, hasDesignator_line_eq k ht,
    lineLength_line k ht,
    ← List.map_cons, k.fold_ofList]
  generalize rest.takeWhile isWordChar = letters
  generalize rest.drop letters.length = after
  by_cases hdesignator : hasDesignator after = true
  · rw [if_pos hdesignator, if_pos hdesignator]
    cases after with
    | nil => cases hdesignator
    | cons d after =>
      refine ⟨rfl, ?_⟩
      have hname := k.text_append (String.ofList (c :: letters)) (String.ofList [d])
      rw [k.text_ofList, k.text_ofList] at hname
      exact hname ▸ .token (.identifier (String.ofList (c :: letters) ++ String.ofList [d]))
  · rw [if_neg hdesignator, if_neg hdesignator]
    split
    · exact ⟨rfl, .skipped⟩
    · cases Mark.ofWord? (Text.fold (String.ofList (c :: letters))) with
      | none =>
        have hjoined := joined_line k ht (.identifier (String.ofList (c :: letters))) after
        have hkind := Content.Cased.token (k := k) (.identifier (String.ofList (c :: letters)))
        rw [TokenKind.cased, k.text_ofList] at hjoined hkind
        simp only [hjoined]
        split
        · exact ⟨rfl, .token (.mark _)⟩
        · exact ⟨rfl, hkind⟩
      | some m =>
        have hjoined : joined (.mark m) (after.map k.letter ++ tail) = joined (.mark m) after :=
          joined_line k ht (.mark m) after
        simp only [hjoined]
        split <;> exact ⟨rfl, .token (.mark _)⟩

include ht in
theorem quoted_line (text value : List Char) (count : Nat) :
    quoted (text.map k.letter ++ tail) (value.map k.letter) count =
      ((quoted text value count).1, (quoted text value count).2.map (·.map k.letter)) := by
  have hquote := k.letter_eq (c := '"') (by decide)
  fun_induction quoted text value count with
  | case1 rest value count ih =>
    rw [List.map_cons, hquote] at ih
    simpa [hquote, quoted] using ih
  | case2 rest value count hrest =>
    have hnot : ∀ more, rest.map k.letter ++ tail = '"' :: more → False := by
      intro more hmore
      have hhead := head?_line k ht (d := '"') (by decide) (by decide) rest
      rw [hmore, eq_comm, List.head?_cons, BEq.rfl, beq_iff_eq] at hhead
      obtain ⟨more', rfl⟩ := List.head?_eq_some_iff.1 hhead
      exact hrest more' rfl
    rw [List.map_cons, hquote, List.cons_append, quoted.eq_2 _ _ _ hnot]
    simp
  | case3 rest value count =>
    rw [List.map_cons, k.letter_eq (by decide)]
    rfl
  | case4 => rcases ht with rfl | ⟨more, rfl⟩ <;> rfl
  | case5 c rest value count hq hq' hn ih =>
    have hc : k.letter c ≠ '"' := fun h => hq' ((k.letter_eq_iff (by decide) c).1 h)
    have hline : k.letter c ≠ '\n' := fun h => hn ((k.letter_eq_iff (by decide) c).1 h)
    rw [List.map_cons, List.cons_append, quoted.eq_5 _ _ _ _ (fun _ h _ => hc h) hc hline]
    exact ih

include ht in
theorem string_line (rest : List Char) :
    (string rest).Cased k (string (rest.map k.letter ++ tail)) := by
  have hquoted := quoted_line k ht rest [] 0
  rw [List.map_nil] at hquoted
  rw [string, string, hquoted]
  cases quoted rest [] 0 with
  | mk count value =>
    cases value with
    | none => exact ⟨rfl, .error _ _⟩
    | some value =>
      have hkind := Content.Cased.token (k := k) (.string (String.ofList value))
      rw [TokenKind.cased, k.text_ofList] at hkind
      exact ⟨rfl, hkind⟩

end Line

end Lexeme

/-! ## Numbers -/

namespace NumericLiteral

open Lexeme

section Line

variable (k : Casing) {tail : List Char} (ht : AtLineEnd tail)

include ht in
theorem digits_line (text : List Char) :
    (text.map k.letter ++ tail).takeWhile Char.isDigit = text.takeWhile Char.isDigit := by
  rw [takeWhile_line k ht (k.keeps _ (by decide)) (by decide)]
  have hdigits := List.all_eq_true.1 (List.all_takeWhile (p := Char.isDigit) (l := text))
  exact (List.map_congr_left fun c hc => k.letter_eq_of (by decide) (hdigits c hc)).trans
    (List.map_id _)

theorem mantissa_eq (text : List Char) : mantissa text =
    let whole := text.takeWhile Char.isDigit
    let after := text.drop whole.length
    let fraction := after.tail.takeWhile Char.isDigit
    if after.head? == some '.' then
      if whole.isEmpty && fraction.isEmpty then none else some (whole, fraction, true)
    else if whole.isEmpty then none else some (whole, [], false) := by
  unfold mantissa
  dsimp only
  split
  · next rest hrest =>
    rw [hrest]
    rfl
  · next hnot =>
    have hhead : ¬ (text.drop (text.takeWhile Char.isDigit).length).head? == some '.' := by
      intro hhead
      obtain ⟨rest, hrest⟩ := List.head?_eq_some_iff.1 (beq_iff_eq.1 hhead)
      exact hnot rest hrest
    exact (if_neg hhead).symm

include ht in
theorem mantissa_line (text : List Char) :
    mantissa (text.map k.letter ++ tail) = mantissa text := by
  rw [mantissa_eq, mantissa_eq]
  simp only [digits_line k ht, drop_takeWhile_line,
    head?_line k ht (d := '.') (by decide) (by decide)]
  cases text.drop (text.takeWhile Char.isDigit).length with
  | nil => rfl
  | cons c rest =>
    simp only [List.map_cons, List.cons_append, List.tail_cons, digits_line k ht]
    split <;> rfl

theorem mantissa_length {text whole fraction : List Char} {pointed : Bool}
    (h : mantissa text = some (whole, fraction, pointed)) :
    whole.length + fraction.length + (if pointed then 1 else 0) ≤ text.length :=
  le_length_of_line .asWritten
    (not_mem_mantissa ((mantissa_line .asWritten (.inr ⟨[], rfl⟩) text).trans h))

theorem takeSign_cons (c : Char) (rest : List Char) : Decimal.takeSign (c :: rest) =
    (c == '-', if c = '-' ∨ c = '+' then rest else c :: rest) := by
  unfold Decimal.takeSign
  split <;> simp_all

include ht in
theorem takeSign_line (text : List Char) : Decimal.takeSign (text.map k.letter ++ tail) =
    ((Decimal.takeSign text).1, (Decimal.takeSign text).2.map k.letter ++ tail) := by
  cases text with
  | nil => rcases ht with rfl | ⟨more, rfl⟩ <;> rfl
  | cons c rest =>
    simp only [List.map_cons, List.cons_append, takeSign_cons, k.keeps (· == '-') (by decide),
      k.letter_eq_iff (d := '-') (by decide), k.letter_eq_iff (d := '+') (by decide)]
    split <;> rfl

include ht in
theorem exponent_line (text : List Char) : exponent (text.map k.letter ++ tail) =
    (exponent text).map fun power => (k.letter power.1, power.2) := by
  cases text with
  | nil => rcases ht with rfl | ⟨more, rfl⟩ <;> rfl
  | cons c rest =>
    have hletter := k.keeps (fun c => c == 'e' || c == 'E' || c == 'd' || c == 'D') (by decide) c
    simp only [List.map_cons, List.cons_append, exponent, hletter, takeSign_line k ht,
      digits_line k ht, List.length_append, List.length_map, Nat.add_sub_add_right]
    split
    · split <;> rfl
    · rfl

theorem exponent_length {letter : Char} {value : Int} {length : Nat}
    (h : exponent text = some (letter, value, length)) : length ≤ text.length := by
  have hline := exponent_line .asWritten (.inr ⟨[], rfl⟩) text
  rw [h] at hline
  exact le_length_of_line .asWritten (not_mem_exponent hline)

include ht in
theorem suffix_line (text : List Char) : suffix (text.map k.letter ++ tail) = suffix text := by
  cases text with
  | nil => rcases ht with rfl | ⟨more, rfl⟩ <;> rfl
  | cons c rest =>
    exact k.keeps (fun c => if c == '%' || c == '!' || c == '#' || c == '&' then some c else none)
      (by decide) c

theorem decimalKind_line (whole fraction : List Char) (pointed : Bool)
    (power : Option (Char × Int × Nat)) (letter : Option Char) :
    decimalKind whole fraction pointed (power.map fun p => (k.letter p.1, p.2)) letter =
      decimalKind whole fraction pointed power letter := by
  cases power with
  | none => rfl
  | some power =>
    obtain ⟨c, value, length⟩ := power
    have hletter := k.keeps (fun c => c == 'd' || c == 'D') (by decide) c
    rw [Option.map_some]
    cases hc : (c == 'd' || c == 'D') with
    | true =>
      rw [hc] at hletter
      simp only [Bool.or_eq_true, beq_iff_eq] at hc hletter
      rcases hc with rfl | rfl <;> rcases hletter with hletter | hletter <;> rw [hletter] <;> rfl
    | false =>
      rw [hc] at hletter
      simp only [Bool.or_eq_false_iff, beq_eq_false_iff_ne] at hc hletter
      unfold decimalKind
      split <;> try rfl
      split <;> split <;> simp_all

include ht in
theorem decimal_line (text : List Char) :
    decimal (text.map k.letter ++ tail) = decimal text := by
  unfold decimal
  rw [mantissa_line k ht]
  cases hmantissa : mantissa text with
  | none => rfl
  | some found =>
    obtain ⟨whole, fraction, pointed⟩ := found
    have hle := mantissa_length hmantissa
    simp only [drop_line k hle, exponent_line k ht, decimalKind_line]
    generalize text.drop (whole.length + fraction.length + if pointed then 1 else 0) = after
    cases hpower : exponent after with
    | none => simp only [Option.map_none, Option.getD_none, List.drop_zero, suffix_line k ht]
    | some power =>
      simp only [Option.map_some, Option.getD_some, drop_line k (exponent_length hpower),
        suffix_line k ht]

theorem readNat_map (base : Nat) (figures : List Char) :
    Decimal.readNat base (figures.map k.letter) = Decimal.readNat base figures := by
  rw [Decimal.readNat, Decimal.readNat, List.foldlM_map]
  simp only [k.keeps Decimal.digitValue (by decide)]

/-- A literal, and one of the same length and value. The messages of errors show its figures. -/
inductive Alike : (a b : NumericLiteral) → Prop
  | ok {length : Nat} {kind : TokenKind} : kind.cased k = kind →
      Alike ⟨length, .ok kind⟩ ⟨length, .ok kind⟩
  | error {length : Nat} {message message' : String} :
      Alike ⟨length, .error message⟩ ⟨length, .error message'⟩

theorem hexKind_alike (length : Nat) (figures : List Char) (long : Bool) :
    Alike k ⟨length, hexKind figures long⟩ ⟨length, hexKind (figures.map k.letter) long⟩ := by
  rw [hexKind, hexKind, readNat_map]
  split
  · split
    · split <;> exact .ok rfl
    · exact .error
  · exact .error

include ht in
theorem hex_alike (text : List Char) :
    Option.Rel (Alike k) (hex text) (hex (text.map k.letter ++ tail)) := by
  unfold hex
  simp only [takeWhile_line k ht (p := isHexDigit) (k.keeps _ (by decide)) (by decide),
    List.isEmpty_map, List.length_map, drop_takeWhile_line,
    head?_line k ht (d := '&') (by decide) (by decide)]
  split
  · exact .none
  · exact .some (hexKind_alike k _ _ _)

theorem cased_decimalKind (whole fraction : List Char) (pointed : Bool)
    (power : Option (Char × Int × Nat)) (letter : Option Char) :
    (decimalKind whole fraction pointed power letter).cased k =
      decimalKind whole fraction pointed power letter := by
  unfold decimalKind
  dsimp only
  generalize (!pointed && power.isNone) = integral
  split <;> try rfl
  split <;> try rfl
  split <;> try rfl
  split <;> try rfl
  split <;> rfl

include ht in
theorem decimal_alike (text : List Char) :
    Option.Rel (Alike k) (decimal text) (decimal (text.map k.letter ++ tail)) := by
  rw [decimal_line k ht, decimal]
  split
  · exact .none
  · exact .some (.ok (cased_decimalKind k _ _ _ _ _))

theorem ofText?_eq (text : List Char) : ofText? text =
    if text.head? == some '&' && startsHex text.tail then hex text.tail.tail else decimal text := by
  unfold ofText?
  split
  · rfl
  · rfl
  · next h h' =>
    refine (if_neg fun hhex => ?_).symm
    rcases text with _ | ⟨c, _ | ⟨d, rest⟩⟩
    · cases hhex
    · simp [startsHex] at hhex
    · simp only [List.head?_cons, List.tail_cons, startsHex_cons, Bool.and_eq_true, beq_iff_eq,
        Option.some.injEq, Bool.or_eq_true] at hhex
      obtain ⟨rfl, rfl | rfl⟩ := hhex
      · exact h rest rfl
      · exact h' rest rfl

include ht in
theorem ofText?_alike (text : List Char) :
    Option.Rel (Alike k) (ofText? text) (ofText? (text.map k.letter ++ tail)) := by
  rw [ofText?_eq, ofText?_eq, head?_line k ht (by decide) (by decide)]
  rcases text with _ | ⟨c, rest⟩
  · exact decimal_alike k ht []
  · rw [List.map_cons, List.cons_append, List.tail_cons, List.tail_cons, startsHex_line k ht]
    by_cases hhex : ((c :: rest).head? == some '&' && startsHex rest) = true
    · rw [if_pos hhex, if_pos hhex]
      cases rest with
      | nil => simp [startsHex] at hhex
      | cons d rest => exact hex_alike k ht rest
    · rw [if_neg hhex, if_neg hhex]
      exact decimal_alike k ht (c :: rest)

end Line

end NumericLiteral

/-! ## Symbols -/

namespace Lexeme

def startsWith (d : Char) (text : List Char) : Bool :=
  text.head? == some d

theorem startsWith_iff : startsWith d text = true ↔ ∃ rest, text = d :: rest := by
  rw [startsWith, beq_iff_eq, List.head?_eq_some_iff]

section Equations

variable (rest : List Char)

theorem symbol?_plus : symbol? '+' rest = some (if startsWith '=' rest then (1, .plusEqual)
    else if startsWith '+' rest then (1, .increment) else (0, .plus)) := by
  unfold symbol?
  split <;> simp_all [startsWith_iff]

theorem symbol?_minus : symbol? '-' rest = some (if startsWith '=' rest then (1, .minusEqual)
    else if startsWith '-' rest then (1, .decrement) else (0, .minus)) := by
  unfold symbol?
  split <;> simp_all [startsWith_iff]

theorem symbol?_star : symbol? '*' rest =
    some (if startsWith '=' rest then (1, .starEqual) else (0, .star)) := by
  unfold symbol?
  split <;> simp_all [startsWith_iff]

theorem symbol?_slash : symbol? '/' rest =
    some (if startsWith '=' rest then (1, .slashEqual) else (0, .slash)) := by
  unfold symbol?
  split <;> simp_all [startsWith_iff]

theorem symbol?_backslash : symbol? '\\' rest =
    some (if startsWith '=' rest then (1, .backslashEqual) else (0, .backslash)) := by
  unfold symbol?
  split <;> simp_all [startsWith_iff]

theorem symbol?_less : symbol? '<' rest = some (if startsWith '>' rest then (1, .notEqual)
    else if startsWith '=' rest then (1, .lessEqual)
    else if startsWith '<' rest then
      if startsWith '=' rest.tail then (2, .shiftLeftEqual) else (1, .shiftLeft)
    else (0, .less)) := by
  unfold symbol?
  split <;> simp_all [startsWith_iff]

theorem symbol?_greater : symbol? '>' rest = some (if startsWith '=' rest then (1, .greaterEqual)
    else if startsWith '>' rest then
      if startsWith '=' rest.tail then (2, .shiftRightEqual) else (1, .shiftRight)
    else (0, .greater)) := by
  unfold symbol?
  split <;> simp_all [startsWith_iff]

theorem symbol?_question : symbol? '?' rest = some (if startsWith '.' rest then
      if startsDigit rest.tail then (0, .question) else (1, .questionDot)
    else if startsWith '[' rest then (1, .questionBracket)
    else if startsWith '(' rest then (1, .questionParen)
    else (0, .question)) := by
  unfold symbol?
  split <;> simp_all [startsWith_iff]
  split <;> simp_all

end Equations

/-- The characters that make a symbol with others after them. -/
def symbolHeads : List Char :=
  ['+', '-', '*', '/', '\\', '<', '>', '?']

/-- The characters that make a symbol on their own. -/
def loneSymbols : List Char :=
  ['^', '=', '.', ',', ':', ';', '@', '(', ')', '{', '}', '[', ']']

theorem symbol?_lone (h : c ∉ symbolHeads) (a b : List Char) : symbol? c a = symbol? c b := by
  have hnone (hlone : c ∉ loneSymbols) (rest : List Char) : symbol? c rest = none := by
    unfold symbol?
    split <;> first | rfl | exact absurd (by decide) h | exact absurd (by decide) hlone
  by_cases hlone : c ∈ loneSymbols
  · simp only [loneSymbols, List.mem_cons, List.not_mem_nil, or_false] at hlone
    rcases hlone with rfl | rfl | rfl | rfl | rfl | rfl | rfl | rfl | rfl | rfl | rfl | rfl | rfl
    all_goals rfl
  · rw [hnone hlone, hnone hlone]

section Line

variable (k : Casing) {tail : List Char} (ht : AtLineEnd tail)

include ht in
theorem symbol?_line (c : Char) (rest : List Char) :
    symbol? c (rest.map k.letter ++ tail) = symbol? c rest := by
  have hstarts (d : Char) (hd : d.isAlpha = false ∧ d ≠ '\n') (text : List Char) :
      startsWith d (text.map k.letter ++ tail) = startsWith d text :=
    head?_line k ht hd.1 hd.2 text
  -- the second character of a symbol matters only if there is a first one
  have htail {d : Char} (hd : startsWith d rest = true) :
      (rest.map k.letter ++ tail).tail = rest.tail.map k.letter ++ tail := by
    obtain ⟨more, rfl⟩ := startsWith_iff.1 hd
    rfl
  by_cases hc : c ∈ symbolHeads
  · simp only [symbolHeads, List.mem_cons, List.not_mem_nil, or_false] at hc
    rcases hc with rfl | rfl | rfl | rfl | rfl | rfl | rfl | rfl
    · simp only [symbol?_plus, hstarts '=' (by decide), hstarts '+' (by decide)]
    · simp only [symbol?_minus, hstarts '=' (by decide), hstarts '-' (by decide)]
    · simp only [symbol?_star, hstarts '=' (by decide)]
    · simp only [symbol?_slash, hstarts '=' (by decide)]
    · simp only [symbol?_backslash, hstarts '=' (by decide)]
    · simp only [symbol?_less, hstarts '=' (by decide), hstarts '<' (by decide),
        hstarts '>' (by decide)]
      by_cases hless : startsWith '<' rest = true
      · rw [htail hless, hstarts '=' (by decide)]
      · simp only [hless]
        rfl
    · simp only [symbol?_greater, hstarts '=' (by decide), hstarts '>' (by decide)]
      by_cases hgreater : startsWith '>' rest = true
      · rw [htail hgreater, hstarts '=' (by decide)]
      · simp only [hgreater]
        rfl
    · simp only [symbol?_question, hstarts '.' (by decide), hstarts '[' (by decide),
        hstarts '(' (by decide)]
      by_cases hdot : startsWith '.' rest = true
      · rw [htail hdot, startsDigit_line k ht]
      · simp only [hdot]
        rfl
  · exact symbol?_lone hc _ _

include ht in
theorem number_line (text : List Char) :
    (number text).Cased k (number (text.map k.letter ++ tail)) := by
  have halike := NumericLiteral.ofText?_alike k ht text
  unfold number
  generalize NumericLiteral.ofText? text = a, NumericLiteral.ofText? (text.map k.letter ++ tail) = b
    at halike
  cases halike with
  | none => exact ⟨rfl, .error _ _⟩
  | some halike =>
    cases halike with
    | @ok length kind hkind =>
      have htoken := Content.Cased.token (k := k) kind
      rw [hkind] at htoken
      exact ⟨rfl, htoken⟩
    | error => exact ⟨rfl, .error _ _⟩

include ht in
/-- The lexeme at the front of a text is the same in any case of letters and with any lines
behind it. -/
theorem ofText_line (c : Char) (rest : List Char) :
    (ofText c rest).Cased k (ofText (k.letter c) (rest.map k.letter ++ tail)) := by
  unfold ofText
  rw [k.keeps Text.isBlank (by decide), k.keeps isWordStart (by decide),
    k.keeps Char.isDigit (by decide), startsDigit_line k ht, startsHex_line k ht]
  simp only [k.letter_eq_iff (d := '\'') (by decide), k.letter_eq_iff (d := '\n') (by decide),
    k.letter_eq_iff (d := '.') (by decide), k.letter_eq_iff (d := '&') (by decide),
    k.letter_eq_iff (d := '"') (by decide), lineLength_line k ht]
  split
  · exact ⟨rfl, .skipped⟩
  split
  · exact ⟨rfl, .token _⟩
  split
  · exact ⟨rfl, .skipped⟩
  split
  · exact word_line k ht c rest
  next hword =>
  split
  · exact number_line k ht (c :: rest)
  split
  · exact string_line k ht rest
  · have halpha : c.isAlpha = false := by
      cases h : c.isAlpha with
      | false => rfl
      | true => exact absurd (by rw [isWordStart, h]; rfl) hword
    rw [k.letter_eq halpha, symbol?_line k ht]
    split
    · exact ⟨rfl, .token _⟩
    · exact ⟨rfl, .error _ _⟩

end Line

end Lexeme

/-! ## Scanning -/

/-- A lexeme that is no error stays within its text. -/
theorem Lexeme.extra_le {rest : List Char}
    (h : ∀ message, (ofText c rest).content ≠ .error message) :
    (ofText c rest).extra ≤ rest.length := by
  have hend : AtLineEnd ['\n'] := .inr ⟨[], rfl⟩
  obtain ⟨hextra, hcontent⟩ := ofText_line .asWritten hend c rest
  have hc : Casing.asWritten.letter c = c := rfl
  rw [hc] at hextra hcontent
  rw [← hextra]
  generalize hcased : (ofText c rest).content = content at hcontent
  generalize hline : (ofText c (rest.map Casing.asWritten.letter ++ ['\n'])).content = other
    at hcontent
  cases hcontent with
  | skipped =>
    rcases ofText_skipped hline with ⟨-, -, hzero⟩ | ⟨hcomment, -⟩
    · rw [hzero]
      exact Nat.zero_le _
    · exact le_length_of_line .asWritten fun hmem => hcomment.not_mem (List.mem_cons_of_mem _ hmem)
  | token kind =>
    rcases ofText_token hline with ⟨-, htaken⟩ | ⟨-, hnot⟩
    · have hnil := (List.cons.inj htaken).2
      refine le_length_of_line .asWritten ?_
      rw [hnil]
      exact List.not_mem_nil
    · exact le_length_of_line .asWritten fun hmem => hnot (List.mem_cons_of_mem _ hmem)
  | error message message' => exact absurd hcased (h message)

theorem Place.after_map (k : Casing) (p : Place) (text : List Char) :
    p.after (text.map k.letter) = p.after text := by
  have hnext (q : Place) (c : Char) : q.next (k.letter c) = q.next c := by
    simp only [next, k.utf8Size_letter, k.letter_eq_iff (d := '\n') (by decide)]
  rw [after, after, List.foldl_map]
  simp only [hnext]

namespace Token

variable {found : Found}

theorem Found.add_errors {start stop : Place} {content : Lexeme.Content}
    (h : (found.add file start stop content).errors = []) :
    found.errors = [] ∧ ∀ message, content ≠ .error message := by
  cases content with
  | skipped | token => exact ⟨h, fun _ h => by cases h⟩
  | error message => cases h

theorem Found.add_cased {k : Casing} (found : Found) (file : String) (start stop : Place)
    {a b : Lexeme.Content} (h : a.Cased k b) (ha : ∀ message, a ≠ .error message) :
    Found.add ⟨found.tokens.map (cased k), []⟩ file start stop b =
      ⟨(found.add file start stop a).tokens.map (cased k), []⟩ := by
  cases h with
  | skipped | token => rfl
  | error message => exact absurd rfl (ha message)

theorem errors_of_scanFrom {place : Place}
    (h : (scanFrom file place text found).1.errors = []) : found.errors = [] := by
  fun_induction scanFrom file place text found with
  | case1 => exact h
  | case2 place found c rest lexeme stop ih => exact (Found.add_errors (ih h)).1

/-- A text without errors is scanned in the same way in any case of letters and with any lines
behind it. -/
theorem scanFrom_line (k : Casing) {tail : List Char} (ht : AtLineEnd tail) {place : Place}
    (h : (scanFrom file place text found).1.errors = []) :
    scanFrom file place (text.map k.letter ++ tail) ⟨found.tokens.map (cased k), []⟩ =
      scanFrom file (scanFrom file place text found).2 tail
        ⟨(scanFrom file place text found).1.tokens.map (cased k), []⟩ := by
  fun_induction scanFrom file place text found with
  | case1 place found => rfl
  | case2 place found c rest lexeme stop ih =>
    obtain ⟨-, hcontent⟩ := Found.add_errors (errors_of_scanFrom h)
    have hle : lexeme.extra ≤ rest.length := Lexeme.extra_le hcontent
    obtain ⟨hextra, hcased⟩ := Lexeme.ofText_line k ht c rest
    have htake : (rest.map k.letter ++ tail).take lexeme.extra =
        (rest.take lexeme.extra).map k.letter := by
      rw [List.take_append_of_le_length (by simpa using hle), List.map_take]
    rw [List.map_cons, List.cons_append, scanFrom]
    rw [hextra, htake, ← List.map_cons, Place.after_map, drop_line k hle,
      Found.add_cased found file place _ hcased hcontent]
    exact ih h

theorem scan_ok {source : String} {tokens : List Token} (h : scan file source = .ok tokens) :
    (scanFrom file .start source.toList ⟨[], []⟩).1.errors = [] ∧
      tokens = (ofEnd file (scanFrom file .start source.toList ⟨[], []⟩).2 ::
        (scanFrom file .start source.toList ⟨[], []⟩).1.tokens).reverse := by
  unfold scan at h
  dsimp only at h
  split at h
  · next hempty =>
    injection h with h
    exact ⟨List.isEmpty_iff.1 hempty, h.symm⟩
  · cases h

end Token

/-- A text in another case of letters, as `Casing.capitals`, has as many tokens at the same places.
They are the same keywords, symbols and numbers; only names and strings show the case. -/
theorem scan_cased (k : Casing) {file source : String} {tokens : List Token}
    (h : Token.scan file source = .ok tokens) :
    Token.scan file (k.text source) = .ok (tokens.map (Token.cased k)) := by
  obtain ⟨herrors, rfl⟩ := Token.scan_ok h
  have hline := Token.scanFrom_line k (.inl rfl) herrors
  rw [List.append_nil, List.map_nil, Token.scanFrom] at hline
  rw [Token.scan, Casing.text, String.toList_ofList, hline, List.map_reverse]
  rfl

theorem scan_cased_capitals :
    Token.scan "f" "End  if b$ &hfF \"kö\" rem x" = .ok
        [⟨.mark .endIf, ⟨"f", ⟨1, 0⟩, ⟨1, 7⟩, ⟨0, 7⟩⟩⟩,
          ⟨.identifier "b$", ⟨"f", ⟨1, 8⟩, ⟨1, 10⟩, ⟨8, 10⟩⟩⟩,
          ⟨.integer 255, ⟨"f", ⟨1, 11⟩, ⟨1, 15⟩, ⟨11, 15⟩⟩⟩,
          ⟨.string "kö", ⟨"f", ⟨1, 16⟩, ⟨1, 21⟩, ⟨16, 21⟩⟩⟩,
          ⟨.mark .endOfText, ⟨"f", ⟨1, 27⟩, ⟨1, 27⟩, ⟨27, 27⟩⟩⟩] ∧
      Token.scan "f" "END  IF B$ &HFF \"Kö\" REM X" = .ok
        [⟨.mark .endIf, ⟨"f", ⟨1, 0⟩, ⟨1, 7⟩, ⟨0, 7⟩⟩⟩,
          ⟨.identifier "B$", ⟨"f", ⟨1, 8⟩, ⟨1, 10⟩, ⟨8, 10⟩⟩⟩,
          ⟨.integer 255, ⟨"f", ⟨1, 11⟩, ⟨1, 15⟩, ⟨11, 15⟩⟩⟩,
          ⟨.string "Kö", ⟨"f", ⟨1, 16⟩, ⟨1, 21⟩, ⟨16, 21⟩⟩⟩,
          ⟨.mark .endOfText, ⟨"f", ⟨1, 27⟩, ⟨1, 27⟩, ⟨27, 27⟩⟩⟩] := by
  have hscan : Token.scan "f" "End  if b$ &hfF \"kö\" rem x" = .ok
      [⟨.mark .endIf, ⟨"f", ⟨1, 0⟩, ⟨1, 7⟩, ⟨0, 7⟩⟩⟩,
        ⟨.identifier "b$", ⟨"f", ⟨1, 8⟩, ⟨1, 10⟩, ⟨8, 10⟩⟩⟩,
        ⟨.integer 255, ⟨"f", ⟨1, 11⟩, ⟨1, 15⟩, ⟨11, 15⟩⟩⟩,
        ⟨.string "kö", ⟨"f", ⟨1, 16⟩, ⟨1, 21⟩, ⟨16, 21⟩⟩⟩,
        ⟨.mark .endOfText, ⟨"f", ⟨1, 27⟩, ⟨1, 27⟩, ⟨27, 27⟩⟩⟩] := by
    with_unfolding_all rfl
  have htext : Casing.capitals.text "End  if b$ &hfF \"kö\" rem x" =
      "END  IF B$ &HFF \"Kö\" REM X" := by with_unfolding_all rfl
  exact ⟨hscan, htext ▸ scan_cased .capitals hscan⟩

end BrightScript
