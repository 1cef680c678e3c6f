import BrightScript.Proofs.Casing
import BrightScript.Text.Radix

/-!
# Literals read back

A literal that is written out and scanned again gives the value it was written for. A text that is
one lexeme gives one token over the whole text and the end of the text (`Token.alone`), so it is
enough to know the lexeme of each written form: a string between quotes with its own quotes doubled,
the decimal digits of a number with or without a kind letter, and the hexadecimal digits of a number
in either case and with any number of zeros in front.
-/

namespace BrightScript

variable {kind : TokenKind} {base : Nat} {letter : Option Char}

/-! ## Texts of one lexeme -/

namespace Token

variable (file : String)

def alone (text : String) (kind : TokenKind) : List Token :=
  let stop := Place.start.after text.toList
  [⟨kind, Place.start.range stop file⟩, ofEnd file stop]

def ReadsInteger (text : String) (value : Int) : Prop :=
  ∃ n : Int32, n.toInt = value ∧ scan file text = .ok (alone file text (.integer n))

def ReadsLong (text : String) (value : Int) : Prop :=
  ∃ n : Int64, n.toInt = value ∧ scan file text = .ok (alone file text (.longInteger n))

variable {file} {c : Char} {rest : List Char}

theorem scanFrom_alone {content : Lexeme.Content}
    (h : Lexeme.ofText c rest = ⟨rest.length, content⟩) (place : Place) (found : Found) :
    scanFrom file place (c :: rest) found =
      (found.add file place (place.after (c :: rest)) content, place.after (c :: rest)) := by
  rw [scanFrom, h]
  dsimp only
  rw [List.take_length, List.drop_length, scanFrom]

theorem scan_alone (h : Lexeme.ofText c rest = ⟨rest.length, .token kind⟩) :
    scan file (String.ofList (c :: rest)) = .ok (alone file (String.ofList (c :: rest)) kind) := by
  rw [scan, alone, String.toList_ofList, scanFrom_alone h]
  rfl

theorem scan_alone_error {message : String}
    (h : Lexeme.ofText c rest = ⟨rest.length, .error message⟩) :
    scan file (String.ofList (c :: rest)) = .error [⟨message, ⟨0, byteLength (c :: rest)⟩⟩] := by
  have hstop : (Place.start.after (c :: rest)).offset = byteLength (c :: rest) := by
    rw [Place.offset_after]
    exact Nat.zero_add _
  rw [scan, String.toList_ofList, scanFrom_alone h, ← hstop]
  rfl

end Token

namespace Lexeme

/-! ## Strings -/

/-- The characters of a string as they are written between quotes: each quote twice. -/
def doubled : List Char → List Char
  | [] => []
  | c :: rest => if c = '"' then '"' :: '"' :: doubled rest else c :: doubled rest

theorem quoted_doubled (s value : List Char) (count : Nat) (hs : '\n' ∉ s) :
    quoted (doubled s ++ ['"']) value count =
      (count + (doubled s).length + 1, some (value.reverse ++ s)) := by
  induction s generalizing value count with
  | nil => simp [doubled, quoted]
  | cons c s ih =>
    rw [List.mem_cons, not_or] at hs
    by_cases hc : c = '"'
    · subst hc
      rw [doubled, if_pos rfl, List.cons_append, List.cons_append, quoted, ih _ _ hs.2]
      simp only [List.reverse_cons, List.append_assoc, List.singleton_append, List.length_cons]
      congr 1
      omega
    · rw [doubled, if_neg hc, List.cons_append,
        quoted.eq_5 _ _ _ _ (fun _ h _ => hc h) hc (Ne.symm hs.1), ih _ _ hs.2]
      simp only [List.reverse_cons, List.append_assoc, List.singleton_append, List.length_cons]
      congr 1
      omega

def quote (s : String) : String :=
  String.ofList ('"' :: (doubled s.toList ++ ['"']))

theorem ofText_doubled {s : List Char} (hs : '\n' ∉ s) :
    ofText '"' (doubled s ++ ['"']) =
      ⟨(doubled s ++ ['"']).length, .token (.string (String.ofList s))⟩ := by
  have hstring : ofText '"' (doubled s ++ ['"']) = string (doubled s ++ ['"']) := rfl
  rw [hstring, string, quoted_doubled s [] 0 hs]
  simp

/-! ## Numbers -/

theorem ofText_digit {c : Char} (hc : c.isDigit = true) (rest : List Char) :
    ofText c rest = number (c :: rest) := by
  have hother {p : Char → Bool} (hp : "0123456789".toList.all (fun d => !p d) = true) :
      p c = false := by
    have hmem : ∀ n, n < 58 → 48 ≤ n → Char.ofNat n ∈ "0123456789".toList := by decide
    have hrange : 48 ≤ c.toNat ∧ c.toNat ≤ 57 := by
      simpa [Char.isDigit, UInt32.le_iff_toNat_le] using hc
    have hdigit := hmem c.toNat (by omega) hrange.1
    rw [Char.ofNat_toNat] at hdigit
    simpa using List.all_eq_true.1 hp c hdigit
  have hcomment : c ≠ '\'' := by simpa using hother (p := (· == '\'')) (by decide)
  have hline : c ≠ '\n' := by simpa using hother (p := (· == '\n')) (by decide)
  rw [ofText, if_neg hcomment, if_neg hline, hother (p := Text.isBlank) (by decide),
    hother (p := isWordStart) (by decide), hc]
  rfl

theorem ofText_hex {mark : Char} (hmark : mark = 'h' ∨ mark = 'H') (rest : List Char) :
    ofText '&' (mark :: rest) = number ('&' :: mark :: rest) := by
  rcases hmark with rfl | rfl <;> rfl

end Lexeme

namespace Decimal

theorem decimalValue_eq {figures : List Char} (h : ∀ c ∈ figures, c.isDigit = true) :
    decimalValue figures = Nat.ofDigitChars 10 figures 0 := by
  have hfold (total : Nat) :
      figures.foldl (fun total c => total * 10 + (digitValue c).getD 0) total =
        figures.foldl (fun total c => 10 * total + (c.toNat - '0'.toNat)) total := by
    induction figures generalizing total with
    | nil => rfl
    | cons c figures ih =>
      have hc : digitValue c = some (c.toNat - '0'.toNat) := if_pos (h c List.mem_cons_self)
      rw [List.foldl_cons, List.foldl_cons, ih (fun d hd => h d (List.mem_cons_of_mem _ hd)), hc,
        Option.getD_some, Nat.mul_comm]
  rw [decimalValue, Nat.ofDigitChars_eq_foldl, hfold]

theorem decimalValue_toDigits (n : Nat) : decimalValue (Nat.toDigits 10 n) = n := by
  rw [decimalValue_eq fun c hc => Nat.isDigit_of_mem_toDigits (by decide) (by decide) hc,
    Nat.ofDigitChars_ten_toDigits]

theorem readNat_zeros (base zeros : Nat) (hbase : 0 < base) (figures : List Char) :
    readNat base (List.replicate zeros '0' ++ figures) = readNat base figures := by
  induction zeros with
  | zero => rfl
  | succ zeros ih =>
    rw [List.replicate_succ, List.cons_append, ← ih, readNat, List.foldlM_cons]
    have hzero : digitValue '0' = some 0 := rfl
    simp [hzero, hbase, readNat]

end Decimal

namespace Text

theorem radixFigures_ne_nil (base n : Nat) : radixFigures base n ≠ [] := by
  rw [radixFigures]
  split <;> simp

theorem exists_radixDigit {n : Nat} {c : Char} (hbase : 1 < base) (h : c ∈ radixFigures base n) :
    ∃ d, d < base ∧ c = radixDigit d := by
  fun_induction radixFigures base n with
  | case1 n hn => exact ⟨n, by omega, List.mem_singleton.1 h⟩
  | case2 n hn ih =>
    rcases List.mem_append.1 h with h | h
    · exact ih h
    · exact ⟨n % base, Nat.mod_lt n (by omega), List.mem_singleton.1 h⟩

theorem readNat_append_radixDigit {d n : Nat} (figures : List Char) (hbase : base ≤ 36)
    (hd : d < base) (h : Decimal.readNat base figures = some n) :
    Decimal.readNat base (figures ++ [radixDigit d]) = some (n * base + d) := by
  have hall : ∀ d, d < 36 → Decimal.digitValue (radixDigit d) = some d := by decide
  rw [Decimal.readNat] at h ⊢
  rw [List.foldlM_append, h]
  simp [hall d (Nat.lt_of_lt_of_le hd hbase), hd]

theorem readNat_radixFigures (hlow : 1 < base) (hhigh : base ≤ 36) (n : Nat) :
    Decimal.readNat base (radixFigures base n) = some n := by
  fun_induction radixFigures base n with
  | case1 n hn =>
    have hone := readNat_append_radixDigit [] hhigh (by omega : n < base) rfl
    rwa [List.nil_append, Nat.zero_mul, Nat.zero_add] at hone
  | case2 n hn ih =>
    rw [readNat_append_radixDigit _ hhigh (Nat.mod_lt n (by omega)) ih, Nat.mul_comm,
      Nat.div_add_mod]

theorem toDigits_eq_radixFigures (hlow : 1 < base) (hhigh : base ≤ 16) (n : Nat) :
    Nat.toDigits base n = radixFigures base n := by
  have hall : ∀ d, d < 16 → Nat.digitChar d = radixDigit d := by decide
  fun_induction radixFigures base n with
  | case1 n hn => rw [Nat.toDigits_of_lt_base (by omega), hall n (by omega)]
  | case2 n hn ih =>
    have hdigit : n % base < base := Nat.mod_lt n (by omega)
    rw [Nat.toDigits_eq_if hlow, if_neg (by omega), ih, hall _ (by omega)]

end Text

namespace NumericLiteral

/-- Hexadecimal digits that write a number: letters stand in either case, and there can be zeros in
front. -/
def IsHex (n : Nat) (figures : List Char) : Prop :=
  ∃ zeros, figures.map Char.toLower = List.replicate zeros '0' ++ Nat.toDigits 16 n

/-- A hexadecimal literal with the given letter h, figures and mark of a long integer. -/
def hexText (mark : Char) (figures : List Char) (long : Bool) : List Char :=
  '&' :: mark :: (figures ++ if long then ['&'] else [])

section Hex

variable {n : Nat} {figures : List Char} (h : IsHex n figures)
include h

theorem IsHex.readNat_eq : Decimal.readNat 16 figures = some n := by
  obtain ⟨zeros, hzeros⟩ := h
  have hsmall := readNat_map ⟨Char.toLower, Text.toLower_toLower⟩ 16 figures
  rw [← hsmall, hzeros, Decimal.readNat_zeros _ _ (by decide),
    Text.toDigits_eq_radixFigures (by decide) (by decide),
    Text.readNat_radixFigures (by decide) (by decide)]

theorem IsHex.isHexDigit {c : Char} (hc : c ∈ figures) : isHexDigit c = true := by
  obtain ⟨zeros, hzeros⟩ := h
  have hall : ∀ d, d < 16 → NumericLiteral.isHexDigit (Text.radixDigit d) = true := by decide
  rw [← toLower_keeps NumericLiteral.isHexDigit (by decide)]
  have hmem : c.toLower ∈ List.replicate zeros '0' ++ Nat.toDigits 16 n :=
    hzeros ▸ List.mem_map_of_mem hc
  rcases List.mem_append.1 hmem with hzero | hdigit
  · rw [(List.mem_replicate.1 hzero).2]
    rfl
  · rw [Text.toDigits_eq_radixFigures (by decide) (by decide)] at hdigit
    obtain ⟨d, hd, heq⟩ := Text.exists_radixDigit (by decide) hdigit
    rw [heq, hall d hd]

theorem IsHex.ne_nil : figures ≠ [] := by
  rintro rfl
  obtain ⟨zeros, hzeros⟩ := h
  exact Nat.toDigits_ne_nil (List.append_eq_nil_iff.1 hzeros.symm).2

theorem IsHex.ofText?_eq {mark : Char} (hmark : mark = 'h' ∨ mark = 'H') (long : Bool) :
    ofText? (hexText mark figures long) =
      some ⟨(hexText mark figures long).length, hexKind figures long⟩ := by
  have htake : (figures ++ if long then ['&'] else []).takeWhile NumericLiteral.isHexDigit =
      figures := by
    rw [List.takeWhile_append_of_pos fun c hc => h.isHexDigit hc]
    cases long <;> simp [NumericLiteral.isHexDigit]
  have hhex : ofText? (hexText mark figures long) =
      hex (figures ++ if long then ['&'] else []) := by
    rcases hmark with rfl | rfl <;> rfl
  have hempty : figures.isEmpty = false := List.isEmpty_eq_false_iff.2 h.ne_nil
  rw [hhex, hex, htake, List.drop_left, hempty, hexText]
  cases long <;> simp <;> omega

end Hex

/-- A literal of decimal digits, with or without one of the kind letters of whole numbers. -/
theorem ofText?_digits {figures : List Char} (hne : figures ≠ [])
    (hdigits : ∀ c ∈ figures, c.isDigit = true)
    (hletter : letter = none ∨ letter = some '%' ∨ letter = some '&') :
    ofText? (figures ++ letter.toList) = some ⟨(figures ++ letter.toList).length,
      .ok (decimalKind figures [] false none letter)⟩ := by
  have hhex : ((figures ++ letter.toList).head? == some '&') = false := by
    obtain ⟨c, rest, rfl⟩ := List.exists_cons_of_ne_nil hne
    rw [List.cons_append, List.head?_cons, beq_eq_false_iff_ne]
    rintro heq
    exact absurd (hdigits '&' (Option.some.inj heq ▸ List.mem_cons_self)) (by decide)
  have htake : (figures ++ letter.toList).takeWhile Char.isDigit = figures := by
    rw [List.takeWhile_append_of_pos hdigits]
    rcases hletter with rfl | rfl | rfl <;> simp
  have hmantissa : mantissa (figures ++ letter.toList) = some (figures, [], false) := by
    rw [mantissa_eq, htake]
    dsimp only
    rw [List.drop_left, List.isEmpty_eq_false_iff.2 hne]
    rcases hletter with rfl | rfl | rfl <;> rfl
  rw [ofText?_eq, hhex, decimal, hmantissa]
  rcases hletter with rfl | rfl | rfl <;> simp [exponent, suffix]

theorem decimalKind_toDigits {n : Nat} (hn : n < Nat.pow 2 63)
    (hletter : letter = none ∨ letter = some '%' ∨ letter = some '&') :
    decimalKind (Nat.toDigits 10 n) [] false none letter =
      if letter = some '%' ∨ letter = none ∧ n < Nat.pow 2 31 then .integer (Int32.ofNat n)
      else .longInteger (Int64.ofNat n) := by
  rcases hletter with rfl | rfl | rfl <;>
    simp [decimalKind, Decimal.decimalValue_toDigits, hn]

end NumericLiteral

namespace Token

variable {file : String}

theorem scan_number {c : Char} {rest : List Char}
    (hc : Lexeme.ofText c rest = Lexeme.number (c :: rest))
    (h : NumericLiteral.ofText? (c :: rest) = some ⟨(c :: rest).length, .ok kind⟩) :
    scan file (String.ofList (c :: rest)) = .ok (alone file (String.ofList (c :: rest)) kind) := by
  apply scan_alone
  rw [hc, Lexeme.number, h]
  rfl

theorem scan_number_error {c : Char} {rest : List Char} {message : String}
    (hc : Lexeme.ofText c rest = Lexeme.number (c :: rest))
    (h : NumericLiteral.ofText? (c :: rest) = some ⟨(c :: rest).length, .error message⟩) :
    scan file (String.ofList (c :: rest)) = .error [⟨message, ⟨0, byteLength (c :: rest)⟩⟩] := by
  apply scan_alone_error
  rw [hc, Lexeme.number, h]
  rfl

variable (file) in
theorem scan_decimal (n : Nat) (hletter : letter = none ∨ letter = some '%' ∨ letter = some '&') :
    scan file (String.ofList (Nat.toDigits 10 n ++ letter.toList)) =
      .ok (alone file (String.ofList (Nat.toDigits 10 n ++ letter.toList))
        (NumericLiteral.decimalKind (Nat.toDigits 10 n) [] false none letter)) := by
  have hdigits (c : Char) (hc : c ∈ Nat.toDigits 10 n) : c.isDigit = true :=
    Nat.isDigit_of_mem_toDigits (by decide) (by decide) hc
  have hliteral := NumericLiteral.ofText?_digits Nat.toDigits_ne_nil hdigits hletter
  obtain ⟨c, rest, heq⟩ := List.exists_cons_of_ne_nil (Nat.toDigits_ne_nil (b := 10) (n := n))
  have hc : c.isDigit = true := hdigits c (heq ▸ List.mem_cons_self)
  rw [heq, List.cons_append] at hliteral ⊢
  exact scan_number (Lexeme.ofText_digit hc _) hliteral

theorem readsInteger_of {text : String} {n : Nat}
    (h : scan file text = .ok (alone file text (.integer (Int32.ofNat n)))) :
    ReadsInteger file text ((n : Int).bmod (Nat.pow 2 32)) :=
  ⟨Int32.ofNat n, Int32.toInt_ofNat, h⟩

theorem readsLong_of {text : String} {n : Nat}
    (h : scan file text = .ok (alone file text (.longInteger (Int64.ofNat n)))) :
    ReadsLong file text ((n : Int).bmod (Nat.pow 2 64)) :=
  ⟨Int64.ofNat n, Int64.toInt_ofNat, h⟩

theorem scan_quote {s : String} (hs : '\n' ∉ s.toList) :
    scan file (Lexeme.quote s) = .ok (alone file (Lexeme.quote s) (.string s)) := by
  have hlexeme := Lexeme.ofText_doubled hs
  rw [String.ofList_toList] at hlexeme
  exact scan_alone hlexeme

/-- A number that fits into a signed word is not changed by reduction to that word. -/
theorem bmod_of_lt_half {n half : Nat} (hn : n < half) : (n : Int).bmod (2 * half) = n := by
  apply Int.bmod_eq_of_le <;> omega

section Decimal

open NumericLiteral

variable {n : Nat}

theorem readsInteger_toString (hn : n < Nat.pow 2 31) : ReadsInteger file (toString n) n := by
  have hwide : n < Nat.pow 2 63 := Nat.lt_of_lt_of_le hn (by decide)
  have hscan := scan_decimal file n (.inl rfl)
  rw [decimalKind_toDigits hwide (.inl rfl), if_pos (.inr ⟨rfl, hn⟩), Option.toList_none,
    List.append_nil, ← Nat.toString_eq_ofList_toDigits] at hscan
  exact bmod_of_lt_half hn ▸ readsInteger_of hscan

theorem readsLong_toString (hlarge : Nat.pow 2 31 ≤ n) (hn : n < Nat.pow 2 63) :
    ReadsLong file (toString n) n := by
  have hscan := scan_decimal file n (.inl rfl)
  rw [decimalKind_toDigits hn (.inl rfl), if_neg (by simpa using hlarge), Option.toList_none,
    List.append_nil, ← Nat.toString_eq_ofList_toDigits] at hscan
  exact bmod_of_lt_half hn ▸ readsLong_of hscan

theorem readsInteger_percent (hn : n < Nat.pow 2 63) :
    ReadsInteger file (toString n ++ "%") ((n : Int).bmod (Nat.pow 2 32)) := by
  have hscan := scan_decimal file n (.inr (.inl rfl))
  rw [decimalKind_toDigits hn (.inr (.inl rfl)), if_pos (.inl rfl), String.ofList_append,
    ← Nat.toString_eq_ofList_toDigits] at hscan
  exact readsInteger_of hscan

theorem readsLong_ampersand (hn : n < Nat.pow 2 63) : ReadsLong file (toString n ++ "&") n := by
  have hscan := scan_decimal file n (.inr (.inr rfl))
  rw [decimalKind_toDigits hn (.inr (.inr rfl)), if_neg (by simp), String.ofList_append,
    ← Nat.toString_eq_ofList_toDigits] at hscan
  exact bmod_of_lt_half hn ▸ readsLong_of hscan

end Decimal

section Hex

open NumericLiteral

variable {w : Nat} {figures : List Char} {mark : Char} (h : IsHex w figures)
  (hmark : mark = 'h' ∨ mark = 'H')
include h hmark

theorem scan_hex {long : Bool} (hkind : hexKind figures long = .ok kind) :
    scan file (String.ofList (hexText mark figures long)) =
      .ok (alone file (String.ofList (hexText mark figures long)) kind) := by
  have hliteral := h.ofText?_eq hmark long
  rw [hkind] at hliteral
  exact scan_number (Lexeme.ofText_hex hmark _) hliteral

theorem readsInteger_hex (hw : w < Nat.pow 2 32) :
    ReadsInteger file (String.ofList (hexText mark figures false))
      ((w : Int).bmod (Nat.pow 2 32)) := by
  have hwide : w < Nat.pow 2 64 := Nat.lt_of_lt_of_le hw (by decide)
  refine readsInteger_of (scan_hex h hmark ?_)
  rw [hexKind, h.readNat_eq]
  dsimp only
  rw [if_pos hwide, if_pos (by simpa using hw)]

theorem readsLong_hex {long : Bool} (hlong : long = true ∨ Nat.pow 2 32 ≤ w)
    (hw : w < Nat.pow 2 64) :
    ReadsLong file (String.ofList (hexText mark figures long))
      ((w : Int).bmod (Nat.pow 2 64)) := by
  refine readsLong_of (scan_hex h hmark ?_)
  rw [hexKind, h.readNat_eq]
  dsimp only
  rw [if_pos hw, if_neg ?_]
  rcases hlong with rfl | hlong
  · simp
  · simpa using fun _ => hlong

theorem scan_hex_error (hw : Nat.pow 2 64 ≤ w) (long : Bool) :
    scan file (String.ofList (hexText mark figures long)) =
      .error [⟨s!"Hex literal &h{String.ofList figures} is out of range",
        ⟨0, byteLength (hexText mark figures long)⟩⟩] := by
  have hliteral := h.ofText?_eq hmark long
  rw [hexKind, h.readNat_eq] at hliteral
  dsimp only at hliteral
  rw [if_neg (Nat.not_lt.2 hw)] at hliteral
  exact scan_number_error (Lexeme.ofText_hex hmark _) hliteral

end Hex

/-- Scanning a written literal gives its value. A string without newlines is read back from its
quoted form. The decimal digits of a number are an integer or a long integer as its size needs, a
long integer with the letter `&`, and the number reduced to 32 bits with the letter `%`.
Hexadecimal digits are the bit pattern of an integer up to 32 bits, of a long integer beyond that
or with the letter `&`, and an error beyond 64 bits. -/
theorem literals_read_back (file : String) :
    (∀ s : String, '\n' ∉ s.toList →
      scan file (Lexeme.quote s) = .ok (alone file (Lexeme.quote s) (.string s))) ∧
    (∀ n : Nat,
      (n < Nat.pow 2 31 → ReadsInteger file (toString n) n) ∧
      (Nat.pow 2 31 ≤ n → n < Nat.pow 2 63 → ReadsLong file (toString n) n) ∧
      (n < Nat.pow 2 63 → ReadsLong file (toString n ++ "&") n) ∧
      (n < Nat.pow 2 63 →
        ReadsInteger file (toString n ++ "%") ((n : Int).bmod (Nat.pow 2 32)))) ∧
    (∀ (w : Nat) (figures : List Char) (mark : Char), NumericLiteral.IsHex w figures →
      mark = 'h' ∨ mark = 'H' →
      let text long := String.ofList (NumericLiteral.hexText mark figures long)
      (w < Nat.pow 2 32 → ReadsInteger file (text false) ((w : Int).bmod (Nat.pow 2 32))) ∧
      (Nat.pow 2 32 ≤ w → w < Nat.pow 2 64 →
        ReadsLong file (text false) ((w : Int).bmod (Nat.pow 2 64))) ∧
      (w < Nat.pow 2 64 → ReadsLong file (text true) ((w : Int).bmod (Nat.pow 2 64))) ∧
      (Nat.pow 2 64 ≤ w → ∀ long, scan file (text long) =
        .error [⟨s!"Hex literal &h{String.ofList figures} is out of range",
          ⟨0, byteLength (text long).toList⟩⟩])) := by
  refine ⟨fun s hs => scan_quote hs, fun n => ?_, fun w figures mark h hmark => ?_⟩
  · exact ⟨readsInteger_toString, readsLong_toString, readsLong_ampersand, readsInteger_percent⟩
  · refine ⟨readsInteger_hex h hmark, fun hlow => readsLong_hex h hmark (.inr hlow),
      readsLong_hex h hmark (.inl rfl), fun hw long => ?_⟩
    rw [String.toList_ofList]
    exact scan_hex_error h hmark hw long

/-- The string of one quote, the numbers around the bounds of integers, and hexadecimal figures in
mixed case. -/
theorem literals_read_back_bounds :
    scan "main.brs" "\"\"\"\"" = .ok (alone "main.brs" "\"\"\"\"" (.string "\"")) ∧
    ReadsInteger "main.brs" "2147483647" 2147483647 ∧
    ReadsLong "main.brs" "2147483648" 2147483648 ∧
    ReadsLong "main.brs" "9223372036854775807&" 9223372036854775807 ∧
    ReadsInteger "main.brs" "2147483648%" (-2147483648) ∧
    ReadsInteger "main.brs" "&h00fFFFffFF" (-1) ∧
    ReadsLong "main.brs" "&H100000000" 4294967296 ∧
    ReadsLong "main.brs" "&hFFFFFFFFFFFFFFFF&" (-1) ∧
    scan "main.brs" "&h10000000000000000" = .error [⟨
      "Hex literal &h10000000000000000 is out of range", ⟨0, 19⟩⟩] := by
  obtain ⟨hstring, hdecimal, hhex⟩ := literals_read_back "main.brs"
  have hmixed := hhex 0xFFFFFFFF "00fFFFffFF".toList 'h' ⟨2, by decide⟩ (.inl rfl)
  have hlarge := hhex 0x100000000 "100000000".toList 'H' ⟨0, by decide⟩ (.inr rfl)
  have hmarked := hhex 0xFFFFFFFFFFFFFFFF "FFFFFFFFFFFFFFFF".toList 'h' ⟨0, by decide⟩ (.inl rfl)
  have hbeyond := hhex 0x10000000000000000 "10000000000000000".toList 'h' ⟨0, by decide⟩ (.inl rfl)
  refine ⟨hstring "\"" (by decide), (hdecimal 2147483647).1 (by decide),
    (hdecimal 2147483648).2.1 (by decide) (by decide),
    (hdecimal 9223372036854775807).2.2.1 (by decide), (hdecimal 2147483648).2.2.2 (by decide),
    hmixed.1 (by decide), hlarge.2.1 (by decide) (by decide), hmarked.2.2.1 (by decide),
    hbeyond.2.2.2 (by decide) false⟩

end Token

end BrightScript
