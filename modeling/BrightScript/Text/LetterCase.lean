import BrightScript.Text.CaseData

/-!
# Capital and small letters

`toCapitals` and `toSmall` change the case of a whole text by the full Unicode mappings: a letter
may become several characters, and a capital sigma becomes the final form `ς` at the end of a word.
A sigma ends a word when a cased letter stands before it and none after it, case-ignorable
characters between them not counted.
-/

namespace BrightScript.Text

def inRanges (ranges : List (Nat × Nat)) (code : Nat) : Bool :=
  ranges.any fun (first, last) => first ≤ code && code ≤ last

def isCased (c : Char) : Bool :=
  inRanges casedRanges c.toNat

/-- Whether a character is passed over when the letters around a sigma are looked for. -/
def isCaseIgnorable (c : Char) : Bool :=
  inRanges caseIgnorableRanges c.toNat

def CaseRun.covers (run : CaseRun) (code : Nat) : Bool :=
  run.first ≤ code && code ≤ run.last && (code - run.first) % run.step == 0

/-- The characters a code point outside ASCII maps to under a list of expansions and of runs. -/
def mapCase (expansions : List (Nat × List Nat)) (runs : List CaseRun) (c : Char) : List Char :=
  match expansions.find? (·.1 == c.toNat) with
  | some (_, codes) => codes.map Char.ofNat
  | none =>
    match runs.find? (·.covers c.toNat) with
    | some run => [Char.ofNat (Int.toNat (c.toNat + run.shift))]
    | none => [c]

def capital (c : Char) : List Char :=
  if c.toNat < 0x80 then [c.toUpper] else mapCase capitalExpansions capitalRuns c

/-- The small form of a character that is not a capital sigma. -/
def small (c : Char) : List Char :=
  if c.toNat < 0x80 then [c.toLower] else mapCase smallExpansions smallRuns c

def startsCased (text : List Char) : Bool :=
  match text.dropWhile isCaseIgnorable with
  | c :: _ => isCased c
  | [] => false

/-- The small form of a text appended to `result`, which is kept in reverse; `before` holds the
characters already passed, the last of them first. -/
def smallLetters : List Char → (before : List Char) → (result : List Char) → List Char
  | [], _, result => result.reverse
  | c :: rest, before, result =>
    let mapped :=
      if c == 'Σ' then
        if startsCased before && !startsCased rest then ['ς'] else ['σ']
      else small c
    smallLetters rest (c :: before) (mapped.reverse ++ result)

def toCapitals (s : String) : String :=
  String.ofList (s.toList.flatMap capital)

def toSmall (s : String) : String :=
  String.ofList (smallLetters s.toList [] [])

end BrightScript.Text
