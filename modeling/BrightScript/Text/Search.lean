/-!
# Positions and pieces of text

Scripts count positions in characters. `slice` takes a run of characters, `findFrom` gives the
position of the first occurrence at or after a start, and `splitOn` cuts a text at the occurrences
of a separator, scanning from the left and never overlapping two of them.
-/

namespace BrightScript.Text

/-- The characters from position `start` on, at most `count` of them if a count is given. -/
def slice (s : String) (start : Nat) (count : Option Nat) : String :=
  let rest := s.toList.drop start
  String.ofList (match count with
    | some n => rest.take n
    | none => rest)

/-- Position of the first occurrence of `needle` in a text whose first character has position
`position`. -/
def findIn (needle : List Char) : List Char → (position : Nat) → Option Nat
  | [], position => if needle.isEmpty then some position else none
  | c :: rest, position =>
    if needle.isPrefixOf (c :: rest) then some position
    else findIn needle rest (position + 1)

/-- Position of the first occurrence of `needle` in `text` at or after `start`. There is none when
`start` lies beyond the end of the text, not even of the empty needle. -/
def findFrom (text needle : String) (start : Nat) : Option Nat :=
  let characters := text.toList
  if characters.length < start then none
  else findIn needle.toList (characters.drop start) start

/-- Cuts a text at each occurrence of `separator`. The number `skip` counts the characters of an
occurrence still to be passed over, and `piece` holds the current piece in reverse. -/
def cut (separator : List Char) : List Char → (skip : Nat) → (piece : List Char) → List (List Char)
  | [], _, piece => [piece.reverse]
  | _ :: rest, skip + 1, piece => cut separator rest skip piece
  | c :: rest, 0, piece =>
    if separator.isPrefixOf (c :: rest) then
      piece.reverse :: cut separator rest (separator.length - 1) []
    else cut separator rest 0 (c :: piece)

/-- The pieces of `text` between occurrences of `separator`; the single characters of the text when
the separator is empty. -/
def splitOn (text separator : String) : List String :=
  if separator.toList.isEmpty then text.toList.map fun c => String.ofList [c]
  else (cut separator.toList text.toList 0 []).map String.ofList

def padRight (width : Nat) (text : String) : String :=
  text ++ String.ofList (List.replicate (width - text.length) ' ')

/-- `count` blanks. -/
def blanks (count : Nat) : String :=
  String.ofList (List.replicate count ' ')

end BrightScript.Text
