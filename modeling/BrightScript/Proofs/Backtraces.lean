import Mathlib.Data.List.Induction
import Std.Data.String.ToNat
import BrightScript.Proofs.CappedArrays

/-!
# The two forms of a backtrace

A backtrace follows the calls outwards from the place where a run is. Its text starts at the
innermost frame and numbers the frames down to zero; its array starts at the outermost one. With the
frames in the order of the array, both come from one list: each frame with the place of the call in
it, and the last frame with the place where the run is (`getElem?_traceFrom_reverse`).
-/

namespace BrightScript

/-! ## The frames and the places they have reached -/

/-- The place that a frame has reached, with the outermost frame first: that of the call of the next
frame, or the given one if there is no next frame. -/
def placeOf (reached : Location) (frames : List Frame) (i : Nat) : Location :=
  (frames[i + 1]?.map Frame.call).getD reached

theorem placeOf_last {frames : List Frame} {i : Nat} (h : i + 1 = frames.length)
    (reached : Location) : placeOf reached frames i = reached := by
  simp [placeOf, h]

theorem placeOf_of_next {frames : List Frame} {i : Nat} {next : Frame}
    (h : frames[i + 1]? = some next) (reached : Location) :
    placeOf reached frames i = next.call := by
  simp [placeOf, h]

theorem length_traceFrom (reached : Location) (stack : List Frame) :
    (traceFrom reached stack).length = stack.length := by
  induction stack generalizing reached with
  | nil => rfl
  | cons frame rest ih => simp [traceFrom, ih]

theorem placeOf_concat {rest : List Frame} {i : Nat} (h : i < rest.length) (frame : Frame)
    (reached : Location) : placeOf reached (rest ++ [frame]) i = placeOf frame.call rest i := by
  obtain hnext | hlast := Nat.lt_or_ge (i + 1) rest.length
  · simp [placeOf, hnext, List.getElem?_append_left hnext]
  · have hlength : i + 1 = rest.length := by omega
    simp [placeOf, hlength]

/-- The frames of a backtrace, the outermost first. The innermost one is taken off in each step, and
then the place of its call is the one that is reached. -/
theorem getElem?_traceFrom_reverse (reached : Location) (frames : List Frame) (i : Nat) :
    (traceFrom reached frames.reverse).reverse[i]? =
      frames[i]?.map fun frame => ⟨frame, placeOf reached frames i⟩ := by
  induction frames using List.reverseRecOn generalizing reached with
  | nil => rfl
  | append_singleton rest frame ih =>
    have hlength : (traceFrom frame.call rest.reverse).reverse.length = rest.length := by
      simp [length_traceFrom]
    rw [List.reverse_concat, traceFrom, List.reverse_cons]
    obtain hlt | hge := Nat.lt_or_ge i rest.length
    · rw [List.getElem?_append_left (by omega), List.getElem?_append_left hlt, ih,
        placeOf_concat hlt]
    · rw [List.getElem?_append_right (by omega), List.getElem?_append_right hge, hlength]
      cases hi : i - rest.length with
      | zero =>
        have hlast : i + 1 = (rest ++ [frame]).length := by
          rw [List.length_append, List.length_singleton]
          omega
        rw [placeOf_last hlast]
        rfl
      | succ k => rfl

/-! ## The text -/

/-- The file as backtraces show it: it belongs to the package volume unless it names it. -/
def packageFile (file : String) : String :=
  if "pkg:".toList.isPrefixOf file.toList then file else "pkg:/" ++ file

/-- The line as backtraces show it: the line zero stands for one that is not known. -/
def lineMark (line : Nat) : String :=
  if line = 0 then "??" else toString line

theorem packageText_eq (l : Location) :
    l.packageText = packageFile l.file ++ "(" ++ lineMark l.start.line ++ ")" := by
  unfold Location.packageText packageFile lineMark
  by_cases hline : l.start.line = 0
  · rw [if_pos hline, hline]
    rfl
  · rw [if_neg hline, if_pos (Nat.pos_of_ne_zero hline)]
    rfl

theorem toString_ne_unknown (line : Nat) : toString line ≠ "??" := by
  intro h
  have hlist : Nat.toDigits 10 line = ['?', '?'] := by
    rw [Nat.toString_eq_repr, Nat.repr_eq_ofList_toDigits] at h
    simpa using congrArg String.toList h
  have hdigit : '?'.isDigit = true :=
    Nat.isDigit_of_mem_toDigits (by decide) (by decide) (hlist ▸ List.mem_cons_self)
  exact absurd hdigit (by decide)

theorem lineMark_inj {k l : Nat} : lineMark k = lineMark l ↔ k = l := by
  refine ⟨fun h => ?_, fun h => h ▸ rfl⟩
  unfold lineMark at h
  split at h
  · next hk =>
    split at h
    · next hl => rw [hk, hl]
    · exact absurd h.symm (toString_ne_unknown l)
  · split at h
    · exact absurd h (toString_ne_unknown k)
    · exact Nat.repr_inj.1 h

def frameText (i : Nat) (frame : Frame) (place : Location) : String :=
  "#" ++ toString i ++ "  Function " ++ frame.signatureText ++ "\r\n" ++
    "   file/line: " ++ packageFile place.file ++ "(" ++ lineMark place.start.line ++ ")" ++ "\r\n"

def frameTexts : List TraceEntry → List String
  | [] => []
  | entry :: rest => frameText rest.length entry.frame entry.reached :: frameTexts rest

theorem traceText_eq_join (entries : List TraceEntry) :
    traceText entries = String.join (frameTexts entries) := by
  induction entries with
  | nil => rfl
  | cons entry rest ih =>
    have hframe : frameText rest.length entry.frame entry.reached =
        s!"#{rest.length}  Function {entry.frame.signatureText}\r\n" ++
          s!"   file/line: {entry.reached.packageText}\r\n" := by
      have htext (s : String) : toString s = s := rfl
      rw [packageText_eq, frameText]
      simp only [htext, String.append_assoc]
    rw [traceText, frameTexts, String.join_cons, ih, hframe]

theorem length_frameTexts (entries : List TraceEntry) :
    (frameTexts entries).length = entries.length := by
  induction entries with
  | nil => rfl
  | cons entry rest ih => simp [frameTexts, ih]

theorem getElem?_frameTexts (entries : List TraceEntry) (i : Nat) (hi : i < entries.length) :
    (frameTexts entries)[entries.length - 1 - i]? =
      entries.reverse[i]?.map fun entry => frameText i entry.frame entry.reached := by
  induction entries with
  | nil => cases hi
  | cons entry rest ih =>
    rw [List.length_cons] at hi
    rw [frameTexts, List.reverse_cons, List.length_cons, Nat.add_sub_cancel]
    obtain hlt | heq : i < rest.length ∨ i = rest.length := by omega
    · have hplace : rest.length - i = rest.length - 1 - i + 1 := by omega
      rw [hplace, List.getElem?_cons_succ, ih hlt, List.getElem?_append_left (by simpa using hlt)]
    · subst heq
      simp

/-! ## The array -/

/-- The references to associative arrays made one after the other. -/
def newRefs (h : Heap) (count : Nat) : List AssocRef :=
  (List.range' h.assocs.size count).map AssocRef.mk

theorem newEntries_eq (h : Heap) (entries : List TraceEntry) :
    h.newEntries entries = ((newRefs h entries.length).map .assoc,
      { h with
        assocs := h.assocs ++ (entries.map fun e => AssocArray.ofMembers e.members).toArray }) := by
  induction entries generalizing h with
  | nil => simp [Heap.newEntries, newRefs]
  | cons entry rest ih =>
    rw [Heap.newEntries]
    dsimp only [Heap.newAssoc]
    rw [ih]
    simp [newRefs, List.range'_succ]

theorem assoc_of_getElem?_newRefs {h : Heap} {entries : List TraceEntry} {i : Nat} {e : TraceEntry}
    (he : entries[i]? = some e) :
    ∃ a, (newRefs h entries.length)[i]? = some a ∧
      (h.newEntries entries).2.assoc a = .ofMembers e.members := by
  obtain ⟨hi, -⟩ := List.getElem?_eq_some_iff.1 he
  refine ⟨⟨h.assocs.size + i⟩, by simp [newRefs, hi], ?_⟩
  rw [newEntries_eq]
  simp [Heap.assoc, Array.getElem?_append_right, he]

theorem get?_members (e : TraceEntry) :
    (AssocArray.ofMembers e.members).get? "function" = some (.string e.frame.signatureText) ∧
    (AssocArray.ofMembers e.members).get? "filename" = some (.string e.reached.file) ∧
    (AssocArray.ofMembers e.members).get? "line_number" =
      some (.integer (Int32.ofNat e.reached.start.line)) := by
  simp only [TraceEntry.members, AssocArray.ofMembers, List.foldl_cons, List.foldl_nil,
    AssocArray.get?_set]
  exact ⟨rfl, rfl, rfl⟩

/-- The two forms of a backtrace, for any stack of frames in which the lines fit into an integer.
The frames are given here with the outermost one first. The text lists them all from the last down
to number 0, and the array has as many elements. The two say the same of each frame, that is its
signature, the file, which the text puts into the package volume, and the line. For the innermost
frame they are those of the given place, for any other frame those of the call of the next one. -/
theorem backtraces_agree (h : Heap) (reached : Location) (frames : List Frame)
    (hreached : reached.start.line < 2147483648)
    (hcalls : ∀ frame ∈ frames, frame.call.start.line < 2147483648) :
    ∃ (texts : List String) (r : ArrayRef) (h' : Heap) (entries : List AssocRef),
      backtraceText reached frames.reverse = String.join texts ∧ texts.length = frames.length ∧
      h.newBacktrace reached frames.reverse = (r, h') ∧
      (h'.array r).toList = entries.map .assoc ∧ entries.length = frames.length ∧
      ∀ i frame, frames[i]? = some frame → ∃ place a line,
        (i + 1 = frames.length → place = reached) ∧
        (∀ next, frames[i + 1]? = some next → place = next.call) ∧
        texts[frames.length - 1 - i]? = some (frameText i frame place) ∧
        entries[i]? = some a ∧
        (h'.assoc a).get? "function" = some (.string frame.signatureText) ∧
        (h'.assoc a).get? "filename" = some (.string place.file) ∧
        (h'.assoc a).get? "line_number" = some (.integer line) ∧
        line.toInt = place.start.line ∧
        ∀ k : Nat, lineMark k = lineMark place.start.line ↔ line.toInt = k := by
  have hlength : (traceFrom reached frames.reverse).length = frames.length := by
    simp [length_traceFrom]
  let entries := (traceFrom reached frames.reverse).reverse
  have hentries : entries.length = frames.length := by simp [entries, hlength]
  refine ⟨frameTexts (traceFrom reached frames.reverse), _, _, newRefs h entries.length,
    traceText_eq_join _, by rw [length_frameTexts, hlength], rfl, ?_, by simp [newRefs, hentries],
    fun i frame hframe => ?_⟩
  · have hvalues : (h.newEntries entries).1 = (newRefs h entries.length).map .assoc := by
      rw [newEntries_eq]
    rw [← hvalues]
    exact congrArg ArrayObject.toList (Heap.array_newArray _ _)
  · obtain ⟨hi, -⟩ := List.getElem?_eq_some_iff.1 hframe
    let place := placeOf reached frames i
    have he : entries[i]? = some ⟨frame, place⟩ := by
      rw [getElem?_traceFrom_reverse, hframe]
      rfl
    obtain ⟨a, ha, hmembers⟩ := assoc_of_getElem?_newRefs (h := h) he
    obtain ⟨hfunction, hfile, hline⟩ := get?_members ⟨frame, place⟩
    have hbound : place.start.line < 2147483648 := by
      cases hnext : frames[i + 1]? with
      | none =>
        have hplace : place = reached := by simp [place, placeOf, hnext]
        rwa [hplace]
      | some next =>
        rw [show place = next.call from placeOf_of_next hnext reached]
        exact hcalls next (List.mem_of_getElem? hnext)
    have htoInt : (Int32.ofNat place.start.line).toInt = place.start.line :=
      Int32.toInt_ofNat_of_lt hbound
    refine ⟨place, a, Int32.ofNat place.start.line, fun hlast => placeOf_last hlast reached,
      fun next hnext => placeOf_of_next hnext reached, ?_, ha, ?_, ?_, ?_, htoInt, fun k => ?_⟩
    · have htext := getElem?_frameTexts (traceFrom reached frames.reverse) i (hlength ▸ hi)
      rw [hlength] at htext
      rw [htext, he]
      rfl
    · exact (congrArg (AssocArray.get? · "function") hmembers).trans hfunction
    · exact (congrArg (AssocArray.get? · "filename") hmembers).trans hfile
    · exact (congrArg (AssocArray.get? · "line_number") hmembers).trans hline
    · rw [htoInt, lineMark_inj]
      omega

def startOfLine (line : Nat) : Location :=
  ⟨"source/main.brs", ⟨line, 0⟩, ⟨line, 0⟩, ⟨0, 0⟩⟩

def calledAt (name : String) (line : Nat) : Frame :=
  ⟨name, startOfLine 1, startOfLine line, .of [] .void⟩

/-- A sub `helper`, called on line 7 of `main`, is on line 12: then `main` is on line 7. -/
theorem backtraces_agree_of_helper :
    ∃ (texts : List String) (r : ArrayRef) (h' : Heap) (entries : List AssocRef),
      backtraceText (startOfLine 12) [calledAt "helper" 7, calledAt "main" 1] = String.join texts ∧
      Heap.empty.newBacktrace (startOfLine 12) [calledAt "helper" 7, calledAt "main" 1] = (r, h') ∧
      (h'.array r).toList = entries.map .assoc ∧
      texts[1]? = some "#0  Function main() As Void\r\n   file/line: pkg:/source/main.brs(7)\r\n" ∧
      ∃ a, entries[0]? = some a ∧ (h'.assoc a).get? "line_number" = some (.integer 7) := by
  have hcalls : ∀ frame ∈ [calledAt "main" 1, calledAt "helper" 7],
      frame.call.start.line < 2147483648 := by
    simp [calledAt, startOfLine]
  obtain ⟨texts, r, h', entries, htext, -, hmade, hlist, -, hframes⟩ :=
    backtraces_agree .empty (startOfLine 12) [calledAt "main" 1, calledAt "helper" 7] (by decide)
      hcalls
  obtain ⟨place, a, line, -, hnext, hshown, ha, -, -, hline, hvalue, -⟩ := hframes 0 _ rfl
  obtain rfl : place = startOfLine 7 := hnext _ rfl
  have hseven : line = 7 := Int32.toInt_inj.1 hvalue
  refine ⟨texts, r, h', entries, htext, hmade, hlist, hshown.trans ?_, a, ha, hseven ▸ hline⟩
  decide +kernel

end BrightScript
