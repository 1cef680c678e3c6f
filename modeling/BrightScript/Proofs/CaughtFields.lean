import Mathlib.Data.List.Induction
import BrightScript.Proofs.ThrownErrors

/-!
# The fields of a caught error

A script throws an associative array, and a `catch` binds another one. The fields of the first are
read one after the other in the order of their keys: a number, a text and a backtrace are taken over
if they are of the right kind, and all other fields are carried along. Then the second one is put
together from standard fields and from what was carried along. The readings are followed field by
field (`Thrown.Reads`), and the two arrays are compared as wholes (`AssocArray.Catches`).
-/

namespace BrightScript

/-! ## Entries in the order of their keys -/

namespace Entry

def key (e : Entry) : String :=
  Text.fold e.shown

/-- Entries in the order of their keys, with no key twice. -/
def Ordered (entries : List Entry) : Prop :=
  entries.Pairwise fun a b => compare a.key b.key = .lt

def valueOf? (entries : List Entry) (key : String) : Option Value :=
  (entries.find? fun e => e.key == key).map Entry.value

variable {entries : List Entry} {e : Entry} {key : String}

/-- The entries before another one have smaller keys. -/
theorem valueOf?_of_ordered (h : Ordered (entries ++ [e])) (hkey : (compare e.key key).isLE) :
    valueOf? entries key = none := by
  have hnone : entries.find? (fun e => e.key == key) = none := by
    refine List.find?_eq_none.2 fun e' he' heq => ?_
    have hlt := (List.pairwise_append.1 h).2.2 e' he' e List.mem_cons_self
    have hlt' : compare e'.key key = .lt := Std.TransCmp.lt_of_lt_of_isLE hlt hkey
    rw [beq_iff_eq.1 heq, Std.compare_self] at hlt'
    cases hlt'
  rw [valueOf?, hnone]
  rfl

theorem valueOf?_append (h : Ordered (entries ++ [e])) (key : String) :
    valueOf? (entries ++ [e]) key = if e.key = key then some e.value else valueOf? entries key := by
  by_cases hkey : e.key = key
  · have hnone : valueOf? entries key = none :=
      valueOf?_of_ordered h (by rw [hkey, Std.compare_self]; rfl)
    have hfind : entries.find? (fun e => e.key == key) = none := Option.map_eq_none_iff.1 hnone
    simp [valueOf?, List.find?_append, hfind, hkey]
  · simp [valueOf?, List.find?_append, hkey]

theorem valueOf?_eq_some_iff (h : Ordered entries) {v : Value} :
    valueOf? entries key = some v ↔ ∃ e ∈ entries, e.key = key ∧ e.value = v := by
  induction entries using List.reverseRecOn with
  | nil => simp [valueOf?]
  | append_singleton entries last ih =>
    rw [valueOf?_append h]
    have hbefore := List.pairwise_append.1 h
    split
    · next hkey =>
      refine ⟨fun hv => ⟨last, by simp, hkey, Option.some.inj hv⟩, ?_⟩
      rintro ⟨e, he, hekey, rfl⟩
      rcases List.mem_append.1 he with he | he
      · have hlt := hbefore.2.2 e he last List.mem_cons_self
        rw [hekey, hkey, Std.compare_self] at hlt
        cases hlt
      · rw [List.mem_singleton.1 he]
    · next hkey =>
      rw [ih hbefore.1]
      refine ⟨fun ⟨e, he, hv⟩ => ⟨e, List.mem_append_left _ he, hv⟩, ?_⟩
      rintro ⟨e, he, hekey, hv⟩
      rcases List.mem_append.1 he with he | he
      · exact ⟨e, he, hekey, hv⟩
      · rw [List.mem_singleton.1 he] at hekey
        exact absurd hekey hkey

end Entry

namespace AssocArray

variable (a : AssocArray)

theorem ordered_toList : Entry.Ordered a.toList := by
  refine List.pairwise_map.2 (Std.ExtTreeMap.ordered_keys_toList.imp_of_mem ?_)
  rintro ⟨key, e⟩ ⟨key', e'⟩ hmem hmem' hlt
  have hkey : e.key = key := a.keyed _ _ (Std.ExtTreeMap.mem_toList_iff_getElem?_eq_some.1 hmem)
  have hkey' : e'.key = key' :=
    a.keyed _ _ (Std.ExtTreeMap.mem_toList_iff_getElem?_eq_some.1 hmem')
  rw [hkey, hkey']
  exact hlt

theorem get?_eq_some_iff {key : String} {v : Value} :
    a.get? key = some v ↔ ∃ e ∈ a.toList, e.key = Text.fold key ∧ e.value = v := by
  rw [get?, Option.map_eq_some_iff]
  constructor
  · rintro ⟨e, he, rfl⟩
    have hmem := Std.ExtTreeMap.mem_toList_iff_getElem?_eq_some.2 he
    exact ⟨e, List.mem_map.2 ⟨_, hmem, rfl⟩, a.keyed _ _ he, rfl⟩
  · rintro ⟨e, he, hkey, rfl⟩
    obtain ⟨⟨key', e'⟩, hmem, rfl⟩ := List.mem_map.1 he
    have hget := Std.ExtTreeMap.mem_toList_iff_getElem?_eq_some.1 hmem
    have hkey' : e'.key = key' := a.keyed _ _ hget
    rw [← hkey'.symm.trans hkey]
    exact ⟨e', hget, rfl⟩

/-- A key has among the entries the value that it has in the associative array. -/
theorem valueOf?_toList (key : String) :
    Entry.valueOf? a.toList (Text.fold key) = a.get? key := by
  refine Option.ext fun v => ?_
  rw [Entry.valueOf?_eq_some_iff a.ordered_toList, get?_eq_some_iff]

end AssocArray

/-! ## What a thrown associative array says -/

def thrownNumber (field : String → Option Value) : Int32 :=
  match field "number" with
  | some (.integer n) => n
  | _ => 40

/-- The text among these fields, which may be empty. -/
def ownText (field : String → Option Value) : String :=
  match field "message" with
  | some (.string text) => text
  | _ => ""

/-- The text that goes with the number among these fields, if there is one. -/
def numberText (field : String → Option Value) : String :=
  match field "number" with
  | some (.integer n) => Thrown.textOfNumber n
  | _ => ""

def thrownText (field : String → Option Value) : String :=
  if ownText field = "" then numberText field else ownText field

theorem thrownText_congr {field field' : String → Option Value}
    (hmessage : field "message" = field' "message") (hnumber : field "number" = field' "number") :
    thrownText field = thrownText field' := by
  unfold thrownText ownText numberText
  rw [hmessage, hnumber]

theorem thrownText_of_numberText {field : String → Option Value} (h : numberText field = "") :
    thrownText field = ownText field := by
  unfold thrownText
  split
  · next hown => rw [h, hown]
  · rfl

def Entry.Misfits (e : Entry) : Prop :=
  (e.key = "backtrace" ∧ ∀ r, e.value ≠ .array r) ∨
  (e.key = "message" ∧ e.value ≠ .invalid ∧ ∀ text, e.value ≠ .string text) ∨
  (e.key = "number" ∧ e.value ≠ .invalid ∧ ∀ n, e.value ≠ .integer n)

def AssocArray.Misthrown (a : AssocArray) : Prop :=
  (∃ v, a.get? "backtrace" = some v ∧ ∀ r, v ≠ .array r) ∨
  (∃ v, a.get? "message" = some v ∧ v ≠ .invalid ∧ ∀ text, v ≠ .string text) ∨
  (∃ v, a.get? "number" = some v ∧ v ≠ .invalid ∧ ∀ n, v ≠ .integer n)

/-- There is no text among the fields, or an empty one. -/
def AssocArray.LacksText (a : AssocArray) : Prop :=
  ∀ text, a.get? "message" = some (.string text) → text = ""

/-- The associative array that is caught for another one that was thrown. -/
structure AssocArray.Catches (caught thrown : AssocArray) : Prop where
  number : ∀ n, thrown.get? "number" = some (.integer n) →
    caught.get? "number" = some (.integer n)
  noNumber : (∀ n, thrown.get? "number" ≠ some (.integer n)) →
    caught.get? "number" = some (.integer 40)
  text : ∀ text, thrown.get? "message" = some (.string text) → text ≠ "" →
    caught.get? "message" = some (.string text)
  faultText : thrown.LacksText → ∀ f : Fault, thrown.get? "number" = some (.integer f.number) →
    caught.get? "message" = some (.string f.message)
  unknownText : thrown.LacksText → ∀ n, thrown.get? "number" = some (.integer n) →
    (∀ f : Fault, f.number ≠ n) → caught.get? "message" = some (.string "UNKNOWN ERROR")
  noText : thrown.LacksText → (∀ n, thrown.get? "number" ≠ some (.integer n)) →
    caught.get? "message" = some (.string "")
  rethrown : caught.get? "rethrown" = some (.boolean (thrown.contains "backtrace"))
  backtrace : thrown.contains "backtrace" = true →
    ∃ r, thrown.get? "backtrace" = some (.array r) ∧ caught.get? "backtrace" = some (.array r)
  other : ∀ key v, Text.fold key ∉ ["backtrace", "message", "number", "rethrown"] →
    thrown.get? key = some v → caught.get? key = some v

theorem AssocArray.misthrown_iff (a : AssocArray) :
    a.Misthrown ↔ ∃ e ∈ a.toList, e.Misfits := by
  have hfold (key : String) (hkey : Text.fold key = key) (P : Value → Prop) :
      (∃ v, a.get? key = some v ∧ P v) ↔ ∃ e ∈ a.toList, e.key = key ∧ P e.value := by
    simp only [a.get?_eq_some_iff, hkey]
    constructor
    · rintro ⟨v, ⟨e, he, hekey, rfl⟩, hv⟩
      exact ⟨e, he, hekey, hv⟩
    · rintro ⟨e, he, hekey, hv⟩
      exact ⟨e.value, ⟨e, he, hekey, rfl⟩, hv⟩
  unfold Misthrown Entry.Misfits
  rw [hfold "backtrace" rfl, hfold "message" rfl, hfold "number" rfl]
  simp only [← exists_or, ← and_or_left]

/-! ## Reading the fields of a thrown associative array -/

namespace Thrown

variable {t t' : Thrown} {entry : Entry} {entries : List Entry}

theorem withMember_cases (h : t.withMember entry = .ok t') :
    (entry.key = "number" ∧ ∃ n, entry.value = .integer n ∧
      t' = { t with number := n, message := if t.message = "" then textOfNumber n else t.message }) ∨
    (entry.key = "message" ∧ ∃ text, entry.value = .string text ∧
      t' = { t with message := text }) ∨
    ((entry.key = "number" ∨ entry.key = "message") ∧ entry.value = .invalid ∧ t' = t) ∨
    (entry.key = "rethrown" ∧ t' = t) ∨
    (entry.key = "backtrace" ∧ ∃ r, entry.value = .array r ∧
      t' = { t with extra := t.extra ++ [("backtrace", .array r), ("rethrown", .boolean true)] }) ∨
    (entry.key ∉ ["backtrace", "message", "number", "rethrown"] ∧
      t' = { t with extra := t.extra ++ [(entry.shown, entry.value)] }) := by
  unfold withMember at h
  split at h
  · next n hkey hv =>
    cases h
    exact .inl ⟨hkey, n, hv, by simp [String.isEmpty_iff]⟩
  · next hkey hv =>
    cases h
    exact .inr (.inr (.inl ⟨.inl hkey, hv, rfl⟩))
  · cases h
  · next text hkey hv =>
    cases h
    exact .inr (.inl ⟨hkey, text, hv, rfl⟩)
  · next hkey hv =>
    cases h
    exact .inr (.inr (.inl ⟨.inr hkey, hv, rfl⟩))
  · cases h
  · next hkey =>
    cases h
    exact .inr (.inr (.inr (.inl ⟨hkey, rfl⟩)))
  · next r hkey hv =>
    cases h
    exact .inr (.inr (.inr (.inr (.inl ⟨hkey, r, hv, rfl⟩))))
  · cases h
  · cases h
    refine .inr (.inr (.inr (.inr (.inr ⟨?_, rfl⟩))))
    simp_all [Entry.key]

theorem withMember_error_iff :
    (∃ reason, t.withMember entry = .error reason) ↔ entry.Misfits := by
  unfold withMember Entry.Misfits Entry.key
  split <;> simp_all

/-- The fields are refused exactly if one of them does not fit. -/
theorem foldlM_error_iff :
    (∃ reason, entries.foldlM withMember t = .error reason) ↔ ∃ e ∈ entries, e.Misfits := by
  induction entries generalizing t with
  | nil => simp [List.foldlM, pure, Except.pure]
  | cons entry rest ih =>
    simp only [List.mem_cons, exists_eq_or_imp]
    rw [List.foldlM_cons, ← withMember_error_iff (t := t)]
    cases ht : t.withMember entry with
    | error reason => simp [bind, Except.bind]
    | ok u => simpa [bind, Except.bind] using ih (t := u)

end Thrown

/-! ## Carrying fields along -/

namespace ScriptError

/-- Adds a field that an error carries to the associative array of a caught error. -/
def carry (trace : Value) (a : AssocArray) (member : String × Value) : AssocArray :=
  let a :=
    match member.2 with
    | .boolean true =>
      if member.1 = "rethrown" then a.set "rethrow_backtrace" trace true else a
    | _ => a
  a.set member.1 member.2 true

def standard (e : ScriptError) (trace : Value) : AssocArray :=
  .ofMembers [("backtrace", trace), ("message", .string e.message), ("number", .integer e.number),
    ("rethrown", .boolean false)]

theorem members_eq (e : ScriptError) (trace : Value) :
    e.members trace = e.extra.foldl (carry trace) (e.standard trace) :=
  rfl

theorem carry_of_ne {trace : Value} {a : AssocArray} {key : String} {v : Value}
    (hkey : Text.fold key ≠ "rethrown") : carry trace a (key, v) = a.set key v true := by
  have hne : key ≠ "rethrown" := by
    rintro rfl
    exact hkey rfl
  unfold carry
  dsimp only
  split
  · rw [if_neg hne]
  · rfl

theorem get?_standard (e : ScriptError) (trace : Value) :
    (e.standard trace).get? "message" = some (.string e.message) ∧
    (e.standard trace).get? "number" = some (.integer e.number) ∧
    (e.standard trace).get? "rethrown" = some (.boolean false) := by
  simp only [standard, AssocArray.ofMembers, List.foldl_cons, List.foldl_nil, AssocArray.get?_set]
  refine ⟨?_, ?_, ?_⟩ <;> rfl

end ScriptError

namespace Thrown

open ScriptError (carry)

/-- What is known once some of the fields are read, in the order of their keys: the number and the
text so far, and what the fields that are carried along so far make of an associative array. -/
structure Reads (t : Thrown) (trace : Value) (a : AssocArray) (entries : List Entry) : Prop where
  number : t.number = thrownNumber (Entry.valueOf? entries)
  message : t.message = thrownText (Entry.valueOf? entries)
  standard : ∀ key, key = "message" ∨ key = "number" →
    (t.extra.foldl (carry trace) a).get? key = a.get? key
  rethrown : (t.extra.foldl (carry trace) a).get? "rethrown" =
    if (Entry.valueOf? entries "backtrace").isSome then some (.boolean true) else a.get? "rethrown"
  carried : ∀ key v, Text.fold key ∉ ["message", "number", "rethrown"] →
    Entry.valueOf? entries (Text.fold key) = some v →
      (t.extra.foldl (carry trace) a).get? key = some v

namespace Reads

variable {trace : Value} {a : AssocArray} {entries : List Entry} {entry : Entry} {t t' : Thrown}

theorem start : Reads ⟨Fault.userDefined.number, "", []⟩ trace a [] where
  number := rfl
  message := rfl
  standard _ _ := rfl
  rethrown := rfl
  carried _ _ _ h := by cases h

/-- A field that says nothing about the number and the text of the error. -/
theorem thrown_append (hordered : Entry.Ordered (entries ++ [entry]))
    (h : entry.key ∉ ["message", "number"] ∨ entry.value = .invalid) :
    thrownNumber (Entry.valueOf? (entries ++ [entry])) = thrownNumber (Entry.valueOf? entries) ∧
    thrownText (Entry.valueOf? (entries ++ [entry])) = thrownText (Entry.valueOf? entries) := by
  have hlookup {key : String} (hkey : key ∈ ["message", "number"]) :
      Entry.valueOf? (entries ++ [entry]) key = Entry.valueOf? entries key ∨
        (Entry.valueOf? (entries ++ [entry]) key = some .invalid ∧
          Entry.valueOf? entries key = none) := by
    rw [Entry.valueOf?_append hordered]
    by_cases heq : entry.key = key
    · subst heq
      obtain hne | hv := h
      · exact absurd hkey hne
      · refine .inr ⟨by rw [if_pos rfl, hv], ?_⟩
        exact Entry.valueOf?_of_ordered hordered (by rw [Std.compare_self]; rfl)
    · exact .inl (if_neg heq)
  have hnumber := @hlookup "number" (by simp)
  have hmessage := @hlookup "message" (by simp)
  have hown : ownText (Entry.valueOf? (entries ++ [entry])) = ownText (Entry.valueOf? entries) := by
    unfold ownText
    obtain heq | ⟨hnew, hold⟩ := hmessage
    · rw [heq]
    · rw [hnew, hold]
  unfold thrownText
  rw [hown]
  unfold thrownNumber numberText
  obtain heq | ⟨hnew, hold⟩ := hnumber
  · rw [heq]
    exact ⟨rfl, rfl⟩
  · rw [hnew, hold]
    exact ⟨rfl, rfl⟩

theorem uncarried (h : t.Reads trace a entries) (hordered : Entry.Ordered (entries ++ [entry]))
    (hkey : entry.key ∈ ["message", "number", "rethrown"]) (hextra : t'.extra = t.extra)
    (hnumber : t'.number = thrownNumber (Entry.valueOf? (entries ++ [entry])))
    (hmessage : t'.message = thrownText (Entry.valueOf? (entries ++ [entry]))) :
    t'.Reads trace a (entries ++ [entry]) where
  number := hnumber
  message := hmessage
  standard key hstandard := by rw [hextra, h.standard key hstandard]
  rethrown := by
    have hne : entry.key ≠ "backtrace" := by
      intro heq
      simp [heq] at hkey
    rw [hextra, h.rethrown, Entry.valueOf?_append hordered, if_neg hne]
  carried key v hother hv := by
    have hne : entry.key ≠ Text.fold key := by
      intro heq
      exact hother (heq ▸ hkey)
    rw [Entry.valueOf?_append hordered, if_neg hne] at hv
    rw [hextra, h.carried key v hother hv]

/-- The backtrace is carried along, and the array is marked as thrown again. -/
theorem backtrace (h : t.Reads trace a entries) (hordered : Entry.Ordered (entries ++ [entry]))
    (hkey : entry.key = "backtrace") {r : ArrayRef} (hv : entry.value = .array r) :
    Reads { t with extra := t.extra ++ [("backtrace", .array r), ("rethrown", .boolean true)] }
      trace a (entries ++ [entry]) := by
  have hvalue := Entry.valueOf?_append hordered
  have hget (key : String) :
      ((t.extra ++ [("backtrace", Value.array r), ("rethrown", Value.boolean true)]).foldl
        (carry trace) a).get? key =
        if "rethrown" = Text.fold key then some (.boolean true)
        else if "rethrow_backtrace" = Text.fold key then some trace
        else if "backtrace" = Text.fold key then some (.array r)
        else (t.extra.foldl (carry trace) a).get? key := by
    rw [List.foldl_append, List.foldl_cons, List.foldl_cons, List.foldl_nil, carry, carry]
    simp only [if_true, AssocArray.get?_set]
    rfl
  obtain ⟨hnumber, hmessage⟩ := thrown_append hordered (.inl (by simp [hkey]))
  refine ⟨h.number.trans hnumber.symm, h.message.trans hmessage.symm, ?_, ?_, ?_⟩
  · intro key hstandard
    rw [hget, h.standard key hstandard]
    rcases hstandard with rfl | rfl <;> rfl
  · rw [hget, hvalue, if_pos hkey]
    rfl
  · intro key v hother hfield
    have hrethrown : "rethrown" ≠ Text.fold key := fun heq => hother (by simp [← heq])
    rw [hget, if_neg hrethrown]
    rw [hvalue, hkey, hv] at hfield
    by_cases heq : "backtrace" = Text.fold key
    · rw [if_pos heq] at hfield
      rw [if_neg (by rw [← heq]; decide), if_pos heq]
      exact hfield
    · -- No field before the backtrace is the one that the mark adds.
      rw [if_neg heq] at hfield
      have hmark : "rethrow_backtrace" ≠ Text.fold key := by
        intro hmark
        rw [← hmark, Entry.valueOf?_of_ordered hordered (by rw [hkey]; rfl)] at hfield
        cases hfield
      rw [if_neg hmark, if_neg heq]
      exact h.carried key v hother hfield

theorem other (h : t.Reads trace a entries) (hordered : Entry.Ordered (entries ++ [entry]))
    (hkey : entry.key ∉ ["backtrace", "message", "number", "rethrown"]) :
    Reads { t with extra := t.extra ++ [(entry.shown, entry.value)] }
      trace a (entries ++ [entry]) := by
  have hvalue := Entry.valueOf?_append hordered
  have hne {key : String} (hmem : key ∈ ["backtrace", "message", "number", "rethrown"]) :
      entry.key ≠ key := fun heq => hkey (heq ▸ hmem)
  have hget (key : String) :
      ((t.extra ++ [(entry.shown, entry.value)]).foldl (carry trace) a).get? key =
        if entry.key = Text.fold key then some entry.value
        else (t.extra.foldl (carry trace) a).get? key := by
    rw [List.foldl_append, List.foldl_cons, List.foldl_nil,
      ScriptError.carry_of_ne (hne (by simp)), AssocArray.get?_set]
    rfl
  obtain ⟨hnumber, hmessage⟩ := thrown_append hordered
    (.inl fun hmem => hne (by simp_all) rfl)
  refine ⟨h.number.trans hnumber.symm, h.message.trans hmessage.symm, ?_, ?_, ?_⟩
  · intro key hstandard
    rw [hget, h.standard key hstandard]
    rcases hstandard with rfl | rfl
    · exact if_neg (hne (by decide))
    · exact if_neg (hne (by decide))
  · rw [hget, hvalue, if_neg (hne (by decide)), if_neg (hne (by decide))]
    exact h.rethrown
  · intro key v hother hfield
    rw [hvalue] at hfield
    rw [hget]
    by_cases heq : entry.key = Text.fold key
    · rw [if_pos heq] at hfield ⊢
      exact hfield
    · rw [if_neg heq] at hfield ⊢
      exact h.carried key v hother hfield

theorem step (h : t.Reads trace a entries) (hordered : Entry.Ordered (entries ++ [entry]))
    (hstep : t.withMember entry = .ok t') : t'.Reads trace a (entries ++ [entry]) := by
  have hvalue := Entry.valueOf?_append hordered
  have hbefore {key : String} (hkey : (compare entry.key key).isLE = true) :
      Entry.valueOf? entries key = none := Entry.valueOf?_of_ordered hordered hkey
  obtain ⟨hkey, n, hv, rfl⟩ | ⟨hkey, text, hv, rfl⟩ | ⟨hkey, hv, rfl⟩ | ⟨hkey, rfl⟩ |
    ⟨hkey, r, hv, rfl⟩ | ⟨hkey, rfl⟩ := withMember_cases hstep
  · -- The text comes before the number, so it is known by now.
    have hnone : Entry.valueOf? entries "number" = none := hbefore (by rw [hkey]; rfl)
    have hown : ownText (Entry.valueOf? (entries ++ [entry])) = t.message := by
      rw [h.message, thrownText_of_numberText (by simp [numberText, hnone])]
      simp [ownText, hvalue, hkey]
    refine h.uncarried hordered (by simp [hkey]) rfl ?_ ?_
    · simp [thrownNumber, hvalue, hkey, hv]
    · rw [thrownText, hown]
      simp [numberText, hvalue, hkey, hv]
  · have hnone : Entry.valueOf? entries "number" = none := hbefore (by rw [hkey]; rfl)
    refine h.uncarried hordered (by simp [hkey]) rfl ?_ ?_
    · simp [thrownNumber, hvalue, hkey, h.number]
    · rw [thrownText_of_numberText (by simp [numberText, hvalue, hkey, hnone])]
      simp [ownText, hvalue, hkey, hv]
  · obtain ⟨hnumber, hmessage⟩ := thrown_append hordered (.inr hv)
    refine h.uncarried hordered ?_ rfl (h.number.trans hnumber.symm)
      (h.message.trans hmessage.symm)
    rcases hkey with hkey | hkey <;> simp [hkey]
  · obtain ⟨hnumber, hmessage⟩ := thrown_append hordered (.inl (by simp [hkey]))
    exact h.uncarried hordered (by simp [hkey]) rfl (h.number.trans hnumber.symm)
      (h.message.trans hmessage.symm)
  · exact h.backtrace hordered hkey hv
  · exact h.other hordered hkey

theorem run (hordered : Entry.Ordered entries)
    (h : entries.foldlM withMember ⟨Fault.userDefined.number, "", []⟩ = .ok t) :
    t.Reads trace a entries := by
  induction entries using List.reverseRecOn generalizing t with
  | nil =>
    cases h
    exact start
  | append_singleton entries entry ih =>
    rw [List.foldlM_append] at h
    cases hbefore : entries.foldlM withMember ⟨Fault.userDefined.number, "", []⟩ with
    | error reason =>
      rw [hbefore] at h
      cases h
    | ok u =>
      rw [hbefore] at h
      have hstep : (u.withMember entry >>= pure) = .ok t := h
      rw [bind_pure] at hstep
      exact (ih (List.pairwise_append.1 hordered).1 hbefore).step hordered hstep

end Reads

theorem ofEntries_of_misfits {entries : List Entry} (h : ∃ e ∈ entries, e.Misfits) :
    ∃ reason, ofEntries entries = malformed reason := by
  obtain ⟨reason, hreason⟩ := foldlM_error_iff.2 h
  exact ⟨reason, by rw [ofEntries, hreason]⟩

theorem textOfNumber_number (f : Fault) : textOfNumber f.number = f.message := by
  cases f <;> rfl

theorem textOfNumber_of_unknown {n : Int32} (h : ∀ f : Fault, f.number ≠ n) :
    textOfNumber n = "UNKNOWN ERROR" := by
  have hnone : Fault.ofNumber? n = none := List.find?_eq_none.2 fun f _ hf => h f (beq_iff_eq.1 hf)
  rw [textOfNumber, hnone]

end Thrown

/-! ## Caught associative arrays -/

namespace AssocArray

variable {thrown : AssocArray} {place : Location} {stack : List Frame} {trace : Value}

/-- An associative array that cannot be thrown is caught as an error of its own. -/
theorem get?_number_of_misthrown (h : thrown.Misthrown) :
    (((Thrown.ofEntries thrown.toList).toError place stack).members trace).get? "number" =
      some (.integer 38) := by
  obtain ⟨reason, hreason⟩ := Thrown.ofEntries_of_misfits (thrown.misthrown_iff.1 h)
  rw [hreason]
  exact (ScriptError.get?_standard _ _).2.1

theorem thrownText_of_lacksText (h : thrown.LacksText) :
    thrownText thrown.get? = numberText thrown.get? := by
  have hown : ownText thrown.get? = "" := by
    unfold ownText
    split
    · next text htext => exact h text htext
    · rfl
  rw [thrownText, if_pos hown]

theorem catches_of_fields {caught : AssocArray} (h : ¬ thrown.Misthrown)
    (hnumber : caught.get? "number" = some (.integer (thrownNumber thrown.get?)))
    (hmessage : caught.get? "message" = some (.string (thrownText thrown.get?)))
    (hrethrown : caught.get? "rethrown" = some (.boolean (thrown.contains "backtrace")))
    (hcarried : ∀ key v, Text.fold key ∉ ["message", "number", "rethrown"] →
      thrown.get? key = some v → caught.get? key = some v) : caught.Catches thrown where
  number n hn := by
    rw [hnumber, thrownNumber, hn]
  noNumber hn := by
    rw [hnumber, thrownNumber]
    split
    · next n hn' => exact absurd hn' (hn n)
    · rfl
  text text htext hne := by
    have hown : ownText thrown.get? = text := by rw [ownText, htext]
    rw [hmessage, thrownText, if_neg (hown ▸ hne), hown]
  faultText hlacks f hf := by
    rw [hmessage, thrownText_of_lacksText hlacks, numberText, hf]
    exact congrArg (fun text => some (Value.string text)) (Thrown.textOfNumber_number f)
  unknownText hlacks n hn hunknown := by
    rw [hmessage, thrownText_of_lacksText hlacks, numberText, hn]
    exact congrArg (fun text => some (Value.string text)) (Thrown.textOfNumber_of_unknown hunknown)
  noText hlacks hn := by
    rw [hmessage, thrownText_of_lacksText hlacks, numberText]
    split
    · next n hn' => exact absurd hn' (hn n)
    · rfl
  rethrown := hrethrown
  backtrace hb := by
    rw [contains_eq_isSome_get?] at hb
    obtain ⟨v, hv⟩ := Option.isSome_iff_exists.1 hb
    by_cases harray : ∃ r, v = .array r
    · obtain ⟨r, rfl⟩ := harray
      exact ⟨r, hv, hcarried _ _ (by decide) hv⟩
    · exact absurd (.inl ⟨v, hv, fun r hr => harray ⟨r, hr⟩⟩) h
  other key v hkey hv := by
    refine hcarried key v (fun hmem => hkey ?_) hv
    exact List.mem_cons_of_mem _ hmem

/-- The fields of what is caught are those of what was thrown. -/
theorem catches_of_not_misthrown (h : ¬ thrown.Misthrown) :
    (((Thrown.ofEntries thrown.toList).toError place stack).members trace).Catches thrown := by
  have hvalue (key : String) (hkey : Text.fold key = key) :
      Entry.valueOf? thrown.toList key = thrown.get? key := by
    rw [← thrown.valueOf?_toList, hkey]
  cases hread : thrown.toList.foldlM Thrown.withMember ⟨Fault.userDefined.number, "", []⟩ with
  | error reason =>
    exact absurd (thrown.misthrown_iff.2 (Thrown.foldlM_error_iff.1 ⟨reason, hread⟩)) h
  | ok t =>
    have hthrown : Thrown.ofEntries thrown.toList = t := by rw [Thrown.ofEntries, hread]
    obtain ⟨hmessage, hnumber, hrethrown⟩ := (t.toError place stack).get?_standard trace
    have reads : t.Reads trace ((t.toError place stack).standard trace) thrown.toList :=
      .run thrown.ordered_toList hread
    have hnumber' : thrownNumber (Entry.valueOf? thrown.toList) = thrownNumber thrown.get? := by
      simp only [thrownNumber, hvalue "number" rfl]
    have hmessage' : thrownText (Entry.valueOf? thrown.toList) = thrownText thrown.get? :=
      thrownText_congr (hvalue "message" rfl) (hvalue "number" rfl)
    rw [hthrown, ScriptError.members_eq]
    refine catches_of_fields h ?_ ?_ ?_ fun key v hkey hv => ?_
    · calc _ = some (.integer t.number) := (reads.standard _ (.inr rfl)).trans hnumber
        _ = _ := by rw [reads.number, hnumber']
    · calc _ = some (.string t.message) := (reads.standard _ (.inl rfl)).trans hmessage
        _ = _ := by rw [reads.message, hmessage']
    · refine reads.rethrown.trans ?_
      rw [hrethrown, contains_eq_isSome_get?, hvalue "backtrace" rfl]
      cases thrown.get? "backtrace" <;> rfl
    · exact reads.carried key v hkey ((thrown.valueOf?_toList key).trans hv)

end AssocArray

theorem Heap.assoc_newAssoc (h : Heap) (a : AssocArray) :
    (h.newAssoc a).2.assoc (h.newAssoc a).1 = a := by
  simp [newAssoc, assoc]

theorem Run.caught_apply (e : ScriptError) (s : Session) :
    ∃ r c w, Run.caught e s = .done (.assoc c) w ∧ w.heap.assoc c = e.members (.array r) := by
  let made := s.heap.newBacktrace e.location (e.backtrace.getD s.stack)
  let members := e.members (.array made.1)
  refine ⟨made.1, (made.2.newAssoc members).1,
    { s with heap := (made.2.newAssoc members).2 }, rfl, ?_⟩
  exact made.2.assoc_newAssoc members

/-- An associative array that is thrown in the block of a `try`, or in a function that the block
calls, and that this `try` catches: the variable of the `catch` is bound to an associative array
with number 38 if the thrown one is malformed, and otherwise to one with the fields of the thrown
one, read as those of an error. -/
theorem caught_fields (n : Nat) (tryBlock catchBlock : Block) (binding : Identifier) (s u : Session)
    (r : AssocRef) (place : Location)
    (h : Evaluator.Throws n tryBlock (s.withTry true) ⟨.assoc r, place, u⟩) :
    ∃ (w : Session) (c : AssocRef),
      (Evaluator.ofBudget n).tryCatch tryBlock binding catchBlock s =
        (Run.bindLocal binding (.assoc c) >>= fun _ =>
          (Evaluator.ofBudget n).executeBlock catchBlock) w ∧
      ((u.heap.assoc r).Misthrown → (w.heap.assoc c).get? "number" = some (.integer 38)) ∧
      (¬ (u.heap.assoc r).Misthrown → (w.heap.assoc c).Catches (u.heap.assoc r)) := by
  obtain ⟨t, ht⟩ := h.tryCatch binding catchBlock
  obtain ⟨trace, c, w, hcaught, hmembers⟩ := Run.caught_apply (Throw.error ⟨.assoc r, place, u⟩) t
  refine ⟨w, c, ?_, ?_, ?_⟩
  · rw [ht, Evaluator.catchError, Routine.bind_apply, hcaught]
  · rw [hmembers]
    exact AssocArray.get?_number_of_misthrown
  · rw [hmembers]
    exact AssocArray.catches_of_not_misthrown

/-- An associative array with a number, a backtrace and a field of its own. -/
def rethrownFields : List Member :=
  [⟨"NUMBER", .literal (.integer 24) .builtin⟩, ⟨"backtrace", .arrayLiteral [] .builtin⟩,
    ⟨"Detail", .literal (.string "x") .builtin⟩]

/-- The text comes from the number, and the array is marked as thrown again. -/
theorem caught_fields_of_rethrownFields :
    ∃ w c, (Evaluator.ofBudget 4).tryCatch
        ⟨[.throwing (.assocLiteral rethrownFields .builtin) .builtin], .builtin⟩ ⟨"e", .builtin⟩
        ⟨[], .builtin⟩ (.new .standard) =
        (Run.bindLocal ⟨"e", .builtin⟩ (.assoc c) >>= fun _ =>
          (Evaluator.ofBudget 4).executeBlock ⟨[], .builtin⟩) w ∧
      (w.heap.assoc c).get? "number" = some (.integer 24) ∧
      (w.heap.assoc c).get? "message" = some (.string "Type Mismatch.") ∧
      (w.heap.assoc c).get? "rethrown" = some (.boolean true) ∧
      (w.heap.assoc c).get? "backtrace" = some (.array ⟨0⟩) ∧
      (w.heap.assoc c).get? "DETAIL" = some (.string "x") := by
  let fields : AssocArray := .ofMembers
    [("NUMBER", .integer 24), ("backtrace", .array ⟨0⟩), ("Detail", .string "x")]
  obtain ⟨u, hthrows, hu⟩ : ∃ u, Evaluator.Throws 4
      ⟨[.throwing (.assocLiteral rethrownFields .builtin) .builtin], .builtin⟩
      ((Session.new .standard).withTry true) ⟨.assoc ⟨1⟩, .builtin, u⟩ ∧
      u.heap.assoc ⟨1⟩ = fields :=
    ⟨_, Evaluator.throws_of_head rfl ⟨_, _, rfl, rfl, rfl, rfl⟩, rfl⟩
  have hget (key : String) : fields.get? key =
      if "detail" = Text.fold key then some (.string "x")
      else if "backtrace" = Text.fold key then some (.array ⟨0⟩)
      else if "number" = Text.fold key then some (.integer 24) else none := by
    simp only [fields, AssocArray.ofMembers, List.foldl_cons, List.foldl_nil, AssocArray.get?_set]
    rfl
  have hfits : ¬ fields.Misthrown := by
    rintro (⟨v, hv, hne⟩ | ⟨v, hv, -⟩ | ⟨v, hv, -, hne⟩)
    · cases hv.symm.trans (hget "backtrace")
      exact hne ⟨0⟩ rfl
    · cases hv.symm.trans (hget "message")
    · cases hv.symm.trans (hget "number")
      exact hne 24 rfl
  have hlacks : fields.LacksText := by
    intro text htext
    cases htext.symm.trans (hget "message")
  obtain ⟨w, c, hrun, -, hcatches⟩ :=
    caught_fields 4 _ ⟨[], .builtin⟩ ⟨"e", .builtin⟩ (.new .standard) u ⟨1⟩ .builtin hthrows
  rw [hu] at hcatches
  have catches := hcatches hfits
  refine ⟨w, c, hrun, catches.number 24 (hget "number"), ?_, ?_, ?_, ?_⟩
  · exact catches.faultText hlacks .typeMismatch (hget "number")
  · rw [catches.rethrown, AssocArray.contains_eq_isSome_get?, hget]
    rfl
  · obtain ⟨r, hr, hcaught⟩ := catches.backtrace (by
      rw [AssocArray.contains_eq_isSome_get?, hget]
      rfl)
    cases hr.symm.trans (hget "backtrace")
    exact hcaught
  · exact catches.other "DETAIL" _ (by decide) (hget "DETAIL")

end BrightScript
