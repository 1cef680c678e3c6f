import Mathlib.Data.List.Induction
import BrightScript.Proofs.TokenPositions

/-!
# Texts as bytes

Each character of a text takes one to four bytes. The encoding keeps the order of characters
(`Text.bytes_lt`), and the first byte of a character is none of those that a character goes on with.
So the bytes of one text are found in those of another only where its characters stand
(`Text.encode_prefix_drop_iff`).
-/

namespace BrightScript

namespace Text

def encode (text : List Char) : List UInt8 :=
  text.flatMap String.utf8EncodeChar

@[simp] theorem encode_nil : encode [] = [] := rfl

@[simp] theorem encode_cons (c : Char) (rest : List Char) :
    encode (c :: rest) = String.utf8EncodeChar c ++ encode rest :=
  List.flatMap_cons

@[simp] theorem encode_append (a b : List Char) : encode (a ++ b) = encode a ++ encode b :=
  List.flatMap_append

theorem length_encode (text : List Char) : (encode text).length = byteLength text := by
  induction text with
  | nil => rfl
  | cons c rest ih => simp [byteLength_cons, ih]

def bytes (s : String) : List UInt8 :=
  s.toUTF8.data.toList

theorem bytes_eq (s : String) : bytes s = encode s.toList := by
  conv_lhs => rw [← String.ofList_toList (s := s)]
  rw [bytes, String.toUTF8_eq_toByteArray, String.toByteArray_ofList, List.utf8Encode,
    List.toList_data_toByteArray, encode]

def units (n : Nat) : List Nat :=
  if n ≤ 0x7f then [n]
  else if n ≤ 0x7ff then [n / 64 % 32 + 192, n % 64 + 128]
  else if n ≤ 0xffff then [n / 4096 % 16 + 224, n / 64 % 64 + 128, n % 64 + 128]
  else [n / 262144 % 8 + 240, n / 4096 % 64 + 128, n / 64 % 64 + 128, n % 64 + 128]

theorem utf8EncodeChar_eq (c : Char) :
    String.utf8EncodeChar c = (units c.val.toNat).map UInt8.ofNat := by
  unfold String.utf8EncodeChar units
  dsimp only
  split_ifs <;> rfl

theorem lt_of_mem_units {n b : Nat} (h : b ∈ units n) : b < 256 := by
  unfold units at h
  split_ifs at h <;> simp only [List.mem_cons, List.not_mem_nil, or_false] at h <;> omega

/-- Numbers that are smaller where two lists first differ. -/
def Before : List Nat → List Nat → Prop
  | a :: as, b :: bs => a < b ∨ a = b ∧ Before as bs
  | _, _ => False

theorem before_units {m n : Nat} (h : m < n) (hn : n < 0x110000) : Before (units m) (units n) := by
  have hdiv (k : Nat) : k / 4096 / 64 = k / 262144 ∧ k / 64 / 64 = k / 4096 :=
    ⟨Nat.div_div_eq_div_mul k 4096 64, Nat.div_div_eq_div_mul k 64 64⟩
  have hm := hdiv m
  have hn' := hdiv n
  have htop : m / 262144 % 8 = m / 262144 ∧ n / 262144 % 8 = n / 262144 :=
    ⟨Nat.mod_eq_of_lt (by omega), Nat.mod_eq_of_lt (by omega)⟩
  unfold units
  split_ifs <;> simp only [Before] <;> omega

theorem Before.append_lt {as bs : List Nat} (h : Before as bs) (hbs : ∀ b ∈ bs, b < 256)
    (xs ys : List UInt8) : as.map UInt8.ofNat ++ xs < bs.map UInt8.ofNat ++ ys := by
  induction as generalizing bs with
  | nil => exact h.elim
  | cons a as ih =>
    cases bs with
    | nil => exact h.elim
    | cons b bs =>
      have hb := hbs b List.mem_cons_self
      refine List.cons_lt_cons_iff.2 (h.imp (fun hlt => ?_) fun ⟨heq, hrest⟩ => ⟨heq ▸ rfl, ?_⟩)
      · rw [UInt8.lt_iff_toNat_lt, UInt8.toNat_ofNat', UInt8.toNat_ofNat']
        omega
      · exact ih hrest fun b hmem => hbs b (List.mem_cons_of_mem _ hmem)

/-- The bytes of a character are before those of every larger one, whatever follows. -/
theorem utf8EncodeChar_append_lt {c d : Char} (h : c < d) (xs ys : List UInt8) :
    String.utf8EncodeChar c ++ xs < String.utf8EncodeChar d ++ ys := by
  have hbound : d.val.toNat < 0x110000 := by
    obtain hlow | hhigh := d.valid
    · exact Nat.lt_trans hlow (by decide)
    · exact hhigh.2
  rw [utf8EncodeChar_eq, utf8EncodeChar_eq]
  exact (before_units h hbound).append_lt (fun _ => lt_of_mem_units) xs ys

/-- Texts are in the order of their bytes. -/
theorem bytes_lt {s t : String} (h : compare s t = .lt) : bytes s < bytes t := by
  have hlt : s.toList < t.toList := String.lt_iff.1 (compareOfLessAndEq_eq_lt.1 h)
  rw [bytes_eq, bytes_eq]
  generalize s.toList = cs at hlt
  generalize t.toList = ds at hlt
  induction hlt with
  | nil =>
    rw [encode_nil, encode_cons, utf8EncodeChar_eq]
    unfold units
    split_ifs <;> exact List.nil_lt_cons _ _
  | rel h => exact utf8EncodeChar_append_lt h _ _
  | cons _ ih =>
    rw [encode_cons, encode_cons]
    exact List.append_left_lt ih

/-! ## Where characters start -/

/-- Bytes that a character goes on with. -/
def Continues (b : UInt8) : Prop :=
  128 ≤ b.toNat ∧ b.toNat < 192

theorem units_eq_cons (n : Nat) :
    ∃ first rest, units n = first :: rest ∧ (first < 128 ∨ 192 ≤ first) ∧
      ∀ b ∈ rest, 128 ≤ b ∧ b < 192 := by
  unfold units
  split_ifs
  · exact ⟨_, _, rfl, by omega, by simp⟩
  all_goals
    refine ⟨_, _, rfl, by omega, ?_⟩
    simp only [List.mem_cons, List.not_mem_nil, or_false]
    omega

theorem utf8EncodeChar_eq_cons (c : Char) :
    ∃ first rest, String.utf8EncodeChar c = first :: rest ∧ ¬ Continues first ∧
      ∀ b ∈ rest, Continues b := by
  obtain ⟨first, rest, hunits, hfirst, hrest⟩ := units_eq_cons c.val.toNat
  have hbyte {b : Nat} (hb : b ∈ first :: rest) : (UInt8.ofNat b).toNat = b := by
    rw [UInt8.toNat_ofNat', Nat.mod_eq_of_lt (lt_of_mem_units (hunits ▸ hb))]
  refine ⟨UInt8.ofNat first, rest.map UInt8.ofNat, by rw [utf8EncodeChar_eq, hunits]; rfl, ?_, ?_⟩
  · rw [Continues, hbyte List.mem_cons_self]
    omega
  · intro b hb
    obtain ⟨u, hu, rfl⟩ := List.mem_map.1 hb
    rw [Continues, hbyte (List.mem_cons_of_mem _ hu)]
    exact hrest u hu

/-- A character is told from the bytes that start with it. -/
theorem eq_of_utf8EncodeChar_append {c d : Char} {xs ys : List UInt8}
    (h : String.utf8EncodeChar c ++ xs = String.utf8EncodeChar d ++ ys) : c = d ∧ xs = ys := by
  have hchar : c = d := by
    refine Char.le_antisymm (Char.not_lt.1 fun hlt => ?_) (Char.not_lt.1 fun hlt => ?_)
    · exact List.lt_irrefl _ (h ▸ utf8EncodeChar_append_lt hlt ys xs)
    · exact List.lt_irrefl _ (h ▸ utf8EncodeChar_append_lt hlt xs ys)
  subst hchar
  exact ⟨rfl, List.append_cancel_left h⟩

theorem encode_prefix_iff {needle rest : List Char} :
    encode needle <+: encode rest ↔ needle <+: rest := by
  refine ⟨fun h => ?_, ?_⟩
  · induction needle generalizing rest with
    | nil => exact List.nil_prefix
    | cons d needle ih =>
      obtain ⟨more, hmore⟩ := h
      cases rest with
      | nil => simp [String.utf8EncodeChar_ne_nil] at hmore
      | cons c rest =>
        rw [encode_cons, encode_cons, List.append_assoc] at hmore
        obtain ⟨rfl, hrest⟩ := eq_of_utf8EncodeChar_append hmore
        exact List.cons_prefix_cons.2 ⟨rfl, ih ⟨more, hrest⟩⟩
  · rintro ⟨more, rfl⟩
    rw [encode_append]
    exact List.prefix_append _ _

/-- Within a character, the bytes of no text start. -/
theorem not_encode_prefix_drop {needle : List Char} (hneedle : needle ≠ []) {c : Char}
    {k : Nat} (hk : 0 < k) (hsize : k < c.utf8Size) (xs : List UInt8) :
    ¬ encode needle <+: (String.utf8EncodeChar c ++ xs).drop k := by
  obtain ⟨d, needle, rfl⟩ := List.exists_cons_of_ne_nil hneedle
  obtain ⟨first, rest, hd, hfirst, -⟩ := utf8EncodeChar_eq_cons d
  obtain ⟨start, more, hc, -, hmore⟩ := utf8EncodeChar_eq_cons c
  obtain ⟨k, rfl⟩ : ∃ j, k = j + 1 := ⟨k - 1, by omega⟩
  have hlength : k < more.length := by
    have := String.length_utf8EncodeChar c
    rw [hc, List.length_cons] at this
    omega
  rintro ⟨ys, hys⟩
  rw [encode_cons, hd, hc, List.cons_append, List.cons_append, List.cons_append,
    List.drop_succ_cons, List.drop_append_of_le_length (Nat.le_of_lt hlength),
    List.drop_eq_getElem_cons hlength] at hys
  injection hys with hhead
  exact hfirst (hhead ▸ hmore _ (List.getElem_mem hlength))

/-- The bytes of a text stand in those of another one only where its characters do. By induction on
the characters that are passed over. -/
theorem encode_prefix_drop_iff {needle rest : List Char} (hneedle : needle ≠ []) {k : Nat} :
    encode needle <+: (encode rest).drop k ↔
      ∃ before after, rest = before ++ after ∧ byteLength before = k ∧ needle <+: after := by
  constructor
  · intro h
    induction rest generalizing k with
    | nil =>
      rw [encode_nil, List.drop_nil, ← encode_nil, encode_prefix_iff, List.prefix_nil] at h
      exact absurd h hneedle
    | cons c rest ih =>
      obtain rfl | hpos := Nat.eq_zero_or_pos k
      · exact ⟨[], c :: rest, rfl, rfl, encode_prefix_iff.1 h⟩
      · obtain hlt | hge := Nat.lt_or_ge k c.utf8Size
        · exact absurd h (not_encode_prefix_drop hneedle hpos hlt _)
        · have hdrop : (encode (c :: rest)).drop k = (encode rest).drop (k - c.utf8Size) := by
            rw [encode_cons, List.drop_append, String.length_utf8EncodeChar,
              List.drop_eq_nil_of_le (by simpa using hge), List.nil_append]
          rw [hdrop] at h
          obtain ⟨before, after, rfl, hbefore, hafter⟩ := ih h
          refine ⟨c :: before, after, rfl, ?_, hafter⟩
          rw [byteLength_cons]
          omega
  · rintro ⟨before, after, rfl, rfl, hafter⟩
    rw [encode_append, ← length_encode, List.drop_left]
    exact encode_prefix_iff.2 hafter

end Text

end BrightScript
