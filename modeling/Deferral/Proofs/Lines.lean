import Deferral.Host
import Deferral.Ranked
import Mathlib.Data.List.SplitBy

/-!
# The lines of an input

An input is cut after each line feed; what follows the last one is a line too, unless there is
nothing. Taking the next line off the input takes off the first of these.

In UTF-8 the byte of the line feed stands for the line feed and for nothing else, so a text is cut
between characters, and each of its lines is a text.

* `lines_eq_cons`: the next line of an input, then the lines of the rest.
* `exists_lines_bytesOf`: **the lines of a text are texts**, which joined give the text again.
-/

namespace Deferral

section Bytes

/-- The bytes of a text are those of its characters. -/
theorem bytesOf_ofList (cs : List Char) :
    bytesOf (String.ofList cs) = cs.flatMap String.utf8EncodeChar := by
  rw [bytesOf, String.toUTF8_eq_toByteArray, String.toByteArray_ofList, List.utf8Encode,
    List.toList_data_toByteArray]

theorem bytesOf_append (s t : String) : bytesOf (s ++ t) = bytesOf s ++ bytesOf t := by
  simp only [bytesOf, String.toUTF8_eq_toByteArray, String.toByteArray_append,
    ByteArray.toList_data_append]

/-- The bytes of texts that are joined are those of the texts, in order. -/
theorem bytesOf_join (ss : List String) : bytesOf (String.join ss) = (ss.map bytesOf).flatten := by
  induction ss with
  | nil => rfl
  | cons s ss ih => rw [String.join_cons, bytesOf_append, ih, List.map_cons, List.flatten_cons]

theorem le_toNat_ofNat {k : ℕ} (hlow : 128 ≤ k) (hhigh : k < 256) :
    128 ≤ (UInt8.ofNat k).toNat := by
  rw [UInt8.toNat_ofNat_of_lt' hhigh]
  exact hlow

/-- A byte of a character is that character, or above the characters of one byte. -/
theorem toNat_of_mem_utf8EncodeChar {c : Char} {b : UInt8} (hb : b ∈ String.utf8EncodeChar c) :
    b.toNat = c.val.toNat ∨ 128 ≤ b.toNat := by
  revert hb
  -- by the number of bytes
  fun_cases String.utf8EncodeChar c
  all_goals
    simp only [List.mem_cons, List.not_mem_nil, or_false]
    intro hb
  case case1 v hv =>
    rw [hb, UInt8.toNat_ofNat']
    omega
  case case2 => rcases hb with rfl | rfl <;> exact .inr (le_toNat_ofNat (by omega) (by omega))
  case case3 => rcases hb with rfl | rfl | rfl <;> exact .inr (le_toNat_ofNat (by omega) (by omega))
  case case4 =>
    rcases hb with rfl | rfl | rfl | rfl <;> exact .inr (le_toNat_ofNat (by omega) (by omega))

/-- No other character has the byte of the line feed. -/
theorem lineFeed_notMem_utf8EncodeChar {c : Char} (h : c ≠ '\n') :
    10 ∉ String.utf8EncodeChar c := by
  intro hmem
  rcases toNat_of_mem_utf8EncodeChar hmem with heq | hle
  · exact h (Char.ext (UInt32.toNat_inj.1 heq.symm))
  · exact absurd hle (by decide)

end Bytes

namespace Text

/-- A text is read from its own bytes, and from no others. -/
theorem ofBytes?_eq_some_iff {bs : List UInt8} {s : String} :
    ofBytes? bs = some s ↔ bytesOf s = bs := by
  rw [ofBytes?, String.fromUTF8?]
  constructor
  · intro h
    obtain ⟨hvalid, hs⟩ := Option.dite_none_right_eq_some.1 h
    cases hs
    rfl
  · rintro rfl
    exact dif_pos s.isValidUTF8

/-- The input, cut after each line feed. -/
def lines (bs : List UInt8) : List (List UInt8) := bs.splitBy fun b _ => b != 10

theorem flatten_lines (bs : List UInt8) : (lines bs).flatten = bs := List.flatten_splitBy _ bs

example : lines [97, 10, 10, 98] = [[97, 10], [10], [98]] := rfl

section SplitLine

variable {p bs : List UInt8}

/-- Bytes that are no line feeds belong to the next line. -/
theorem splitLine_append_of_notMem (hp : 10 ∉ p) (bs : List UInt8) :
    splitLine (p ++ bs) = (p ++ (splitLine bs).1, (splitLine bs).2) := by
  induction p with
  | nil => rfl
  | cons b p ih =>
    obtain ⟨hb, hp⟩ := List.ne_and_not_mem_of_not_mem_cons hp
    rw [List.cons_append, splitLine, if_neg (Ne.symm hb), ih hp]
    rfl

theorem splitLine_ne_nil (h : bs ≠ []) : (splitLine bs).1 ≠ [] := by
  cases bs with
  | nil => exact absurd rfl h
  | cons b bs =>
    rw [splitLine]
    split <;> exact List.cons_ne_nil _ _

/-- The input goes on after a line feed only. -/
theorem getLast?_splitLine (h : (splitLine bs).2 ≠ []) : (splitLine bs).1.getLast? = some 10 := by
  -- on the bytes: a line feed is the last byte of the line, and after any other the rest decides
  induction bs with
  | nil => exact absurd rfl h
  | cons b bs ih =>
    rw [splitLine] at h ⊢
    split
    · next hb => rw [hb]; rfl
    · next hb =>
      rw [if_neg hb] at h
      rw [List.getLast?_cons, ih h]
      rfl

/-- What has another byte behind it in a line is no line feed. -/
theorem isChain_splitLine (bs : List UInt8) :
    (splitLine bs).1.IsChain fun b _ => (b != 10) = true := by
  induction bs with
  | nil => exact .nil
  | cons b bs ih =>
    rw [splitLine]
    split
    · exact .singleton _
    · next hb => exact List.isChain_cons.2 ⟨fun _ _ => by simpa using hb, ih⟩

end SplitLine

/-- The next line is the first one. -/
theorem lines_eq_cons {bs : List UInt8} (h : bs ≠ []) :
    lines bs = (splitLine bs).1 :: lines (splitLine bs).2 := by
  have hfirst : lines (splitLine bs).1 = [(splitLine bs).1] :=
    List.splitBy_of_isChain (splitLine_ne_nil h) (isChain_splitLine bs)
  -- what is left starts a new line, as a line feed stands before it
  have hcut : ∀ b ∈ (splitLine bs).1.getLast?, ∀ c ∈ (splitLine bs).2.head?, (b != 10) = false := by
    intro b hb c hc
    have hrest : (splitLine bs).2 ≠ [] := by
      intro hnil
      rw [hnil] at hc
      cases hc
    rw [getLast?_splitLine hrest] at hb
    cases hb
    rfl
  calc lines bs = lines ((splitLine bs).1 ++ (splitLine bs).2) := by rw [splitLine_append]
    _ = lines (splitLine bs).1 ++ lines (splitLine bs).2 := List.splitBy_append hcut
    _ = (splitLine bs).1 :: lines (splitLine bs).2 := by rw [hfirst]; rfl

/-- To take the next line is to take the first line off. -/
theorem splitLine_of_lines {bs p : List UInt8} {ps : List (List UInt8)} (h : lines bs = p :: ps) :
    splitLine bs = (p, ps.flatten) := by
  have hne : bs ≠ [] := by
    rintro rfl
    cases h
  rw [lines_eq_cons hne] at h
  obtain ⟨rfl, rfl⟩ := List.cons.inj h
  rw [flatten_lines]

/-- The lines after the first few are the lines of what is left then. -/
theorem lines_flatten_drop (bs : List UInt8) (i : ℕ) :
    lines ((lines bs).drop i).flatten = (lines bs).drop i := by
  -- on the number of lines, for any input: each of them is the next line of what is left
  induction i generalizing bs with
  | zero => rw [List.drop_zero, flatten_lines]
  | succ i ih =>
    by_cases h : bs = []
    · subst h
      rfl
    · rw [lines_eq_cons h]
      exact ih (splitLine bs).2

/-- The next line of a text ends between two of its characters. -/
theorem splitLine_flatMap {cs : List Char} (h : cs ≠ []) :
    ∃ as bs, cs = as ++ bs ∧ as ≠ [] ∧ splitLine (cs.flatMap String.utf8EncodeChar) =
      (as.flatMap String.utf8EncodeChar, bs.flatMap String.utf8EncodeChar) := by
  induction cs with
  | nil => exact absurd rfl h
  | cons c cs ih =>
    rw [List.flatMap_cons]
    by_cases hc : c = '\n'
    · subst hc
      exact ⟨['\n'], cs, rfl, List.cons_ne_nil _ _, rfl⟩
    · rw [splitLine_append_of_notMem (lineFeed_notMem_utf8EncodeChar hc)]
      by_cases hcs : cs = []
      · subst hcs
        exact ⟨[c], [], rfl, List.cons_ne_nil _ _, by simp [splitLine]⟩
      · obtain ⟨as, bs, rfl, -, hsplit⟩ := ih hcs
        refine ⟨c :: as, bs, rfl, List.cons_ne_nil _ _, ?_⟩
        rw [hsplit, List.flatMap_cons]

theorem flatMap_utf8EncodeChar_ne_nil {cs : List Char} (h : cs ≠ []) :
    cs.flatMap String.utf8EncodeChar ≠ [] := by
  obtain ⟨c, cs, rfl⟩ := List.exists_cons_of_ne_nil h
  rw [List.flatMap_cons]
  exact List.append_ne_nil_of_left_ne_nil String.utf8EncodeChar_ne_nil _

/-- The lines of a text are texts, by what is left of it. -/
theorem exists_lines_flatMap (cs : List Char) :
    ∃ ss : List String, lines (cs.flatMap String.utf8EncodeChar) = ss.map bytesOf := by
  -- on the number of characters, of which the next line has at least one
  induction hlen : cs.length using Nat.strongRecOn generalizing cs with
  | _ k ih =>
    by_cases hcs : cs = []
    · subst hcs
      exact ⟨[], rfl⟩
    · obtain ⟨as, bs, rfl, has, hsplit⟩ := splitLine_flatMap hcs
      have hshorter : bs.length < k := by
        have := List.length_pos_iff.2 has
        rw [← hlen, List.length_append]
        omega
      obtain ⟨ss, hss⟩ := ih _ hshorter bs rfl
      refine ⟨String.ofList as :: ss, ?_⟩
      rw [lines_eq_cons (flatMap_utf8EncodeChar_ne_nil hcs), hsplit, hss, List.map_cons,
        bytesOf_ofList]

theorem exists_lines_bytesOf (s : String) :
    ∃ ss : List String, lines (bytesOf s) = ss.map bytesOf ∧ String.join ss = s := by
  obtain ⟨ss, hss⟩ := exists_lines_flatMap s.toList
  rw [← bytesOf_ofList, String.ofList_toList] at hss
  refine ⟨ss, hss, bytesOf_inj.1 ?_⟩
  rw [bytesOf_join, ← hss, flatten_lines]

end Text
end Deferral
