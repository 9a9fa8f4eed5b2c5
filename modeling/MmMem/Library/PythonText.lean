import Mathlib.Data.List.Basic
import Mathlib.Data.List.DropRight

namespace Prog
set_option autoImplicit true

/-- `str.isspace` -/
def isSpace (c : Char) : Bool :=
  let n := c.toNat
  (9 ≤ n && n ≤ 13) || (28 ≤ n && n ≤ 32) || n = 133 || n = 160 || n = 5760 ||
    (8192 ≤ n && n ≤ 8202) || n = 8232 || n = 8233 || n = 8239 || n = 8287 || n = 12288

/-- `s.split()` -/
def words (s : List Char) : List (List Char) := (s.splitOnP isSpace).filter (· ≠ [])

/-- `s.strip()` -/
def strip (s : List Char) : List Char := (s.dropWhile isSpace).rdropWhile isSpace

/-- `s.rsplit(sep, 1)` -/
def rsplitOnce (sep : Char) : List Char → List (List Char)
  | [] => [[]]
  | c :: s =>
    match rsplitOnce sep s with
    | [before, after] => [c :: before, after]
    | _ => if c = sep then [[], s] else [c :: s]

/-- The newlines of a file opened in text mode. -/
def universalNewlines : List Char → List Char
  | [] => []
  | '\r' :: '\n' :: s => '\n' :: universalNewlines s
  | '\r' :: s => '\n' :: universalNewlines s
  | c :: s => c :: universalNewlines s

/-- The bytes of a text in UTF-8. -/
def encodeUtf8 (s : List Char) : ByteArray := (String.ofList s).toUTF8

/-- Decoding as UTF-8; `none` is a `UnicodeDecodeError`. -/
def decodeUtf8 (bytes : ByteArray) : Option (List Char) := bytes.utf8Decode?.map Array.toList

/-- `int(s)` of a word of ASCII characters: a sign, and digits with underscores between them. -/
def parseInt (s : List Char) : Option Int :=
  let sign : Int := if s.head? = some '-' then -1 else 1
  let digits := if s.head? = some '-' ∨ s.head? = some '+' then s.tail else s
  let parts := digits.splitOn '_'
  if parts.all fun part => part ≠ [] && part.all Char.isDigit then
    some (sign * Nat.ofDigitChars 10 parts.flatten 0)
  else none

theorem words_append {w : List Char} (hw : w ≠ []) (hplain : ∀ c ∈ w, isSpace c = false)
    (hsep : isSpace sep = true) (s : List Char) : words (w ++ sep :: s) = w :: words s := by
  rw [words, List.splitOnP_append_cons_of_forall_mem hplain sep hsep, List.filter_cons_of_pos]
  · rfl
  · exact decide_eq_true hw

theorem words_space (hsep : isSpace sep = true) (s : List Char) : words (sep :: s) = words s := by
  have h := List.splitOnP_append_cons [] s hsep
  rw [words, ← List.nil_append (sep :: s), h]
  rfl

theorem rsplitOnce_none {s : List Char} (h : sep ∉ s) : rsplitOnce sep s = [s] := by
  induction s with
  | nil => rfl
  | cons c s ih =>
    rw [rsplitOnce, ih fun hmem => h (List.mem_cons_of_mem c hmem)]
    have hc : c ≠ sep := fun hc => h (hc ▸ List.mem_cons_self)
    exact if_neg hc

theorem rsplitOnce_append {a b : List Char} (hb : sep ∉ b) :
    rsplitOnce sep (a ++ sep :: b) = [a, b] := by
  induction a with
  | nil =>
    rw [List.nil_append, rsplitOnce, rsplitOnce_none hb]
    exact if_pos rfl
  | cons c a ih => rw [List.cons_append, rsplitOnce, ih]

theorem universalNewlines_append {a b : List Char} (hc : c ≠ '\n') :
    universalNewlines (a ++ c :: b) = universalNewlines a ++ universalNewlines (c :: b) := by
  induction a using universalNewlines.induct with
  | case1 => rfl
  | case2 s ih => simp only [List.cons_append, universalNewlines, ih]
  | case3 s hs ih =>
    have hstart : ∀ s', s ++ c :: b = '\n' :: s' → False := by
      intro s' he
      cases s with
      | nil => exact hc (List.cons.inj he).1
      | cons d s => exact hs s (by rw [(List.cons.inj he).1])
    rw [List.cons_append, universalNewlines, universalNewlines, ih, List.cons_append]
    · exact hs
    · exact hstart
  | case4 d s hd hd' ih =>
    rw [List.cons_append, universalNewlines, universalNewlines, ih, List.cons_append]
    · exact fun s' he => absurd he hd'
    · exact hd'
    · exact fun s' he => absurd he hd'
    · exact hd'

theorem universalNewlines_eq {s : List Char} (h : '\r' ∉ s) : universalNewlines s = s := by
  induction s using universalNewlines.induct with
  | case1 => rfl
  | case2 s ih => exact absurd List.mem_cons_self h
  | case3 s hs ih => exact absurd List.mem_cons_self h
  | case4 d s hd hd' ih =>
    rw [universalNewlines, ih fun hmem => h (List.mem_cons_of_mem d hmem)]
    · exact hd
    · exact hd'

theorem encodeUtf8_eq (s : List Char) : encodeUtf8 s = s.utf8Encode := String.toByteArray_ofList

theorem isValidUTF8_encode_append {a : List Char} {bytes : ByteArray} :
    (a.utf8Encode ++ bytes).IsValidUTF8 ↔ bytes.IsValidUTF8 := by
  induction a with
  | nil => rw [List.utf8Encode_nil, ByteArray.empty_append]
  | cons c a ih =>
    rw [List.utf8Encode_cons, ByteArray.append_assoc,
      ByteArray.isValidUTF8_utf8Encode_singleton_append_iff, ih]

/-- The bytes of a text begin where those before them end. -/
theorem isValidUTF8_append_encode {bytes : ByteArray} {b : List Char} :
    (bytes ++ b.utf8Encode).IsValidUTF8 ↔ bytes.IsValidUTF8 := by
  refine ⟨fun h => ?_, fun h => h.append ByteArray.isValidUTF8_utf8Encode⟩
  let s := String.ofByteArray (bytes ++ b.utf8Encode) h
  have hvalid : String.Pos.Raw.IsValid s ⟨bytes.size⟩ := by
    rw [String.Pos.Raw.isValid_iff_isUTF8FirstByte]
    by_cases hb : b = []
    · subst hb
      left
      rw [String.Pos.Raw.ext_iff, String.byteIdx_rawEndPos, ← String.size_toByteArray]
      simp [s]
    · right
      have hsize : 0 < b.utf8Encode.size := by
        rw [Nat.pos_iff_ne_zero]
        exact fun h0 => hb (List.utf8Encode_eq_empty.1 (ByteArray.size_eq_zero_iff.1 h0))
      have hfirst := ByteArray.isValidUTF8_utf8Encode.isUTF8FirstByte_getElem_zero hsize
      have hlt : bytes.size < (bytes ++ b.utf8Encode).size := by
        rw [ByteArray.size_append]
        omega
      have hbyte : (bytes ++ b.utf8Encode)[bytes.size] = b.utf8Encode[0] := by
        rw [ByteArray.getElem_append_right (Nat.le_refl _)]
        simp only [Nat.sub_self]
      refine ⟨?_, ?_⟩
      · rw [String.Pos.Raw.lt_iff, String.byteIdx_rawEndPos, ← String.size_toByteArray]
        exact hlt
      · change (bytes ++ b.utf8Encode)[bytes.size].IsUTF8FirstByte
        rwa [hbyte]
  have hprefix := (String.Pos.Raw.isValid_iff_isValidUTF8_extract_zero.1 hvalid).2
  change ((bytes ++ b.utf8Encode).extract 0 bytes.size).IsValidUTF8 at hprefix
  rwa [ByteArray.extract_append_eq_left rfl] at hprefix

theorem decodeUtf8_between (a b : List Char) (bytes : ByteArray) :
    decodeUtf8 (encodeUtf8 a ++ bytes ++ encodeUtf8 b) =
      (decodeUtf8 bytes).map fun s => a ++ s ++ b := by
  rw [encodeUtf8_eq, encodeUtf8_eq]
  by_cases h : bytes.IsValidUTF8
  · obtain ⟨s, rfl⟩ := h
    rw [decodeUtf8, decodeUtf8, ← List.utf8Encode_append, ← List.utf8Encode_append,
      List.utf8Decode?_utf8Encode, List.utf8Decode?_utf8Encode]
    rfl
  · have hnone : ∀ {x : ByteArray}, ¬ x.IsValidUTF8 → decodeUtf8 x = none := by
      intro x hx
      rw [← ByteArray.isSome_utf8Decode?_iff, Option.not_isSome_iff_eq_none] at hx
      rw [decodeUtf8, hx]
      rfl
    rw [hnone h, hnone (by rwa [isValidUTF8_append_encode, isValidUTF8_encode_append])]
    rfl

theorem parseInt_toDigits (n : Nat) : parseInt (Nat.toDigits 10 n) = some (n : Int) := by
  have hdigit : ∀ c ∈ Nat.toDigits 10 n, c.isDigit = true := fun c hc =>
    Nat.isDigit_of_mem_toDigits (by decide) (by decide) hc
  have hhead : ∀ c, c.isDigit = false → (Nat.toDigits 10 n).head? ≠ some c := by
    intro c hc he
    rw [hdigit c (List.mem_of_mem_head? he)] at hc
    cases hc
  have hsplit : (Nat.toDigits 10 n).splitOn '_' = [Nat.toDigits 10 n] := by
    apply List.splitOn_eq_singleton
    intro hmem
    cases hdigit '_' hmem
  rw [parseInt, if_neg (hhead '-' rfl), if_neg (not_or.2 ⟨hhead '-' rfl, hhead '+' rfl⟩)]
  have hall : [Nat.toDigits 10 n].all (fun part => part ≠ [] && part.all Char.isDigit) = true := by
    rw [List.all_cons, List.all_nil, Bool.and_true, Bool.and_eq_true, List.all_eq_true]
    exact ⟨decide_eq_true Nat.toDigits_ne_nil, hdigit⟩
  simp only [hsplit]
  rw [if_pos hall, List.flatten_singleton, Nat.ofDigitChars_toDigits (by decide) (by decide),
    Int.one_mul]

end Prog
