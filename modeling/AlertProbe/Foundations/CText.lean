import Mathlib

/-!
# C strings, bounded buffers and scanners

A C string is the list of its bytes before the terminating NUL.  Printing into a
buffer whose size is too small is undefined, except for `snprintf`, which cuts
the text.  The scanners read back what the conversions `%s` and `%d` print.

Main results:

- Theorem `integer_decimal`: scanning a printed integer gives the integer and
  the text behind it.
- Theorem `field_append`: scanning a field up to its delimiter gives the field
  and the text behind the delimiter.
- Theorem `decimal_int32_length`: how long a printed 32-bit integer can get.
- Theorem `snprintf_eq_self_iff`: `snprintf` keeps a text exactly when the text
  and its NUL fit.
-/

namespace Foundations

/-- The bytes of a C string before its NUL. -/
abbrev CString := List UInt8

/-- The byte of an ASCII character. -/
def charByte (c : Char) : UInt8 :=
  UInt8.ofNat c.toNat

/-- The byte that starts an escape sequence. -/
def backslash : UInt8 := charByte '\\'

/-- The byte that ends a line. -/
def newline : UInt8 := charByte '\n'

/-- The byte between words. -/
def blank : UInt8 := charByte ' '

/-- The byte around strings. -/
def quote : UInt8 := charByte '"'

/-- Blank to tilde. -/
def printableByte (b : UInt8) : Bool :=
  32 ≤ b.toNat && b.toNat ≤ 126

/-- A string literal of ASCII characters. -/
def ascii (s : String) : CString :=
  s.toList.map charByte

/-- The digits of a natural number. -/
def decimalNat (n : Nat) : CString :=
  (Nat.toDigits 10 n).map charByte

/-- The conversion `%d`. -/
def decimal (z : Int) : CString :=
  if z < 0 then ascii "-" ++ decimalNat z.natAbs else decimalNat z.natAbs

/-! ## Buffers -/

/-- Print into a buffer of `capacity` bytes; `none` when the text and its NUL do not fit. -/
def sprintf (capacity : Nat) (text : CString) : Option CString :=
  if text.length < capacity then some text else none

/-- Copy a string into a buffer of `capacity` bytes. -/
def strcpy (capacity : Nat) (src : CString) : Option CString :=
  sprintf capacity src

/-- Append to the string in a buffer of `capacity` bytes. -/
def strcat (capacity : Nat) (dest src : CString) : Option CString :=
  sprintf capacity (dest ++ src)

/-- Print into a buffer of `capacity` bytes, cutting what does not fit. -/
def snprintf (capacity : Nat) (text : CString) : CString :=
  text.take (capacity - 1)

/-- What is printed is the text, and it fits. -/
theorem sprintf_eq_some {capacity : Nat} {text out : CString} :
    sprintf capacity text = some out ↔ out = text ∧ text.length < capacity := by
  unfold sprintf
  split <;> rename_i h <;> simp [h, eq_comm]

/-- The same for a copy. -/
theorem strcpy_eq_some {capacity : Nat} {src out : CString} :
    strcpy capacity src = some out ↔ out = src ∧ src.length < capacity :=
  sprintf_eq_some

/-- The same for an append. -/
theorem strcat_eq_some {capacity : Nat} {dest src out : CString} :
    strcat capacity dest src = some out ↔
      out = dest ++ src ∧ (dest ++ src).length < capacity :=
  sprintf_eq_some

/-- `snprintf` keeps the text exactly when the text and its NUL fit. -/
theorem snprintf_eq_self_iff {capacity : Nat} (hpos : 0 < capacity) (text : CString) :
    snprintf capacity text = text ↔ text.length < capacity := by
  rw [snprintf, List.take_eq_self_iff]
  omega

/-! ## Scanners -/

/-- Scan the given text. -/
def literal (expected input : CString) : Option CString :=
  input.dropPrefix? expected

/-- Scan up to a delimiter, which is dropped. -/
def field (delimiter : UInt8) : CString → Option (CString × CString)
  | [] => none
  | b :: rest =>
      if b = delimiter then some ([], rest)
      else (field delimiter rest).map fun p => (b :: p.1, p.2)

/-- The bytes `0` to `9`. -/
def isDigit (b : UInt8) : Bool :=
  48 ≤ b.toNat && b.toNat ≤ 57

/-- Scan a nonempty run of digits. -/
def natural (input : CString) : Option (Nat × CString) :=
  match input.takeWhile isDigit with
  | [] => none
  | digits => some
      (Nat.ofDigitChars 10 (digits.map fun b => Char.ofNat b.toNat) 0,
        input.dropWhile isDigit)

/-- Scan an integer with an optional minus sign. -/
def integer : CString → Option (Int × CString)
  | [] => none
  | b :: rest =>
      if b = charByte '-' then (natural rest).map fun p => (-(p.1 : Int), p.2)
      else (natural (b :: rest)).map fun p => ((p.1 : Int), p.2)

/-- The text does not start with a digit, so a number before it ends where the text starts. -/
def Delimited (text : CString) : Prop :=
  ∀ b ∈ text.head?, isDigit b = false

@[simp]
theorem delimited_cons (b : UInt8) (text : CString) :
    Delimited (b :: text) ↔ isDigit b = false := by
  simp [Delimited]

@[simp]
theorem literal_append (expected rest : CString) :
    literal expected (expected ++ rest) = some rest :=
  List.dropPrefix?_append_of_beq rest (by simp)

/-- A field without the delimiter is read back. -/
theorem field_append {delimiter : UInt8} {text : CString} (htext : delimiter ∉ text)
    (rest : CString) : field delimiter (text ++ delimiter :: rest) = some (text, rest) := by
  induction text with
  | nil => simp [field]
  | cons b text ih =>
      have hb : b ≠ delimiter := fun h => htext (by simp [h])
      have hrest : delimiter ∉ text := fun h => htext (by simp [h])
      simp [field, hb, ih hrest]

/-- A text without the delimiter has no field. -/
theorem field_eq_none {delimiter : UInt8} {text : CString} (h : delimiter ∉ text) :
    field delimiter text = none := by
  induction text with
  | nil => rfl
  | cons b rest ih =>
      have hb : b ≠ delimiter := fun hb => h (hb ▸ List.mem_cons_self)
      rw [field, if_neg hb, ih fun hmem => h (List.mem_cons_of_mem b hmem)]
      rfl

/-- A field is followed by its delimiter. -/
theorem eq_of_field {delimiter : UInt8} {input text rest : CString}
    (h : field delimiter input = some (text, rest)) : input = text ++ delimiter :: rest := by
  induction input generalizing text with
  | nil => cases h
  | cons b input ih =>
      rw [field] at h
      split at h
      · rename_i hb
        cases h
        rw [hb, List.nil_append]
      · obtain ⟨⟨front, back⟩, hfield, heq⟩ := Option.map_eq_some_iff.mp h
        cases heq
        rw [ih hfield, List.cons_append]

/-- What is behind a field is an end of the text. -/
theorem suffix_of_field {delimiter : UInt8} {input text rest : CString}
    (h : field delimiter input = some (text, rest)) : rest <:+ input := by
  rw [eq_of_field h]
  exact (List.suffix_cons _ _).trans (List.suffix_append _ _)

/-- What is behind a literal is an end of the text. -/
theorem suffix_of_literal {expected input rest : CString}
    (h : literal expected input = some rest) : rest <:+ input := by
  obtain ⟨front, rfl, -⟩ := List.dropPrefix?_eq_some_iff.mp h
  exact List.suffix_append _ _

/-- What is behind digits is an end of the text. -/
theorem suffix_of_natural {input rest : CString} {n : Nat}
    (h : natural input = some (n, rest)) : rest <:+ input := by
  rw [natural] at h
  split at h
  · cases h
  · cases h
    exact List.dropWhile_suffix _

/-- What is behind an integer is an end of the text. -/
theorem suffix_of_integer {input rest : CString} {z : Int}
    (h : integer input = some (z, rest)) : rest <:+ input := by
  cases input with
  | nil => cases h
  | cons b input =>
      rw [integer] at h
      split at h
      · obtain ⟨⟨n, back⟩, hnatural, heq⟩ := Option.map_eq_some_iff.mp h
        cases heq
        exact (suffix_of_natural hnatural).trans (List.suffix_cons _ _)
      · obtain ⟨⟨n, back⟩, hnatural, heq⟩ := Option.map_eq_some_iff.mp h
        cases heq
        exact suffix_of_natural hnatural

/-- A literal that was scanned is scanned in front of more text. -/
theorem literal_append_right {expected input rest : CString}
    (h : literal expected input = some rest) (more : CString) :
    literal expected (input ++ more) = some (rest ++ more) := by
  obtain ⟨front, rfl, hfront⟩ := List.dropPrefix?_eq_some_iff.mp h
  rw [beq_iff_eq] at hfront
  rw [hfront, List.append_assoc, literal_append]

/-- A field that was scanned is scanned in front of more text. -/
theorem field_append_right {delimiter : UInt8} {input text rest : CString}
    (h : field delimiter input = some (text, rest)) (more : CString) :
    field delimiter (input ++ more) = some (text, rest ++ more) := by
  induction input generalizing text with
  | nil => cases h
  | cons b input ih =>
      rw [List.cons_append, field]
      by_cases hb : b = delimiter
      · rw [field, if_pos hb, Option.some.injEq, Prod.mk.injEq] at h
        rw [if_pos hb, ← h.1, ← h.2]
      · rw [field, if_neg hb, Option.map_eq_some_iff] at h
        obtain ⟨⟨text', rest'⟩, hrest, heq⟩ := h
        rw [Prod.mk.injEq] at heq
        obtain ⟨rfl, rfl⟩ := heq
        rw [if_neg hb, ih hrest, Option.map_some]

/-- Where the digits end before the text does, more text changes nothing. -/
theorem takeWhile_append_right {p : UInt8 → Bool} {input : CString}
    (h : input.dropWhile p ≠ []) (more : CString) :
    (input ++ more).takeWhile p = input.takeWhile p ∧
      (input ++ more).dropWhile p = input.dropWhile p ++ more := by
  induction input with
  | nil => exact absurd rfl h
  | cons b input ih =>
      by_cases hb : p b = true
      · simp only [List.dropWhile_cons_of_pos hb] at h
        obtain ⟨htake, hdrop⟩ := ih h
        simp only [List.cons_append, List.takeWhile_cons_of_pos hb, List.dropWhile_cons_of_pos hb,
          htake, hdrop, and_self]
      · simp only [List.cons_append, List.takeWhile_cons_of_neg hb,
          List.dropWhile_cons_of_neg hb, and_self]

/-- A natural number that was scanned and ended before the text is scanned in front of more
text. -/
theorem natural_append_right {input rest : CString} {n : Nat}
    (h : natural input = some (n, rest)) (hrest : rest ≠ []) (more : CString) :
    natural (input ++ more) = some (n, rest ++ more) := by
  unfold natural at h ⊢
  have hdrop : input.dropWhile isDigit = rest := by
    split at h
    · cases h
    · exact (Prod.mk.inj (Option.some.inj h)).2
  rw [← hdrop] at hrest
  obtain ⟨htake, happend⟩ := takeWhile_append_right hrest more
  rw [htake, happend, hdrop]
  split at h
  · cases h
  · rw [← (Prod.mk.inj (Option.some.inj h)).1]

/-- An integer that was scanned and ended before the text is scanned in front of more text. -/
theorem integer_append_right {input rest : CString} {z : Int}
    (h : integer input = some (z, rest)) (hrest : rest ≠ []) (more : CString) :
    integer (input ++ more) = some (z, rest ++ more) := by
  cases input with
  | nil => cases h
  | cons b input =>
      rw [List.cons_append, integer]
      by_cases hb : b = charByte '-'
      · rw [integer, if_pos hb, Option.map_eq_some_iff] at h
        obtain ⟨⟨n, rest'⟩, hnatural, heq⟩ := h
        rw [Prod.mk.injEq] at heq
        obtain ⟨rfl, rfl⟩ := heq
        rw [if_pos hb, natural_append_right hnatural hrest, Option.map_some]
      · rw [integer, if_neg hb, Option.map_eq_some_iff] at h
        obtain ⟨⟨n, rest'⟩, hnatural, heq⟩ := h
        rw [Prod.mk.injEq] at heq
        obtain ⟨rfl, rfl⟩ := heq
        rw [if_neg hb, ← List.cons_append, natural_append_right hnatural hrest, Option.map_some]

/-- A decimal digit survives the conversion to a byte and back. -/
theorem charByte_digit {c : Char} (hc : c.isDigit) :
    isDigit (charByte c) = true ∧ Char.ofNat (charByte c).toNat = c := by
  have hrange : 48 ≤ c.toNat ∧ c.toNat ≤ 57 := by
    simp only [Char.isDigit, ge_iff_le, Bool.and_eq_true, decide_eq_true_eq] at hc
    exact ⟨UInt32.le_iff_toNat_le.mp hc.1, UInt32.le_iff_toNat_le.mp hc.2⟩
  have hbyte : (charByte c).toNat = c.toNat := by
    simp only [charByte, UInt8.toNat_ofNat']
    omega
  constructor
  · simp [isDigit, hbyte, hrange]
  · rw [hbyte]
    exact Char.ofNat_toNat c

/-- Every digit of a printed natural number is a digit byte. -/
theorem isDigit_of_mem_decimalNat {n : Nat} {b : UInt8} (hb : b ∈ decimalNat n) :
    isDigit b = true := by
  obtain ⟨c, hc, rfl⟩ := List.mem_map.mp hb
  exact (charByte_digit (Nat.isDigit_of_mem_toDigits (by decide) (by decide) hc)).1

/-- A printed natural number has at least one digit. -/
theorem decimalNat_ne_nil (n : Nat) : decimalNat n ≠ [] := by
  simp [decimalNat, Nat.toDigits_ne_nil]

/-- The digits of a printed natural number stand for the number. -/
theorem ofDigitChars_decimalNat (n : Nat) :
    Nat.ofDigitChars 10 ((decimalNat n).map fun b => Char.ofNat b.toNat) 0 = n := by
  have hback : (decimalNat n).map (fun b => Char.ofNat b.toNat) = Nat.toDigits 10 n := by
    rw [decimalNat, List.map_map]
    refine (List.map_congr_left fun c hc => ?_).trans (List.map_id _)
    exact (charByte_digit (Nat.isDigit_of_mem_toDigits (by decide) (by decide) hc)).2
  rw [hback]
  exact Nat.ofDigitChars_ten_toDigits

/-- A number below `10 ^ k` has at most `k` digits. -/
theorem decimalNat_length_le {n k : Nat} (hk : 0 < k) (hn : n < 10 ^ k) :
    (decimalNat n).length ≤ k := by
  rw [decimalNat, List.length_map]
  exact (Nat.length_toDigits_le_iff (by decide) hk).mpr hn

/-- The sign takes one more byte. -/
theorem decimal_length_le {z : Int} {k : Nat} (hk : 0 < k) (hz : z.natAbs < 10 ^ k) :
    (decimal z).length ≤ k + 1 := by
  have hdigits := decimalNat_length_le hk hz
  have hsign : (ascii "-").length = 1 := rfl
  unfold decimal
  split
  · rw [List.length_append, hsign]
    omega
  · omega

/-- A 32-bit integer takes at most eleven bytes. -/
theorem decimal_int32_length (n : Int32) : (decimal n.toInt).length ≤ 11 := by
  have hlow := n.le_toInt
  have hhigh := n.toInt_lt
  apply decimal_length_le (by decide)
  omega

/-- Scanning a printed natural number. -/
theorem natural_decimalNat (n : Nat) {rest : CString} (hrest : Delimited rest) :
    natural (decimalNat n ++ rest) = some (n, rest) := by
  have hdigits : ∀ b ∈ decimalNat n, isDigit b = true :=
    fun b hb => isDigit_of_mem_decimalNat hb
  have htake : (decimalNat n ++ rest).takeWhile isDigit = decimalNat n := by
    rw [List.takeWhile_append_of_pos hdigits]
    cases rest with
    | nil => simp
    | cons b rest => simp [(delimited_cons b rest).mp hrest]
  have hdrop : (decimalNat n ++ rest).dropWhile isDigit = rest := by
    rw [List.dropWhile_append_of_pos hdigits]
    cases rest with
    | nil => simp
    | cons b rest => simp [(delimited_cons b rest).mp hrest]
  unfold natural
  rw [htake, hdrop]
  split
  · rename_i hnil
    exact absurd hnil (decimalNat_ne_nil n)
  · rw [ofDigitChars_decimalNat]

/-- Scanning a printed integer. -/
theorem integer_decimal (z : Int) {rest : CString} (hrest : Delimited rest) :
    integer (decimal z ++ rest) = some (z, rest) := by
  by_cases hz : z < 0
  · have habs : -((z.natAbs : Nat) : Int) = z := by omega
    have hminus : ascii "-" = [charByte '-'] := rfl
    simp only [decimal, hz, if_true, hminus, List.cons_append, List.nil_append, integer,
      natural_decimalNat _ hrest, Option.map_some, habs]
  · have habs : ((z.natAbs : Nat) : Int) = z := by omega
    simp only [decimal, hz, if_false]
    cases hdigits : decimalNat z.natAbs with
    | nil => exact absurd hdigits (decimalNat_ne_nil _)
    | cons b digits =>
        have hb : isDigit b = true :=
          isDigit_of_mem_decimalNat (n := z.natAbs) (by simp [hdigits])
        have hsign : b ≠ charByte '-' := by
          rintro rfl
          exact absurd hb (by decide)
        have hscan := natural_decimalNat z.natAbs hrest
        rw [hdigits] at hscan
        simp only [List.cons_append] at hscan ⊢
        simp [integer, hsign, hscan, habs]

end Foundations
