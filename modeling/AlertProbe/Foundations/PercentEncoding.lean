import AlertProbe.Foundations.CText

/-!
# Percent-encoding

URI escaping keeps the unreserved ASCII characters, may keep the bytes of
non-ASCII characters, and writes every other byte as `%XX`.  `Escapes` is that
contract, independent of which non-ASCII bytes an implementation keeps.

Main results:

- Theorem `Escapes.decode`: percent-decoding undoes every escaping.
- Theorem `Escapes.safe`: an escaped text has no delimiter in it.
- Theorem `Escapes.length_le`: an escaped text is at most three times as long.
- Theorem `escapes_escapeBytes`: the bytewise escaping is an escaping.
- Theorem `percentDecode_percentEncode`: percent-decoding undoes the encoding that
  keeps the letters and digits only.
-/

namespace Foundations

/-- ASCII letters, digits, dash, dot, underscore and tilde. -/
def unreserved (b : UInt8) : Bool :=
  (65 ≤ b.toNat && b.toNat ≤ 90) || (97 ≤ b.toNat && b.toNat ≤ 122) || isDigit b ||
    b == charByte '-' || b == charByte '.' || b == charByte '_' || b == charByte '~'

/-- Upper-case hexadecimal digit. -/
def hexDigit (n : Nat) : UInt8 :=
  UInt8.ofNat (if n < 10 then 48 + n else 55 + n)

/-- Value of an upper-case hexadecimal digit. -/
def hexValue (b : UInt8) : Option Nat :=
  if isDigit b then some (b.toNat - 48)
  else if 65 ≤ b.toNat ∧ b.toNat ≤ 70 then some (b.toNat - 55)
  else none

/-- The three bytes that stand for an escaped byte. -/
def escapedByte (b : UInt8) : CString :=
  [charByte '%', hexDigit (b.toNat / 16), hexDigit (b.toNat % 16)]

/-- `Escapes text escaped`: the second text is an escaping of the first. -/
inductive Escapes : CString → CString → Prop where
  | nil : Escapes [] []
  | keep {b : UInt8} {text escaped : CString} (hb : unreserved b = true ∨ 128 ≤ b.toNat)
      (rest : Escapes text escaped) : Escapes (b :: text) (b :: escaped)
  | escape {b : UInt8} {text escaped : CString} (hb : unreserved b = false)
      (rest : Escapes text escaped) : Escapes (b :: text) (escapedByte b ++ escaped)

/-- Undo an escaping; `none` on a truncated or malformed triplet. -/
def percentDecode : CString → Option CString
  | [] => some []
  | b :: rest =>
      if b = charByte '%' then
        match rest with
        | high :: low :: rest => do
            let h ← hexValue high
            let l ← hexValue low
            let text ← percentDecode rest
            some (UInt8.ofNat (16 * h + l) :: text)
        | _ => none
      else (percentDecode rest).map (b :: ·)

/-- Escape every byte that is not unreserved. -/
def escapeBytes (text : CString) : CString :=
  text.flatMap fun b => if unreserved b then [b] else escapedByte b

/-- ASCII letters and digits. -/
def alphanumeric (b : UInt8) : Bool :=
  (65 ≤ b.toNat && b.toNat ≤ 90) || (97 ≤ b.toNat && b.toNat ≤ 122) || isDigit b

/-- Keep letters and digits, and replace every other byte by its triplet. -/
def percentEncode (text : CString) : CString :=
  text.flatMap fun b => if alphanumeric b then [b] else escapedByte b

/-- `UrlSafe text`: the text consists of letters, digits and triplets. -/
inductive UrlSafe : CString → Prop where
  | nil : UrlSafe []
  | keep {b : UInt8} {rest : CString} (hb : alphanumeric b = true) (hrest : UrlSafe rest) :
      UrlSafe (b :: rest)
  | triplet {high low : UInt8} {rest : CString} (hhigh : (hexValue high).isSome)
      (hlow : (hexValue low).isSome) (hrest : UrlSafe rest) :
      UrlSafe (charByte '%' :: high :: low :: rest)

/-- The bytes that can occur in an escaped text. -/
def escapedAlphabet (b : UInt8) : Bool :=
  unreserved b || 128 ≤ b.toNat || b == charByte '%'

/-! ## Hexadecimal digits -/

/-- A hexadecimal digit has its value. -/
theorem hexValue_hexDigit {n : Nat} (hn : n < 16) : hexValue (hexDigit n) = some n := by
  interval_cases n <;> rfl

/-- A hexadecimal digit is unreserved. -/
theorem unreserved_hexDigit {n : Nat} (hn : n < 16) : unreserved (hexDigit n) = true := by
  interval_cases n <;> rfl

/-- The two digits of a byte stand for the byte. -/
theorem ofNat_hexDigits (b : UInt8) :
    UInt8.ofNat (16 * (b.toNat / 16) + b.toNat % 16) = b := by
  rw [Nat.div_add_mod]
  exact UInt8.ofNat_toNat

/-! ## Escapings -/

/-- A byte other than the percent sign stands for itself. -/
theorem percentDecode_cons {b : UInt8} (hb : b ≠ charByte '%') (rest : CString) :
    percentDecode (b :: rest) = (percentDecode rest).map (b :: ·) := by
  match rest with
  | [] => simp [percentDecode, hb]
  | [_] => simp [percentDecode, hb]
  | _ :: _ :: _ => simp [percentDecode, hb]

/-- A triplet stands for the byte that was escaped. -/
theorem percentDecode_escapedByte (b : UInt8) (rest : CString) :
    percentDecode (escapedByte b ++ rest) = (percentDecode rest).map (b :: ·) := by
  have hhigh : b.toNat / 16 < 16 := by
    have := b.toNat_lt
    omega
  have hlow : b.toNat % 16 < 16 := Nat.mod_lt _ (by decide)
  simp only [escapedByte, List.cons_append, List.nil_append, percentDecode, if_true,
    hexValue_hexDigit hhigh, hexValue_hexDigit hlow, Option.bind_eq_bind, Option.bind_some,
    ofNat_hexDigits]
  cases percentDecode rest <;> rfl

/-- Percent-decoding undoes every escaping. -/
theorem Escapes.decode {text escaped : CString} (h : Escapes text escaped) :
    percentDecode escaped = some text := by
  induction h with
  | nil => rfl
  | @keep b text escaped hb _ ih =>
      have hpercent : b ≠ charByte '%' := by
        rintro rfl
        exact absurd hb (by decide)
      rw [percentDecode_cons hpercent, ih]
      rfl
  | @escape b text escaped _ _ ih =>
      rw [percentDecode_escapedByte, ih]
      rfl

/-- An escaped text consists of unreserved characters, percent signs and non-ASCII bytes. -/
theorem Escapes.safe {text escaped : CString} (h : Escapes text escaped) :
    ∀ b ∈ escaped, escapedAlphabet b = true := by
  induction h with
  | nil => simp
  | @keep b text escaped hb _ ih =>
      intro c hc
      rcases List.mem_cons.mp hc with rfl | hc
      · rcases hb with hb | hb <;> simp [escapedAlphabet, hb]
      · exact ih c hc
  | @escape b text escaped _ _ ih =>
      intro c hc
      rcases List.mem_append.mp hc with hc | hc
      · have hhigh : b.toNat / 16 < 16 := by
          have := b.toNat_lt
          omega
        have hlow : b.toNat % 16 < 16 := Nat.mod_lt _ (by decide)
        simp only [escapedByte, List.mem_cons, List.not_mem_nil, or_false] at hc
        rcases hc with rfl | rfl | rfl
        · rfl
        · simp [escapedAlphabet, unreserved_hexDigit hhigh]
        · simp [escapedAlphabet, unreserved_hexDigit hlow]
      · exact ih c hc

/-- Every byte of an escaping becomes at most three. -/
theorem Escapes.length_le {text escaped : CString} (h : Escapes text escaped) :
    escaped.length ≤ 3 * text.length := by
  induction h with
  | nil => simp
  | keep _ _ ih =>
      simp only [List.length_cons]
      omega
  | @escape b text escaped _ _ ih =>
      have htriplet : (escapedByte b).length = 3 := rfl
      rw [List.length_append, htriplet, List.length_cons]
      omega

/-- The bytewise escaping is an escaping. -/
theorem escapes_escapeBytes (text : CString) : Escapes text (escapeBytes text) := by
  induction text with
  | nil => exact Escapes.nil
  | cons b text ih =>
      rw [escapeBytes, List.flatMap_cons]
      by_cases hb : unreserved b = true
      · rw [if_pos hb]
        exact Escapes.keep (Or.inl hb) ih
      · rw [if_neg hb]
        exact Escapes.escape (by simpa using hb) ih

/-! ## Encoding all but letters and digits -/

/-- An encoded text consists of letters, digits and triplets. -/
theorem urlSafe_percentEncode (text : CString) : UrlSafe (percentEncode text) := by
  induction text with
  | nil => exact UrlSafe.nil
  | cons b text ih =>
      rw [percentEncode, List.flatMap_cons]
      by_cases hb : alphanumeric b = true
      · rw [if_pos hb]
        exact UrlSafe.keep hb ih
      · have hhigh : b.toNat / 16 < 16 := by
          have := b.toNat_lt
          omega
        have hlow : b.toNat % 16 < 16 := Nat.mod_lt _ (by decide)
        rw [if_neg hb]
        refine UrlSafe.triplet ?_ ?_ ih
        · rw [hexValue_hexDigit hhigh]
          rfl
        · rw [hexValue_hexDigit hlow]
          rfl

/-- A hexadecimal digit is a letter or a digit. -/
theorem alphanumeric_of_hexValue {b : UInt8} (hb : (hexValue b).isSome) :
    alphanumeric b = true := by
  unfold hexValue at hb
  by_cases hdigit : isDigit b = true
  · simp [alphanumeric, hdigit]
  · rw [if_neg hdigit] at hb
    by_cases hletter : 65 ≤ b.toNat ∧ b.toNat ≤ 70
    · have hupper : b.toNat ≤ 90 := by omega
      simp [alphanumeric, hletter.1, hupper]
    · rw [if_neg hletter] at hb
      cases hb

/-- The characters of an encoded text. -/
theorem UrlSafe.mem {text : CString} (h : UrlSafe text) :
    ∀ b ∈ text, alphanumeric b = true ∨ b = charByte '%' := by
  induction h with
  | nil => simp
  | keep hb _ ih =>
      intro c hc
      rcases List.mem_cons.mp hc with rfl | hc
      · exact Or.inl hb
      · exact ih c hc
  | triplet hhigh hlow _ ih =>
      intro c hc
      simp only [List.mem_cons] at hc
      rcases hc with rfl | rfl | rfl | hc
      · exact Or.inr rfl
      · exact Or.inl (alphanumeric_of_hexValue hhigh)
      · exact Or.inl (alphanumeric_of_hexValue hlow)
      · exact ih c hc

/-- Percent-decoding gives back what was encoded. -/
theorem percentDecode_percentEncode (text : CString) :
    percentDecode (percentEncode text) = some text := by
  induction text with
  | nil => rfl
  | cons b text ih =>
      rw [percentEncode, List.flatMap_cons]
      by_cases hb : alphanumeric b = true
      · have hpercent : b ≠ charByte '%' := by
          rintro rfl
          exact absurd hb (by decide)
        rw [if_pos hb, List.singleton_append, percentDecode_cons hpercent, ← percentEncode, ih]
        rfl
      · rw [if_neg hb, percentDecode_escapedByte, ← percentEncode, ih]
        rfl

end Foundations
