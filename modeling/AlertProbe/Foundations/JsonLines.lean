import AlertProbe.Foundations.Json
import AlertProbe.Foundations.Shell

/-!
# JSON texts on lines

A backslash stands only inside of the strings of a JSON text, and begins an escape
there, so that it is never the last character of a line.  No byte of a text is NUL.
So `read` takes a JSON text line by line.

Main results:

- Theorem `utf8EncodeChar_bytes`: the bytes of a character that needs no escape.
- Theorem `Json.tokens_outside`: the marks and words of a value have no backslash.
- Theorem `Json.Text.unjoined`: `read` joins no lines of a JSON text.
-/

namespace Foundations

/-- A byte that may stand outside of the strings. -/
def outsideByte (b : UInt8) : Bool :=
  b != 0 && b != backslash

/-- It is neither NUL nor a backslash. -/
theorem outsideByte_iff {b : UInt8} : outsideByte b = true ↔ b ≠ 0 ∧ b ≠ backslash := by
  simp [outsideByte]

/-- `read` joins no lines of such bytes. -/
theorem Unjoined.of_all {text : CString} (h : text.all outsideByte = true) : Unjoined text :=
  Unjoined.of_forall fun b hb => outsideByte_iff.mp (List.all_eq_true.mp h b hb)

/-! ## Strings -/

/-- The bytes of a character that needs no escape. -/
theorem utf8EncodeChar_bytes {c : Char} (hcontrol : 32 ≤ c.toNat) (hslash : c ≠ '\\') :
    (String.utf8EncodeChar c).all outsideByte = true := by
  have hval : c.val.toNat ≠ 92 := by
    intro heq
    exact hslash (Char.ext (UInt32.toNat_inj.mp heq))
  have hpos : 32 ≤ c.val.toNat := hcontrol
  have hbyte : ∀ n, n < 256 → n ≠ 0 → n ≠ 92 → outsideByte (UInt8.ofNat n) = true := by
    decide +kernel
  -- the bytes of a longer encoding are 128 or more
  unfold String.utf8EncodeChar
  simp only
  split
  · simp only [List.all_cons, List.all_nil, Bool.and_true]
    exact hbyte _ (by omega) (by omega) hval
  · split
    · simp only [List.all_cons, List.all_nil, Bool.and_true, Bool.and_eq_true]
      refine ⟨?_, ?_⟩ <;> exact hbyte _ (by omega) (by omega) (by omega)
    · split
      · simp only [List.all_cons, List.all_nil, Bool.and_true, Bool.and_eq_true]
        refine ⟨?_, ?_, ?_⟩ <;> exact hbyte _ (by omega) (by omega) (by omega)
      · simp only [List.all_cons, List.all_nil, Bool.and_true, Bool.and_eq_true]
        refine ⟨?_, ?_, ?_, ?_⟩ <;> exact hbyte _ (by omega) (by omega) (by omega)

/-- The digits of four hexadecimal digits. -/
theorem jsonHex4_bytes {digits : CString} {n : Nat} (h : jsonHex4 digits = some n) :
    digits.all outsideByte = true := by
  have hbyte : ∀ b, (jsonHexValue b).isSome = true → outsideByte b = true := by decide +kernel
  have hfold : ∀ (digits : CString) (start : Nat),
      digits.foldlM (fun n digit => (jsonHexValue digit).map fun d => 16 * n + d) start ≠ none →
        digits.all outsideByte = true := by
    intro digits
    induction digits with
    | nil => exact fun _ _ => rfl
    | cons digit digits ih =>
        intro start hsome
        rw [List.foldlM_cons] at hsome
        cases hvalue : jsonHexValue digit with
        | none =>
            rw [hvalue] at hsome
            exact absurd rfl hsome
        | some d =>
            rw [hvalue] at hsome
            rw [List.all_cons, hbyte digit (by simp [hvalue]), ih _ hsome, Bool.and_self]
  rw [jsonHex4] at h
  split at h
  · exact hfold digits 0 (by simp [h])
  · cases h

/-- `read` joins no lines in a character. -/
theorem CharSpelled.unjoined {c : Char} {text : CString} (h : CharSpelled c text) :
    Unjoined text := by
  have hu : charByte 'u' ≠ 0 ∧ charByte 'u' ≠ newline := by decide
  have hescape : ∀ p ∈ shortEscapes, p.2 ≠ 0 ∧ p.2 ≠ newline := by decide
  cases h with
  | plain hcontrol _ hslash => exact Unjoined.of_all (utf8EncodeChar_bytes hcontrol hslash)
  | short hmem => exact Unjoined.quoted (hescape _ hmem).1 (hescape _ hmem).2 Unjoined.nil
  | unit hdigits => exact Unjoined.quoted hu.1 hu.2 (Unjoined.of_all (jsonHex4_bytes hdigits))
  | pair _ hhigh hlow =>
      have hback := Unjoined.quoted hu.1 hu.2 (Unjoined.of_all (jsonHex4_bytes hlow))
      exact Unjoined.quoted hu.1 hu.2 ((Unjoined.of_all (jsonHex4_bytes hhigh)).append hback)

/-- `read` joins no lines in a string. -/
theorem CharsSpelled.unjoined {chars : List Char} {text : CString} (h : CharsSpelled chars text) :
    Unjoined text := by
  induction h with
  | nil => exact Unjoined.nil
  | cons hc _ ih => exact hc.unjoined.append ih

/-! ## Values -/

/-- The token is a string, or its bytes may stand outside of the strings. -/
def Token.outside : Token → Bool
  | .mark b => outsideByte b
  | .word text => text.all outsideByte
  | _ => true

/-- Digits may stand outside of the strings. -/
theorem all_outsideByte_of_isDigit {digits : CString} (h : ∀ b ∈ digits, isDigit b = true) :
    digits.all outsideByte = true := by
  have hbyte : ∀ b, isDigit b = true → outsideByte b = true := by decide +kernel
  exact List.all_eq_true.mpr fun b hb => hbyte b (h b hb)

/-- The bytes of a number. -/
theorem JsonNumber.text_outside (n : JsonNumber) : n.text.all outsideByte = true := by
  have hdigits : ∀ d : JsonDigits, d.bytes.all outsideByte = true :=
    fun d => all_outsideByte_of_isDigit d.digits
  have hexponent : ∀ e : JsonExponent, e.text.all outsideByte = true := by
    intro e
    rw [JsonExponent.text, List.all_append, List.all_append, hdigits, Bool.and_true]
    rcases e.sign with _ | _ | _ <;> cases e.upper <;> rfl
  have hwhole : (decimalNat n.whole).all outsideByte = true :=
    all_outsideByte_of_isDigit fun _ hb => isDigit_of_mem_decimalNat hb
  rw [JsonNumber.text, List.all_append, List.all_append, List.all_append, hwhole, Bool.and_true,
    Bool.and_eq_true, Bool.and_eq_true]
  refine ⟨⟨?_, ?_⟩, ?_⟩
  · cases n.negative <;> rfl
  · cases n.fraction with
    | none => rfl
    | some digits =>
        rw [List.all_append, hdigits, Bool.and_true]
        rfl
  · cases n.exponent with
    | none => rfl
    | some e => exact hexponent e

/-- `read` joins no lines in a token. -/
theorem Token.Spelled.unjoined {token : Token} {text : CString} (houtside : token.outside = true)
    (h : token.Spelled text) : Unjoined text := by
  have hquote := outsideByte_iff.mp (rfl : outsideByte quote = true)
  cases h with
  | mark b => exact Unjoined.of_forall (List.forall_mem_singleton.mpr (outsideByte_iff.mp houtside))
  | word text => exact Unjoined.of_all houtside
  | number value => exact Unjoined.of_all value.text_outside
  | string hchars =>
      have hend : Unjoined [quote] := Unjoined.plain hquote.1 hquote.2 Unjoined.nil
      exact Unjoined.plain hquote.1 hquote.2 (hchars.unjoined.append hend)

/-- `read` joins no lines in a text of such tokens. -/
theorem Layout.unjoined {tokens : List Token} {text : CString} (h : Layout tokens text)
    (houtside : tokens.all Token.outside = true) : Unjoined text := by
  have hspace : ∀ space : CString, (∀ b ∈ space, jsonSpace b = true) → Unjoined space := by
    have hbyte : ∀ b, jsonSpace b = true → outsideByte b = true := by decide +kernel
    exact fun space h => Unjoined.of_all (List.all_eq_true.mpr fun b hb => hbyte b (h b hb))
  induction h with
  | nil hblank => exact hspace _ hblank
  | cons hblank htoken _ ih =>
      rw [List.all_cons, Bool.and_eq_true] at houtside
      exact ((hspace _ hblank).append (htoken.unjoined houtside.1)).append (ih houtside.2)

/-- Tokens with commas between them. -/
theorem all_outside_intercalate {groups : List (List Token)}
    (h : ∀ group ∈ groups, group.all Token.outside = true) :
    ([comma].intercalate groups).all Token.outside = true := by
  induction groups with
  | nil => rfl
  | cons group groups ih =>
      have hgroup := h group List.mem_cons_self
      have hgroups := ih fun g hg => h g (List.mem_cons_of_mem group hg)
      cases groups with
      | nil => simpa using hgroup
      | cons next groups =>
          rw [List.intercalate_cons_cons, List.all_append, List.all_append, hgroup, hgroups]
          rfl

mutual

/-- The marks and words of a value. -/
theorem Json.tokens_outside : ∀ value : Json, value.tokens.all Token.outside = true
  | .null => by
      rw [Json.tokens]
      rfl
  | .bool true => by
      rw [Json.tokens]
      rfl
  | .bool false => by
      rw [Json.tokens]
      rfl
  | .number value => by
      rw [Json.tokens]
      rfl
  | .string chars => by
      rw [Json.tokens]
      rfl
  | .array items => by
      have hitems := all_outside_intercalate (itemTokens_outside items)
      rw [Json.tokens, List.all_append, List.all_cons, hitems]
      rfl
  | .object members => by
      have hmembers := all_outside_intercalate (memberTokens_outside members)
      rw [Json.tokens, List.all_append, List.all_cons, hmembers]
      rfl

/-- The marks and words of the items of an array. -/
theorem itemTokens_outside :
    ∀ items : List Json, ∀ group ∈ itemTokens items, group.all Token.outside = true
  | [] => by
      rw [itemTokens]
      exact fun _ h => absurd h List.not_mem_nil
  | item :: items => by
      rw [itemTokens, List.forall_mem_cons]
      exact ⟨Json.tokens_outside item, itemTokens_outside items⟩

/-- The marks and words of the members of an object. -/
theorem memberTokens_outside :
    ∀ members : List (List Char × Json),
      ∀ group ∈ memberTokens members, group.all Token.outside = true
  | [] => by
      rw [memberTokens]
      exact fun _ h => absurd h List.not_mem_nil
  | (key, value) :: members => by
      rw [memberTokens, List.forall_mem_cons, List.all_cons, List.all_cons,
        Json.tokens_outside value]
      exact ⟨rfl, memberTokens_outside members⟩

end

/-- `read` joins no lines of a JSON text. -/
theorem Json.Text.unjoined {value : Json} {text : CString} (h : value.Text text) :
    Unjoined text :=
  Layout.unjoined h value.tokens_outside

end Foundations
