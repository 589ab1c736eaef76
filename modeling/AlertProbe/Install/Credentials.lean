import AlertProbe.Model.Install
import AlertProbe.Foundations.PercentEncoding

/-!
# The encoding of credentials

The rules of `encode_url` are applied one after the other, and no replacement
holds a character of a later rule, so they encode all characters at once.  What
reaches them is the output of `echo`, which prints nothing for `-n` and
interprets a backslash and some of the characters behind it.  Whatever it makes
of such a sequence has a shorter code than the sequence itself.

Main results:

- Theorem `urlRules_untouched`: the rules do not rewrite each other's output.
- Theorem `encode_url_scan`: what `encode_url` makes of a text that `echo` has
  interpreted.
- Theorem `encode_url_encodes_iff`: the credentials that are encoded as they are.
- Theorem `backslash_password_altered`: two passwords that are not.
-/

namespace AlertProbe

open Foundations

/-- A login or a password: a string of printable ASCII characters. -/
structure Credential where
  text : CString
  printable : ∀ b ∈ text, printableByte b = true

/-- `encoded` is the URL-safe, bytewise and lossless encoding of `text`. -/
structure Encodes (text encoded : CString) : Prop where
  safe : UrlSafe encoded
  bytewise : encoded = percentEncode text
  lossless : percentDecode encoded = some text

/-! ## The rules -/

/-- No rule rewrites what an earlier one has produced. -/
theorem urlRules_untouched : Untouched urlRules := by
  decide

/-- The rules keep letters and digits and encode the other printable characters. -/
theorem lookupSymbol_urlRules : ∀ b, printableByte b = true →
    lookupSymbol urlRules b = if alphanumeric b then [b] else escapedByte b := by
  decide +kernel

/-- On printable text the rules are the bytewise encoding. -/
theorem flatMap_urlRules {text : CString} (h : ∀ b ∈ text, printableByte b = true) :
    text.flatMap (lookupSymbol urlRules) = percentEncode text :=
  List.flatMap_congr fun b hb => lookupSymbol_urlRules b (h b hb)

/-- Bytes that the rules make of a byte. -/
def codeLength (b : UInt8) : Nat :=
  (lookupSymbol urlRules b).length

/-- A code has one byte or three. -/
theorem codeLength_bounds (b : UInt8) : 0 < codeLength b ∧ codeLength b ≤ 3 := by
  have htable : ∀ p ∈ urlRules, p.2.length = 3 := by
    decide
  unfold codeLength lookupSymbol
  cases hlookup : urlRules.lookup b with
  | none => simp
  | some code =>
      obtain ⟨front, back, hrules, _⟩ := List.lookup_eq_some_iff.mp hlookup
      have hlength : code.length = 3 := by
        apply htable (b, code)
        rw [hrules]
        exact List.mem_append_right _ List.mem_cons_self
      simp [hlength]

/-- The code of a text has the weight of the text. -/
theorem length_flatMap_urlRules (text : CString) :
    (text.flatMap (lookupSymbol urlRules)).length = weight codeLength text := by
  rw [List.length_flatMap]
  rfl

/-! ## Through echo -/

/-- `encode_url` encodes what `echo` makes of its argument. -/
theorem encode_url_scan {text : CString} (hn : text ≠ ascii "-n") :
    encode_url text =
      commandSubstitution ((EchoState.plain.scan text).1.flatMap (lookupSymbol urlRules)) := by
  have hnewline : lookupSymbol urlRules newline = [newline] := by
    decide
  rw [encode_url, eachLine_symbolScript urlRules_untouched hnewline, echo, if_neg hn,
    echoArguments]
  by_cases hstop : (EchoState.plain.scan text).2 = true
  · rw [if_pos hstop]
  · rw [if_neg hstop, if_pos rfl, List.flatMap_append, List.flatMap_singleton, hnewline,
      commandSubstitution_newline]

/-- A text without sequences comes out of `encode_url` encoded byte by byte. -/
theorem encode_url_of_escapeFree (credential : Credential)
    (hn : credential.text ≠ ascii "-n") (hfree : EscapeFree credential.text) :
    encode_url credential.text = percentEncode credential.text := by
  rw [encode_url_scan hn, EchoState.scan_of_escapeFree hfree,
    flatMap_urlRules credential.printable]
  -- neither a NUL nor a newline is a letter, a digit or a percent sign
  have hbytes := (urlSafe_percentEncode credential.text).mem
  apply commandSubstitution_eq_self
  · intro hnul
    exact absurd (hbytes 0 hnul) (by decide)
  · intro hline
    exact absurd (hbytes newline hline) (by decide)

/-- A text with a sequence comes out shorter than its bytewise encoding. -/
theorem encode_url_length_lt {text : CString} (hn : text ≠ ascii "-n")
    (hfree : ¬ EscapeFree text) :
    (encode_url text).length < (text.flatMap (lookupSymbol urlRules)).length := by
  have hslash : codeLength backslash = 3 := by
    decide
  have hlt := echo_weight_lt (w := codeLength)
    (fun b => by rw [hslash]; exact (codeLength_bounds b).2)
    (fun b => (codeLength_bounds b).1) hfree
  calc (encode_url text).length
      ≤ ((EchoState.plain.scan text).1.flatMap (lookupSymbol urlRules)).length := by
        rw [encode_url_scan hn]
        exact commandSubstitution_length_le _
    _ = weight codeLength (EchoState.plain.scan text).1 := length_flatMap_urlRules _
    _ < weight codeLength text := hlt
    _ = (text.flatMap (lookupSymbol urlRules)).length := (length_flatMap_urlRules text).symm

/-- A credential is encoded as it is, exactly when it is not `-n` and no backslash in it has a
character behind it that `echo` interprets. -/
theorem encode_url_encodes_iff (credential : Credential) :
    Encodes credential.text (encode_url credential.text) ↔
      credential.text ≠ ascii "-n" ∧ EscapeFree credential.text := by
  constructor
  · intro h
    have hn : credential.text ≠ ascii "-n" := by
      intro hn
      have hbytewise := h.bytewise
      rw [hn] at hbytewise
      exact absurd hbytewise (by decide)
    refine ⟨hn, ?_⟩
    by_contra hfree
    have hlt := encode_url_length_lt hn hfree
    rw [flatMap_urlRules credential.printable, ← h.bytewise] at hlt
    exact lt_irrefl _ hlt
  · intro h
    obtain ⟨hn, hfree⟩ := h
    rw [encode_url_of_escapeFree credential hn hfree]
    exact ⟨urlSafe_percentEncode _, rfl, percentDecode_percentEncode _⟩

/-- A password of which `echo` makes a shorter one, and the one that `echo` takes for an
option. -/
theorem backslash_password_altered :
    ¬ Encodes (ascii "a\\\\b") (encode_url (ascii "a\\\\b")) ∧
      encode_url (ascii "a\\\\b") = ascii "a%5Cb" ∧ encode_url (ascii "-n") = [] := by
  have hvalue : encode_url (ascii "a\\\\b") = ascii "a%5Cb" := by
    decide
  refine ⟨?_, hvalue, by decide⟩
  intro h
  have hbytewise := h.bytewise
  rw [hvalue] at hbytewise
  exact absurd hbytewise (by decide)

end AlertProbe
