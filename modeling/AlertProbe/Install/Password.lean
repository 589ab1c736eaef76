import AlertProbe.Install.Requests
import AlertProbe.Model.Checks

/-!
# From the keyboard to the API

The password is typed, and `read` without `-r` takes it.  What the API reads at the
other end of the way is at most as heavy as what was typed, and as heavy only when
neither `read` nor `echo` has dropped a byte.

Main results:

- Theorem `percentDecode_encode_url_sublist`: what can be decoded of a part.
- Theorem `typed_password_delivered_iff`: the passwords that the API reads as they
  were typed.
-/

namespace AlertProbe

open Foundations

/-- Passwords that `read` and `echo` leave as they are. -/
structure Credential.Typeable (password : Credential) : Prop where
  no_backslash : backslash ∉ password.text
  first : password.text.head? ≠ some blank
  last : password.text.getLast? ≠ some blank
  no_option : password.text ≠ ascii "-n"

/-- Without a backslash there is nothing for `echo` to interpret. -/
theorem Credential.Typeable.unaltered {password : Credential} (h : password.Typeable) :
    password.Unaltered :=
  ⟨h.no_option, escapeFree_of_not_mem h.no_backslash⟩

/-- Of the printable characters only the blank separates fields. -/
theorem fieldSeparator_of_printable {b : UInt8} (hb : printableByte b = true) :
    fieldSeparator b = false ↔ b ≠ blank := by
  have htab : b ≠ 9 := by
    rintro rfl
    exact absurd hb (by decide)
  have hnewline : b ≠ newline := by
    rintro rfl
    exact absurd hb (by decide)
  simp [fieldSeparator, htab, hnewline]

/-- The value of the variable is the password that was typed. -/
theorem enter_password_eq_iff (password : Credential) :
    enter_password (password.text ++ [newline]) = password.text ↔
      backslash ∉ password.text ∧ password.text.head? ≠ some blank ∧
        password.text.getLast? ≠ some blank := by
  have hnul : 0 ∉ password.text := fun hmem => absurd (password.printable 0 hmem) (by decide)
  have hnewline : newline ∉ password.text := fun hmem =>
    absurd (password.printable newline hmem) (by decide)
  have hfirst : (∀ b ∈ password.text.head?, fieldSeparator b = false) ↔
      password.text.head? ≠ some blank := by
    cases hhead : password.text.head? with
    | none => simp
    | some b =>
        have hb := password.printable b (List.mem_of_head? hhead)
        simp [fieldSeparator_of_printable hb]
  have hlast : (∀ b ∈ password.text.getLast?, fieldSeparator b = false) ↔
      password.text.getLast? ≠ some blank := by
    cases hend : password.text.getLast? with
    | none => simp
    | some b =>
        have hb := password.printable b (List.mem_of_getLast? hend)
        simp [fieldSeparator_of_printable hb]
  rw [enter_password, readLine_eq_self_iff hnul hnewline, trim_eq_self_iff, hfirst, hlast]

/-- A code is no longer than the code of each byte allows. -/
theorem encode_url_length_le (text : CString) : (encode_url text).length ≤ weight codeLength text := by
  have hslash : codeLength backslash = 3 := by
    decide
  by_cases hn : text = ascii "-n"
  · have hnil : encode_url text = [] := by
      rw [hn]
      decide
    rw [hnil]
    exact Nat.zero_le _
  · have hscan := EchoState.scan_weight_le (w := codeLength)
      (fun b => by rw [hslash]; exact (codeLength_bounds b).2) .plain text
    calc (encode_url text).length
        ≤ ((EchoState.plain.scan text).1.flatMap (lookupSymbol urlRules)).length := by
          rw [encode_url_scan hn]
          exact commandSubstitution_length_le _
      _ = weight codeLength (EchoState.plain.scan text).1 := length_flatMap_urlRules _
      _ ≤ EchoState.plain.pending codeLength + weight codeLength text := hscan
      _ = weight codeLength text := Nat.zero_add _

/-- When the code of a part of a text can be decoded to the text, the part is the text. -/
theorem percentDecode_encode_url_sublist {part text : CString} (hpart : part.Sublist text)
    (h : percentDecode (encode_url part) = some text) : part = text := by
  apply eq_of_sublist_of_weight (w := codeLength) (fun b => (codeLength_bounds b).1) hpart
  exact (weight_le_of_percentDecode h (codeByte_encode_url part)).trans (encode_url_length_le part)

section

variable {host : Host} (hhost : host.Documented) {wc_m : CString → Nat} (hwc : CountsBytes wc_m)
  {v : Variables} (hv : v.Plain) (lineEnd : LineEnd) (login password : Credential)

include hhost hwc hv

/-- Whatever the request, the API reads the login of the script and the password as it was typed,
exactly when the login is unaltered and the password has no backslash, no blank at an end and is
not `-n`. -/
theorem typed_password_delivered_iff {request : CString}
    (hrequest : request ∈ installerRequests host wc_m lineEnd v login.text
      (enter_password (password.text ++ [newline]))) :
    (∃ r, readRequest request = some r ∧ r.parameters = credentialParameters login password) ↔
      login.Unaltered ∧ password.Typeable := by
  obtain ⟨method, path, fields, length, body, hmethod, hpath, hfields, hlength, hbody, rfl⟩ :=
    installerRequests_cases hhost hwc hv lineEnd hrequest
  constructor
  · rintro ⟨r, hread, hparameters⟩
    obtain ⟨hl, hp⟩ := percentDecode_of_readRequest hmethod hpath hfields hlength hbody lineEnd
      hread hparameters
    have htyped : enter_password (password.text ++ [newline]) = password.text :=
      percentDecode_encode_url_sublist (readLine_sublist password.text) hp
    rw [htyped] at hp
    obtain ⟨hslash, hfirst, hlast⟩ := (enter_password_eq_iff password).mp htyped
    have hunaltered := (percentDecode_encode_url_iff password).mp hp
    exact ⟨(percentDecode_encode_url_iff login).mp hl, hslash, hfirst, hlast, hunaltered.1⟩
  · rintro ⟨hlogin, hpassword⟩
    have htyped := (enter_password_eq_iff password).mpr
      ⟨hpassword.no_backslash, hpassword.first, hpassword.last⟩
    rw [htyped]
    exact (readRequest_credentials_iff hmethod hpath hfields hlength hbody lineEnd login
      password).mpr ⟨hlogin, hpassword.unaltered⟩

end

/-- A password with a backslash that `echo` would print as it is. -/
def backslashPassword : Credential :=
  ⟨ascii "a\\db", by decide +kernel⟩

/-- As a variable of the script it would be unaltered; typed, it does not arrive. -/
theorem typed_password_backslash :
    backslashPassword.Unaltered ∧
      ¬ ∃ r, readRequest (getPackages .crlf (exampleVariables "Debian") exampleLogin.text
          (enter_password (backslashPassword.text ++ [newline]))) = some r ∧
        r.parameters = credentialParameters exampleLogin backslashPassword := by
  have hv : (exampleVariables "Debian").Plain := ⟨by decide +kernel, by decide +kernel⟩
  refine ⟨⟨by decide +kernel, by decide +kernel⟩, ?_⟩
  rw [typed_password_delivered_iff exampleHost_documented (fun _ _ => rfl) hv .crlf exampleLogin
    backslashPassword (List.mem_cons_of_mem _ List.mem_cons_self)]
  rintro ⟨-, htypeable⟩
  exact htypeable.no_backslash (by decide)

end AlertProbe
