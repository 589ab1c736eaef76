import AlertProbe.Foundations.CText

/-!
# JSON texts

A JSON value is a list of tokens, and a text of it spells the tokens one after
the other with any white space around them.  A string can be spelled in several
ways: most characters as they are, and every character as an escape.

Main results:

- Theorem `Layout.append`: texts of two lists of tokens make a text of both.
- Theorem `layout_plainText`: tokens whose strings need no escape have the text of
  their bytes.
- Theorem `layout_lines`: tokens can be put on lines, with an indentation and a blank
  between groups of them.
-/

namespace Foundations

/-- A nonempty run of digits. -/
structure JsonDigits where
  bytes : CString
  ne_nil : bytes ≠ []
  digits : ∀ b ∈ bytes, isDigit b = true

/-- The exponent of a number: the case of its letter, its sign and its digits. -/
structure JsonExponent where
  upper : Bool
  sign : Option Bool
  digits : JsonDigits

/-- A number: minus sign, whole part, digits behind the point and exponent. -/
structure JsonNumber where
  negative : Bool
  whole : Nat
  fraction : Option JsonDigits
  exponent : Option JsonExponent

/-- The text of an exponent. -/
def JsonExponent.text (e : JsonExponent) : CString :=
  ascii (if e.upper then "E" else "e") ++
    (match e.sign with
      | none => []
      | some true => ascii "-"
      | some false => ascii "+") ++
    e.digits.bytes

/-- The text of a number. -/
def JsonNumber.text (n : JsonNumber) : CString :=
  (if n.negative then ascii "-" else []) ++ decimalNat n.whole ++
    (match n.fraction with
      | none => []
      | some digits => ascii "." ++ digits.bytes) ++
    (match n.exponent with
      | none => []
      | some e => e.text)

/-- A JSON value; an object has its members in the order of the text. -/
inductive Json where
  | null
  | bool (value : Bool)
  | number (value : JsonNumber)
  | string (chars : List Char)
  | array (items : List Json)
  | object (members : List (List Char × Json))

/-- The tokens of a JSON text. -/
inductive Token where
  | mark (b : UInt8)
  | word (text : CString)
  | number (value : JsonNumber)
  | string (chars : List Char)

/-- The mark between items and between members. -/
def comma : Token := .mark (charByte ',')

mutual

/-- The tokens of a value. -/
def Json.tokens : Json → List Token
  | .null => [.word (ascii "null")]
  | .bool true => [.word (ascii "true")]
  | .bool false => [.word (ascii "false")]
  | .number value => [.number value]
  | .string chars => [.string chars]
  | .array items =>
      .mark (charByte '[') :: [comma].intercalate (itemTokens items) ++ [.mark (charByte ']')]
  | .object members =>
      .mark 123 :: [comma].intercalate (memberTokens members) ++ [.mark 125]

/-- The tokens of each item of an array. -/
def itemTokens : List Json → List (List Token)
  | [] => []
  | item :: items => item.tokens :: itemTokens items

/-- The tokens of each member of an object. -/
def memberTokens : List (List Char × Json) → List (List Token)
  | [] => []
  | (key, value) :: members =>
      (.string key :: .mark (charByte ':') :: value.tokens) :: memberTokens members

end

/-! ## Spelling -/

/-- Value of a hexadecimal digit of either case. -/
def jsonHexValue (b : UInt8) : Option Nat :=
  if isDigit b then some (b.toNat - 48)
  else if 65 ≤ b.toNat ∧ b.toNat ≤ 70 then some (b.toNat - 55)
  else if 97 ≤ b.toNat ∧ b.toNat ≤ 102 then some (b.toNat - 87)
  else none

/-- Value of four hexadecimal digits. -/
def jsonHex4 (digits : CString) : Option Nat :=
  if digits.length = 4 then
    digits.foldlM (fun n digit => (jsonHexValue digit).map fun d => 16 * n + d) 0
  else none

/-- The escapes of two characters. -/
def shortEscapes : List (Char × UInt8) :=
  [('"', quote), ('\\', backslash), ('/', charByte '/'), ('\x08', charByte 'b'),
    ('\x0c', charByte 'f'), ('\n', charByte 'n'), ('\r', charByte 'r'), ('\t', charByte 't')]

/-- `CharSpelled c text`: inside of a string the text stands for the character. -/
inductive CharSpelled : Char → CString → Prop where
  | plain {c : Char} (hcontrol : 32 ≤ c.toNat) (hquote : c ≠ '"') (hslash : c ≠ '\\') :
      CharSpelled c (String.utf8EncodeChar c)
  | short {c : Char} {e : UInt8} (h : (c, e) ∈ shortEscapes) : CharSpelled c [backslash, e]
  | unit {c : Char} {digits : CString} (h : jsonHex4 digits = some c.toNat) :
      CharSpelled c (backslash :: charByte 'u' :: digits)
  | pair {c : Char} {high low : CString} (hc : 0x10000 ≤ c.toNat)
      (hhigh : jsonHex4 high = some (0xd800 + (c.toNat - 0x10000) / 0x400))
      (hlow : jsonHex4 low = some (0xdc00 + (c.toNat - 0x10000) % 0x400)) :
      CharSpelled c (backslash :: charByte 'u' :: high ++ backslash :: charByte 'u' :: low)

/-- `CharsSpelled s text`: the text stands for the characters. -/
inductive CharsSpelled : List Char → CString → Prop where
  | nil : CharsSpelled [] []
  | cons {c : Char} {chars : List Char} {front text : CString} (hc : CharSpelled c front)
      (hrest : CharsSpelled chars text) : CharsSpelled (c :: chars) (front ++ text)

/-- `token.Spelled text`: the text is a spelling of the token. -/
inductive Token.Spelled : Token → CString → Prop where
  | mark (b : UInt8) : Spelled (.mark b) [b]
  | word (text : CString) : Spelled (.word text) text
  | number (value : JsonNumber) : Spelled (.number value) value.text
  | string {chars : List Char} {text : CString} (h : CharsSpelled chars text) :
      Spelled (.string chars) (quote :: text ++ [quote])

/-- Blank, tab, line feed and carriage return. -/
def jsonSpace (b : UInt8) : Bool :=
  b == 32 || b == 9 || b == 10 || b == 13

/-- `Layout tokens text`: the text spells the tokens, with any white space around them. -/
inductive Layout : List Token → CString → Prop where
  | nil {space : CString} (hspace : ∀ b ∈ space, jsonSpace b = true) : Layout [] space
  | cons {space text rest : CString} {token : Token} {tokens : List Token}
      (hspace : ∀ b ∈ space, jsonSpace b = true) (htoken : token.Spelled text)
      (hrest : Layout tokens rest) : Layout (token :: tokens) (space ++ text ++ rest)

/-- `value.Text text`: the text is a JSON text of the value. -/
def Json.Text (value : Json) (text : CString) : Prop :=
  Layout value.tokens text

/-- White space in front of a text. -/
theorem Layout.space {tokens : List Token} {text space : CString}
    (hspace : ∀ b ∈ space, jsonSpace b = true) (h : Layout tokens text) :
    Layout tokens (space ++ text) := by
  cases h with
  | nil hrest =>
      apply Layout.nil
      intro b hb
      rcases List.mem_append.mp hb with hb | hb
      · exact hspace b hb
      · exact hrest b hb
  | @cons more spelled rest token tokens hmore htoken hrest =>
      have hboth : ∀ b ∈ space ++ more, jsonSpace b = true := by
        intro b hb
        rcases List.mem_append.mp hb with hb | hb
        · exact hspace b hb
        · exact hmore b hb
      have hlayout := Layout.cons hboth htoken hrest
      simpa using hlayout

/-- Texts of two lists of tokens make a text of both. -/
theorem Layout.append {front back : List Token} {text rest : CString} (hfront : Layout front text)
    (hback : Layout back rest) : Layout (front ++ back) (text ++ rest) := by
  induction hfront with
  | nil hspace => exact Layout.space hspace hback
  | cons hspace htoken _ ih =>
      have hlayout := Layout.cons hspace htoken ih
      simpa using hlayout

/-- ASCII characters that need no escape are spelled by their bytes. -/
theorem charsSpelled_ascii {chars : List Char}
    (h : ∀ c ∈ chars, 32 ≤ c.toNat ∧ c.toNat < 128 ∧ c ≠ '"' ∧ c ≠ '\\') :
    CharsSpelled chars (chars.map charByte) := by
  induction chars with
  | nil => exact CharsSpelled.nil
  | cons c chars ih =>
      obtain ⟨hcontrol, hascii, hquote, hslash⟩ := h c List.mem_cons_self
      have hspelled := CharSpelled.plain hcontrol hquote hslash
      have hbyte : String.utf8EncodeChar c = [charByte c] := by
        have hlow : c.val.toNat ≤ 127 := Nat.le_of_lt_succ hascii
        rw [String.utf8EncodeChar, if_pos hlow]
        rfl
      rw [hbyte] at hspelled
      exact CharsSpelled.cons hspelled (ih fun d hd => h d (List.mem_cons_of_mem c hd))

/-- A token without white space whose string, if it is one, is spelled by its bytes. -/
def Token.plainText : Token → CString
  | .mark b => [b]
  | .word text => text
  | .number value => value.text
  | .string chars => quote :: chars.map charByte ++ [quote]

/-- An ASCII character that needs no escape. -/
def plainChar (c : Char) : Bool :=
  32 ≤ c.toNat && c.toNat < 128 && c != '"' && c != '\\'

/-- The characters of the token, if it is a string, need no escape. -/
def Token.plain : Token → Bool
  | .string chars => chars.all plainChar
  | _ => true

/-- The bytes of such a token are a spelling. -/
theorem Token.plainText_spelled {token : Token} (h : token.plain = true) :
    token.Spelled token.plainText := by
  cases token with
  | mark b => exact Spelled.mark b
  | word text => exact Spelled.word text
  | number value => exact Spelled.number value
  | string chars =>
      apply Spelled.string
      apply charsSpelled_ascii
      intro c hc
      have hplain := List.all_eq_true.mp h c hc
      simpa [plainChar, and_assoc] using hplain

/-- The bytes of such tokens are a text of them. -/
theorem layout_plainText {tokens : List Token} (h : ∀ token ∈ tokens, token.plain = true) :
    Layout tokens (tokens.flatMap Token.plainText) := by
  induction tokens with
  | nil => exact Layout.nil (by simp)
  | cons token tokens ih =>
      have hspace : ∀ b ∈ ([] : CString), jsonSpace b = true := by simp
      exact Layout.cons hspace (Token.plainText_spelled (h token List.mem_cons_self))
        (ih fun t ht => h t (List.mem_cons_of_mem token ht))

/-! ## Lines of tokens -/

/-- A line of a text: its tabs, and groups of tokens with a blank between them. -/
structure TokenLine where
  indent : Nat
  groups : List (List Token)

namespace TokenLine

/-- The groups of a line as words. -/
def words (line : TokenLine) : List CString :=
  line.groups.map fun group => group.flatMap Token.plainText

/-- The line without its newline. -/
def text (line : TokenLine) : CString :=
  List.replicate line.indent 9 ++ [blank].intercalate line.words

end TokenLine

/-- Groups of tokens with a blank between them are a text of the tokens. -/
theorem layout_groups {groups : List (List Token)}
    (h : ∀ group ∈ groups, ∀ token ∈ group, token.plain = true) :
    Layout groups.flatten
      ([blank].intercalate (groups.map fun group => group.flatMap Token.plainText)) := by
  induction groups with
  | nil => exact Layout.nil (by simp)
  | cons group groups ih =>
      have hgroup := layout_plainText (h group List.mem_cons_self)
      have hgroups := ih fun g hg => h g (List.mem_cons_of_mem group hg)
      have hblank : ∀ b ∈ [blank], jsonSpace b = true := List.forall_mem_singleton.mpr rfl
      cases groups with
      | nil => simpa using hgroup
      | cons next groups =>
          rw [List.map_cons, List.map_cons, List.intercalate_cons_cons, List.flatten_cons]
          rw [List.append_assoc]
          exact hgroup.append (Layout.space hblank hgroups)

/-- Lines of tokens are a text of the tokens. -/
theorem layout_lines {lines : List TokenLine}
    (h : ∀ line ∈ lines, ∀ group ∈ line.groups, ∀ token ∈ group, token.plain = true) :
    Layout (lines.flatMap fun line => line.groups.flatten)
      (lines.flatMap fun line => line.text ++ [newline]) := by
  induction lines with
  | nil => exact Layout.nil (by simp)
  | cons line lines ih =>
      have hindent : ∀ b ∈ List.replicate line.indent (9 : UInt8), jsonSpace b = true := by
        intro b hb
        rw [List.eq_of_mem_replicate hb]
        rfl
      have hend : Layout [] [newline] := Layout.nil (List.forall_mem_singleton.mpr rfl)
      have hline := (Layout.space hindent (layout_groups (h line List.mem_cons_self))).append hend
      rw [List.append_nil] at hline
      rw [List.flatMap_cons, List.flatMap_cons]
      exact hline.append (ih fun l hl => h l (List.mem_cons_of_mem line hl))

end Foundations
