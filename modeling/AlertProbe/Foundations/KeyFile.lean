import AlertProbe.Foundations.CText

/-!
# Key files

The lines of a key file are comments, headers of groups, and pairs of a key and a
value.  Of several pairs with the same group and key the last one counts.  What a
program edits in such a file line by line is an edit of the pairs.

Main results:

- Theorem `keyFileLine_pair`: what a line with a key in front of an equals sign is.
- Theorem `readEntries_edit`: an edit that keeps the comments, the groups and the
  keys changes the values only.
- Theorem `lookupEntry_map`: the values that are found then.
-/

namespace Foundations

/-! ## Lines -/

/-- White space of ASCII. -/
def asciiSpace (b : UInt8) : Bool :=
  b == 32 || b == 9 || b == 10 || b == 12 || b == 13

/-- What a line is. -/
inductive KeyFileLine where
  | comment
  | group (name : CString)
  | pair (key value : CString)
  | invalid
deriving DecidableEq, Repr

/-- The name in a header: brackets, with blanks and tabs behind them. -/
def groupName : CString → Option CString
  | [] => none
  | b :: rest =>
      if b = charByte '[' then
        match field (charByte ']') rest with
        | some (name, after) => if after.all fun c => c == 32 || c == 9 then some name else none
        | none => none
      else none

/-- Key and value of a pair: white space around the equals sign belongs to neither. -/
def keyValue (start : CString) : KeyFileLine :=
  match field (charByte '=') start with
  | some (key, value) =>
      if key = [] then .invalid
      else .pair (key.rdropWhile asciiSpace) (value.dropWhile asciiSpace)
  | none => .invalid

/-- What a line is, behind the white space at its start. -/
def lineFrom : CString → KeyFileLine
  | [] => .comment
  | b :: rest =>
      if b = charByte '#' then .comment
      else
        match groupName (b :: rest) with
        | some name => .group name
        | none => keyValue (b :: rest)

/-- A line less the carriage return at its end. -/
def chopReturn (line : CString) : CString :=
  if line.getLast? = some 13 then line.dropLast else line

/-- What a line is. -/
def keyFileLine (line : CString) : KeyFileLine :=
  lineFrom ((chopReturn line).dropWhile asciiSpace)

/-- The key of a pair. -/
def KeyFileLine.key : KeyFileLine → Option CString
  | .pair key _ => some key
  | _ => none

/-- A carriage return is dropped at the end of the last part. -/
theorem chopReturn_append (front : CString) {back : CString} (hne : back ≠ []) :
    chopReturn (front ++ back) = front ++ chopReturn back := by
  rw [chopReturn, chopReturn, List.getLast?_append_of_ne_nil front hne,
    List.dropLast_append_of_ne_nil hne]
  split <;> rfl

/-- A line whose first character is a number sign. -/
theorem keyFileLine_comment {space : CString} (hspace : ∀ b ∈ space, asciiSpace b = true)
    (rest : CString) : keyFileLine (space ++ charByte '#' :: rest) = .comment := by
  have hchop : ∃ rest', chopReturn (charByte '#' :: rest) = charByte '#' :: rest' := by
    cases rest with
    | nil => exact ⟨[], rfl⟩
    | cons b rest =>
        have happend := chopReturn_append [charByte '#'] (List.cons_ne_nil b rest)
        exact ⟨_, happend⟩
  obtain ⟨rest', hrest⟩ := hchop
  rw [keyFileLine, chopReturn_append space (List.cons_ne_nil _ _), hrest,
    List.dropWhile_append_of_pos hspace]
  rfl

/-- A pair without white space around the equals sign: its value, when there is no white space
in it either. -/
theorem keyFileLine_pair {key : CString} (hkey : key.any asciiSpace = false)
    (hequals : charByte '=' ∉ key)
    (hfirst : ∃ b rest, key = b :: rest ∧ b ≠ charByte '#' ∧ b ≠ charByte '[')
    (value : CString) :
    ∃ v, keyFileLine (key ++ charByte '=' :: value) = .pair key v ∧
      (value.any asciiSpace = false → v = value) := by
  obtain ⟨b, rest, rfl, hnumber, hbracket⟩ := hfirst
  have hspace : asciiSpace b = false := by
    rw [List.any_cons, Bool.or_eq_false_iff] at hkey
    exact hkey.1
  have hrdrop : (b :: rest).rdropWhile asciiSpace = b :: rest := by
    rw [List.rdropWhile_eq_self_iff]
    intro hne hlast
    rw [List.any_eq_false] at hkey
    exact hkey _ (List.getLast_mem hne) hlast
  have hline : ∀ text, lineFrom (((b :: rest) ++ charByte '=' :: text).dropWhile asciiSpace) =
      .pair (b :: rest) (text.dropWhile asciiSpace) := by
    intro text
    have hgroup : groupName (b :: (rest ++ charByte '=' :: text)) = none := by
      rw [groupName, if_neg hbracket]
    rw [List.cons_append, List.dropWhile_cons_of_neg (by simp [hspace]), lineFrom,
      if_neg hnumber, hgroup, ← List.cons_append]
    simp only [keyValue, field_append hequals, if_neg (List.cons_ne_nil b rest), hrdrop]
  have hchop : ∃ text, chopReturn ((b :: rest) ++ charByte '=' :: value) =
      (b :: rest) ++ charByte '=' :: text ∧ (value.any asciiSpace = false → text = value) := by
    cases value with
    | nil => exact ⟨[], by rw [chopReturn_append _ (List.cons_ne_nil _ _)]; rfl, fun _ => rfl⟩
    | cons c value =>
        refine ⟨chopReturn (c :: value), ?_, ?_⟩
        · have happend :=
            chopReturn_append ((b :: rest) ++ [charByte '=']) (List.cons_ne_nil c value)
          simpa using happend
        · intro hvalue
          rw [chopReturn, if_neg]
          intro hlast
          rw [List.any_eq_false] at hvalue
          exact hvalue 13 (List.mem_of_getLast? hlast) rfl
  obtain ⟨text, htext, hself⟩ := hchop
  refine ⟨text.dropWhile asciiSpace, ?_, fun hvalue => ?_⟩
  · rw [keyFileLine, htext, hline]
  rw [hself hvalue]
  cases value with
  | nil => rfl
  | cons c value =>
      rw [List.any_cons, Bool.or_eq_false_iff] at hvalue
      rw [List.dropWhile_cons_of_neg (by simp [hvalue.1])]

/-! ## Documents -/

/-- A pair with the group that it is in. -/
structure KeyFileEntry where
  group : CString
  key : CString
  value : CString
deriving DecidableEq, Repr

/-- Which names a reader accepts for groups, and which pairs. -/
structure KeyFileNames where
  group : CString → Bool
  pair : KeyFileEntry → Bool

section

variable (kind : CString → KeyFileLine)

/-- The pairs on some lines in a group; `none` when a line is refused. -/
def readEntries (names : KeyFileNames) : Option CString → List CString →
    Option (List KeyFileEntry)
  | _, [] => some []
  | group, line :: lines =>
      match kind line with
      | .comment => readEntries names group lines
      | .group name => if names.group name then readEntries names (some name) lines else none
      | .invalid => none
      | .pair key value =>
          match group with
          | none => none
          | some name =>
              if names.pair ⟨name, key, value⟩ then
                (readEntries names group lines).map (⟨name, key, value⟩ :: ·)
              else none

/-- The groups that some lines begin. -/
def readGroups (lines : List CString) : List CString :=
  lines.filterMap fun line =>
    match kind line with
    | .group name => some name
    | _ => none

end

/-- The value of a key: that of the last pair. -/
def lookupEntry (entries : List KeyFileEntry) (group key : CString) : Option CString :=
  ((entries.filter fun e => e.group = group ∧ e.key = key).getLast?).map KeyFileEntry.value

/-! ## Edits -/

/-- New values for the keys of a line. -/
def KeyFileLine.setValues (value : CString → CString → CString) : KeyFileLine → KeyFileLine
  | .pair key old => .pair key (value key old)
  | line => line

/-- New values for the keys of a pair. -/
def KeyFileEntry.setValue (value : CString → CString → CString) (e : KeyFileEntry) :
    KeyFileEntry :=
  { e with value := value e.key e.value }

/-- An edit of the lines that changes nothing but values, changes nothing but values. -/
theorem readEntries_edit {kind : CString → KeyFileLine} {names : KeyFileNames}
    {edit : CString → CString} {value : CString → CString → CString} {lines : List CString}
    (hedit : ∀ line ∈ lines, kind (edit line) = (kind line).setValues value)
    (hnames : ∀ e, names.pair (e.setValue value) = names.pair e) (group : Option CString) :
    readEntries kind names group (lines.map edit) =
      (readEntries kind names group lines).map (List.map (KeyFileEntry.setValue value)) := by
  induction lines generalizing group with
  | nil => rfl
  | cons line lines ih =>
      have hline := hedit line List.mem_cons_self
      have hrest := ih fun l hl => hedit l (List.mem_cons_of_mem line hl)
      rw [List.map_cons, readEntries, readEntries, hline]
      cases hkind : kind line with
      | comment => exact hrest group
      | group name =>
          simp only [KeyFileLine.setValues]
          split
          · exact hrest (some name)
          · rfl
      | invalid => rfl
      | pair key old =>
          simp only [KeyFileLine.setValues]
          cases group with
          | none => rfl
          | some name =>
              have hpair : names.pair ⟨name, key, value key old⟩ = names.pair ⟨name, key, old⟩ :=
                hnames ⟨name, key, old⟩
              simp only [hpair, hrest (some name)]
              split
              · cases readEntries kind names (some name) lines <;> rfl
              · rfl

/-- Such an edit keeps the groups. -/
theorem readGroups_edit {kind : CString → KeyFileLine} {edit : CString → CString}
    {value : CString → CString → CString} {lines : List CString}
    (hedit : ∀ line ∈ lines, kind (edit line) = (kind line).setValues value) :
    readGroups kind (lines.map edit) = readGroups kind lines := by
  rw [readGroups, List.filterMap_map, readGroups]
  apply List.filterMap_congr
  intro line hline
  rw [Function.comp_apply, hedit line hline]
  cases kind line <;> rfl

/-- The value that is found after an edit. -/
theorem lookupEntry_map (value : CString → CString → CString) (entries : List KeyFileEntry)
    (group key : CString) :
    lookupEntry (entries.map (KeyFileEntry.setValue value)) group key =
      (lookupEntry entries group key).map (value key) := by
  have hfilter : (entries.map (KeyFileEntry.setValue value)).filter
        (fun e => e.group = group ∧ e.key = key) =
      (entries.filter fun e => e.group = group ∧ e.key = key).map
        (KeyFileEntry.setValue value) := by
    rw [List.filter_map]
    rfl
  rw [lookupEntry, hfilter, List.getLast?_map, Option.map_map, lookupEntry, Option.map_map]
  cases hlast : (entries.filter fun e => e.group = group ∧ e.key = key).getLast? with
  | none => rfl
  | some e =>
      have hkey : e.key = key := by
        have hmem := List.mem_filter.mp (List.mem_of_getLast? hlast)
        simpa using (of_decide_eq_true hmem.2).2
      simp [KeyFileEntry.setValue, hkey]

end Foundations
