import DotLang.Json.Parser
import DotLang.Json.Written

/-!
# Reading what is written

The reader finds every value in every text that writes it, whatever stands behind the text (`readValue_written`).
So a text writes at most one value, and this is the one that is read (`parse?_written`). The bound of the reader
is no hindrance: it is left for each level of nesting, which takes a bracket, and for each further item, which takes
a comma.
-/

namespace DotLang.Json

variable {c : Char} {cs content gap piece rest text : List Char} {bound : Nat}

/-! ## Strings -/

/-- A hexadecimal digit is read with its value, in both cases. -/
theorem digitValue?_of_hexadecimal {digit : Char} {value : Nat} (h : Hexadecimal digit value) :
    digitValue? digit = some value := by
  have hlower : ∀ value < 16, digitValue? (Nat.digitChar value) = some value := by decide
  have hupper : ∀ value < 16, digitValue? (Nat.digitChar value).toUpper = some value := by decide
  cases h with
  | lower hvalue => exact hlower value hvalue
  | upper hvalue => exact hupper value hvalue

/-- Four digits are read as one code unit. -/
theorem exists_of_codeUnit {digits : List Char} {n : Nat} (h : CodeUnit digits n) :
    ∃ a b c d, digits = [a, b, c, d] ∧ codeUnit? a b c d = some n := by
  obtain ⟨ha, hb, hc, hd⟩ := h
  refine ⟨_, _, _, _, rfl, ?_⟩
  simp [codeUnit?, digitValue?_of_hexadecimal ha, digitValue?_of_hexadecimal hb, digitValue?_of_hexadecimal hc,
    digitValue?_of_hexadecimal hd]

/-- The numbers of characters leave out those that are read in pairs. -/
theorem toNat_lt_or_lt (c : Char) : c.toNat < 0xD800 ∨ 0xE000 ≤ c.toNat := by
  have hvalid := c.valid
  rw [UInt32.isValidChar, Nat.isValidChar] at hvalid
  have htoNat : c.toNat = c.val.toNat := rfl
  omega

/-- A character is read in each of its forms. -/
theorem readString_piece (h : CharWritten c piece) (rest : List Char) :
    readString (piece ++ rest) = (readString rest).map fun (content, rest) => (c :: content, rest) := by
  have hnumber : Char.ofNat c.toNat = c := Char.ofNat_toNat c
  cases h with
  | plain hspace hquote hslash =>
    rw [List.singleton_append, readString, if_neg (by simp [hslash, hspace])]
    · cases readString rest <;> rfl
    all_goals intros; contradiction
  | letter hletter =>
    have hescaped : ∀ letter ∈ letters, letter.1 ≠ 'u' ∧ escaped? letter.1 = some letter.2 := by decide
    obtain ⟨hu, hc⟩ := hescaped _ hletter
    rw [List.cons_append, List.singleton_append, readString, hc]
    · cases readString rest <;> rfl
    all_goals intros; contradiction
  | unit hdigits =>
    obtain ⟨i, j, k, l, rfl, hcode⟩ := exists_of_codeUnit hdigits
    have hrange := toNat_lt_or_lt c
    simp only [List.cons_append, List.nil_append]
    by_cases hmore : ∃ e f g h tail, rest = '\\' :: 'u' :: e :: f :: g :: h :: tail
    · -- Another number follows, which would be needed if this one were the first of a pair.
      obtain ⟨e, f, g, h, tail, rfl⟩ := hmore
      rw [readString, hcode]
      simp only [Option.bind_eq_bind, Option.bind_some]
      rw [if_neg (by omega), if_neg (by omega), hnumber]
      cases readString ('\\' :: 'u' :: e :: f :: g :: h :: tail) <;> rfl
    · rw [readString, hcode]
      · simp only [Option.bind_eq_bind, Option.bind_some]
        rw [if_neg (by omega), hnumber]
        cases readString rest <;> rfl
      · exact fun e f g h tail heq => hmore ⟨e, f, g, h, tail, heq⟩
  | pair hhigh hlow hm hn hc =>
    obtain ⟨i, j, k, l, rfl, hfirst⟩ := exists_of_codeUnit hhigh
    obtain ⟨i', j', k', l', rfl, hsecond⟩ := exists_of_codeUnit hlow
    simp only [List.cons_append, List.nil_append]
    rw [readString, hfirst, hsecond]
    simp only [Option.bind_eq_bind, Option.bind_some]
    -- What the two numbers are beyond their ranges makes up the number of the character.
    rw [if_pos (by omega), if_pos (by omega), Nat.add_sub_cancel_left, Nat.add_sub_cancel_left, ← hc, hnumber]
    cases readString rest <;> rfl

/-- The content of a string is read up to the quote behind it. -/
theorem readString_content (h : ContentWritten content text) (rest : List Char) :
    readString (text ++ '"' :: rest) = some (content, rest) := by
  induction h with
  | nil => rfl
  | cons hpiece _ ih => rw [List.append_assoc, readString_piece hpiece, ih, Option.map_some]

/-- A string is read from its opening quote to its closing one. -/
theorem exists_of_stringWritten {value : String} (h : StringWritten value text) :
    ∃ tail, text = '"' :: tail ∧ ∀ rest, readString (tail ++ rest) = some (value.toList, rest) := by
  obtain ⟨hcontent⟩ := h
  exact ⟨_, rfl, fun rest => by simpa using readString_content hcontent rest⟩

/-! ## Blanks -/

/-- Nothing is skipped where no blank is next. -/
theorem skipBlanks_cons (c : Char) (hc : isBlank c = false) (cs : List Char) : skipBlanks (c :: cs) = c :: cs :=
  List.dropWhile_cons_of_neg (by simp [hc])

/-- A gap is skipped, whatever follows it. -/
theorem skipBlanks_append (h : Blank gap) (cs : List Char) : skipBlanks (gap ++ cs) = skipBlanks cs :=
  List.dropWhile_append_of_pos fun c hc => by simpa [isBlank, or_assoc] using h c hc

/-- Only the blanks in front of a mark are passed. -/
theorem skipBlanks_mark (c : Char) (hc : isBlank c = false) (h : Blank gap) (cs : List Char) :
    skipBlanks (gap ++ c :: cs) = c :: cs :=
  (skipBlanks_append h _).trans (skipBlanks_cons c hc cs)

/-- A gap in front of a value does not matter. -/
theorem readValue_append (h : Blank gap) (bound : Nat) (cs : List Char) :
    readValue bound (gap ++ cs) = readValue bound cs := by
  cases bound with
  | zero => rfl
  | succ bound => rw [readValue, readValue, skipBlanks_append h]

/-- A gap in front of items does not matter. -/
theorem readItems_append (h : Blank gap) (bound : Nat) (cs : List Char) :
    readItems bound (gap ++ cs) = readItems bound cs := by
  cases bound with
  | zero => rfl
  | succ bound => rw [readItems, readItems, readValue_append h]

/-- A gap in front of members does not matter. -/
theorem readMembers_append (h : Blank gap) (bound : Nat) (cs : List Char) :
    readMembers bound (gap ++ cs) = readMembers bound cs := by
  cases bound with
  | zero => rfl
  | succ bound => rw [readMembers, readMembers, skipBlanks_append h]

/-! ## Parts of values -/

/-- Whether a text is read as a value, whatever stands behind it. -/
def Reads (value : Json) (text : List Char) : Prop :=
  ∀ bound rest, 2 * text.length ≤ bound → readValue bound (text ++ rest) = some (value, rest)

/-- Whether a text is read as the items of an array, if a bracket stands behind it. -/
def ReadsItems (items : List Json) (text : List Char) : Prop :=
  ∀ bound rest, 2 * text.length < bound → readItems bound (text ++ ']' :: rest) = some (items, rest)

/-- Whether a text is a string that is read as the name of a member, a colon, and a text that is read as the
value of the member. -/
def ReadsMember (member : String × Json) (text : List Char) : Prop :=
  ∃ tail inner, text = '"' :: tail ∧ inner.length < text.length ∧ Reads member.2 inner ∧
    ∀ rest, ∃ cs, readString (tail ++ rest) = some (member.1.toList, cs) ∧ skipBlanks cs = ':' :: (inner ++ rest)

/-- Whether a text is read as the members of an object, if a brace stands behind it. -/
def ReadsMembers (members : List (String × Json)) (text : List Char) : Prop :=
  ∀ bound rest, 2 * text.length < bound → readMembers bound (text ++ '}' :: rest) = some (members, rest)

variable {value item : Json} {items : List Json} {member : String × Json} {members : List (String × Json)}
  {before first more : List Char}

/-- No text that is read as a value is empty, so the reader never comes to its bound there. -/
theorem Reads.of_succ (hne : text ≠ [])
    (h : ∀ bound rest, 2 * text.length ≤ bound + 1 → readValue (bound + 1) (text ++ rest) = some (value, rest)) :
    Reads value text
  | 0, _, hbound => absurd (List.length_eq_zero_iff.1 (by omega)) hne
  | bound + 1, rest, hbound => h bound rest hbound

/-- The last item has the closing bracket behind it. -/
theorem readsItems_last (h : Reads item first) (hgap : Blank gap) : ReadsItems [item] (first ++ gap)
  | bound + 1, rest, hbound => by
    rw [List.length_append] at hbound
    have hitem := h bound (gap ++ ']' :: rest) (by omega)
    simp only [List.append_assoc, readItems, hitem, Option.bind_eq_bind, Option.bind_some,
      skipBlanks_mark ']' rfl hgap]
    rfl

/-- Any other item has a comma behind it. -/
theorem readsItems_more (h : Reads item first) (hbefore : Blank before) (hgap : Blank gap)
    (hmore : ReadsItems items more) : ReadsItems (item :: items) (first ++ (before ++ ',' :: (gap ++ more)))
  | bound + 1, rest, hbound => by
    simp only [List.length_append, List.length_cons] at hbound
    have hitem := h bound (before ++ ',' :: (gap ++ (more ++ ']' :: rest))) (by omega)
    have hitems := hmore bound rest (by omega)
    simp only [List.append_assoc, List.cons_append, readItems, hitem, Option.bind_eq_bind, Option.bind_some,
      skipBlanks_mark ',' rfl hbefore, readItems_append hgap, hitems]
    rfl

/-- The name of a member is read up to its colon, and the value behind it. -/
theorem readsMember {name : String} {quoted inner : List Char} (hname : StringWritten name quoted)
    (hbefore : Blank before) (hgap : Blank gap) (hvalue : Reads value inner) :
    ReadsMember (name, value) (quoted ++ (before ++ ':' :: (gap ++ inner))) := by
  obtain ⟨tail, rfl, hread⟩ := exists_of_stringWritten hname
  refine ⟨_, gap ++ inner, List.cons_append, by simp; omega, fun bound rest hbound => ?_, fun rest =>
    ⟨before ++ ':' :: (gap ++ inner ++ rest), ?_, skipBlanks_mark ':' rfl hbefore _⟩⟩
  · rw [List.length_append] at hbound
    rw [List.append_assoc, readValue_append hgap]
    exact hvalue bound rest (by omega)
  · rw [List.append_assoc, List.append_assoc]
    exact hread _

/-- The last member has the closing brace behind it. -/
theorem readsMembers_last (h : ReadsMember member first) (hgap : Blank gap) : ReadsMembers [member] (first ++ gap)
  | bound + 1, rest, hbound => by
    rw [List.length_append] at hbound
    obtain ⟨tail, inner, rfl, hlength, hvalue, hname⟩ := h
    -- Name and value are read in front of the brace, with the blanks before it.
    obtain ⟨cs, hstring, hcolon⟩ := hname (gap ++ '}' :: rest)
    have hmember := hvalue bound (gap ++ '}' :: rest) (by omega)
    simp only [List.append_assoc, List.cons_append, readMembers, skipBlanks_cons '"' rfl, hstring, hcolon, hmember,
      skipBlanks_mark '}' rfl hgap, Option.bind_eq_bind, Option.bind_some, String.ofList_toList]
    rfl

/-- Any other member has a comma behind it. -/
theorem readsMembers_more (h : ReadsMember member first) (hbefore : Blank before) (hgap : Blank gap)
    (hmore : ReadsMembers members more) :
    ReadsMembers (member :: members) (first ++ (before ++ ',' :: (gap ++ more)))
  | bound + 1, rest, hbound => by
    simp only [List.length_append, List.length_cons] at hbound
    obtain ⟨tail, inner, rfl, hlength, hvalue, hname⟩ := h
    obtain ⟨cs, hstring, hcolon⟩ := hname (before ++ ',' :: (gap ++ (more ++ '}' :: rest)))
    have hmember := hvalue bound (before ++ ',' :: (gap ++ (more ++ '}' :: rest))) (by omega)
    have hmembers := hmore bound rest (by omega)
    simp only [List.append_assoc, List.cons_append, readMembers, skipBlanks_cons '"' rfl, hstring, hcolon, hmember,
      skipBlanks_mark ',' rfl hbefore, readMembers_append hgap, hmembers, Option.bind_eq_bind, Option.bind_some,
      String.ofList_toList]
    rfl

/-! ## Values -/

/-- A string is read. -/
theorem reads_str {value : String} (h : StringWritten value text) : Reads (str value) text := by
  obtain ⟨tail, rfl, hread⟩ := exists_of_stringWritten h
  refine .of_succ (List.cons_ne_nil _ _) fun bound rest _ => ?_
  simp only [List.cons_append, readValue, skipBlanks_cons '"' rfl, hread, Option.map_some, String.ofList_toList]

/-- An empty array is read, with any gap in it. -/
theorem reads_arrNil (hgap : Blank gap) : Reads (arr []) ('[' :: (gap ++ [']'])) := by
  refine .of_succ (List.cons_ne_nil _ _) fun bound rest _ => ?_
  simp only [List.cons_append, List.append_assoc, List.nil_append, readValue, skipBlanks_cons '[' rfl,
    skipBlanks_mark ']' rfl hgap]

/-- An array with items is not taken for an empty one, since no item begins with a closing bracket. -/
theorem reads_arr (hgap : Blank gap) (hhead : ∃ c tail, text = c :: tail ∧ isBlank c = false ∧ c ≠ ']')
    (hitems : ReadsItems items text) : Reads (arr items) ('[' :: (gap ++ (text ++ [']']))) := by
  refine .of_succ (List.cons_ne_nil _ _) fun bound rest hbound => ?_
  have hread := hitems bound rest (by simp at hbound; omega)
  obtain ⟨c, tail, rfl, hblank, hbracket⟩ := hhead
  simp only [List.cons_append, List.append_assoc, List.nil_append, readValue, skipBlanks_cons '[' rfl,
    skipBlanks_mark c hblank hgap] at hread ⊢
  -- The branch for an empty array would need a bracket where the first item begins.
  split
  · next heq => exact absurd (List.cons.inj heq).1 hbracket
  · rw [hread, Option.map_some]

/-- An empty object is read, with any gap in it. -/
theorem reads_objNil (hgap : Blank gap) : Reads (obj []) ('{' :: (gap ++ ['}'])) := by
  refine .of_succ (List.cons_ne_nil _ _) fun bound rest _ => ?_
  simp only [List.cons_append, List.append_assoc, List.nil_append, readValue, skipBlanks_cons '{' rfl,
    skipBlanks_mark '}' rfl hgap]

/-- An object with members is not taken for an empty one, since all members begin with a quote. -/
theorem reads_obj (hgap : Blank gap) (hhead : ∃ tail, text = '"' :: tail) (hmembers : ReadsMembers members text) :
    Reads (obj members) ('{' :: (gap ++ (text ++ ['}']))) := by
  refine .of_succ (List.cons_ne_nil _ _) fun bound rest hbound => ?_
  have hread := hmembers bound rest (by simp at hbound; omega)
  obtain ⟨tail, rfl⟩ := hhead
  simp only [List.cons_append, List.append_assoc, List.nil_append, readValue, skipBlanks_cons '{' rfl,
    skipBlanks_mark '"' rfl hgap] at hread ⊢
  split
  -- The name begins with a quote, so the object is not taken for an empty one.
  · next heq => exact absurd (List.cons.inj heq).1 (by decide)
  · rw [hread, Option.map_some]

/-- A value begins neither with a blank nor with the end of an array. -/
theorem Written.head (h : Written value text) : ∃ c tail, text = c :: tail ∧ isBlank c = false ∧ c ≠ ']' := by
  cases h with
  | str h =>
    obtain ⟨tail, rfl, -⟩ := exists_of_stringWritten h
    exact ⟨_, _, rfl, by decide, by decide⟩
  | _ => exact ⟨_, _, rfl, by decide, by decide⟩

-- A value is read along its parts: how its text is laid out does not matter to any of them.
mutual

/-- A text is read as the value that it writes. -/
theorem readValue_written : ∀ (value : Json) {text : List Char}, Written value text → Reads value text
  | .null, _, .null => .of_succ (List.cons_ne_nil _ _) fun _ _ _ => rfl
  | .bool true, _, .boolTrue => .of_succ (List.cons_ne_nil _ _) fun _ _ _ => rfl
  | .bool false, _, .boolFalse => .of_succ (List.cons_ne_nil _ _) fun _ _ _ => rfl
  | .str value, _, .str h => reads_str h
  | .arr [], _, .arrNil hgap => reads_arrNil hgap
  -- The first item is no closing bracket, which is how the reader knows that the array is not empty.
  | .arr (item :: items), _, .arrCons hgap hfirst hmore => by
    have hitems := readItems_written items (readValue_written item hfirst) hmore
    obtain ⟨c, tail, rfl, hc⟩ := hfirst.head
    rw [← List.append_assoc (c :: tail)]
    exact reads_arr hgap ⟨c, tail ++ _, rfl, hc⟩ hitems
  | .obj [], _, .objNil hgap => reads_objNil hgap
  | .obj (member :: members), _, .objCons hgap hfirst hmore => by
    have hmember := readMember_written member hfirst
    have hmembers := readMembers_written members hmember hmore
    obtain ⟨tail, -, rfl, -⟩ := hmember
    rw [← List.append_assoc ('"' :: tail)]
    exact reads_obj hgap ⟨tail ++ _, rfl⟩ hmembers

/-- The items behind the first one are read as they are written. -/
theorem readItems_written : ∀ (items : List Json) {item : Json} {first more : List Char},
    Reads item first → ItemsWritten items more → ReadsItems (item :: items) (first ++ more)
  | [], _, _, _, hitem, .nil hgap => readsItems_last hitem hgap
  | next :: items, _, _, _, hitem, .cons hbefore hgap hfirst hmore =>
    readsItems_more hitem hbefore hgap (readItems_written items (readValue_written next hfirst) hmore)

/-- A member is read as it is written. -/
theorem readMember_written : ∀ (member : String × Json) {text : List Char}, MemberWritten member text →
    ReadsMember member text
  | (_, value), _, .mk hname hbefore hgap hvalue => readsMember hname hbefore hgap (readValue_written value hvalue)

/-- The members behind the first one are read as they are written. -/
theorem readMembers_written : ∀ (members : List (String × Json)) {member : String × Json} {first more : List Char},
    ReadsMember member first → MembersWritten members more → ReadsMembers (member :: members) (first ++ more)
  | [], _, _, _, hmember, .nil hgap => readsMembers_last hmember hgap
  | next :: members, _, _, _, hmember, .cons hbefore hgap hfirst hmore =>
    readsMembers_more hmember hbefore hgap
      (readMembers_written members (readMember_written next hfirst) hmore)

end

/-- A text is read as the value that it writes, so it writes no other one. -/
theorem parse?_written {value : Json} {text : String} (h : Written value text.toList) :
    parse? text = some value := by
  have hread := readValue_written value h (2 * (text.length + 1)) [] (by rw [String.length_toList]; omega)
  rw [List.append_nil] at hread
  rw [parse?, hread]
  rfl

end DotLang.Json
