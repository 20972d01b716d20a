import DotLang.Json.Basic
import DotLang.Json.Written
import Mathlib.Tactic.SplitIfs

/-!
# Printed values are written values

Whatever a value holds, its printed text is one of the texts that write it (`written_pretty`): every character
of a string has an escape or needs none, and new lines and indentation are blanks.
-/

namespace DotLang.Json

/-! ## Strings -/

/-- What is written for a character is one of the ways to write it. -/
theorem charWritten_escapeChar (c : Char) : CharWritten c (escapeChar c) := by
  rw [escapeChar]
  split_ifs with hquote hslash hbackspace htab hfeed hpage hreturn hcontrol
  -- Seven characters are written by a letter of their own.
  · subst hquote
    exact .letter (by decide)
  · subst hslash
    exact .letter (by decide)
  · subst hbackspace
    exact .letter (by decide)
  · subst htab
    exact .letter (by decide)
  · subst hfeed
    exact .letter (by decide)
  · subst hpage
    exact .letter (by decide)
  · subst hreturn
    exact .letter (by decide)
  · -- What is left of the control characters has a number of two digits.
    have hzero : Hexadecimal '0' 0 := @Hexadecimal.lower 0 (by decide)
    have hunit := CodeUnit.mk hzero hzero (.lower (show c.toNat / 16 < 16 by omega))
      (.lower (Nat.mod_lt c.toNat (by decide)))
    have hnumber : ((0 * 16 + 0) * 16 + c.toNat / 16) * 16 + c.toNat % 16 = c.toNat := by omega
    rw [hnumber] at hunit
    exact .unit hunit
  · exact .plain (Nat.le_of_not_lt hcontrol) hquote hslash

/-- What is written for a text is a string. -/
theorem stringWritten_quote (value : String) : StringWritten value (quote value.toList) := by
  have hcontent : ∀ content : List Char, ContentWritten content (content.flatMap escapeChar) := by
    intro content
    induction content with
    | nil => exact .nil
    | cons c content ih => exact .cons (charWritten_escapeChar c) ih
  exact .mk (hcontent value.toList)

/-! ## Values -/

/-- Nothing is blank. -/
theorem blank_nil : Blank [] := nofun

/-- A blank is blank. -/
theorem blank_space : Blank [' '] := by simp [Blank]

/-- A line end with its indentation is blank. -/
theorem blank_newLine (level : Nat) : Blank (newLine level) := by
  intro c hc
  rcases List.mem_cons.1 hc with rfl | hc
  · decide
  · rw [List.eq_of_mem_replicate hc]
    decide

/-- A name between quotes, a colon, a blank and a value are a member. -/
theorem memberWritten_quote (name : String) {value : Json} {text : List Char} (h : Written value text) :
    MemberWritten (name, value) (quote name.toList ++ ([] ++ ':' :: ([' '] ++ text))) :=
  .mk (stringWritten_quote name) blank_nil blank_space h

-- Items and members are printed up to the new line in front of the bracket behind them, which is indented less.
mutual

/-- What is printed for a value at any level writes it. -/
theorem written_prettyAt : ∀ (level : Nat) (value : Json), Written value (prettyAt level value)
  | _, .null => .null
  | _, .bool true => .boolTrue
  | _, .bool false => .boolFalse
  | _, .str value => .str (stringWritten_quote value)
  -- The printer keeps empty arrays and objects on one line; members of others are indented one level more.
  | _, .arr [] => .arrNil blank_nil
  | level, .arr (item :: items) => by
    have hwritten := Written.arrCons (blank_newLine (level + 1)) (written_prettyAt (level + 1) item)
      (written_prettyItems (level + 1) level items)
    simpa [prettyAt] using hwritten
  | _, .obj [] => .objNil blank_nil
  | level, .obj ((name, value) :: members) => by
    have hmember := memberWritten_quote name (written_prettyAt (level + 1) value)
    have hwritten := Written.objCons (blank_newLine (level + 1)) hmember
      (written_prettyMembers (level + 1) level members)
    simpa [prettyAt] using hwritten

/-- What is printed for the items of an array writes them. -/
theorem written_prettyItems : ∀ (level outer : Nat) (items : List Json),
    ItemsWritten items (prettyItems level items ++ newLine outer)
  | _, outer, [] => .nil (blank_newLine outer)
  | level, outer, item :: items => by
    have hwritten := ItemsWritten.cons blank_nil (blank_newLine level) (written_prettyAt level item)
      (written_prettyItems level outer items)
    simpa [prettyItems] using hwritten

/-- What is printed for the members of an object writes them. -/
theorem written_prettyMembers : ∀ (level outer : Nat) (members : List (String × Json)),
    MembersWritten members (prettyMembers level members ++ newLine outer)
  | _, outer, [] => .nil (blank_newLine outer)
  | level, outer, (name, value) :: members => by
    have hmember := memberWritten_quote name (written_prettyAt level value)
    have hwritten := MembersWritten.cons blank_nil (blank_newLine level) hmember
      (written_prettyMembers level outer members)
    simpa [prettyMembers] using hwritten

end

/-- The printed text of a value writes it. -/
theorem written_pretty (value : Json) : Written value value.pretty.toList := by
  rw [pretty, String.toList_ofList]
  exact written_prettyAt 0 value

end DotLang.Json
