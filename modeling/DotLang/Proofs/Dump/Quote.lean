import DotLang.Dump.Basic
import DotLang.Proofs.Token.Valid
import Mathlib.Tactic.SplitIfs

/-!
# Reading quoted text in dumps

Quoted text shows which characters it stands for, and where it ends (`quote_append_inj`). A character that is
written as it is is neither a quote nor a backslash, an escape is told by its letter, and a code point ends at the
first brace.
-/

namespace DotLang.Dump

variable {c c' : Char} {piece piece' rest rest' : List Char}

/-! ## Code points -/

/-- The last hexadecimal digit of a number, behind those that the number has in front of it. -/
theorem toDigits_eq (n : Nat) : Nat.toDigits 16 n =
    (if n < 16 then [] else Nat.toDigits 16 (n / 16)) ++ [(n % 16).digitChar] := by
  split
  next h => rw [Nat.toDigits_of_lt_base h, Nat.mod_eq_of_lt h, List.nil_append]
  next h => exact Nat.toDigits_of_base_le (by decide) (Nat.le_of_not_lt h)

/-- Different numbers have different hexadecimal digits. -/
theorem toDigits_inj {m n : Nat} (h : Nat.toDigits 16 m = Nat.toDigits 16 n) : m = n := by
  -- Numbers lose their last digit from step to step, so the induction is on the number itself.
  induction m using Nat.strongRecOn generalizing n
  rename_i m ih
  rw [toDigits_eq m, toDigits_eq n] at h
  obtain ⟨hfront, hlast⟩ := List.append_inj' h rfl
  have hdigit : ∀ i < 16, ∀ j < 16, i.digitChar = j.digitChar → i = j := by decide
  have hmod := hdigit _ (Nat.mod_lt m (by decide)) _ (Nat.mod_lt n (by decide)) (List.singleton_inj.1 hlast)
  split_ifs at hfront with hm hn hn
  · omega
  -- Where one number has a single digit and the other has more, one list is empty and the other is not.
  · exact absurd hfront.symm Nat.toDigits_ne_nil
  · exact absurd hfront Nat.toDigits_ne_nil
  · have hdiv := ih (m / 16) (by omega) hfront
    omega

/-- A hexadecimal digit is no closing brace. -/
theorem ne_of_mem_toDigits {n : Nat} (hc : c ∈ Nat.toDigits 16 n) : c ≠ '}' := by
  induction n using Nat.strongRecOn
  rename_i n ih
  rw [toDigits_eq, List.mem_append] at hc
  rcases hc with hc | hc
  · split at hc
    · cases hc
    · exact ih (n / 16) (by omega) hc
  · have hdigit : ∀ i < 16, i.digitChar ≠ '}' := by decide
    obtain rfl := List.mem_singleton.1 hc
    exact hdigit _ (Nat.mod_lt n (by decide))

/-! ## Characters -/

/-- The escapes of one letter: the letter and the character that it stands for. -/
def letters : List (Char × Char) :=
  [('0', '\x00'), ('t', '\t'), ('r', '\r'), ('n', '\n'), ('"', '"'), ('\\', '\\')]

/-- The ways to write a character between quotes. -/
inductive Shown : Char → List Char → Prop where
  /-- The character itself, unless it is a quote or a backslash. -/
  | plain {c : Char} : c ≠ '"' → c ≠ '\\' → Shown c [c]
  /-- An escape of one letter. -/
  | letter {letter c : Char} : (letter, c) ∈ letters → Shown c ['\\', letter]
  /-- The code point of the character. -/
  | codePoint (c : Char) : Shown c (codePoint c)

/-- What is written for a character is one of the ways to show it. -/
theorem shown_escapeChar (c : Char) : Shown c (escapeChar c) := by
  have hletter {letter d : Char} (h : c = d) (hd : (letter, d) ∈ letters) : Shown c ['\\', letter] :=
    .letter (h ▸ hd)
  refine iteInduction (fun h => hletter h (by decide)) fun _ => ?_
  refine iteInduction (fun h => hletter h (by decide)) fun _ => ?_
  refine iteInduction (fun h => hletter h (by decide)) fun _ => ?_
  refine iteInduction (fun h => hletter h (by decide)) fun _ => ?_
  refine iteInduction (fun h => hletter h (by decide)) fun hquote => ?_
  refine iteInduction (fun h => hletter h (by decide)) fun hslash => ?_
  -- What is left is written as it is or as a code point, and is neither a quote nor a backslash.
  refine iteInduction (fun _ => ?_) fun _ => ?_
  · exact iteInduction (fun _ => .codePoint c) fun _ => .plain hquote hslash
  · exact iteInduction (fun _ => .codePoint c) fun _ => .plain hquote hslash

/-- A code point tells its character and where it ends. -/
theorem codePoint_append_inj (h : codePoint c ++ rest = codePoint c' ++ rest') : c = c' ∧ rest = rest' := by
  simp only [codePoint, List.append_assoc] at h
  replace h := List.append_cancel_left h
  -- Both sides are cut at their first brace, which is no digit.
  have hsplit (c : Char) (rest : List Char) := @Token.takeWhile_of_all (Nat.toDigits 16 c.toNat)
    ('}' :: rest) (· != '}') (fun d hd => by simpa using ne_of_mem_toDigits hd) (by simp)
  obtain ⟨htake, hdrop⟩ := hsplit c rest
  obtain ⟨htake', hdrop'⟩ := hsplit c' rest'
  rw [List.singleton_append, List.singleton_append] at h
  have hdigits := htake.symm.trans ((congrArg _ h).trans htake')
  have hbehind := hdrop.symm.trans ((congrArg _ h).trans hdrop')
  exact ⟨Char.toNat_inj.1 (toDigits_inj hdigits), (List.cons.inj hbehind).2⟩

/-- What is written for a character tells the character and where it ends. -/
theorem Shown.append_inj (h : Shown c piece) (h' : Shown c' piece')
    (heq : piece ++ rest = piece' ++ rest') : c = c' ∧ rest = rest' := by
  -- Different escaped characters have different letters, and none of these begins a code point.
  have hletters : ∀ first ∈ letters, ∀ second ∈ letters, first.1 = second.1 → first.2 = second.2 := by decide
  have hmark : ∀ first ∈ letters, first.1 ≠ 'u' := by decide
  -- The two pieces are shown in the same way, since they begin alike.
  cases h with
  | plain hquote hslash =>
    cases h' with
    | plain => exact List.cons.inj heq
    | letter | codePoint => exact absurd (List.cons.inj heq).1 hslash
  | @letter letter _ hletter =>
    cases h' with
    | plain _ hslash => exact absurd (List.cons.inj heq).1.symm hslash
    | letter hletter' =>
      obtain ⟨hsame, hrest⟩ := List.cons.inj (List.cons.inj heq).2
      exact ⟨hletters _ hletter _ hletter' hsame, hrest⟩
    | codePoint => exact absurd (List.cons.inj (List.cons.inj heq).2).1 (hmark _ hletter)
  | codePoint =>
    cases h' with
    | plain _ hslash => exact absurd (List.cons.inj heq).1.symm hslash
    | letter hletter => exact absurd (List.cons.inj (List.cons.inj heq).2).1.symm (hmark _ hletter)
    | codePoint => exact codePoint_append_inj heq

/-- No character is written in a way that begins with a quote. -/
theorem Shown.ne_quote (h : Shown c piece) : piece ++ rest ≠ '"' :: rest' := by
  intro heq
  cases h with
  | plain hquote => exact hquote (List.cons.inj heq).1
  | letter | codePoint => exact absurd (List.cons.inj heq).1 (by decide)

/-! ## Texts -/

/-- Quoted text tells the text and where it ends. -/
theorem quote_append_inj {text text' : List Char} (h : quote text ++ rest = quote text' ++ rest') :
    text = text' ∧ rest = rest' := by
  simp only [quote, List.cons_append, List.append_assoc, List.nil_append, List.cons.injEq, true_and] at h
  -- Character by character: the quote at the end of one text does not begin a character of the other.
  induction text generalizing text' with
  | nil =>
    cases text' with
    | nil => exact ⟨rfl, (List.cons.inj h).2⟩
    | cons c' text' =>
      rw [List.flatMap_cons, List.append_assoc] at h
      exact absurd h.symm (shown_escapeChar c').ne_quote
  | cons c text ih =>
    rw [List.flatMap_cons, List.append_assoc] at h
    cases text' with
    | nil => exact absurd h (shown_escapeChar c).ne_quote
    | cons c' text' =>
      rw [List.flatMap_cons, List.append_assoc] at h
      obtain ⟨rfl, hmore⟩ := (shown_escapeChar c).append_inj (shown_escapeChar c') h
      obtain ⟨rfl, hrest⟩ := ih hmore
      exact ⟨rfl, hrest⟩

end DotLang.Dump
