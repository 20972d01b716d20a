import DotLang.Proofs.Token.Lex
import DotLang.Text.Lexeme

/-!
# The content of quoted strings

The condition on the content of a quoted string is about runs of backslashes. Read from left to right, it
says that the character behind a backslash, which goes with it, is no quote (`Paired`). Such content is
what can be written between quotes and is read from there again (`Quoted.takeQuoted_escape`), and nothing
else is read (`Quoted.paired_of_takeQuoted`).
-/

namespace DotLang.Text

/-- Content in which no backslash goes with a quote: a backslash goes with the character behind it, unless
it goes with the one before. -/
inductive Paired : List Char → Prop where
  | nil : Paired []
  | pair {c : Char} {cs : List Char} : c ≠ '"' → Paired cs → Paired ('\\' :: c :: cs)
  | single {c : Char} {cs : List Char} : c ≠ '\\' → Paired cs → Paired (c :: cs)

/-- Two paired texts, one behind the other, are paired. -/
theorem Paired.append {content content' : List Char} (h : Paired content) (h' : Paired content') :
    Paired (content ++ content') := by
  induction h with
  | nil => exact h'
  | pair hc _ ih => exact .pair hc ih
  | single hc _ ih => exact .single hc ih

/-- What stands behind a character other than a backslash in a paired text is paired. -/
theorem Paired.tail {c : Char} {cs : List Char} (h : Paired (c :: cs)) (hc : c ≠ '\\') : Paired cs := by
  cases h with
  | pair => exact absurd rfl hc
  | single _ h => exact h

/-- A run of backslashes at the start of content whose first character is none is empty. -/
theorem eq_nil_of_run {c : Char} {cs run after : List Char} (hc : c ≠ '\\') (h : c :: cs = run ++ after)
    (hrun : ∀ d ∈ run, d = '\\') : run = [] := by
  rcases run with _ | ⟨d, run⟩
  · rfl
  · obtain ⟨rfl, -⟩ := List.cons.inj h
    exact absurd (hrun c List.mem_cons_self) hc

/-- No content can be written between quotes. -/
theorem isQuotable_nil : IsQuotable [] := by
  intro before run after h _ _ _ hodd
  obtain ⟨hfront, -⟩ := List.append_eq_nil_iff.1 h.symm
  obtain ⟨-, rfl⟩ := List.append_eq_nil_iff.1 hfront
  simp at hodd

/-- A run of backslashes in content that begins with another character is one of the rest. -/
theorem IsQuotable.single {c : Char} {cs : List Char} (hc : c ≠ '\\') (h : IsQuotable cs) :
    IsQuotable (c :: cs) := by
  intro before run after heq hrun hbefore hafter hodd
  rcases before with _ | ⟨d, before⟩
  · obtain rfl := eq_nil_of_run hc heq hrun
    simp at hodd
  · obtain ⟨rfl, rfl⟩ := List.cons.inj heq
    refine h before run after rfl hrun (fun hlast => hbefore ?_) hafter hodd
    simp [List.getLast?_cons, hlast]

/-- A run of backslashes that begins with a pair has the pair only, or it is one of the rest and two
longer. -/
theorem IsQuotable.pair {c : Char} {cs : List Char} (hc : c ≠ '"') (h : IsQuotable cs) :
    IsQuotable ('\\' :: c :: cs) := by
  intro before run after heq hrun hbefore hafter hodd
  rcases before with _ | ⟨d, before⟩
  · -- The run begins with the pair.
    rcases run with _ | ⟨e, run⟩
    · simp at hodd
    obtain ⟨rfl, htail⟩ := List.cons.inj heq
    by_cases hslash : c = '\\'
    · -- The run goes on behind the pair, and is odd behind it as well.
      rcases run with _ | ⟨e, run⟩
      · obtain rfl : c :: cs = after := htail
        simp [hslash] at hafter
      · obtain ⟨rfl, hmore⟩ := List.cons.inj htail
        refine h [] run after hmore (fun d hd => hrun d (by simp [hd])) (by simp) hafter ?_
        simp only [List.length_cons] at hodd
        omega
    · obtain rfl := eq_nil_of_run hslash htail fun d hd => hrun d (List.mem_cons_of_mem _ hd)
      exact ⟨c, cs, htail.symm, hc⟩
  · -- The run begins behind the first backslash, hence behind the pair.
    obtain ⟨rfl, htail⟩ := List.cons.inj heq
    rcases before with _ | ⟨e, before⟩
    · simp at hbefore
    obtain ⟨rfl, rfl⟩ := List.cons.inj htail
    refine h before run after rfl hrun (fun hlast => hbefore ?_) hafter hodd
    simp [List.getLast?_cons, hlast]

/-- A paired text can be quoted. -/
theorem Paired.isQuotable {content : List Char} (h : Paired content) : IsQuotable content := by
  induction h with
  | nil => exact isQuotable_nil
  | pair hc _ ih => exact ih.pair hc
  | single hc _ ih => exact ih.single hc

/-- What stands behind a character other than a backslash can be quoted as well. -/
theorem IsQuotable.tail {c : Char} {cs : List Char} (h : IsQuotable (c :: cs)) (hc : c ≠ '\\') :
    IsQuotable cs := by
  intro before run after heq hrun hbefore hafter hodd
  refine h (c :: before) run after (by rw [heq]; rfl) hrun ?_ hafter hodd
  rcases before with _ | ⟨d, before⟩
  · simpa using hc
  · simpa [List.getLast?_cons] using hbefore

/-- What stands behind two backslashes can be quoted as well. -/
theorem IsQuotable.tail_pair {c : Char} {cs : List Char} (h : IsQuotable ('\\' :: c :: cs)) :
    IsQuotable cs := by
  intro before run after heq hrun hbefore hafter hodd
  by_cases hfront : before = [] ∧ c = '\\'
  · -- The run behind a pair of backslashes is part of a longer one.
    obtain ⟨rfl, rfl⟩ := hfront
    refine h [] ('\\' :: '\\' :: run) after (by rw [heq]; rfl) (by simpa using hrun) (by simp) hafter ?_
    simp only [List.length_cons]
    omega
  · refine h ('\\' :: c :: before) run after (by rw [heq]; rfl) hrun ?_ hafter hodd
    rcases before with _ | ⟨d, before⟩
    · simpa using hfront
    · simpa [List.getLast?_cons] using hbefore

/-- A text that can be quoted is paired. -/
theorem IsQuotable.paired : ∀ {content : List Char}, IsQuotable content → Paired content
  | [], _ => .nil
  | [c], h => by
    refine .single ?_ .nil
    rintro rfl
    -- A lone backslash at the end is an odd run with nothing behind it.
    obtain ⟨_, _, hnone, -⟩ := h [] ['\\'] [] rfl (by simp) (by simp) (by simp) (by simp)
    cases hnone
  | c :: d :: cs, h => by
    by_cases hc : c = '\\'
    · subst hc
      refine .pair ?_ h.tail_pair.paired
      rintro rfl
      -- And one before a quote is an odd run with a quote behind it.
      obtain ⟨_, _, hquote, hne⟩ := h [] ['\\'] ('"' :: cs) rfl (by simp) (by simp) (by simp) (by simp)
      exact hne (List.cons.inj hquote).1.symm
    · exact .single hc (h.tail hc).paired

namespace Quoted

/-- A character other than a quote is written as it is. -/
theorem escape_cons_of_ne {c : Char} (hc : c ≠ '"') (cs : List Char) : escape (c :: cs) = c :: escape cs := by
  rw [escape, if_neg hc]

/-- What is written for content says that content. -/
theorem unescape_escape {value : List Char} (h : Paired value) : unescape (escape value) = value := by
  induction h with
  | nil => rfl
  | @pair c cs hc _ ih =>
    rw [escape_cons_of_ne (by decide), escape_cons_of_ne hc, unescape_pair hc, ih]
  | @single c cs hc _ ih =>
    by_cases hquote : c = '"'
    · subst hquote
      rw [escape, if_pos rfl, unescape, ih]
    · rw [escape_cons_of_ne hquote, unescape_cons_of_ne hc, ih]

open Token

/-- A character that is neither a quote nor a backslash is taken alone. -/
theorem takeQuoted_cons_of_ne {c : Char} (hquote : c ≠ '"') (hslash : c ≠ '\\') (cs : List Char) :
    takeQuoted (c :: cs) = (takeQuoted cs).map fun (content, rest) => (c :: content, rest) :=
  takeQuoted_cons hquote (fun _ h => absurd h hslash) (fun _ h => absurd h hslash)

/-- A backslash before any character but a quote and a backslash is taken, and so is that character. -/
theorem takeQuoted_slash {c : Char} (hquote : c ≠ '"') (hslash : c ≠ '\\') (cs : List Char) :
    takeQuoted ('\\' :: c :: cs) =
      (takeQuoted cs).map fun (content, rest) => ('\\' :: c :: content, rest) := by
  rw [takeQuoted_cons (by decide) (by simp [hslash]) (by simp [hquote]),
    takeQuoted_cons_of_ne hquote hslash, Option.map_map]
  rfl

/-- What is written for content is read up to the quote behind it. -/
theorem takeQuoted_escape {value : List Char} (h : Paired value) (rest : List Char) :
    takeQuoted (escape value ++ '"' :: rest) = some (escape value, rest) := by
  induction h with
  | nil => rfl
  | @pair c cs hc _ ih =>
    rw [escape_cons_of_ne (by decide), escape_cons_of_ne hc, List.cons_append, List.cons_append]
    -- A pair of backslashes is a case of its own; of any other pair each character is taken for itself.
    by_cases hslash : c = '\\'
    · subst hslash
      rw [takeQuoted, ih]
      rfl
    · rw [takeQuoted_slash hc hslash, ih]
      rfl
  | @single c cs hc _ ih =>
    by_cases hquote : c = '"'
    · subst hquote
      rw [escape, if_pos rfl, List.cons_append, List.cons_append, takeQuoted, ih]
      rfl
    · rw [escape_cons_of_ne hquote, List.cons_append, takeQuoted_cons_of_ne hquote hc, ih]
      rfl

/-- Content for which a character other than a backslash is written first begins with that character. -/
theorem eq_cons_of_escape {d : Char} (hd : d ≠ '\\') {value more : List Char}
    (h : d :: more = escape value) : ∃ tail, value = d :: tail := by
  rcases value with _ | ⟨e, value⟩
  · cases h
  · by_cases he : e = '"'
    · rw [escape, if_pos he] at h
      exact absurd (List.cons.inj h).1 hd
    · rw [escape_cons_of_ne he] at h
      exact ⟨value, by rw [(List.cons.inj h).1]⟩

/-- What is read between quotes is what is written for some content. -/
theorem paired_of_takeQuoted {cs content rest : List Char} (h : takeQuoted cs = some (content, rest)) :
    ∃ value, Paired value ∧ content = escape value := by
  fun_induction takeQuoted cs generalizing content with
  | case1 => cases h
  | case2 cs =>
    cases h
    exact ⟨[], .nil, rfl⟩
  -- A pair of backslashes is in the value as it is written; an escaped quote is a quote there.
  | case3 cs ih =>
    simp only [Option.map_eq_some_iff, Prod.exists, Prod.mk.injEq] at h
    obtain ⟨content, rest, hmore, rfl, rfl⟩ := h
    obtain ⟨value, hvalue, rfl⟩ := ih hmore
    exact ⟨'\\' :: '\\' :: value, .pair (by decide) hvalue, rfl⟩
  | case4 cs ih =>
    simp only [Option.map_eq_some_iff, Prod.exists, Prod.mk.injEq] at h
    obtain ⟨content, rest, hmore, rfl, rfl⟩ := h
    obtain ⟨value, hvalue, rfl⟩ := ih hmore
    exact ⟨'"' :: value, .single (by decide) hvalue, rfl⟩
  | case5 c cs hquote hpair hescaped ih =>
    simp only [Option.map_eq_some_iff, Prod.exists, Prod.mk.injEq] at h
    obtain ⟨content, rest, hmore, rfl, rfl⟩ := h
    obtain ⟨value, hvalue, rfl⟩ := ih hmore
    by_cases hslash : c = '\\'
    · -- The character behind the backslash goes with it, so it is not the start of a pair.
      subst hslash
      rcases cs with _ | ⟨d, cs⟩
      · cases hmore
      have hd : d ≠ '"' := fun hd => hescaped cs rfl (hd ▸ rfl)
      have hd' : d ≠ '\\' := fun hd => hpair cs rfl (hd ▸ rfl)
      rw [takeQuoted_cons_of_ne hd hd'] at hmore
      simp only [Option.map_eq_some_iff, Prod.exists, Prod.mk.injEq] at hmore
      obtain ⟨more, _, -, hvalueEq, -⟩ := hmore
      obtain ⟨value, rfl⟩ := eq_cons_of_escape hd' hvalueEq
      exact ⟨'\\' :: d :: value, .pair hd (hvalue.tail hd'),
        (escape_cons_of_ne (by decide) (d :: value)).symm⟩
    · exact ⟨c :: value, .single hslash hvalue, (escape_cons_of_ne hquote value).symm⟩

end Quoted

end DotLang.Text
