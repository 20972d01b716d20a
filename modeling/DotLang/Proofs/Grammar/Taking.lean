import DotLang.Proofs.Grammar.Terminal
import DotLang.Proofs.Grammar.Spelling

/-!
# Reading by tokens

What the tokens ahead are decides what an expression of the grammar finds. `Reads` says that an
expression reads some tokens and leaves others, and `Rejects` that it finds nothing; for each form of
expression there are rules by which such facts are put together. Places in the text and layout no longer
occur in them.
-/

namespace DotLang.Grammar

open Peg Token

/-- Where these tokens are ahead, the expression finds something and leaves the others. -/
def Reads (e : Expr Rule) (tokens rest : List Token) : Prop :=
  ∀ cursor : Cursor, Settled cursor.rest → lex cursor.rest = some tokens →
    ∃ found, find e .spaced cursor = some found ∧ lex found.next.rest = some rest

/-- Where these tokens are ahead, the expression finds nothing. -/
def Rejects (e : Expr Rule) (tokens : List Token) : Prop :=
  ∀ cursor : Cursor, Settled cursor.rest → lex cursor.rest = some tokens → find e .spaced cursor = none

variable {e first second : Expr Rule} {rule : Rule} {tokens middle rest : List Token} {token : Token}

/-! ## Expressions -/

/-- A sequence is read if its members are, one behind the other. -/
theorem Reads.seq (h : Reads first tokens middle) (h' : Reads second middle rest) :
    Reads (.seq first second) tokens rest := by
  intro cursor hcursor hlex
  obtain ⟨found, hfound, hmiddle⟩ := h cursor hcursor hlex
  obtain ⟨later, hlater, hrest⟩ :=
    h' (gap found.next).next (settled_gap _) ((lex_gap _).trans hmiddle)
  refine ⟨found.append ((gap found.next).append later), ?_, hrest⟩
  rw [find_seq, hfound, Option.bind_some, hlater, Option.map_some]

/-- A sequence is rejected where its first member is. -/
theorem Rejects.seq_left (h : Rejects first tokens) : Rejects (.seq first second) tokens := by
  intro cursor hcursor hlex
  rw [find_seq, h cursor hcursor hlex, Option.bind_none]

/-- A sequence is rejected where its second member is, behind the first. -/
theorem Rejects.seq_right (h : Reads first tokens middle) (h' : Rejects second middle) :
    Rejects (.seq first second) tokens := by
  intro cursor hcursor hlex
  obtain ⟨found, hfound, hmiddle⟩ := h cursor hcursor hlex
  rw [find_seq, hfound, Option.bind_some,
    h' (gap found.next).next (settled_gap _) ((lex_gap _).trans hmiddle), Option.map_none]

/-- A choice is read if its first alternative is. -/
theorem Reads.alt_left (h : Reads first tokens rest) : Reads (.alt first second) tokens rest := by
  intro cursor hcursor hlex
  obtain ⟨found, hfound, hrest⟩ := h cursor hcursor hlex
  exact ⟨found, by rw [find_alt, hfound, Option.some_or], hrest⟩

/-- A choice is read if its second alternative is and the first one is rejected. -/
theorem Reads.alt_right (h : Rejects first tokens) (h' : Reads second tokens rest) :
    Reads (.alt first second) tokens rest := by
  intro cursor hcursor hlex
  obtain ⟨found, hfound, hrest⟩ := h' cursor hcursor hlex
  exact ⟨found, by rw [find_alt, h cursor hcursor hlex, hfound, Option.none_or], hrest⟩

/-- A choice is rejected where both of its alternatives are. -/
theorem Rejects.alt (h : Rejects first tokens) (h' : Rejects second tokens) :
    Rejects (.alt first second) tokens := by
  intro cursor hcursor hlex
  rw [find_alt, h cursor hcursor hlex, h' cursor hcursor hlex, Option.none_or]

/-- What may be missing is read if it is there. -/
theorem Reads.opt (h : Reads e tokens rest) : Reads (.opt e) tokens rest := by
  intro cursor hcursor hlex
  obtain ⟨found, hfound, hrest⟩ := h cursor hcursor hlex
  exact ⟨found, by rw [find_opt, hfound, Option.getD_some], hrest⟩

/-- What may be missing leaves the tokens as they are if it is not there. -/
theorem Reads.opt_nil (h : Rejects e tokens) : Reads (.opt e) tokens tokens := by
  intro cursor hcursor hlex
  exact ⟨.empty cursor, by rw [find_opt, h cursor hcursor hlex, Option.getD_none], hlex⟩

/-- A repetition leaves the tokens as they are where its body is rejected. -/
theorem Reads.star_nil (h : Rejects e tokens) : Reads (.star e) tokens tokens := by
  intro cursor hcursor hlex
  exact ⟨.empty cursor, by rw [find_star, h cursor hcursor hlex], hlex⟩

/-- Rounds behind some text read what the repetition reads where the layout is skipped. -/
theorem findRounds_of_star (he : e.mayBeEmpty Rule.mayBeEmpty = false) {place : Cursor} {found : Match Rule}
    (h : find (.star e) .spaced (gap place).next = some found) (hrest : lex found.next.rest = some rest) :
    ∃ later, findRounds e .spaced place = some later ∧ lex later.next.rest = some rest ∧
      later.trees = found.trees := by
  -- A round begins with layout, which the repetition behind it has skipped already.
  have hround : (round e .spaced place).found =
      (find e .spaced (gap place).next).map (gap place).append := round_found e
  rw [findRounds_eq he, hround]
  rw [find_star] at h
  rcases hfirst : find e .spaced (gap place).next with _ | first
  · obtain rfl : Match.empty (gap place).next = found := by simpa [hfirst] using h
    exact ⟨.empty place, rfl, (lex_gap place).symm.trans hrest, rfl⟩
  · rw [hfirst] at h
    obtain ⟨later, hlater, rfl⟩ := Option.map_eq_some_iff.1 h
    exact ⟨((gap place).append first).append later, by simp [hlater], hrest, by simp⟩

/-- A repetition is read if its body is, and the repetition behind it. -/
theorem Reads.star (he : e.mayBeEmpty Rule.mayBeEmpty = false) (h : Reads e tokens middle)
    (h' : Reads (.star e) middle rest) : Reads (.star e) tokens rest := by
  intro cursor hcursor hlex
  obtain ⟨found, hfound, hmiddle⟩ := h cursor hcursor hlex
  -- The rest is read from behind the gap, where the next round begins.
  obtain ⟨more, hmore, hrest⟩ :=
    h' (gap found.next).next (settled_gap _) ((lex_gap _).trans hmiddle)
  obtain ⟨later, hlater, hrest, -⟩ := findRounds_of_star he hmore hrest
  refine ⟨found.append later, ?_, hrest⟩
  rw [find_star, hfound]
  simp [hlater]

/-! ## Rules -/

/-- A rule is read if its body is. -/
theorem Reads.call (hrule : rule.isNonterminal = true) (h : Reads (production rule).body tokens rest) :
    Reads (.call rule) tokens rest := by
  intro cursor hcursor hlex
  obtain ⟨found, hfound, hrest⟩ := h cursor hcursor hlex
  rcases kind_of_isNonterminal hrule with hkind | hkind
  · exact ⟨found.asTree rule cursor, by rw [find_branch hkind (by decide), hfound, Option.map_some], hrest⟩
  · exact ⟨found, by rw [find_silent hkind, hfound], hrest⟩

/-- A rule is rejected where its body is. -/
theorem Rejects.call (hrule : rule.isNonterminal = true) (h : Rejects (production rule).body tokens) :
    Rejects (.call rule) tokens := by
  intro cursor hcursor hlex
  rcases kind_of_isNonterminal hrule with hkind | hkind
  · rw [find_branch hkind (by decide), h cursor hcursor hlex, Option.map_none]
  · rw [find_silent hkind, h cursor hcursor hlex]

/-- A terminal is read at a token that it accepts. -/
theorem reads_terminal (hrule : rule.isTerminal = true) (h : rule.accepts token = true) :
    Reads (.call rule) (token :: rest) rest := by
  intro cursor hcursor hlex
  obtain ⟨left, htake, hrest⟩ := take?_of_lex hcursor hlex
  exact ⟨_, (find_terminal hrule cursor.offset cursor.rest _).2 ⟨token, left, htake, h, rfl⟩, hrest⟩

/-- A mark is read at its token. -/
theorem reads_mark {c : Char} (hc : c ∈ marks) : Reads (mark c) (.mark c :: rest) rest := by
  intro cursor hcursor hlex
  obtain ⟨left, htake, hrest⟩ := take?_of_lex hcursor hlex
  exact ⟨_, (find_mark hc).2 ⟨left, htake, rfl⟩, hrest⟩

/-- The first of the tokens ahead is the one that the lexer takes. -/
theorem head?_eq_of_take? {cs left : List Char} (hcs : Settled cs) (hlex : lex cs = some tokens)
    (htake : take? cs = some (token, left)) : tokens.head? = some token := by
  rw [lex_of_take? hcs htake, Option.map_eq_some_iff] at hlex
  obtain ⟨later, -, rfl⟩ := hlex
  rfl

/-- A terminal is rejected at a token that it does not accept, and at the end. -/
theorem rejects_terminal (hrule : rule.isTerminal = true)
    (h : ∀ token ∈ tokens.head?, rule.accepts token = false) : Rejects (.call rule) tokens := by
  intro cursor hcursor hlex
  rw [Option.eq_none_iff_forall_ne_some]
  intro found hfound
  obtain ⟨token, left, htake, haccept, -⟩ :=
    (find_terminal hrule cursor.offset cursor.rest found).1 hfound
  have hfalse := h token (head?_eq_of_take? hcursor hlex htake)
  rw [haccept] at hfalse
  exact Bool.noConfusion hfalse

/-- A mark is rejected at every other token, and at the end. -/
theorem rejects_mark {c : Char} (hc : c ∈ marks) (h : tokens.head? ≠ some (.mark c)) :
    Rejects (mark c) tokens := by
  intro cursor hcursor hlex
  rw [Option.eq_none_iff_forall_ne_some]
  intro found hfound
  have hmark : find (mark c) .spaced ⟨cursor.offset, cursor.rest⟩ = some found := hfound
  obtain ⟨left, htake, -⟩ := (find_mark hc).1 hmark
  exact h (head?_eq_of_take? hcursor hlex htake)

end DotLang.Grammar
