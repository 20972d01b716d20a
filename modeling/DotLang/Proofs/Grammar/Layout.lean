import DotLang.Proofs.Grammar.Lexical
import DotLang.Proofs.Token.Layout

/-!
# Layout

The layout that the grammar skips between the members of a sequence is the one that the lexer drops
(`behind_gap`). They differ at a comment that is not closed: the lexer gives up there, and the grammar
stops in front of it, where no token can be read. What is left is settled: there is no layout at its
start that could be skipped (`settled_gap`, `gap_of_settled`).
-/

namespace DotLang.Grammar

open Peg Token

/-! ## Comments -/

/-- The text up to the first end of a block comment, and the text from there on. -/
def splitBlock : List Char → List Char × List Char
  | [] => ([], [])
  | '*' :: '/' :: cs => ([], '*' :: '/' :: cs)
  | c :: cs => (c :: (splitBlock cs).1, (splitBlock cs).2)

/-- A block comment is dropped up to its first closing sign. -/
theorem dropBlock_eq (cs : List Char) :
    dropBlock cs =
      match (splitBlock cs).2 with
      | _ :: _ :: rest => dropLayout rest
      | _ => none := by
  fun_induction splitBlock cs with
  | case1 => rfl
  | case2 cs => rfl
  | case3 c cs hclose ih => rw [dropBlock_cons hclose, ih]

/-- The two parts of the text make up the text. -/
theorem splitBlock_append (cs : List Char) : (splitBlock cs).1 ++ (splitBlock cs).2 = cs := by
  fun_induction splitBlock cs <;> simp_all

/-- The second part begins with the closing sign, if there is one. -/
theorem splitBlock_rest (cs : List Char) :
    (splitBlock cs).2 = [] ∨ ∃ rest, (splitBlock cs).2 = '*' :: '/' :: rest := by
  fun_induction splitBlock cs with
  | case1 => exact .inl rfl
  | case2 cs => exact .inr ⟨cs, rfl⟩
  | case3 c cs hclose ih => exact ih

/-- There is no closing sign in the first part. -/
theorem splitBlock_endless (cs : List Char) : ¬['*', '/'] <:+: (splitBlock cs).1 := by
  fun_induction splitBlock cs with
  | case1 | case2 => simp
  | case3 c cs hclose ih =>
    refine @not_infix_cons _ [] c ih fun tail hc hstart => ?_
    -- A solidus behind this asterisk would be one of the text, and end the comment here.
    have happend := splitBlock_append cs
    rcases hbody : (splitBlock cs).1 with _ | ⟨d, body⟩
    · rw [hbody] at hstart
      cases hstart
    · rw [hbody] at hstart happend
      obtain ⟨rfl, -⟩ := List.cons.inj hstart
      exact hclose _ hc happend.symm

/-- Whether a text begins with no layout that could be skipped: with none, or with a block comment that is
not closed. -/
def Settled (cs : List Char) : Prop :=
  dropLayout cs = some cs ∨ ∃ tail, cs = '/' :: '*' :: tail ∧ (splitBlock tail).2 = []

variable {mode : Mode} {offset : Nat}

/-- What stands up to a closing sign is the first part. -/
theorem find_upTo_block (hmode : mode ≠ .spaced) (cs : List Char) :
    find (upTo (.literal ['*', '/'])) mode ⟨offset, cs⟩ =
      some (piece offset (splitBlock cs).1 (splitBlock cs).2) := by
  fun_induction splitBlock cs generalizing offset with
  | case1 =>
    rw [upTo, find_star_tight hmode (by decide), find_seq_tight hmode, find_not,
      find_literal_eq_none (by simp)]
    rfl
  | case2 cs =>
    have hstop : find (.literal ['*', '/']) mode ⟨offset, '*' :: '/' :: cs⟩ =
        some (piece offset ['*', '/'] cs) := find_literal_append ['*', '/'] cs
    rw [upTo, find_star_tight hmode (by decide), find_seq_tight hmode, find_not, hstop]
    rfl
  | case3 c cs hclose ih =>
    -- One character is read here, and the repetition goes on behind it.
    have hstop : find (.literal ['*', '/']) mode ⟨offset, c :: cs⟩ = none := by
      refine find_literal_eq_none fun rest h => ?_
      simp only [List.cons_append, List.nil_append, List.cons.injEq] at h
      exact hclose rest h.1 h.2
    rw [upTo, anyChar] at ih ⊢
    rw [find_star_tight hmode (by decide), find_seq_tight hmode, find_not, hstop]
    simp only [find_class_cons, if_true, Match.empty_next, Option.map_some, Option.bind_some,
      Match.empty_append, piece_next, ih, piece_append]
    rfl

/-- What stands up to the end of a line are the characters that end no line. -/
theorem find_upTo_lineEnd (hmode : mode ≠ .spaced) (cs : List Char) :
    find (upTo lineEnd) mode ⟨offset, cs⟩ =
      some (piece offset (cs.takeWhile fun c => !(c == '\n' || c == '\r'))
        (cs.dropWhile fun c => !(c == '\n' || c == '\r'))) := by
  refine find_star_class hmode (by decide) (find_not_anyChar hmode ?_ ?_) cs
  · intro offset
    simp [lineEnd, Expr.any, find_alt, find_mark_nil, find_literal_eq_none]
  · intro offset c cs
    -- A character is passed unless one of the ends of a line begins with it.
    by_cases hn : c = '\n'
    · simp [lineEnd, Expr.any, find_alt, find_mark_cons, hn]
    · -- Of the three ends of a line, two begin with the same character.
      have hcrlf : (find (.literal ['\r', '\n']) mode ⟨offset, c :: cs⟩).isSome = true → c = '\r' := by
        intro h
        obtain ⟨found, h⟩ := Option.isSome_iff_exists.1 h
        obtain ⟨rest, h, _⟩ := find_literal_eq_some_iff.1 h
        exact (List.cons.inj h).1
      by_cases hr : c = '\r'
      · simp [lineEnd, Expr.any, find_alt, find_mark_cons, hr]
      · have hnone : find (.literal ['\r', '\n']) mode ⟨offset, c :: cs⟩ = none := by
          rw [← Option.not_isSome_iff_eq_none]
          exact fun h => hr (hcrlf h)
        simp [lineEnd, Expr.any, find_alt, find_mark_cons, hn, hr, hnone]

/-- A block comment is found exactly where it is opened and closed. -/
theorem find_blockComment {cs : List Char} {found : Match Rule} :
    find (.call .blockComment) .atomic ⟨offset, cs⟩ = some found ↔
      ∃ tail rest, cs = '/' :: '*' :: tail ∧ (splitBlock tail).2 = '*' :: '/' :: rest ∧
        found = piece offset ('/' :: '*' :: ((splitBlock tail).1 ++ ['*', '/'])) rest := by
  rw [find_silent rfl]
  simp only [production, Expr.all]
  rw [find_literal_seq atomic_ne_spaced]
  simp only [find_seq_tight atomic_ne_spaced, find_upTo_block atomic_ne_spaced,
    Option.bind_some, piece_next, Option.map_eq_some_iff, find_literal_eq_some_iff]
  -- What comes before the first closing mark is the same in both readings.
  constructor
  · rintro ⟨tail, _, rfl, ⟨_, ⟨rest, hrest, rfl⟩, rfl⟩, rfl⟩
    rw [piece_append]
    exact ⟨tail, rest, rfl, hrest, piece_append ..⟩
  · rintro ⟨tail, rest, rfl, hrest, rfl⟩
    refine ⟨tail, _, rfl, ⟨_, ⟨rest, hrest, rfl⟩, rfl⟩, ?_⟩
    rw [piece_append]
    exact (piece_append offset ['/', '*'] _ tail rest).symm

/-- A comment that ends with its line, given the sign that begins it. -/
theorem find_line (sign : List Char) {cs : List Char} {found : Match Rule} :
    find (.seq (.literal sign) (upTo lineEnd)) .atomic ⟨offset, cs⟩ = some found ↔
      ∃ tail, cs = sign ++ tail ∧
        found = piece offset (sign ++ tail.takeWhile fun c => !(c == '\n' || c == '\r'))
          (tail.dropWhile fun c => !(c == '\n' || c == '\r')) := by
  rw [find_literal_seq atomic_ne_spaced]
  simp only [find_upTo_lineEnd atomic_ne_spaced, Option.some.injEq]
  constructor
  · rintro ⟨tail, _, rfl, rfl, rfl⟩
    exact ⟨tail, rfl, piece_append ..⟩
  · rintro ⟨tail, rfl, rfl⟩
    exact ⟨tail, _, rfl, rfl, (piece_append ..).symm⟩

/-- Of the three sorts of comments, the block comment is tried first. -/
theorem find_comment (cursor : Cursor) :
    find (.call .comment) .atomic cursor =
      (find (.call .blockComment) .atomic cursor).or
        ((find (.seq (.literal ['/', '/']) (upTo lineEnd)) .atomic cursor).or
          (find (.seq (mark '#') (upTo lineEnd)) .atomic cursor)) := by
  rw [find_layout rfl]
  simp only [production, Expr.any, find_alt]
  have hline : (production .lineComment).kind = .silent := rfl
  have hhash : (production .hashComment).kind = .silent := rfl
  rw [find_silent hline, find_silent hhash]
  rfl

/-- Behind a comment of the grammar and blanks, a text goes on as it does behind the comment's layout. -/
theorem find_comment_some {cs : List Char} {found : Match Rule}
    (h : find (.call .comment) .atomic ⟨offset, cs⟩ = some found) :
    ∃ text rest, found = piece offset text rest ∧ text ≠ [] ∧ cs = text ++ rest ∧
      ∀ left, Behind (rest.dropWhile Text.isBlank) left → Behind cs left := by
  rw [find_comment, Option.or_eq_some_iff, Option.or_eq_some_iff] at h
  -- The two comments that end with their line are alike: the line's end is the first of the blanks.
  have hline : ∀ {mark tail left : List Char}, mark ∈ lineMarks →
      Behind ((tail.dropWhile fun c => !(c == '\n' || c == '\r')).dropWhile Text.isBlank) left →
      Behind (mark ++ tail) left := by
    intro mark tail left hmark hleft
    rw [← List.takeWhile_append_dropWhile (p := fun c => !(c == '\n' || c == '\r')) (l := tail)]
    have hbody : ∀ c ∈ tail.takeWhile fun c => !(c == '\n' || c == '\r'), c ∉ lineEnds :=
      fun c hc => by simpa [lineEnds] using List.all_eq_true.1 List.all_takeWhile c hc
    refine .line hmark hbody ?_
    have hhead := List.head?_dropWhile_not (fun c => !(c == '\n' || c == '\r')) tail
    rcases hrest : tail.dropWhile (fun c => !(c == '\n' || c == '\r')) with _ | ⟨stop, rest⟩
    · rw [hrest] at hleft
      exact .inl ⟨rfl, hleft.eq_nil⟩
    · rw [hrest] at hleft hhead
      have hstop : stop = '\n' ∨ stop = '\r' := by simpa [Decidable.or_iff_not_imp_left] using hhead
      have hblank : Text.isBlank stop = true := by rcases hstop with rfl | rfl <;> rfl
      rw [List.dropWhile_cons_of_pos hblank] at hleft
      exact .inr ⟨stop, rest, rfl, by simpa [lineEnds] using hstop, hleft.of_dropWhile⟩
  rcases h with h | ⟨-, h | ⟨-, h⟩⟩
  · obtain ⟨tail, rest, rfl, hrest, rfl⟩ := find_blockComment.1 h
    have htail := splitBlock_append tail
    rw [hrest] at htail
    refine ⟨_, rest, rfl, by simp, by simp [htail], fun left hleft => ?_⟩
    rw [← htail]
    simpa using hleft.of_dropWhile.prepend (.block (splitBlock_endless tail) .nil)
  · obtain ⟨tail, rfl, rfl⟩ := (find_line ['/', '/']).1 h
    refine ⟨_, _, rfl, by simp, by rw [List.append_assoc, List.takeWhile_append_dropWhile], ?_⟩
    exact fun left => hline (by simp [lineMarks])
  · obtain ⟨tail, rfl, rfl⟩ := (find_line ['#']).1 h
    refine ⟨_, _, rfl, by simp, by rw [List.append_assoc, List.takeWhile_append_dropWhile], ?_⟩
    exact fun left => hline (by simp [lineMarks])

/-- Where the grammar finds no comment, there is none that the lexer could drop. -/
theorem settled_of_find_comment_eq_none {c : Char} {cs : List Char} (hc : Text.isBlank c = false)
    (h : find (.call .comment) .atomic ⟨offset, c :: cs⟩ = none) : Settled (c :: cs) := by
  rw [find_comment, Option.or_eq_none_iff, Option.or_eq_none_iff] at h
  obtain ⟨hblock, hline, hhash⟩ := h
  by_cases hstart : ∃ tail, c :: cs = '/' :: '*' :: tail
  · -- A block comment that the grammar does not find is not closed.
    obtain ⟨tail, heq⟩ := hstart
    rcases splitBlock_rest tail with hrest | ⟨rest, hrest⟩
    · exact .inr ⟨tail, heq, hrest⟩
    · exact (Option.eq_none_iff_forall_ne_some.1 hblock _
        (find_blockComment.2 ⟨tail, rest, heq, hrest, rfl⟩)).elim
  · -- Otherwise the lexer drops nothing: each of its other cases is a comment that would be found.
    refine .inl ?_
    rw [dropLayout_cons, if_neg (by simp [hc])]
    · exact fun tail hslash hstar => hstart ⟨tail, by rw [hslash, hstar]⟩
    · rintro tail rfl rfl
      exact Option.eq_none_iff_forall_ne_some.1 hline _ ((find_line ['/', '/']).2 ⟨tail, rfl, rfl⟩)
    · rintro rfl
      exact Option.eq_none_iff_forall_ne_some.1 hhash _ ((find_line ['#']).2 ⟨cs, rfl, rfl⟩)

/-! ## Gaps -/

/-- Blanks are found as far as they go. -/
theorem find_blanks (cs : List Char) :
    find blanks .atomic ⟨offset, cs⟩ =
      some (piece offset (cs.takeWhile Text.isBlank) (cs.dropWhile Text.isBlank)) :=
  find_star_class atomic_ne_spaced (by decide) (fun _ => find_layout rfl) cs

/-- Behind all blanks there is none. -/
theorem isBlank_head_dropWhile {c : Char} {cs : List Char}
    (hc : c ∈ (cs.dropWhile Text.isBlank).head?) : Text.isBlank c = false := by
  have h := List.head?_dropWhile_not Text.isBlank cs
  rw [Option.mem_def.1 hc] at h
  simpa using h

/-- Behind blanks, comments and more blanks are skipped until the text is settled. -/
theorem find_comments (offset : Nat) (cs : List Char) (hcs : ∀ c ∈ cs.head?, Text.isBlank c = false) :
    ∃ text rest, find (.star (.seq (.call .comment) blanks)) .atomic ⟨offset, cs⟩ =
        some (piece offset text rest) ∧ Behind cs rest ∧ Settled rest := by
  -- By induction on the length of the text, which a comment makes shorter.
  induction hn : cs.length using Nat.strongRecOn generalizing offset cs
  rename_i bound ih
  subst hn
  rw [find_star_tight atomic_ne_spaced (by decide), find_seq_tight atomic_ne_spaced]
  rcases h : find (.call .comment) .atomic ⟨offset, cs⟩ with _ | found
  · refine ⟨[], cs, rfl, ⟨[], cs, rfl, .nil, .inl rfl⟩, ?_⟩
    rcases cs with _ | ⟨c, cs⟩
    · exact .inl rfl
    · exact settled_of_find_comment_eq_none (hcs c rfl) h
  · obtain ⟨text, rest, rfl, hne, rfl, hcomment⟩ := find_comment_some h
    have hshort : (rest.dropWhile Text.isBlank).length < (text ++ rest).length := by
      have hpos := List.length_pos_iff.2 hne
      have hle := (List.dropWhile_suffix Text.isBlank : rest.dropWhile _ <:+ rest).length_le
      rw [List.length_append]
      omega
    obtain ⟨later, rest', hlater, hbehind, hsettled⟩ :=
      ih _ hshort (offset + Text.byteLength (text ++ rest.takeWhile Text.isBlank))
        (rest.dropWhile Text.isBlank) (fun c => isBlank_head_dropWhile) rfl
    refine ⟨text ++ rest.takeWhile Text.isBlank ++ later, rest', ?_, hcomment rest' hbehind, hsettled⟩
    simp only [Option.bind_some, piece_next, find_blanks, Option.map_some, piece_append, hlater]

/-- The layout at a cursor is what is found for it, or nothing. -/
theorem gap_eq (cursor : Cursor) : gap cursor = (find layout .atomic cursor).getD (.empty cursor) := by
  rw [gap_eq_find, find, Expr.run_layout_congr fun place => (gap_tight atomic_ne_spaced place).symm]

/-- What the grammar skips between two members of a sequence is a piece of layout, and what it leaves is
settled. -/
theorem gap_spec (offset : Nat) (cs : List Char) :
    ∃ text rest, gap ⟨offset, cs⟩ = piece offset text rest ∧ Behind cs rest ∧ Settled rest := by
  obtain ⟨text, rest, hfind, hbehind, hsettled⟩ :=
    find_comments (offset + Text.byteLength (cs.takeWhile Text.isBlank)) (cs.dropWhile Text.isBlank)
      fun c => isBlank_head_dropWhile
  refine ⟨cs.takeWhile Text.isBlank ++ text, rest, ?_, hbehind.of_dropWhile, hsettled⟩
  rw [gap_eq, layout, find_seq_tight atomic_ne_spaced, find_blanks, Option.bind_some, piece_next, hfind,
    Option.map_some, piece_append, Option.getD_some]

/-- A text goes on behind a gap as it does behind the layout there. -/
theorem behind_gap (cursor : Cursor) : Behind cursor.rest (gap cursor).next.rest := by
  obtain ⟨text, rest, hgap, hbehind, -⟩ := gap_spec cursor.offset cursor.rest
  rw [hgap]
  exact hbehind

/-- The tokens behind a gap are those before it. -/
theorem lex_gap (cursor : Cursor) : lex (gap cursor).next.rest = lex cursor.rest :=
  lex_eq_of_dropLayout (dropLayout_of_behind (behind_gap cursor)).symm

/-- Behind the layout no layout is left, unless a comment is never closed. -/
theorem settled_gap (cursor : Cursor) : Settled (gap cursor).next.rest := by
  obtain ⟨text, rest, hgap, -, hsettled⟩ := gap_spec cursor.offset cursor.rest
  rw [hgap]
  exact hsettled

@[simp] theorem gap_trees (cursor : Cursor) : (gap cursor).trees = [] := by
  obtain ⟨text, rest, hgap, -⟩ := gap_spec cursor.offset cursor.rest
  rw [hgap]
  rfl

/-- From a settled text no layout can be left out. -/
theorem Settled.eq_of_behind {cs rest : List Char} (h : Settled cs) (hbehind : Behind cs rest)
    (hrest : rest <:+ cs) : cs = rest := by
  rcases h with h | ⟨tail, rfl, hopen⟩
  · rw [dropLayout_of_behind hbehind] at h
    exact (hrest.eq_of_length_le (dropLayout_suffix h).length_le).symm
  · -- The only layout that begins like this text is a block comment, which has an end.
    have hmarks : ∀ mark ∈ lineMarks, ∀ left, '/' :: '*' :: tail ≠ mark ++ left := by simp [lineMarks]
    obtain ⟨layout, left, heq, hlayout, hleft⟩ := hbehind
    cases hlayout with
    -- Without layout in front, nothing or a comment up to the end of the text was dropped.
    | nil =>
      rcases hleft with rfl | ⟨-, mark, hmark, body, rfl, -⟩
      · exact heq
      · exact absurd heq (hmarks mark hmark body)
    | blank hc =>
      obtain ⟨rfl, -⟩ := List.cons.inj heq
      cases hc
    | @block body layout hbody _ =>
      have htail : tail = body ++ '*' :: '/' :: (layout ++ left) := by simpa using heq
      have hnot := splitBlock_endless tail
      have happend := splitBlock_append tail
      rw [hopen, List.append_nil] at happend
      rw [happend] at hnot
      exact absurd ⟨body, layout ++ left, by simp [htail]⟩ hnot
    | line hmark => exact absurd heq (by rw [List.append_assoc]; exact hmarks _ hmark _)

/-- In front of a settled text there is no gap. -/
theorem gap_of_settled {cursor : Cursor} (h : Settled cursor.rest) : gap cursor = .empty cursor := by
  have hstart := gap_startsAt cursor
  -- The gap leads to a settled place, and the cursor is at one already.
  have hsame := h.eq_of_behind (behind_gap cursor) ⟨_, hstart.1.symm⟩
  have htext : (gap cursor).text = [] := by simpa [← hsame] using hstart.1
  obtain ⟨text, rest, hgap, -⟩ := gap_spec cursor.offset cursor.rest
  have hnext := hstart.next_eq htext
  rw [hgap] at htext hnext ⊢
  obtain rfl : text = [] := htext
  exact congrArg (Match.mk [] []) hnext

end DotLang.Grammar
