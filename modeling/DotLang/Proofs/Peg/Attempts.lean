import DotLang.Peg.Consumption

/-!
# Where rules fail

Rules are tried at the cursor and behind what has been read from there, never in the middle of a character or
behind the end of the text. So the furthest failures have the offset of a place in the text
(`Grammar.exists_of_parse`).
-/

namespace DotLang.Peg

variable {R : Type}

/-! ## The failures of combined readings -/

namespace Reply

variable {reply : Reply R} {later : Match R → Reply R} {other : Unit → Reply R} {found : Match R}

/-- Behind a success, the failures of both readings are kept as far as they are furthest. -/
theorem attempts_andThen_of_found (h : reply.found = some found) :
    (reply.andThen later).attempts = reply.attempts.merge (later found).attempts := by
  simp only [andThen, h]

/-- Behind a failure, nothing more fails. -/
theorem attempts_andThen_of_not_found (h : reply.found = none) :
    (reply.andThen later).attempts = reply.attempts := by
  simp only [andThen, h]

/-- Layout leaves no failures, so those behind it are all. -/
theorem attempts_ok_andThen (gap : Match R) : ((ok gap).andThen later).attempts = (later gap).attempts := by
  simp only [andThen, ok, Attempts.none_merge]

/-- Where the first alternative is found, the second one is not tried. -/
theorem attempts_orElse_of_found (h : reply.found = some found) :
    (reply.orElse other).attempts = reply.attempts := by
  simp only [orElse, h]

/-- Where the first alternative fails, the failures of both are kept as far as they are furthest. -/
theorem attempts_orElse_of_not_found (h : reply.found = none) :
    (reply.orElse other).attempts = reply.attempts.merge (other ()).attempts := by
  simp only [orElse, h]

/-- A rule that succeeds is not recorded as a failure. -/
theorem attempts_record_of_found (h : reply.found = some found) (rule : R) (mode : Mode) (cursor : Cursor) :
    (reply.record rule mode cursor).attempts = reply.attempts := by
  by_cases hmode : mode = .atomic <;> simp [record, hmode, h]

/-- A rule that fails may take the place of the failures in its body. -/
theorem attempts_record_of_not_found (h : reply.found = none) (rule : R) {mode : Mode} (hmode : mode ≠ .atomic)
    (cursor : Cursor) : (reply.record rule mode cursor).attempts = reply.attempts.ofRule rule cursor.offset := by
  simp [record, hmode, h]

end Reply

/-! ## Places that are reached -/

/-- Whether an offset is that of a place at the cursor or behind it. Where nothing has failed it is zero. -/
def Cursor.Reaches (cursor : Cursor) (offset : Nat) : Prop :=
  offset = 0 ∨ ∃ read rest, cursor.rest = read ++ rest ∧ offset = cursor.offset + Text.byteLength read

/-- The start of the text stands for nothing that failed. -/
theorem Cursor.reaches_zero (cursor : Cursor) : cursor.Reaches 0 := .inl rfl

/-- The cursor itself is reached. -/
theorem Cursor.reaches_offset (cursor : Cursor) : cursor.Reaches cursor.offset :=
  .inr ⟨[], cursor.rest, rfl, rfl⟩

/-- What can be reached from behind a match can be reached from before it. -/
theorem Match.StartsAt.reaches {found : Match R} {cursor : Cursor} {offset : Nat} (h : found.StartsAt cursor)
    (hnext : found.next.Reaches offset) : cursor.Reaches offset := by
  obtain ⟨hrest, hoffset⟩ := h
  rcases hnext with hzero | ⟨read, rest, heq, hread⟩
  · exact .inl hzero
  · refine .inr ⟨found.text ++ read, rest, ?_, ?_⟩
    · rw [hrest, heq, List.append_assoc]
    · rw [hread, hoffset, Text.byteLength_append, Nat.add_assoc]

namespace Attempts

variable {first second inner : Attempts R} {cursor : Cursor}

/-- The furthest failures of two readings are at the offset of one of them. -/
theorem reaches_merge (h : cursor.Reaches first.offset) (h' : cursor.Reaches second.offset) :
    cursor.Reaches (first.merge second).offset := by
  rw [merge]
  split
  · exact h'
  · split
    · exact h
    · exact h

/-- A rule fails at the cursor, or where its body does. -/
theorem reaches_ofRule (rule : R) (h : cursor.Reaches inner.offset) :
    cursor.Reaches (inner.ofRule rule cursor.offset).offset := by
  rcases ofRule_cases rule cursor.offset inner with ⟨hkept, -⟩ | hreported
  · rwa [hkept]
  · -- The rule itself takes the place of what failed in its body, at the cursor.
    rw [hreported]
    exact cursor.reaches_offset

end Attempts

namespace Reply

/-- Whether what failed in a reading failed at the cursor or behind it. -/
def Fails (reply : Reply R) (cursor : Cursor) : Prop :=
  cursor.Reaches reply.attempts.offset

variable {reply : Reply R} {cursor : Cursor}

/-- A reading and another one behind it fail at the cursor or behind it, if both do. -/
theorem Fails.andThen {later : Match R → Reply R} (h : reply.Fails cursor) (hreply : reply.Consumes cursor)
    (h' : ∀ found, found.StartsAt cursor → (later found).Fails found.next) :
    (reply.andThen later).Fails cursor := by
  rw [Reply.andThen]
  split
  · exact h
  · rename_i first hfound
    have hfirst := hreply first hfound
    exact Attempts.reaches_merge h (hfirst.reaches (h' first hfirst))

/-- A choice fails at the cursor or behind it if both of its alternatives do. -/
theorem Fails.orElse {other : Unit → Reply R} (h : reply.Fails cursor) (h' : (other ()).Fails cursor) :
    (reply.orElse other).Fails cursor := by
  rw [Reply.orElse]
  split
  · exact h
  · exact Attempts.reaches_merge h h'

/-- A recorded rule fails at the cursor or behind it if its body does. -/
theorem Fails.record (h : reply.Fails cursor) (rule : R) (mode : Mode) :
    (reply.record rule mode cursor).Fails cursor := by
  rw [Reply.record]
  split
  · exact h
  · split
    · exact h
    · exact Attempts.reaches_ofRule rule h

end Reply

open Reply

/-- Each round fails, if it does, at the place where the rounds before it have ended, or behind. -/
theorem roundsWithin_fails {step : Cursor → Reply R} (hconsumes : ∀ cursor, (step cursor).Consumes cursor)
    (h : ∀ cursor, (step cursor).Fails cursor) :
    ∀ bound cursor, (roundsWithin step bound cursor).Fails cursor
  | [], cursor => h cursor
  | _ :: bound, cursor => by
    rw [roundsWithin]
    split
    · exact h cursor
    · split
      · exact h cursor
      -- Later rounds begin behind the cursor.
      · exact (h cursor).andThen (hconsumes cursor) fun found _ =>
          roundsWithin_fails hconsumes h bound found.next

/-- What fails in an expression fails at the cursor or behind it, if this is so for rules. -/
theorem Expr.run_fails {layout : Mode → Cursor → Match R} {call : R → Phrase R}
    (hl : ∀ mode cursor, (layout mode cursor).StartsAt cursor)
    (hconsumes : ∀ rule mode cursor, (call rule mode cursor).Consumes cursor)
    (hc : ∀ rule mode cursor, (call rule mode cursor).Fails cursor) (e : Expr R) :
    ∀ mode cursor, (e.run layout call mode cursor).Fails cursor := by
  -- Layout leaves no failures, so in a sequence only the members have to be looked at.
  have hgap : ∀ {body : Phrase R}, (∀ mode cursor, (body mode cursor).Fails cursor) → ∀ mode place,
      ((Reply.ok (layout mode place)).andThen fun gap => body mode gap.next).Fails place :=
    fun hbody mode place => Fails.andThen place.reaches_zero (ok_consumes (hl mode place))
      fun gap _ => hbody mode gap.next
  induction e with
  | start =>
    intro mode cursor
    rw [Expr.run]
    split <;> exact cursor.reaches_zero
  | literal text | caseless text => exact fun mode cursor => cursor.reaches_zero
  | char accepts =>
    intro mode cursor
    rw [Expr.run]
    split
    · exact cursor.reaches_zero
    · split <;> exact cursor.reaches_zero
  | seq first second ih ih' =>
    exact fun mode cursor => (ih mode cursor).andThen (Expr.run_consumes hl hconsumes first mode cursor)
      fun found _ => hgap ih' mode found.next
  | alt first second ih ih' => exact fun mode cursor => (ih mode cursor).orElse (ih' mode cursor)
  | opt body ih => exact ih
  | star body ih =>
    intro mode cursor
    have hbody := Expr.run_consumes hl hconsumes body
    have hround : ∀ place, ((Reply.ok (layout mode place)).andThen fun gap =>
        body.run layout call mode gap.next).Consumes place :=
      fun place => (ok_consumes (hl mode place)).andThen fun gap _ => hbody mode gap.next
    exact (ih mode cursor).andThen (hbody mode cursor) fun found _ =>
      roundsWithin_fails hround (hgap ih mode) _ _
  | not body ih =>
    -- What fails under a negation is forgotten.
    intro mode cursor
    rw [Expr.run]
    split <;> exact cursor.reaches_zero
  | call rule => exact hc rule

/-- A rule of any kind fails at the cursor or behind it if its body does. -/
theorem Kind.read_fails {kind : Kind} {rule : R} {body : Phrase R}
    (h : ∀ mode cursor, (body mode cursor).Fails cursor) (mode : Mode) (cursor : Cursor) :
    (kind.read rule body mode cursor).Fails cursor := by
  cases kind with
  | branch => exact (h mode cursor).record rule mode
  | token => exact (h .atomic cursor).record rule mode
  | tight => exact (h .tight cursor).record rule .tight
  | silent => exact h mode cursor
  | layout => exact h .atomic cursor

namespace Grammar

/-- Whatever fails in a rule fails at the cursor or behind it. -/
theorem phraseWithin_fails (g : Grammar R) (depth : Nat) (rule : R) (mode : Mode) (cursor : Cursor) :
    (g.phraseWithin depth rule mode cursor).Fails cursor := by
  induction depth generalizing rule mode cursor with
  | zero => exact cursor.reaches_zero
  | succ depth ih =>
    have hconsumes := g.phraseWithin_consumes depth
    exact Kind.read_fails (Expr.run_fails (gap_startsAt hconsumes) hconsumes ih _) mode cursor

/-- The furthest failures in a text are at a place in it. -/
theorem exists_of_parse (g : Grammar R) (rule : R) (text : List Char) :
    ∃ read rest, text = read ++ rest ∧ (g.parse rule text).attempts.offset = Text.byteLength read := by
  rcases g.phraseWithin_fails (g.depth (.start text)) rule .spaced (.start text) with
    hzero | ⟨read, rest, htext, hoffset⟩
  · exact ⟨[], text, rfl, hzero⟩
  · exact ⟨read, rest, htext, hoffset.trans (Nat.zero_add _)⟩

end Grammar

end DotLang.Peg
