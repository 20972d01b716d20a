import DotLang.Peg.Grammar

/-!
# What a match consumes

A match that is found at a cursor begins there: its text is what stood behind the cursor, and it ends
where that text ends. `Expr.run_consumes` shows this for expressions and `Grammar.phrase_consumes` for
rules, however deep calls go.
-/

namespace DotLang.Peg

variable {R : Type}

namespace Match

/-- The match is a piece of text right behind the cursor. -/
def StartsAt (found : Match R) (cursor : Cursor) : Prop :=
  cursor.rest = found.text ++ found.next.rest ∧
    found.next.offset = cursor.offset + Text.byteLength found.text

/-- The empty match begins wherever it is. -/
theorem empty_startsAt (cursor : Cursor) : (empty cursor : Match R).StartsAt cursor := by
  simp [StartsAt, empty]

/-- Two matches, the second of them right behind the first, are a match where the first begins. -/
theorem StartsAt.append {first second : Match R} {cursor : Cursor} (h : first.StartsAt cursor)
    (h' : second.StartsAt first.next) : (first.append second).StartsAt cursor := by
  obtain ⟨hrest, hoffset⟩ := h
  obtain ⟨hrest', hoffset'⟩ := h'
  exact ⟨by simp [Match.append, hrest, hrest'], by simp [Match.append, hoffset, hoffset', Nat.add_assoc]⟩

/-- What is left behind a match is no longer than what was left before it. -/
theorem StartsAt.length_le {found : Match R} {cursor : Cursor} (h : found.StartsAt cursor) :
    found.next.rest.length ≤ cursor.rest.length := by
  simp [h.1]

/-- What is left behind a match that is not empty is shorter than what was left before it. -/
theorem StartsAt.length_lt {found : Match R} {cursor : Cursor} (h : found.StartsAt cursor)
    (hne : found.text ≠ []) : found.next.rest.length < cursor.rest.length := by
  have hpos := List.length_pos_iff.2 hne
  rw [h.1, List.length_append]
  omega

/-- A match that reads nothing leaves the cursor where it was. -/
theorem StartsAt.next_eq {found : Match R} {cursor : Cursor} (h : found.StartsAt cursor)
    (hempty : found.text = []) : found.next = cursor := by
  obtain ⟨hrest, hoffset⟩ := h
  rw [hempty] at hrest hoffset
  obtain ⟨offset, rest⟩ := cursor
  obtain ⟨text, trees, ⟨offset', rest'⟩⟩ := found
  simp_all

end Match

namespace Reply

/-- Whatever was found begins at the cursor. -/
def Consumes (reply : Reply R) (cursor : Cursor) : Prop :=
  ∀ found, reply.found = some found → found.StartsAt cursor

/-- A success begins at the cursor if its match does. -/
theorem ok_consumes {found : Match R} {cursor : Cursor} (h : found.StartsAt cursor) :
    (ok found).Consumes cursor := by
  rintro _ ⟨⟩
  exact h

/-- Nothing is found where a reading fails. -/
theorem fail_consumes (cursor : Cursor) : (fail : Reply R).Consumes cursor := by
  rintro _ ⟨⟩

/-- A reading and another one behind it begin where the first does. -/
theorem Consumes.andThen {reply : Reply R} {cursor : Cursor} {later : Match R → Reply R}
    (h : reply.Consumes cursor)
    (h' : ∀ found, found.StartsAt cursor → (later found).Consumes found.next) :
    (reply.andThen later).Consumes cursor := by
  intro found hf
  rcases hr : reply.found with _ | first
  · simp [Reply.andThen, hr] at hf
  · simp only [Reply.andThen, hr, Option.map_eq_some_iff] at hf
    obtain ⟨second, hs, rfl⟩ := hf
    exact (h first hr).append (h' first (h first hr) second hs)

/-- A choice begins at the cursor if both of its alternatives do. -/
theorem Consumes.orElse {reply : Reply R} {cursor : Cursor} {other : Unit → Reply R}
    (h : reply.Consumes cursor) (h' : (other ()).Consumes cursor) :
    (reply.orElse other).Consumes cursor := by
  intro found hf
  rcases hr : reply.found with _ | first <;> simp only [Reply.orElse, hr] at hf
  · exact h' found hf
  · exact h found (hr ▸ hf)

/-- What may be missing is empty where it is, and else begins at the cursor. -/
theorem Consumes.orEmpty {reply : Reply R} {cursor : Cursor} (h : reply.Consumes cursor) :
    (reply.orEmpty cursor).Consumes cursor := by
  intro found hf
  rcases hr : reply.found with _ | first <;> simp [Reply.orEmpty, hr] at hf <;> subst hf
  · exact Match.empty_startsAt cursor
  · exact h _ hr

/-- What is found of a rule that is recorded has the text and the end of what its body found. -/
theorem exists_of_found_record {reply : Reply R} {rule : R} {mode : Mode} {cursor : Cursor}
    {found : Match R} (h : (reply.record rule mode cursor).found = some found) :
    ∃ inner, reply.found = some inner ∧ inner.text = found.text ∧ inner.next = found.next := by
  rw [record] at h
  split at h
  · exact ⟨found, h, rfl, rfl⟩
  · rcases hr : reply.found with _ | inner <;> simp [hr] at h
    subst h
    exact ⟨inner, rfl, rfl, rfl⟩

/-- Recording a rule does not change where the match begins. -/
theorem Consumes.record {reply : Reply R} {cursor : Cursor} (h : reply.Consumes cursor) (rule : R)
    (mode : Mode) : (reply.record rule mode cursor).Consumes cursor := by
  intro found hf
  obtain ⟨inner, hinner, htext, hnext⟩ := exists_of_found_record hf
  have hstarts := h inner hinner
  rwa [Match.StartsAt, htext, hnext] at hstarts

end Reply

/-- A text that is matched stands right behind the cursor. -/
theorem matchText_startsAt {same : Char → Char → Bool} : ∀ {text : List Char} {cursor : Cursor}
    {found : Match R}, matchText same text cursor = some found → found.StartsAt cursor
  | [], cursor, found, h => by
    simp [matchText] at h
    subst h
    exact Match.empty_startsAt cursor
  | _ :: _, ⟨_, []⟩, _, h => by simp [matchText] at h
  | c :: cs, ⟨offset, d :: ds⟩, found, h => by
    rw [matchText] at h
    split at h
    -- The first characters agree, and the rest of the match stands right behind them.
    · obtain ⟨inner, hi, rfl⟩ := Option.map_eq_some_iff.1 h
      obtain ⟨hrest, hoffset⟩ := matchText_startsAt hi
      simp [Cursor.next] at hrest hoffset
      exact ⟨by simp [hrest], by simp [hoffset, Nat.add_assoc]⟩
    · simp at h

/-- Rounds, each of them right behind the one before it, begin at the cursor. -/
theorem roundsWithin_consumes {step : Cursor → Reply R}
    (h : ∀ cursor, (step cursor).Consumes cursor) :
    ∀ bound cursor, (roundsWithin step bound cursor).Consumes cursor
  | [], cursor => by
    rintro _ ⟨⟩
    exact Match.empty_startsAt cursor
  | _ :: bound, cursor => by
    rw [roundsWithin]
    split
    · exact (h cursor).orEmpty
    -- A round that reads nothing ends the rounds, and another one may follow any other.
    · split
      · rintro _ ⟨⟩
        exact Match.empty_startsAt cursor
      · exact (h cursor).andThen fun found _ => roundsWithin_consumes h bound found.next

/-- What an expression finds begins at the cursor, if this is so for layout and for rules. -/
theorem Expr.run_consumes {layout : Mode → Cursor → Match R} {call : R → Phrase R}
    (hl : ∀ mode cursor, (layout mode cursor).StartsAt cursor)
    (hc : ∀ rule mode cursor, (call rule mode cursor).Consumes cursor) (e : Expr R) :
    ∀ mode cursor, (e.run layout call mode cursor).Consumes cursor := by
  induction e with
  | start =>
    intro mode cursor
    rw [Expr.run]
    split
    · exact Reply.ok_consumes (Match.empty_startsAt _)
    · exact Reply.fail_consumes _
  | literal text => exact fun _ _ _ h => matchText_startsAt h
  | caseless text => exact fun _ _ _ h => matchText_startsAt h
  | char accepts =>
    rintro mode ⟨offset, rest⟩
    rw [Expr.run]
    cases rest with
    | nil => exact Reply.fail_consumes _
    | cons c cs =>
      simp only
      split
      · exact Reply.ok_consumes ⟨by simp [Cursor.next], by simp [Cursor.next]⟩
      · exact Reply.fail_consumes _
  | seq first second ih ih' =>
    exact fun mode cursor => (ih mode cursor).andThen fun found _ =>
      (Reply.ok_consumes (hl mode found.next)).andThen fun gap _ => ih' mode gap.next
  | alt first second ih ih' => exact fun mode cursor => (ih mode cursor).orElse (ih' mode cursor)
  | opt body ih => exact fun mode cursor => (ih mode cursor).orEmpty
  -- The first round is the body alone; each round behind it has layout in front.
  | star body ih =>
    exact fun mode cursor => ((ih mode cursor).andThen fun found _ =>
      roundsWithin_consumes (fun place => (Reply.ok_consumes (hl mode place)).andThen
        fun gap _ => ih mode gap.next) _ _).orEmpty
  | not body ih =>
    intro mode cursor
    rw [Expr.run]
    split
    · exact Reply.fail_consumes _
    · exact Reply.ok_consumes (Match.empty_startsAt _)
  | call rule => exact hc rule

/-- What a rule reads begins at the cursor if this is so for its body. -/
theorem Kind.read_consumes {kind : Kind} {rule : R} {body : Phrase R}
    (h : ∀ mode cursor, (body mode cursor).Consumes cursor) (mode : Mode) (cursor : Cursor) :
    (kind.read rule body mode cursor).Consumes cursor := by
  cases kind
  · exact (h mode cursor).record rule mode
  · exact (h .atomic cursor).record rule mode
  · exact (h .tight cursor).record rule .tight
  · exact h mode cursor
  · exact h .atomic cursor

namespace Grammar

/-- Layout begins at the cursor. -/
theorem gap_startsAt {g : Grammar R} {call : R → Phrase R}
    (hc : ∀ rule mode cursor, (call rule mode cursor).Consumes cursor) (mode : Mode)
    (cursor : Cursor) : (g.gap call mode cursor).StartsAt cursor := by
  rw [gap]
  split
  · rcases h : (g.layout.run (fun _ => .empty) call .atomic cursor).found with _ | found
    · exact Match.empty_startsAt cursor
    · exact Expr.run_consumes (fun _ => Match.empty_startsAt) hc g.layout .atomic cursor found h
  · exact Match.empty_startsAt cursor

/-- What a rule reads begins at the cursor, however deep calls may go. -/
theorem phraseWithin_consumes (g : Grammar R) (depth : Nat) (rule : R) (mode : Mode)
    (cursor : Cursor) : (g.phraseWithin depth rule mode cursor).Consumes cursor := by
  induction depth generalizing rule mode cursor with
  | zero => exact Reply.fail_consumes cursor
  | succ depth ih => exact Kind.read_consumes (Expr.run_consumes (gap_startsAt ih) ih _) mode cursor

/-- What a rule finds begins at the cursor. -/
theorem phrase_consumes (g : Grammar R) (rule : R) (mode : Mode) (cursor : Cursor) :
    (g.phrase rule mode cursor).Consumes cursor :=
  g.phraseWithin_consumes _ rule mode cursor

end Grammar

end DotLang.Peg
