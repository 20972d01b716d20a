import DotLang.Proofs.Peg.Induction

/-!
# Properties kept by matches

A property that a piece of text without trees has, and that is kept by putting one match behind another and
by recording a rule, is one of everything that a grammar finds (`Grammar.phrase_kept`).
-/

namespace DotLang.Peg

variable {R : Type} {Q : Cursor → Match R → Prop}

/-- A property of matches that is kept by putting one behind another. -/
structure Match.Kept (Q : Cursor → Match R → Prop) : Prop where
  /-- A piece of text without trees has the property. -/
  piece : ∀ {cursor : Cursor} {found : Match R}, found.StartsAt cursor → found.trees = [] → Q cursor found
  /-- One match behind another has the property. -/
  append : ∀ {cursor : Cursor} {first second : Match R}, Q cursor first → Q first.next second →
    Q cursor (first.append second)

/-- Nothing keeps what every way to put matches together keeps. -/
theorem Match.Kept.empty (hQ : Match.Kept Q) (cursor : Cursor) : Q cursor (.empty cursor) :=
  hQ.piece (Match.empty_startsAt cursor) rfl

/-- What may be nothing has the property if it has it wherever it is something. -/
theorem Match.Kept.getD (hQ : Match.Kept Q) {cursor : Cursor} {inner : Option (Match R)}
    (h : ∀ {found}, inner = some found → Q cursor found) : Q cursor (inner.getD (.empty cursor)) := by
  cases inner with
  | none => exact hQ.empty cursor
  | some => exact h rfl

/-- A text that is matched leaves no tree. -/
theorem matchText_trees {same : Char → Char → Bool} : ∀ {text : List Char} {cursor : Cursor}
    {found : Match R}, matchText same text cursor = some found → found.trees = []
  | [], cursor, found, h => by
    simp only [matchText, Option.some.injEq] at h
    rw [← h]
    rfl
  | _ :: _, ⟨_, []⟩, _, h => by simp [matchText] at h
  | c :: cs, ⟨offset, d :: ds⟩, found, h => by
    rw [matchText] at h
    split at h
    · obtain ⟨inner, hinner, rfl⟩ := Option.map_eq_some_iff.1 h
      -- A character is put before the text of a match and adds no tree.
      have htrees : inner.trees = [] := matchText_trees hinner
      exact htrees
    · simp at h

/-- Rounds keep what each round does. -/
theorem roundsWithin_kept (hQ : Match.Kept Q) {step : Cursor → Reply R}
    (hstep : ∀ {place round}, (step place).found = some round → Q place round) :
    ∀ {bound : List Char} {cursor : Cursor} {found : Match R},
      (roundsWithin step bound cursor).found = some found → Q cursor found
  | [], cursor, found, h => by
    obtain rfl : Match.empty cursor = found := by simpa [roundsWithin] using h
    exact hQ.empty cursor
  | _ :: bound, cursor, found, h => by
    rcases roundsWithin_found_cases h with rfl | ⟨round, later, hround, hlater, rfl⟩
    · exact hQ.empty cursor
    · exact hQ.append (hstep hround) (roundsWithin_kept hQ hstep hlater)

/-- What an expression finds has a property that is kept, if layout has it and what the calls find. -/
theorem Expr.run_kept (hQ : Match.Kept Q) {layout : Mode → Cursor → Match R} {call : R → Phrase R}
    (hlayout : ∀ mode cursor, Q cursor (layout mode cursor))
    (hcall : ∀ {rule mode cursor found}, (call rule mode cursor).found = some found → Q cursor found)
    (e : Expr R) {mode : Mode} {cursor : Cursor} {found : Match R}
    (h : (e.run layout call mode cursor).found = some found) : Q cursor found := by
  induction e generalizing cursor found with
  | start =>
    rw [Expr.run] at h
    split at h
    · obtain rfl : Match.empty cursor = found := by simpa using h
      exact hQ.empty cursor
    · simp at h
  | literal text =>
    have hmatch : matchText (· == ·) text cursor = some found := h
    exact hQ.piece (matchText_startsAt hmatch) (matchText_trees hmatch)
  | caseless text =>
    have hmatch : matchText (fun c d => c.toLower == d.toLower) text cursor = some found := h
    exact hQ.piece (matchText_startsAt hmatch) (matchText_trees hmatch)
  | char accepts =>
    obtain ⟨offset, _ | ⟨c, cs⟩⟩ := cursor
    · simp [Expr.run] at h
    · simp only [Expr.run] at h
      split at h
      · obtain rfl := Option.some.inj h
        exact hQ.piece ⟨rfl, rfl⟩ rfl
      · simp at h
  | seq first second ihfirst ihsecond =>
    simp only [Expr.run, Reply.found_andThen, Reply.found_ok, Option.bind_some, Option.map_map,
      Option.bind_eq_some_iff, Option.map_eq_some_iff] at h
    obtain ⟨inner, hinner, later, hlater, rfl⟩ := h
    exact hQ.append (ihfirst hinner) (hQ.append (hlayout mode inner.next) (ihsecond hlater))
  | alt first second ihfirst ihsecond =>
    simp only [Expr.run, Reply.found_orElse, Option.or_eq_some_iff] at h
    rcases h with h | ⟨-, h⟩
    · exact ihfirst h
    · exact ihsecond h
  | opt body ih =>
    simp only [Expr.run, Reply.found_orEmpty, Option.some.injEq] at h
    exact h ▸ hQ.getD fun hinner => ih hinner
  | star body ih =>
    rcases Expr.run_star_cases h with rfl | ⟨first, later, hfirst, hlater, rfl⟩
    · exact hQ.empty cursor
    -- Each further round is layout and a match of the body behind it.
    have hround : ∀ {place round}, ((Reply.ok (layout mode place)).andThen fun gap =>
        body.run layout call mode gap.next).found = some round → Q place round := by
      intro place round hround
      simp only [Reply.found_andThen, Reply.found_ok, Option.bind_some, Option.map_eq_some_iff] at hround
      obtain ⟨last, hlast, rfl⟩ := hround
      exact hQ.append (hlayout mode place) (ih hlast)
    exact hQ.append (ih hfirst) (roundsWithin_kept hQ hround hlater)
  | not body ih =>
    rw [Expr.run] at h
    split at h
    · simp at h
    · obtain rfl : Match.empty cursor = found := by simpa using h
      exact hQ.empty cursor
  | call rule => exact hcall h

/-- What a rule finds has a property that is kept, also by recording a rule, if layout has it. -/
theorem Grammar.phrase_kept {g : Grammar R} {rank : R → Nat} {empty : R → Bool} (hg : g.Ranked rank empty)
    (hQ : Match.Kept Q) (hlayout : ∀ mode cursor, Q cursor (g.gap g.phrase mode cursor))
    (hrecord : ∀ {rule cursor found}, Q cursor found → Q cursor (found.asTree rule cursor))
    {rule : R} {mode : Mode} {cursor : Cursor} {found : Match R}
    (h : (g.phrase rule mode cursor).found = some found) : Q cursor found := by
  refine phrase_induction (P := fun _ _ => Q) hg ?_ rule mode cursor found h
  intro call hcall rule mode cursor found _ hread
  have hbody : ∀ {mode inner}, ((g.production rule).body.run (g.gap g.phrase) call mode
      cursor).found = some inner → Q cursor inner := fun hinner =>
    Expr.run_kept hQ hlayout (fun hfound => (hcall _ _ _ _ hfound).2) _ hinner
  -- In atomic mode nothing is recorded: the rule's match is then that of its body.
  have hrecorded : ∀ {mode} {reply : Reply R}, (∀ {inner}, reply.found = some inner → Q cursor inner) →
      (reply.record rule mode cursor).found = some found → Q cursor found := by
    intro mode reply hreply hfound
    by_cases hmode : mode = .atomic
    · rw [hmode, Reply.found_record_atomic] at hfound
      exact hreply hfound
    · rw [Reply.found_record hmode, Option.map_eq_some_iff] at hfound
      obtain ⟨inner, hinner, rfl⟩ := hfound
      exact hrecord (hreply hinner)
  rw [Kind.read.eq_def] at hread
  split at hread
  · exact hrecorded hbody hread
  · exact hrecorded hbody hread
  · exact hrecorded hbody hread
  · exact hbody hread
  · exact hbody hread

end DotLang.Peg
