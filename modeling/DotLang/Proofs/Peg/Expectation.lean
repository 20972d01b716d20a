import DotLang.Proofs.Peg.Attempts
import DotLang.Proofs.Peg.Found

/-!
# What failures tell

Only some rules are shown to a reader. A failure is helpful if a rule that is shown is among those that failed
furthest. A rule that is shown, and meets only such failures in its body, has them itself
(`Reply.Reports`). A weaker property is kept by everything that reads on (`Reply.Informs`): a hidden rule may
have failed furthest as long as more has been read since, for what is tried there fails further on. So
repetitions, which always end with a failure, are helpful wherever their body is (`Expr.run_star_names`).

## Main results

- `Grammar.phrase_silent`: in atomic mode, rules that call no tight ones leave no failures.
- `Grammar.phrase_reports`: rules that call only rules of which this is known are helpful.
- `Expr.run_star_names`: behind a repetition, a rule that is shown has failed.
-/

namespace DotLang.Peg

variable {R : Type} {shown : R → Prop}

namespace Attempts

/-- Some rule that failed furthest is shown. -/
def Shows (shown : R → Prop) (a : Attempts R) : Prop :=
  ∃ rule ∈ a.rules, shown rule

/-- Nothing has failed, or a rule that is shown has. -/
def Clear (shown : R → Prop) (a : Attempts R) : Prop :=
  a = none ∨ a.Shows shown

/-- If anything has failed behind an offset, a rule that is shown has. -/
def Tells (shown : R → Prop) (offset : Nat) (a : Attempts R) : Prop :=
  offset < a.offset → a.Shows shown

/-- At an offset or behind it, a rule that is shown has failed. -/
structure Names (shown : R → Prop) (offset : Nat) (a : Attempts R) : Prop where
  le : offset ≤ a.offset
  shows : a.Shows shown

variable {a b : Attempts R} {offset offset' : Nat}

/-- Of two readings that show a failure, the furthest failures show one. -/
theorem shows_merge (ha : a.Shows shown) (hb : b.Shows shown) : (a.merge b).Shows shown := by
  rw [merge]
  split
  · exact hb
  · split
    · exact ha
    · obtain ⟨rule, hrule, hshown⟩ := ha
      exact ⟨rule, List.mem_append_left _ hrule, hshown⟩

/-- Failures of two readings are clear if those of each are. -/
theorem Clear.merge (ha : a.Clear shown) (hb : b.Clear shown) : (a.merge b).Clear shown := by
  rcases ha with rfl | ha
  · rwa [none_merge]
  · rcases hb with rfl | hb
    · rw [merge_none]
      exact .inr ha
    · exact .inr (shows_merge ha hb)

/-- Clear failures tell at every offset. -/
theorem Clear.tells (h : a.Clear shown) : a.Tells shown offset := by
  rintro hlt
  rcases h with rfl | h
  · exact absurd hlt (Nat.not_lt_zero offset)
  · exact h

/-- Failures that show a rule tell at every offset. -/
theorem Shows.tells (h : a.Shows shown) : a.Tells shown offset := fun _ => h

/-- Where nothing failed, there is nothing to tell. -/
theorem tells_none : (none : Attempts R).Tells shown offset := Clear.tells (.inl rfl)

/-- What tells at an offset tells at each further one. -/
theorem Tells.mono (h : a.Tells shown offset) (hle : offset ≤ offset') : a.Tells shown offset' :=
  fun hlt => h (Nat.lt_of_le_of_lt hle hlt)

/-- What names a rule at an offset or behind it does so for each offset before. -/
theorem Names.mono (h : a.Names shown offset') (hle : offset ≤ offset') : a.Names shown offset :=
  ⟨Nat.le_trans hle h.le, h.shows⟩

/-- Failures of two readings tell if those of each do. -/
theorem Tells.merge (ha : a.Tells shown offset) (hb : b.Tells shown offset) :
    (a.merge b).Tells shown offset := by
  rw [Attempts.merge]
  split
  · exact hb
  · split
    · exact ha
    -- At one place the rules of both are reported, so those of the first will do.
    · intro hlt
      obtain ⟨rule, hrule, hshown⟩ := ha hlt
      exact ⟨rule, List.mem_append_left _ hrule, hshown⟩

/-- What is named at an offset stays so next to failures that tell something there. -/
theorem Names.merge_right (ha : a.Tells shown offset) (hb : b.Names shown offset) :
    (a.merge b).Names shown offset := by
  obtain ⟨hle, hshows⟩ := hb
  rw [Attempts.merge]
  split
  · exact ⟨hle, hshows⟩
  · split
    next hlt => exact ⟨by omega, ha (by omega)⟩
    next =>
      obtain ⟨rule, hrule, hshown⟩ := hshows
      exact ⟨by simp only; omega, rule, List.mem_append_right _ hrule, hshown⟩

/-- A rule that is named stays named with failures of a reading that tells. -/
theorem Names.merge_left (ha : a.Names shown offset) (hb : b.Tells shown offset) :
    (a.merge b).Names shown offset := by
  obtain ⟨hle, hshows⟩ := ha
  rw [Attempts.merge]
  split
  next hlt => exact ⟨by omega, hb (by omega)⟩
  next =>
    split
    · exact ⟨hle, hshows⟩
    · obtain ⟨rule, hrule, hshown⟩ := hshows
      exact ⟨hle, rule, List.mem_append_left _ hrule, hshown⟩

/-- A rule's own failure hides only failures at its start. -/
theorem Tells.ofRule (rule : R) (h : a.Tells shown offset) : (a.ofRule rule offset).Tells shown offset := by
  rcases ofRule_cases rule offset a with ⟨hkept, -⟩ | hrule
  · rwa [hkept]
  · rw [hrule]
    exact fun hlt => absurd hlt (Nat.lt_irrefl offset)

/-- A rule that is shown is named where it fails, or what failed in its body is. -/
theorem names_ofRule {rule : R} (hrule : shown rule) (h : a.Clear shown) :
    (a.ofRule rule offset).Names shown offset := by
  rcases ofRule_cases rule offset a with ⟨hkept, hfurther | hsingle⟩ | hreported
  · rw [hkept]
    exact ⟨Nat.le_of_lt hfurther, h.tells hfurther⟩
  · -- A single failure at the start is that of the only rule tried there, and it is shown.
    rw [hkept]
    rcases h with rfl | h
    · simp [none] at hsingle
    · exact ⟨Nat.le_of_eq hsingle.1.symm, h⟩
  · rw [hreported]
    exact ⟨Nat.le_refl _, rule, List.mem_singleton_self rule, hrule⟩

/-- A rule that is tried at the start of a text replaces neither what failed further on nor a single failure. -/
theorem shows_ofRule_zero (rule : R) (h : a.Shows shown) (hkept : 0 < a.offset ∨ a.rules.length = 1) :
    (a.ofRule rule 0).Shows shown := by
  rw [ofRule]
  split
  · exact h
  · rwa [if_pos (by omega)]

end Attempts

namespace Reply

variable {reply : Reply R} {cursor : Cursor}

/-- The cursor behind what was found, or where nothing was. -/
def stop (reply : Reply R) (cursor : Cursor) : Cursor :=
  (reply.found.getD (.empty cursor)).next

/-- A reading that succeeds stops behind its match. -/
theorem stop_of_found {found : Match R} (h : reply.found = some found) : reply.stop cursor = found.next := by
  rw [stop, h, Option.getD_some]

/-- A reading that fails stops where it began. -/
theorem stop_of_not_found (h : reply.found = none) : reply.stop cursor = cursor := by
  rw [stop, h, Option.getD_none, Match.empty_next]

/-- A reading does not stop before it began. -/
theorem Consumes.offset_le (h : reply.Consumes cursor) : cursor.offset ≤ (reply.stop cursor).offset := by
  rcases hfound : reply.found with _ | found
  · exact Nat.le_of_eq (by rw [stop_of_not_found hfound])
  · rw [stop_of_found hfound, (h found hfound).2]
    exact Nat.le_add_right ..

/-- If anything has failed behind the place where a reading stops, a rule that is shown has. -/
def Tells (shown : R → Prop) (reply : Reply R) (cursor : Cursor) : Prop :=
  reply.attempts.Tells shown (reply.stop cursor).offset

/-- The same, and a reading that fails names a rule that is shown. -/
structure Informs (shown : R → Prop) (reply : Reply R) (cursor : Cursor) : Prop where
  tells : reply.Tells shown cursor
  names : reply.found = none → reply.attempts.Names shown cursor.offset

/-- If anything has failed at all, a rule that is shown has, and a reading that fails names one. -/
structure Reports (shown : R → Prop) (reply : Reply R) (cursor : Cursor) : Prop where
  clear : reply.attempts.Clear shown
  names : reply.found = none → reply.attempts.Names shown cursor.offset

/-- A reading that names a rule informs, whether it succeeds or not. -/
theorem Informs.of_names (h : reply.attempts.Names shown cursor.offset) : reply.Informs shown cursor :=
  ⟨h.shows.tells, fun _ => h⟩

/-- A reading that succeeds informs if it tells behind its match. -/
theorem Informs.of_found (found : Match R) (hfound : reply.found = some found)
    (h : reply.attempts.Tells shown found.next.offset) : reply.Informs shown cursor := by
  refine ⟨?_, fun hnone => ?_⟩
  · rwa [Tells, stop_of_found hfound]
  · rw [hfound] at hnone
    cases hnone

/-- A success without failures informs. -/
theorem informs_ok (found : Match R) : (ok found).Informs shown cursor :=
  ⟨Attempts.tells_none, by rintro ⟨⟩⟩

/-- A reading that reports informs. -/
theorem Reports.informs (h : reply.Reports shown cursor) : reply.Informs shown cursor :=
  ⟨h.clear.tells, h.names⟩

/-- What tells something from the start on also does so behind what was read. -/
theorem Consumes.tells (h : reply.Consumes cursor) (htells : reply.attempts.Tells shown cursor.offset) :
    reply.Tells shown cursor :=
  htells.mono h.offset_le

/-- What is optional never fails. -/
theorem Tells.orEmpty (h : reply.Tells shown cursor) : (reply.orEmpty cursor).Informs shown cursor :=
  ⟨h, by rintro ⟨⟩⟩

/-- A property of failures that is kept when they are merged is one of a reading and what follows it. -/
theorem attempts_andThen {P : Attempts R → Prop} (hmerge : ∀ {a b}, P a → P b → P (a.merge b))
    {later : Match R → Reply R} (h : P reply.attempts)
    (hlater : ∀ found, reply.found = some found → P (later found).attempts) :
    P (reply.andThen later).attempts := by
  rcases hfound : reply.found with _ | found
  · rwa [attempts_andThen_of_not_found hfound]
  · rw [attempts_andThen_of_found hfound]
    exact hmerge h (hlater found hfound)

/-- What is tried behind a match fails there, if it does, and so at least as far as all hidden rules. -/
theorem Informs.andThen {later : Match R → Reply R} (h : reply.Informs shown cursor)
    (hconsumes : reply.Consumes cursor) (hlater : ∀ found, reply.found = some found →
      (later found).Informs shown found.next ∧ (later found).Consumes found.next) :
    (reply.andThen later).Informs shown cursor := by
  obtain ⟨htells, hnames⟩ := h
  rcases hfound : reply.found with _ | first
  · refine .of_names ?_
    rw [attempts_andThen_of_not_found hfound]
    exact hnames hfound
  · obtain ⟨hinforms, hconsumes'⟩ := hlater first hfound
    have hle := (hconsumes first hfound).2
    rw [Tells, stop_of_found hfound] at htells
    rcases hsecond : (later first).found with _ | second
    -- The second part fails behind the first one, where its attempts name a rule.
    · have hmerged := Attempts.Names.merge_right htells (hinforms.names hsecond)
      rw [← attempts_andThen_of_found hfound] at hmerged
      exact .of_names (hmerged.mono (by omega))
    · have hwhole : (reply.andThen later).found = some (first.append second) := by simp [hfound, hsecond]
      have hstop := (htells.mono hconsumes'.offset_le).merge hinforms.tells
      rw [stop_of_found hsecond, ← attempts_andThen_of_found hfound] at hstop
      exact .of_found _ hwhole hstop

/-- Of two alternatives that fail, it is enough that one names a rule that is shown. -/
theorem Tells.orElse {other : Unit → Reply R} (h : reply.Tells shown cursor)
    (h' : (other ()).Tells shown cursor) (hconsumes : (other ()).Consumes cursor)
    (hnames : reply.found = none → (other ()).found = none →
      reply.attempts.Names shown cursor.offset ∨ (other ()).attempts.Names shown cursor.offset) :
    (reply.orElse other).Informs shown cursor := by
  rcases hfound : reply.found with _ | first
  · rw [Tells, stop_of_not_found hfound] at h
    rcases hother : (other ()).found with _ | second
    · rw [Tells, stop_of_not_found hother] at h'
      refine .of_names ?_
      rw [attempts_orElse_of_not_found hfound]
      -- Both fail, and the choice names a rule as soon as one of them does.
      rcases hnames hfound hother with hfirst | hsecond
      · exact hfirst.merge_left h'
      · exact .merge_right h hsecond
    · have hwhole : (reply.orElse other).found = some second := by simp [hfound, hother]
      have hstop := (h.mono hconsumes.offset_le).merge h'
      rw [stop_of_found hother, ← attempts_orElse_of_not_found hfound] at hstop
      exact .of_found _ hwhole hstop
  · have hwhole : (reply.orElse other).found = some first := by simp [hfound]
    rw [Tells, stop_of_found hfound, ← attempts_orElse_of_found hfound] at h
    exact .of_found _ hwhole h

/-- A rule's own failure is at its start, so it hides nothing that failed behind it. -/
theorem tells_record (rule : R) {mode : Mode} (hmode : mode ≠ .atomic)
    (h : reply.attempts.Tells shown cursor.offset) :
    (reply.record rule mode cursor).attempts.Tells shown cursor.offset := by
  rcases hfound : reply.found with _ | found
  · rw [attempts_record_of_not_found hfound rule hmode]
    exact h.ofRule rule
  · rwa [attempts_record_of_found hfound]

/-- A rule that is shown names itself, or what failed in its body, where it fails. -/
theorem reports_record {rule : R} {mode : Mode} (hrule : shown rule) (hmode : mode ≠ .atomic)
    (h : reply.attempts.Clear shown) : (reply.record rule mode cursor).Reports shown cursor := by
  rcases hfound : reply.found with _ | found
  · have hnames : (reply.record rule mode cursor).attempts.Names shown cursor.offset := by
      rw [attempts_record_of_not_found hfound rule hmode]
      exact Attempts.names_ofRule hrule h
    exact ⟨.inr hnames.shows, fun _ => hnames⟩
  · refine ⟨by rwa [attempts_record_of_found hfound], fun hnone => ?_⟩
    simp [found_record hmode, hfound] at hnone

/-- Recording a rule that is shown keeps the information. -/
theorem Informs.record {rule : R} {mode : Mode} (h : reply.Informs shown cursor) (hrule : shown rule)
    (hmode : mode ≠ .atomic) : (reply.record rule mode cursor).Informs shown cursor := by
  rcases hfound : reply.found with _ | found
  · exact (reports_record hrule hmode (.inr (h.names hfound).shows)).informs
  · have htells := h.tells
    rw [Tells, stop_of_found hfound, ← attempts_record_of_found hfound rule mode cursor] at htells
    exact .of_found (found.asTree rule cursor) (by simp [found_record hmode, hfound]) htells

/-- Layout leaves no failures: what is read behind it has the failures, and it names them there. -/
theorem Informs.behind {later : Match R → Reply R} {gap : Match R} (h : (later gap).Informs shown gap.next)
    (cursor : Cursor) : ((ok gap).andThen later).Tells shown cursor ∧
      (((ok gap).andThen later).found = none →
        ((ok gap).andThen later).attempts.Names shown gap.next.offset) := by
  rcases hfound : (later gap).found with _ | found
  · have hnames := h.names hfound
    rw [← attempts_ok_andThen] at hnames
    exact ⟨hnames.shows.tells, fun _ => hnames⟩
  · have htells := h.tells
    rw [Tells, stop_of_found hfound, ← attempts_ok_andThen] at htells
    have hinforms : ((ok gap).andThen later).Informs shown cursor :=
      .of_found (gap.append found) (by simp [hfound]) htells
    exact ⟨hinforms.tells, fun hnone => by simp [hfound] at hnone⟩

end Reply

/-! ## Expressions -/

/-- The rules whose failures are failures of an expression: those it calls, but not under a negation. -/
def Expr.calls : Expr R → List R
  | start | literal _ | caseless _ | char _ | not _ => []
  | seq first second | alt first second => first.calls ++ second.calls
  | opt body | star body => body.calls
  | call rule => [rule]

/-- A property of failures that is kept by putting them together holds for rounds if it holds for each. -/
theorem roundsWithin_attempts {P : Attempts R → Prop} (hmerge : ∀ {a b}, P a → P b → P (a.merge b))
    {step : Cursor → Reply R} (h : ∀ cursor, P (step cursor).attempts) :
    ∀ bound cursor, P (roundsWithin step bound cursor).attempts
  | [], cursor => h cursor
  | _ :: bound, cursor => by
    rw [roundsWithin]
    rcases hfound : (step cursor).found with _ | found
    · exact h cursor
    · simp only
      split
      · exact h cursor
      -- The attempts of this round are joined with those of the rounds behind it.
      · simp only [Reply.andThen, hfound]
        exact hmerge (h cursor) (roundsWithin_attempts hmerge h bound found.next)

/-- A property of failures that is kept when they are merged is one of the failures of an expression, if the
rules have it that the expression calls. -/
theorem Expr.run_attempts {P : Attempts R → Prop} (hnone : P .none)
    (hmerge : ∀ {a b}, P a → P b → P (a.merge b)) {layout : Mode → Cursor → Match R} {call : R → Phrase R}
    {mode : Mode} (e : Expr R) (hcalls : ∀ rule ∈ e.calls, ∀ cursor, P (call rule mode cursor).attempts) :
    ∀ cursor, P (e.run layout call mode cursor).attempts := by
  -- Layout leaves no failures, so behind it only what follows counts.
  have hgap : ∀ {body : Phrase R} {place}, (∀ cursor, P (body mode cursor).attempts) →
      P ((Reply.ok (layout mode place)).andThen fun gap => body mode gap.next).attempts := by
    intro body place h
    rw [Reply.attempts_ok_andThen]
    exact h _
  induction e with
  | start =>
    intro cursor
    rw [run]
    split <;> exact hnone
  | literal text | caseless text => exact fun cursor => hnone
  | char accepts =>
    intro cursor
    rw [run]
    split
    · exact hnone
    · split <;> exact hnone
  | seq first second ih ih' =>
    exact fun cursor => Reply.attempts_andThen hmerge
      (ih (fun rule h => hcalls rule (List.mem_append_left _ h)) cursor)
      fun found _ => hgap (ih' fun rule h => hcalls rule (List.mem_append_right _ h))
  | alt first second ih ih' =>
    intro cursor
    have hfirst := ih (fun rule h => hcalls rule (List.mem_append_left _ h)) cursor
    rw [run, Reply.orElse]
    split
    · exact hfirst
    · exact hmerge hfirst (ih' (fun rule h => hcalls rule (List.mem_append_right _ h)) cursor)
  | opt body ih => exact ih hcalls
  | star body ih =>
    exact fun cursor => Reply.attempts_andThen hmerge (ih hcalls cursor) fun found _ =>
      roundsWithin_attempts hmerge (fun place => hgap (ih hcalls)) _ _
  | not body ih =>
    intro cursor
    rw [run]
    split <;> exact hnone
  | call rule => exact hcalls rule (List.mem_singleton_self rule)

/-- An expression leaves no failures if the rules leave none that it calls. -/
theorem Expr.run_attempts_none {layout : Mode → Cursor → Match R} {call : R → Phrase R} {mode : Mode} (e : Expr R)
    (hcalls : ∀ rule ∈ e.calls, ∀ cursor, (call rule mode cursor).attempts = .none) (cursor : Cursor) :
    (e.run layout call mode cursor).attempts = .none := by
  refine e.run_attempts (P := (· = .none)) rfl ?_ hcalls cursor
  rintro _ _ rfl rfl
  exact Attempts.none_merge _

/-- An expression that calls only rules that are clear is clear. -/
theorem Expr.run_clear {layout : Mode → Cursor → Match R} {call : R → Phrase R} {mode : Mode} (e : Expr R)
    (hcalls : ∀ rule ∈ e.calls, ∀ cursor, (call rule mode cursor).attempts.Clear shown) (cursor : Cursor) :
    (e.run layout call mode cursor).attempts.Clear shown :=
  e.run_attempts (.inl rfl) .merge hcalls cursor

/-! ## Repetitions -/

/-- Rounds end with one that fails, which names a rule that is shown. Where that is, given the place behind
the rounds, is up to the layout before a round. -/
theorem roundsWithin_names {step : Cursor → Reply R} {length : Nat} (reach : Cursor → Nat)
    (hreach : ∀ place, place.offset ≤ reach place) (hconsumes : ∀ place, (step place).Consumes place)
    (hne : ∀ place, (step place).NonEmpty)
    (htells : ∀ place, place.rest.length ≤ length → (step place).Tells shown place)
    (hnames : ∀ place, place.rest.length ≤ length → (step place).found = none →
      (step place).attempts.Names shown (reach place)) :
    ∀ bound cursor, cursor.rest.length ≤ bound.length → cursor.rest.length ≤ length →
      ∃ found, (roundsWithin step bound cursor).found = some found ∧
        (roundsWithin step bound cursor).attempts.Names shown (reach found.next)
  | [], cursor, hbound, hlength => by
    refine ⟨.empty cursor, rfl, hnames cursor hlength ?_⟩
    -- Nothing is left that a round could read.
    rcases hfound : (step cursor).found with _ | found
    · rfl
    · have hshort := (hconsumes cursor found hfound).length_lt (hne cursor found hfound)
      simp only [List.length_nil] at hbound
      omega
  | _ :: bound, cursor, hbound, hlength => by
    rw [roundsWithin]
    rcases hfound : (step cursor).found with _ | round
    · exact ⟨.empty cursor, by simp [hfound], hnames cursor hlength hfound⟩
    · have hround := hconsumes cursor round hfound
      have hshort := hround.length_lt (hne cursor round hfound)
      rw [List.length_cons] at hbound
      obtain ⟨later, hlater, hrest⟩ := roundsWithin_names reach hreach hconsumes hne htells hnames bound round.next
        (by omega) (by omega)
      have hle := (roundsWithin_consumes hconsumes bound round.next later hlater).2
      have hfirst := htells cursor hlength
      rw [Reply.Tells, Reply.stop_of_found hfound] at hfirst
      simp only [List.isEmpty_iff, hne cursor round hfound, if_false]
      refine ⟨round.append later, by simp [hfound, hlater], ?_⟩
      simp only [Reply.andThen, hfound, Match.append_next]
      have hbehind := hreach later.next
      exact .merge_right (hfirst.mono (by omega)) hrest

section

variable {layout : Mode → Cursor → Match R} {call : R → Phrase R} {mode : Mode} {body : Expr R} {cursor : Cursor}

/-- The rounds behind a first one end where the expression has failed behind the layout, which names a rule that
is shown. -/
theorem Expr.rounds_names (hl : ∀ mode cursor, (layout mode cursor).StartsAt cursor)
    (hconsumes : ∀ rule mode cursor, (call rule mode cursor).Consumes cursor)
    (hne : ∀ cursor, (body.run layout call mode cursor).NonEmpty)
    (h : ∀ place, place.rest.length ≤ cursor.rest.length →
      (body.run layout call mode place).Informs shown place) :
    ∃ later, (rounds (fun place => (Reply.ok (layout mode place)).andThen fun gap =>
        body.run layout call mode gap.next) cursor).found = some later ∧
      (rounds (fun place => (Reply.ok (layout mode place)).andThen fun gap =>
        body.run layout call mode gap.next) cursor).attempts.Names shown (layout mode later.next).next.offset ∧
      cursor.offset ≤ later.next.offset := by
  -- A round is layout and the body behind it.
  have hgap : ∀ place, (Reply.ok (layout mode place)).Consumes place := fun place =>
    Reply.ok_consumes (hl mode place)
  have hround : ∀ place, ((Reply.ok (layout mode place)).andThen fun gap =>
      body.run layout call mode gap.next).Consumes place :=
    fun place => (hgap place).andThen fun gap _ => Expr.run_consumes hl hconsumes body mode gap.next
  have hroundNe : ∀ place, ((Reply.ok (layout mode place)).andThen fun gap =>
      body.run layout call mode gap.next).NonEmpty := by
    intro place found hplace
    rw [Reply.found_andThen, Reply.found_ok, Option.bind_some, Option.map_eq_some_iff] at hplace
    obtain ⟨inner, hinner, rfl⟩ := hplace
    simp [hne _ inner hinner]
  have hinforms : ∀ place, place.rest.length ≤ cursor.rest.length →
      (body.run layout call mode (layout mode place).next).Informs shown (layout mode place).next :=
    fun place hplace => h _ (Nat.le_trans (hl mode place).length_le hplace)
  -- The last round fails, and its body names a rule behind the layout there.
  obtain ⟨later, hlater, hnames⟩ := roundsWithin_names
    (fun place => (layout mode place).next.offset) (fun place => (hgap place).offset_le) hround hroundNe
    (fun place hplace => ((hinforms place hplace).behind place).1)
    (fun place hplace => ((hinforms place hplace).behind place).2) cursor.rest cursor (Nat.le_refl _) (Nat.le_refl _)
  have hle := (roundsWithin_consumes hround cursor.rest cursor later hlater).2
  exact ⟨later, hlater, hnames, by omega⟩

/-- Behind what a repetition has read, or behind the layout there, its expression has failed and named a rule
that is shown. -/
theorem Expr.run_star_names (hl : ∀ mode cursor, (layout mode cursor).StartsAt cursor)
    (hconsumes : ∀ rule mode cursor, (call rule mode cursor).Consumes cursor)
    (hne : ∀ cursor, (body.run layout call mode cursor).NonEmpty)
    (h : ∀ place, place.rest.length ≤ cursor.rest.length →
      (body.run layout call mode place).Informs shown place) :
    ∃ found, ((star body).run layout call mode cursor).found = some found ∧
      ((star body).run layout call mode cursor).attempts.Names shown found.next.offset ∧
      (found.text ≠ [] → ((star body).run layout call mode cursor).attempts.Names shown
        (layout mode found.next).next.offset) := by
  rcases hfound : (body.run layout call mode cursor).found with _ | first
  · refine ⟨.empty cursor, by simp [run, hfound], ?_, fun hempty => absurd rfl hempty⟩
    have hnames := (h cursor (Nat.le_refl _)).names hfound
    simp only [run, Reply.orEmpty, Reply.andThen, hfound]
    exact hnames
  · have hfirst := (Expr.run_consumes hl hconsumes body mode cursor first hfound).length_le
    obtain ⟨later, hlater, hnames, hle⟩ := Expr.rounds_names hl hconsumes hne fun place hplace =>
      h place (Nat.le_trans hplace hfirst)
    -- The round that fails at last is tried behind the gap, so what it names is that far on.
    have hreach := (hl mode later.next).2
    have htells := (h cursor (Nat.le_refl _)).tells
    rw [Reply.Tells, Reply.stop_of_found hfound] at htells
    have hmerged := Attempts.Names.merge_right (htells.mono (by omega)) hnames
    refine ⟨first.append later, ?_, ?_⟩
    · simp only [run, Reply.found_orEmpty, Reply.found_andThen, hfound, Option.bind_some]
      rw [hlater]
      rfl
    · simp only [run, Reply.orEmpty, Reply.andThen, hfound]
      exact ⟨hmerged.mono (by simp only [Match.append_next]; omega), fun _ => hmerged⟩

end

/-! ## Rules -/

namespace Kind

/-- The mode in which a rule of this kind reads its body. -/
def inner : Kind → Mode → Mode
  | branch, mode | silent, mode => mode
  | token, _ | layout, _ => .atomic
  | tight, _ => .tight

/-- Whether a rule of this kind is recorded. -/
def Recorded (kind : Kind) : Prop :=
  kind = .branch ∨ kind = .token ∨ kind = .tight

instance (kind : Kind) : Decidable kind.Recorded :=
  inferInstanceAs (Decidable (_ ∨ _))

variable {kind : Kind} {mode : Mode}

/-- A rule of a recorded kind reads its body in a mode of its kind, and is recorded. -/
theorem read_eq_record (hkind : kind.Recorded) (hmode : mode ≠ .atomic) (rule : R) (body : Phrase R)
    (cursor : Cursor) : ∃ outer ≠ .atomic,
      kind.read rule body mode cursor = (body (kind.inner mode) cursor).record rule outer cursor := by
  rcases hkind with rfl | rfl | rfl
  · exact ⟨mode, hmode, rfl⟩
  · exact ⟨mode, hmode, rfl⟩
  · exact ⟨.tight, by decide, rfl⟩

/-- Only tokens have a body without recording. -/
theorem inner_ne_atomic (hkind : kind.Recorded) (htoken : kind ≠ .token) (hmode : mode ≠ .atomic) :
    kind.inner mode ≠ .atomic := by
  rcases hkind with rfl | rfl | rfl
  · exact hmode
  · exact absurd rfl htoken
  · exact fun h => Mode.noConfusion h

end Kind

namespace Grammar

variable {g : Grammar R}

/-- Rules that are known to be helpful: those that are `plain` call only such rules, but tokens call rules that
are `quiet`, and these call one another. -/
structure Helpful (g : Grammar R) (shown quiet plain : R → Prop) : Prop where
  /-- A quiet rule does not record what it calls in atomic mode. -/
  quiet_kind : ∀ rule, quiet rule → (g.production rule).kind ≠ .tight
  /-- Quiet rules call quiet rules. -/
  quiet_calls : ∀ rule, quiet rule → ∀ head ∈ (g.production rule).body.calls, quiet head
  /-- Plain rules are recorded. -/
  kind : ∀ rule, plain rule → (g.production rule).kind.Recorded
  /-- Plain rules call plain rules, and tokens quiet ones. -/
  calls : ∀ rule, plain rule → ∀ head ∈ (g.production rule).body.calls,
    if (g.production rule).kind = .token then quiet head else plain head
  /-- Plain rules that are hidden never fail. -/
  shown_or_star : ∀ rule, plain rule → shown rule ∨ ∃ body, (g.production rule).body = .star body

variable {quiet plain : R → Prop}

/-- Quiet rules leave no failures in atomic mode. -/
theorem phraseWithin_silent (hg : g.Helpful shown quiet plain) : ∀ depth rule cursor, quiet rule →
    (g.phraseWithin depth rule .atomic cursor).attempts = .none
  | 0, _, _, _ => rfl
  | depth + 1, rule, cursor, hrule => by
    -- The calls below are quiet as well, at less depth.
    have hbody : ((g.production rule).body.run (g.gap (g.phraseWithin depth)) (g.phraseWithin depth) .atomic
        cursor).attempts = .none :=
      Expr.run_attempts_none _ (fun head hhead place =>
        phraseWithin_silent hg depth head place (hg.quiet_calls rule hrule head hhead)) cursor
    rw [phraseWithin, Kind.read.eq_def]
    cases hk : (g.production rule).kind with
    | tight => exact absurd hk (hg.quiet_kind rule hrule)
    | branch | token | silent | layout => exact hbody

/-- What a plain rule meets in its body is clear, in the mode in which it reads it. -/
theorem body_clear (hg : g.Helpful shown quiet plain) {depth : Nat}
    (ih : ∀ rule mode cursor, plain rule → mode ≠ .atomic →
      (g.phraseWithin depth rule mode cursor).attempts.Clear shown)
    {rule : R} {mode : Mode} (hrule : plain rule) (hmode : mode ≠ .atomic) (cursor : Cursor) :
    ((g.production rule).body.run (g.gap (g.phraseWithin depth)) (g.phraseWithin depth)
      ((g.production rule).kind.inner mode) cursor).attempts.Clear shown := by
  refine Expr.run_clear _ (fun head hhead place => ?_) cursor
  have hcall := hg.calls rule hrule head hhead
  -- Inside a token nothing is reported; elsewhere the calls are plain again.
  by_cases hk : (g.production rule).kind = .token
  · rw [if_pos hk] at hcall
    rw [hk, Kind.inner, phraseWithin_silent hg depth head place hcall]
    exact .inl rfl
  · rw [if_neg hk] at hcall
    exact ih head _ place hcall (Kind.inner_ne_atomic (hg.kind rule hrule) hk hmode)

/-- Failures of a plain rule are clear, however deep calls may go. -/
theorem phraseWithin_clear (hg : g.Helpful shown quiet plain) (depth : Nat) : ∀ rule mode cursor, plain rule →
    mode ≠ .atomic → (g.phraseWithin depth rule mode cursor).attempts.Clear shown := by
  induction depth with
  | zero => exact fun _ _ _ _ _ => .inl rfl
  | succ depth ih =>
    intro rule mode cursor hrule hmode
    have hbody := body_clear hg ih hrule hmode cursor
    obtain ⟨outer, houter, hread⟩ := Kind.read_eq_record (hg.kind rule hrule) hmode rule
      ((g.production rule).body.run (g.gap (g.phraseWithin depth)) (g.phraseWithin depth)) cursor
    rw [phraseWithin, hread]
    rcases hg.shown_or_star rule hrule with hshown | ⟨body, hstar⟩
    · exact (Reply.reports_record hshown houter hbody).clear
    -- A repetition never fails, so a hidden rule is not recorded as a failure.
    · rw [hstar] at hbody ⊢
      rw [Reply.record, if_neg houter]
      exact hbody

/-- A plain rule that is shown names itself, or what failed in its body, where it fails. -/
theorem phrase_reports (hg : g.Helpful shown quiet plain) {rule : R} (hrule : plain rule) (hshown : shown rule)
    {mode : Mode} (hmode : mode ≠ .atomic) (cursor : Cursor) :
    (g.phrase rule mode cursor).Reports shown cursor := by
  obtain ⟨depth, hdepth⟩ : ∃ depth, g.depth cursor = depth + 1 :=
    Nat.exists_eq_add_one_of_ne_zero (Nat.ne_of_gt (Nat.mul_pos (Nat.succ_pos _) (Nat.succ_pos _)))
  obtain ⟨outer, houter, hread⟩ := Kind.read_eq_record (hg.kind rule hrule) hmode rule
    ((g.production rule).body.run (g.gap (g.phraseWithin depth)) (g.phraseWithin depth)) cursor
  rw [phrase, hdepth, phraseWithin, hread]
  exact Reply.reports_record hshown houter (body_clear hg (phraseWithin_clear hg depth) hrule hmode cursor)

end Grammar

end DotLang.Peg
