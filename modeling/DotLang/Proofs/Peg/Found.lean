import DotLang.Peg.Recursion

/-!
# What is found

The matches that expressions find, apart from the failures met on the way. Every way of combining replies
acts on their matches alone (`Reply.found_andThen` and its companions), and the rounds of a repetition
obey the equation one expects of them, without the bound on their number (`rounds_found`).
-/

namespace DotLang.Peg

variable {R : Type}

namespace ParseTree

variable (rule : R) (start : Nat) (text : List Char) (children : List (ParseTree R))

@[simp] theorem rule_node : (node rule start text children).rule = rule := rfl

@[simp] theorem start_node : (node rule start text children).start = start := rfl

@[simp] theorem text_node : (node rule start text children).text = text := rfl

@[simp] theorem children_node : (node rule start text children).children = children := rfl

end ParseTree

namespace Match

@[simp] theorem empty_append (cursor : Cursor) (found : Match R) :
    (empty cursor).append found = found := rfl

@[simp] theorem map_empty_append (cursor : Cursor) (found : Option (Match R)) :
    found.map (empty cursor).append = found := by
  cases found <;> rfl

@[simp] theorem append_empty (found : Match R) : found.append (empty found.next) = found := by
  simp [append, empty]

@[simp] theorem append_text (first second : Match R) :
    (first.append second).text = first.text ++ second.text := rfl

@[simp] theorem append_trees (first second : Match R) :
    (first.append second).trees = first.trees ++ second.trees := rfl

@[simp] theorem append_next (first second : Match R) : (first.append second).next = second.next := rfl

@[simp] theorem empty_text (cursor : Cursor) : (empty cursor : Match R).text = [] := rfl

@[simp] theorem empty_trees (cursor : Cursor) : (empty cursor : Match R).trees = [] := rfl

@[simp] theorem empty_next (cursor : Cursor) : (empty cursor : Match R).next = cursor := rfl

/-- The match of a rule whose body has a match at the cursor: the same text, and one tree. -/
def asTree (rule : R) (cursor : Cursor) (found : Match R) : Match R :=
  ⟨found.text, [.node rule cursor.offset found.text found.trees], found.next⟩

@[simp] theorem asTree_next (rule : R) (cursor : Cursor) (found : Match R) :
    (found.asTree rule cursor).next = found.next := rfl

@[simp] theorem asTree_trees (rule : R) (cursor : Cursor) (found : Match R) :
    (found.asTree rule cursor).trees = [.node rule cursor.offset found.text found.trees] := rfl

end Match

namespace Reply

@[simp] theorem found_ok (found : Match R) : (ok found).found = some found := rfl

@[simp] theorem found_fail : (fail : Reply R).found = none := rfl

/-- A reading and another one behind it are found if both are, one behind the other. -/
@[simp] theorem found_andThen (reply : Reply R) (later : Match R → Reply R) :
    (reply.andThen later).found =
      reply.found.bind fun first => (later first).found.map first.append := by
  rcases h : reply.found with _ | first <;> simp [andThen, h]

/-- Of two alternatives, the first that is found counts. -/
@[simp] theorem found_orElse (reply : Reply R) (other : Unit → Reply R) :
    (reply.orElse other).found = reply.found.or (other ()).found := by
  rcases h : reply.found with _ | first <;> simp [orElse, h]

@[simp] theorem found_orEmpty (cursor : Cursor) (reply : Reply R) :
    (reply.orEmpty cursor).found = some (reply.found.getD (.empty cursor)) := rfl

/-- Outside atomic mode, what is found for a rule becomes its tree. -/
theorem found_record {mode : Mode} (hmode : mode ≠ .atomic) (rule : R) (cursor : Cursor)
    (reply : Reply R) :
    (reply.record rule mode cursor).found = reply.found.map (Match.asTree rule cursor) := by
  rcases h : reply.found with _ | found <;> simp [record, hmode, h, Match.asTree]

/-- Within tokens, recording a rule leaves no tree. -/
@[simp] theorem found_record_atomic (rule : R) (cursor : Cursor) (reply : Reply R) :
    (reply.record rule .atomic cursor).found = reply.found := by
  simp [record]

end Reply

/-! ## Rounds -/

/-- Rounds always find something, be it nothing but the empty text. -/
theorem roundsWithin_found_isSome (step : Cursor → Reply R) :
    ∀ (bound : List Char) (cursor : Cursor), (roundsWithin step bound cursor).found.isSome
  | [], _ => rfl
  | _ :: bound, cursor => by
    rw [roundsWithin]
    rcases hr : (step cursor).found with _ | found
    · simp
    · by_cases hempty : found.text.isEmpty
      · simp [hempty]
      · simp [hempty, hr, roundsWithin_found_isSome step bound found.next]

/-- Rounds find the empty text, or a round and further rounds behind it. -/
theorem roundsWithin_found_cases {step : Cursor → Reply R} {c : Char} {bound : List Char}
    {cursor : Cursor} {found : Match R} (h : (roundsWithin step (c :: bound) cursor).found = some found) :
    found = .empty cursor ∨
      ∃ round later, (step cursor).found = some round ∧
        (roundsWithin step bound round.next).found = some later ∧ found = round.append later := by
  rw [roundsWithin] at h
  rcases hround : (step cursor).found with _ | round
  · exact .inl (by simpa [hround, eq_comm] using h)
  · simp only [hround] at h
    split at h
    -- A round that reads nothing is not kept.
    · exact .inl (by simpa [eq_comm] using h)
    · rw [Reply.found_andThen, hround, Option.bind_some, Option.map_eq_some_iff] at h
      obtain ⟨later, hlater, rfl⟩ := h
      exact .inr ⟨round, later, rfl, hlater, rfl⟩

/-- Where nothing is left, rounds find nothing. -/
theorem roundsWithin_found_of_rest_nil {step : Cursor → Reply R}
    (hstep : ∀ cursor, (step cursor).Consumes cursor) (bound : List Char) {cursor : Cursor}
    (hrest : cursor.rest = []) : (roundsWithin step bound cursor).found = some (.empty cursor) := by
  cases bound with
  | nil => rfl
  | cons _ bound =>
    rw [roundsWithin]
    rcases hr : (step cursor).found with _ | found
    · simp [hr]
    · -- A round that succeeds here has read nothing, which ends the repetition.
      have htext := (hstep cursor found hr).1
      rw [hrest] at htext
      simp [(List.append_eq_nil_iff.1 htext.symm).1]

/-- A bound as long as what is left is as good as any longer one. -/
theorem roundsWithin_found_congr {step : Cursor → Reply R}
    (hstep : ∀ cursor, (step cursor).Consumes cursor) :
    ∀ (bound bound' : List Char) (cursor : Cursor), cursor.rest.length ≤ bound.length →
      cursor.rest.length ≤ bound'.length →
      (roundsWithin step bound cursor).found = (roundsWithin step bound' cursor).found
  -- A bound that is used up leaves no characters, so the other rounds find nothing either.
  | [], bound', cursor, h, _ => by
    have hrest : cursor.rest = [] := List.eq_nil_of_length_eq_zero (by simpa using h)
    rw [roundsWithin_found_of_rest_nil hstep [] hrest, roundsWithin_found_of_rest_nil hstep bound' hrest]
  | c :: bound, [], cursor, _, h => by
    have hrest : cursor.rest = [] := List.eq_nil_of_length_eq_zero (by simpa using h)
    rw [roundsWithin_found_of_rest_nil hstep (c :: bound) hrest,
      roundsWithin_found_of_rest_nil hstep [] hrest]
  | _ :: bound, _ :: bound', cursor, h, h' => by
    rw [roundsWithin, roundsWithin]
    rcases hr : (step cursor).found with _ | found
    · simp [hr]
    · by_cases hempty : found.text.isEmpty
      · simp [hempty]
      · -- A round that reads something leaves less, so the shorter bounds are still long enough.
        have hshort := (hstep cursor found hr).length_lt (by simpa [List.isEmpty_iff] using hempty)
        simp only [List.length_cons] at h h'
        simp only [hempty, Bool.false_eq_true, if_false, Reply.found_andThen, hr, Option.bind_some]
        rw [roundsWithin_found_congr hstep bound bound' found.next (by omega) (by omega)]

/-- Rounds end where no further one succeeds, and go on behind one that does. -/
theorem rounds_found {step : Cursor → Reply R} (hstep : ∀ cursor, (step cursor).Consumes cursor)
    (hne : ∀ cursor, (step cursor).NonEmpty) (cursor : Cursor) :
    (rounds step cursor).found =
      match (step cursor).found with
      | none => some (.empty cursor)
      | some found => (rounds step found.next).found.map found.append := by
  rcases hrest : cursor.rest with _ | ⟨c, cs⟩
  · rw [rounds, roundsWithin_found_of_rest_nil hstep _ hrest]
    rcases hr : (step cursor).found with _ | found
    · rfl
    · -- No round succeeds where nothing is left, since every one of them reads something.
      have htext := (hstep cursor found hr).1
      rw [hrest] at htext
      exact absurd (List.append_eq_nil_iff.1 htext.symm).1 (hne cursor found hr)
  · rw [rounds, hrest, roundsWithin]
    rcases hr : (step cursor).found with _ | found
    · simp [hr]
    · have hshort := (hstep cursor found hr).length_lt (hne cursor found hr)
      rw [hrest, List.length_cons] at hshort
      simp only [List.isEmpty_iff, hne cursor found hr, if_false, Reply.found_andThen, hr,
        Option.bind_some]
      -- The rounds behind this one are bounded by `cs`, which is longer than what is left there.
      rw [rounds, roundsWithin_found_congr hstep cs found.next.rest found.next (by omega)
        (Nat.le_refl _)]

/-- A repetition finds the empty text, or a first round and further rounds with layout between them. -/
theorem Expr.run_star_cases {layout : Mode → Cursor → Match R} {call : R → Phrase R} {body : Expr R}
    {mode : Mode} {cursor : Cursor} {found : Match R}
    (h : ((star body).run layout call mode cursor).found = some found) :
    found = .empty cursor ∨
      ∃ first later, (body.run layout call mode cursor).found = some first ∧
        (rounds (fun place => (Reply.ok (layout mode place)).andThen fun gap =>
          body.run layout call mode gap.next) first.next).found = some later ∧
        found = first.append later := by
  simp only [Expr.run, Reply.found_orEmpty, Option.some.injEq, Reply.found_andThen] at h
  rcases hfirst : (body.run layout call mode cursor).found with _ | first
  · exact .inl (by simpa [hfirst, eq_comm] using h)
  · rw [hfirst, Option.bind_some] at h
    rcases hlater : (rounds (fun place => (Reply.ok (layout mode place)).andThen fun gap =>
        body.run layout call mode gap.next) first.next).found with _ | later
    · exact .inl (by simpa [hlater, eq_comm] using h)
    · exact .inr ⟨first, later, rfl, hlater, by simpa [hlater, eq_comm] using h⟩

/-- An expression reads the same with two layouts that agree in the mode in which it is read. -/
theorem Expr.run_layout_congr {layout layout' : Mode → Cursor → Match R} {call : R → Phrase R}
    {mode : Mode} (h : ∀ cursor, layout mode cursor = layout' mode cursor) (e : Expr R) :
    ∀ cursor, e.run layout call mode cursor = e.run layout' call mode cursor := by
  induction e with
  | start | literal | caseless | char | call => exact fun _ => rfl
  | seq first second ih ih' => simp [Expr.run, ih, ih', h]
  | alt first second ih ih' => simp [Expr.run, ih, ih']
  | opt body ih | not body ih => simp [Expr.run, ih]
  | star body ih => simp [Expr.run, ih, h]

end DotLang.Peg
