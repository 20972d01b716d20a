import DotLang.Peg.Consumption

/-!
# Recursion without left recursion

Rules may be ranked so that a rule calls only rules of lower rank before it has read anything. Then calls
go no deeper than `Grammar.depth` allows, and `Grammar.phrase_eq` holds: a rule reads what its body reads,
where calls in the body read what the rules they name read. The bound on depth is gone from this equation.
-/

namespace DotLang.Peg

variable {R : Type}

namespace Expr

/-- Whether an expression may succeed and read nothing, given of which rules this is so. -/
def mayBeEmpty (empty : R → Bool) : Expr R → Bool
  | .start => true
  | .literal text => text.isEmpty
  | .caseless text => text.isEmpty
  | .char _ => false
  | .seq first second => first.mayBeEmpty empty && second.mayBeEmpty empty
  | .alt first second => first.mayBeEmpty empty || second.mayBeEmpty empty
  | .opt _ => true
  | .star _ => true
  | .not _ => true
  | .call rule => empty rule

/-- The rules that an expression may call before anything is read, given those that layout may call. -/
def heads (empty : R → Bool) (layout : List R) : Expr R → List R
  | .start => []
  | .literal _ => []
  | .caseless _ => []
  | .char _ => []
  | .seq first second =>
    -- The second member is called at the same place only where the first one reads nothing.
    first.heads empty layout ++
      if first.mayBeEmpty empty then layout ++ second.heads empty layout else []
  | .alt first second => first.heads empty layout ++ second.heads empty layout
  | .opt body => body.heads empty layout
  | .star body =>
    body.heads empty layout ++ if body.mayBeEmpty empty then layout else []
  | .not body => body.heads empty layout
  | .call rule => [rule]

end Expr

namespace Reply

/-- Nothing that was found is empty. -/
def NonEmpty (reply : Reply R) : Prop :=
  ∀ found, reply.found = some found → found.text ≠ []

/-- What is read behind a match depends only on how it is read behind the match that was found. -/
theorem andThen_congr {reply : Reply R} {later later' : Match R → Reply R}
    (h : ∀ found, reply.found = some found → later found = later' found) :
    reply.andThen later = reply.andThen later' := by
  rcases hr : reply.found with _ | found
  · simp [andThen, hr]
  · simp [andThen, hr, h found hr]

end Reply

/-- Only an empty text is matched by an empty one. -/
theorem matchText_ne_nil {same : Char → Char → Bool} {text : List Char} {cursor : Cursor}
    {found : Match R} (h : matchText same text cursor = some found) (htext : text ≠ []) :
    found.text ≠ [] := by
  obtain ⟨offset, rest⟩ := cursor
  cases text with
  | nil => exact absurd rfl htext
  | cons c cs =>
    cases rest with
    | nil => simp [matchText] at h
    -- What is matched has the characters of the text read, here at least one.
    | cons d ds =>
      rw [matchText] at h
      split at h
      · obtain ⟨inner, _, rfl⟩ := Option.map_eq_some_iff.1 h
        simp
      · simp at h

/-- What an expression finds is not empty, unless it may be. -/
theorem Expr.run_nonEmpty {layout : Mode → Cursor → Match R} {call : R → Phrase R}
    {empty : R → Bool}
    (hc : ∀ rule mode cursor, empty rule = false → (call rule mode cursor).NonEmpty) (e : Expr R)
    (he : e.mayBeEmpty empty = false) :
    ∀ mode cursor, (e.run layout call mode cursor).NonEmpty := by
  induction e with
  | start => simp [mayBeEmpty] at he
  | literal text =>
    exact fun mode cursor found h => matchText_ne_nil h (by simpa [mayBeEmpty] using he)
  | caseless text =>
    exact fun mode cursor found h => matchText_ne_nil h (by simpa [mayBeEmpty] using he)
  | char accepts =>
    intro mode cursor found h
    rw [Expr.run] at h
    split at h
    · simp [Reply.fail] at h
    · split at h
      · simp only [Reply.ok, Option.some.injEq] at h
        subst h
        simp
      · simp [Reply.fail] at h
  -- One of the two members may not be empty, and layout between them adds at most.
  | seq first second ih ih' =>
    intro mode cursor found h
    rw [Expr.run] at h
    rcases hr : (first.run layout call mode cursor).found with _ | found₁
    · simp [Reply.andThen, hr] at h
    · simp only [Reply.andThen, hr, Reply.ok, Option.map_map, Option.map_eq_some_iff,
        Function.comp_apply] at h
      obtain ⟨found₂, hr', rfl⟩ := h
      simp only [mayBeEmpty, Bool.and_eq_false_iff] at he
      rcases he with he | he
      · simp [Match.append, ih he mode cursor found₁ hr]
      · simp [Match.append, ih' he mode _ found₂ hr']
  | alt first second ih ih' =>
    intro mode cursor found h
    simp only [mayBeEmpty, Bool.or_eq_false_iff] at he
    rw [Expr.run] at h
    rcases hr : (first.run layout call mode cursor).found with _ | found₁ <;>
      simp only [Reply.orElse, hr] at h
    · exact ih' he.2 mode cursor found h
    · exact ih he.1 mode cursor found (hr ▸ h)
  | opt body => simp [mayBeEmpty] at he
  | star body => simp [mayBeEmpty] at he
  | not body => simp [mayBeEmpty] at he
  | call rule => exact fun mode cursor => hc rule mode cursor (by simpa [mayBeEmpty] using he)

/-- An expression that finds an empty text is one that may be empty. -/
theorem Expr.mayBeEmpty_of_run {layout : Mode → Cursor → Match R} {call : R → Phrase R}
    {empty : R → Bool}
    (hc : ∀ rule mode cursor, empty rule = false → (call rule mode cursor).NonEmpty) {e : Expr R}
    {mode : Mode} {cursor : Cursor} {found : Match R}
    (h : (e.run layout call mode cursor).found = some found) (hempty : found.text = []) :
    e.mayBeEmpty empty = true := by
  cases he : e.mayBeEmpty empty with
  | true => rfl
  | false => exact absurd hempty (e.run_nonEmpty hc he mode cursor found h)

/-- Rounds of two steps that agree at the cursor and wherever less is left. -/
theorem roundsWithin_congr {step step' : Cursor → Reply R}
    (hstep : ∀ cursor, (step cursor).Consumes cursor) :
    ∀ bound cursor,
      (∀ place, place = cursor ∨ place.rest.length < cursor.rest.length → step place = step' place) →
      roundsWithin step bound cursor = roundsWithin step' bound cursor
  | [], cursor, h => by rw [roundsWithin, roundsWithin, h cursor (.inl rfl)]
  | _ :: bound, cursor, h => by
    rw [roundsWithin, roundsWithin, ← h cursor (.inl rfl)]
    rcases hr : (step cursor).found with _ | found
    · rfl
    · by_cases hempty : found.text.isEmpty
      · simp [hempty]
      -- The round was not empty, so the rounds behind it are at places with less left.
      · simp only [hempty, Bool.false_eq_true, if_false, Reply.andThen, hr]
        have hshort : found.next.rest.length < cursor.rest.length := by
          have hpos : found.text.length ≠ 0 := by simpa [List.isEmpty_iff] using hempty
          rw [(hstep cursor found hr).1, List.length_append]
          omega
        rw [roundsWithin_congr hstep bound found.next]
        rintro place (rfl | hplace)
        · exact h _ (.inr hshort)
        · exact h place (.inr (Nat.lt_trans hplace hshort))

/-! ## Two ways to read rules -/

/-- Two ways to read rules, and the layout that they find, agree where less is left than at the cursor. At the
cursor itself they agree for some rules, and layout is the same there if the rules that it calls are. -/
structure AgreeAt (layout layout' : Mode → Cursor → Match R) (call call' : R → Phrase R) (layoutHeads heads : List R)
    (cursor : Cursor) : Prop where
  /-- Rules agree where less is left. -/
  call_lt : ∀ rule mode (place : Cursor), place.rest.length < cursor.rest.length →
    call rule mode place = call' rule mode place
  /-- The given rules agree at the cursor. -/
  call_eq : ∀ rule ∈ heads, ∀ mode, call rule mode cursor = call' rule mode cursor
  /-- Layout agrees where less is left. -/
  layout_lt : ∀ mode (place : Cursor), place.rest.length < cursor.rest.length →
    layout mode place = layout' mode place
  /-- Layout agrees at the cursor, as far as the rules that it calls first do. -/
  layout_eq : (∀ rule ∈ layoutHeads, ∀ mode, call rule mode cursor = call' rule mode cursor) →
    ∀ mode, layout mode cursor = layout' mode cursor

section

variable {layout layout' : Mode → Cursor → Match R} {call call' : R → Phrase R} {layoutHeads heads heads' : List R}
  {cursor : Cursor}

/-- Agreement for some rules is agreement for fewer. -/
theorem AgreeAt.mono (h : AgreeAt layout layout' call call' layoutHeads heads cursor) (hheads : heads' ⊆ heads) :
    AgreeAt layout layout' call call' layoutHeads heads' cursor :=
  ⟨h.call_lt, fun rule hrule => h.call_eq rule (hheads hrule), h.layout_lt, h.layout_eq⟩

/-- Where less is left, all rules agree. -/
theorem AgreeAt.of_length_lt (h : AgreeAt layout layout' call call' layoutHeads heads cursor) {place : Cursor}
    (hplace : place.rest.length < cursor.rest.length) :
    AgreeAt layout layout' call call' layoutHeads heads' place where
  call_lt rule mode _ hlt := h.call_lt rule mode _ (Nat.lt_trans hlt hplace)
  call_eq rule _ mode := h.call_lt rule mode place hplace
  layout_lt mode _ hlt := h.layout_lt mode _ (Nat.lt_trans hlt hplace)
  layout_eq _ mode := h.layout_lt mode place hplace

/-- Behind a match, those rules agree that agree at the cursor in case the match is empty. -/
theorem AgreeAt.behind (h : AgreeAt layout layout' call call' layoutHeads heads cursor) {found : Match R}
    (hfound : found.StartsAt cursor) (hheads : found.text = [] → heads' ⊆ heads) :
    AgreeAt layout layout' call call' layoutHeads heads' found.next := by
  by_cases hempty : found.text = []
  · rw [hfound.next_eq hempty]
    exact h.mono (hheads hempty)
  · exact h.of_length_lt (hfound.length_lt hempty)

/-- Layout and what follows it are the same, if the rules agree that both of them call first. -/
theorem AgreeAt.gap_congr {later later' : Cursor → Reply R} {mode : Mode}
    (h : AgreeAt layout layout' call call' layoutHeads (layoutHeads ++ heads) cursor)
    (hl : ∀ mode cursor, (layout mode cursor).StartsAt cursor)
    (hlater : ∀ place, AgreeAt layout layout' call call' layoutHeads heads place → later place = later' place) :
    ((Reply.ok (layout mode cursor)).andThen fun gap => later gap.next) =
      (Reply.ok (layout' mode cursor)).andThen fun gap => later' gap.next := by
  rw [← h.layout_eq (fun rule hrule => h.call_eq rule (List.mem_append_left _ hrule)) mode]
  refine Reply.andThen_congr fun gap hgap => ?_
  obtain rfl : layout mode cursor = gap := Option.some.inj hgap
  exact hlater _ (h.behind (hl mode cursor) fun _ => List.subset_append_right _ _)

variable {empty : R → Bool}
  (hl : ∀ mode cursor, (layout mode cursor).StartsAt cursor)
  (hc : ∀ rule mode cursor, (call rule mode cursor).Consumes cursor)
  (hne : ∀ rule mode cursor, empty rule = false → (call rule mode cursor).NonEmpty)
include hl hc hne

/-- Behind what an expression finds, those rules agree that agree at the cursor in case the expression may be
empty. -/
theorem AgreeAt.behind_run (h : AgreeAt layout layout' call call' layoutHeads heads cursor) {e : Expr R}
    {mode : Mode} {found : Match R} (hfound : (e.run layout call mode cursor).found = some found)
    (hheads : e.mayBeEmpty empty = true → heads' ⊆ heads) :
    AgreeAt layout layout' call call' layoutHeads heads' found.next :=
  h.behind (Expr.run_consumes hl hc e mode cursor found hfound) fun hempty =>
    hheads (Expr.mayBeEmpty_of_run hne hfound hempty)

/-- A sequence reads the same if its members do, wherever the rules agree that they call first. -/
theorem Expr.run_seq_congr {first second : Expr R}
    (hfirst : ∀ mode cursor,
      AgreeAt layout layout' call call' layoutHeads (first.heads empty layoutHeads) cursor →
      first.run layout call mode cursor = first.run layout' call' mode cursor)
    (hsecond : ∀ mode cursor,
      AgreeAt layout layout' call call' layoutHeads (second.heads empty layoutHeads) cursor →
      second.run layout call mode cursor = second.run layout' call' mode cursor) (mode : Mode) {cursor : Cursor}
    (h : AgreeAt layout layout' call call' layoutHeads ((Expr.seq first second).heads empty layoutHeads) cursor) :
    (Expr.seq first second).run layout call mode cursor = (Expr.seq first second).run layout' call' mode cursor := by
  have hhead : first.heads empty layoutHeads ⊆ (Expr.seq first second).heads empty layoutHeads :=
    List.subset_append_left _ _
  rw [Expr.run, Expr.run, ← hfirst mode cursor (h.mono hhead)]
  refine Reply.andThen_congr fun found hfound => ?_
  -- Layout and the second member stand at the cursor only if the first member may be empty.
  have hbehind : AgreeAt layout layout' call call' layoutHeads
      (layoutHeads ++ second.heads empty layoutHeads) found.next := by
    refine h.behind_run hl hc hne hfound fun hmay => ?_
    rw [heads, if_pos hmay]
    exact List.subset_append_right _ _
  exact hbehind.gap_congr hl (hsecond mode)

/-- A repetition reads the same if its body does, wherever the rules agree that it calls first. -/
theorem Expr.run_star_congr {body : Expr R}
    (hbody : ∀ mode cursor,
      AgreeAt layout layout' call call' layoutHeads (body.heads empty layoutHeads) cursor →
      body.run layout call mode cursor = body.run layout' call' mode cursor) (mode : Mode) {cursor : Cursor}
    (h : AgreeAt layout layout' call call' layoutHeads ((Expr.star body).heads empty layoutHeads) cursor) :
    (Expr.star body).run layout call mode cursor = (Expr.star body).run layout' call' mode cursor := by
  have hhead : body.heads empty layoutHeads ⊆ (Expr.star body).heads empty layoutHeads :=
    List.subset_append_left _ _
  rw [Expr.run, Expr.run, ← hbody mode cursor (h.mono hhead)]
  congr 1
  refine Reply.andThen_congr fun found hfound => ?_
  have hstep : ∀ place : Cursor,
      ((Reply.ok (layout mode place)).andThen fun gap =>
        body.run layout call mode gap.next).Consumes place := fun place =>
    (Reply.ok_consumes (hl mode place)).andThen fun gap _ =>
      Expr.run_consumes hl hc body mode gap.next
  -- A round is tried at the cursor itself only if the body may be empty.
  have hbehind : AgreeAt layout layout' call call' layoutHeads
      (layoutHeads ++ body.heads empty layoutHeads) found.next := by
    refine h.behind_run hl hc hne hfound fun hmay => ?_
    rw [heads, if_pos hmay]
    exact (List.perm_append_comm).subset
  rw [rounds, rounds, roundsWithin_congr hstep]
  rintro place (rfl | hplace)
  · exact hbehind.gap_congr hl (hbody mode)
  · exact (hbehind.of_length_lt hplace).gap_congr hl (hbody mode)

/-- An expression reads the same with two ways to read rules that agree where less is left, and at the
cursor for the rules that may be called there. -/
theorem Expr.run_congr (e : Expr R) (mode : Mode) (cursor : Cursor)
    (h : AgreeAt layout layout' call call' layoutHeads (e.heads empty layoutHeads) cursor) :
    e.run layout call mode cursor = e.run layout' call' mode cursor := by
  induction e generalizing mode cursor with
  | start => rfl
  | literal => rfl
  | caseless => rfl
  | char => rfl
  | seq first second ih ih' => exact Expr.run_seq_congr hl hc hne ih ih' mode h
  | alt first second ih ih' =>
    rw [Expr.run, Expr.run, ih mode cursor (h.mono (List.subset_append_left _ _)),
      ih' mode cursor (h.mono (List.subset_append_right _ _))]
  | opt body ih => rw [Expr.run, Expr.run, ih mode cursor h]
  | star body ih => exact Expr.run_star_congr hl hc hne ih mode h
  | not body ih => rw [Expr.run, Expr.run, ih mode cursor h]
  | call rule => exact h.call_eq rule List.mem_cons_self mode

end

/-- Recording a rule makes no match empty. -/
theorem Reply.NonEmpty.record {reply : Reply R} (h : reply.NonEmpty) (rule : R) (mode : Mode)
    (cursor : Cursor) : (reply.record rule mode cursor).NonEmpty := by
  intro found hf
  obtain ⟨inner, hinner, htext, -⟩ := Reply.exists_of_found_record hf
  exact htext ▸ h inner hinner

namespace Kind

/-- What a rule finds is not empty if what its body finds is not. -/
theorem read_nonEmpty {kind : Kind} {rule : R} {body : Phrase R}
    (h : ∀ mode cursor, (body mode cursor).NonEmpty) (mode : Mode) (cursor : Cursor) :
    (kind.read rule body mode cursor).NonEmpty := by
  cases kind
  · exact (h mode cursor).record rule mode cursor
  · exact (h .atomic cursor).record rule mode cursor
  · exact (h .tight cursor).record rule .tight cursor
  · exact h mode cursor
  · exact h .atomic cursor

/-- A rule reads the same at a cursor if its body does. -/
theorem read_congr {kind : Kind} {rule : R} {body body' : Phrase R} {cursor : Cursor}
    (h : ∀ mode, body mode cursor = body' mode cursor) (mode : Mode) :
    kind.read rule body mode cursor = kind.read rule body' mode cursor := by
  cases kind <;> simp [read, h]

end Kind

namespace Grammar

/-- Ranks of rules such that no rule calls one of its own rank or a higher one before it has read
anything. -/
structure Ranked (g : Grammar R) (rank : R → Nat) (empty : R → Bool) : Prop where
  /-- There are as many ranks as rules. -/
  rank_lt : ∀ rule, rank rule < g.size
  /-- Only rules that are said to may succeed without reading anything. -/
  empty_of_mayBeEmpty : ∀ rule, (g.production rule).body.mayBeEmpty empty = true → empty rule = true
  /-- Calls before anything is read go to rules of lower rank. -/
  rank_head_lt : ∀ rule, ∀ head ∈ (g.production rule).body.heads empty (g.layout.heads empty []),
    rank head < rank rule

variable {g : Grammar R} {rank : R → Nat} {empty : R → Bool}

/-- A rule that is not said to be empty finds nothing empty, however deep calls may go. -/
theorem phraseWithin_nonEmpty (hg : g.Ranked rank empty) (depth : Nat) (rule : R) (mode : Mode)
    (cursor : Cursor) (hrule : empty rule = false) :
    (g.phraseWithin depth rule mode cursor).NonEmpty := by
  induction depth generalizing rule mode cursor with
  | zero => rintro _ ⟨⟩
  | succ depth ih =>
    -- A body that may be empty would make the rule one that may be.
    have hbody : (g.production rule).body.mayBeEmpty empty = false := by
      cases h : (g.production rule).body.mayBeEmpty empty with
      | false => rfl
      | true => simp [hg.empty_of_mayBeEmpty rule h] at hrule
    exact Kind.read_nonEmpty
      (Expr.run_nonEmpty (fun rule mode cursor h => ih rule mode cursor h) _ hbody) mode cursor

/-- Layout reads the same with two ways to read rules that agree where less is left, and at the cursor
for the rules that layout calls there. -/
theorem gap_congr {call call' : R → Phrase R} {cursor : Cursor}
    (hc : ∀ rule mode cursor, (call rule mode cursor).Consumes cursor)
    (hne : ∀ rule mode cursor, empty rule = false → (call rule mode cursor).NonEmpty)
    (hlt : ∀ rule mode place, place.rest.length < cursor.rest.length →
      call rule mode place = call' rule mode place)
    (hhead : ∀ rule ∈ g.layout.heads empty [], ∀ mode,
      call rule mode cursor = call' rule mode cursor) (mode : Mode) :
    g.gap call mode cursor = g.gap call' mode cursor := by
  rw [gap, gap, Expr.run_congr (fun _ => Match.empty_startsAt) hc hne g.layout .atomic cursor
    ⟨hlt, hhead, fun _ _ _ => rfl, fun _ _ => rfl⟩]

/-- A rule's body reads the same with two ways to read rules that agree where less is left, and at the
cursor for the rules of lower rank. -/
theorem body_congr (hg : g.Ranked rank empty) {call call' : R → Phrase R} {cursor : Cursor} {rule : R}
    (hc : ∀ rule mode cursor, (call rule mode cursor).Consumes cursor)
    (hne : ∀ rule mode cursor, empty rule = false → (call rule mode cursor).NonEmpty)
    (hlt : ∀ rule mode place, place.rest.length < cursor.rest.length →
      call rule mode place = call' rule mode place)
    (hrank : ∀ head, rank head < rank rule → ∀ mode, call head mode cursor = call' head mode cursor)
    (mode : Mode) :
    (g.production rule).body.run (g.gap call) call mode cursor =
      (g.production rule).body.run (g.gap call') call' mode cursor :=
  Expr.run_congr (gap_startsAt hc) hc hne _ mode cursor
    -- Behind the cursor all calls agree, and so the gaps there do; at the cursor only those of lower rank need
    -- to.
    { call_lt := hlt
      call_eq := fun head hhead => hrank head (hg.rank_head_lt rule head hhead)
      layout_lt := fun mode place hplace => gap_congr hc hne
        (fun rule mode place' h => hlt rule mode place' (Nat.lt_trans h hplace))
        (fun rule _ mode => hlt rule mode place hplace) mode
      layout_eq := gap_congr hc hne hlt }

/-- How deep calls go from a rule, at most. -/
def need (g : Grammar R) (rank : R → Nat) (rule : R) (cursor : Cursor) : Nat :=
  g.size * cursor.rest.length + rank rule

/-- Where less is left, calls need less depth, whatever the rules. -/
theorem need_lt_of_length_lt (hg : g.Ranked rank empty) {rule rule' : R} {cursor place : Cursor}
    (h : place.rest.length < cursor.rest.length) :
    g.need rank rule' place < g.need rank rule cursor := by
  have := hg.rank_lt rule'
  have : g.size * (place.rest.length + 1) ≤ g.size * cursor.rest.length :=
    Nat.mul_le_mul_left _ h
  rw [Nat.mul_add, Nat.mul_one] at this
  unfold need
  omega

/-- Deep enough calls do not depend on how deep they may go. -/
theorem phraseWithin_congr (hg : g.Ranked rank empty) {depth depth' : Nat} {rule : R} {cursor : Cursor}
    (h : g.need rank rule cursor < depth) (h' : g.need rank rule cursor < depth') (mode : Mode) :
    g.phraseWithin depth rule mode cursor = g.phraseWithin depth' rule mode cursor := by
  induction hn : g.need rank rule cursor using Nat.strongRecOn generalizing depth depth' rule cursor mode
  rename_i bound ih
  subst hn
  obtain ⟨depth, rfl⟩ := Nat.exists_eq_add_one_of_ne_zero (Nat.ne_of_gt (Nat.zero_lt_of_lt h))
  obtain ⟨depth', rfl⟩ := Nat.exists_eq_add_one_of_ne_zero (Nat.ne_of_gt (Nat.zero_lt_of_lt h'))
  -- Both depths are successors, so both unfold to the body, with calls one level deeper.
  refine Kind.read_congr (fun mode => body_congr hg (g.phraseWithin_consumes depth)
    (phraseWithin_nonEmpty hg depth) ?_ ?_ mode) mode
  · intro rule' mode place hplace
    have hneed : g.need rank rule' place < g.need rank rule cursor := need_lt_of_length_lt hg hplace
    exact ih _ hneed (by omega) (by omega) mode rfl
  · intro head hhead mode
    have hneed : g.need rank head cursor < g.need rank rule cursor := by
      unfold need
      omega
    exact ih _ hneed (by omega) (by omega) mode rfl

/-- The depth that the grammar allows is enough for each rule. -/
theorem need_lt_depth (hg : g.Ranked rank empty) (rule : R) (cursor : Cursor) :
    g.need rank rule cursor < g.depth cursor := by
  have := hg.rank_lt rule
  simp only [need, depth, Nat.add_mul, Nat.mul_add, Nat.mul_one, Nat.one_mul]
  omega

/-- With enough depth, a rule reads what it reads with the depth that the grammar allows. -/
theorem phraseWithin_eq_phrase (hg : g.Ranked rank empty) {depth : Nat} {rule : R} {cursor : Cursor}
    (h : g.need rank rule cursor < depth) (mode : Mode) :
    g.phraseWithin depth rule mode cursor = g.phrase rule mode cursor :=
  phraseWithin_congr hg h (need_lt_depth hg rule cursor) mode

/-- A rule reads what its body reads, where calls in the body read what the rules they name read. -/
theorem phrase_eq (hg : g.Ranked rank empty) (rule : R) (mode : Mode) (cursor : Cursor) :
    g.phrase rule mode cursor =
      (g.production rule).kind.read rule
        ((g.production rule).body.run (g.gap g.phrase) g.phrase) mode cursor := by
  have hdepth := need_lt_depth hg rule cursor
  obtain ⟨depth, hd⟩ := Nat.exists_eq_add_one_of_ne_zero (Nat.ne_of_gt (Nat.zero_lt_of_lt hdepth))
  rw [phrase, hd, phraseWithin]
  refine Kind.read_congr (fun mode => body_congr hg (g.phraseWithin_consumes depth)
    (phraseWithin_nonEmpty hg depth) ?_ ?_ mode) mode
  -- Where less is left, calls need less depth, and the depth left over is enough for them.
  · intro rule' mode place hplace
    have hneed : g.need rank rule' place < g.need rank rule cursor := need_lt_of_length_lt hg hplace
    exact phraseWithin_eq_phrase hg (by omega) mode
  -- At the cursor itself, calls go to lower ranks and need less depth as well.
  · intro head hhead mode
    have hneed : g.need rank head cursor < g.need rank rule cursor := by
      unfold need
      omega
    exact phraseWithin_eq_phrase hg (by omega) mode

/-- What a rule finds is not empty, unless it may be. -/
theorem phrase_nonEmpty (hg : g.Ranked rank empty) {rule : R} (hrule : empty rule = false)
    (mode : Mode) (cursor : Cursor) : (g.phrase rule mode cursor).NonEmpty :=
  phraseWithin_nonEmpty hg _ rule mode cursor hrule

end Grammar

end DotLang.Peg
