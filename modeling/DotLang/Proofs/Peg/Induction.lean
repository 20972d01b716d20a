import DotLang.Proofs.Peg.Found

/-!
# Induction over what rules find

A property of what rules find holds everywhere if it holds of what a rule's body finds whenever it holds
of what the calls in that body find (`Grammar.phrase_induction`), and likewise a property of replies
(`Grammar.phrase_reply_induction`). Neither the depth of calls nor the length of what is left occurs in these
principles.
-/

namespace DotLang.Peg

variable {R : Type}

namespace Reply

/-- A reply, if a condition holds, and a failure otherwise. -/
def guard (condition : Prop) [Decidable condition] (reply : Reply R) : Reply R :=
  if condition then reply else fail

@[simp] theorem guard_pos {condition : Prop} [Decidable condition] (h : condition) (reply : Reply R) :
    reply.guard condition = reply := if_pos h

end Reply

namespace Grammar

variable {g : Grammar R} {rank : R → Nat} {empty : R → Bool}

/-- Calls that go less deep than those from a rule at a cursor; all others fail. -/
def callBelow (g : Grammar R) (rank : R → Nat) (rule : R) (cursor : Cursor) : R → Phrase R :=
  fun head mode place =>
    (g.phrase head mode place).guard (g.need rank head place < g.need rank rule cursor)

/-- What a rule reads involves no other calls than those that go less deep. -/
theorem phrase_eq_callBelow (hg : g.Ranked rank empty) (rule : R) (mode : Mode) (cursor : Cursor) :
    g.phrase rule mode cursor =
      (g.production rule).kind.read rule
        ((g.production rule).body.run (g.gap g.phrase) (g.callBelow rank rule cursor)) mode cursor := by
  -- Calls behind the cursor have less text left, those at the cursor a lower rank.
  have hlt : ∀ head mode (place : Cursor), place.rest.length < cursor.rest.length →
      g.phrase head mode place = g.callBelow rank rule cursor head mode place :=
    fun head mode place hplace => (Reply.guard_pos (need_lt_of_length_lt hg hplace) _).symm
  have hhead : ∀ head ∈ (g.production rule).body.heads empty (g.layout.heads empty []),
      ∀ mode, g.phrase head mode cursor = g.callBelow rank rule cursor head mode cursor := by
    intro head hhead mode
    have hrank := hg.rank_head_lt rule head hhead
    exact (Reply.guard_pos (by unfold need; omega) _).symm
  rw [phrase_eq hg]
  exact Kind.read_congr (fun mode => Expr.run_congr (gap_startsAt g.phrase_consumes) g.phrase_consumes
    (fun head mode place h => phrase_nonEmpty hg h mode place) _ mode cursor
    ⟨hlt, hhead, fun _ _ _ => rfl, fun _ _ => rfl⟩) mode

/-- A property of replies holds of every rule if a failure without a trace has it, and if a rule has it
whenever the calls in its body have it. -/
theorem phrase_reply_induction (hg : g.Ranked rank empty) {P : R → Mode → Cursor → Reply R → Prop}
    (fail : ∀ rule mode cursor, P rule mode cursor .fail)
    (step : ∀ call : R → Phrase R, (∀ head mode place, P head mode place (call head mode place)) →
      ∀ rule mode cursor, g.phrase rule mode cursor = (g.production rule).kind.read rule
        ((g.production rule).body.run (g.gap g.phrase) call) mode cursor →
        P rule mode cursor (g.phrase rule mode cursor))
    (rule : R) (mode : Mode) (cursor : Cursor) : P rule mode cursor (g.phrase rule mode cursor) := by
  -- By induction on the depth that calls can reach; calls that would go as deep fail without a trace.
  induction hn : g.need rank rule cursor using Nat.strongRecOn generalizing rule mode cursor
  rename_i bound ih
  subst hn
  refine step (g.callBelow rank rule cursor) (fun head mode place => ?_) rule mode cursor
    (phrase_eq_callBelow hg rule mode cursor)
  rw [callBelow, Reply.guard]
  split
  next hneed => exact ih _ hneed head mode place rfl
  next => exact fail head mode place

/-- A property of what rules find holds if it holds of what a rule finds whenever it holds of what the
calls in its body find. -/
theorem phrase_induction (hg : g.Ranked rank empty) {P : R → Mode → Cursor → Match R → Prop}
    (step : ∀ call : R → Phrase R,
      (∀ head mode place found, (call head mode place).found = some found →
        (g.phrase head mode place).found = some found ∧ P head mode place found) →
      ∀ rule mode cursor found, (g.phrase rule mode cursor).found = some found →
        ((g.production rule).kind.read rule
          ((g.production rule).body.run (g.gap g.phrase) call) mode cursor).found = some found →
        P rule mode cursor found)
    (rule : R) (mode : Mode) (cursor : Cursor) (found : Match R)
    (hfound : (g.phrase rule mode cursor).found = some found) : P rule mode cursor found := by
  have h := phrase_reply_induction hg (P := fun rule mode cursor reply => ∀ found, reply.found = some found →
      (g.phrase rule mode cursor).found = some found ∧ P rule mode cursor found)
    (fun _ _ _ _ h => absurd h (by simp))
    (fun call hcall rule mode cursor heq found hfound =>
      ⟨hfound, step call hcall rule mode cursor found hfound (heq ▸ hfound)⟩) rule mode cursor
  exact (h found hfound).2

end Grammar

end DotLang.Peg
