import DotLang.Proofs.Slot.Session
import DotLang.Slot.Session

/-!
# Continued texts

A text may be continued anywhere: in the middle of a word, of an operator or of a comment, next to a
backslash or a line feed of its own, and between these two. With preprocessing it parses as if it had not
been continued, whether to a document or to an error. This is so however preprocessing is put in front of
the parser.
-/

namespace DotLang

/-- The operations that parse a text with what a slot holds, after some others: directly, with the slot
standing for a parser, or through a handle that has been taken. -/
def Operation.Parses (earlier : List Operation) (text : String) : Operation → Prop
  | .parse text' | .parseAsParser text' => text' = text
  | .callHandle handle text' => handle < earlier.count .takeHandle ∧ text' = text
  | _ => False

/-- On a slot with preprocessing, a text is parsed with its lines joined. -/
theorem Session.step_of_parses {ε α : Type} (parser : Parser ε α) {earlier : List Operation}
    {operation : Operation} {text : String} (hinstalls : ∃ request ∈ earlier, request.installs = true)
    (hparses : operation.Parses earlier text) :
    (((start (.ofParser parser)).after earlier).step operation).1 =
      .parsed (parser (Continuation.join text)) := by
  have hinstalled : (History.ofOperations earlier).installed = true := List.any_eq_true.2 hinstalls
  -- Only whether the slot is installed and how many handles there are matters of what went before.
  rw [step_after_start]
  cases operation with
  | parse | parseAsParser =>
    obtain rfl := hparses
    simp [History.answer, History.parse, hinstalled]
  | callHandle handle =>
    obtain ⟨hhandle, rfl⟩ := hparses
    have hlt : handle < (History.ofOperations earlier).handles := hhandle
    simp [History.answer, History.parse, hinstalled, hlt]
  | _ => exact hparses.elim

/-- A text that is cut into pieces without markers, and continued at each cut, parses to what the text itself
parses to: with a preprocessed parser, and on the shared slot once preprocessing is installed there. -/
theorem parse_continued (pieces : List String)
    (h : ∀ piece ∈ pieces, ¬Continuation.marker <:+: piece.toList) :
    (Parser.preprocessed parse).parse (Continuation.continued pieces) = parse (String.join pieces) ∧
    ∀ (earlier : List Operation) (operation : Operation),
      (∃ request ∈ earlier, request.installs = true) →
      operation.Parses earlier (Continuation.continued pieces) →
      (((Session.start sharedSlot).after earlier).step operation).1 =
        .parsed (parse (String.join pieces)) := by
  have hjoin := Continuation.join_continued h
  refine ⟨?_, fun earlier operation hinstalls hparses => ?_⟩
  · rw [Preprocessed.parse_apply, hjoin]
  · rw [sharedSlot, Session.step_of_parses parse hinstalls hparses, hjoin]

/-- Pieces of a text that is cut inside an operator, twice at the same place, and between a backslash and the
line feed behind it. -/
def cutPieces : List String := ["graph \x7b a -", "", "- \"x\\", "\ny\" \x7d"]

/-- The text of the pieces has a marker of its own, and is parsed through an early handle as it is. -/
theorem parse_continued_cutPieces :
    (∀ piece ∈ cutPieces, ¬Continuation.marker <:+: piece.toList) ∧
      Continuation.marker <:+: (String.join cutPieces).toList ∧
      (((Session.start sharedSlot).after [.takeHandle, .install]).step
        (.callHandle 0 (Continuation.continued cutPieces))).1 = .parsed (parse (String.join cutPieces)) := by
  have hpieces : ∀ piece ∈ cutPieces, ¬Continuation.marker <:+: piece.toList := by
    simp [cutPieces, Continuation.marker, List.infix_cons_iff]
  have hmarker : Continuation.marker <:+: (String.join cutPieces).toList := by
    simp [cutPieces, Continuation.marker, List.infix_cons_iff]
  have hparses : (Operation.callHandle 0 (Continuation.continued cutPieces)).Parses
      [.takeHandle, .install] (Continuation.continued cutPieces) := ⟨Nat.one_pos, rfl⟩
  have hinstalls : ∃ request ∈ [Operation.takeHandle, .install], request.installs = true :=
    ⟨.install, by simp, rfl⟩
  exact ⟨hpieces, hmarker, (parse_continued cutPieces hpieces).2 _ _ hinstalls hparses⟩

end DotLang
