import DotLang.Proofs.Text.Html
import DotLang.Proofs.Text.Place
import DotLang.Proofs.Text.Quoted
import DotLang.Text.Region
import Mathlib.Data.List.Forall2

/-!
# Reading regions piece by piece

A piece of a text leads the reading from one state to another, and gives its characters regions on the way
(`Leads`). The pieces considered here do so whatever follows them: what the two ends of a comment have
between them, the content of a string up to the sign behind it, and characters that begin no region. Any
text can be cut between two lines (`regionsFrom_append`).
-/

namespace DotLang.Text

/-- Whether reading a piece of text in a state leads to another state, whatever follows the piece, and the
region of each of its characters is related to the character. -/
def Leads (P : Char → Region → Prop) (state : RegionState) (piece : List Char) (state' : RegionState) :
    Prop :=
  ∃ marks, List.Forall₂ P piece marks ∧
    ∀ rest, regionsFrom state (piece ++ rest) = regionsFrom.note marks (regionsFrom state' rest)

variable {P P' : Char → Region → Prop} {state state' state'' : RegionState} {c : Char} {region : Region}
variable {piece piece' text : List Char}

/-- Regions are noted one after the other. -/
theorem note_note (marks marks' : List Region) (rest : List Region × RegionState) :
    regionsFrom.note marks (regionsFrom.note marks' rest) = regionsFrom.note (marks ++ marks') rest := by
  simp [regionsFrom.note]

/-- No piece leads from a state to itself. -/
theorem Leads.nil : Leads P state [] state :=
  ⟨[], .nil, fun _ => rfl⟩

/-- What two pieces lead through, one behind the other, both together do. -/
theorem Leads.append (h : Leads P state piece state') (h' : Leads P state' piece' state'') :
    Leads P state (piece ++ piece') state'' := by
  obtain ⟨marks, hmarks, hread⟩ := h
  obtain ⟨marks', hmarks', hread'⟩ := h'
  refine ⟨marks ++ marks', List.rel_append hmarks hmarks', fun rest => ?_⟩
  rw [List.append_assoc, hread, hread', note_note]

/-- What leads through regions of one sort leads through those of every wider sort. -/
theorem Leads.imp (h : Leads P state piece state') (himp : ∀ c region, P c region → P' c region) :
    Leads P' state piece state' := by
  obtain ⟨marks, hmarks, hread⟩ := h
  exact ⟨marks, hmarks.imp fun c region => himp c region, hread⟩

/-- A single character that is read in the same way whatever follows it. -/
theorem leads_singleton (hc : P c region)
    (hread : ∀ rest, regionsFrom state (c :: rest) = regionsFrom.note [region] (regionsFrom state' rest)) :
    Leads P state [c] state' :=
  ⟨[region], .cons hc .nil, hread⟩

/-- Each character of a piece at the start of a text has a region that is related to it. -/
theorem Leads.exists_region (h : Leads P .outside piece state) (rest : List Char) {i : Nat}
    (hi : piece[i]? = some c) : ∃ region, (regions (piece ++ rest))[i]? = some region ∧ P c region := by
  obtain ⟨marks, hmarks, hread⟩ := h
  obtain ⟨hlt, rfl⟩ := List.getElem?_eq_some_iff.1 hi
  have hlt' : i < marks.length := hmarks.length_eq ▸ hlt
  refine ⟨marks[i], ?_, hmarks.get hlt hlt'⟩
  rw [regions, hread, regionsFrom.note, List.getElem?_append_left hlt', List.getElem?_eq_getElem hlt']

/-- Behind a piece that leaves no region open, the regions are those of the rest. -/
theorem Leads.getElem?_regions (h : Leads P .outside piece .outside) (rest : List Char) (i : Nat) :
    (regions (piece ++ rest))[piece.length + i]? = (regions rest)[i]? := by
  obtain ⟨marks, hmarks, hread⟩ := h
  rw [regions, hread, regionsFrom.note, hmarks.length_eq, List.getElem?_append_right (by omega),
    Nat.add_sub_cancel_left, regions]

/-! ## Outside any region -/

/-- The characters that begin a region, or could begin one. -/
def openers : List Char := ['/', '#', '"', '<']

/-- A character that begins no region is outside any. -/
theorem regionsFrom_outside (hc : c ∉ openers) (rest : List Char) :
    regionsFrom .outside (c :: rest) = regionsFrom.note [.outside] (regionsFrom .outside rest) := by
  simp only [openers, List.mem_cons, List.not_mem_nil, or_false, not_or] at hc
  exact regionsFrom_outside_cons (fun _ h => absurd h hc.1) (fun _ h => absurd h hc.1) hc.2.1 hc.2.2.1 hc.2.2.2

/-- Characters that begin no region are outside any. -/
theorem leads_outside (h : ∀ c ∈ piece, c ∉ openers ∧ P c .outside) : Leads P .outside piece .outside := by
  induction piece with
  | nil => exact .nil
  | cons c piece ih =>
    rw [List.forall_mem_cons] at h
    have hfirst : Leads P .outside [c] .outside := leads_singleton h.1.2 (regionsFrom_outside h.1.1)
    exact hfirst.append (ih h.2)

/-! ## Comments -/

/-- Whether a region is that of a comment, whatever the character. -/
def InComment (_ : Char) (region : Region) : Prop := region = .comment

/-- A comment that has to be closed ends at its first closing sign. -/
theorem leads_block (h : ¬['*', '/'] <:+: piece) : Leads InComment .block (piece ++ ['*', '/']) .outside := by
  induction piece with
  | nil => exact ⟨[.comment, .comment], .cons rfl (.cons rfl .nil), fun _ => rfl⟩
  | cons c piece ih =>
    obtain ⟨marks, hmarks, hread⟩ := ih fun hwithin => h (hwithin.trans (List.suffix_cons c piece).isInfix)
    refine ⟨.comment :: marks, .cons rfl hmarks, fun rest => ?_⟩
    rw [List.cons_append, List.cons_append, regionsFrom_block_cons, hread, note_note, List.singleton_append]
    -- The closing sign does not begin with the first character of the piece.
    rintro cs rfl heq
    rcases piece with _ | ⟨d, piece⟩
    · cases heq
    · obtain ⟨rfl, -⟩ := List.cons.inj heq
      exact h ⟨[], piece, rfl⟩

/-- A comment that ends with its line goes on up to there. -/
theorem leads_line (h : ∀ c ∈ piece, c ≠ '\n' ∧ c ≠ '\r') : Leads InComment .line piece .line := by
  induction piece with
  | nil => exact .nil
  | cons c piece ih =>
    rw [List.forall_mem_cons] at h
    have hfirst : Leads InComment .line [c] .line := leads_singleton rfl fun rest => by
      rw [regionsFrom_line_cons, if_neg (by simp [h.1])]
    exact hfirst.append (ih h.2)

/-! ## Strings -/

/-- Whether a region is that of a quoted string, whatever the character. -/
def InQuoted (_ : Char) (region : Region) : Prop := region = .quoted

/-- A backslash in a quoted string is read together with the character behind it, whatever this is. -/
theorem leads_slash (c : Char) : Leads InQuoted .quoted ['\\', c] .quoted := by
  refine ⟨[.quoted, .quoted], .cons rfl (.cons rfl .nil), fun rest => ?_⟩
  rw [List.cons_append, List.cons_append, List.nil_append]
  -- Backslashes and quotes are read with the backslash before them, other characters after it.
  by_cases hslash : c = '\\'
  · subst hslash
    rfl
  · by_cases hquote : c = '"'
    · subst hquote
      rfl
    · rw [regionsFrom_quoted_cons (by decide) (by simp [hslash]) (by simp [hquote]),
        regionsFrom_quoted_cons hquote (fun _ h => absurd h hslash) (fun _ h => absurd h hslash), note_note]
      rfl

/-- A quoted string goes up to the quote behind its content. -/
theorem leads_quoted {value : List Char} (h : Paired value) :
    Leads InQuoted .quoted (Quoted.escape value ++ ['"']) .outside := by
  induction h with
  | nil => exact leads_singleton rfl fun _ => rfl
  | @pair c cs hc _ ih =>
    rw [Quoted.escape_cons_of_ne (by decide), Quoted.escape_cons_of_ne hc]
    exact (leads_slash c).append ih
  | @single c cs hc _ ih =>
    by_cases hquote : c = '"'
    · -- A quote in the content has a backslash before it.
      subst hquote
      exact (leads_slash '"').append ih
    · rw [Quoted.escape_cons_of_ne hquote]
      have hfirst : Leads InQuoted .quoted [c] .quoted := leads_singleton rfl fun rest =>
        regionsFrom_quoted_cons hquote (fun _ h => absurd h hc) (fun _ h => absurd h hc)
      exact hfirst.append ih

/-- Whether a region is that of an HTML string, whatever the character. -/
def InHtml (_ : Char) (region : Region) : Prop := region = .html

/-- An HTML string goes up to the bracket behind its content. -/
theorem leads_html {depth : Nat} (h : BalancedFrom depth piece) :
    Leads InHtml (.html depth) (piece ++ ['>']) .outside := by
  induction piece generalizing depth with
  | nil =>
    obtain rfl := balancedFrom_nil.1 h
    exact leads_singleton rfl fun _ => rfl
  | cons c piece ih =>
    have hfirst : ∀ {depth' : Nat}, (∀ rest, regionsFrom (.html depth) (c :: rest) =
        regionsFrom.note [.html] (regionsFrom (.html depth') rest)) →
        Leads InHtml (.html depth) [c] (.html depth') := fun hread => leads_singleton rfl hread
    -- The first character opens a bracket, closes one that is open, or does neither.
    by_cases hopen : c = '<'
    · subst hopen
      exact (hfirst (regionsFrom_html_open depth)).append (ih (balancedFrom_open.1 h))
    · by_cases hclose : c = '>'
      · subst hclose
        rcases depth with _ | depth
        · exact absurd h not_balancedFrom_close
        · exact (hfirst fun _ => rfl).append (ih (balancedFrom_close.1 h))
      · have hne : c ≠ '<' ∧ c ≠ '>' := ⟨hopen, hclose⟩
        exact (hfirst (regionsFrom_html_cons hne depth)).append (ih ((balancedFrom_of_ne hne).1 h))

/-! ## Lines -/

/-- The characters that are read together with the one before them. -/
def seconds : List Char := ['*', '/', '\\', '"']

/-- A character that is read with the one before it is not the one at the cut. -/
theorem head_of_append_eq {c d : Char} {cs rest tail : List Char} (hc : c ∉ seconds) (hd : d ∈ seconds)
    (h : cs ++ c :: rest = d :: tail) : ∃ tail', cs = d :: tail' := by
  cases cs with
  | nil => exact absurd ((List.cons.inj h).1 ▸ hd) hc
  | cons _ tail' => exact ⟨tail', by rw [(List.cons.inj h).1]⟩

/-- The reading can be cut in front of a character that is not read together with the one before it. -/
theorem regionsFrom_append_cons {c : Char} (hc : c ∉ seconds) (state : RegionState) (front rest : List Char) :
    regionsFrom state (front ++ c :: rest) =
      regionsFrom.note (regionsFrom state front).1 (regionsFrom (regionsFrom state front).2 (c :: rest)) := by
  have hhead {d : Char} {cs tail : List Char} (hd : d ∈ seconds) (h : cs ++ c :: rest = d :: tail)
      (hne : ∀ tail, cs = d :: tail → False) : False :=
    (head_of_append_eq hc hd h).elim hne
  -- Only where a character is read alone could the cut make a difference: it might begin a pair.
  fun_induction regionsFrom state front with
  | case1 => rfl
  | case7 d cs hblock hline hmark hquote hbracket ih =>
    rw [List.cons_append, regionsFrom_outside_cons, ih]
    · exact note_note _ _ _
    · exact fun tail hd h => hhead (by decide) h fun tail => hblock tail hd
    · exact fun tail hd h => hhead (by decide) h fun tail => hline tail hd
    all_goals assumption
  | case11 d cs hquote hslash hpair ih =>
    rw [List.cons_append, regionsFrom_quoted_cons hquote, ih]
    · exact note_note _ _ _
    · exact fun tail hd h => hhead (by decide) h fun tail => hslash tail hd
    · exact fun tail hd h => hhead (by decide) h fun tail => hpair tail hd
  | case17 d cs hclose ih =>
    rw [List.cons_append, regionsFrom_block_cons, ih]
    · exact note_note _ _ _
    · exact fun tail hd h => hhead (by decide) h fun tail => hclose tail hd
  | _ => simp_all [regionsFrom, regionsFrom.note]

/-- The reading can be cut behind a line feed. -/
theorem regionsFrom_lineFeed (state : RegionState) (rest : List Char) :
    regionsFrom state ('\n' :: rest) =
      regionsFrom.note (regionsFrom state ['\n']).1 (regionsFrom (regionsFrom state ['\n']).2 rest) := by
  rcases state with _ | _ | (_ | _) | _ | _ <;> rfl

/-- The reading can be cut between two lines. -/
theorem regionsFrom_append {above : List Char} (h : EndsLine above) (state : RegionState) (rest : List Char) :
    regionsFrom state (above ++ rest) =
      regionsFrom.note (regionsFrom state above).1 (regionsFrom (regionsFrom state above).2 rest) := by
  rcases h with rfl | ⟨front, rfl⟩
  · rfl
  · have hcut := regionsFrom_append_cons (c := '\n') (by decide) state front
    rw [List.append_assoc, List.singleton_append, hcut, hcut, regionsFrom_lineFeed, note_note]
    rfl

end DotLang.Text
