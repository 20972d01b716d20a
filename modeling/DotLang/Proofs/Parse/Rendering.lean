import DotLang.Proofs.Document.Validity
import DotLang.Proofs.Document.Outcome
import DotLang.Proofs.Token.LaidOut

/-!
# Renderings

A rendering of a document writes its tokens in any of the ways that DOT leaves open, and lays them out with
any gaps between them. Every document that can be written has a rendering, and each of its renderings
parses back to it.
-/

namespace DotLang

/-- Whether a text is a rendering of a document: it lays out tokens that write the document. -/
def Document.Renders (document : Document) (text : String) : Prop :=
  ∃ tokens, document.Written tokens ∧ Token.LaidOut tokens text.toList

/-- Whatever renders a document is parsed to it. -/
theorem parse_of_renders {document : Document} {text : String} (h : document.Renders text) :
    parse text = .ok document := by
  obtain ⟨tokens, hwritten, hlaid⟩ := h
  exact parse_eq_ok_iff.2 ⟨tokens, Token.lex_of_laidOut hlaid, hwritten⟩

/-- Each writable document can be rendered. -/
theorem Document.Writable.exists_renders {document : Document} (h : document.Writable) :
    ∃ text, document.Renders text := by
  obtain ⟨tokens, hwritten, hvalid⟩ := h.exists_written
  obtain ⟨text, hlaid, -⟩ := Token.exists_laidOut hvalid
  exact ⟨String.ofList text, tokens, hwritten, by rwa [String.toList_ofList]⟩

/-- A document that can be written has renderings, and every one of them parses back to it. -/
theorem renderings_parse_back (document : Document) (h : document.Writable) :
    (∃ text, document.Renders text) ∧ ∀ text, document.Renders text → parse text = .ok document :=
  ⟨h.exists_renders, fun _ => parse_of_renders⟩

/-- A directed graph with one edge. -/
def oneEdge : Document :=
  ⟨[{ strict := false, kind := .digraph, id := none,
      statements := [.edge [.node ⟨.identifier "a", none⟩, .node ⟨.identifier "b", none⟩] []] }]⟩

/-- Tokens that write it. -/
def oneEdgeTokens : List Token :=
  [.word ['d', 'i', 'G', 'r', 'a', 'p', 'h'], .mark '{', .word ['a'], .operator .digraph, .word ['b'],
    .mark ';', .mark '}']

/-- A text with these tokens. -/
def oneEdgeText : String := String.ofList
  ['d', 'i', 'G', 'r', 'a', 'p', 'h', '{', 'a', '-', '>', 'b', ';', '}']

/-- The document of a single edge is writable. -/
theorem writable_oneEdge : oneEdge.Writable := by
  refine ⟨by simp [oneEdge], ?_⟩
  have hparts : oneEdge.parts = [.chain 2, .id (.identifier "a"), .id (.identifier "b")] := rfl
  rw [hparts]
  simp only [List.forall_mem_cons]
  have hname : ∀ {c : Char}, Text.isWordStart c = true → c ≠ '\uFEFF' →
      Keyword.isKeyword [c] = false → (Id.identifier (String.ofList [c])).WellFormed := by
    intro c hstart hmark hkeyword
    rw [Id.WellFormed, String.toList_ofList]
    exact ⟨Token.isWord_of_all hstart hmark rfl, hkeyword⟩
  refine ⟨Nat.le_refl 2, hname ?_ ?_ ?_, hname ?_ ?_ ?_, by simp⟩ <;> decide

/-- These tokens write the document of a single edge. -/
theorem written_oneEdge : oneEdge.Written oneEdgeTokens := by
  have hnode : ∀ {name : String}, Keyword.isKeyword name.toList = false →
      (Operand.node ⟨.identifier name, none⟩).Written .digraph [.word name.toList] := by
    intro name hname
    rw [Operand.Written]
    exact .bare ⟨rfl, hname⟩
  -- The tokens are taken apart from the outside: graph, statement, chain, link.
  refine ⟨by simp [oneEdge], oneEdgeTokens, [], rfl, ?_, rfl⟩
  refine ⟨[], ['d', 'i', 'G', 'r', 'a', 'p', 'h'], [],
    [.word ['a'], .operator .digraph, .word ['b'], .mark ';'], rfl, rfl, by decide, rfl, ?_⟩
  rw [Statement.ListWritten]
  refine ⟨[.word ['a'], .operator .digraph, .word ['b']], [.mark ';'], [], rfl, ?_, .inr ⟨';', by simp, rfl⟩,
    by simp [Statement.ListWritten]⟩
  rw [Statement.Written]
  refine ⟨[.word ['a'], .operator .digraph, .word ['b']], [], rfl, ?_, .none⟩
  rw [Operand.ChainWritten]
  refine ⟨[.word ['a']], [.operator .digraph, .word ['b']], rfl, hnode (by decide), by simp, ?_⟩
  rw [Operand.LinksWritten]
  exact ⟨[.word ['b']], [], rfl, hnode (by decide), by simp [Operand.LinksWritten]⟩

/-- This text renders the document of a single edge. -/
theorem renders_oneEdge : oneEdge.Renders oneEdgeText := by
  refine ⟨oneEdgeTokens, written_oneEdge, ?_⟩
  have hvalid : ∀ token ∈ oneEdgeTokens, token.Valid := by
    simp only [oneEdgeTokens, List.forall_mem_cons, Token.valid_operator, Token.valid_mark]
    refine ⟨Token.isWord_of_all ?_ ?_ ?_, ?_, Token.isWord_of_all ?_ ?_ ?_, trivial,
      Token.isWord_of_all ?_ ?_ ?_, ?_, ?_, by simp⟩ <;> decide
  rw [oneEdgeText, String.toList_ofList]
  exact Token.laidOut_flatMap hvalid (by simp [oneEdgeTokens, Token.isBare])

/-- Each rendering of the graph with one edge parses back to it, and the text above is one of them. -/
theorem renderings_parse_back_oneEdge :
    oneEdge.Writable ∧ oneEdge.Renders oneEdgeText ∧ parse oneEdgeText = .ok oneEdge :=
  ⟨writable_oneEdge, renders_oneEdge,
    (renderings_parse_back oneEdge writable_oneEdge).2 oneEdgeText renders_oneEdge⟩

end DotLang
