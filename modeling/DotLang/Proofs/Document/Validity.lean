import DotLang.Document.WellFormed
import DotLang.Proofs.Document.Written
import DotLang.Proofs.Token.Valid

/-!
# Well-formed documents and valid tokens

Valid tokens write well-formed documents only (`Document.Written.wellFormed`), and every document that can
be written is written by some valid tokens (`Document.Writable.exists_written`).
-/

namespace DotLang

open Token

variable {kind : GraphKind} {tokens : List Token}

/-- All of some tokens have a form that a text can give them. -/
def Token.AllValid (tokens : List Token) : Prop := ∀ token ∈ tokens, token.Valid

namespace Token

@[simp] theorem allValid_nil : AllValid [] := fun _ h => absurd h List.not_mem_nil

@[simp] theorem allValid_cons {token : Token} : AllValid (token :: tokens) ↔ token.Valid ∧ AllValid tokens :=
  List.forall_mem_cons

@[simp] theorem allValid_append {tokens' : List Token} :
    AllValid (tokens ++ tokens') ↔ AllValid tokens ∧ AllValid tokens' :=
  List.forall_mem_append

@[simp] theorem valid_operator (kind : GraphKind) : (operator kind).Valid := trivial

/-- A mark is valid if it is one of the marks of DOT. -/
@[simp] theorem valid_mark {c : Char} : (mark c).Valid ↔ c ∈ marks := Iff.rfl

end Token

namespace Part

/-- All of some parts have a property. -/
def All (property : Part → Prop) (parts : List Part) : Prop := ∀ part ∈ parts, property part

variable {property : Part → Prop}

@[simp] theorem all_nil : All property [] := fun _ h => absurd h List.not_mem_nil

@[simp] theorem all_cons {part : Part} {parts : List Part} :
    All property (part :: parts) ↔ property part ∧ All property parts :=
  List.forall_mem_cons

/-- A property holds of all parts if it holds of the first ones and of the others. -/
@[simp] theorem all_append {parts parts' : List Part} :
    All property (parts ++ parts') ↔ All property parts ∧ All property parts' :=
  List.forall_mem_append

end Part

/-! ## Identifiers -/

/-- Valid strings that are joined say a text that can be written between quotes. -/
theorem Id.Joined.paired {value : List Char} (h : Id.Joined value tokens) (hvalid : AllValid tokens) :
    Text.Paired value := by
  induction h with
  -- Unescaping undoes the escaping that makes the content of a valid token.
  | single content =>
    obtain ⟨value, hvalue, rfl⟩ := hvalid _ List.mem_cons_self
    rw [Text.Quoted.unescape_escape hvalue.paired]
    exact hvalue.paired
  | more content _ ih =>
    simp only [allValid_cons] at hvalid
    obtain ⟨⟨value, hvalue, rfl⟩, -, hmore⟩ := hvalid
    rw [Text.Quoted.unescape_escape hvalue.paired]
    exact hvalue.paired.append (ih hmore)

/-- An identifier of valid tokens is well formed. -/
theorem Id.Written.wellFormed {id : Id} (h : id.Written tokens) (hvalid : AllValid tokens) :
    id.WellFormed := by
  cases id with
  | identifier value =>
    obtain ⟨rfl, hkeyword⟩ := h
    exact ⟨hvalid _ List.mem_cons_self, hkeyword⟩
  | numeral value =>
    obtain rfl := h
    exact hvalid _ List.mem_cons_self
  | quoted value => exact (Id.Joined.paired h hvalid).isQuotable
  | html value =>
    obtain rfl := h
    exact hvalid _ List.mem_cons_self

/-- A name of valid tokens is well formed, if it is there. -/
theorem Id.OptWritten.wellFormed {id : Option Id} (h : Id.OptWritten id tokens) (hvalid : AllValid tokens) :
    Part.All Part.WellFormed (id.toList.map .id) := by
  rcases id with _ | id
  · simp
  · simpa [Part.WellFormed] using Id.Written.wellFormed h hvalid

/-! ## Attributes and nodes -/

/-- The parts of an attribute of valid tokens are well formed. -/
theorem Attribute.Written.wellFormed {pair : Attribute} (h : pair.Written tokens)
    (hvalid : AllValid tokens) : Part.All Part.WellFormed pair.parts := by
  obtain ⟨key, value, rfl, hkey, hvalue⟩ := h
  simp only [allValid_append, allValid_cons] at hvalid
  simpa [Attribute.parts] using ⟨hkey.wellFormed hvalid.1, hvalue.wellFormed hvalid.2.2⟩

/-- The parts of a group of valid tokens are well formed. -/
theorem Attribute.Listed.wellFormed {pairs : List Attribute} (h : Attribute.Listed pairs tokens)
    (hvalid : AllValid tokens) : Part.All Part.WellFormed (pairs.flatMap Attribute.parts) := by
  induction h with
  | single h => simpa using h.wellFormed hvalid
  | more h _ _ ih =>
    simp only [allValid_append] at hvalid
    simpa using ⟨h.wellFormed hvalid.1, ih hvalid.2.2⟩

/-- The parts of groups of valid tokens are well formed. -/
theorem Attribute.Grouped.wellFormed {pairs : List Attribute} (h : Attribute.Grouped pairs tokens)
    (hvalid : AllValid tokens) : Part.All Part.WellFormed (pairs.flatMap Attribute.parts) := by
  induction h with
  | none => simp
  | empty _ ih =>
    simp only [allValid_cons] at hvalid
    exact ih hvalid.2.2
  | group hlisted _ ih =>
    simp only [allValid_cons, allValid_append] at hvalid
    simpa using ⟨hlisted.wellFormed hvalid.2.1, ih hvalid.2.2.2⟩

/-- A port of valid tokens is well formed. -/
theorem Port.Written.wellFormed {port : Port} (h : port.Written tokens) (hvalid : AllValid tokens) :
    port.WellFormed := by
  cases h with
  | name hid _ =>
    simp only [allValid_cons] at hvalid
    simpa [Port.WellFormed, Port.ids] using hid.wellFormed hvalid.2
  | compass => simp [Port.WellFormed, Port.ids]
  | both hid _ =>
    simp only [allValid_cons, allValid_append] at hvalid
    -- The second identifier is no part of the port, only the point that it may name.
    simpa [Port.WellFormed, Port.ids] using hid.wellFormed hvalid.2.1

/-- The parts of a node of valid tokens are well formed. -/
theorem NodeId.Written.wellFormed {node : NodeId} (h : node.Written tokens) (hvalid : AllValid tokens) :
    Part.All Part.WellFormed node.parts := by
  cases h with
  | bare hid => simpa [NodeId.parts, Part.WellFormed] using hid.wellFormed hvalid
  | port hid hport =>
    rw [allValid_append] at hvalid
    simpa [NodeId.parts, Part.WellFormed] using ⟨hid.wellFormed hvalid.1, hport.wellFormed hvalid.2⟩

/-! ## Statements -/

/-- The name of a subgraph of valid tokens is well formed, if it has one. -/
theorem Statement.Headed.wellFormed {id : Option Id} (h : Statement.Headed id tokens)
    (hvalid : AllValid tokens) : Part.All Part.WellFormed (id.toList.map .id) := by
  cases h with
  | none => simp
  | word _ hid =>
    rw [allValid_cons] at hvalid
    exact hid.wellFormed hvalid.2

mutual

/-- The parts of a statement of valid tokens are well formed. -/
theorem Statement.Written.wellFormed : ∀ {statement : Statement} {tokens : List Token},
    statement.Written kind tokens → AllValid tokens → Part.All Part.WellFormed statement.parts
  | .node node attributes, tokens, h, hvalid => by
    rw [Statement.Written] at h
    obtain ⟨first, groups, rfl, hnode, hgrouped⟩ := h
    rw [allValid_append] at hvalid
    simpa [Statement.parts] using ⟨hnode.wellFormed hvalid.1, hgrouped.wellFormed hvalid.2⟩
  | .edge operands attributes, tokens, h, hvalid => by
    rw [Statement.Written] at h
    obtain ⟨chain, groups, rfl, hchain, hgrouped⟩ := h
    rw [allValid_append] at hvalid
    obtain ⟨hlength, hoperands⟩ := Operand.ChainWritten.wellFormed hchain hvalid.1
    simpa [Statement.parts, Part.WellFormed] using ⟨hlength, hoperands, hgrouped.wellFormed hvalid.2⟩
  | .attributes target attributes, tokens, h, hvalid => by
    rw [Statement.Written] at h
    obtain ⟨word, groups, rfl, -, -, hgrouped⟩ := h
    rw [allValid_cons] at hvalid
    simpa [Statement.parts] using hgrouped.wellFormed hvalid.2
  | .assignment pair, tokens, h, hvalid => by
    rw [Statement.Written] at h
    simpa [Statement.parts] using h.wellFormed hvalid
  | .subgraph id statements, tokens, h, hvalid => by
    rw [Statement.Written] at h
    obtain ⟨head, body, rfl, hhead, hbody⟩ := h
    simp only [allValid_append, allValid_cons] at hvalid
    simpa [Statement.parts] using
      ⟨hhead.wellFormed hvalid.1, Statement.ListWritten.wellFormed hbody hvalid.2.2.1⟩

/-- The parts of statements of valid tokens are well formed. -/
theorem Statement.ListWritten.wellFormed : ∀ {statements : List Statement} {tokens : List Token},
    Statement.ListWritten kind statements tokens → AllValid tokens →
    Part.All Part.WellFormed (Statement.listParts statements)
  | [], _, _, _ => by simp [Statement.listParts]
  | statement :: statements, tokens, h, hvalid => by
    rw [Statement.ListWritten] at h
    obtain ⟨first, separator, rest, rfl, hfirst, -, hrest⟩ := h
    simp only [allValid_append] at hvalid
    simpa [Statement.listParts] using ⟨Statement.Written.wellFormed hfirst hvalid.1,
      Statement.ListWritten.wellFormed hrest hvalid.2.2⟩

/-- The parts of an operand of valid tokens are well formed. -/
theorem Operand.Written.wellFormed : ∀ {operand : Operand} {tokens : List Token},
    operand.Written kind tokens → AllValid tokens → Part.All Part.WellFormed operand.parts
  | .node node, tokens, h, hvalid => by
    rw [Operand.Written] at h
    simpa [Operand.parts] using h.wellFormed hvalid
  | .subgraph id statements, tokens, h, hvalid => by
    rw [Operand.Written] at h
    obtain ⟨head, body, rfl, hhead, hbody⟩ := h
    simp only [allValid_append, allValid_cons] at hvalid
    simpa [Operand.parts] using
      ⟨hhead.wellFormed hvalid.1, Statement.ListWritten.wellFormed hbody hvalid.2.2.1⟩

/-- The parts of operands of valid tokens behind operators are well formed. -/
theorem Operand.LinksWritten.wellFormed : ∀ {operands : List Operand} {tokens : List Token},
    Operand.LinksWritten kind operands tokens → AllValid tokens →
    Part.All Part.WellFormed (Operand.listParts operands)
  | [], _, _, _ => by simp [Operand.listParts]
  | operand :: operands, tokens, h, hvalid => by
    rw [Operand.LinksWritten] at h
    obtain ⟨first, rest, rfl, hfirst, hrest⟩ := h
    simp only [allValid_cons, allValid_append] at hvalid
    simpa [Operand.listParts] using ⟨Operand.Written.wellFormed hfirst hvalid.2.1,
      Operand.LinksWritten.wellFormed hrest hvalid.2.2⟩

/-- A chain of valid tokens has two operands at least, and their parts are well formed. -/
theorem Operand.ChainWritten.wellFormed : ∀ {operands : List Operand} {tokens : List Token},
    Operand.ChainWritten kind operands tokens → AllValid tokens →
    2 ≤ operands.length ∧ Part.All Part.WellFormed (Operand.listParts operands)
  | [], _, h, _ => absurd h (by simp [Operand.ChainWritten])
  | operand :: operands, tokens, h, hvalid => by
    rw [Operand.ChainWritten] at h
    obtain ⟨first, links, rfl, hfirst, hne, hlinks⟩ := h
    rw [allValid_append] at hvalid
    -- There is a link, so there are two operands at least.
    have hlength := List.length_pos_iff.2 hne
    refine ⟨by rw [List.length_cons]; omega, ?_⟩
    simpa [Operand.listParts] using ⟨Operand.Written.wellFormed hfirst hvalid.1,
      Operand.LinksWritten.wellFormed hlinks hvalid.2⟩

end

/-! ## Documents -/

/-- The parts of a graph of valid tokens are well formed. -/
theorem Graph.Written.wellFormed {graph : Graph} (h : graph.Written tokens) (hvalid : AllValid tokens) :
    Part.All Part.WellFormed graph.parts := by
  obtain ⟨first, word, name, body, rfl, -, -, hname, hbody⟩ := h
  simp only [allValid_append, allValid_cons] at hvalid
  simpa [Graph.parts] using ⟨hname.wellFormed hvalid.2.2.1, hbody.wellFormed hvalid.2.2.2.2.1⟩

/-- The parts of graphs of valid tokens are well formed. -/
theorem Graph.ListWritten.wellFormed {graphs : List Graph} (h : Graph.ListWritten graphs tokens)
    (hvalid : AllValid tokens) : Part.All Part.WellFormed (graphs.flatMap Graph.parts) := by
  induction graphs generalizing tokens with
  | nil => simp
  | cons graph graphs ih =>
    obtain ⟨first, rest, rfl, hfirst, hrest⟩ := h
    rw [allValid_append] at hvalid
    simpa using ⟨hfirst.wellFormed hvalid.1, ih hrest hvalid.2⟩

/-- A document that valid tokens write is well formed. -/
theorem Document.Written.wellFormed {document : Document} (h : document.Written tokens)
    (hvalid : AllValid tokens) : document.WellFormed :=
  ⟨h.1, h.2.wellFormed hvalid⟩

/-! ## What can be written -/

/-- A well-formed identifier can be written by valid tokens. -/
theorem Id.WellFormed.exists_written {id : Id} (h : id.WellFormed) :
    ∃ tokens, id.Written tokens ∧ AllValid tokens := by
  cases id with
  | identifier value => exact ⟨[.word value.toList], ⟨rfl, h.2⟩, allValid_cons.2 ⟨h.1, allValid_nil⟩⟩
  | numeral value => exact ⟨[.numeral value.toList], rfl, allValid_cons.2 ⟨h, allValid_nil⟩⟩
  | quoted value =>
    -- One quoted string is enough.
    have hjoined := Id.Joined.single (Text.Quoted.escape value.toList)
    rw [Text.Quoted.unescape_escape (Text.IsQuotable.paired h)] at hjoined
    exact ⟨_, hjoined, allValid_cons.2 ⟨⟨value.toList, h, rfl⟩, allValid_nil⟩⟩
  | html value => exact ⟨[.html value.toList], rfl, allValid_cons.2 ⟨h, allValid_nil⟩⟩

/-- A well-formed name that may be missing can be written by valid tokens. -/
theorem Id.exists_optWritten {id : Option Id} (h : Part.All Part.Writable (id.toList.map .id)) :
    ∃ tokens, Id.OptWritten id tokens ∧ AllValid tokens := by
  rcases id with _ | id
  · exact ⟨[], rfl, allValid_nil⟩
  · have hid : id.WellFormed := h (.id id) (by simp)
    exact hid.exists_written

/-- An attribute of writable parts can be written by valid tokens. -/
theorem Attribute.exists_written {pair : Attribute} (h : Part.All Part.Writable pair.parts) :
    ∃ tokens, pair.Written tokens ∧ AllValid tokens := by
  have hkey : pair.key.WellFormed := h (.id pair.key) (by simp [Attribute.parts])
  have hvalue : pair.value.WellFormed := h (.id pair.value) (by simp [Attribute.parts])
  obtain ⟨key, hkey, hkeyValid⟩ := hkey.exists_written
  obtain ⟨value, hvalue, hvalueValid⟩ := hvalue.exists_written
  exact ⟨_, ⟨key, value, rfl, hkey, hvalue⟩, by simp [hkeyValid, hvalueValid, marks]⟩

/-- Attributes of writable parts can be written by valid tokens, in groups. -/
theorem Attribute.exists_grouped {pairs : List Attribute}
    (h : Part.All Part.Writable (pairs.flatMap Attribute.parts)) :
    ∃ tokens, Attribute.Grouped pairs tokens ∧ AllValid tokens := by
  induction pairs with
  | nil => exact ⟨[], .none, allValid_nil⟩
  | cons pair pairs ih =>
    rw [List.flatMap_cons, Part.all_append] at h
    obtain ⟨first, hfirst, hfirstValid⟩ := Attribute.exists_written h.1
    obtain ⟨rest, hrest, hrestValid⟩ := ih h.2
    -- Each attribute can be given a group of its own.
    exact ⟨_, .group (.single hfirst) hrest, by simp [hfirstValid, hrestValid, marks]⟩

/-- The name of a compass point is a well-formed identifier. -/
theorem CompassPoint.wellFormed_name (point : CompassPoint) : (Id.identifier point.name).WellFormed := by
  cases point <;>
    exact ⟨isWord_of_all (by decide) (by decide) (by decide), by decide⟩

/-- A writable port can be written by valid tokens. -/
theorem Port.Writable.exists_written {port : Port} (h : port.Writable) :
    ∃ tokens, port.Written tokens ∧ AllValid tokens := by
  obtain ⟨name, compass⟩ := port
  obtain ⟨⟨hsome, hids⟩, hname⟩ := h
  -- A port has a name, a compass point or both; only a lone name could be taken for a compass point.
  rcases compass with _ | point
  · rcases name with _ | id
    · simp at hsome
    · obtain ⟨tokens, hid, hvalid⟩ := (hids id (by simp [Port.ids])).exists_written
      exact ⟨_, .name hid (hname rfl id (by simp [Port.ids])), by simp [hvalid, marks]⟩
  · obtain ⟨last, hlast, hlastValid⟩ := point.wellFormed_name.exists_written
    have hpoint : CompassPoint.ofName? (Id.identifier point.name).value = some point :=
      CompassPoint.ofName?_name point
    rcases name with _ | id
    · exact ⟨_, .compass hlast hpoint, by simp [hlastValid, marks]⟩
    · obtain ⟨tokens, hid, hvalid⟩ := (hids id (by simp [Port.ids])).exists_written
      have hboth := Port.Written.both hid hlast
      rw [hpoint] at hboth
      exact ⟨_, hboth, by simp [hvalid, hlastValid, marks]⟩

/-- A node of writable parts can be written by valid tokens. -/
theorem NodeId.exists_written {node : NodeId} (h : Part.All Part.Writable node.parts) :
    ∃ tokens, node.Written tokens ∧ AllValid tokens := by
  obtain ⟨id, port⟩ := node
  have hid : id.WellFormed := h (.id id) (by simp [NodeId.parts])
  obtain ⟨first, hfirst, hfirstValid⟩ := hid.exists_written
  rcases port with _ | port
  · exact ⟨first, .bare hfirst, hfirstValid⟩
  · have hport : port.Writable := h (.port port) (by simp [NodeId.parts])
    obtain ⟨last, hlast, hlastValid⟩ := hport.exists_written
    exact ⟨_, .port hfirst hlast, by simp [hfirstValid, hlastValid]⟩

/-- The head of a subgraph can be written by valid tokens. -/
theorem Statement.exists_headed {id : Option Id} (h : Part.All Part.Writable (id.toList.map .id)) :
    ∃ tokens, Statement.Headed id tokens ∧ AllValid tokens := by
  obtain ⟨name, hname, hvalid⟩ := Id.exists_optWritten h
  have hword : Text.sameWord Keyword.subgraph Keyword.subgraph = true := by decide
  refine ⟨_, .word hword hname, ?_⟩
  simpa using ⟨valid_keyword (by decide), hvalid⟩

/-- A subgraph is written from what writes its statements. -/
theorem Statement.exists_braced {id : Option Id} {statements : List Statement}
    (hid : Part.All Part.Writable (id.toList.map .id))
    (hbody : ∃ body, Statement.ListWritten kind statements body ∧ AllValid body) :
    ∃ tokens, (∃ head body, tokens = head ++ .mark '{' :: (body ++ [.mark '}']) ∧
      Statement.Headed id head ∧ Statement.ListWritten kind statements body) ∧ AllValid tokens := by
  obtain ⟨head, hhead, hheadValid⟩ := Statement.exists_headed hid
  obtain ⟨body, hbody, hbodyValid⟩ := hbody
  exact ⟨_, ⟨head, body, rfl, hhead, hbody⟩, by simp [hheadValid, hbodyValid, marks]⟩

-- One of the ways to write a document is enough: nothing between statements, a group for each attribute, the
-- word in front of each subgraph.
mutual

/-- A statement of writable parts can be written by valid tokens, for each kind of graph. -/
theorem Statement.exists_written (kind : GraphKind) : ∀ (statement : Statement),
    Part.All Part.Writable statement.parts → ∃ tokens, statement.Written kind tokens ∧ AllValid tokens
  | .node node attributes, h => by
    rw [Statement.parts, Part.all_append] at h
    obtain ⟨first, hfirst, hfirstValid⟩ := NodeId.exists_written h.1
    obtain ⟨groups, hgroups, hgroupsValid⟩ := Attribute.exists_grouped h.2
    refine ⟨first ++ groups, ?_, by simp [hfirstValid, hgroupsValid]⟩
    rw [Statement.Written]
    exact ⟨first, groups, rfl, hfirst, hgroups⟩
  | .edge operands attributes, h => by
    rw [Statement.parts, Part.all_cons, Part.all_append] at h
    obtain ⟨hlength, hoperands, hattributes⟩ := h
    obtain ⟨chain, hchain, hchainValid⟩ := Operand.exists_chainWritten kind operands hlength hoperands
    obtain ⟨groups, hgroups, hgroupsValid⟩ := Attribute.exists_grouped hattributes
    refine ⟨chain ++ groups, ?_, by simp [hchainValid, hgroupsValid]⟩
    rw [Statement.Written]
    exact ⟨chain, groups, rfl, hchain, hgroups⟩
  | .attributes target attributes, h => by
    rw [Statement.parts] at h
    obtain ⟨groups, hgroups, hgroupsValid⟩ := Attribute.exists_grouped h
    have hword : (word target.keyword).Valid := valid_keyword (by cases target <;> decide)
    -- A keyword needs a group behind it, even where there are no attributes.
    refine ⟨word target.keyword :: .mark '[' :: .mark ']' :: groups, ?_,
      by simpa [hgroupsValid, marks] using hword⟩
    rw [Statement.Written]
    exact ⟨_, _, rfl, by simp [Text.sameWord], by simp, .empty hgroups⟩
  | .assignment pair, h => by
    rw [Statement.parts] at h
    obtain ⟨tokens, hpair, hvalid⟩ := Attribute.exists_written h
    exact ⟨tokens, by rwa [Statement.Written], hvalid⟩
  | .subgraph id statements, h => by
    rw [Statement.parts, Part.all_append] at h
    obtain ⟨tokens, hbraced, hvalid⟩ :=
      Statement.exists_braced h.1 (Statement.exists_listWritten kind statements h.2)
    exact ⟨tokens, by rwa [Statement.Written], hvalid⟩

/-- Statements of writable parts can be written by valid tokens. -/
theorem Statement.exists_listWritten (kind : GraphKind) : ∀ (statements : List Statement),
    Part.All Part.Writable (Statement.listParts statements) →
    ∃ tokens, Statement.ListWritten kind statements tokens ∧ AllValid tokens
  | [], _ => ⟨[], by simp [Statement.ListWritten], allValid_nil⟩
  | statement :: statements, h => by
    rw [Statement.listParts, Part.all_append] at h
    obtain ⟨first, hfirst, hfirstValid⟩ := Statement.exists_written kind statement h.1
    obtain ⟨rest, hrest, hrestValid⟩ := Statement.exists_listWritten kind statements h.2
    -- The separator may be missing.
    refine ⟨first ++ ([] ++ rest), ?_, by simp [hfirstValid, hrestValid]⟩
    rw [Statement.ListWritten]
    exact ⟨first, [], rest, rfl, hfirst, .inl rfl, hrest⟩

/-- An operand of writable parts can be written by valid tokens. -/
theorem Operand.exists_written (kind : GraphKind) : ∀ (operand : Operand),
    Part.All Part.Writable operand.parts → ∃ tokens, operand.Written kind tokens ∧ AllValid tokens
  | .node node, h => by
    rw [Operand.parts] at h
    obtain ⟨tokens, hnode, hvalid⟩ := NodeId.exists_written h
    exact ⟨tokens, by rwa [Operand.Written], hvalid⟩
  | .subgraph id statements, h => by
    rw [Operand.parts, Part.all_append] at h
    obtain ⟨tokens, hbraced, hvalid⟩ :=
      Statement.exists_braced h.1 (Statement.exists_listWritten kind statements h.2)
    exact ⟨tokens, by rwa [Operand.Written], hvalid⟩

/-- Operands of writable parts can be written by valid tokens behind operators. -/
theorem Operand.exists_linksWritten (kind : GraphKind) : ∀ (operands : List Operand),
    Part.All Part.Writable (Operand.listParts operands) →
    ∃ tokens, Operand.LinksWritten kind operands tokens ∧ AllValid tokens
  | [], _ => ⟨[], by simp [Operand.LinksWritten], allValid_nil⟩
  | operand :: operands, h => by
    rw [Operand.listParts, Part.all_append] at h
    obtain ⟨first, hfirst, hfirstValid⟩ := Operand.exists_written kind operand h.1
    obtain ⟨rest, hrest, hrestValid⟩ := Operand.exists_linksWritten kind operands h.2
    refine ⟨.operator kind :: (first ++ rest), ?_, by simp [hfirstValid, hrestValid]⟩
    rw [Operand.LinksWritten]
    exact ⟨first, rest, rfl, hfirst, hrest⟩

/-- Two operands or more of writable parts can be written by valid tokens as a chain. -/
theorem Operand.exists_chainWritten (kind : GraphKind) : ∀ (operands : List Operand),
    2 ≤ operands.length → Part.All Part.Writable (Operand.listParts operands) →
    ∃ tokens, Operand.ChainWritten kind operands tokens ∧ AllValid tokens
  | [], hlength, _ => absurd hlength (by simp)
  | operand :: operands, hlength, h => by
    rw [Operand.listParts, Part.all_append] at h
    obtain ⟨first, hfirst, hfirstValid⟩ := Operand.exists_written kind operand h.1
    obtain ⟨links, hlinks, hlinksValid⟩ := Operand.exists_linksWritten kind operands h.2
    refine ⟨first ++ links, ?_, by simp [hfirstValid, hlinksValid]⟩
    -- With two operands at least there is a link.
    have hne : operands ≠ [] := by
      rintro rfl
      exact absurd hlength (by simp)
    rw [Operand.ChainWritten]
    exact ⟨first, links, rfl, hfirst, hne, hlinks⟩

end

/-- A graph of writable parts can be written by valid tokens. -/
theorem Graph.exists_written {graph : Graph} (h : Part.All Part.Writable graph.parts) :
    ∃ tokens, graph.Written tokens ∧ AllValid tokens := by
  rw [Graph.parts, Part.all_append] at h
  obtain ⟨name, hname, hnameValid⟩ := Id.exists_optWritten h.1
  obtain ⟨body, hbody, hbodyValid⟩ := Statement.exists_listWritten graph.kind graph.statements h.2
  obtain ⟨first, hfirst, hfirstValid⟩ : ∃ first, Graph.Marked graph.strict first ∧ AllValid first := by
    rcases graph.strict with _ | _
    · exact ⟨[], rfl, allValid_nil⟩
    · exact ⟨[.word Keyword.strict], ⟨_, rfl, by decide⟩, by simpa using valid_keyword (by decide)⟩
  -- The keyword is written in lower case, which is one of the spellings allowed.
  have hword : (word graph.kind.keyword).Valid := valid_keyword (by cases graph.kind <;> decide)
  refine ⟨first ++ word graph.kind.keyword :: (name ++ .mark '{' :: (body ++ [.mark '}'])),
    ⟨first, _, name, body, rfl, hfirst, by simp [Text.sameWord], hname, hbody⟩, ?_⟩
  simp [hfirstValid, hword, hnameValid, hbodyValid, marks]

/-- Every document that can be written is written by some valid tokens. -/
theorem Document.Writable.exists_written {document : Document} (h : document.Writable) :
    ∃ tokens, document.Written tokens ∧ AllValid tokens := by
  obtain ⟨graphs⟩ := document
  obtain ⟨hne, hparts⟩ := h
  have hgraphs : Part.All Part.Writable (graphs.flatMap Graph.parts) := hparts
  suffices hlist : ∃ tokens, Graph.ListWritten graphs tokens ∧ AllValid tokens by
    obtain ⟨tokens, hwritten, hvalid⟩ := hlist
    exact ⟨tokens, ⟨hne, hwritten⟩, hvalid⟩
  clear hne hparts
  induction graphs with
  | nil => exact ⟨[], rfl, allValid_nil⟩
  | cons graph graphs ih =>
    rw [List.flatMap_cons, Part.all_append] at hgraphs
    obtain ⟨first, hfirst, hfirstValid⟩ := Graph.exists_written hgraphs.1
    obtain ⟨rest, hrest, hrestValid⟩ := ih hgraphs.2
    exact ⟨first ++ rest, ⟨first, rest, rfl, hfirst, hrest⟩, by simp [hfirstValid, hrestValid]⟩

end DotLang
