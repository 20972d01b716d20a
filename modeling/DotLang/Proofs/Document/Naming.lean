import DotLang.Document.Outline
import DotLang.Proofs.Document.Mentions

/-!
# The names of what tokens write

The tokens that write a document mention its names in order. If joining the lines of all strings leaves the
identifiers in ports as they are, the joined tokens write a document with the same outline
(`Document.Written.naming`).
-/

namespace DotLang

open Token

namespace Token

/-- Whether tokens mention names outside ports, and something holds if joining lines leaves the identifiers in
ports as they are. -/
def Naming (names : List Id) (tokens : List Token) (P : Prop) : Prop :=
  ∃ mentions, Mentions tokens mentions ∧ List.Forall₂ Id.Written names (Mention.names mentions) ∧
    ((∀ name, .portName name ∈ mentions → name.map Token.strip = name) → P)

/-- Whether tokens, with the lines of all strings joined, write something with the same outline. -/
def Renews {α : Type} (written : α → List Token → Prop) (outline : α → α) (value : α) (tokens : List Token) :
    Prop :=
  ∃ value', written value' (tokens.map Token.strip) ∧ outline value' = outline value

variable {token : Token} {tokens tokens' : List Token} {names names' : List Id} {P P' : Prop}

/-- No tokens name nothing. -/
theorem Naming.nil (h : P) : Naming [] [] P :=
  ⟨[], .nil, .nil, fun _ => h⟩

/-- What is named does not depend on what is concluded. -/
theorem Naming.imp (h : Naming names tokens P) (himp : P → P') : Naming names tokens P' := by
  obtain ⟨mentions, hmentions, hnames, hports⟩ := h
  exact ⟨mentions, hmentions, hnames, himp ∘ hports⟩

/-- A token that separates names adds none. -/
theorem Naming.separator (h : Naming names tokens P) (htoken : token.separates = true) :
    Naming names (token :: tokens) P := by
  obtain ⟨mentions, hmentions, hnames, hports⟩ := h
  exact ⟨mentions, .separator htoken hmentions, hnames, hports⟩

/-- A mark adds no name, except for those that continue one. -/
theorem Naming.mark (h : Naming names tokens P) (c : Char) (hc : c ∉ [':', '+']) :
    Naming names (.mark c :: tokens) P :=
  h.separator (decide_eq_true hc)

/-- A keyword adds no name. -/
theorem Naming.keyword (h : Naming names tokens P) {text keyword : List Char}
    (hkeyword : keyword ∈ Keyword.all) (htext : Text.sameWord text keyword = true) :
    Naming names (.word text :: tokens) P :=
  h.separator (Keyword.isKeyword_of_sameWord hkeyword htext)

/-- Tokens, one stretch behind the other, name what each stretch does. -/
theorem Naming.append (h : Naming names tokens P) (h' : Naming names' tokens' P') :
    Naming (names ++ names') (tokens ++ tokens') (P ∧ P') := by
  obtain ⟨mentions, hmentions, hnames, hports⟩ := h
  obtain ⟨mentions', hmentions', hnames', hports'⟩ := h'
  refine ⟨mentions ++ mentions', hmentions.append hmentions', ?_, fun hfixed => ⟨hports ?_, hports' ?_⟩⟩
  · rw [Mention.names, List.filterMap_append]
    exact List.rel_append hnames hnames'
  · exact fun name hname => hfixed name (List.mem_append_left _ hname)
  · exact fun name hname => hfixed name (List.mem_append_right _ hname)

/-- Marks between attributes or statements mention nothing. -/
theorem Optional.naming {marks : List Char} (h : Optional marks tokens) (hmarks : ∀ c ∈ marks, c ∉ [':', '+']) :
    Naming [] tokens (tokens.map Token.strip = tokens) := by
  rcases h with rfl | ⟨c, hc, rfl⟩
  · exact .nil rfl
  · exact .mark (.nil rfl) c (hmarks c hc)

end Token

variable {kind : GraphKind} {tokens : List Token}

/-! ## Identifiers and attributes -/

/-- An identifier names itself. -/
theorem Id.Written.naming {id : Id} (h : id.Written tokens) :
    Naming [id] tokens (∃ id' : Id, id'.Written (tokens.map Token.strip)) := by
  refine ⟨[.name tokens], ?_, .cons h .nil, fun _ => exists_written_strip h⟩
  simpa using Mentions.name ⟨id, h⟩ .nil

/-- A name that may be missing names itself, and is still there with its lines joined. -/
theorem Id.OptWritten.naming {id : Option Id} (h : Id.OptWritten id tokens) :
    Naming (Part.names (id.toList.map .id)) tokens
      (Renews Id.OptWritten (Option.map fun _ => Id.blank) id tokens) := by
  cases id with
  | none =>
    obtain rfl := h
    exact .nil ⟨none, rfl, rfl⟩
  | some id => exact (Id.Written.naming h).imp fun ⟨id', hid'⟩ => ⟨some id', hid', rfl⟩

/-- An attribute names its two identifiers. -/
theorem Attribute.Written.naming {pair : Attribute} (h : pair.Written tokens) :
    Naming (Part.names pair.parts) tokens (Renews Attribute.Written Attribute.outline pair tokens) := by
  obtain ⟨key, value, rfl, hkey, hvalue⟩ := h
  refine (hkey.naming.append (hvalue.naming.mark '=' (by decide))).imp ?_
  rintro ⟨⟨key', hkey'⟩, value', hvalue'⟩
  exact ⟨⟨key', value'⟩, ⟨_, _, by simp, hkey', hvalue'⟩, rfl⟩

/-- The attributes of a group name all of their identifiers, in order. -/
theorem Attribute.Listed.naming {pairs : List Attribute} (h : Attribute.Listed pairs tokens) :
    Naming (Part.names (pairs.flatMap Attribute.parts)) tokens
      (Renews Attribute.Listed (List.map Attribute.outline) pairs tokens) := by
  induction h with
  | single hpair =>
    rw [List.flatMap_singleton]
    refine hpair.naming.imp ?_
    rintro ⟨pair', hpair', houtline⟩
    exact ⟨[pair'], .single hpair', by simp [houtline]⟩
  -- The separator names nothing and stays as it is.
  | more hpair hseparator _ ih =>
    rw [List.flatMap_cons, Part.names_append]
    refine (hpair.naming.append ((hseparator.naming (by simp)).append ih)).imp ?_
    rintro ⟨⟨pair', hpair', hfirst⟩, hkept, pairs', hpairs', houtline⟩
    refine ⟨pair' :: pairs', ?_, by simp [hfirst, houtline]⟩
    rw [List.map_append, List.map_append, hkept]
    exact .more hpair' hseparator hpairs'

/-- Groups of attributes name all of their identifiers, in order. -/
theorem Attribute.Grouped.naming {pairs : List Attribute} (h : Attribute.Grouped pairs tokens) :
    Naming (Part.names (pairs.flatMap Attribute.parts)) tokens
      (Renews Attribute.Grouped (List.map Attribute.outline) pairs tokens) := by
  induction h with
  | none => exact .nil ⟨[], .none, rfl⟩
  | empty _ ih =>
    refine ((ih.mark ']' (by decide)).mark '[' (by decide)).imp ?_
    rintro ⟨pairs', hpairs', houtline⟩
    exact ⟨pairs', .empty hpairs', houtline⟩
  -- The brackets around a group name nothing.
  | group hlisted _ ih =>
    rw [List.flatMap_append, Part.names_append]
    refine ((hlisted.naming.append (ih.mark ']' (by decide))).mark '[' (by decide)).imp ?_
    rintro ⟨⟨first', hfirst', hfirst⟩, pairs', hpairs', houtline⟩
    refine ⟨first' ++ pairs', ?_, by simp [hfirst, houtline]⟩
    simpa using Attribute.Grouped.group hfirst' hpairs'

/-! ## Nodes -/

/-- A port has no names, and its tokens are kept where its identifiers are. -/
theorem Port.Written.naming {port : Port} (h : port.Written tokens) :
    Naming [] tokens (tokens.map Token.strip = tokens) := by
  -- One identifier behind a colon, and what is behind it.
  have hmention : ∀ {id : Id} {name rest : List Token}, id.Written name →
      Naming [] rest (rest.map Token.strip = rest) →
      Naming [] (mark ':' :: (name ++ rest))
        ((mark ':' :: (name ++ rest)).map Token.strip = mark ':' :: (name ++ rest)) := by
    rintro id name rest hid ⟨mentions, hmentions, hnames, hports⟩
    refine ⟨.portName name :: mentions, .portName ⟨id, hid⟩ hmentions, hnames, fun hfixed => ?_⟩
    have hname := hfixed name List.mem_cons_self
    have hrest := hports fun name hname => hfixed name (List.mem_cons_of_mem _ hname)
    simp [hname, hrest]
  cases h with
  | name hid _ => simpa using hmention hid (.nil rfl)
  | compass hid _ => simpa using hmention hid (.nil rfl)
  | both hid hid' =>
    have hsecond := hmention hid' (.nil rfl)
    rw [List.append_nil] at hsecond
    exact hmention hid hsecond

/-- A node names its identifier, and what stands in its port. -/
theorem NodeId.Written.naming {node : NodeId} (h : node.Written tokens) :
    Naming (Part.names node.parts) tokens (Renews NodeId.Written NodeId.outline node tokens) := by
  cases h with
  | bare hid =>
    refine hid.naming.imp ?_
    rintro ⟨id', hid'⟩
    exact ⟨⟨id', none⟩, .bare hid', rfl⟩
  -- The names in the port have no lines to be joined, so the port is still written as before.
  | @port id port first ending hid hport =>
    refine (hid.naming.append hport.naming).imp ?_
    rintro ⟨⟨id', hid'⟩, hkept⟩
    refine ⟨⟨id', some port⟩, ?_, rfl⟩
    rw [List.map_append, hkept]
    exact .port hid' hport

/-! ## Statements -/

/-- The head of a subgraph names the subgraph, if it has a name. -/
theorem Statement.Headed.naming {id : Option Id} (h : Statement.Headed id tokens) :
    Naming (Part.names (id.toList.map .id)) tokens
      (Renews Statement.Headed (Option.map fun _ => Id.blank) id tokens) := by
  cases h with
  | none => exact .nil ⟨.none, .none, rfl⟩
  | word hword hid =>
    refine (hid.naming.keyword (by decide) hword).imp ?_
    rintro ⟨id', hid', houtline⟩
    exact ⟨id', .word hword hid', houtline⟩

/-- What stands before braces and what stands between them. -/
theorem Statement.naming_braced {id : Option Id} {statements : List Statement} {head body : List Token}
    (hhead : Statement.Headed id head)
    (hbody : Naming (Part.names (Statement.listParts statements)) body
      (Renews (Statement.ListWritten kind) Statement.listOutline statements body)) :
    Naming (Part.names (id.toList.map .id ++ Statement.listParts statements))
      (head ++ .mark '{' :: (body ++ [.mark '}']))
      (∃ id' statements', (∃ head' body', (head ++ mark '{' :: (body ++ [mark '}'])).map Token.strip =
          head' ++ .mark '{' :: (body' ++ [.mark '}']) ∧
        Statement.Headed id' head' ∧ Statement.ListWritten kind statements' body') ∧
        (id'.map fun _ => Id.blank) = (id.map fun _ => Id.blank) ∧
        Statement.listOutline statements' = Statement.listOutline statements) := by
  have hclosed := hbody.append (Naming.mark (.nil trivial) '}' (by decide))
  rw [List.append_nil] at hclosed
  rw [Part.names_append]
  refine (hhead.naming.append (hclosed.mark '{' (by decide))).imp ?_
  rintro ⟨⟨id', hid', hidOutline⟩, ⟨statements', hstatements', houtline⟩, -⟩
  exact ⟨id', statements', ⟨_, _, by simp, hid', hstatements'⟩, hidOutline, houtline⟩

mutual

/-- A statement names what its parts do, and joining lines keeps its outline. -/
theorem Statement.Written.naming : ∀ {statement : Statement} {tokens : List Token},
    statement.Written kind tokens →
    Naming (Part.names statement.parts) tokens (Renews (Statement.Written kind) Statement.outline statement tokens)
  | .node node attributes, tokens, h => by
    rw [Statement.Written] at h
    obtain ⟨first, groups, rfl, hnode, hgrouped⟩ := h
    rw [Statement.parts, Part.names_append]
    refine (hnode.naming.append hgrouped.naming).imp ?_
    -- Node and attributes are renewed one by one, and make a statement again.
    rintro ⟨⟨node', hnode', hnodeOutline⟩, attributes', hattributes', houtline⟩
    refine ⟨.node node' attributes', ?_, by rw [Statement.outline, Statement.outline, hnodeOutline, houtline]⟩
    rw [Statement.Written]
    exact ⟨_, _, List.map_append, hnode', hattributes'⟩
  | .edge operands attributes, tokens, h => by
    rw [Statement.Written] at h
    obtain ⟨chain, groups, rfl, hchain, hgrouped⟩ := h
    rw [Statement.parts, Part.names_chain, Part.names_append]
    refine ((Operand.ChainWritten.naming hchain).append hgrouped.naming).imp ?_
    rintro ⟨⟨operands', hoperands', hoperandsOutline⟩, attributes', hattributes', houtline⟩
    refine ⟨.edge operands' attributes', ?_,
      by rw [Statement.outline, Statement.outline, hoperandsOutline, houtline]⟩
    rw [Statement.Written]
    exact ⟨_, _, List.map_append, hoperands', hattributes'⟩
  | .attributes target attributes, tokens, h => by
    rw [Statement.Written] at h
    obtain ⟨word, groups, rfl, hword, hne, hgrouped⟩ := h
    rw [Statement.parts]
    -- The keyword in front names nothing and stays as it is.
    refine (hgrouped.naming.keyword (by cases target <;> decide) hword).imp ?_
    rintro ⟨attributes', hattributes', houtline⟩
    refine ⟨.attributes target attributes', ?_, by rw [Statement.outline, Statement.outline, houtline]⟩
    rw [Statement.Written]
    exact ⟨word, _, rfl, hword, by simpa using hne, hattributes'⟩
  | .assignment pair, tokens, h => by
    rw [Statement.Written] at h
    rw [Statement.parts]
    refine h.naming.imp ?_
    rintro ⟨pair', hpair', houtline⟩
    refine ⟨.assignment pair', ?_, by rw [Statement.outline, Statement.outline, houtline]⟩
    rwa [Statement.Written]
  | .subgraph id statements, tokens, h => by
    rw [Statement.Written] at h
    obtain ⟨head, body, rfl, hhead, hbody⟩ := h
    rw [Statement.parts]
    refine (Statement.naming_braced hhead (Statement.ListWritten.naming hbody)).imp ?_
    rintro ⟨id', statements', hwritten, hidOutline, houtline⟩
    refine ⟨.subgraph id' statements', ?_, by rw [Statement.outline, Statement.outline, hidOutline, houtline]⟩
    rw [Statement.Written]
    exact hwritten

/-- Statements name what they do one after the other. -/
theorem Statement.ListWritten.naming : ∀ {statements : List Statement} {tokens : List Token},
    Statement.ListWritten kind statements tokens →
    Naming (Part.names (Statement.listParts statements)) tokens
      (Renews (Statement.ListWritten kind) Statement.listOutline statements tokens)
  | [], tokens, h => by
    rw [Statement.ListWritten] at h
    subst h
    exact .nil ⟨[], by rw [Statement.ListWritten]; rfl, rfl⟩
  | statement :: statements, tokens, h => by
    rw [Statement.ListWritten] at h
    obtain ⟨first, separator, rest, rfl, hfirst, hseparator, hrest⟩ := h
    rw [Statement.listParts, Part.names_append]
    refine ((Statement.Written.naming hfirst).append
      ((hseparator.naming (by simp)).append (Statement.ListWritten.naming hrest))).imp ?_
    -- First statement, separator and the other statements are renewed one by one.
    rintro ⟨⟨statement', hstatement', hfirstOutline⟩, hkept, statements', hstatements', houtline⟩
    refine ⟨statement' :: statements', ?_,
      by rw [Statement.listOutline, Statement.listOutline, hfirstOutline, houtline]⟩
    rw [Statement.ListWritten, List.map_append, List.map_append, hkept]
    exact ⟨_, _, _, rfl, hstatement', hseparator, hstatements'⟩

/-- An operand names what its parts do, and joining lines keeps its outline. -/
theorem Operand.Written.naming : ∀ {operand : Operand} {tokens : List Token}, operand.Written kind tokens →
    Naming (Part.names operand.parts) tokens (Renews (Operand.Written kind) Operand.outline operand tokens)
  | .node node, tokens, h => by
    rw [Operand.Written] at h
    rw [Operand.parts]
    refine h.naming.imp ?_
    rintro ⟨node', hnode', houtline⟩
    refine ⟨.node node', ?_, by rw [Operand.outline, Operand.outline, houtline]⟩
    rwa [Operand.Written]
  | .subgraph id statements, tokens, h => by
    rw [Operand.Written] at h
    obtain ⟨head, body, rfl, hhead, hbody⟩ := h
    rw [Operand.parts]
    -- The head and the statements between the braces are renewed together.
    refine (Statement.naming_braced hhead (Statement.ListWritten.naming hbody)).imp ?_
    rintro ⟨id', statements', hwritten, hidOutline, houtline⟩
    refine ⟨.subgraph id' statements', ?_, by rw [Operand.outline, Operand.outline, hidOutline, houtline]⟩
    rwa [Operand.Written]

/-- Operands behind operators name what they do one after the other. -/
theorem Operand.LinksWritten.naming : ∀ {operands : List Operand} {tokens : List Token},
    Operand.LinksWritten kind operands tokens →
    Naming (Part.names (Operand.listParts operands)) tokens
      (Renews (Operand.LinksWritten kind) Operand.listOutline operands tokens)
  | [], tokens, h => by
    rw [Operand.LinksWritten] at h
    subst h
    exact .nil ⟨[], by rw [Operand.LinksWritten]; rfl, rfl⟩
  | operand :: operands, tokens, h => by
    rw [Operand.LinksWritten] at h
    obtain ⟨first, rest, rfl, hfirst, hrest⟩ := h
    rw [Operand.listParts, Part.names_append]
    have hnaming := (Operand.Written.naming hfirst).append (Operand.LinksWritten.naming hrest)
    -- The operator in front names nothing.
    refine (hnaming.separator rfl).imp ?_
    rintro ⟨⟨operand', hoperand', hfirstOutline⟩, operands', hoperands', houtline⟩
    refine ⟨operand' :: operands', ?_,
      by rw [Operand.listOutline, Operand.listOutline, hfirstOutline, houtline]⟩
    rw [Operand.LinksWritten]
    exact ⟨_, _, by simp, hoperand', hoperands'⟩

/-- A chain of operands names what they do one after the other. -/
theorem Operand.ChainWritten.naming : ∀ {operands : List Operand} {tokens : List Token},
    Operand.ChainWritten kind operands tokens →
    Naming (Part.names (Operand.listParts operands)) tokens
      (Renews (Operand.ChainWritten kind) Operand.listOutline operands tokens)
  | [], tokens, h => by
    rw [Operand.ChainWritten] at h
    exact h.elim
  | operand :: operands, tokens, h => by
    rw [Operand.ChainWritten] at h
    obtain ⟨first, links, rfl, hfirst, hne, hlinks⟩ := h
    rw [Operand.listParts, Part.names_append]
    refine ((Operand.Written.naming hfirst).append (Operand.LinksWritten.naming hlinks)).imp ?_
    rintro ⟨⟨operand', hoperand', hfirstOutline⟩, operands', hoperands', houtline⟩
    refine ⟨operand' :: operands', ?_,
      by rw [Operand.listOutline, Operand.listOutline, hfirstOutline, houtline]⟩
    -- Outlines have as many operands as what they are outlines of.
    have hne' : operands' ≠ [] := by
      rintro rfl
      obtain ⟨next, more, rfl⟩ := List.exists_cons_of_ne_nil hne
      cases houtline
    rw [Operand.ChainWritten]
    exact ⟨_, _, List.map_append, hoperand', hne', hoperands'⟩

end

/-! ## Graphs and documents -/

/-- The mark of a strict graph names nothing and has no lines to be joined. -/
theorem Graph.Marked.naming {strict : Bool} (h : Graph.Marked strict tokens) :
    Naming [] tokens (tokens.map Token.strip = tokens) := by
  cases strict with
  | false =>
    obtain rfl : tokens = [] := h
    exact .nil rfl
  | true =>
    obtain ⟨word, rfl, hword⟩ := h
    exact .keyword (.nil rfl) (by decide) hword

/-- A graph names what its parts do, and joining lines keeps its outline. -/
theorem Graph.Written.naming {graph : Graph} (h : graph.Written tokens) :
    Naming (Part.names graph.parts) tokens (Renews Graph.Written Graph.outline graph tokens) := by
  obtain ⟨first, word, name, body, rfl, hmarked, hword, hname, hbody⟩ := h
  -- From the end to the front: the closing brace, the statements, the name and the keywords.
  have hclosed := (Statement.ListWritten.naming hbody).append (Naming.mark (.nil trivial) '}' (by decide))
  rw [List.append_nil] at hclosed
  have hnamed := (hname.naming.append (hclosed.mark '{' (by decide))).keyword graph.kind.keyword_mem hword
  rw [Graph.parts, Part.names_append]
  refine (hmarked.naming.append hnamed).imp ?_
  rintro ⟨hkept, ⟨id', hid', hidOutline⟩, ⟨statements', hstatements', houtline⟩, -⟩
  refine ⟨{ graph with id := id', statements := statements' }, ⟨first, word, _, _, ?_, hmarked, hword, hid',
    hstatements'⟩, ?_⟩
  · simp [hkept]
  · simp [Graph.outline, hidOutline, houtline]

/-- Graphs name what they do one after the other. -/
theorem Graph.ListWritten.naming {graphs : List Graph} (h : Graph.ListWritten graphs tokens) :
    Naming (Part.names (graphs.flatMap Graph.parts)) tokens
      (Renews Graph.ListWritten (List.map Graph.outline) graphs tokens) := by
  induction graphs generalizing tokens with
  | nil =>
    obtain rfl := h
    exact .nil ⟨[], rfl, rfl⟩
  | cons graph graphs ih =>
    obtain ⟨first, rest, rfl, hfirst, hrest⟩ := h
    rw [List.flatMap_cons, Part.names_append]
    refine (hfirst.naming.append (ih hrest)).imp ?_
    rintro ⟨⟨graph', hgraph', hfirstOutline⟩, graphs', hgraphs', houtline⟩
    refine ⟨graph' :: graphs', ?_, by simp [hfirstOutline, houtline]⟩
    exact ⟨_, _, List.map_append, hgraph', hgraphs'⟩

/-- The tokens of a document mention its names, and if joining lines leaves its ports as they are, the joined
tokens write a document with the same outline. -/
theorem Document.Written.naming {document : Document} (h : document.Written tokens) :
    Naming document.names tokens (Renews Document.Written Document.outline document tokens) := by
  refine h.2.naming.imp ?_
  rintro ⟨graphs', hgraphs', houtline⟩
  refine ⟨⟨graphs'⟩, ⟨?_, hgraphs'⟩, by simpa [Document.outline] using houtline⟩
  rintro rfl
  exact h.1 (by simpa using houtline.symm)

end DotLang
