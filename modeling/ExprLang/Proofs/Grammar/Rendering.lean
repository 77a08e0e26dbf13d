import ExprLang.Proofs.Grammar.Derivation

-- The ways to write a tree down. Parentheses stand where the levels of the
-- operators ask for them, and otherwise wherever one likes, and each way is
-- derived by the grammar and says that tree.

namespace ExprLang.Grammar

variable {table : PrecedenceTable}

section Renders

variable (table)

mutual

-- The tree is written where only operators that bind at least as tightly may
-- stand without parentheses. To the left of an operator others of its level
-- may, and to its right only tighter ones.
inductive Renders : Int → Node → List Token → Prop
  | number {least : Int} (token : Terminal .number) :
    Renders least (.number token.val.value) [token.val]
  | name {least : Int} (token : Terminal .identifier) :
    Renders least (.var token.val.value) [token.val]
  | emptyCall {least : Int} (callee : Terminal .identifier) (opening : Terminal .parensOpen)
      (closing : Terminal .parensClose) :
    Renders least (.call callee.val.value []) [callee.val, opening.val, closing.val]
  | call {least : Int} {arguments : List Node} {tokens : List Token}
      (callee : Terminal .identifier) (opening : Terminal .parensOpen)
      (harguments : RendersArguments arguments tokens) :
    Renders least (.call callee.val.value arguments) (callee.val :: opening.val :: tokens)
  | binary {least level : Int} {symbol : String} {left right : Node} {tokens tokens' : List Token}
      (op : Terminal .binaryOperator) (hop : op.val.value = .text symbol)
      (hlevel : table.level? (.text symbol) = some level) (hleast : least ≤ level)
      (hleft : Renders level left tokens) (hright : Renders (level + 1) right tokens') :
    Renders least (.binary symbol left right) (tokens ++ op.val :: tokens')
  | parens {least : Int} {node : Node} {tokens : List Token} (opening : Terminal .parensOpen)
      (hnode : Renders 0 node tokens) (closing : Terminal .parensClose) :
    Renders least node (opening.val :: (tokens ++ [closing.val]))

-- The arguments of a call and the parenthesis that closes it.
inductive RendersArguments : List Node → List Token → Prop
  | last {node : Node} {tokens : List Token} (hnode : Renders 0 node tokens)
      (closing : Terminal .parensClose) : RendersArguments [node] (tokens ++ [closing.val])
  | more {node : Node} {nodes : List Node} {tokens tokens' : List Token}
      (hnode : Renders 0 node tokens) (comma : Terminal .comma)
      (hrest : RendersArguments nodes tokens') :
    RendersArguments (node :: nodes) (tokens ++ comma.val :: tokens')

end

-- The parameters of a prototype and the parenthesis that closes it.
inductive RendersParameters : List Value → List Token → Prop
  | last (name : Terminal .identifier) (closing : Terminal .parensClose) :
    RendersParameters [name.val.value] [name.val, closing.val]
  | more {names : List Value} {tokens : List Token} (name : Terminal .identifier)
      (comma : Terminal .comma) (hrest : RendersParameters names tokens) :
    RendersParameters (name.val.value :: names) (name.val :: comma.val :: tokens)

inductive RendersDefinition : Definition → List Token → Prop
  | anonymous {body : Node} {tokens : List Token} (hbody : Renders table 0 body tokens) :
    RendersDefinition (.anonymous body) tokens
  | constant {body : Node} {tokens : List Token} (keyword : Terminal .define)
      (name : Terminal .identifier) (opening : Terminal .parensOpen)
      (closing : Terminal .parensClose) (hbody : Renders table 0 body tokens) :
    RendersDefinition ⟨⟨name.val.value, []⟩, body⟩
      (keyword.val :: name.val :: opening.val :: closing.val :: tokens)
  | named {names : List Value} {body : Node} {header tokens : List Token}
      (keyword : Terminal .define) (name : Terminal .identifier) (opening : Terminal .parensOpen)
      (hnames : RendersParameters names header) (hbody : Renders table 0 body tokens) :
    RendersDefinition ⟨⟨name.val.value, names⟩, body⟩
      (keyword.val :: name.val :: opening.val :: (header ++ tokens))

end Renders

section Derivations

def Links.append : Links → Links → Links
  | .nil, more => more
  | .cons op operand rest, more => .cons op operand (rest.append more)

@[simp] theorem Links.tokens_append : (links more : Links) →
    (links.append more).tokens = links.tokens ++ more.tokens
  | .nil, _ => rfl
  | .cons op operand rest, more => by simp [append, Links.tokens, rest.tokens_append more]

@[simp] theorem Links.chain_append : (links more : Links) →
    (links.append more).chain table = links.chain table ++ more.chain table
  | .nil, _ => rfl
  | .cons op operand rest, more => by simp [append, chain, rest.chain_append more]

theorem Links.listed_append : (links more : Links) → links.Listed table → more.Listed table →
    (links.append more).Listed table
  | .nil, _, _, hmore => hmore
  | .cons _ _ rest, more, h, hmore => ⟨h.1, h.2.1, rest.listed_append more h.2.2 hmore⟩

-- A derivation of a tree that may stand where looser operators may not.
structure Writes (table : PrecedenceTable) (least : Int) (node : Node) (tokens : List Token)
    (first : Operand) (links : Links) : Prop where
  first_listed : first.Listed table
  links_listed : links.Listed table
  tokens_eq : first.tokens ++ links.tokens = tokens
  tree_eq : reference (first.tree table) (links.chain table) = node
  least_le : ∀ link ∈ links.chain table, least ≤ link.level

theorem Writes.operand {least : Int} (first : Operand) (hlisted : first.Listed table) :
    Writes table least (first.tree table) first.tokens first .nil where
  first_listed := hlisted
  links_listed := trivial
  tokens_eq := List.append_nil _
  tree_eq := reference_nil _
  least_le := by simp [Links.chain]

-- An operator is the root of what stands on its sides, if no looser one stands
-- to its left and only tighter ones to its right.
theorem Writes.binary {least level : Int} {symbol : String} {left right : Node}
    {tokens tokens' : List Token} {first first' : Operand} {links links' : Links}
    (op : Terminal .binaryOperator) (hop : op.val.value = .text symbol)
    (hlevel : table.level? (.text symbol) = some level) (hpos : 0 ≤ level) (hleast : least ≤ level)
    (hleft : Writes table level left tokens first links)
    (hright : Writes table (level + 1) right tokens' first' links') :
    Writes table least (.binary symbol left right) (tokens ++ op.val :: tokens') first
      (links.append (.cons op first' links')) := by
  have hroot : (Links.cons op first' links').chain table =
      ⟨symbol, level, first'.tree table⟩ :: links'.chain table := by
    simp [Links.chain, hop, hlevel, Value.plain]
  refine ⟨hleft.first_listed, ?_, ?_, ?_, ?_⟩
  · exact links.listed_append _ hleft.links_listed
      ⟨⟨level, hop ▸ hlevel, hpos⟩, hright.first_listed, hright.links_listed⟩
  · rw [Links.tokens_append, Links.tokens, hright.tokens_eq, ← List.append_assoc, hleft.tokens_eq]
  · rw [Links.chain_append, hroot]
    have hsplit := reference_append (first.tree table) (links.chain table)
      ⟨symbol, level, first'.tree table⟩ (links'.chain table) hleft.least_le
      fun link hlink => Int.lt_of_add_one_le (hright.least_le link hlink)
    rw [hsplit, hleft.tree_eq, hright.tree_eq]
  · intro link hlink
    rw [Links.chain_append, hroot] at hlink
    rcases List.mem_append.mp hlink with hmem | hmem
    · exact Int.le_trans hleast (hleft.least_le link hmem)
    · rcases List.mem_cons.mp hmem with rfl | hmem
      · exact hleast
      · have := hright.least_le link hmem
        omega

mutual

theorem Renders.exists_writes : {least : Int} → {node : Node} → {tokens : List Token} →
    Renders table least node tokens → 0 ≤ least →
    ∃ first links, Writes table least node tokens first links
  | _, _, _, .number token, _ =>
    ⟨_, .nil, .operand (.number token) trivial⟩
  | _, _, _, .name token, _ =>
    ⟨_, .nil, .operand (.name token) trivial⟩
  | _, _, _, .emptyCall callee opening closing, _ =>
    ⟨_, .nil, .operand (.emptyCall callee opening closing) trivial⟩
  | _, _, _, .call callee opening harguments, _ => by
    obtain ⟨arguments, hlisted, rfl, rfl⟩ := harguments.exists_arguments
    exact ⟨_, .nil, .operand (.call callee opening arguments) hlisted⟩
  | _, _, _, .binary op hop hlevel hle hleft hright, hleast => by
    have hpos := Int.le_trans hleast hle
    obtain ⟨first, links, hwrites⟩ := hleft.exists_writes hpos
    obtain ⟨first', links', hwrites'⟩ := hright.exists_writes (Int.le_add_one hpos)
    exact ⟨_, _, hwrites.binary op hop hlevel hpos hle hwrites'⟩
  | _, _, _, .parens opening hnode closing, _ => by
    obtain ⟨first, links, hfirst, hlinks, rfl, rfl, -⟩ := hnode.exists_writes (Int.le_refl 0)
    exact ⟨_, .nil, .operand (.parens opening (.chain first links) closing) ⟨hfirst, hlinks⟩⟩

theorem RendersArguments.exists_arguments : {nodes : List Node} → {tokens : List Token} →
    RendersArguments table nodes tokens →
    ∃ arguments : Arguments, arguments.Listed table ∧ arguments.tokens = tokens ∧
      arguments.trees table = nodes
  | _, _, .last hnode closing => by
    obtain ⟨first, links, hfirst, hlinks, rfl, rfl, -⟩ := hnode.exists_writes (Int.le_refl 0)
    exact ⟨.last (.chain first links) closing, ⟨hfirst, hlinks⟩, rfl, rfl⟩
  | _, _, .more hnode comma hrest => by
    obtain ⟨first, links, hfirst, hlinks, rfl, rfl, -⟩ := hnode.exists_writes (Int.le_refl 0)
    obtain ⟨rest, hlisted, rfl, rfl⟩ := hrest.exists_arguments
    exact ⟨.more (.chain first links) comma rest, ⟨⟨hfirst, hlinks⟩, hlisted⟩, rfl, rfl⟩

end

theorem RendersParameters.exists_parameters {names : List Value} {tokens : List Token}
    (h : RendersParameters names tokens) :
    ∃ parameters : Parameters, parameters.tokens = tokens ∧ parameters.names = names := by
  induction h with
  | last name closing => exact ⟨.last name closing, rfl, rfl⟩
  | more name comma _ ih =>
    obtain ⟨rest, rfl, rfl⟩ := ih
    exact ⟨.more name comma rest, rfl, rfl⟩

theorem RendersDefinition.exists_phrase {definition : Definition} {tokens : List Token}
    (h : RendersDefinition table definition tokens) :
    ∃ phrase : Phrase, phrase.Listed table ∧ phrase.tokens = tokens ∧
      phrase.meaning table = definition := by
  cases h with
  | anonymous hbody =>
    obtain ⟨first, links, hfirst, hlinks, rfl, rfl, -⟩ := hbody.exists_writes (Int.le_refl 0)
    exact ⟨.bare (.chain first links), ⟨hfirst, hlinks⟩, rfl, rfl⟩
  | constant keyword name opening closing hbody =>
    obtain ⟨first, links, hfirst, hlinks, rfl, rfl, -⟩ := hbody.exists_writes (Int.le_refl 0)
    have hclosing : closing.val.kind ≠ .identifier := by simp [closing.property]
    exact ⟨.definition keyword ⟨name, opening, .close ⟨closing.val, hclosing⟩⟩ (.chain first links),
      ⟨hfirst, hlinks⟩, rfl, rfl⟩
  | named keyword name opening hnames hbody =>
    obtain ⟨first, links, hfirst, hlinks, rfl, rfl, -⟩ := hbody.exists_writes (Int.le_refl 0)
    obtain ⟨parameters, rfl, rfl⟩ := hnames.exists_parameters
    exact ⟨.definition keyword ⟨name, opening, parameters⟩ (.chain first links), ⟨hfirst, hlinks⟩,
      rfl, rfl⟩

-- A program that is written part by part is derived phrase by phrase.
theorem exists_phrases_of_renders {definitions : List Definition} {parts : List (List Token)}
    (h : List.Forall₂ (RendersDefinition table) definitions parts) :
    ∃ phrases : List Phrase, (∀ phrase ∈ phrases, phrase.Listed table) ∧
      phrases.map Phrase.tokens = parts ∧ phrases.map (Phrase.meaning table) = definitions := by
  induction h with
  | nil => exact ⟨[], by simp, rfl, rfl⟩
  | cons hfirst _ ih =>
    obtain ⟨phrase, hlisted, rfl, rfl⟩ := hfirst.exists_phrase
    obtain ⟨phrases, hall, rfl, rfl⟩ := ih
    exact ⟨phrase :: phrases, List.forall_mem_cons.mpr ⟨hlisted, hall⟩, rfl, rfl⟩

end Derivations

-- Which trees can be written.
section Writable

variable (table)

mutual

-- It is made of numbers, names and calls, and of operators that are listed, none
-- at a negative level.
def Writable : Node → Prop
  | .number _ | .var _ => True
  | .binary op left right =>
    (∃ level, table.level? (.text op) = some level ∧ 0 ≤ level) ∧ Writable left ∧ Writable right
  | .call _ arguments => AllWritable arguments
  | .prototype _ | .function .. => False

def AllWritable : List Node → Prop
  | [] => True
  | node :: nodes => Writable node ∧ AllWritable nodes

end

variable {table}

private def terminal (kind : TokenKind) (value : Value) : Terminal kind :=
  ⟨⟨kind, "", value, none⟩, rfl⟩

private theorem exists_renders_call (callee : Value) {arguments : List Node} (least : Int)
    (h : arguments = [] ∨ ∃ tokens, RendersArguments table arguments tokens) :
    ∃ tokens, Renders table least (.call callee arguments) tokens := by
  rcases h with rfl | ⟨tokens, harguments⟩
  · exact ⟨_, .emptyCall (terminal .identifier callee) (terminal .parensOpen .absent)
      (terminal .parensClose .absent)⟩
  · exact ⟨_, .call (terminal .identifier callee) (terminal .parensOpen .absent) harguments⟩

mutual

theorem Writable.exists_renders : (node : Node) → Writable table node → (least : Int) →
    ∃ tokens, Renders table least node tokens
  | .number value, _, least => ⟨_, .number (terminal .number value)⟩
  | .var name, _, least => ⟨_, .name (terminal .identifier name)⟩
  | .binary op left right, ⟨⟨level, hlevel, hpos⟩, hleft, hright⟩, least => by
    obtain ⟨tokens, htokens⟩ := Writable.exists_renders left hleft level
    obtain ⟨tokens', htokens'⟩ := Writable.exists_renders right hright (level + 1)
    have hbinary : Renders table 0 (.binary op left right) _ :=
      .binary (terminal .binaryOperator (.text op)) rfl hlevel hpos htokens htokens'
    exact ⟨_, .parens (terminal .parensOpen .absent) hbinary (terminal .parensClose .absent)⟩
  | .call callee arguments, h, least =>
    exists_renders_call callee least (AllWritable.exists_renders arguments h)

theorem AllWritable.exists_renders : (nodes : List Node) → AllWritable table nodes →
    nodes = [] ∨ ∃ tokens, RendersArguments table nodes tokens
  | [], _ => .inl rfl
  | node :: nodes, ⟨hnode, hnodes⟩ => by
    obtain ⟨tokens, htokens⟩ := Writable.exists_renders node hnode 0
    right
    rcases AllWritable.exists_renders nodes hnodes with rfl | ⟨rest, hrest⟩
    · exact ⟨_, .last htokens (terminal .parensClose .absent)⟩
    · exact ⟨_, .more htokens (terminal .comma .absent) hrest⟩

end

end Writable

end ExprLang.Grammar
