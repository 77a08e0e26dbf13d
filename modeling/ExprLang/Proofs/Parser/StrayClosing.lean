import ExprLang.Proofs.Grammar.Fusion
import ExprLang.Proofs.Grammar.Reached
import ExprLang.Proofs.Parser.Language

-- Prototypes that no parenthesis closes. Whatever stands where a parameter may
-- begin and is no name is taken for the end of the list, and leaves no trace.

namespace ExprLang

namespace Grammar

variable {table : PrecedenceTable}

-- One name at least, with a comma between two of them.
def Enumeration : List Token → Prop
  | [] => False
  | [name] => name.kind = .identifier
  | name :: comma :: rest =>
    name.kind = .identifier ∧ comma.kind = .comma ∧ Enumeration rest

-- A name and, in parentheses, an enumeration of names or nothing.
def ProperlyClosed (tokens : List Token) : Prop :=
  ∃ (name : Terminal .identifier) (opening : Terminal .parensOpen) (between : List Token)
    (closing : Terminal .parensClose),
    tokens = name.val :: opening.val :: (between ++ [closing.val]) ∧
      (between = [] ∨ Enumeration between)

-- What closes the list stands where a parameter may begin, and is no
-- parenthesis or comes behind a comma.
structure Header.Stray (header : Header) (names : Names)
    (stray : { token : Token // token.kind ≠ .identifier }) : Prop where
  parameters : header.parameters = names.close (.close stray)
  improper : stray.val.kind = .parensClose → names ≠ []

-- The same prototype with another token behind these names.
def Header.closedBy (header : Header) (names : Names)
    (other : { token : Token // token.kind ≠ .identifier }) : Header :=
  { header with parameters := names.close (.close other) }

-- The token that closes a prototype is no part of what it says.
theorem Names.names_close_close (names : Names)
    (closing : { token : Token // token.kind ≠ .identifier }) :
    (names.close (.close closing)).names = names.map fun name => name.1.val.value := by
  induction names with
  | nil => rfl
  | cons name names ih => exact congrArg (name.1.val.value :: ·) ih

theorem Header.Stray.prototype_closedBy {header : Header} {names : Names}
    {stray : { token : Token // token.kind ≠ .identifier }} (h : header.Stray names stray)
    (other : { token : Token // token.kind ≠ .identifier }) :
    (header.closedBy names other).prototype = header.prototype := by
  simp only [Header.prototype, closedBy, h.parameters, Names.names_close_close]

theorem Parameters.exists_names (parameters : Parameters) :
    (∃ names : Names, ∃ last closing, parameters = names.close (.last last closing)) ∨
      ∃ names : Names, ∃ closing, parameters = names.close (.close closing) := by
  induction parameters with
  | last name closing => exact .inl ⟨[], name, closing, rfl⟩
  | close closing => exact .inr ⟨[], closing, rfl⟩
  | more name comma rest ih =>
    rcases ih with ⟨names, last, closing, rfl⟩ | ⟨names, closing, rfl⟩
    · exact .inl ⟨(name, comma) :: names, last, closing, rfl⟩
    · exact .inr ⟨(name, comma) :: names, closing, rfl⟩

theorem Names.enumeration (names : Names) (last : Terminal .identifier) :
    Enumeration (names.tokens ++ [last.val]) := by
  induction names with
  | nil => exact last.property
  | cons name names ih => exact ⟨name.1.property, name.2.property, ih⟩

-- Behind names that each have a comma there is no enumeration.
theorem Names.not_enumeration (names : Names) : ¬ Enumeration names.tokens := by
  induction names with
  | nil => exact id
  | cons name names ih => exact fun h => ih h.2.2

theorem Names.tokens_eq_nil {names : Names} : names.tokens = [] ↔ names = [] := by
  cases names <;> simp [Names.tokens]

-- A prototype is closed properly unless a stray token closes it.
theorem Header.properlyClosed_iff (header : Header) :
    ProperlyClosed header.tokens ↔ ¬ ∃ names stray, header.Stray names stray := by
  obtain ⟨name, opening, parameters⟩ := header
  constructor
  · rintro ⟨name', opening', between, closing, htokens, hbetween⟩ ⟨names, stray, rfl, himproper⟩
    have hsplit : names.tokens ++ [stray.val] = between ++ [closing.val] := by
      have h := List.tail_eq_of_cons_eq (List.tail_eq_of_cons_eq htokens)
      rwa [Names.tokens_close] at h
    obtain ⟨hnames, hstray⟩ := List.append_inj' hsplit rfl
    have hclosing : stray.val = closing.val := List.head_eq_of_cons_eq hstray
    have hne := himproper (hclosing ▸ closing.property)
    rcases hbetween with hnil | henumeration
    · exact hne (Names.tokens_eq_nil.mp (hnames.trans hnil))
    · exact names.not_enumeration (hnames ▸ henumeration)
  · intro hstray
    rcases parameters.exists_names with ⟨names, last, closing, rfl⟩ | ⟨names, closing, rfl⟩
    · refine ⟨name, opening, names.tokens ++ [last.val], closing, ?_, .inr (names.enumeration last)⟩
      simp [Header.tokens, Names.tokens_close, Parameters.tokens]
    · have hclose : closing.val.kind = .parensClose ∧ names = [] := by
        by_contra hnot
        exact hstray ⟨names, closing, rfl, fun hkind hnil => hnot ⟨hkind, hnil⟩⟩
      obtain ⟨hkind, rfl⟩ := hclose
      exact ⟨name, opening, [], ⟨closing.val, hkind⟩, rfl, .inl rfl⟩

end Grammar

open Grammar

variable {tokens : List Token} {table : PrecedenceTable} {definitions : List Definition}

-- Another token in the place of a stray one makes no difference.
theorem parseTokens_replace_stray {before after : List Phrase} {keyword : Terminal .define}
    {header : Header} {body : Expression} {names : Names}
    {stray other : { token : Token // token.kind ≠ .identifier }}
    (hlisted : ∀ phrase ∈ before ++ .definition keyword header body :: after, phrase.Listed table)
    (hgreedy : Greedy (before ++ .definition keyword header body :: after))
    (hstray : header.Stray names stray)
    (htokens : (before ++ .definition keyword (header.closedBy names other) body :: after).flatMap
      Phrase.tokens = tokens)
    (hdeep : Shallow tokens table) :
    parseTokens tokens table =
      .ok ((before ++ .definition keyword header body :: after).map (Phrase.meaning table)) := by
  let phrase : Phrase := .definition keyword header body
  let phrase' : Phrase := .definition keyword (header.closedBy names other) body
  have hhead : phrase'.tokens.head? = phrase.tokens.head? := rfl
  have hends : phrase'.body.endsInName = phrase.body.endsInName := rfl
  have hlisted' : ∀ phrase ∈ before ++ phrase' :: after, phrase.Listed table := by
    simp only [List.forall_mem_append, List.forall_mem_cons] at hlisted ⊢
    exact hlisted
  have hmeaning : phrase'.meaning table = phrase.meaning table := by
    simp only [phrase, phrase', Phrase.meaning, hstray.prototype_closedBy]
  rw [parseTokens_of_derives ⟨hlisted', htokens⟩ (greedy_replace hhead hends hgreedy hgreedy.of_append)
    hdeep]
  simp only [List.map_append, List.map_cons, hmeaning, phrase]

-- In what parses each prototype is closed properly, or else a stray token closes
-- it, and any other that is no name would do as well.
theorem closing_of_parseTokens (h : parseTokens tokens table = .ok definitions) :
    ∃ phrases, Derives table phrases tokens ∧ Greedy phrases ∧
      definitions = phrases.map (Phrase.meaning table) ∧
      ∀ before keyword header body after,
        phrases = before ++ .definition keyword header body :: after →
          (ProperlyClosed header.tokens ↔ ¬ ∃ names stray, header.Stray names stray) ∧
          ∀ names stray, header.Stray names stray → ∀ other tokens',
            (before ++ .definition keyword (header.closedBy names other) body :: after).flatMap
                Phrase.tokens = tokens' →
              Shallow tokens' table → parseTokens tokens' table = .ok definitions := by
  obtain ⟨phrases, hderives, hgreedy, rfl⟩ := exists_derives_of_parseTokens h
  refine ⟨phrases, hderives, hgreedy, rfl, ?_⟩
  rintro before keyword header body after rfl
  refine ⟨header.properlyClosed_iff, fun names stray hstray other tokens' htokens hdeep => ?_⟩
  exact parseTokens_replace_stray hderives.1 hgreedy hstray htokens hdeep

section Swallowed

open Sample

-- A sign where the list of parameters is to be closed.
private def swallowed : List Token :=
  [⟨.define, "def", .absent, none⟩, word, opening, sign "*", numeral]

private theorem parse_swallowed :
    parseTokens swallowed .defaults = .ok [⟨⟨word.value, []⟩, .number numeral.value⟩] := rfl

private def swallowedHeader : Header :=
  ⟨⟨word, rfl⟩, ⟨opening, rfl⟩, .close ⟨sign "*", by decide⟩⟩

private def swallowedPhrase : Phrase :=
  .definition ⟨⟨.define, "def", .absent, none⟩, rfl⟩ swallowedHeader
    (.chain (.number ⟨numeral, rfl⟩) .nil)

private theorem derives_swallowed : Derives .defaults [swallowedPhrase] swallowed :=
  ⟨by simp [swallowedPhrase, Phrase.Listed, Expression.Listed, Operand.Listed, Links.Listed], rfl⟩

private theorem greedy_swallowed : Greedy [swallowedPhrase] := List.isChain_singleton _

private theorem stray_swallowed : swallowedHeader.Stray [] ⟨sign "*", by decide⟩ :=
  ⟨rfl, fun hkind => absurd hkind (by decide)⟩

-- So prototypes parse that are not closed properly.
theorem parses_with_stray_closing :
    ¬ ∀ (tokens : List Token) (table : PrecedenceTable) (definitions : List Definition),
      parseTokens tokens table = .ok definitions → ∀ phrases, Derives table phrases tokens →
        Greedy phrases → ∀ keyword header body, .definition keyword header body ∈ phrases →
          ProperlyClosed header.tokens := by
  intro hclosed
  have hproper := hclosed swallowed .defaults _ parse_swallowed _ derives_swallowed
    greedy_swallowed _ swallowedHeader _ (List.mem_singleton_self _)
  exact swallowedHeader.properlyClosed_iff.mp hproper ⟨[], _, stray_swallowed⟩

-- A comma does as well as the sign.
theorem closing_of_parseTokens_swallowed :
    parseTokens [⟨.define, "def", .absent, none⟩, word, opening, ⟨.comma, ",", .absent, none⟩,
      numeral] .defaults = .ok [⟨⟨word.value, []⟩, .number numeral.value⟩] := by
  obtain ⟨phrases, hderives, hgreedy, -, hclosing⟩ := closing_of_parseTokens parse_swallowed
  obtain rfl : phrases = [swallowedPhrase] :=
    greedy_unique hgreedy greedy_swallowed (hderives.2.trans derives_swallowed.2.symm)
  refine (hclosing [] _ swallowedHeader _ [] rfl).2 [] _ stray_swallowed
    ⟨⟨.comma, ",", .absent, none⟩, by decide⟩ _ rfl fun fault hfault => ?_
  cases (show parseTokens _ _ = .ok _ from rfl).symm.trans hfault

end Swallowed

end ExprLang
