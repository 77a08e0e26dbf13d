import ExprLang.Proofs.Lexer.RoundTrip
import ExprLang.Proofs.Parser.CursorKept
import ExprLang.Proofs.Parser.EarliestFault
import ExprLang.Proofs.Parser.Lockstep
import ExprLang.Proofs.Source.FaultPlace
import Mathlib.Data.List.Forall2

-- What is parsed, and what it is rejected for, hangs on the kinds and values of the
-- tokens. How they are spelled and where they stand is for the wording only.

namespace ExprLang

-- Tokens that say the same, however they are spelled and wherever they stand.
def Token.SaysSame (token token' : Token) : Prop :=
  token.kind = token'.kind ∧ token.value.same token'.value = true

-- What the parser gets from a token, if numbers are looked at through `seen`.
def Token.sense (seen : Double → Double) (token : Token) : TokenKind × Value :=
  (token.kind, token.value.mapNumber seen)

variable {seen : Double → Double} {tokens tokens' : List Token} {table : PrecedenceTable}
  {depth : Nat} {fault fault' : SyntaxFault}

theorem Token.sense_eq {token token' : Token} (h : token.SaysSame token') :
    token.sense Double.unsignedZero = token'.sense Double.unsignedZero :=
  Prod.ext h.1 (Value.same_iff.mp h.2)

theorem map_sense_eq (h : List.Forall₂ Token.SaysSame tokens tokens') :
    tokens.map (Token.sense Double.unsignedZero) =
      tokens'.map (Token.sense Double.unsignedZero) := by
  induction h with
  | nil => rfl
  | cons hfirst _ ih => rw [List.map_cons, List.map_cons, Token.sense_eq hfirst, ih]

-- The end of the input takes its place from the last token, and nothing else.
theorem view_tokenAt_eq {α : Type} {view : Token → α}
    (hend : ∀ location location', view ⟨.endOfInput, "", .absent, some location⟩ =
      view ⟨.endOfInput, "", .absent, some location'⟩)
    (h : tokens.map view = tokens'.map view) (table : PrecedenceTable) (cursor : Nat) :
    view (Parser.tokenAt ⟨tokens'.toArray, table⟩ cursor) =
      view (Parser.tokenAt ⟨tokens.toArray, table⟩ cursor) := by
  have hat : tokens[cursor]?.map view = tokens'[cursor]?.map view := by
    rw [← List.getElem?_map, ← List.getElem?_map, h]
  rw [Parser.tokenAt, Parser.tokenAt, List.getElem?_toArray, List.getElem?_toArray]
  cases htoken : tokens[cursor]? with
  | none =>
    rw [htoken, Option.map_none, eq_comm, Option.map_eq_none_iff] at hat
    rw [hat]
    exact hend _ _
  | some token =>
    rw [htoken, Option.map_some, eq_comm, Option.map_eq_some_iff] at hat
    obtain ⟨token', htoken', hview⟩ := hat
    rw [htoken']
    exact hview

theorem ahead_of_map_sense_eq (table : PrecedenceTable)
    (h : tokens.map (Token.sense seen) = tokens'.map (Token.sense seen)) :
    Parser.Ahead seen ⟨tokens.toArray, table⟩ ⟨tokens'.toArray, table⟩ 0 := by
  have hsense := view_tokenAt_eq (fun _ _ => rfl) h table
  have hlength : tokens'.length = tokens.length := by
    simpa only [List.length_map] using (congrArg List.length h).symm
  exact ⟨hlength, .refl table, fun cursor => congrArg Prod.fst (hsense cursor),
    fun cursor => congrArg Prod.snd (hsense cursor)⟩

theorem Cause.taken_mapNumber (cause : Cause) : (cause.mapNumber seen).taken = cause.taken := by
  cases cause <;> rfl

-- The same complaint about the tokens at one place.
structure SameComplaint (depth : Nat) (table : PrecedenceTable) (tokens tokens' : List Token)
    (fault fault' : SyntaxFault) : Prop where
  kind : fault'.report.kind = fault.report.kind
  code : fault'.report.diagnostic.code? = fault.report.diagnostic.code?
  detail : fault.report.detail.same fault'.report.detail = true
  place : faultPlace depth tokens' table fault' = faultPlace depth tokens table fault
  token : fault.token =
    Parser.tokenAt ⟨tokens.toArray, table⟩ (faultPlace depth tokens table fault)
  token' : fault'.token =
    Parser.tokenAt ⟨tokens'.toArray, table⟩ (faultPlace depth tokens' table fault')

-- The token of a fault is the one at the place that is told for it, also where the
-- nesting is too deep.
theorem Parser.token_eq_of_limited {p : Parser} (h : (p.limited depth).fault? = some fault) :
    fault.token = p.tokenAt ((p.limited depth).place fault p.tokens.size) := by
  have hkeeps : p.Halts 0 (p.tokens.size + 1) fault (p.limited depth).cursor := by
    have hunits := keeps_units (p := p) depth p.tokens.size (Nat.zero_le _) (Nat.le_refl _)
    rwa [show (p.units depth p.tokens.size 0).fault? = some fault from h] at hunits
  rw [hkeeps.token_eq, Progress.place]
  by_cases hle : (p.limited depth).cursor - fault.cause.taken ≤ p.tokens.size
  · rw [Nat.min_eq_left hle]
  · rw [Nat.min_eq_right (by omega), p.tokenAt_of_size_le (Nat.le_refl _),
      p.tokenAt_of_size_le (by omega)]

theorem token_eq_of_parseWithin (h : parseWithin depth tokens table = .error fault) :
    fault.token =
      Parser.tokenAt ⟨tokens.toArray, table⟩ (faultPlace depth tokens table fault) :=
  Parser.token_eq_of_limited (Parser.Progress.result_eq_error_iff.mp h)

-- Both come to results that are alike, or both to faults that are.
inductive EndsAlike {ε α : Type} (results : α → α → Prop) (faults : ε → ε → Prop) :
    Except ε α → Except ε α → Prop where
  | ok {a a' : α} (h : results a a') : EndsAlike results faults (.ok a) (.ok a')
  | error {e e' : ε} (h : faults e e') : EndsAlike results faults (.error e) (.error e')

theorem EndsAlike.imp {ε α : Type} {results results' : α → α → Prop} {faults faults' : ε → ε → Prop}
    {first second : Except ε α} (h : EndsAlike results faults first second)
    (hresults : ∀ a a', first = .ok a → second = .ok a' → results a a' → results' a a')
    (hfaults : ∀ e e', first = .error e → second = .error e' → faults e e' → faults' e e') :
    EndsAlike results' faults' first second := by
  cases h with
  | ok h => exact .ok (hresults _ _ rfl rfl h)
  | error h => exact .error (hfaults _ _ rfl rfl h)

theorem EndsAlike.mapError {ε δ α : Type} {results : α → α → Prop} {faults : δ → δ → Prop}
    {change : ε → δ} {first second : Except ε α}
    (h : EndsAlike results (fun e e' => faults (change e) (change e')) first second) :
    EndsAlike results faults (first.mapError change) (second.mapError change) := by
  cases h with
  | ok h => exact .ok h
  | error h => exact .error h

section Ends

variable {ε α : Type} {results : α → α → Prop} {faults : ε → ε → Prop} {first second : Except ε α}

theorem EndsAlike.exists_ok (h : EndsAlike results faults first second) {a : α}
    (hfirst : first = .ok a) : ∃ a', second = .ok a' ∧ results a a' := by
  cases h with
  | ok h => exact ⟨_, rfl, Except.ok.inj hfirst ▸ h⟩
  | error h => cases hfirst

theorem EndsAlike.exists_error (h : EndsAlike results faults first second) {e : ε}
    (hfirst : first = .error e) : ∃ e', second = .error e' ∧ faults e e' := by
  cases h with
  | ok h => cases hfirst
  | error h => exact ⟨_, rfl, Except.error.inj hfirst ▸ h⟩

end Ends

-- Tokens that look the same make trees that look the same, or the same fault.
theorem parseWithin_of_map_sense_eq (table : PrecedenceTable) (depth : Nat)
    (h : tokens.map (Token.sense seen) = tokens'.map (Token.sense seen)) :
    EndsAlike
      (fun definitions definitions' =>
        definitions.map (Definition.mapNumbers seen) =
          definitions'.map (Definition.mapNumbers seen))
      (fun fault fault' => fault'.cause.mapNumber seen = fault.cause.mapNumber seen ∧
        faultPlace depth tokens' table fault' = faultPlace depth tokens table fault)
      (parseWithin depth tokens table) (parseWithin depth tokens' table) := by
  have hahead := ahead_of_map_sense_eq table h
  obtain ⟨hdefinitions, hcursor, hfault⟩ :=
    Parser.lockstep_units hahead depth tokens.length 0
  have hlength : tokens'.length = tokens.length := hahead.size
  simp only [parseWithin, faultPlace, Parser.limited, Parser.Progress.result, Parser.Progress.place,
    List.size_toArray, hlength]
  rw [Nat.add_zero] at hdefinitions hcursor hfault
  rw [hcursor]
  revert hfault
  generalize (Parser.units ⟨tokens.toArray, table⟩ depth tokens.length 0).fault? = fault?
  generalize (Parser.units ⟨tokens'.toArray, table⟩ depth tokens.length 0).fault? = fault'?
  intro hfault
  cases hfault with
  | none => exact .ok hdefinitions.symm
  | @some fault fault' hsame =>
    refine .error ⟨hsame.1, ?_⟩
    rw [← fault'.cause.taken_mapNumber, hsame.1, fault.cause.taken_mapNumber, Nat.add_zero]

theorem SyntaxFault.report_eq_of_mapNumber
    (h : fault'.cause.mapNumber seen = fault.cause.mapNumber seen) :
    fault'.report.kind = fault.report.kind ∧
      fault'.report.diagnostic.code? = fault.report.diagnostic.code? ∧
      fault'.report.detail.mapNumber seen = fault.report.detail.mapNumber seen := by
  have hkind := congrArg Cause.kind h
  have hcode := congrArg Cause.code h
  have hdetail := congrArg Cause.detail h
  rw [Cause.kind_mapNumber, Cause.kind_mapNumber] at hkind
  rw [Cause.code_mapNumber, Cause.code_mapNumber] at hcode
  rw [Cause.detail_mapNumber, Cause.detail_mapNumber] at hdetail
  exact ⟨hkind, congrArg some hcode, hdetail⟩

-- Numbers that are the same make trees that are the same, and the same complaint.
theorem parseWithin_of_saysSame (table : PrecedenceTable) (depth : Nat)
    (h : List.Forall₂ Token.SaysSame tokens tokens') :
    EndsAlike
      (fun definitions definitions' => Node.sameAll (definitions.map Definition.node)
        (definitions'.map Definition.node) = true)
      (SameComplaint depth table tokens tokens')
      (parseWithin depth tokens table) (parseWithin depth tokens' table) := by
  refine (parseWithin_of_map_sense_eq table depth (map_sense_eq h)).imp ?_ ?_
  · intro definitions definitions' _ _ heq
    exact Definition.sameAll_node_iff.mpr heq
  · rintro fault fault' hfirst hsecond ⟨hcause, hplace⟩
    obtain ⟨hkind, hcode, hdetail⟩ := SyntaxFault.report_eq_of_mapNumber hcause
    exact ⟨hkind, hcode, Value.same_iff.mpr hdetail.symm, hplace, token_eq_of_parseWithin hfirst,
      token_eq_of_parseWithin hsecond⟩

-- Values that are equal in all respects make trees and causes that are so.
theorem parseWithin_of_values_eq (table : PrecedenceTable) (depth : Nat)
    (hkinds : tokens.map (·.kind) = tokens'.map (·.kind))
    (hvalues : tokens.map (·.value) = tokens'.map (·.value)) :
    EndsAlike (· = ·)
      (fun fault fault' => fault.cause = fault'.cause ∧
        faultPlace depth tokens' table fault' = faultPlace depth tokens table fault)
      (parseWithin depth tokens table) (parseWithin depth tokens' table) := by
  have hsense : tokens.map (Token.sense id) = tokens'.map (Token.sense id) := by
    have hzip : ∀ all : List Token,
        all.map (Token.sense id) = (all.map (·.kind)).zip (all.map (·.value)) := by
      intro all
      rw [List.zip_map', List.map_congr_left]
      exact fun token _ => Prod.ext rfl token.value.mapNumber_id
    rw [hzip, hzip, hkinds, hvalues]
  refine (parseWithin_of_map_sense_eq table depth hsense).imp ?_ ?_
  · intro definitions definitions' _ _ heq
    simpa only [show Definition.mapNumbers id = id from funext Definition.mapNumbers_id,
      List.map_id] using heq
  · rintro fault fault' - - ⟨hcause, hplace⟩
    rw [Cause.mapNumber_id, Cause.mapNumber_id] at hcause
    exact ⟨hcause.symm, hplace⟩

theorem Cause.message_withLocation (cause : Cause) (token : Token) (location? : Option Location) :
    cause.message (token.withLocation location?) = cause.message token := by
  cases cause <;> rfl

-- Tokens that differ in their places only say the same, word by word.
theorem parseWithin_of_map_withLocation_eq (table : PrecedenceTable) (depth : Nat)
    (h : tokens'.map (·.withLocation none) = tokens.map (·.withLocation none)) :
    EndsAlike (· = ·)
      (fun fault fault' => fault.cause = fault'.cause ∧
        SameComplaint depth table tokens tokens' fault fault' ∧
        fault'.report.diagnostic.message = fault.report.diagnostic.message)
      (parseWithin depth tokens table) (parseWithin depth tokens' table) := by
  have hmap : ∀ {α : Type} (view : Token → α),
      (∀ token, view (token.withLocation none) = view token) →
        tokens.map view = tokens'.map view := by
    intro α view hview
    have hview : view ∘ (·.withLocation none) = view := funext hview
    rw [← hview, ← List.map_map, ← List.map_map, h]
  refine (parseWithin_of_values_eq table depth (hmap _ fun _ => rfl) (hmap _ fun _ => rfl)).imp
    (fun _ _ _ _ heq => heq) ?_
  rintro fault fault' hfirst hsecond ⟨hcause, hplace⟩
  have htoken := token_eq_of_parseWithin hfirst
  have htoken' := token_eq_of_parseWithin hsecond
  have hbare : fault'.token.withLocation none = fault.token.withLocation none := by
    rw [htoken', htoken, hplace]
    exact view_tokenAt_eq (fun _ _ => rfl) h.symm table _
  refine ⟨hcause, ⟨?_, ?_, ?_, hplace, htoken, htoken'⟩, ?_⟩
  · exact congrArg Cause.kind hcause.symm
  · exact congrArg (some ∘ Cause.code) hcause.symm
  · rw [SyntaxFault.report, SyntaxFault.report, hcause]
    exact Value.same_refl _
  · change fault'.cause.message fault'.token = fault.cause.message fault.token
    rw [← Cause.message_withLocation _ fault'.token none, hbare, Cause.message_withLocation, hcause]

-- Tokens that agree in kind and value are parsed to the same trees, or rejected for
-- the same reason at the same token, at any limit on the depth. So a program comes to
-- the same if it is laid out anew.
theorem parse_alike_of_saysSame :
    (∀ (tokens tokens' : List Token) (table : PrecedenceTable) (depth : Nat),
      List.Forall₂ Token.SaysSame tokens tokens' →
      EndsAlike
        (fun definitions definitions' => Node.sameAll (definitions.map Definition.node)
          (definitions'.map Definition.node) = true)
        (SameComplaint depth table tokens tokens')
        (parseWithin depth tokens table) (parseWithin depth tokens' table) ∧
      (tokens.map (·.value) = tokens'.map (·.value) →
        EndsAlike (· = ·) (fun fault fault' => fault.cause = fault'.cause)
          (parseWithin depth tokens table) (parseWithin depth tokens' table))) ∧
    ∀ source file file' : String, ∃ tokens again, tokenize source file = .ok tokens ∧
      tokenize (untokenize tokens) file' = .ok again ∧
      EndsAlike (· = ·)
        (fun failure failure' => ∃ fault fault', failure = .syntaxFault fault ∧
          failure' = .syntaxFault fault' ∧ fault.cause = fault'.cause ∧
          SameComplaint Parser.depthLimit .defaults tokens again fault fault' ∧
          fault'.report.diagnostic.message = fault.report.diagnostic.message)
        (parseText source file) (parseText (untokenize tokens) file') := by
  refine ⟨fun tokens tokens' table depth h => ⟨parseWithin_of_saysSame table depth h, ?_⟩, ?_⟩
  · intro hvalues
    have hkinds := congrArg (List.map Prod.fst) (map_sense_eq h)
    rw [List.map_map, List.map_map] at hkinds
    exact (parseWithin_of_values_eq table depth hkinds hvalues).imp (fun _ _ _ _ heq => heq)
      fun _ _ _ _ h => h.1
  · intro source file file'
    obtain ⟨tokens, again, htokenize, hagain, hbare⟩ := exists_tokenize_again source file file'
    refine ⟨tokens, again, htokenize, hagain, ?_⟩
    rw [parseText_eq htokenize, parseText_eq hagain, ← parseWithin_depthLimit,
      ← parseWithin_depthLimit]
    refine .mapError ((parseWithin_of_map_withLocation_eq .defaults Parser.depthLimit hbare).imp
      (fun _ _ _ _ heq => heq) fun fault fault' _ _ hfault => ?_)
    exact ⟨fault, fault', rfl, rfl, hfault⟩

section Wording

open Grammar Sample

-- A sum with a zero in it, and the same in other words and with the other zero.
private def plainSum : List Token := [numeral, sign "+", word]

private def wordedSum : List Token :=
  [⟨.number, "nought", .number (.ofRank true 0), some ⟨"far", 7, 3, 90⟩⟩,
    ⟨.binaryOperator, "plus", .text "+", none⟩,
    ⟨.identifier, "(", .text "f", some ⟨"near", 1, 1, 0⟩⟩]

private theorem plainSum_saysSame_wordedSum : List.Forall₂ Token.SaysSame plainSum wordedSum :=
  .cons ⟨rfl, rfl⟩ (.cons ⟨rfl, rfl⟩ (.cons ⟨rfl, rfl⟩ .nil))

private def sumTree : Definition :=
  .anonymous (.binary "+" (.number numeral.value) (.var word.value))

-- The sum is parsed, lacks a term when its last token is left out, and is too deep for
-- a limit of one.
theorem parse_alike_of_saysSame_worded :
    List.Forall₂ Token.SaysSame plainSum wordedSum ∧
      (∃ definitions, parseWithin 9 wordedSum .defaults = .ok definitions ∧
        Node.sameAll [sumTree.node] (definitions.map Definition.node) = true) ∧
      (∃ fault, parseWithin 9 (wordedSum.take 2) .defaults = .error fault ∧
        SameComplaint 9 .defaults (plainSum.take 2) (wordedSum.take 2)
          ⟨.expectedExpression, Parser.endToken ⟨(plainSum.take 2).toArray, .defaults⟩⟩ fault) ∧
      ∃ fault, parseWithin 1 wordedSum .defaults = .error fault ∧
        SameComplaint 1 .defaults plainSum wordedSum ⟨.nestingTooDeep, numeral⟩ fault := by
  have hall := parse_alike_of_saysSame.1
  have htake := List.forall₂_take 2 plainSum_saysSame_wordedSum
  refine ⟨plainSum_saysSame_wordedSum, ?_, ?_, ?_⟩
  · exact (hall plainSum wordedSum .defaults 9 plainSum_saysSame_wordedSum).1.exists_ok rfl
  · exact (hall (plainSum.take 2) (wordedSum.take 2) .defaults 9 htake).1.exists_error rfl
  · exact (hall plainSum wordedSum .defaults 1 plainSum_saysSame_wordedSum).1.exists_error rfl

end Wording

end ExprLang
