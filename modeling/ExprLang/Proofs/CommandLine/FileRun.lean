import ExprLang.CommandLine.Run
import ExprLang.Proofs.Source.FileText
import ExprLang.Proofs.Source.Unreachable

-- The command for one file, with or without its tokens. It has an outcome for
-- every way of opening the file and for every text in it, but none for bytes that
-- are no text.

namespace ExprLang.CommandLine

section Quiet

variable {threshold : LogLevel} {records others : List LogRecord}

theorem logText_eq_empty (h : ∀ r ∈ records, r.level.severity < threshold.severity) :
    logText threshold records = "" := by
  have hfiltered : records.filter (fun r => threshold.severity ≤ r.level.severity) = [] := by
    refine List.filter_eq_nil_iff.mpr fun r hr => ?_
    have hlow := h r hr
    simp only [decide_eq_true_eq]
    omega
  rw [logText, hfiltered]
  rfl

-- The command logs what it does, and nothing to be warned of.
theorem severity_records (logger file : String) (tokens : List Token)
    (definitions : List Definition) :
    ∀ r ∈ lexerRecords file tokens ++ parserRecords definitions ++
        [summaryRecord logger file tokens definitions],
      r.level.severity < LogLevel.severity .warning := by
  intro r hr
  simp only [lexerRecords, parserRecords, summaryRecord, List.mem_append, List.mem_map,
    List.mem_singleton] at hr
  rcases hr with ((⟨rule, -, rfl⟩ | rfl) | ⟨definition, -, rfl⟩) | rfl <;>
    simp [LogLevel.severity]

-- What stands before the trees.
def shownTokens (showTokens : Bool) (tokens : List Token) : String :=
  if showTokens then tokenLine tokens else ""

-- No record is as severe as a warning, so both streams show the program alone.
theorem report_eq (showTokens : Bool) (logger file : String) (tokens : List Token) :
    report showTokens .warning logger file tokens =
      match parseTokens tokens .defaults with
      | .ok definitions => ⟨0, shownTokens showTokens tokens ++ treeText definitions, ""⟩
      | .error fault => ⟨1, shownTokens showTokens tokens, fault.report.diagnostic.text⟩ := by
  generalize hprogress : Parser.progress ⟨tokens.toArray, .defaults⟩ = progress
  have hlow := severity_records logger file tokens progress.definitions
  simp only [report, parseTokens, Parser.Progress.result, hprogress]
  cases progress.fault? with
  | some fault =>
    have hquiet := logText_eq_empty fun r hr => hlow r (List.mem_append_left _ hr)
    simp only [hquiet, String.empty_append]
    rfl
  | none =>
    rw [logText_eq_empty hlow]
    rfl

end Quiet

section Arguments

variable {path : String}

-- An argument that is a path, and not the one that stands for the input.
def NamesFile (path : String) : Prop := classify path = .ok (.plain path) ∧ path ≠ "-"

def fileArguments (path : String) (showTokens : Bool) : List String :=
  path :: if showTokens then ["--tokens"] else []

theorem NamesFile.ne_separator (h : NamesFile path) : path ≠ "--" := by
  rintro rfl
  exact absurd h.1 (by decide)

theorem classifyAll_fileArguments (h : NamesFile path) (showTokens : Bool) :
    classifyAll (fileArguments path showTokens) =
      .ok (.plain path :: if showTokens then [.flag .tokens .none] else []) := by
  have hflags : classifyAll (if showTokens then ["--tokens"] else []) =
      .ok (if showTokens then [.flag .tokens .none] else []) := by
    cases showTokens <;> rfl
  rw [fileArguments, classifyAll, h.1, hflags]
  · rfl
  · exact h.ne_separator

theorem ofArguments_fileArguments (h : NamesFile path) (showTokens : Bool) :
    Options.ofArguments (fileArguments path showTokens) =
      .ok ⟨some path, showTokens, some .warning⟩ := by
  rw [Options.ofArguments, classifyAll_fileArguments h]
  cases showTokens <;> rfl

theorem NamesFile.source_eq (h : NamesFile path) (env : Environment) :
    env.source (some path) = (env.openFile path).text.map (·, path) := by
  unfold Environment.source
  split
  · contradiction
  · rename_i heq
    exact absurd (Option.some.inj heq) h.2
  · rename_i heq
    obtain rfl := Option.some.inj heq
    cases (env.openFile path).text <;> rfl

end Arguments

section Outcomes

variable {env : Environment} {path : String}

theorem run_of_error {fault : ReadFault} (showTokens : Bool) (h : NamesFile path)
    (hread : (env.openFile path).text = .error fault) :
    run env (fileArguments path showTokens) =
      match fault with
      | .missing => .ok ⟨1, "", "File not found: " ++ path ++ "\n"⟩
      | .directory => .ok ⟨1, "", "Cannot read " ++ path ++ ": Is a directory\n"⟩
      | .refused reason => .ok ⟨1, "", "Cannot read " ++ path ++ ": " ++ reason ++ "\n"⟩
      | .notUtf8 => .error .notUtf8 := by
  simp only [run, ofArguments_fileArguments h, h.source_eq, hread, Except.map]
  cases fault <;> rfl

theorem run_of_text {text : String} (showTokens : Bool) (h : NamesFile path)
    (hread : (env.openFile path).text = .ok text) :
    ∃ tokens, tokenize text path = .ok tokens ∧
      run env (fileArguments path showTokens) =
        .ok (report showTokens .warning env.logger path tokens) := by
  obtain ⟨tokens, htokenize, -⟩ := ExprLang.exists_tokenize text path
  refine ⟨tokens, htokenize, ?_⟩
  simp only [run, ofArguments_fileArguments h, h.source_eq, hread, Except.map, htokenize]

-- Where the command fails, the file is no text.
theorem text_of_run_eq_error {crash : Crash} {showTokens : Bool} (h : NamesFile path)
    (hcrash : run env (fileArguments path showTokens) = .error crash) :
    crash = .notUtf8 ∧ (env.openFile path).text = .error .notUtf8 := by
  cases hread : (env.openFile path).text with
  | ok text =>
    obtain ⟨tokens, -, hrun⟩ := run_of_text showTokens h hread
    cases hcrash.symm.trans hrun
  | error fault =>
    have hrun := run_of_error showTokens h hread
    cases fault with
    | missing | directory | refused => cases hcrash.symm.trans hrun
    | notUtf8 => exact ⟨(Except.error.inj (hrun.symm.trans hcrash)).symm, rfl⟩

theorem text_eq_notUtf8_iff {opened : Opened} :
    opened.text = .error .notUtf8 ↔
      ∃ content, opened = .bytes content ∧ ∀ text : String, content ≠ text.toUTF8 := by
  cases opened with
  | missing | directory | refused => simp [Opened.text]
  | bytes content =>
    simp only [Opened.text, decodeText, Opened.bytes.injEq, exists_eq_left']
    by_cases hvalid : content.IsValidUTF8
    · have hread : String.fromUTF8? content = some ⟨content, hvalid⟩ := dif_pos hvalid
      simp only [hread, reduceCtorEq, false_iff, not_forall, not_not]
      exact ⟨⟨content, hvalid⟩, rfl⟩
    · have hread : String.fromUTF8? content = none := dif_neg hvalid
      simp only [hread, true_iff]
      rintro text rfl
      exact hvalid text.isValidUTF8

end Outcomes

-- Whatever file is asked for, the command ends with code 0 or 1: with the reason
-- if it cannot be opened, with the fault if it holds no program, and with the
-- trees otherwise. But a file of bytes that are no text stops it in its tracks,
-- and nothing else does, as long as the path is a name that the system can have.
theorem file_run_outcome (env : Environment) {path : String} (h : NamesFile path)
    (showTokens : Bool) :
    (env.openFile path = .missing → run env (fileArguments path showTokens) =
        .ok ⟨1, "", "File not found: " ++ path ++ "\n"⟩) ∧
      (env.openFile path = .directory → run env (fileArguments path showTokens) =
        .ok ⟨1, "", "Cannot read " ++ path ++ ": Is a directory\n"⟩) ∧
      (∀ reason, env.openFile path = .refused reason →
        run env (fileArguments path showTokens) =
          .ok ⟨1, "", "Cannot read " ++ path ++ ": " ++ reason ++ "\n"⟩) ∧
      (∀ text : String, env.openFile path = .bytes text.toUTF8 →
        ∃ tokens, tokenizeFile path (.bytes text.toUTF8) = .ok tokens ∧
          ((∃ fault, parseFile path (.bytes text.toUTF8) = .error (.syntaxFault fault) ∧
              run env (fileArguments path showTokens) =
                .ok ⟨1, shownTokens showTokens tokens, fault.report.diagnostic.text⟩) ∨
            ∃ definitions, parseFile path (.bytes text.toUTF8) = .ok definitions ∧
              run env (fileArguments path showTokens) =
                .ok ⟨0, shownTokens showTokens tokens ++ treeText definitions, ""⟩)) ∧
      ∀ crash, run env (fileArguments path showTokens) = .error crash ↔
        crash = .notUtf8 ∧
          ∃ content, env.openFile path = .bytes content ∧ ∀ text : String, content ≠ text.toUTF8 := by
  refine ⟨fun hopen => ?_, fun hopen => ?_, fun reason hopen => ?_, fun text hopen => ?_,
    fun crash => ⟨fun hcrash => ?_, ?_⟩⟩
  · have hread : (env.openFile path).text = .error .missing := congrArg Opened.text hopen
    exact run_of_error showTokens h hread
  · have hread : (env.openFile path).text = .error .directory := congrArg Opened.text hopen
    exact run_of_error showTokens h hread
  · have hread : (env.openFile path).text = .error (.refused reason) := congrArg Opened.text hopen
    exact run_of_error showTokens h hread
  · have hread : (env.openFile path).text = .ok (unified text) := by
      rw [hopen, Opened.text, decodeText, fromUTF8?_toUTF8]
      rfl
    obtain ⟨tokens, htokenize, hrun⟩ := run_of_text showTokens h hread
    refine ⟨tokens, ?_, ?_⟩
    · rw [tokenizeFile_bytes, tokenizeText, htokenize]
      rfl
    rw [hrun, report_eq, parseFile_bytes, parseText_eq htokenize]
    cases parseTokens tokens .defaults with
    | error fault => exact .inl ⟨fault, rfl, rfl⟩
    | ok definitions => exact .inr ⟨definitions, rfl, rfl⟩
  · obtain ⟨hnotUtf8, htext⟩ := text_of_run_eq_error h hcrash
    exact ⟨hnotUtf8, text_eq_notUtf8_iff.mp htext⟩
  · rintro ⟨rfl, hbytes⟩
    exact run_of_error showTokens h (text_eq_notUtf8_iff.mpr hbytes)

section Sample

private def folder : Environment where
  stdin := .empty
  openFile path :=
    if path = "p" then .bytes "def id(x) x".toUTF8
    else if path = "q" then .bytes "f(a".toUTF8
    else .missing
  logger := "command"

private def idTokens : List Token :=
  [⟨.define, "def", .absent, some ⟨"p", 1, 1, 0⟩⟩,
    ⟨.identifier, "id", .text "id", some ⟨"p", 1, 5, 4⟩⟩,
    ⟨.parensOpen, "(", .absent, some ⟨"p", 1, 7, 6⟩⟩,
    ⟨.identifier, "x", .text "x", some ⟨"p", 1, 8, 7⟩⟩,
    ⟨.parensClose, ")", .absent, some ⟨"p", 1, 9, 8⟩⟩,
    ⟨.identifier, "x", .text "x", some ⟨"p", 1, 11, 10⟩⟩]

private def openTokens : List Token :=
  [⟨.identifier, "f", .text "f", some ⟨"q", 1, 1, 0⟩⟩,
    ⟨.parensOpen, "(", .absent, some ⟨"q", 1, 2, 1⟩⟩,
    ⟨.identifier, "a", .text "a", some ⟨"q", 1, 3, 2⟩⟩]

private def openFault : SyntaxFault :=
  ⟨.expectedArgumentList, ⟨.endOfInput, "", .absent, some ⟨"q", 1, 4, 3⟩⟩⟩

-- A program, the start of one, and a file that is not there.
theorem file_run_outcome_folder :
    NamesFile "p" ∧
      run folder ["p"] = .ok ⟨0, "Function\n  Prototype id(x)\n  Variable x\n", ""⟩ ∧
      NamesFile "q" ∧
      run folder ["q", "--tokens"] =
        .ok ⟨1, tokenLine openTokens, openFault.report.diagnostic.text⟩ ∧
      NamesFile "r" ∧ run folder ["r"] = .ok ⟨1, "", "File not found: r\n"⟩ := by
  have hp : NamesFile "p" := ⟨rfl, by decide⟩
  have hq : NamesFile "q" := ⟨rfl, by decide⟩
  have hr : NamesFile "r" := ⟨rfl, by decide⟩
  have hpRead : folder.openFile "p" = .bytes "def id(x) x".toUTF8 := by simp [folder]
  have hqRead : folder.openFile "q" = .bytes "f(a".toUTF8 := by simp [folder]
  have htokenize : tokenize (unified "def id(x) x") "p" = .ok idTokens := rfl
  have hprogram : parseFile "p" (.bytes "def id(x) x".toUTF8) =
      .ok [⟨⟨.text "id", [.text "x"]⟩, .var (.text "x")⟩] := by
    rw [parseFile_bytes, parseText_eq htokenize]
    rfl
  have hopen : tokenizeFile "q" (.bytes "f(a".toUTF8) = .ok openTokens := by
    rw [tokenizeFile_bytes]
    rfl
  have hfault : parseFile "q" (.bytes "f(a".toUTF8) = .error (.syntaxFault openFault) := by
    rw [parseFile, hopen]
    rfl
  have htree : treeText [⟨⟨.text "id", [.text "x"]⟩, .var (.text "x")⟩] =
      "Function\n  Prototype id(x)\n  Variable x\n" := by decide
  refine ⟨hp, ?_, hq, ?_, hr, (file_run_outcome folder hr false).1 rfl⟩
  · obtain ⟨-, -, -, htext, -⟩ := file_run_outcome folder hp false
    obtain ⟨tokens, -, ⟨fault, hparse, -⟩ | ⟨definitions, hparse, hrun⟩⟩ := htext _ hpRead
    · cases hparse.symm.trans hprogram
    · obtain rfl := Except.ok.inj (hparse.symm.trans hprogram)
      rw [htree] at hrun
      exact hrun
  · obtain ⟨-, -, -, htext, -⟩ := file_run_outcome folder hq true
    obtain ⟨tokens, htokens, ⟨fault, hparse, hrun⟩ | ⟨definitions, hparse, -⟩⟩ := htext _ hqRead
    · obtain rfl := Except.ok.inj (htokens.symm.trans hopen)
      obtain rfl := Failure.syntaxFault.inj (Except.error.inj (hparse.symm.trans hfault))
      exact hrun
    · cases hparse.symm.trans hfault

private def spoiled : Environment := ⟨.empty, fun _ => .bytes ⟨#[0xff]⟩, "command"⟩

-- A file with one byte that begins no character.
theorem file_run_crashes_spoiled :
    NamesFile "p" ∧ spoiled.openFile "p" = .bytes ⟨#[0xff]⟩ ∧
      run spoiled ["p"] = .error .notUtf8 ∧ run spoiled ["p", "--tokens"] = .error .notUtf8 := by
  have hp : NamesFile "p" := ⟨rfl, by decide⟩
  have hread : (spoiled.openFile "p").text = .error .notUtf8 := by decide
  exact ⟨hp, rfl, run_of_error false hp hread,
    run_of_error true hp hread⟩

end Sample

end ExprLang.CommandLine
