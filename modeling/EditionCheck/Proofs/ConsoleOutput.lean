import EditionCheck.Proofs.BrokenPaths

/-!
# The output of a run

What a whole run leaves in two streams that take everything, whatever its files, its patterns and its log
are.

* `json_output_of_check` — in JSON format, one line for the report of a run that gets to its end, and
  nothing for a run that stops; the beginning of a line where a path in the report is no text;
* `text_output_of_check` — in text format without colour, one line per file, and then the message of
  success or the summary of failures; the lines of the files alone if the run stops early.
-/

set_option autoImplicit false

namespace EditionCheck

open EditionCheck.Files EditionCheck.Json EditionCheck.Log EditionCheck.Report EditionCheck.Text

/-! ## Both formats -/

section

variable (files : Access Id) (grammar : Grammar)

/-- Those of some files that pass. -/
def Files.Access.passing (paths : List (List UInt8)) : List (List UInt8) :=
  paths.filter fun path => (files.verdictOf grammar path).isPass

/-- Those of some files that do not pass. -/
def Files.Access.failing (paths : List (List UInt8)) : List (List UInt8) :=
  paths.filter fun path => !(files.verdictOf grammar path).isPass

end

theorem failures_fullReport (files : Access Id) (request : CheckRequest) :
    (fullReport files request).failures
      = (files.failing (.ofToken request.token)
          (request.patterns.flatMap files.selected)).map .ofBytes :=
  rfl

/-- A run that can read everything gets to its end, and tells of all files and of the end. -/
theorem told_of_readable {files : Access Id} {request : CheckRequest}
    (hread : ¬Unreadable files request) :
    (runCourse files request).outcome = .ok (fullReport files request)
      ∧ (runCourse files request).notices
        = verdictNotices files (.ofToken request.token) (request.patterns.flatMap files.selected)
          ++ [.finished (fullReport files request)] := by
  rcases told_of_runCourse files request with ⟨-, hok, htold⟩ | ⟨e, checked, -, herror, -⟩
  · exact ⟨hok, htold⟩
  · rcases outcome_runCourse files request with ⟨hun, -⟩ | ⟨-, hok⟩
    · exact absurd hun hread
    · rw [hok] at herror
      cases herror

/-! ## JSON -/

/-- In JSON format, files are not reported one by one. -/
theorem pieces_verdictNotices_json (style : Style) (h : style.options.format = .json)
    (files : Access Id) (grammar : Grammar) (paths : List (List UInt8)) :
    style.pieces (verdictNotices files grammar paths) = [] := by
  apply List.flatMap_eq_nil_iff.2
  intro n hn
  obtain ⟨path, -, rfl⟩ := List.mem_map.1 hn
  have hnot : ∀ report, verdictNotice grammar path (files.verdictOf grammar path) ≠ .finished report := by
    intro report
    unfold verdictNotice
    split <;> simp
  rw [Style.printed_json_of_not_finished h hnot]

/-- The fault of a report in JSON that cannot be written as a whole. -/
def notTextFault : Fault := .other "path contains invalid UTF-8 characters"

/-- The end of a run has a fault just in JSON format and where a path is no text. -/
theorem fault_finished (style : Style) (grammar : Grammar) (checked : Nat) (paths : List (List UInt8)) :
    let fault := (style.printed (.finished ⟨grammar, checked, paths.map .ofBytes⟩)).fault
    let broken := style.options.format = .json ∧ ∃ path ∈ paths, ¬IsText path
    fault = some notTextFault ∧ broken ∨ fault = none ∧ ¬broken := by
  intro fault broken
  have hcomplete : (Report.json ⟨grammar, checked, paths.map .ofBytes⟩).complete = true
      ↔ ¬∃ path ∈ paths, ¬IsText path := by
    rw [json_complete, List.all_map, List.all_eq_true]
    simp only [not_exists, not_and, Classical.not_not, Function.comp_apply, isSome_text?_ofBytes]
  cases hformat : style.options.format with
  | text =>
    refine .inr ⟨by simp [fault, Style.printed, hformat], ?_⟩
    rintro ⟨hjson, -⟩
    rw [hformat] at hjson
    cases hjson
  | json =>
    have hfault : fault = (Style.jsonSummary ⟨grammar, checked, paths.map .ofBytes⟩).fault := by
      simp only [fault, Style.printed, hformat]
    rw [hfault, Style.jsonSummary]
    by_cases h : ∃ path ∈ paths, ¬IsText path
    · exact .inl ⟨if_neg (mt hcomplete.1 (not_not_intro h)), hformat, h⟩
    · exact .inr ⟨if_pos (hcomplete.2 h), fun hbroken => h hbroken.2⟩

/-- Paths that are texts are told as such. -/
theorem exists_texts {paths : List (List UInt8)} (h : ∀ path ∈ paths, IsText path) :
    ∃ texts : List (List Char), paths.map Path.ofBytes = texts.map .text := by
  induction paths with
  | nil => exact ⟨[], rfl⟩
  | cons path paths ih =>
    obtain ⟨⟨cs, rfl⟩, hrest⟩ := List.forall_mem_cons.1 h
    obtain ⟨texts, htexts⟩ := ih hrest
    refine ⟨cs :: texts, ?_⟩
    rw [List.map_cons, List.map_cons, htexts, Path.ofBytes_encode]

/-- The end of a run in JSON format is one line, which spells the object of the report, if its paths are
texts. -/
theorem exists_line_of_finished {style : Style} (hjson : style.options.format = .json) {report : Report}
    {paths : List (List Char)} (hpaths : report.failures = paths.map .text) :
    ∃ (line : List Char) (failures : List Value),
      (style.printed (.finished report)).pieces = [(.out, String.ofList (line ++ ['\n']))]
        ∧ '\n' ∉ line
        ∧ (∀ v, Spells (line ++ ['\n']) v ↔ v = reportValue report.grammar report.checked paths)
        ∧ (reportValue report.grammar report.checked paths).member? "failures".toList
            = some (.array failures)
        ∧ (failures = [] ↔ report.exitCode = 0) := by
  obtain ⟨grammar, checked, failures⟩ := report
  cases hpaths
  obtain ⟨line, hline, hbreak⟩ := line_of_json grammar checked paths
  have hspells := spells_json grammar checked paths
  rw [hline] at hspells
  refine ⟨line, paths.map .string, ?_, hbreak, hspells, rfl, ?_⟩
  · rw [printed_finished_json style hjson, hline]
  · simp [Report.exitCode_eq_zero_iff]

/-- **In JSON format, the output is one line or nothing, where all paths are texts.** A run that gets to its
end prints the object of its report as one line, whose array of failures is empty just when the exit status
is `0`. A run that stops at a pattern that cannot be expanded or a file that cannot be read prints nothing.
A run that gets to its end otherwise and has a path to report that is no text fails then, with the
beginning of the object printed. Nothing is ever printed as an error. -/
theorem json_output_of_check {σ : Type} (files : Access Id) (request : CheckRequest)
    (log : Event → StateM σ Unit) (verbose color escapes : Bool) (l : σ) :
    match runFrom ((Host.over files (logBeside log)).check
      (Style.reporter ⟨⟨verbose, .json, color⟩, escapes⟩ Streams.writeBeside) request) (l, {}) with
    | (.ok report, _, streams) =>
      ∃ (line : List Char) (paths : List (List Char)) (failures : List Value),
        report.failures = paths.map .text
        ∧ streams.out = String.ofList (line ++ ['\n']) ∧ '\n' ∉ line
        ∧ streams.err = ""
        ∧ (∀ v, Spells (line ++ ['\n']) v ↔ v = reportValue report.grammar report.checked paths)
        ∧ (reportValue report.grammar report.checked paths).member? "failures".toList
            = some (.array failures)
        ∧ (failures = [] ↔ report.exitCode = 0)
    | (.error e, _, streams) =>
      streams.err = ""
        ∧ ((∃ checked, Stops files request.patterns e checked) ∧ streams.out = ""
          ∨ ¬Unreadable files request ∧ e = .output notTextFault
            ∧ (∃ path ∈ files.failing (.ofToken request.token)
                (request.patterns.flatMap files.selected), ¬IsText path)
            ∧ streams.out = String.ofList (fullReport files request).json.text) := by
  obtain ⟨l', hrun⟩ := check_printing log ⟨⟨verbose, .json, color⟩, escapes⟩ files request l
  rw [hrun]
  generalize hstyle : (⟨⟨verbose, .json, color⟩, escapes⟩ : Style) = style
  have hjson : style.options.format = .json := by rw [← hstyle]
  have hfiles := pieces_verdictNotices_json style hjson files (.ofToken request.token)
  have hfaults (paths : List (List UInt8)) : ∀ n ∈ verdictNotices files (.ofToken request.token) paths,
      (style.printed n).fault = none := fault_of_mem_verdictNotices style
  rcases told_of_runCourse files request with ⟨hread, hok, htold⟩ | ⟨e, checked, hstops, herror, htold⟩
  · rw [hok, htold, style.fault?_append (hfaults _), style.fault?_singleton, Style.pieces_append, hfiles,
      Style.pieces_singleton]
    rcases fault_finished style (.ofToken request.token) (request.patterns.flatMap files.selected).length
        (files.failing (.ofToken request.token) (request.patterns.flatMap files.selected))
      with ⟨hfault, -, hbroken⟩ | ⟨hfault, htexts⟩
    · have hfault : (style.printed (.finished (fullReport files request))).fault = _ := hfault
      have hprinted : (style.printed (.finished (fullReport files request))).pieces
          = [(.out, String.ofList (fullReport files request).json.text)] := by
        simp [Style.printed, hjson, Style.jsonSummary]
      rw [hfault, hprinted]
      exact ⟨rfl, .inr ⟨hread, rfl, hbroken, by simp [textOn]⟩⟩
    · have hfault : (style.printed (.finished (fullReport files request))).fault = _ := hfault
      have htexts : ∀ path ∈ files.failing (.ofToken request.token)
          (request.patterns.flatMap files.selected), IsText path := fun path hpath =>
        Classical.not_not.1 fun hnot => htexts ⟨hjson, path, hpath, hnot⟩
      obtain ⟨paths, hpaths⟩ := exists_texts htexts
      obtain ⟨line, failures, hprinted, hbreak, hspells, hmember, hcode⟩ :=
        exists_line_of_finished hjson ((failures_fullReport files request).trans hpaths)
      rw [hfault, hprinted]
      refine ⟨line, paths, failures, (failures_fullReport files request).trans hpaths, ?_, hbreak, rfl,
        hspells, hmember, hcode⟩
      simp [textOn]
  · rw [herror, htold, style.fault?_of_forall (hfaults checked), hfiles]
    exact ⟨rfl, .inl ⟨⟨checked, hstops⟩, rfl⟩⟩

/-! ## Text -/

/-- The line for a file that passes. -/
def passLine (grammar : Grammar) (path : List UInt8) : String :=
  "🏆 ecma-v: '" ++ String.ofList (Utf8.lossy path) ++ "' matches ecma" ++ grammar.digit ++ "\n"

/-- The line for a file that does not pass. -/
def mismatchLine (grammar : Grammar) (path : List UInt8) : String :=
  "ecma-v: '" ++ String.ofList (Utf8.lossy path) ++ "' does not match ecma" ++ grammar.digit ++ "\n"

/-- The line for a run without failures. -/
def allMatchLine : String := "ecma-v: there were no matching errors! 🎉\n"

/-- The first line of the summary. -/
def countLine (failures : Nat) : String :=
  "ecma-v: there were " ++ toString failures ++ " matching errors!\n"

/-- The line of the summary for a file. -/
def errorLine (path : List UInt8) : String := "  ecma-v: error in: " ++ String.ofList (Utf8.lossy path) ++ "\n"

/-- The lines of some files on the output, which has them only if all files are to be reported. -/
def passLines (files : Access Id) (grammar : Grammar) (verbose : Bool) (paths : List (List UInt8)) :
    List String :=
  if verbose then (files.passing grammar paths).map (passLine grammar) else []

/-- The lines of some files on the error output. -/
def mismatchLines (files : Access Id) (grammar : Grammar) (paths : List (List UInt8)) : List String :=
  (files.failing grammar paths).map (mismatchLine grammar)

/-- In text format, all notices can be written as a whole. -/
theorem fault?_text {style : Style} (h : style.options.format = .text) (notices : List Notice) :
    style.fault? notices = none := by
  refine style.fault?_of_forall fun n _ => ?_
  cases n <;> simp [Style.printed, h]

section

variable (verbose escapes : Bool) (files : Access Id) (grammar : Grammar)

theorem heading_plain (color : Color) :
    Style.heading ⟨⟨verbose, .text, false⟩, escapes⟩ color = "ecma-v:" := rfl

theorem pieces_passed_plain (path : List UInt8) :
    (Style.printed ⟨⟨verbose, .text, false⟩, escapes⟩ (.passed (.ofBytes path) grammar)).pieces
      = if verbose then [(.out, passLine grammar path)] else [] := by
  have hhead : "🏆 " ++ "ecma-v:" ++ " '" = "🏆 ecma-v: '" := by decide
  have hline : Style.passedLine ⟨⟨verbose, .text, false⟩, escapes⟩ (.ofBytes path) grammar
      = passLine grammar path := by
    rw [Style.passedLine, heading_plain, hhead, Path.shown_ofBytes]
    rfl
  rw [← hline]
  rfl

theorem pieces_failed_plain (path : List UInt8) :
    (Style.printed ⟨⟨verbose, .text, false⟩, escapes⟩ (.failed (.ofBytes path) grammar)).pieces
      = [(.err, mismatchLine grammar path)] := by
  have hhead : "ecma-v:" ++ " '" = "ecma-v: '" := by decide
  have hline : Style.failedLine ⟨⟨verbose, .text, false⟩, escapes⟩ (.ofBytes path) grammar
      = mismatchLine grammar path := by
    rw [Style.failedLine, heading_plain, hhead, Path.shown_ofBytes]
    rfl
  rw [← hline]
  rfl

theorem pieces_finished_plain (checked : Nat) (failing : List (List UInt8)) :
    (Style.printed ⟨⟨verbose, .text, false⟩, escapes⟩
        (.finished ⟨grammar, checked, failing.map .ofBytes⟩)).pieces
      = if failing = [] then [(.out, allMatchLine)]
        else (countLine failing.length :: failing.map errorLine).map (Channel.err, ·) := by
  have hsuccess : Style.successLine ⟨⟨verbose, .text, false⟩, escapes⟩ = allMatchLine := by
    have hline : "ecma-v:" ++ " there were no matching errors! 🎉\n" = allMatchLine := by decide
    rw [Style.successLine, heading_plain, hline]
  have hcount (n : Nat) :
      Style.summaryLine ⟨⟨verbose, .text, false⟩, escapes⟩ n = countLine n := by
    have hhead : "ecma-v:" ++ " there were " = "ecma-v: there were " := by decide
    rw [Style.summaryLine, heading_plain, hhead]
    rfl
  have hpath (path : List UInt8) :
      Style.summaryPathLine ⟨⟨verbose, .text, false⟩, escapes⟩ (.ofBytes path) = errorLine path := by
    have hhead : "  " ++ "ecma-v:" ++ " error in: " = "  ecma-v: error in: " := by decide
    rw [Style.summaryPathLine, heading_plain, hhead, Path.shown_ofBytes]
    rfl
  cases failing with
  | nil => simp [Style.printed, Style.textSummary, Report.isSuccess, hsuccess]
  | cons path paths => simp [Style.printed, Style.textSummary, Report.isSuccess, hcount, hpath]

/-- Files print their lines, on the channel that the verdict on each of them asks for. -/
theorem textOn_verdictNotices (paths : List (List UInt8)) :
    let pieces :=
      Style.pieces ⟨⟨verbose, .text, false⟩, escapes⟩ (verdictNotices files grammar paths)
    textOn .out pieces = String.join (passLines files grammar verbose paths)
      ∧ textOn .err pieces = String.join (mismatchLines files grammar paths) := by
  intro pieces
  induction paths with
  | nil => cases verbose <;> exact ⟨rfl, rfl⟩
  | cons path paths ih =>
    have hsplit : pieces
        = (Style.printed ⟨⟨verbose, .text, false⟩, escapes⟩
            (verdictNotice grammar path (files.verdictOf grammar path))).pieces
          ++ Style.pieces ⟨⟨verbose, .text, false⟩, escapes⟩ (verdictNotices files grammar paths) := rfl
    obtain ⟨hout, herr⟩ := ih
    simp only [hsplit, textOn_append, hout, herr, verdictNotice]
    cases hpass : (files.verdictOf grammar path).isPass with
    | true =>
      cases verbose <;>
        simp [pieces_passed_plain, textOn, passLines, mismatchLines, Files.Access.passing,
          Files.Access.failing, hpass]
    | false =>
      cases verbose <;>
        simp [pieces_failed_plain, textOn, passLines, mismatchLines, Files.Access.passing,
          Files.Access.failing, hpass]

end

/-- **In text format, the output is one line per file, and then how the run ends.** A run that gets to its
end has expanded all patterns and read all files. On the output stand the lines of the files that pass, in
the order of the checks and only if they are asked for, and then the message of success, if no file fails.
On the error output stand the lines of the files that fail, in the order of the checks, and then, if there
are any, a summary with their number that lists them in the same order. A run that stops has printed just
the lines of the files checked by then. -/
theorem text_output_of_check {σ : Type} (files : Access Id) (request : CheckRequest)
    (log : Event → StateM σ Unit) (verbose escapes : Bool) (l : σ) :
    let grammar := Grammar.ofToken request.token
    match runFrom ((Host.over files (logBeside log)).check
      (Style.reporter ⟨⟨verbose, .text, false⟩, escapes⟩ Streams.writeBeside) request) (l, {}) with
    | (.ok report, _, streams) =>
      let checked := request.patterns.flatMap files.selected
      let failing := files.failing grammar checked
      (∀ p ∈ request.patterns, files.Settled p)
        ∧ report = ⟨grammar, checked.length, failing.map .ofBytes⟩
        ∧ streams.out = String.join (passLines files grammar verbose checked
            ++ if failing = [] then [allMatchLine] else [])
        ∧ streams.err = String.join (mismatchLines files grammar checked
            ++ if failing = [] then [] else countLine failing.length :: failing.map errorLine)
    | (.error e, _, streams) =>
      ∃ checked, Stops files request.patterns e checked
        ∧ streams.out = String.join (passLines files grammar verbose checked)
        ∧ streams.err = String.join (mismatchLines files grammar checked) := by
  intro grammar
  obtain ⟨l', hrun⟩ := check_printing log ⟨⟨verbose, .text, false⟩, escapes⟩ files request l
  rw [hrun, fault?_text rfl]
  rcases told_of_runCourse files request with ⟨hread, hok, htold⟩ | ⟨e, checked, hstops, herror, htold⟩
  · have hlines := textOn_verdictNotices verbose escapes files grammar
      (request.patterns.flatMap files.selected)
    have hfull : fullReport files request
        = ⟨grammar, (request.patterns.flatMap files.selected).length,
            (files.failing grammar (request.patterns.flatMap files.selected)).map .ofBytes⟩ := rfl
    rw [hok, htold, hfull]
    dsimp only [endingWith, Except.bind]
    rw [Style.pieces_append, Style.pieces_singleton, pieces_finished_plain, textOn_append, textOn_append,
      hlines.1, hlines.2]
    refine ⟨?_, rfl, ?_, ?_⟩
    · have hsound := sound_runStages_iff.2 hread
      exact settled_of_sound hsound.left
    · split
      · simp [textOn]
      · rw [textOn_map_of_ne (by decide)]
        simp
    · split
      · simp [textOn]
      · rw [textOn_map_self, String.join_append]
  · have hlines := textOn_verdictNotices verbose escapes files grammar checked
    rw [herror, htold]
    exact ⟨checked, hstops, hlines⟩

end EditionCheck
