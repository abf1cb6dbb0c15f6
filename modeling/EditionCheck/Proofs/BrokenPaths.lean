import EditionCheck.Proofs.JsonReport

/-!
# Reports that cannot be written

A path that is no text has no form in JSON. A report is written as far as the first such path, which is
less than an object: what has been written by then stays.

* `texts_or_broken` — the failures of a report are texts, or some texts stand in front of one that is none;
* `jsonPaths_behind` — what is written for paths begins with what is written for those in front;
* `not_spells_reportStart` — the beginning of a report spells no value;
* `json_report_ends` — the end of a run puts an object on the output, or the beginning of one and an error;
* `beginning_left_behind` — so an error can leave something on the output.
-/

set_option autoImplicit false

namespace EditionCheck

open EditionCheck.Files EditionCheck.Json EditionCheck.Report

/-! ## Paths in front of a path -/

/-- Paths are texts, or some texts stand in front of a path that is none. -/
theorem texts_or_broken (paths : List Path) :
    (∃ texts : List (List Char), paths = texts.map .text)
      ∨ ∃ (texts : List (List Char)) (broken : Path) (rest : List Path),
        paths = texts.map .text ++ broken :: rest ∧ broken.text? = none := by
  induction paths with
  | nil => exact .inl ⟨[], rfl⟩
  | cons path paths ih =>
    cases path with
    | raw bytes hbroken => exact .inr ⟨[], .raw bytes hbroken, paths, rfl, rfl⟩
    | text cs =>
      rcases ih with ⟨texts, rfl⟩ | ⟨texts, broken, rest, rfl, hbroken⟩
      · exact .inl ⟨cs :: texts, rfl⟩
      · exact .inr ⟨cs :: texts, broken, rest, rfl, hbroken⟩

/-- What is written for paths that stand in front of another, with the comma behind them. -/
def pathsStart (first : Bool) : List (List Char) → List Char
  | [] => if first then [] else [',']
  | path :: paths => (if first then [] else [',']) ++ (jsonString path ++ pathsStart false paths)

/-- What is written for paths begins with what is written for those in front. -/
theorem jsonPaths_behind (first : Bool) (texts : List (List Char)) (path : Path) (rest : List Path) :
    jsonPaths first (texts.map .text ++ path :: rest)
      = Written.behind (pathsStart first texts)
          (match path.text? with
          | none => ⟨[], false⟩
          | some text => (jsonPaths false rest).behind (jsonString text)) := by
  induction texts generalizing first with
  | nil => rfl
  | cons text texts ih =>
    rw [List.map_cons, List.cons_append, jsonPaths, ih]
    simp [pathsStart, Path.text?, Written.behind]

/-- What is written for a report whose first failures are texts, in front of the next one. -/
def reportStart (grammar : Grammar) (checked : Nat) (texts : List (List Char)) : List Char :=
  '\x7b' :: jsonMember true "grammar".toList (jsonString grammar.digit.toList
    ++ jsonMember false "checked".toList (Nat.toDigits 10 checked
    ++ jsonMember false "failures".toList ('[' :: pathsStart true texts)))

theorem text_json_behind (grammar : Grammar) (checked : Nat) (texts : List (List Char)) (path : Path)
    (rest : List Path) :
    (json ⟨grammar, checked, texts.map .text ++ path :: rest⟩).text
      = reportStart grammar checked texts
        ++ match path.text? with
          | none => []
          | some text => jsonString text ++ (jsonPaths false rest).text := by
  rw [text_json, jsonPaths_behind, reportStart]
  cases path.text? <;> simp [Written.behind, jsonMember]

/-! ## The beginning of a report spells nothing -/

/-- What is read as the members of an object begins with the member that stands there. -/
theorem exists_of_readsMembers {first : Bool} {key s t : List Char} {members : List (List Char × Value)}
    (h : ReadsMembers first (jsonMember first key s) members t) :
    ∃ v u more, ReadsValue (skipSpace s) v u ∧ ReadsMembers false u more t := by
  have hskip : skipSpace (jsonMember first key s) = jsonMember first key s := by
    cases first with
    | true => exact skipSpace_jsonString key _
    | false => exact skipSpace_cons (by decide) _
  cases h with
  | done closed =>
    rw [hskip] at closed
    cases first <;> cases closed
  | next separated named read more =>
    rw [hskip] at separated
    have hbehind : behindComma first (jsonMember first key s) = some (jsonString key ++ ':' :: s) := by
      cases first <;> rfl
    cases hbehind.symm.trans separated
    rw [skipSpace_jsonString, readKey_jsonString] at named
    cases named
    exact ⟨_, _, _, read, more⟩

theorem not_readsValue_nil {v : Value} {t : List Char} : ¬ReadsValue [] v t := by
  intro h
  cases h with
  | number read => cases read

/-- Paths that others are to follow do not end their array. -/
theorem not_readsItems_pathsStart (first : Bool) (texts : List (List Char)) (items : List Value)
    (t : List Char) : ¬ReadsItems first (pathsStart first texts) items t := by
  induction texts generalizing first items with
  | nil =>
    intro h
    cases first with
    | true =>
      cases h with
      | done closed => cases closed
      | next separated read => cases separated; exact not_readsValue_nil read
    | false =>
      cases h with
      | done closed => cases closed
      | next separated read => cases separated; exact not_readsValue_nil read
  | cons path texts ih =>
    intro h
    have hskip : skipSpace (pathsStart first (path :: texts)) = pathsStart first (path :: texts) := by
      cases first with
      | true => exact skipSpace_jsonString path _
      | false => exact skipSpace_cons (by decide) _
    cases h with
    | done closed =>
      rw [hskip] at closed
      cases first <;> cases closed
    | next separated read more =>
      rw [hskip] at separated
      have hbehind : behindComma first (pathsStart first (path :: texts))
          = some (jsonString path ++ pathsStart false texts) := by
        cases first <;> rfl
      cases hbehind.symm.trans separated
      rw [skipSpace_jsonString] at read
      obtain ⟨-, rfl⟩ := read.unique (readsValue_string path _)
      exact ih false _ more

/-- **The beginning of a report spells no value.** -/
theorem not_spells_reportStart (grammar : Grammar) (checked : Nat) (texts : List (List Char))
    (v : Value) : ¬Spells (reportStart grammar checked texts) v := by
  rintro ⟨rest, hread, -⟩
  rw [reportStart, skipSpace_cons (by decide)] at hread
  cases hread with
  | number read => simp [readNumber_cons_eq_none] at read
  | object hmembers =>
    obtain ⟨_, u, _, hdigit, hmembers⟩ := exists_of_readsMembers hmembers
    rw [skipSpace_jsonString] at hdigit
    obtain ⟨-, rfl⟩ := hdigit.unique (readsValue_string _ _)
    obtain ⟨_, u, _, hcount, hmembers⟩ := exists_of_readsMembers hmembers
    obtain ⟨-, rfl⟩ := hcount.unique (readsValue_toDigits checked _)
    obtain ⟨_, u, _, hpaths, -⟩ := exists_of_readsMembers hmembers
    rw [skipSpace_cons (by decide)] at hpaths
    cases hpaths with
    | number read => simp [readNumber_cons_eq_none] at read
    | array hitems => exact not_readsItems_pathsStart true texts _ _ hitems

/-! ## The end of a run -/

/-- The end of a run in JSON format prints what is written for its report, and fails if that is not all
of it. -/
theorem finish_json (style : Style) (h : style.options.format = .json) (out err : String) (r : Report) :
    runFrom (style.reporter Streams.write (.finished r)) { out, err }
      = (if r.json.complete then .ok ()
          else .error (.output (.other "path contains invalid UTF-8 characters")),
        { out := out ++ String.ofList r.json.text, err }) := by
  have hprinted : style.printed (.finished r) = Style.jsonSummary r := by
    simp [Style.printed, h]
  have hrun := reporter_printing writesTo_write style (.finished r) (s := { out, err }) rfl
  rw [id_eq, hprinted] at hrun
  rw [hrun, Style.jsonSummary]
  cases r.json.complete <;> simp [Streams.print, textOn, endingWith]

/-- **A report in JSON is written as far as its failures are texts.** If all of them are, the end of a run
puts one line on the output, which spells the object of the report. If not, it fails, and what it puts on
the output is the beginning of the line, as far as the place of the first path that is no text: the part
that a report with a text in this place has in front of that text. This is never nothing, and it spells no
value. -/
theorem json_report_ends (verbose color escapes : Bool) (out err : String) (report : Report) :
    let finish (report : Report) :=
      runFrom (Style.reporter ⟨⟨verbose, .json, color⟩, escapes⟩ Streams.write (.finished report))
        { out, err }
    (∃ (paths : List (List Char)) (line : List Char),
      report.failures = paths.map .text
      ∧ finish report = (.ok (), { out := out ++ String.ofList (line ++ ['\n']), err })
      ∧ '\n' ∉ line
      ∧ ∀ v, Spells (line ++ ['\n']) v ↔ v = reportValue report.grammar report.checked paths)
    ∨ ∃ (texts : List (List Char)) (broken : Path) (rest : List Path) (start : List Char),
      report.failures = texts.map .text ++ broken :: rest ∧ broken.text? = none
      ∧ finish report
        = (.error (.output (.other "path contains invalid UTF-8 characters")),
            { out := out ++ String.ofList start, err })
      ∧ start ≠ [] ∧ (∀ v, ¬Spells start v)
      ∧ ∀ (path : List Char) (others : List Path), ∃ more : List Char,
          (finish { report with failures := texts.map .text ++ .text path :: others }).2.out
            = out ++ String.ofList (start ++ (jsonString path ++ more)) := by
  intro finish
  obtain ⟨grammar, checked, failures⟩ := report
  have hfinish (r : Report) := finish_json ⟨⟨verbose, .json, color⟩, escapes⟩ rfl out err r
  rcases texts_or_broken failures with ⟨paths, rfl⟩ | ⟨texts, broken, rest, rfl, hbroken⟩
  · obtain ⟨line, hline, hbreak⟩ := line_of_json grammar checked paths
    refine .inl ⟨paths, line, rfl, ?_, hbreak, ?_⟩
    · rw [← hline]
      exact (hfinish _).trans (by rw [complete_of_texts]; rfl)
    · rw [← hline]
      exact spells_json grammar checked paths
  · have htext := text_json_behind grammar checked texts broken rest
    have hincomplete : (json ⟨grammar, checked, texts.map .text ++ broken :: rest⟩).complete = false := by
      rw [json_complete]
      simp [hbroken]
    rw [hbroken, List.append_nil] at htext
    refine .inr ⟨texts, broken, rest, reportStart grammar checked texts, rfl, hbroken, ?_,
      List.cons_ne_nil _ _, not_spells_reportStart grammar checked texts, fun path others => ?_⟩
    · exact (hfinish _).trans (by rw [hincomplete, htext]; rfl)
    · have hother := hfinish ⟨grammar, checked, texts.map .text ++ .text path :: others⟩
      rw [text_json_behind] at hother
      exact ⟨(jsonPaths false others).text, congrArg (fun r => r.2.out) hother⟩

/-- The report of a check of two files that fail, the second at a path that is no text. -/
def brokenReport : Report := ⟨.v5, 2, [.text "a.js".toList, .ofBytes [0xFF]]⟩

/-- A run that fails at its end can leave the beginning of an object on the output. -/
theorem beginning_left_behind :
    ¬ ∀ (verbose color escapes : Bool) (out err : String) (report : Report),
      match runFrom (Style.reporter ⟨⟨verbose, .json, color⟩, escapes⟩ Streams.write (.finished report))
        { out, err } with
      | (.ok (), streams) => ∃ (line : List Char) (v : Value),
          streams.out = out ++ String.ofList (line ++ ['\n']) ∧ Spells (line ++ ['\n']) v
      | (.error _, streams) => streams.out = out := by
  intro hall
  have hfails := hall false false false "" "" brokenReport
  have hincomplete : brokenReport.json.complete = false := by decide +kernel
  have hbegun : "" ++ String.ofList brokenReport.json.text ≠ "" := by decide +kernel
  rw [finish_json _ rfl, hincomplete] at hfails
  exact hbegun hfails

end EditionCheck
