import EditionCheck.Check
import EditionCheck.Proofs.Course
import EditionCheck.Proofs.TreeWalk

/-!
# What a run does

Over files that do not change, everything that a run decides is fixed before anything is told: which
paths the patterns select, what the files hold, what their verdicts are. So a run has a course.

* `check_over_eq_follow` — in every lawful monad, with every log and every reporter, a check follows the
  course of its request; `check_eq_follow` says so of a tree;
* `runCourse_of_ok` — a course that ends well tells of every selected path once, in the order of the
  patterns, and then of the end;
* `told_of_check` — so does the reporter of every run that succeeds, and the report depends on the files
  and the request alone.
-/

set_option autoImplicit false

namespace EditionCheck

open EditionCheck.Files EditionCheck.Glob EditionCheck.Log EditionCheck.Text

/-! ## Runs over files that do not change -/

/-- What a run over files with fixed answers works with. -/
def Host.over {m : Type → Type} [Pure m] (files : Access Id) (log : Event → m Unit) : Host m :=
  ⟨files.fixed, log⟩

/-- The paths that a pattern selects. -/
def Files.Access.expand (files : Access Id) (pattern : String) : Except Obstacle (List (List UInt8)) :=
  ((Host.over files fun _ => (pure () : Id Unit)).expand pattern).run

/-- What a run over a tree works with. -/
def Host.ofTree {m : Type → Type} [Pure m] (t : Tree) (current : Place) (log : Event → m Unit) :
    Host m :=
  ⟨t.access current, log⟩

/-- The paths that a pattern selects in a tree. -/
def Files.Tree.expand (t : Tree) (current : Place) (pattern : String) :
    Except Obstacle (List (List UInt8)) :=
  ((Host.ofTree t current fun _ => (pure () : Id Unit)).expand pattern).run

theorem ofTree_eq_over {m : Type → Type} [Pure m] (t : Tree) (current : Place) (log : Event → m Unit) :
    Host.ofTree t current log = Host.over (t.access current) log := rfl

theorem expand_access (t : Tree) (current : Place) :
    (t.access current : Access Id).expand = t.expand current := rfl

/-! ## The course of a run -/

section

variable (files : Access Id)

/-- The course of resolving a token. -/
def resolveCourse (token : String) : Course Grammar :=
  ⟨(if Grammar.isFallback token then [.log (.unknownToken token)] else [])
      ++ [.log (.resolved token (Grammar.ofToken token))],
    .ok (Grammar.ofToken token)⟩

/-- The course of expanding a pattern. -/
def expandCourse (pattern : String) : Course (List (List UInt8)) :=
  match Pattern.ofChars pattern.toList, files.expand pattern with
  | .error e, outcome => ⟨[.log (.notPattern pattern e)], outcome⟩
  | .ok _, .ok paths => ⟨[.log (.expanded pattern paths.length)], .ok paths⟩
  | .ok _, .error e => ⟨[], .error e⟩

/-- The notice of a file with a verdict. -/
def verdictNotice (grammar : Grammar) (path : List UInt8) (verdict : Verdict) : Notice :=
  if verdict.isPass then .passed (.ofBytes path) grammar else .failed (.ofBytes path) grammar

/-- A report with one more file. -/
def Report.tally (report : Report) (path : List UInt8) (verdict : Verdict) : Report :=
  { report with
    checked := report.checked + 1
    failures := if verdict.isPass then report.failures else report.failures ++ [.ofBytes path] }

/-- The deeds for a file about which something has been found. -/
def findingDeeds (grammar : Grammar) (path : List UInt8) (finding : Finding) : List Deed :=
  (eventsOf grammar finding).map .log
    ++ (if finding.verdict.isPass then [] else [.log (.rejected path finding.verdict)])
    ++ [.tell (verdictNotice grammar path finding.verdict)]

/-- The course of checking a file. -/
def fileCourse (report : Report) (path : List UInt8) : Course Report :=
  match files.textAt path with
  | .error fault => ⟨[], .error (.unreadable path fault)⟩
  | .ok text =>
    ⟨findingDeeds report.grammar path (examine text report.grammar),
      .ok (report.tally path (validate text report.grammar))⟩

/-- The course of checking what a pattern selects. -/
def patternCourse (report : Report) (pattern : String) : Course Report :=
  (expandCourse files pattern).andThen (Course.along (fileCourse files) report)

/-- The course of the end of a run. -/
def endCourse (grammar : Grammar) (report : Report) : Course Report :=
  ⟨[.log (.finished grammar report.checked report.failures.length), .tell (.finished report)],
    .ok report⟩

/-- The course of a run. -/
def runCourse (request : CheckRequest) : Course Report :=
  (resolveCourse request.token).andThen fun grammar =>
    (Course.along (patternCourse files) { grammar } request.patterns).andThen (endCourse grammar)

end

/-! ## Every run follows its course -/

section

variable {m : Type → Type} [Monad m] {ε ε' α : Type}

theorem mk_ok (a : α) : (ExceptT.mk (pure (.ok a)) : ExceptT ε m α) = pure a := rfl

theorem mapError_ok (f : ε → ε') (a : α) : (Except.ok a).mapError f = Except.ok a := rfl

theorem adapt_mk [LawfulMonad m] (f : ε → ε') (x : Except ε α) :
    ExceptT.adapt f (ExceptT.mk (pure x) : ExceptT ε m α) = ExceptT.mk (pure (x.mapError f)) := by
  apply ExceptT.ext
  exact map_pure _ _

end

section

variable (files : Access Id) {pattern : String}

/-- A text that is no pattern selects the path that it spells, if that leads anywhere. -/
theorem Files.Access.expand_of_error {e : PatternError}
    (h : Pattern.ofChars pattern.toList = .error e) :
    files.expand pattern
      = .ok (if (files.exists? (Utf8.encode pattern.toList)).run then [Utf8.encode pattern.toList]
          else []) := by
  rw [Access.expand, Host.expand, h]
  simp only [Host.over, exists?_fixed]
  cases (files.exists? (Utf8.encode pattern.toList)).run <;> rfl

theorem Files.Access.expand_of_ok {p : Pattern} (h : Pattern.ofChars pattern.toList = .ok p) :
    files.expand pattern
      = (p.select files).run.mapError fun u => .unreadable u.path u.fault := by
  rw [Access.expand, Host.expand, h]
  simp only [Host.over]
  rw [settles_select p, adapt_mk]
  cases (p.select files).run <;> rfl

/-- What a pattern selects in a tree is what its walk finds there. -/
theorem expand_of_ok (t : Tree) (current : Place) {p : Pattern}
    (h : Pattern.ofChars pattern.toList = .ok p) :
    t.expand current pattern
      = (p.select (t.access current : Access Id)).run.mapError
          fun u => .unreadable u.path u.fault := by
  rw [← expand_access, Access.expand_of_ok _ h]

theorem select_of_expand (t : Tree) (current : Place) {p : Pattern}
    (hp : Pattern.ofChars pattern.toList = .ok p) {paths : List (List UInt8)}
    (h : t.expand current pattern = .ok paths) :
    (p.select (t.access current : Access Id)).run = .ok paths := by
  rw [expand_of_ok t current hp] at h
  cases hrun : (p.select (t.access current : Access Id)).run with
  | error u =>
    rw [hrun] at h
    cases h
  | ok found =>
    rw [hrun] at h
    cases h
    rfl

end

section

variable {m : Type → Type} [Monad m] [LawfulMonad m] (files : Access Id)
  (log : Event → m Unit) (reporter : Reporter m)

theorem liftM_resolve (token : String) :
    (liftM ((Host.over files log).resolve token) : ExceptT Obstacle m Grammar)
      = (resolveCourse token).follow log reporter := by
  rw [Host.resolve, Course.follow, resolveCourse]
  cases Grammar.isFallback token <;>
    simp [Course.performAll, Course.perform, mk_ok, Host.over]

theorem expand_eq_follow (pattern : String) :
    (Host.over files log).expand pattern
      = (expandCourse files pattern).follow log reporter := by
  rw [Host.expand, expandCourse]
  cases hp : Pattern.ofChars pattern.toList with
  | error e =>
    rw [files.expand_of_error hp]
    simp only [Course.follow, Course.performAll, Course.perform, Host.over, exists?_fixed]
    cases (files.exists? (Utf8.encode pattern.toList)).run <;> simp [mk_ok]
  | ok p =>
    rw [files.expand_of_ok hp]
    simp only [Host.over]
    rw [settles_select p, adapt_mk]
    cases (p.select files).run with
    | error u => exact (Course.error_bind _ _).trans (Course.follow_of_deeds_nil _).symm
    | ok paths =>
      simp [Course.follow, Course.performAll, Course.perform, mk_ok, mapError_ok]

theorem checkFile_eq_follow (report : Report) (path : List UInt8) :
    (Host.over files log).checkFile reporter report path
      = (fileCourse files report path).follow log reporter := by
  rw [Host.checkFile, Host.read, fileCourse]
  simp only [Host.over, readText_fixed, adapt_mk]
  cases files.textAt path with
  | error fault => exact (Course.error_bind _ _).trans (Course.follow_of_deeds_nil _).symm
  | ok text =>
    simp only [mapError_ok, mk_ok, pure_bind, Course.follow, findingDeeds,
      Course.performAll_append, Course.performAll_log, bind_assoc, verdictNotice, Report.tally,
      validate]
    by_cases hv : (examine text report.grammar).verdict.isPass <;>
      simp [hv, Course.performAll, Course.perform]

theorem checkPattern_eq_follow (report : Report) (pattern : String) :
    (Host.over files log).checkPattern reporter report pattern
      = (patternCourse files report pattern).follow log reporter := by
  rw [Host.checkPattern, expand_eq_follow files log reporter, patternCourse,
    Course.follow_andThen]
  refine bind_congr fun paths => ?_
  exact Course.follow_along (checkFile_eq_follow files log reporter) report paths

/-- **Every run follows the course of its request**, whatever the log and the reporter do. -/
theorem check_over_eq_follow (request : CheckRequest) :
    (Host.over files log).check reporter request
      = (runCourse files request).follow log reporter := by
  rw [runCourse, Course.follow_andThen, ← liftM_resolve files log reporter, Host.check]
  refine bind_congr fun grammar => ?_
  rw [Course.follow_andThen,
    Course.follow_along (checkPattern_eq_follow files log reporter)]
  refine bind_congr fun report => ?_
  simp [endCourse, Course.follow, Course.performAll, Course.perform, mk_ok, Host.over]

/-- A run over a tree follows the course of its request over the answers of the tree. -/
theorem check_eq_follow (t : Tree) (current : Place) (request : CheckRequest) :
    (Host.ofTree t current log).check reporter request
      = (runCourse (t.access current) request).follow log reporter := by
  rw [ofTree_eq_over, check_over_eq_follow]

end

/-! ## Runs that end well -/

theorem resolveCourse_notices (token : String) : (resolveCourse token).notices = [] := by
  unfold resolveCourse Course.notices
  cases Grammar.isFallback token <;> rfl

section

variable (files : Access Id)

/-- The text of a file that can be read. -/
def Files.Access.textOf (path : List UInt8) : String :=
  match files.textAt path with
  | .ok text => text
  | .error _ => ""

/-- The verdict of a file that can be read. -/
def Files.Access.verdictOf (grammar : Grammar) (path : List UInt8) : Verdict :=
  validate (files.textOf path) grammar

theorem Files.Access.textOf_of_ok {path : List UInt8} {text : String}
    (h : files.textAt path = .ok text) : files.textOf path = text := by
  rw [Access.textOf, h]

theorem expandCourse_outcome (pattern : String) :
    (expandCourse files pattern).outcome = files.expand pattern := by
  unfold expandCourse
  split
  · rfl
  · next h => exact h.symm
  · next h => exact h.symm

theorem expandCourse_notices (pattern : String) : (expandCourse files pattern).notices = [] := by
  unfold expandCourse
  split <;> rfl

theorem notices_findingDeeds (grammar : Grammar) (path : List UInt8) (finding : Finding) :
    (findingDeeds grammar path finding).filterMap Deed.notice?
      = [verdictNotice grammar path finding.verdict] := by
  have hevents (es : List Event) : (es.map Deed.log).filterMap Deed.notice? = [] := by
    rw [List.filterMap_map]
    exact List.filterMap_eq_nil_iff.2 fun _ _ => rfl
  unfold findingDeeds
  rw [List.filterMap_append, List.filterMap_append, hevents, List.nil_append]
  cases finding.verdict.isPass <;> rfl

/-- What becomes of a report, and what is told, when the files at some paths are checked in turn. -/
structure Covers (r : Report) (paths : List (List UInt8)) (notices : List Notice) (r' : Report) :
    Prop where
  readable : ∀ path ∈ paths, files.textAt path = .ok (files.textOf path)
  notices : notices
    = paths.map fun path => verdictNotice r.grammar path (files.verdictOf r.grammar path)
  grammar : r'.grammar = r.grammar
  checked : r'.checked = r.checked + paths.length
  failures : r'.failures = r.failures
    ++ (paths.filter fun path => !(files.verdictOf r.grammar path).isPass).map .ofBytes

end

namespace Covers

variable {files : Access Id} {r r' r'' : Report} {paths others : List (List UInt8)}
  {notices more : List Notice}

theorem nil : Covers files r [] [] r where
  readable _ h := absurd h List.not_mem_nil
  notices := rfl
  grammar := rfl
  checked := rfl
  failures := (List.append_nil _).symm

theorem append (h : Covers files r paths notices r') (h' : Covers files r' others more r'') :
    Covers files r (paths ++ others) (notices ++ more) r'' where
  readable path hp := (List.mem_append.1 hp).elim (h.readable path) (h'.readable path)
  notices := by rw [h.notices, h'.notices, h.grammar, List.map_append]
  grammar := h'.grammar.trans h.grammar
  checked := by rw [h'.checked, h.checked, List.length_append, Nat.add_assoc]
  failures := by
    rw [h'.failures, h.failures, h.grammar, List.filter_append, List.map_append, List.append_assoc]

theorem file {path : List UInt8} (h : (fileCourse files r path).outcome = .ok r') :
    Covers files r [path] (fileCourse files r path).notices r' := by
  unfold fileCourse at h ⊢
  cases htext : files.textAt path with
  | error fault =>
    rw [htext] at h
    cases h
  | ok text =>
    rw [htext] at h
    have hof : files.textOf path = text := files.textOf_of_ok htext
    have hverdict : files.verdictOf r.grammar path = validate text r.grammar := by
      rw [Access.verdictOf, hof]
    cases h
    refine ⟨?_, ?_, rfl, rfl, ?_⟩
    · intro p hp
      rw [List.mem_singleton.1 hp, hof, htext]
    · rw [List.map_singleton, hverdict, validate]
      exact notices_findingDeeds _ _ _
    · rw [Report.tally, List.filter_cons, hverdict]
      cases (validate text r.grammar).isPass with
      | true => exact (List.append_nil _).symm
      | false => rfl

theorem each (h : (Course.along (fileCourse files) r paths).outcome = .ok r') :
    Covers files r paths (Course.along (fileCourse files) r paths).notices r' := by
  induction paths generalizing r with
  | nil =>
    cases h
    exact nil
  | cons path paths ih =>
    obtain ⟨r₁, h₁, h₂, hn⟩ := Course.andThen_ok h
    rw [Course.along, hn]
    exact (file h₁).append (ih h₂)

theorem pattern {p : String} (h : (patternCourse files r p).outcome = .ok r') :
    ∃ selected, files.expand p = .ok selected
      ∧ Covers files r selected (patternCourse files r p).notices r' := by
  obtain ⟨selected, hselected, hfiles, hn⟩ := Course.andThen_ok h
  refine ⟨selected, (expandCourse_outcome files p).symm.trans hselected, ?_⟩
  rw [patternCourse, hn, expandCourse_notices, List.nil_append]
  exact each hfiles

theorem patterns {ps : List String}
    (h : (Course.along (patternCourse files) r ps).outcome = .ok r') :
    ∃ selected, ps.mapM (files.expand) = .ok selected
      ∧ Covers files r selected.flatten
          (Course.along (patternCourse files) r ps).notices r' := by
  induction ps generalizing r with
  | nil =>
    cases h
    exact ⟨[], rfl, nil⟩
  | cons p ps ih =>
    obtain ⟨r₁, h₁, h₂, hn⟩ := Course.andThen_ok h
    obtain ⟨paths, hpaths, hcovers⟩ := pattern h₁
    obtain ⟨selected, hselected, hrest⟩ := ih h₂
    refine ⟨paths :: selected, ?_, ?_⟩
    · rw [List.mapM_cons, hpaths, hselected]
      rfl
    · rw [Course.along, hn, List.flatten_cons]
      exact hcovers.append hrest

end Covers

/-- A run whose course ends well covers what its patterns select, and then tells of the end. -/
theorem runCourse_of_ok {files : Access Id} {request : CheckRequest} {report : Report}
    (h : (runCourse files request).outcome = .ok report) :
    ∃ selected notices, request.patterns.mapM (files.expand) = .ok selected
      ∧ Covers files { grammar := .ofToken request.token } selected.flatten notices report
      ∧ (runCourse files request).notices = notices ++ [.finished report] := by
  obtain ⟨grammar, hgrammar, hrest, hn⟩ := Course.andThen_ok h
  obtain ⟨r, hr, hend, hn'⟩ := Course.andThen_ok hrest
  obtain ⟨selected, hselected, hcovers⟩ := Covers.patterns hr
  cases hgrammar
  cases hend
  refine ⟨selected, _, hselected, hcovers, ?_⟩
  rw [runCourse, hn, hn', resolveCourse_notices, List.nil_append]
  rfl

/-- The failures that a run adds to an empty list are none just when all files pass. -/
theorem Covers.exitCode {files : Access Id} {grammar : Grammar} {report : Report}
    {paths : List (List UInt8)} {notices : List Notice}
    (h : Covers files { grammar } paths notices report) :
    report.exitCode = 0 ↔ ∀ path ∈ paths, files.verdictOf grammar path = .pass := by
  rw [Report.exitCode_eq_zero_iff, h.failures, List.nil_append, List.map_eq_nil_iff,
    List.filter_eq_nil_iff]
  refine forall₂_congr fun path _ => ?_
  cases files.verdictOf grammar path <;> simp [Verdict.isPass]

/-- **A run that succeeds tells of every selected file, and then of the end.** The reporter is called
once for each path that the patterns select, in their order and as often as they select it, with what
the verdict on the text at the path is; the last call is the end. The report counts the paths and
collects those that failed, its status is `0` just when none did, and no run over the same files with
another log and another reporter that never fails ends with another report. -/
theorem told_of_check {σ : Type} (t : Tree) (current : Place) (request : CheckRequest)
    (log : Event → StateM σ Unit) (reporter : Reporter (StateM σ)) {s s' : σ} {report : Report}
    (h : runFrom ((Host.ofTree t current log).check reporter request) s = (.ok report, s')) :
    let grammar := Grammar.ofToken request.token
    ∃ (selected : List (List (List UInt8))) (text : List UInt8 → String) (told : List Notice),
      request.patterns.mapM (t.expand current) = .ok selected
      ∧ (∀ path ∈ selected.flatten, t.textAt current path = .ok (text path))
      ∧ runFrom ((Host.ofTree t current (heardLog log)).check reporter.heard request) ([], s)
          = (.ok report, told, s')
      ∧ told = (selected.flatten.map fun path =>
            if validate (text path) grammar = .pass then Notice.passed (.ofBytes path) grammar
            else Notice.failed (.ofBytes path) grammar)
          ++ [.finished report]
      ∧ report.grammar = grammar
      ∧ report.checked = selected.flatten.length
      ∧ report.failures
          = (selected.flatten.filter fun path => validate (text path) grammar ≠ .pass).map .ofBytes
      ∧ (report.exitCode = 0 ↔ ∀ path ∈ selected.flatten, validate (text path) grammar = .pass)
      ∧ ∀ {τ : Type} (log' : Event → StateM τ Unit) (reporter' : Reporter (StateM τ)) (u : τ),
          reporter'.Reliable →
            (runFrom ((Host.ofTree t current log').check reporter' request) u).1 = .ok report := by
  intro grammar
  rw [check_eq_follow] at h
  obtain ⟨houtcome, hheard⟩ := Course.follow_heard h
  obtain ⟨selected, notices, hselected, hcovers, hn⟩ := runCourse_of_ok houtcome
  have hpass (verdict : Verdict) : verdict.isPass = decide (verdict = .pass) := by
    cases verdict <;> rfl
  refine ⟨selected, (t.access current).textOf, notices ++ [.finished report], hselected, ?_, ?_, ?_,
    hcovers.grammar, ?_, ?_, hcovers.exitCode, ?_⟩
  · exact fun path hp => (textAt_access t current path).symm.trans (hcovers.readable path hp)
  · rw [check_eq_follow, hheard, hn]
  · rw [hcovers.notices]
    refine congrArg (· ++ [Notice.finished report]) (List.map_congr_left fun path _ => ?_)
    rw [verdictNotice, hpass, Access.verdictOf]
    exact ite_congr (by rw [decide_eq_true_iff]) (fun _ => rfl) fun _ => rfl
  · rw [hcovers.checked, Nat.zero_add]
  · rw [hcovers.failures, List.nil_append]
    refine congrArg (List.map _) (List.filter_congr fun path _ => ?_)
    rw [hpass, Access.verdictOf, decide_not]
  · intro τ log' reporter' u hreliable
    rw [check_eq_follow]
    exact (Course.follow_of_reliable hreliable _ u).trans houtcome

/-- Two patterns for a file that fails and one for a file that passes: three calls, then the end. -/
theorem told_of_check_overlapping :
    let files : Tree := ⟨[
      ([Utf8.encode "a.js".toList], .file [118, 97, 114, 32, 97, 59]),
      ([Utf8.encode "b.js".toList], .file [99, 111, 110, 115, 116, 32, 120, 61, 49])]⟩
    let request : CheckRequest := ⟨"ecma5", ["b.js", "a.js", "b.js"]⟩
    let report : Report := ⟨.v5, 3, [.text "b.js".toList, .text "b.js".toList]⟩
    let run := runFrom ((Host.ofTree files [] fun _ => (pure () : StateM Unit Unit)).check
      (fun _ => pure ()) request) ()
    run = (.ok report, ()) ∧ ∃ told : List Notice,
      runFrom ((Host.ofTree files [] (heardLog fun _ => (pure () : StateM Unit Unit))).check
        (Reporter.heard fun _ => pure ()) request) ([], ()) = (.ok report, told, ())
      ∧ told.length = 4 ∧ told.getLast? = some (.finished report) := by
  intro files request report run
  have hread : run.1.toOption = some report := by decide +kernel
  have hrun : run = (.ok report, ()) := by
    obtain ⟨r, u⟩ := run
    cases r with
    | ok r => rw [Option.some.inj hread]
    | error e => cases hread
  obtain ⟨selected, text, told, hselected, -, hheard, htold, -, hchecked, -⟩ :=
    told_of_check files [] request _ _ hrun
  have hlength : selected.flatten.length = 3 := hchecked.symm
  refine ⟨hrun, told, hheard, ?_, ?_⟩
  · rw [htold, List.length_append, List.length_map, hlength]
    rfl
  · rw [htold, List.getLast?_concat]

end EditionCheck
