import EditionCheck.Proofs.Run

/-!
# The stages of a run

What can end a run is expanding a pattern, reading a file, and telling the reporter. The files and the
request fix these stages and their order: every pattern is expanded to its end before its first file is
read, every file is told of before the next one is read, and the end is told last.

* `Course.Meets` — a course ends at the first stage that fails by itself, and tells what the stages in
  front of it tell; `Course.Meets.andThen` and `Course.Meets.along` put courses together;
* `eq_fullReport` — the report of a run that gets to its end is on all that its patterns select;
* `meets_runCourse` — the course of a run meets the stages of its request.
-/

set_option autoImplicit false

namespace EditionCheck

open EditionCheck.Files EditionCheck.Glob EditionCheck.Log

/-! ## Stages -/

/-- A step at which a run can end. -/
inductive Stage where
  /-- Expanding a pattern. -/
  | expand (pattern : String)
  /-- Reading the text of a file. -/
  | read (path : List UInt8)
  /-- Telling the reporter. -/
  | tell (n : Notice)
  deriving DecidableEq

namespace Stage

/-- The notice of a stage that has one. -/
def notice? : Stage → Option Notice
  | tell n => some n
  | _ => none

/-- Why a stage fails by itself. Telling does not: that is up to the reporter. -/
def fault? (files : Access Id) : Stage → Option Obstacle
  | expand pattern =>
    match files.expand pattern with
    | .ok _ => none
    | .error e => some e
  | read path =>
    match files.textAt path with
    | .ok _ => none
    | .error fault => some (.unreadable path fault)
  | tell _ => none

/-- The notices of some stages. -/
def notices (stages : List Stage) : List Notice := stages.filterMap notice?

theorem notices_append (a b : List Stage) : notices (a ++ b) = notices a ++ notices b :=
  List.filterMap_append

/-- No stage fails by itself. -/
def Sound (files : Access Id) (stages : List Stage) : Prop :=
  ∀ stage ∈ stages, stage.fault? files = none

variable {files : Access Id} {a b : List Stage}

theorem Sound.nil : Sound files [] := fun _ h => absurd h List.not_mem_nil

theorem Sound.cons {stage : Stage} (hs : stage.fault? files = none) (ha : Sound files a) :
    Sound files (stage :: a) :=
  List.forall_mem_cons.2 ⟨hs, ha⟩

theorem Sound.append (ha : Sound files a) (hb : Sound files b) : Sound files (a ++ b) :=
  List.forall_mem_append.2 ⟨ha, hb⟩

theorem Sound.left (h : Sound files (a ++ b)) : Sound files a := (List.forall_mem_append.1 h).1

/-- A stage among others that do not fail by themselves does not fail by itself. -/
theorem Sound.fault?_ne (h : Sound files a) {before after : List Stage} {stage : Stage}
    (hsplit : a = before ++ stage :: after) (e : Obstacle) : stage.fault? files ≠ some e := by
  intro hfault
  have hmem : stage ∈ a := by
    rw [hsplit]
    exact List.mem_append_right _ List.mem_cons_self
  rw [h stage hmem] at hfault
  cases hfault

end Stage

section

variable (files : Access Id)

/-- The paths that a pattern selects, and none if it cannot be expanded. -/
def Files.Access.selected (pattern : String) : List (List UInt8) :=
  match files.expand pattern with
  | .ok paths => paths
  | .error _ => []

/-- The stages of a file. -/
def fileStages (grammar : Grammar) (path : List UInt8) : List Stage :=
  [.read path, .tell (verdictNotice grammar path (files.verdictOf grammar path))]

/-- The stages of a pattern: it is expanded before its files are read. -/
def patternStages (grammar : Grammar) (pattern : String) : List Stage :=
  .expand pattern :: (files.selected pattern).flatMap (fileStages files grammar)

/-- The report on all that the patterns of a request select. -/
def fullReport (request : CheckRequest) : Report :=
  let grammar := Grammar.ofToken request.token
  let paths := request.patterns.flatMap files.selected
  { grammar
    checked := paths.length
    failures := (paths.filter fun path => !(files.verdictOf grammar path).isPass).map .ofBytes }

/-- The stages of a run. -/
def runStages (request : CheckRequest) : List Stage :=
  request.patterns.flatMap (patternStages files (.ofToken request.token))
    ++ [.tell (.finished (fullReport files request))]

end

/-! ## The course of a run along its stages -/

/-- A course runs along stages: it ends at the first of them that fails by itself, and tells what the
stages in front of that one tell. -/
inductive Course.Meets {α : Type} (files : Access Id) (c : Course α) (stages : List Stage) : Prop
  | through (a : α) (outcome : c.outcome = .ok a) (sound : Stage.Sound files stages)
      (notices : c.notices = Stage.notices stages)
  | stopped (e : Obstacle) (before : List Stage) (stage : Stage) (after : List Stage)
      (outcome : c.outcome = .error e) (split : stages = before ++ stage :: after)
      (sound : Stage.Sound files before) (fault : stage.fault? files = some e)
      (notices : c.notices = Stage.notices before)

namespace Course.Meets

variable {α β : Type} {files : Access Id}

theorem andThen {c : Course α} {k : α → Course β} {stages others : List Stage}
    (hc : c.Meets files stages) (hk : ∀ a, c.outcome = .ok a → (k a).Meets files others) :
    (c.andThen k).Meets files (stages ++ others) := by
  obtain ⟨deeds, outcome⟩ := c
  cases hc with
  | through a houtcome hsound hn =>
    cases houtcome
    have hnotices : ((⟨deeds, .ok a⟩ : Course α).andThen k).notices
        = Stage.notices stages ++ (k a).notices := by
      rw [← hn]
      exact List.filterMap_append
    cases hk a rfl with
    | through b hb hsound' hn' =>
      refine .through b hb (hsound.append hsound') ?_
      rw [hnotices, hn', Stage.notices_append]
    | stopped e before stage after hb hstages hsound' hfault hn' =>
      refine .stopped e (stages ++ before) stage after hb ?_ (hsound.append hsound') hfault ?_
      · rw [hstages, List.append_assoc]
      · rw [hnotices, hn', Stage.notices_append]
  | stopped e before stage after houtcome hstages hsound hfault hn =>
    cases houtcome
    refine .stopped e before stage (after ++ others) rfl ?_ hsound hfault hn
    rw [hstages, List.append_assoc, List.cons_append]

/-- Courses along a list meet the stages of its members, if each meets its own wherever the ones in
front of it lead. -/
theorem along {γ : Type} {step : α → γ → Course α} {stagesOf : γ → List Stage} {P : α → Prop}
    (hstep : ∀ a x, P a → (step a x).Meets files (stagesOf x))
    (hkept : ∀ a x b, P a → (step a x).outcome = .ok b → P b)
    (xs : List γ) {a : α} (ha : P a) :
    (Course.along step a xs).Meets files (xs.flatMap stagesOf) := by
  induction xs generalizing a with
  | nil => exact .through a rfl .nil rfl
  | cons x xs ih =>
    rw [Course.along, List.flatMap_cons]
    exact (hstep a x ha).andThen fun b hb => ih (hkept a x b ha hb)

end Course.Meets

section

variable (files : Access Id)

theorem meets_resolveCourse (token : String) : (resolveCourse token).Meets files [] := by
  exact .through (.ofToken token) rfl .nil (resolveCourse_notices token)

theorem meets_expandCourse (pattern : String) :
    (expandCourse files pattern).Meets files [.expand pattern] := by
  have houtcome := expandCourse_outcome files pattern
  have hn := expandCourse_notices files pattern
  cases h : files.expand pattern with
  | ok paths =>
    refine .through paths (houtcome.trans h) (.cons ?_ .nil) hn
    rw [Stage.fault?, h]
  | error e =>
    refine .stopped e [] (.expand pattern) [] (houtcome.trans h) rfl
      .nil ?_ hn
    rw [Stage.fault?, h]

theorem meets_fileCourse (report : Report) (path : List UInt8) :
    (fileCourse files report path).Meets files (fileStages files report.grammar path) := by
  unfold fileCourse
  cases h : files.textAt path with
  | error fault =>
    refine .stopped _ [] (.read path) _ rfl rfl .nil ?_ rfl
    rw [Stage.fault?, h]
  | ok text =>
    refine .through _ rfl (.cons ?_ (.cons rfl .nil)) ?_
    · rw [Stage.fault?, h]
    · have hverdict : files.verdictOf report.grammar path = validate text report.grammar := by
        rw [Access.verdictOf, files.textOf_of_ok h]
      rw [fileStages, hverdict, validate]
      exact notices_findingDeeds _ _ _

theorem meets_patternCourse (report : Report) (pattern : String) :
    (patternCourse files report pattern).Meets files (patternStages files report.grammar pattern) := by
  refine (meets_expandCourse files pattern).andThen fun paths hpaths => ?_
  have hselected : files.selected pattern = paths := by
    rw [Access.selected, ← expandCourse_outcome, hpaths]
  rw [hselected]
  refine .along (P := fun r : Report => r.grammar = report.grammar) ?_ ?_ paths rfl
  · rintro r path hr
    rw [← hr]
    exact meets_fileCourse files r path
  · intro r path r' hr h
    exact (Covers.file h).grammar.trans hr

/-- What all patterns select is what each of them does. -/
theorem Files.Access.flatten_of_mapM {patterns : List String} {selected : List (List (List UInt8))}
    (h : patterns.mapM files.expand = .ok selected) :
    selected.flatten = patterns.flatMap files.selected := by
  induction patterns generalizing selected with
  | nil =>
    cases h
    rfl
  | cons p ps ih =>
    rw [List.mapM_cons] at h
    cases hp : files.expand p with
    | error e =>
      rw [hp] at h
      cases h
    | ok paths =>
      cases hps : ps.mapM files.expand with
      | error e =>
        rw [hp, hps] at h
        cases h
      | ok rest =>
        rw [hp, hps] at h
        cases h
        rw [List.flatten_cons, List.flatMap_cons, ih hps, Access.selected, hp]

/-- The report of a run that gets to its end is the full one. -/
theorem eq_fullReport {token : String} {patterns : List String} {report : Report}
    (h : (Course.along (patternCourse files) { grammar := .ofToken token } patterns).outcome
      = .ok report) :
    report = fullReport files ⟨token, patterns⟩ := by
  obtain ⟨selected, hselected, hcovers⟩ := Covers.patterns h
  have hflat := files.flatten_of_mapM hselected
  obtain ⟨grammar, checked, failures⟩ := report
  have hg : grammar = _ := hcovers.grammar
  have hc : checked = _ := hcovers.checked
  have hf : failures = _ := hcovers.failures
  rw [hg, hc, hf, hflat, fullReport, Nat.zero_add, List.nil_append]

/-- **The course of a run meets the stages of its request.** -/
theorem meets_runCourse (request : CheckRequest) :
    (runCourse files request).Meets files (runStages files request) := by
  refine (meets_resolveCourse files request.token).andThen fun grammar hgrammar => ?_
  cases hgrammar
  have hpatterns := Course.Meets.along
    (P := fun r : Report => r.grammar = .ofToken request.token)
    (fun r p hr => hr ▸ meets_patternCourse files r p)
    (fun r p r' hr h => by
      obtain ⟨_, _, hcovers⟩ := Covers.pattern h
      exact hcovers.grammar.trans hr)
    request.patterns (a := { grammar := .ofToken request.token }) rfl
  refine hpatterns.andThen fun report hreport => ?_
  rw [← eq_fullReport files hreport]
  exact .through report rfl (.cons rfl .nil) rfl

end

end EditionCheck
