import EditionCheck.Proofs.ConsoleOutput

/-!
# Streams that refuse

What a run does whose streams refuse what they are given: one of them, both, or none. A run is watched
from call to call and from write to write, and compared with the same run over streams that take
everything. Such a run may still fail by itself at its end, where a path that is no text stands in JSON.

* `Attempts` — a computation goes through given calls and writes, and ends at the first write that is
  refused, or by itself behind all of them; `Attempts.bind` puts two of them together;
* `attempts_writePieces`, `attempts_watched`, `attempts_performAll` — so do the pieces of a notice, a
  notice, and all deeds of a run;
* `printsOn_run` — which channels a run writes to, over all its notices;
* `broken_streams` — a run fails to print just when it has to write to a channel that refuses, or fails by
  itself, and what is called and written by then is what the whole run calls and writes in front of that
  place;
* `failing_without_refusal` — so a run can fail to print though no channel refuses.
-/

set_option autoImplicit false

namespace EditionCheck

open EditionCheck.Files EditionCheck.Log EditionCheck.Text

/-! ## Calls and writes -/

/-- Something that a run does in sight of its reporter: a call to it, or an attempt to write. -/
inductive Act where
  | call (n : Notice)
  | write (channel : Channel) (text : String)
  deriving DecidableEq

/-- The piece that an act tries to write. -/
def Act.piece? : Act → Option (Channel × String)
  | call _ => none
  | write channel text => some (channel, text)

/-- The pieces of some acts. -/
def written (acts : List Act) : List (Channel × String) := acts.filterMap Act.piece?

theorem written_append (a b : List Act) : written (a ++ b) = written a ++ written b :=
  List.filterMap_append

theorem written_map (pieces : List (Channel × String)) :
    written (pieces.map fun piece => .write piece.1 piece.2) = pieces := by
  induction pieces with
  | nil => rfl
  | cons piece pieces ih => exact congrArg (piece :: ·) ih

theorem mem_written {channel : Channel} {text : String} {acts : List Act} :
    (channel, text) ∈ written acts ↔ .write channel text ∈ acts := by
  rw [written, List.mem_filterMap]
  constructor
  · rintro ⟨act, hact, hpiece⟩
    cases act with
    | call n => cases hpiece
    | write c t =>
      cases hpiece
      exact hact
  · exact fun h => ⟨_, h, rfl⟩

/-- A log beside which calls and writes are noted. -/
def watchedLog {σ : Type} (log : Event → StateM σ Unit) (e : Event) :
    StateM (List Act × σ × Streams) Unit :=
  fun s => ((), s.1, (logBeside log e s.2).2)

/-- Writes a text, and notes the attempt. -/
def Streams.writeWatched {σ : Type} (channel : Channel) (text : String) :
    ExceptT Fault (StateM (List Act × σ × Streams)) Unit :=
  ExceptT.mk fun s =>
    let r := (writeBeside channel text).run.run s.2
    (r.1, s.1 ++ [.write channel text], r.2)

namespace Style

/-- The reporter that prints notices, with every call to it and every write noted. -/
def watched {σ : Type} (style : Style) : Reporter (StateM (List Act × σ × Streams)) := fun n =>
  ExceptT.mk fun s => (style.reporter Streams.writeWatched n).run.run (s.1 ++ [.call n], s.2)

/-- The call for a notice and the writes of its pieces. -/
def acts (style : Style) (n : Notice) : List Act :=
  .call n :: (style.printed n).pieces.map fun piece => .write piece.1 piece.2

theorem written_acts (style : Style) (notices : List Notice) :
    written (notices.flatMap style.acts) = style.pieces notices := by
  induction notices with
  | nil => rfl
  | cons n notices ih =>
    have hone : written (style.acts n) = (style.printed n).pieces := written_map _
    rw [List.flatMap_cons, written_append, hone, ih]
    rfl

end Style

/-! ## The first write that is refused -/

section

variable {refusal : Channel → Option Fault} {whole a b front last : List Act} {fault? : Option Fault}

/-- None of the writes among some acts is refused. -/
def Taken (refusal : Channel → Option Fault) (acts : List Act) : Prop :=
  ∀ channel text, .write channel text ∈ acts → refusal channel = none

/-- How far some acts get: all of them are gone through, or those in front of the first write that is
refused, which is then the last. -/
inductive Cut (refusal : Channel → Option Fault) (whole : List Act) :
    Option Fault → List Act → List Act → Prop
  | all : Taken refusal whole → Cut refusal whole none whole []
  | refused (fault : Fault) (front : List Act) (channel : Channel) (text : String)
      (back : List Act) (split : whole = front ++ .write channel text :: back)
      (taken : Taken refusal front) (refuses : refusal channel = some fault) :
      Cut refusal whole (some fault) front [.write channel text]

theorem Taken.nil : Taken refusal [] := fun _ _ h => absurd h List.not_mem_nil

theorem Taken.append (ha : Taken refusal a) (hb : Taken refusal b) : Taken refusal (a ++ b) := by
  intro channel text h
  rcases List.mem_append.1 h with h | h
  · exact ha channel text h
  · exact hb channel text h

/-- Acts in front of which everything is taken are cut where they are by themselves. -/
theorem Cut.behind (h : Cut refusal b fault? front last) (ha : Taken refusal a) :
    Cut refusal (a ++ b) fault? (a ++ front) last := by
  cases h with
  | all hb => exact .all (ha.append hb)
  | refused fault front channel text back hsplit htaken hrefuses =>
    refine .refused fault (a ++ front) channel text back ?_ (ha.append htaken) hrefuses
    rw [hsplit, List.append_assoc]

/-- What follows a write that is refused does not matter. -/
theorem Cut.before {fault : Fault} (h : Cut refusal a (some fault) front last) (b : List Act) :
    Cut refusal (a ++ b) (some fault) front last := by
  cases h with
  | refused _ _ channel text back hsplit htaken hrefuses =>
    refine .refused fault front channel text (back ++ b) ?_ htaken hrefuses
    rw [hsplit, List.append_assoc, List.cons_append]

/-- Acts without a fault are all gone through. -/
theorem Cut.eq_whole (h : Cut refusal whole none front last) :
    Taken refusal whole ∧ front = whole ∧ last = [] := by
  cases h with
  | all htaken => exact ⟨htaken, rfl, rfl⟩

/-- Where no channel refuses, nothing is cut. -/
theorem Cut.of_working (h : Cut (fun _ => none) whole fault? front last) : fault? = none := by
  cases h with
  | all => rfl
  | refused fault front channel text back hsplit htaken hrefuses => cases hrefuses

/-- Acts are cut just when a channel that they write to refuses. -/
theorem Cut.isSome_iff (h : Cut refusal whole fault? front last) :
    fault?.isSome ↔ ∃ channel, (refusal channel).isSome ∧ ∃ text, .write channel text ∈ whole := by
  cases h with
  | all htaken =>
    refine iff_of_false Bool.false_ne_true ?_
    rintro ⟨channel, hrefuses, text, hmem⟩
    rw [htaken channel text hmem] at hrefuses
    cases hrefuses
  | refused fault front channel text back hsplit htaken hrefuses =>
    refine iff_of_true rfl ⟨channel, ?_, text, ?_⟩
    · rw [hrefuses]
      rfl
    · rw [hsplit]
      exact List.mem_append_right _ List.mem_cons_self

end

/-! ## Computations that can be cut -/

/-- A computation, watched and unwatched, goes through some calls and writes up to the first write that
is refused. What is taken by then is put behind what the streams hold. If nothing is refused, it may still
end with a fault of its own. -/
def Attempts {ε σ : Type} (refusal : Channel → Option Fault) (wrap : Fault → ε)
    (watched : ExceptT ε (StateM (List Act × σ × Streams)) Unit)
    (plain : ExceptT ε (StateM (σ × Streams)) Unit) (whole : List Act) (own : Option Fault) : Prop :=
  ∀ (seen : List Act) (l : σ) (s : Streams), s.refusal = refusal →
    ∃ fault? front last l', Cut refusal whole fault? front last
      ∧ watched.run.run (seen, l, s)
          = (endingWith wrap (fault?.or own), seen ++ (front ++ last), l', s.print (written front))
      ∧ plain.run.run (l, s) = (endingWith wrap (fault?.or own), l', s.print (written front))

section

variable {ε ε' σ : Type} {refusal : Channel → Option Fault} {wrap : Fault → ε}
  {x x' : ExceptT ε (StateM (List Act × σ × Streams)) Unit}
  {y y' : ExceptT ε (StateM (σ × Streams)) Unit} {a b : List Act} {own own' : Option Fault}

/-- A computation that calls and writes nothing. -/
theorem attempts_nil
    (hx : ∀ s, x.run.run s = (endingWith wrap own, s)) (hy : ∀ s, y.run.run s = (endingWith wrap own, s)) :
    Attempts refusal wrap x y [] own := by
  intro seen l s _
  refine ⟨none, [], [], l, .all .nil, ?_, ?_⟩
  · rw [List.append_nil, List.append_nil, written, List.filterMap_nil, s.print_nil]
    exact hx _
  · rw [written, List.filterMap_nil, s.print_nil]
    exact hy _

/-- **One computation after the other goes through the acts of both**, and through those of the first
alone if it is cut. If the first has a fault of its own, there must be nothing behind it. -/
theorem Attempts.bind (h : Attempts refusal wrap x y a own) (h' : Attempts refusal wrap x' y' b own')
    (hend : own.isSome → b = []) :
    Attempts refusal wrap (x >>= fun _ => x') (y >>= fun _ => y') (a ++ b) (own.or own') := by
  intro seen l s hs
  obtain ⟨fault?, front, last, l₁, hcut, hx, hy⟩ := h seen l s hs
  rw [ExceptT.run_bind, StateT.run_bind, hx, ExceptT.run_bind, StateT.run_bind, hy]
  -- the second computation is come to only if the first does not fail
  cases fault? with
  | some fault => exact ⟨some fault, front, last, l₁, hcut.before b, rfl, rfl⟩
  | none =>
    cases own with
    | some fault =>
      rw [hend rfl, List.append_nil]
      exact ⟨none, front, last, l₁, hcut, rfl, rfl⟩
    | none =>
      obtain ⟨htaken, rfl, rfl⟩ := hcut.eq_whole
      obtain ⟨fault?, front', last, l₂, hcut, hx', hy'⟩ := h' (seen ++ (front ++ [])) l₁
        (s.print (written front)) hs
      refine ⟨fault?, front ++ front', last, l₂, hcut.behind htaken, ?_, ?_⟩
      · rw [written_append, s.print_append]
        refine hx'.trans ?_
        simp only [List.append_nil, List.append_assoc, Option.none_or]
      · rw [written_append, s.print_append]
        exact hy'

theorem Attempts.adapt (h : Attempts refusal wrap x y a own) (f : ε → ε') :
    Attempts refusal (f ∘ wrap) (ExceptT.adapt f x) (ExceptT.adapt f y) a own := by
  intro seen l s hs
  obtain ⟨fault?, front, last, l', hcut, hx, hy⟩ := h seen l s hs
  have hend : (endingWith wrap (fault?.or own)).mapError f = endingWith (f ∘ wrap) (fault?.or own) := by
    cases fault?.or own <;> rfl
  refine ⟨fault?, front, last, l', hcut, ?_, ?_⟩ <;> rw [← hend]
  · exact congrArg (fun r : Except ε Unit × List Act × σ × Streams => (r.1.mapError f, r.2)) hx
  · exact congrArg (fun r : Except ε Unit × σ × Streams => (r.1.mapError f, r.2)) hy

end

section

variable {σ : Type} (refusal : Channel → Option Fault)

/-- One write is taken, or it is refused. -/
theorem attempts_write (channel : Channel) (text : String) :
    Attempts (σ := σ) refusal id (Streams.writeWatched channel text) (Streams.writeBeside channel text)
      [.write channel text] none := by
  intro seen l s hs
  have hchannel : s.refusal channel = refusal channel := congrFun hs channel
  cases hrefuses : refusal channel with
  | none =>
    have hwrite := Streams.write_of_refusal_none text (hchannel.trans hrefuses)
    rw [s.append_eq_print (channel, text)] at hwrite
    have htaken : Taken refusal [.write channel text] := by
      intro c t hmem
      cases List.mem_singleton.1 hmem
      exact hrefuses
    refine ⟨none, _, [], l, .all htaken, ?_, ?_⟩
    · exact congrArg (fun r : Except Fault Unit × Streams =>
        (r.1, seen ++ [Act.write channel text], l, r.2)) hwrite
    · exact congrArg (fun r : Except Fault Unit × Streams => (r.1, l, r.2)) hwrite
  | some fault =>
    have hwrite := Streams.write_of_refusal_some text (hchannel.trans hrefuses)
    refine ⟨some fault, [], _, l, .refused fault [] channel text [] rfl .nil hrefuses, ?_, ?_⟩
    · rw [written, List.filterMap_nil, s.print_nil]
      exact congrArg (fun r : Except Fault Unit × Streams =>
        (r.1, seen ++ [Act.write channel text], l, r.2)) hwrite
    · rw [written, List.filterMap_nil, s.print_nil]
      exact congrArg (fun r : Except Fault Unit × Streams => (r.1, l, r.2)) hwrite

theorem attempts_writePieces (pieces : List (Channel × String)) :
    Attempts (σ := σ) refusal id (Style.writePieces Streams.writeWatched pieces)
      (Style.writePieces Streams.writeBeside pieces)
      (pieces.map fun piece => .write piece.1 piece.2) none := by
  induction pieces with
  | nil => exact attempts_nil (fun _ => rfl) fun _ => rfl
  | cons piece pieces ih =>
    exact (attempts_write refusal piece.1 piece.2).bind ih fun hsome => absurd hsome Bool.false_ne_true

variable (log : Event → StateM σ Unit) (style : Style)

/-- A notice is a call and the writes of its pieces. -/
theorem attempts_watched (n : Notice) :
    Attempts (σ := σ) refusal Obstacle.output (style.watched n) (style.reporter Streams.writeBeside n)
      (style.acts n) (style.printed n).fault := by
  have hpieces : Attempts (σ := σ) refusal Obstacle.output (style.reporter Streams.writeWatched n)
      (style.reporter Streams.writeBeside n)
      ((style.printed n).pieces.map fun piece => .write piece.1 piece.2) (style.printed n).fault := by
    rw [← List.append_nil (List.map _ _), ← Option.none_or (o := (style.printed n).fault)]
    refine ((attempts_writePieces refusal (style.printed n).pieces).bind ?_ nofun).adapt Obstacle.output
    cases (style.printed n).fault with
    | none => exact attempts_nil (fun _ => rfl) fun _ => rfl
    | some fault => exact attempts_nil (fun _ => rfl) fun _ => rfl
  intro seen l s hs
  -- the call is noted in front of the pieces, and it is no write that could be refused
  obtain ⟨fault?, front, last, l', hcut, hwatched, hplain⟩ := hpieces (seen ++ [.call n]) l s hs
  have hcall : Taken refusal [.call n] := by
    intro channel text hmem
    cases List.mem_singleton.1 hmem
  refine ⟨fault?, .call n :: front, last, l', hcut.behind hcall, ?_, hplain⟩
  refine hwatched.trans ?_
  simp only [List.append_assoc, List.singleton_append]
  rfl

/-- **Deeds are the calls and writes of their notices**, and have the fault among them. -/
theorem attempts_performAll (ds : List Deed)
    (hlast : style.FaultsLast (ds.filterMap Deed.notice?)) :
    Attempts (σ := σ) refusal Obstacle.output
      (Course.performAll (watchedLog log) style.watched ds)
      (Course.performAll (logBeside log) (style.reporter Streams.writeBeside) ds)
      ((ds.filterMap Deed.notice?).flatMap style.acts) (style.fault? (ds.filterMap Deed.notice?)) := by
  induction ds with
  | nil => exact attempts_nil (fun _ => rfl) fun _ => rfl
  | cons d ds ih =>
    cases d with
    | log e =>
      intro seen l s hs
      exact ih hlast seen (log e l).2 s hs
    | tell n =>
      obtain ⟨hend, hrest⟩ := hlast
      have htold : (Deed.tell n :: ds).filterMap Deed.notice? = n :: ds.filterMap Deed.notice? := rfl
      rw [htold, style.fault?_cons, List.flatMap_cons]
      refine (attempts_watched refusal style n).bind (ih hrest) fun hfault => ?_
      rw [hend hfault, List.flatMap_nil]

end

/-! ## Whole runs -/

section

variable {σ : Type} (files : Access Id) (request : CheckRequest) (log : Event → StateM σ Unit)
  (style : Style) (refusal : Channel → Option Fault) (l : σ)

/-- A run over streams that may refuse, watched. -/
def watchedRun : Except Obstacle Report × List Act × σ × Streams :=
  runFrom ((Host.over files (watchedLog log)).check style.watched request) ([], l, { refusal })

/-- A run over streams that may refuse. -/
def printingRun : Except Obstacle Report × σ × Streams :=
  runFrom ((Host.over files (logBeside log)).check (style.reporter Streams.writeBeside) request)
    (l, { refusal })

/-- A run goes through the calls and writes of its notices. -/
theorem check_attempts :
    let notices := (runCourse files request).notices
    ∃ fault? front last l', Cut refusal (notices.flatMap style.acts) fault? front last
      ∧ watchedRun files request log style refusal l
          = ((endingWith Obstacle.output (fault?.or (style.fault? notices))).bind
                fun _ => (runCourse files request).outcome,
              front ++ last, l', Streams.print { refusal } (written front))
      ∧ printingRun files request log style refusal l
          = ((endingWith Obstacle.output (fault?.or (style.fault? notices))).bind
                fun _ => (runCourse files request).outcome,
              l', Streams.print { refusal } (written front)) := by
  intro notices
  have hnotices : (runCourse files request).deeds.filterMap Deed.notice? = notices := rfl
  have hdeeds := attempts_performAll refusal log style (runCourse files request).deeds
    (faultsLast_runCourse files request style)
  rw [hnotices] at hdeeds
  obtain ⟨fault?, front, last, l', hcut, hwatched, hplain⟩ := hdeeds [] l { refusal } rfl
  refine ⟨fault?, front, last, l', hcut, ?_, ?_⟩
  · rw [watchedRun, check_over_eq_follow, Course.follow, runFrom_bind, runFrom, hwatched]
    cases fault?.or (style.fault? notices) <;> rfl
  · rw [printingRun, check_over_eq_follow, Course.follow, runFrom_bind, runFrom, hplain]
    cases fault?.or (style.fault? notices) <;> rfl

end

/-! ## Which channels a run writes to -/

section

variable {files : Access Id} {grammar : Grammar} {style : Style} {paths : List (List UInt8)}

/-- Some notices print something on a channel. -/
def Style.PrintsOn (style : Style) (channel : Channel) (notices : List Notice) : Prop :=
  ∃ text, (channel, text) ∈ style.pieces notices

theorem printsOn_singleton {channel : Channel} {n : Notice} :
    style.PrintsOn channel [n] ↔ ∃ text, (channel, text) ∈ (style.printed n).pieces := by
  rw [Style.PrintsOn, Style.pieces_singleton]

theorem printsOn_iff_exists {channel : Channel} {notices : List Notice} :
    style.PrintsOn channel notices ↔ ∃ n ∈ notices, style.PrintsOn channel [n] := by
  constructor
  · rintro ⟨text, htext⟩
    obtain ⟨n, hn, htext⟩ := List.mem_flatMap.1 htext
    exact ⟨n, hn, printsOn_singleton.2 ⟨text, htext⟩⟩
  · rintro ⟨n, hn, hprints⟩
    obtain ⟨text, htext⟩ := printsOn_singleton.1 hprints
    exact ⟨text, List.mem_flatMap.2 ⟨n, hn, htext⟩⟩

/-- The writes of some notices are those of the pieces that they print. -/
theorem exists_write_iff {channel : Channel} {notices : List Notice} :
    (∃ text, .write channel text ∈ notices.flatMap style.acts) ↔ style.PrintsOn channel notices := by
  simp only [← mem_written, style.written_acts, Style.PrintsOn]

theorem printsOn_append {channel : Channel} {a b : List Notice} :
    style.PrintsOn channel (a ++ b) ↔ style.PrintsOn channel a ∨ style.PrintsOn channel b := by
  simp only [Style.PrintsOn, Style.pieces_append, List.mem_append, exists_or]

/-- A file prints on the output if it passes and all files are to be reported, and on the error output if
it does not pass; in JSON format it prints nothing. -/
theorem printsOn_verdict {channel : Channel} {path : List UInt8} {verdict : Verdict} :
    style.PrintsOn channel [verdictNotice grammar path verdict]
      ↔ style.options.format = .text
        ∧ (channel = .out ∧ style.options.verbose ∧ verdict.isPass
          ∨ channel = .err ∧ verdict.isPass = false) := by
  rw [printsOn_singleton, verdictNotice]
  cases hformat : style.options.format with
  | json => cases verdict.isPass <;> simp [Style.printed, hformat]
  | text =>
    cases verdict.isPass with
    | true => cases hverbose : style.options.verbose <;> simp [Style.printed, hformat, hverbose]
    | false => simp [Style.printed, hformat]

/-- The end of a run prints on the output in JSON format and where nothing fails, and else on the error
output. -/
theorem printsOn_finished {channel : Channel} {report : Report} :
    style.PrintsOn channel [.finished report]
      ↔ channel = .out ∧ (style.options.format = .json
          ∨ style.options.format = .text ∧ report.failures = [])
        ∨ channel = .err ∧ style.options.format = .text ∧ report.failures ≠ [] := by
  rw [printsOn_singleton]
  cases hformat : style.options.format with
  | json => simp [Style.printed, hformat, Style.jsonSummary]
  | text =>
    cases hfailures : report.failures with
    | nil => simp [Style.printed, hformat, Style.textSummary, Report.isSuccess, hfailures]
    | cons path paths =>
      simp only [Style.printed, hformat, Style.textSummary, Report.isSuccess, hfailures]
      constructor
      · rintro ⟨text, htext⟩
        rcases List.mem_cons.1 htext with heq | hlater
        · cases heq
          exact .inr ⟨rfl, trivial, List.cons_ne_nil _ _⟩
        · obtain ⟨failure, -, heq⟩ := List.mem_map.1 hlater
          cases heq
          exact .inr ⟨rfl, trivial, List.cons_ne_nil _ _⟩
      · rintro (⟨-, hjson | ⟨-, hnone⟩⟩ | ⟨rfl, -, -⟩)
        · cases hjson
        · cases hnone
        · exact ⟨_, List.mem_cons_self⟩

theorem passing_ne_nil_iff :
    files.passing grammar paths ≠ [] ↔ ∃ path ∈ paths, (files.verdictOf grammar path).isPass := by
  simp [Files.Access.passing]

theorem failing_ne_nil_iff :
    files.failing grammar paths ≠ []
      ↔ ∃ path ∈ paths, (files.verdictOf grammar path).isPass = false := by
  simp [Files.Access.failing]

theorem printsOn_verdictNotices {channel : Channel} :
    style.PrintsOn channel (verdictNotices files grammar paths)
      ↔ style.options.format = .text
        ∧ (channel = .out ∧ style.options.verbose ∧ files.passing grammar paths ≠ []
          ∨ channel = .err ∧ files.failing grammar paths ≠ []) := by
  rw [passing_ne_nil_iff, failing_ne_nil_iff, printsOn_iff_exists]
  constructor
  · rintro ⟨n, hn, hprints⟩
    obtain ⟨path, hpath, rfl⟩ := List.mem_map.1 hn
    obtain ⟨hformat, ⟨hchannel, hverbose, hpass⟩ | ⟨hchannel, hfail⟩⟩ := printsOn_verdict.1 hprints
    · exact ⟨hformat, .inl ⟨hchannel, hverbose, path, hpath, hpass⟩⟩
    · exact ⟨hformat, .inr ⟨hchannel, path, hpath, hfail⟩⟩
  · rintro ⟨hformat, ⟨hchannel, hverbose, path, hpath, hpass⟩ | ⟨hchannel, path, hpath, hfail⟩⟩
    · refine ⟨_, List.mem_map_of_mem hpath, printsOn_verdict.2 ?_⟩
      exact ⟨hformat, .inl ⟨hchannel, hverbose, hpass⟩⟩
    · refine ⟨_, List.mem_map_of_mem hpath, printsOn_verdict.2 ?_⟩
      exact ⟨hformat, .inr ⟨hchannel, hfail⟩⟩

/-- **Which channels a whole run writes to.** -/
theorem printsOn_run {request : CheckRequest} {channel : Channel} :
    let grammar := Grammar.ofToken request.token
    let checked := request.patterns.flatMap files.selected
    style.PrintsOn channel
        (verdictNotices files grammar checked ++ [.finished (fullReport files request)])
      ↔ channel = .out ∧ (style.options.format = .json
          ∨ style.options.format = .text ∧ files.failing grammar checked = []
          ∨ style.options.format = .text ∧ style.options.verbose
            ∧ files.passing grammar checked ≠ [])
        ∨ channel = .err ∧ style.options.format = .text ∧ files.failing grammar checked ≠ [] := by
  intro grammar checked
  have hfailures : (fullReport files request).failures = [] ↔ files.failing grammar checked = [] := by
    rw [failures_fullReport, List.map_eq_nil_iff]
  rw [printsOn_append, printsOn_verdictNotices, printsOn_finished, ne_eq, ne_eq, hfailures]
  grind

end

/-! ## Runs over streams that refuse -/

/-- A run ends as failing to print just when it has a fault. -/
theorem exists_output_iff {fault? : Option Fault} {report : Report} :
    (∃ fault, (endingWith Obstacle.output fault?).map (fun _ => report) = .error (.output fault))
      ↔ fault?.isSome := by
  cases fault? with
  | none =>
    refine iff_of_false ?_ Bool.false_ne_true
    rintro ⟨fault, h⟩
    cases h
  | some fault => exact iff_of_true ⟨fault, rfl⟩ rfl

/-- A run in this style has to write to a channel that refuses: to the output in JSON format, where no file
fails, or where files that pass are reported and there are some; to the error output in text format where
files fail. -/
def NeedsRefused (files : Access Id) (request : CheckRequest) (style : Style)
    (refusal : Channel → Option Fault) : Prop :=
  let grammar := Grammar.ofToken request.token
  let checked := request.patterns.flatMap files.selected
  (refusal .out).isSome
      ∧ (style.options.format = .json
        ∨ style.options.format = .text ∧ files.failing grammar checked = []
        ∨ style.options.format = .text ∧ style.options.verbose ∧ files.passing grammar checked ≠ [])
    ∨ (refusal .err).isSome ∧ style.options.format = .text ∧ files.failing grammar checked ≠ []

/-- A run in this style has to write a path in JSON that is no text. -/
def NeedsText (files : Access Id) (request : CheckRequest) (style : Style) : Prop :=
  style.options.format = .json
    ∧ ∃ path ∈ files.failing (.ofToken request.token) (request.patterns.flatMap files.selected),
      ¬IsText path

/-- A whole run is cut just when it has to write to a channel that refuses. -/
theorem isSome_cut_iff {files : Access Id} {request : CheckRequest} {style : Style}
    {refusal : Channel → Option Fault} {fault? : Option Fault} {front last : List Act}
    (hcut : Cut refusal
      ((verdictNotices files (.ofToken request.token) (request.patterns.flatMap files.selected)
        ++ [Notice.finished (fullReport files request)]).flatMap style.acts) fault? front last) :
    fault?.isSome ↔ NeedsRefused files request style refusal := by
  rw [hcut.isSome_iff, NeedsRefused]
  simp only [exists_write_iff, printsOn_run]
  constructor
  · rintro ⟨channel, hrefuses, ⟨rfl, hneeded⟩ | ⟨rfl, hneeded⟩⟩
    · exact .inl ⟨hrefuses, hneeded⟩
    · exact .inr ⟨hrefuses, hneeded⟩
  · rintro (⟨hrefuses, hneeded⟩ | ⟨hrefuses, hneeded⟩)
    · exact ⟨.out, hrefuses, .inl ⟨rfl, hneeded⟩⟩
    · exact ⟨.err, hrefuses, .inr ⟨rfl, hneeded⟩⟩

/-- The end of a whole run has a fault just when it has to write a path in JSON that is no text. -/
theorem fault_cases (files : Access Id) (request : CheckRequest) (style : Style) :
    let own := (style.printed (.finished (fullReport files request))).fault
    own = some notTextFault ∧ NeedsText files request style
      ∨ own = none ∧ ¬NeedsText files request style :=
  fault_finished style (.ofToken request.token) (request.patterns.flatMap files.selected).length
    (files.failing (.ofToken request.token) (request.patterns.flatMap files.selected))

/-- **A run fails to print just when it has to write to a channel that refuses, or a path in JSON that is no
text.** Take a run whose patterns can all be expanded and whose files can all be read. Over streams that
take everything it gets to its end after some calls to its reporter and some writes, and fails then only
because of such a path. With channels that refuse, it goes through the same calls and writes up to the first
write that is refused, which is the last thing that is done; the streams then hold what was written in front
of it. Noting calls and writes changes nothing. -/
theorem broken_streams {σ : Type} (files : Access Id) (request : CheckRequest)
    (hread : ¬Unreadable files request) (log : Event → StateM σ Unit) (style : Style)
    (refusal : Channel → Option Fault) (l : σ) :
    let run := watchedRun files request log style refusal l
    printingRun files request log style refusal l = (run.1, run.2.2)
      ∧ ((∃ fault, run.1 = .error (.output fault))
          ↔ NeedsRefused files request style refusal ∨ NeedsText files request style)
      ∧ ∃ own whole l',
          (own = some notTextFault ∧ NeedsText files request style
              ∨ own = none ∧ ¬NeedsText files request style)
            ∧ watchedRun files request log style (fun _ => none) l
              = ((endingWith Obstacle.output own).map fun _ => fullReport files request, whole, l',
                  Streams.print {} (written whole))
            ∧ ∃ fault? front last l'', Cut refusal whole fault? front last
              ∧ run = ((endingWith Obstacle.output (fault?.or own)).map fun _ => fullReport files request,
                  front ++ last, l'', Streams.print { refusal } (written front)) := by
  intro run
  obtain ⟨hok, htold⟩ := told_of_readable hread
  have hattempts (refusal : Channel → Option Fault) := check_attempts files request log style refusal l
  have hend (fault? : Option Fault) :
      ((endingWith Obstacle.output fault?).bind fun _ => .ok (fullReport files request))
        = (endingWith Obstacle.output fault?).map fun _ => fullReport files request := by
    cases fault? <;> rfl
  simp only [hok, htold, hend, style.fault?_append (fault_of_mem_verdictNotices style),
    style.fault?_singleton] at hattempts
  have hown := fault_cases files request style
  generalize (style.printed (.finished (fullReport files request))).fault = own at hattempts hown
  -- the two runs go through the same calls and writes, and only the second can be cut
  obtain ⟨none?, whole, last', l', hall, hwhole, -⟩ := hattempts fun _ => none
  obtain ⟨fault?, front, last, l'', hcut, hrun, hplain⟩ := hattempts refusal
  cases hall.of_working
  obtain ⟨-, rfl, rfl⟩ := hall.eq_whole
  rw [List.append_nil, Option.none_or] at hwhole
  have hrun' : run = _ := hrun
  refine ⟨?_, ?_, own, _, l', hown, hwhole, fault?, front, last, l'', hcut, hrun⟩
  · rw [hplain, hrun']
  · have htext : own.isSome ↔ NeedsText files request style := by
      rcases hown with ⟨rfl, hneeds⟩ | ⟨rfl, hneeds⟩
      · exact iff_of_true rfl hneeds
      · exact iff_of_false Bool.false_ne_true hneeds
    rw [hrun', exists_output_iff, Option.isSome_or, Bool.or_eq_true, isSome_cut_iff hcut, htext]

/-- A file that does not match cannot be reported on an error output that refuses, and the run ends there:
the line for the file in front of it is on the output, and nothing is called after the refused write. -/
theorem broken_streams_error_output :
    let files := Tree.access ⟨[
      ([Utf8.encode "a.js".toList], .file [118, 97, 114, 32, 97, 59]),
      ([Utf8.encode "b.js".toList], .file [99, 111, 110, 115, 116, 32, 120, 61, 49])]⟩ []
    let request : CheckRequest := ⟨"ecma5", ["a.js", "b.js"]⟩
    let refusal : Channel → Option Fault := fun
      | .out => none
      | .err => some (.other "sink closed")
    let style : Style := ⟨⟨true, .text, false⟩, false⟩
    let run := watchedRun files request (fun _ => (pure () : StateM Unit Unit)) style refusal ()
    ¬Unreadable files request ∧ (∃ fault, run.1 = .error (.output fault))
      ∧ run.2.2.2.out = passLine .v5 (Utf8.encode "a.js".toList) := by
  intro files request refusal style run
  have hsound : ∀ stage ∈ runStages files request, stage.fault? files = none := by decide +kernel
  have hread : ¬Unreadable files request := sound_runStages_iff.1 hsound
  obtain ⟨-, hfails, -⟩ := broken_streams files request hread (fun _ => pure ()) style refusal ()
  have hfailing : files.failing .v5 (request.patterns.flatMap files.selected) ≠ [] := by
    decide +kernel
  have hout : run.2.2.2.out = passLine .v5 (Utf8.encode "a.js".toList) := by decide +kernel
  exact ⟨hread, hfails.2 (.inl (.inr ⟨rfl, rfl, hfailing⟩)), hout⟩

/-- A file that fails, in a directory whose name is no text. -/
def unnamedDirectory : Tree := ⟨[
  ([[0xFF]], .directory),
  ([[0xFF], Utf8.encode "a.js".toList], .file [99, 111, 110, 115, 116, 32, 120, 61, 49])]⟩

/-- A run can fail to print though all can be read and no channel refuses. -/
theorem failing_without_refusal :
    ¬ ∀ (t : Tree) (request : CheckRequest) (style : Style) (refusal : Channel → Option Fault),
      ¬Unreadable (t.access []) request →
        ((∃ fault, (printingRun (t.access []) request (fun _ => (pure () : StateM Unit Unit)) style
            refusal ()).1 = .error (.output fault))
          ↔ NeedsRefused (t.access []) request style refusal) := by
  intro hall
  let request : CheckRequest := ⟨"ecma5", ["**/a.js"]⟩
  have hsound : ∀ stage ∈ runStages (unnamedDirectory.access []) request,
      stage.fault? (unnamedDirectory.access []) = none := by decide +kernel
  have hiff := hall unnamedDirectory request ⟨⟨false, .json, false⟩, false⟩ (fun _ => none)
    (sound_runStages_iff.1 hsound)
  have hends : (match (printingRun (unnamedDirectory.access []) request
      (fun _ => (pure () : StateM Unit Unit)) ⟨⟨false, .json, false⟩, false⟩ (fun _ => none) ()).1 with
    | .error e => some e
    | .ok _ => none) = some (.output notTextFault) := by decide +kernel
  split at hends
  · next e hfails =>
    rw [Option.some.inj hends] at hfails
    rcases hiff.1 ⟨_, hfails⟩ with ⟨hrefuses, -⟩ | ⟨hrefuses, -⟩ <;> cases hrefuses
  · cases hends

end EditionCheck
