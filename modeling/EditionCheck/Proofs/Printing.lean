import EditionCheck.Proofs.ExitStatus

/-!
# What a run prints

Where the streams take everything, a run prints the pieces of its notices, one behind the other, whatever
its log does. It tells of the files that it has checked, and of its end if it gets there.

* `reporter_printing` — a notice prints its pieces, and fails by itself only;
* `Stops` — where a run ends early, and the files that it has checked by then;
* `told_of_runCourse` — a run tells of all selected files and of its end, or of those in front of the place
  where it stops;
* `faultsLast_runCourse`, `check_printing` — so all notices of a run are printed, and only that of its end
  can fail.
-/

set_option autoImplicit false

namespace EditionCheck

open EditionCheck.Files EditionCheck.Log

/-! ## Streams that take everything -/

/-- What some pieces put on a channel. -/
def textOn (channel : Channel) (pieces : List (Channel × String)) : String :=
  String.join ((pieces.filter fun piece => piece.1 == channel).map (·.2))

theorem textOn_nil (channel : Channel) : textOn channel [] = "" := rfl

theorem textOn_append (channel : Channel) (a b : List (Channel × String)) :
    textOn channel (a ++ b) = textOn channel a ++ textOn channel b := by
  simp [textOn, String.join_append]

theorem textOn_map_self (channel : Channel) (lines : List String) :
    textOn channel (lines.map (channel, ·)) = String.join lines := by
  induction lines with
  | nil => rfl
  | cons line lines ih => simpa [textOn] using ih

theorem textOn_map_of_ne {channel other : Channel} (h : other ≠ channel) (lines : List String) :
    textOn channel (lines.map (other, ·)) = "" := by
  induction lines with
  | nil => rfl
  | cons line lines ih => simpa [textOn, h] using ih

namespace Streams

/-- The streams with some pieces put behind what they hold. -/
def print (s : Streams) (pieces : List (Channel × String)) : Streams :=
  { s with out := s.out ++ textOn .out pieces, err := s.err ++ textOn .err pieces }

theorem print_nil (s : Streams) : s.print [] = s := by simp [print, textOn_nil]

theorem print_append (s : Streams) (a b : List (Channel × String)) :
    s.print (a ++ b) = (s.print a).print b := by
  simp [print, textOn_append, String.append_assoc]

theorem append_eq_print (s : Streams) (piece : Channel × String) :
    s.append piece.1 piece.2 = s.print [piece] := by
  obtain ⟨channel, text⟩ := piece
  cases channel <;> simp [append, print, textOn]

/-- Writes a text to streams that stand beside another state. -/
def writeBeside {σ : Type} (channel : Channel) (text : String) :
    ExceptT Fault (StateM (σ × Streams)) Unit :=
  ExceptT.mk fun s =>
    let r := (write channel text).run.run s.2
    (r.1, s.1, r.2)

end Streams

/-- A log whose state stands beside some streams. -/
def logBeside {σ : Type} (log : Event → StateM σ Unit) (e : Event) : StateM (σ × Streams) Unit :=
  fun s => ((), (log e s.1).2, s.2)

/-- What is written is put behind what streams hold that are kept in a state, unless they refuse it. -/
def WritesTo {σ : Type} (write : Channel → String → ExceptT Fault (StateM σ) Unit)
    (state : Streams → σ) : Prop :=
  ∀ s : Streams, s.refusal = (fun _ => none) → ∀ channel text,
    (write channel text).run.run (state s) = (.ok (), state (s.append channel text))

theorem writesTo_write : WritesTo Streams.write id := by
  intro s hs channel text
  exact Streams.write_of_refusal_none text (congrFun hs channel)

theorem writesTo_writeBeside {σ : Type} (l : σ) : WritesTo Streams.writeBeside fun s => (l, s) := by
  intro s hs channel text
  have hwrite := writesTo_write s hs channel text
  exact congrArg (fun r : Except Fault Unit × Streams => (r.1, l, r.2)) hwrite

section

variable {σ : Type} {write : Channel → String → ExceptT Fault (StateM σ) Unit} {state : Streams → σ}

theorem writePieces_of_writesTo (h : WritesTo write state) (pieces : List (Channel × String))
    {s : Streams} (hs : s.refusal = fun _ => none) :
    (Style.writePieces write pieces).run.run (state s) = (.ok (), state (s.print pieces)) := by
  induction pieces generalizing s with
  | nil =>
    rw [s.print_nil]
    rfl
  | cons piece pieces ih =>
    have hpiece := h s hs piece.1 piece.2
    have hsplit : s.print (piece :: pieces) = (s.append piece.1 piece.2).print pieces := by
      rw [s.append_eq_print, ← Streams.print_append, List.singleton_append]
    rw [Style.writePieces, ExceptT.run_bind, StateT.run_bind, hpiece, hsplit]
    rw [s.append_eq_print]
    exact ih hs

/-- How a computation ends at a fault or without one. -/
def endingWith {ε : Type} (wrap : Fault → ε) : Option Fault → Except ε Unit
  | none => .ok ()
  | some fault => .error (wrap fault)

/-- Where the streams take everything, a notice prints its pieces, and fails by itself only. -/
theorem reporter_printing (h : WritesTo write state) (style : Style) (n : Notice) {s : Streams}
    (hs : s.refusal = fun _ => none) :
    runFrom (style.reporter write n) (state s)
      = (endingWith .output (style.printed n).fault, state (s.print (style.printed n).pieces)) := by
  have hpieces := writePieces_of_writesTo h (style.printed n).pieces hs
  rw [runFrom, Style.reporter]
  cases (style.printed n).fault with
  | none =>
    simp only [bind_pure_unit]
    exact congrArg (fun r => (Except.mapError Obstacle.output r.1, r.2)) hpieces
  | some fault =>
    have hthrow : (Style.writePieces write (style.printed n).pieces
        >>= fun _ => (throw fault : ExceptT Fault (StateM σ) Unit)).run.run (state s)
          = (.error fault, state (s.print (style.printed n).pieces)) := by
      rw [ExceptT.run_bind, StateT.run_bind, hpieces]
      rfl
    exact congrArg (fun r => (Except.mapError Obstacle.output r.1, r.2)) hthrow

/-- A notice that can be written as a whole prints its pieces. -/
theorem reporter_of_writesTo (h : WritesTo write state) {style : Style} {n : Notice}
    (hfault : (style.printed n).fault = none) {s : Streams} (hs : s.refusal = fun _ => none) :
    runFrom (style.reporter write n) (state s)
      = (.ok (), state (s.print (style.printed n).pieces)) := by
  rw [reporter_printing h style n hs, hfault]
  rfl

end

/-! ## Where a run stops -/

section

variable (files : Access Id)

/-- A pattern can be expanded, and all files that it selects can be read. -/
def Files.Access.Settled (pattern : String) : Prop :=
  files.expand pattern = .ok (files.selected pattern)
    ∧ ∀ path ∈ files.selected pattern, files.textAt path = .ok (files.textOf path)

/-- Where a run along some patterns ends early, with the files that it has checked by then: those of the
patterns in front of one that cannot be expanded, or also those that this pattern selects in front of a
file that cannot be read. -/
inductive Stops (patterns : List String) : Obstacle → List (List UInt8) → Prop
  | expanding (e : Obstacle) (front : List String) (p : String) (back : List String)
      (split : patterns = front ++ p :: back) (settled : ∀ q ∈ front, files.Settled q)
      (fault : files.expand p = .error e) : Stops patterns e (front.flatMap files.selected)
  | reading (front : List String) (p : String) (back : List String) (before : List (List UInt8))
      (path : List UInt8) (after : List (List UInt8)) (fault : Fault)
      (split : patterns = front ++ p :: back) (settled : ∀ q ∈ front, files.Settled q)
      (expanded : files.expand p = .ok (before ++ path :: after))
      (readable : ∀ q ∈ before, files.textAt q = .ok (files.textOf q))
      (unreadable : files.textAt path = .error fault) :
      Stops patterns (.unreadable path fault) (front.flatMap files.selected ++ before)

/-- The notices of some files. -/
def verdictNotices (grammar : Grammar) (paths : List (List UInt8)) : List Notice :=
  paths.map fun path => verdictNotice grammar path (files.verdictOf grammar path)

theorem notices_fileStages (grammar : Grammar) (paths : List (List UInt8)) :
    Stage.notices (paths.flatMap (fileStages files grammar)) = verdictNotices files grammar paths := by
  induction paths with
  | nil => rfl
  | cons path paths ih =>
    rw [List.flatMap_cons, Stage.notices_append, ih]
    rfl

theorem notices_patternStages (grammar : Grammar) (patterns : List String) :
    Stage.notices (patterns.flatMap (patternStages files grammar))
      = verdictNotices files grammar (patterns.flatMap files.selected) := by
  induction patterns with
  | nil => rfl
  | cons p ps ih =>
    have hone : Stage.notices (patternStages files grammar p)
        = verdictNotices files grammar (files.selected p) :=
      notices_fileStages files grammar _
    rw [List.flatMap_cons, Stage.notices_append, ih, hone, List.flatMap_cons, verdictNotices,
      verdictNotices, verdictNotices, List.map_append]

end

/-- A place in a list that is put together stands in one of its parts. -/
theorem split_flatMap {α β : Type} {f : α → List β} {xs : List α} {before after : List β} {b : β}
    (h : xs.flatMap f = before ++ b :: after) :
    ∃ front x back inner more, xs = front ++ x :: back ∧ f x = inner ++ b :: more
      ∧ before = front.flatMap f ++ inner := by
  induction xs generalizing before with
  | nil => simp at h
  | cons x xs ih =>
    rw [List.flatMap_cons] at h
    rcases List.append_eq_append_iff.1 h with ⟨m, hbefore, hrest⟩ | ⟨m, hx, hrest⟩
    · obtain ⟨front, y, back, inner, more, rfl, hy, rfl⟩ := ih hrest
      refine ⟨x :: front, y, back, inner, more, rfl, hy, ?_⟩
      rw [hbefore, List.flatMap_cons, List.append_assoc]
    · cases m with
      | nil =>
        have hrest : xs.flatMap f = [] ++ b :: after := by simpa using hrest.symm
        obtain ⟨front, y, back, inner, more, rfl, hy, hinner⟩ := ih hrest
        obtain ⟨hfront, rfl⟩ := List.nil_eq_append_iff.1 hinner
        refine ⟨x :: front, y, back, [], more, rfl, hy, ?_⟩
        rw [List.flatMap_cons, hfront, hx]
        simp
      | cons c m =>
        obtain ⟨rfl, rfl⟩ := List.cons.inj hrest
        exact ⟨[], x, xs, before, m, rfl, hx, rfl⟩

section

variable {files : Access Id} {grammar : Grammar}

theorem expand_of_sound {p : String} (h : (Stage.expand p).fault? files = none) :
    files.expand p = .ok (files.selected p) := by
  rw [Files.Access.selected]
  cases he : files.expand p with
  | ok paths => rfl
  | error e => exact absurd he (fault?_expand.1 h e)

theorem readable_of_sound {paths : List (List UInt8)}
    (h : Stage.Sound files (paths.flatMap (fileStages files grammar))) :
    ∀ path ∈ paths, files.textAt path = .ok (files.textOf path) := by
  intro path hpath
  have hsound := h (.read path) (List.mem_flatMap.2 ⟨path, hpath, List.mem_cons_self⟩)
  rw [fault?_read] at hsound
  cases htext : files.textAt path with
  | ok text => rw [files.textOf_of_ok htext]
  | error fault => exact absurd htext (hsound fault)

theorem settled_of_sound {patterns : List String}
    (h : Stage.Sound files (patterns.flatMap (patternStages files grammar))) :
    ∀ p ∈ patterns, files.Settled p := by
  intro p hp
  have hone : Stage.Sound files (patternStages files grammar p) :=
    fun stage hstage => h stage (List.mem_flatMap.2 ⟨p, hp, hstage⟩)
  obtain ⟨hexpand, hfiles⟩ := List.forall_mem_cons.1 hone
  exact ⟨expand_of_sound hexpand, readable_of_sound hfiles⟩

/-- A file at whose stages a run ends cannot be read. -/
theorem read_of_fileStages {path : List UInt8} {inner more : List Stage} {stage : Stage} {e : Obstacle}
    (hsplit : fileStages files grammar path = inner ++ stage :: more)
    (hfault : stage.fault? files = some e) :
    inner = [] ∧ ∃ fault, files.textAt path = .error fault ∧ e = .unreadable path fault := by
  rcases List.cons_eq_append_iff.1 hsplit with ⟨rfl, hread⟩ | ⟨rest, rfl, htell⟩
  · obtain ⟨rfl, -⟩ := List.cons.inj hread
    refine ⟨rfl, ?_⟩
    rw [Stage.fault?] at hfault
    cases htext : files.textAt path with
    | ok text => simp [htext] at hfault
    | error fault =>
      simp only [htext, Option.some.injEq] at hfault
      exact ⟨fault, rfl, hfault.symm⟩
  · -- telling does not fail by itself
    have hmem : stage ∈ [Stage.tell (verdictNotice grammar path (files.verdictOf grammar path))] := by
      rw [htell]
      exact List.mem_append_right _ List.mem_cons_self
    rw [List.mem_singleton.1 hmem] at hfault
    cases hfault

/-- The first stage that fails by itself is where the run stops, and what is told in front of it are the
verdicts on the files checked by then. -/
theorem stops_of_split {patterns : List String} {before after : List Stage} {stage : Stage}
    {e : Obstacle} (hsplit : patterns.flatMap (patternStages files grammar) = before ++ stage :: after)
    (hsound : Stage.Sound files before) (hfault : stage.fault? files = some e) :
    ∃ checked, Stops files patterns e checked
      ∧ Stage.notices before = verdictNotices files grammar checked := by
  obtain ⟨front, p, back, inner, more, rfl, hp, rfl⟩ := split_flatMap hsplit
  have hfront := settled_of_sound hsound.left
  have hnotices := notices_patternStages files grammar front
  rcases List.cons_eq_append_iff.1 hp with ⟨rfl, hexpand⟩ | ⟨inner, rfl, hfiles⟩
  · obtain ⟨rfl, -⟩ := List.cons.inj hexpand
    refine ⟨front.flatMap files.selected, .expanding e front p back rfl hfront ?_, ?_⟩
    · rw [Stage.fault?] at hfault
      cases he : files.expand p with
      | ok paths => simp [he] at hfault
      | error e' => simpa [he] using hfault
    · rw [List.append_nil, hnotices]
  · obtain ⟨paths, path, others, inner', more', hselected, hpath, rfl⟩ := split_flatMap hfiles
    obtain ⟨rfl, fault, hunreadable, rfl⟩ := read_of_fileStages hpath hfault
    have hinner : Stage.Sound files (.expand p :: paths.flatMap (fileStages files grammar)) := by
      intro s hs
      exact hsound s (List.mem_append_right _ (by simpa using hs))
    obtain ⟨hexpand, hreadable⟩ := List.forall_mem_cons.1 hinner
    have hexpanded : files.expand p = .ok (paths ++ path :: others) :=
      hselected ▸ expand_of_sound hexpand
    refine ⟨front.flatMap files.selected ++ paths, .reading front p back paths path others fault rfl
      hfront hexpanded (readable_of_sound hreadable) hunreadable, ?_⟩
    have hlast : Stage.notices (.expand p :: (paths.flatMap (fileStages files grammar) ++ []))
        = verdictNotices files grammar paths := by
      rw [List.append_nil]
      exact notices_fileStages files grammar paths
    rw [Stage.notices_append, hnotices, hlast, verdictNotices, verdictNotices, verdictNotices,
      List.map_append]

end

/-- **What a run tells.** Either it gets to its end, and tells of all files that its patterns select and
of the end, or it stops, and tells of the files that it has checked by then. -/
theorem told_of_runCourse (files : Access Id) (request : CheckRequest) :
    let grammar := Grammar.ofToken request.token
    let course := runCourse files request
    (¬Unreadable files request ∧ course.outcome = .ok (fullReport files request)
      ∧ course.notices = verdictNotices files grammar (request.patterns.flatMap files.selected)
          ++ [.finished (fullReport files request)])
    ∨ ∃ e checked, Stops files request.patterns e checked ∧ course.outcome = .error e
      ∧ course.notices = verdictNotices files grammar checked := by
  intro grammar course
  have hstages := notices_patternStages files grammar request.patterns
  cases meets_runCourse files request with
  | through report houtcome hsound hnotices =>
    left
    refine ⟨sound_runStages_iff.1 hsound, ?_, ?_⟩
    · rw [← runCourse_outcome_ok houtcome]
      exact houtcome
    · rw [← hstages]
      exact hnotices.trans (Stage.notices_append _ _)
  | stopped e before stage after houtcome hsplit hsound hfault hnotices =>
    right
    rcases split_concat hsplit with ⟨-, -, rfl⟩ | ⟨more, hmore⟩
    · cases hfault
    · obtain ⟨checked, hstops, htold⟩ := stops_of_split hmore hsound hfault
      exact ⟨e, checked, hstops, houtcome, hnotices.trans htold⟩

/-! ## Runs that print -/

namespace Style

/-- The pieces of some notices. -/
def pieces (style : Style) (notices : List Notice) : List (Channel × String) :=
  notices.flatMap fun n => (style.printed n).pieces

/-- The first fault among those of some notices. -/
def fault? (style : Style) (notices : List Notice) : Option Fault :=
  notices.findSome? fun n => (style.printed n).fault

/-- Only the last of some notices may have a fault. -/
def FaultsLast (style : Style) : List Notice → Prop
  | [] => True
  | n :: rest => ((style.printed n).fault.isSome → rest = []) ∧ style.FaultsLast rest

variable (style : Style) {a : List Notice}

theorem pieces_append (a b : List Notice) : style.pieces (a ++ b) = style.pieces a ++ style.pieces b :=
  List.flatMap_append

theorem pieces_singleton (n : Notice) : style.pieces [n] = (style.printed n).pieces :=
  List.flatMap_singleton _ _

theorem fault?_cons (n : Notice) (notices : List Notice) :
    style.fault? (n :: notices) = (style.printed n).fault.or (style.fault? notices) := by
  rw [fault?, List.findSome?_cons]
  cases (style.printed n).fault <;> rfl

theorem fault?_singleton (n : Notice) : style.fault? [n] = (style.printed n).fault := by
  rw [style.fault?_cons, fault?, List.findSome?_nil, Option.or_none]

theorem fault?_of_forall (h : ∀ n ∈ a, (style.printed n).fault = none) : style.fault? a = none :=
  List.findSome?_eq_none_iff.2 h

theorem fault?_append (h : ∀ n ∈ a, (style.printed n).fault = none) (b : List Notice) :
    style.fault? (a ++ b) = style.fault? b := by
  rw [fault?, List.findSome?_append, ← fault?, style.fault?_of_forall h, Option.none_or, fault?]

/-- Notices without a fault may stand in front. -/
theorem FaultsLast.behind {style : Style} {b : List Notice} (hb : style.FaultsLast b)
    (ha : ∀ n ∈ a, (style.printed n).fault = none) : style.FaultsLast (a ++ b) := by
  induction a with
  | nil => exact hb
  | cons n a ih =>
    obtain ⟨hn, ha⟩ := List.forall_mem_cons.1 ha
    refine ⟨fun hfault => ?_, ih ha⟩
    rw [hn] at hfault
    cases hfault

end Style

/-- Notices of files can be written as a whole. -/
theorem fault_of_mem_verdictNotices {files : Access Id} {grammar : Grammar} {paths : List (List UInt8)}
    (style : Style) : ∀ n ∈ verdictNotices files grammar paths, (style.printed n).fault = none := by
  intro n hn
  obtain ⟨path, -, rfl⟩ := List.mem_map.1 hn
  exact fault_verdictNotice style grammar path _

/-- Of the notices of a run, only that of its end may have a fault. -/
theorem faultsLast_runCourse (files : Access Id) (request : CheckRequest) (style : Style) :
    style.FaultsLast (runCourse files request).notices := by
  rcases told_of_runCourse files request with ⟨-, -, htold⟩ | ⟨e, checked, -, -, htold⟩
  · rw [htold]
    exact Style.FaultsLast.behind ⟨fun _ => rfl, trivial⟩ (fault_of_mem_verdictNotices style)
  · rw [htold, ← List.append_nil (verdictNotices _ _ _)]
    exact Style.FaultsLast.behind trivial (fault_of_mem_verdictNotices style)

section

variable {σ : Type} (log : Event → StateM σ Unit) (style : Style)

/-- Deeds print the pieces of their notices, and end with the fault among them. -/
theorem performAll_printing (ds : List Deed) (l : σ) {s : Streams} (hs : s.refusal = fun _ => none)
    (hlast : style.FaultsLast (ds.filterMap Deed.notice?)) :
    ∃ l', runFrom (Course.performAll (logBeside log) (style.reporter Streams.writeBeside) ds) (l, s)
      = (endingWith .output (style.fault? (ds.filterMap Deed.notice?)), l',
          s.print (style.pieces (ds.filterMap Deed.notice?))) := by
  induction ds generalizing l s with
  | nil =>
    refine ⟨l, ?_⟩
    rw [List.filterMap_nil, Style.pieces, List.flatMap_nil, s.print_nil]
    rfl
  | cons d ds ih =>
    rw [Course.performAll, runFrom_bind]
    cases d with
    | log e => exact ih (log e l).2 hs hlast
    | tell n =>
      obtain ⟨hend, hrest⟩ := hlast
      have htold : runFrom (Course.perform (logBeside log) (style.reporter Streams.writeBeside)
          (.tell n)) (l, s)
            = (endingWith .output (style.printed n).fault, l, s.print (style.printed n).pieces) :=
        reporter_printing (writesTo_writeBeside l) style n hs
      have hsplit : (Deed.tell n :: ds).filterMap Deed.notice? = n :: ds.filterMap Deed.notice? := rfl
      rw [htold, hsplit]
      cases hfault : (style.printed n).fault with
      | none =>
        obtain ⟨l', hds⟩ := ih l (s := s.print (style.printed n).pieces) hs hrest
        refine ⟨l', hds.trans ?_⟩
        rw [style.fault?_cons, hfault, ← Streams.print_append]
        rfl
      | some fault =>
        -- nothing is told behind the notice that has the fault
        have hnone : ds.filterMap Deed.notice? = [] := hend (by rw [hfault]; rfl)
        refine ⟨l, ?_⟩
        rw [hnone, style.fault?_singleton, style.pieces_singleton, hfault]
        rfl

/-- **A run prints the pieces of its notices**, and ends as its course does, unless its last notice has a
fault. -/
theorem check_printing (files : Access Id) (request : CheckRequest) (l : σ) :
    let notices := (runCourse files request).notices
    ∃ l', runFrom ((Host.over files (logBeside log)).check (style.reporter Streams.writeBeside) request)
        (l, {})
      = ((endingWith .output (style.fault? notices)).bind fun _ => (runCourse files request).outcome, l',
          { out := textOn .out (style.pieces notices), err := textOn .err (style.pieces notices) }) := by
  intro notices
  obtain ⟨l', hdeeds⟩ : ∃ l', _ = (endingWith _ (style.fault? notices), l', _) :=
    performAll_printing log style (runCourse files request).deeds l (s := {}) rfl
      (faultsLast_runCourse files request style)
  have hprint : Streams.print {} (style.pieces notices)
      = { out := textOn .out (style.pieces notices), err := textOn .err (style.pieces notices) } := by
    simp [Streams.print]
  refine ⟨l', ?_⟩
  rw [check_over_eq_follow, Course.follow, runFrom_bind, hdeeds, ← hprint]
  cases style.fault? notices <;> rfl

end

end EditionCheck
