import EditionCheck.Proofs.Stages

/-!
# The first failure of a run

A reporter may refuse any of its calls. A run ends with the error of the first stage that fails, whether
by itself or at the reporter, after just the calls of the stages in front of it.

* `Course.follow_recorded` — a course is followed in the same way when the calls to the reporter are
  noted, and these are the calls for its notices up to the first one that is refused;
* `ending_of_check` — so a run meets all of its stages, or fails at one of them;
* `stops_at_first_failure` — what that says of the result and the calls.
-/

set_option autoImplicit false

namespace EditionCheck

open EditionCheck.Files EditionCheck.Log

/-! ## What a reporter is asked, and what it answers -/

/-- A call to a reporter, with its answer. -/
structure Call where
  notice : Notice
  answer : Except Obstacle Unit

/-- The calls for some notices none of which is refused. -/
def accepted (notices : List Notice) : List Call := notices.map fun n => ⟨n, .ok ()⟩

theorem accepted_append (a b : List Notice) : accepted (a ++ b) = accepted a ++ accepted b :=
  List.map_append

/-- A log beside which calls are noted. -/
def recordedLog {σ : Type} (log : Event → StateM σ Unit) (e : Event) : StateM (List Call × σ) Unit :=
  fun s => ((), s.1, (log e s.2).2)

/-- A reporter with every call to it noted, together with the answer. -/
def Reporter.recorded {σ : Type} (reporter : Reporter (StateM σ)) : Reporter (StateM (List Call × σ)) :=
  fun n => ExceptT.mk fun s =>
    let r := runFrom (reporter n) s.2
    (r.1, s.1 ++ [⟨n, r.1⟩], r.2)

/-- The calls for some notices up to the first one that is refused, and how they end. -/
inductive Calls (notices : List Notice) : Except Obstacle Unit → List Call → Prop
  | all : Calls notices (.ok ()) (accepted notices)
  | refused (e : Obstacle) (front : List Notice) (n : Notice) (back : List Notice)
      (split : notices = front ++ n :: back) :
      Calls notices (.error e) (accepted front ++ [⟨n, .error e⟩])

theorem Calls.cons {n : Notice} {notices : List Notice} {r : Except Obstacle Unit} {calls : List Call}
    (h : Calls notices r calls) : Calls (n :: notices) r (⟨n, .ok ()⟩ :: calls) := by
  cases h with
  | all => exact .all
  | refused e front m back hn => exact .refused e (n :: front) m back (congrArg _ hn)

namespace Course

variable {σ α : Type} (log : Event → StateM σ Unit) (reporter : Reporter (StateM σ))

/-- Deeds do the same when calls are noted, and the calls are those for their notices. -/
theorem performAll_recorded (ds : List Deed) (s : σ) (calls : List Call) :
    ∃ more, runFrom (performAll (recordedLog log) reporter.recorded ds) (calls, s)
        = ((runFrom (performAll log reporter ds) s).1, calls ++ more,
            (runFrom (performAll log reporter ds) s).2)
      ∧ Calls (ds.filterMap Deed.notice?) (runFrom (performAll log reporter ds) s).1 more := by
  induction ds generalizing s calls with
  | nil => exact ⟨[], by rw [List.append_nil]; rfl, .all⟩
  | cons d ds ih =>
    simp only [performAll, runFrom_bind]
    cases d with
    | log e => exact ih _ _
    | tell n =>
      have hcall : runFrom (perform (recordedLog log) reporter.recorded (.tell n)) (calls, s)
          = ((runFrom (reporter n) s).1, calls ++ [⟨n, (runFrom (reporter n) s).1⟩],
              (runFrom (reporter n) s).2) := rfl
      have htold : runFrom (perform log reporter (.tell n)) s = runFrom (reporter n) s := rfl
      rw [hcall, htold]
      obtain ⟨r, s'⟩ := runFrom (reporter n) s
      cases r with
      | error e => exact ⟨_, rfl, .refused e [] n _ rfl⟩
      | ok u =>
        obtain ⟨more, hrun, hcalls⟩ := ih s' (calls ++ [⟨n, .ok ()⟩])
        refine ⟨⟨n, .ok ()⟩ :: more, ?_, hcalls.cons⟩
        rw [List.append_assoc] at hrun
        exact hrun

/-- A course is followed in the same way when calls are noted. It ends as it does by itself, unless the
reporter refuses one of its notices. -/
theorem follow_recorded (c : Course α) (s : σ) :
    ∃ told calls, runFrom (c.follow (recordedLog log) reporter.recorded) ([], s)
        = ((runFrom (c.follow log reporter) s).1, calls, (runFrom (c.follow log reporter) s).2)
      ∧ Calls c.notices told calls
      ∧ (runFrom (c.follow log reporter) s).1 = told.bind fun _ => c.outcome := by
  obtain ⟨calls, hrun, hcalls⟩ :=
    performAll_recorded log reporter c.deeds s []
  refine ⟨_, calls, ?_, hcalls, ?_⟩
  all_goals
    simp only [follow, runFrom_bind, hrun]
    obtain ⟨r, s'⟩ := runFrom (performAll log reporter c.deeds) s
    cases r <;> rfl

end Course

/-! ## The first failure -/

/-- What becomes of a run, and the calls it makes. Either no stage fails, or one is the first to fail: by
itself, and the calls are those of the stages in front of it, or at the reporter, whose refusal is then
the last call. -/
inductive Ending (files : Access Id) (request : CheckRequest) (stages : List Stage) :
    Except Obstacle Report → List Call → Prop
  | success (sound : Stage.Sound files stages) :
      Ending files request stages (.ok (fullReport files request)) (accepted (Stage.notices stages))
  | fault (e : Obstacle) (before : List Stage) (stage : Stage) (after : List Stage)
      (split : stages = before ++ stage :: after) (sound : Stage.Sound files before)
      (fault : stage.fault? files = some e) :
      Ending files request stages (.error e) (accepted (Stage.notices before))
  | refusal (e : Obstacle) (before : List Stage) (n : Notice) (after : List Stage)
      (split : stages = before ++ .tell n :: after) (sound : Stage.Sound files before) :
      Ending files request stages (.error e) (accepted (Stage.notices before) ++ [⟨n, .error e⟩])

/-- A notice of some stages is told at one of them. -/
theorem Stage.split_of_notices {stages : List Stage} {front : List Notice} {n : Notice}
    {back : List Notice} (h : Stage.notices stages = front ++ n :: back) :
    ∃ before after, stages = before ++ .tell n :: after ∧ Stage.notices before = front := by
  obtain ⟨before, rest, rfl, hbefore, hrest⟩ := List.filterMap_eq_append_iff.1 h
  obtain ⟨silent, stage, after, rfl, hsilent, hstage, -⟩ := List.filterMap_eq_cons_iff.1 hrest
  have htell : stage = .tell n := by
    cases stage with
    | tell n' => exact congrArg _ (Option.some.inj hstage)
    | expand p => cases hstage
    | read path => cases hstage
  refine ⟨before ++ silent, after, by rw [htell, List.append_assoc], ?_⟩
  rw [Stage.notices_append, Stage.notices, hbefore, Stage.notices, List.filterMap_eq_nil_iff.2 hsilent,
    List.append_nil]

theorem runCourse_outcome_ok {files : Access Id} {request : CheckRequest} {report : Report}
    (h : (runCourse files request).outcome = .ok report) : report = fullReport files request := by
  obtain ⟨grammar, hgrammar, hrest, -⟩ := Course.andThen_ok h
  obtain ⟨r, hr, hend, -⟩ := Course.andThen_ok hrest
  cases hgrammar
  cases hend
  exact eq_fullReport files hr

/-- Every run has one of the endings. -/
theorem ending_of_check {σ : Type} (files : Access Id) (request : CheckRequest)
    (log : Event → StateM σ Unit) (reporter : Reporter (StateM σ)) (s : σ) :
    let run := runFrom ((Host.over files log).check reporter request) s
    ∃ calls, runFrom ((Host.over files (recordedLog log)).check reporter.recorded request) ([], s)
        = (run.1, calls, run.2)
      ∧ Ending files request (runStages files request) run.1 calls := by
  intro run
  obtain ⟨told, calls, hrun, hcalls, hresult⟩ :=
    Course.follow_recorded log reporter (runCourse files request) s
  simp only [run, check_over_eq_follow]
  refine ⟨calls, hrun, ?_⟩
  rw [hresult]
  cases meets_runCourse files request with
  | through report houtcome hsound hn =>
    rw [hn] at hcalls
    cases hcalls with
    | all =>
      rw [houtcome, runCourse_outcome_ok houtcome]
      exact .success hsound
    | refused e front n back hsplit =>
      obtain ⟨before, after, hstages, rfl⟩ := Stage.split_of_notices hsplit
      rw [hstages] at hsound ⊢
      exact .refusal e before n after rfl hsound.left
  | stopped e before stage after houtcome hstages hsound hfault hn =>
    rw [hn] at hcalls
    cases hcalls with
    | all =>
      rw [houtcome]
      exact .fault e before stage after hstages hsound hfault
    | refused e' front n back hsplit =>
      obtain ⟨first, middle, rfl, rfl⟩ := Stage.split_of_notices hsplit
      rw [List.append_assoc] at hstages
      exact .refusal e' first n _ hstages hsound.left

/-! ## What an ending says -/

theorem answer_of_mem_accepted {notices : List Notice} {call : Call} (h : call ∈ accepted notices) :
    call.answer = .ok () := by
  obtain ⟨n, -, rfl⟩ := List.mem_map.1 h
  rfl

theorem notice_of_mem_accepted {notices : List Notice} {call : Call} (h : call ∈ accepted notices) :
    call.notice ∈ notices := by
  obtain ⟨n, hn, rfl⟩ := List.mem_map.1 h
  exact hn

/-- Calls that end with a refusal are not all accepted. -/
theorem accepted_ne_refused {notices front : List Notice} {n : Notice} {e : Obstacle} :
    accepted notices ≠ accepted front ++ [⟨n, .error e⟩] := by
  intro h
  have hlast : (⟨n, .error e⟩ : Call) ∈ accepted notices := by
    rw [h]
    exact List.mem_append_right _ (List.mem_singleton.2 rfl)
  cases answer_of_mem_accepted hlast

/-- The first stage that fails by itself is one stage. -/
theorem Stage.fault?_unique {files : Access Id} {a b c d : List Stage} {x y : Stage} {e e' : Obstacle}
    (h : a ++ x :: b = c ++ y :: d) (ha : Sound files a) (hc : Sound files c)
    (hx : x.fault? files = some e) (hy : y.fault? files = some e') : e = e' := by
  rcases List.append_eq_append_iff.1 h with ⟨m, hcm, hxm⟩ | ⟨m, ham, hym⟩
  · cases m with
    | nil =>
      have hxy : x = y := (List.cons.inj hxm).1
      rw [hxy, hy] at hx
      exact (Option.some.inj hx).symm
    | cons z m =>
      have hz : x = z := (List.cons.inj hxm).1
      exact absurd (hz ▸ hx) (hc.fault?_ne hcm e)
  · cases m with
    | nil =>
      have hxy : y = x := (List.cons.inj hym).1
      rw [← hxy, hy] at hx
      exact (Option.some.inj hx).symm
    | cons z m =>
      have hz : y = z := (List.cons.inj hym).1
      exact absurd (hz ▸ hy) (ha.fault?_ne ham e')

/-- A place in a list behind whose members one more stands is the last, or one of the others. -/
theorem split_concat {α : Type} {xs before after : List α} {x y : α}
    (h : xs ++ [x] = before ++ y :: after) :
    (after = [] ∧ before = xs ∧ y = x) ∨ ∃ more, xs = before ++ y :: more := by
  rcases List.eq_nil_or_concat after with rfl | ⟨more, z, rfl⟩
  · obtain ⟨hxs, hx⟩ := List.append_inj' h rfl
    exact .inl ⟨rfl, hxs.symm, (List.cons.inj hx).1.symm⟩
  · rw [List.concat_eq_append, ← List.cons_append, ← List.append_assoc] at h
    exact .inr ⟨more, (List.append_inj' h rfl).1⟩

/-- No file's stage tells of the end. -/
theorem not_finished_of_patternStages {files : Access Id} {grammar : Grammar} {patterns : List String}
    {n : Notice} (h : n ∈ Stage.notices (patterns.flatMap (patternStages files grammar)))
    (report : Report) : n ≠ .finished report := by
  rintro rfl
  obtain ⟨stage, hstage, hn⟩ := List.mem_filterMap.1 h
  obtain ⟨p, -, hstage⟩ := List.mem_flatMap.1 hstage
  rcases List.mem_cons.1 hstage with rfl | hfile
  · cases hn
  · obtain ⟨path, -, hfile⟩ := List.mem_flatMap.1 hfile
    rcases List.mem_cons.1 hfile with rfl | hfile
    · cases hn
    · rw [List.mem_singleton.1 hfile, Stage.notice?, verdictNotice] at hn
      split at hn <;> cases hn

namespace Ending

variable {files : Access Id} {request : CheckRequest} {stages : List Stage}
  {result : Except Obstacle Report} {calls : List Call}

theorem error_iff (h : Ending files request stages result calls) (e : Obstacle) :
    result = .error e ↔
      ∃ before stage after, stages = before ++ stage :: after ∧ Stage.Sound files before
        ∧ (stage.fault? files = some e ∧ calls = accepted (Stage.notices before)
          ∨ ∃ n, stage = .tell n
            ∧ calls = accepted (Stage.notices before) ++ [⟨n, .error e⟩]) := by
  constructor
  · rintro rfl
    cases h with
    | fault _ before stage after hsplit hsound hfault =>
      exact ⟨before, stage, after, hsplit, hsound, .inl ⟨hfault, rfl⟩⟩
    | refusal _ before n after hsplit hsound =>
      exact ⟨before, .tell n, after, hsplit, hsound, .inr ⟨n, rfl, rfl⟩⟩
  · rintro ⟨before, stage, after, hstages, hsound, ⟨hfault, hcalls⟩ | ⟨n, rfl, hcalls⟩⟩
    · cases h with
      | success hall => exact absurd hfault (hall.fault?_ne hstages e)
      | fault e' before' stage' after' hsplit hsound' hfault' =>
        rw [Stage.fault?_unique (hsplit.symm.trans hstages) hsound' hsound hfault' hfault]
      | refusal e' before' n after' => exact absurd hcalls.symm accepted_ne_refused
    · cases h with
      | success => exact absurd hcalls accepted_ne_refused
      | fault => exact absurd hcalls accepted_ne_refused
      | refusal e' before' n' after' =>
        have hlast := List.append_inj_right' hcalls rfl
        cases hlast
        rfl

theorem ok_iff (h : Ending files request stages result calls) (report : Report) :
    result = .ok report ↔ report = fullReport files request ∧ Stage.Sound files stages
      ∧ calls = accepted (Stage.notices stages) := by
  constructor
  · rintro rfl
    cases h with
    | success hsound => exact ⟨rfl, hsound, rfl⟩
  · rintro ⟨rfl, hsound, hcalls⟩
    cases h with
    | success => rfl
    | fault e before stage after hsplit _ hfault => exact absurd hfault (hsound.fault?_ne hsplit e)
    | refusal => exact absurd hcalls.symm accepted_ne_refused

/-- The end of a run is told last, and only if nothing has failed before. -/
theorem of_finished (h : Ending files request (runStages files request) result calls) {call : Call}
    (hcall : call ∈ calls) {report : Report} (hn : call.notice = .finished report) :
    Stage.Sound files (runStages files request)
      ∧ ∃ told, calls = accepted told ++ [call] ∧ ∀ n ∈ told, ∀ r, n ≠ .finished r := by
  generalize hends : request.patterns.flatMap (patternStages files (.ofToken request.token)) = ends at *
  have hstages : runStages files request = ends ++ [.tell (.finished (fullReport files request))] := by
    rw [runStages, hends]
  have hno : ∀ n ∈ Stage.notices ends, ∀ r, n ≠ .finished r := by
    intro n h
    rw [← hends] at h
    exact not_finished_of_patternStages h
  have hno_call {before more : List Stage} (hb : ends = before ++ more)
      (hc : call ∈ accepted (Stage.notices before)) : False := by
    refine hno call.notice ?_ report hn
    rw [hb, Stage.notices_append]
    exact List.mem_append_left _ (notice_of_mem_accepted hc)
  cases h with
  | success hsound =>
    refine ⟨hsound, Stage.notices ends, ?_, hno⟩
    rw [hstages, Stage.notices_append, accepted_append] at hcall ⊢
    rcases List.mem_append.1 hcall with hc | hc
    · exact (hno_call (List.append_nil _).symm hc).elim
    · rw [List.mem_singleton.1 hc]
      rfl
  | fault e before stage after hsplit hsound hfault =>
    rcases split_concat (hstages.symm.trans hsplit) with ⟨-, -, rfl⟩ | ⟨more, hmore⟩
    · cases hfault
    · exact (hno_call hmore hcall).elim
  | refusal e before n after hsplit hsound =>
    rcases split_concat (hstages.symm.trans hsplit) with ⟨rfl, rfl, -⟩ | ⟨more, hmore⟩
    · refine ⟨?_, Stage.notices before, ?_, hno⟩
      · rw [hstages]
        exact hsound.append (.cons rfl .nil)
      · rcases List.mem_append.1 hcall with hc | hc
        · exact (hno_call (List.append_nil _).symm hc).elim
        · rw [List.mem_singleton.1 hc]
    · rcases List.mem_append.1 hcall with hc | hc
      · exact (hno_call hmore hc).elim
      · rw [List.mem_singleton.1 hc] at hn
        refine (hno n ?_ report hn).elim
        rw [hmore, Stage.notices_append]
        exact List.mem_append_right _ List.mem_cons_self

end Ending

/-- **A run ends with its first failure.** It ends with an error just when some stage fails, by itself or
because the reporter refuses its notice; the error is that of the first such stage, and the calls to the
reporter are those of the stages in front of it, and the refused one. The end is told at most once, as the
last call, and only when every pattern has been expanded and every file been read and told of. -/
theorem stops_at_first_failure {σ : Type} (files : Access Id) (request : CheckRequest)
    (log : Event → StateM σ Unit) (reporter : Reporter (StateM σ)) (s : σ) :
    let run := runFrom ((Host.over files log).check reporter request) s
    let stages := runStages files request
    ∃ calls : List Call,
      runFrom ((Host.over files (recordedLog log)).check reporter.recorded request) ([], s)
          = (run.1, calls, run.2)
      ∧ (∀ e, run.1 = .error e ↔
          ∃ before stage after, stages = before ++ stage :: after ∧ Stage.Sound files before
            ∧ (stage.fault? files = some e ∧ calls = accepted (Stage.notices before)
              ∨ ∃ n, stage = .tell n
                ∧ calls = accepted (Stage.notices before) ++ [⟨n, .error e⟩]))
      ∧ (∀ report, run.1 = .ok report ↔
          report = fullReport files request ∧ Stage.Sound files stages
            ∧ calls = accepted (Stage.notices stages))
      ∧ ∀ call ∈ calls, ∀ report, call.notice = .finished report →
          Stage.Sound files stages
            ∧ ∃ told, calls = accepted told ++ [call] ∧ ∀ n ∈ told, ∀ r, n ≠ .finished r := by
  intro run stages
  obtain ⟨calls, hrun, hending⟩ := ending_of_check files request log reporter s
  refine ⟨calls, hrun, hending.error_iff, hending.ok_iff, ?_⟩
  intro call hcall report hn
  exact hending.of_finished hcall hn

end EditionCheck
