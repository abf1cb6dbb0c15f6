import EditionCheck.Proofs.NoEscape
import EditionCheck.Proofs.WalkedPaths

/-!
# The paths that a run shows

A run shows paths that it selects or cannot use. Their bytes come from its patterns and from the names in
the directories that it lists; so if these hold no escape character, neither do the paths.

* `composable_noEscape`, `shown_expand` — the paths that a pattern selects;
* `Course.Shows.andThen`, `Course.Shows.along` — what courses show one after the other;
* `shows_runCourse` — what a run logs and tells, and the error that it may end with;
* `shown_access` — a tree without escape characters in its names meets what is asked of the files.
-/

set_option autoImplicit false

namespace EditionCheck

open EditionCheck.Files EditionCheck.Log

/-! ## Files -/

/-- What files answer can be shown: their names and the wording of their faults hold no escape
character. -/
structure Files.Access.Shown (files : Access Id) : Prop where
  names : files.Lists (escapeByte ∉ ·)
  unlisted : ∀ path fault, (files.list path).run = .error fault → NoEscape fault.message.toList
  unread : ∀ path fault, files.textAt path = .error fault → NoEscape fault.message.toList

namespace Files.Tree

variable {t : Tree} {place : Place} {todo : List (List UInt8)} {fault : Fault}

theorem walkNames_fault {follow : Place → List (List UInt8) → Except Fault Place}
    (hfollow : ∀ place todo fault, follow place todo = .error fault → ∀ message, fault ≠ .other message)
    (h : t.walkNames follow place todo = .error fault) : ∀ message, fault ≠ .other message := by
  induction todo generalizing place with
  | nil => cases h
  | cons name rest ih =>
    rw [walkNames] at h
    split at h
    · cases h
      simp
    split at h
    · exact ih h
    split at h
    · exact ih h
    split at h
    · cases h
      simp
    split at h
    · cases h
      simp
    · exact hfollow _ _ _ h
    · exact ih h

theorem walk_fault (links : Nat) (h : t.walk links place todo = .error fault) :
    ∀ message, fault ≠ .other message := by
  induction links generalizing place todo fault with
  | zero =>
    refine walkNames_fault (fun _ _ _ hmany => ?_) h
    cases hmany
    simp
  | succ links ih => exact walkNames_fault (fun _ _ _ => ih) h

theorem resolve_fault {current : Place} {path : List UInt8} (h : t.resolve current path = .error fault) :
    ∀ message, fault ≠ .other message := by
  unfold resolve at h
  split at h
  · cases h
    simp
  split at h
  · cases h
    simp
  split at h
  · cases h
    simp
  · exact walk_fault _ h

/-- What a question to a place answers can be shown, if that holds for each place. -/
theorem shown_of_bind {α : Type} {current : Place} {path : List UInt8} {ask : Place → Except Fault α}
    (hask : ∀ place fault, ask place = .error fault → ∀ message, fault ≠ .other message)
    (h : (t.resolve current path).bind ask = .error fault) : NoEscape fault.message.toList := by
  cases hplace : t.resolve current path with
  | error e =>
    rw [hplace] at h
    cases h
    exact noEscape_fault (resolve_fault hplace)
  | ok place =>
    rw [hplace] at h
    exact noEscape_fault (hask place fault h)

end Files.Tree

/-- Trees without escape characters in their names can be shown. -/
theorem shown_access {t : Tree} (hnames : ∀ e ∈ t.entries, ∀ n ∈ e.1, escapeByte ∉ n) (current : Place) :
    (t.access current : Access Id).Shown where
  names := lists_access hnames current
  unlisted path fault h := by
    refine Tree.shown_of_bind (fun place fault hlist => ?_) h
    unfold Tree.listAt at hlist
    split at hlist <;> cases hlist
    simp
  unread path fault h := by
    rw [textAt_access, Tree.textAt] at h
    cases hread : (t.resolve current path).bind t.readAt with
    | error e =>
      rw [hread] at h
      cases h
      refine Tree.shown_of_bind (fun place fault hread => ?_) hread
      unfold Tree.readAt at hread
      split at hread <;> cases hread <;> simp
    | ok bytes =>
      rw [hread] at h
      dsimp only at h
      split at h <;> cases h
      decide

/-! ## Selected paths -/

/-- No name holds an escape character, and no path that is made of such names. -/
theorem composable_noEscape : Composable (escapeByte ∉ ·) where
  append a b ha hb h := (List.mem_append.1 h).elim ha hb
  slash := by decide
  dot := by decide

/-- All paths can be shown. -/
def AllShown (paths : List (List UInt8)) : Prop := ∀ path ∈ paths, escapeByte ∉ path

/-- What a pattern selects can be shown, or the directory that could not be listed. -/
theorem shown_expand {files : Access Id} (hfiles : files.Shown) {pattern : String}
    (hpattern : NoEscape pattern.toList) :
    match files.expand pattern with
    | .ok paths => AllShown paths
    | .error e => e.Shown := by
  have hwords (word : List Char) (hword : word ⊆ pattern.toList) : escapeByte ∉ Text.Utf8.encode word :=
    mt escapeByte_mem_encode.1 (hpattern.mono hword)
  have hwalked := walked_expand composable_noEscape hfiles.names hwords
  cases h : files.expand pattern with
  | ok paths =>
    rw [h] at hwalked
    exact hwalked
  | error e =>
    rw [h] at hwalked
    obtain ⟨path, fault, rfl, hpath, hlist⟩ := hwalked
    exact ⟨hpath, hfiles.unlisted path fault hlist⟩

/-! ## Courses -/

/-- What a deed shows holds no escape character. -/
def Deed.Shown : Deed → Prop
  | .log e => e.Shown
  | .tell n => n.Shown

/-- What a course shows on its way holds no escape character, nor does the error that it may end with.
Where it ends well, its result has a property. -/
structure Course.Shows {α : Type} (c : Course α) (P : α → Prop) : Prop where
  deeds : ∀ d ∈ c.deeds, d.Shown
  error : ∀ e, c.outcome = .error e → e.Shown
  result : ∀ a, c.outcome = .ok a → P a

namespace Course.Shows

variable {α β : Type} {P : α → Prop} {Q : β → Prop}

theorem andThen {c : Course α} {k : α → Course β} (hc : c.Shows P) (hk : ∀ a, P a → (k a).Shows Q) :
    (c.andThen k).Shows Q := by
  obtain ⟨deeds, outcome⟩ := c
  cases outcome with
  | error e => exact ⟨hc.deeds, fun e' he' => hc.error e' (by simpa [Course.andThen] using he'), nofun⟩
  | ok a =>
    have hnext := hk a (hc.result a rfl)
    exact ⟨List.forall_mem_append.2 ⟨hc.deeds, hnext.deeds⟩, hnext.error, hnext.result⟩

theorem along {γ : Type} {step : α → γ → Course α} {xs : List γ}
    (hstep : ∀ x ∈ xs, ∀ a, P a → (step a x).Shows P) {a : α} (ha : P a) :
    (Course.along step a xs).Shows P := by
  induction xs generalizing a with
  | nil => exact ⟨nofun, nofun, fun b hb => Except.ok.inj hb ▸ ha⟩
  | cons x xs ih =>
    obtain ⟨hx, hxs⟩ := List.forall_mem_cons.1 hstep
    exact (hx a ha).andThen fun b hb => ih hxs hb

end Course.Shows

/-- The paths of a report hold no escape character. -/
def Report.Shown (r : Report) : Prop := ∀ path ∈ r.failures, NoEscape path.shown

section

variable {files : Access Id}

theorem shows_resolveCourse (token : String) : (resolveCourse token).Shows fun _ => True where
  deeds := by
    unfold resolveCourse
    split <;> simp [Deed.Shown, Event.Shown]
  error := nofun
  result _ _ := trivial

theorem shows_expandCourse (hfiles : files.Shown) {pattern : String} (hpattern : NoEscape pattern.toList) :
    (expandCourse files pattern).Shows AllShown := by
  have hexpand := shown_expand hfiles hpattern
  refine ⟨?_, fun e he => ?_, fun paths hpaths => ?_⟩
  · unfold expandCourse
    split <;> simp [Deed.Shown, Event.Shown]
  · rw [← expandCourse_outcome, he] at hexpand
    exact hexpand
  · rw [← expandCourse_outcome, hpaths] at hexpand
    exact hexpand

theorem noEscape_shown {path : List UInt8} (h : escapeByte ∉ path) :
    NoEscape (Path.ofBytes path).shown := by
  rw [Path.shown_ofBytes]
  exact noEscape_lossy h

theorem shown_findingDeeds {grammar : Grammar} {path : List UInt8} (finding : Finding)
    (hpath : escapeByte ∉ path) : ∀ d ∈ findingDeeds grammar path finding, d.Shown := by
  have hevents : ∀ e ∈ eventsOf grammar finding, e.Shown := by
    cases finding <;> simp [eventsOf, Event.Shown]
  have hnotice : (verdictNotice grammar path finding.verdict).Shown := by
    unfold verdictNotice
    split <;> exact noEscape_shown hpath
  intro d hd
  unfold findingDeeds at hd
  rcases List.mem_append.1 hd with hd | hd
  · rcases List.mem_append.1 hd with hd | hd
    · obtain ⟨e, he, rfl⟩ := List.mem_map.1 hd
      exact hevents e he
    · split at hd
      · cases hd
      · rw [List.mem_singleton.1 hd]
        exact hpath
  · rw [List.mem_singleton.1 hd]
    exact hnotice

theorem shows_fileCourse (hfiles : files.Shown) {report : Report} {path : List UInt8}
    (hreport : report.Shown) (hpath : escapeByte ∉ path) :
    (fileCourse files report path).Shows Report.Shown := by
  unfold fileCourse
  cases htext : files.textAt path with
  | error fault =>
    have hfault := hfiles.unread path fault htext
    refine ⟨nofun, fun e he => ?_, nofun⟩
    cases he
    exact ⟨hpath, hfault⟩
  | ok text =>
    refine ⟨shown_findingDeeds _ hpath, nofun, fun r hr => ?_⟩
    cases hr
    intro p hp
    unfold Report.tally at hp
    dsimp only at hp
    split at hp
    · exact hreport p hp
    · rcases List.mem_append.1 hp with hp | hp
      · exact hreport p hp
      · rw [List.mem_singleton.1 hp]
        exact noEscape_shown hpath

theorem shows_patternCourse (hfiles : files.Shown) {report : Report} {pattern : String}
    (hreport : report.Shown) (hpattern : NoEscape pattern.toList) :
    (patternCourse files report pattern).Shows Report.Shown := by
  refine (shows_expandCourse hfiles hpattern).andThen fun paths hpaths => ?_
  exact .along (fun path hpath r hr => shows_fileCourse hfiles hr (hpaths path hpath)) hreport

theorem shows_endCourse (grammar : Grammar) {report : Report} (hreport : report.Shown) :
    (endCourse grammar report).Shows Report.Shown where
  deeds := by
    intro d hd
    rcases List.mem_cons.1 hd with rfl | hd
    · trivial
    · rw [List.mem_singleton.1 hd]
      exact hreport
  error := nofun
  result r hr := Except.ok.inj hr ▸ hreport

/-- **A run shows no escape character**, neither in its log nor in its notices nor in its error, if its
files and its patterns hold none. -/
theorem shows_runCourse (hfiles : files.Shown) {request : CheckRequest}
    (hpatterns : ∀ p ∈ request.patterns, NoEscape p.toList) :
    (runCourse files request).Shows Report.Shown := by
  refine (shows_resolveCourse request.token).andThen fun grammar _ => ?_
  have hstart : Report.Shown { grammar } := nofun
  have halong : (Course.along (patternCourse files) { grammar } request.patterns).Shows Report.Shown :=
    .along (fun p hp r hr => shows_patternCourse hfiles hr (hpatterns p hp)) hstart
  exact halong.andThen fun report hreport => shows_endCourse grammar hreport

end

end EditionCheck
