import EditionCheck.Log.Event
import EditionCheck.Report

/-!
# Courses

What a run does for others to notice is logging and telling. A course is that part of a run as a value:
its deeds in their order, and how it ends if all of them succeed. A course can be followed in every
monad, with every log and every reporter.

* `Course.follow_andThen`, `Course.follow_along` — a sequence of courses is followed by following one
  course after the other;
* `Course.andThen_ok` — a sequence ends well if both parts do, and tells what they tell;
* `Course.follow_heard` — a reporter that sees a course to a good end is told exactly its notices;
* `Course.follow_of_accepting`, `Course.follow_of_reliable` — with a reporter that accepts the notices of
  a course, or all notices, the course ends as it does by itself.
-/

set_option autoImplicit false

namespace EditionCheck

open EditionCheck.Log

/-! ## Courses -/

/-- Something that a run does for others to notice. -/
inductive Deed where
  | log (e : Event)
  | tell (n : Notice)
  deriving DecidableEq

/-- The notice of a deed that has one. -/
def Deed.notice? : Deed → Option Notice
  | log _ => none
  | tell n => some n

/-- What a run does up to its end, and how it ends if all of that succeeds. -/
structure Course (α : Type) where
  deeds : List Deed
  outcome : Except Obstacle α

namespace Course

variable {α β : Type}

/-- The course that does nothing. -/
def done (a : α) : Course α := ⟨[], .ok a⟩

/-- One course and then another, unless the first ends early. -/
def andThen (c : Course α) (k : α → Course β) : Course β :=
  match c.outcome with
  | .ok a => ⟨c.deeds ++ (k a).deeds, (k a).outcome⟩
  | .error e => ⟨c.deeds, .error e⟩

/-- The notices of a course. -/
def notices (c : Course α) : List Notice := c.deeds.filterMap Deed.notice?

/-- One course after the other along a list, each with what the one before it gives. -/
def along {γ : Type} (step : α → γ → Course α) : α → List γ → Course α
  | a, [] => done a
  | a, x :: xs => (step a x).andThen fun a => along step a xs

section

variable {m : Type → Type} [Monad m]

/-- Carries out a deed. -/
def perform (log : Event → m Unit) (reporter : Reporter m) : Deed → ExceptT Obstacle m Unit
  | .log e => liftM (log e)
  | .tell n => reporter n

/-- Carries out deeds in turn. -/
def performAll (log : Event → m Unit) (reporter : Reporter m) : List Deed → ExceptT Obstacle m Unit
  | [] => pure ()
  | d :: ds => do
    perform log reporter d
    performAll log reporter ds

/-- Carries out a course. -/
def follow (log : Event → m Unit) (reporter : Reporter m) (c : Course α) : ExceptT Obstacle m α := do
  performAll log reporter c.deeds
  ExceptT.mk (pure c.outcome)

variable [LawfulMonad m] {log : Event → m Unit} {reporter : Reporter m}

theorem performAll_append (ds es : List Deed) :
    performAll log reporter (ds ++ es)
      = performAll log reporter ds >>= fun _ => performAll log reporter es := by
  induction ds with
  | nil => rw [List.nil_append, performAll, pure_bind]
  | cons d ds ih => rw [List.cons_append, performAll, performAll, ih, bind_assoc]

theorem error_bind (e : Obstacle) (f : α → ExceptT Obstacle m β) :
    (ExceptT.mk (pure (.error e)) : ExceptT Obstacle m α) >>= f = ExceptT.mk (pure (.error e)) := by
  apply ExceptT.ext
  rw [ExceptT.run_bind, ExceptT.run_mk, pure_bind]
  rfl

omit [LawfulMonad m] in
theorem performAll_log (es : List Event) :
    performAll log reporter (es.map .log)
      = es.forM fun e => (liftM (log e) : ExceptT Obstacle m Unit) := by
  induction es with
  | nil => rfl
  | cons e es ih =>
    rw [List.map_cons, performAll, ih]
    rfl

theorem follow_of_deeds_nil (outcome : Except Obstacle α) :
    follow log reporter ⟨[], outcome⟩ = ExceptT.mk (pure outcome) := by
  rw [follow, performAll, pure_bind]

theorem follow_andThen (c : Course α) (k : α → Course β) :
    (c.andThen k).follow log reporter
      = c.follow log reporter >>= fun a => (k a).follow log reporter := by
  obtain ⟨deeds, outcome⟩ := c
  cases outcome with
  | ok a =>
    simp only [andThen, follow, performAll_append, bind_assoc]
    refine bind_congr fun _ => ?_
    exact (pure_bind a fun a => (k a).follow log reporter).symm
  | error e =>
    simp only [andThen, follow, bind_assoc]
    refine bind_congr fun _ => ?_
    exact (error_bind e _).symm

theorem follow_along {γ : Type} {step : α → γ → Course α} {f : α → γ → ExceptT Obstacle m α}
    (hf : ∀ a x, f a x = (step a x).follow log reporter) (a : α) (xs : List γ) :
    xs.foldlM f a = (along step a xs).follow log reporter := by
  induction xs generalizing a with
  | nil => exact (follow_of_deeds_nil (.ok a)).symm
  | cons x xs ih =>
    rw [List.foldlM_cons, along, follow_andThen, hf]
    exact bind_congr fun a => ih a

end

end Course

/-! ## Courses that end well -/

namespace Course

variable {α β : Type}

/-- A sequence ends well if both of its courses do, and does what they do. -/
theorem andThen_ok {c : Course α} {k : α → Course β} {b : β} (h : (c.andThen k).outcome = .ok b) :
    ∃ a, c.outcome = .ok a ∧ (k a).outcome = .ok b
      ∧ (c.andThen k).notices = c.notices ++ (k a).notices := by
  obtain ⟨deeds, outcome⟩ := c
  cases outcome with
  | error e => cases h
  | ok a => exact ⟨a, rfl, h, List.filterMap_append⟩

end Course

/-! ## What a reporter hears -/

section

variable {σ α : Type}

/-- What a computation over a state gives, and the state that it leaves. -/
def runFrom (x : ExceptT Obstacle (StateM σ) α) (s : σ) : Except Obstacle α × σ := (x.run.run s).run

/-- A reporter none of whose calls fails. -/
def Reporter.Reliable (reporter : Reporter (StateM σ)) : Prop :=
  ∀ n s, (runFrom (reporter n) s).1 = .ok ()

/-- A log beside which notices are noted. -/
def heardLog (log : Event → StateM σ Unit) (e : Event) : StateM (List Notice × σ) Unit :=
  fun s => ((), s.1, (log e s.2).2)

/-- A reporter with every call to it noted, whether the call fails or not. -/
def Reporter.heard (reporter : Reporter (StateM σ)) : Reporter (StateM (List Notice × σ)) := fun n =>
  ExceptT.mk fun s =>
    let r := runFrom (reporter n) s.2
    (r.1, s.1 ++ [n], r.2)

theorem runFrom_bind {β : Type} (x : ExceptT Obstacle (StateM σ) α)
    (f : α → ExceptT Obstacle (StateM σ) β) (s : σ) :
    runFrom (x >>= f) s =
      match runFrom x s with
      | (.ok a, s') => runFrom (f a) s'
      | (.error e, s') => (.error e, s') := by
  unfold runFrom
  rw [ExceptT.run_bind, StateT.run_bind, Id.run_bind]
  obtain ⟨r, s'⟩ := (x.run.run s).run
  cases r <;> rfl

namespace Course

variable {log : Event → StateM σ Unit} {reporter : Reporter (StateM σ)}

/-- A deed that succeeds also succeeds when notices are noted, and then its own is the last of them. -/
theorem perform_heard {d : Deed} {s s' : σ} (told : List Notice)
    (h : runFrom (perform log reporter d) s = (.ok (), s')) :
    runFrom (perform (heardLog log) reporter.heard d) (told, s)
      = (.ok (), told ++ d.notice?.toList, s') := by
  cases d with
  | log e =>
    cases h
    rw [Deed.notice?, Option.toList_none, List.append_nil]
    rfl
  | tell n =>
    have hn : runFrom (reporter n) s = (.ok (), s') := h
    show ((runFrom (reporter n) s).1, told ++ [n], (runFrom (reporter n) s).2) = _
    rw [hn]
    rfl

theorem performAll_heard {ds : List Deed} {s s' : σ} (told : List Notice)
    (h : runFrom (performAll log reporter ds) s = (.ok (), s')) :
    runFrom (performAll (heardLog log) reporter.heard ds) (told, s)
      = (.ok (), told ++ ds.filterMap Deed.notice?, s') := by
  induction ds generalizing told s with
  | nil =>
    cases h
    rw [List.filterMap_nil, List.append_nil]
    rfl
  | cons d ds ih =>
    rw [performAll, runFrom_bind] at h ⊢
    cases hd : runFrom (perform log reporter d) s with
    | mk r s₁ =>
      rw [hd] at h
      cases r with
      | error e => cases h
      | ok u =>
        rw [perform_heard told hd]
        have hrest := ih (told ++ d.notice?.toList) h
        refine hrest.trans ?_
        rw [List.filterMap_cons, List.append_assoc]
        cases d.notice? <;> rfl

/-- A course that is followed to a good end ends well, and exactly its notices are told. -/
theorem follow_heard {c : Course α} {a : α} {s s' : σ}
    (h : runFrom (c.follow log reporter) s = (.ok a, s')) :
    c.outcome = .ok a
      ∧ runFrom (c.follow (heardLog log) reporter.heard) ([], s) = (.ok a, c.notices, s') := by
  rw [follow, runFrom_bind] at h ⊢
  cases hr : runFrom (performAll log reporter c.deeds) s with
  | mk r s₁ =>
    rw [hr] at h
    cases r with
    | error e => cases h
    | ok u =>
      have hend : (c.outcome, s₁) = (.ok a, s') := h
      rw [performAll_heard [] hr]
      obtain ⟨houtcome, hstate⟩ := Prod.mk.inj hend
      refine ⟨houtcome, ?_⟩
      show (c.outcome, [] ++ c.notices, s₁) = _
      rw [houtcome, hstate, List.nil_append]

theorem performAll_of_accepting (log : Event → StateM σ Unit) (ds : List Deed)
    (haccepts : ∀ n ∈ ds.filterMap Deed.notice?, ∀ s, (runFrom (reporter n) s).1 = .ok ()) (s : σ) :
    (runFrom (performAll log reporter ds) s).1 = .ok () := by
  induction ds generalizing s with
  | nil => rfl
  | cons d ds ih =>
    rw [List.filterMap_cons] at haccepts
    rw [performAll, runFrom_bind]
    cases d with
    | log e => exact ih haccepts _
    | tell n =>
      obtain ⟨hn, hrest⟩ := List.forall_mem_cons.1 haccepts
      have hd : (runFrom (perform log reporter (.tell n)) s).1 = .ok () := hn s
      cases hr : runFrom (perform log reporter (.tell n)) s with
      | mk r s' =>
        rw [hr] at hd
        cases hd
        exact ih hrest s'

/-- With a reporter that accepts its notices, a course ends as it would by itself. -/
theorem follow_of_accepting {c : Course α}
    (haccepts : ∀ n ∈ c.notices, ∀ s, (runFrom (reporter n) s).1 = .ok ()) (s : σ) :
    (runFrom (c.follow log reporter) s).1 = c.outcome := by
  have hall := performAll_of_accepting log c.deeds haccepts s
  rw [follow, runFrom_bind]
  cases hr : runFrom (performAll log reporter c.deeds) s with
  | mk r s' =>
    rw [hr] at hall
    cases hall
    rfl

/-- With a reporter that never fails, a course ends as it would by itself. -/
theorem follow_of_reliable (hreliable : reporter.Reliable) (c : Course α) (s : σ) :
    (runFrom (c.follow log reporter) s).1 = c.outcome :=
  follow_of_accepting (fun n _ => hreliable n) s

end Course

end

end EditionCheck
