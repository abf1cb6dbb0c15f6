import EditionCheck.Proofs.PlainNames
import EditionCheck.Proofs.TreeWalk

/-!
# What a walk finds

The paths that a walk finds below a path are spelled by the components that it was started with, name by
name, where `**` may stand for any number of directories. This holds for components that do not start
with a dot: for the others, a walk also tries `.` and `..`.

* `finds_bind`, `Finds.bind`, `finds_inTurn` — what walks find one after the other;
* `Spelled`, `SpelledFrom` — the paths that components spell;
* `finds_fill` — the walk, by induction on its depth.
-/

set_option autoImplicit false

namespace EditionCheck

open EditionCheck.Files EditionCheck.Glob

/-! ## What a walk finds -/

namespace Glob

/-- Every path that a walk finds has a property. -/
def Finds (x : Walk Id) (P : List UInt8 → Prop) : Prop :=
  ∀ paths, x.run = .ok paths → ∀ path ∈ paths, P path

section

variable {P Q : List UInt8 → Prop} {x y : Walk Id}

theorem finds_pure {paths : List (List UInt8)} (h : ∀ path ∈ paths, P path) : Finds (pure paths) P := by
  intro found hfound
  cases hfound
  exact h

theorem finds_nil : Finds (pure []) P := finds_pure fun _ h => absurd h List.not_mem_nil

theorem finds_one {path : List UInt8} (h : P path) : Finds (pure [path]) P :=
  finds_pure (List.forall_mem_singleton.2 h)

theorem finds_throw (e : Unlisted) : Finds (throw e) P := by
  intro paths h
  cases h

theorem Finds.mono (h : Finds x P) (hPQ : ∀ path, P path → Q path) : Finds x Q :=
  fun paths hpaths path hpath => hPQ path (h paths hpaths path hpath)

theorem finds_ite {c : Prop} [Decidable c] (hx : c → Finds x P) (hy : ¬ c → Finds y P) :
    Finds (if c then x else y) P := by
  split
  · next h => exact hx h
  · next h => exact hy h

/-- What is asked before a walk has an answer if the walk finds something. -/
theorem exists_of_bind_ok {α β : Type} {a : ExceptT Unlisted Id α} {f : α → ExceptT Unlisted Id β}
    {b : β} (h : (a >>= f).run = .ok b) : ∃ r, a.run = .ok r ∧ (f r).run = .ok b := by
  rw [ExceptT.run_bind] at h
  cases ha : a.run with
  | error e =>
    rw [ha] at h
    cases h
  | ok r =>
    rw [ha] at h
    exact ⟨r, rfl, h⟩

/-- A walk may rely on the answer to what is asked before it. -/
theorem finds_bind {α : Type} {a : ExceptT Unlisted Id α} {f : α → Walk Id}
    (h : ∀ r, a.run = .ok r → Finds (f r) P) : Finds (a >>= f) P := by
  intro paths hpaths
  obtain ⟨r, ha, hr⟩ := exists_of_bind_ok hpaths
  exact h r ha paths hr

/-- One walk and then another, which may rely on what the first one finds. -/
theorem Finds.bind {f : List (List UInt8) → Walk Id} (hx : Finds x P)
    (hf : ∀ here, (∀ path ∈ here, P path) → Finds (f here) P) : Finds (x >>= f) P :=
  finds_bind fun here hhere => hf here (hx here hhere)

theorem inTurn_cons {α : Type} (a : α) (xs : List α) (f : α → Walk Id) :
    inTurn (a :: xs) f = f a >>= fun here => inTurn xs f >>= fun below => pure (here ++ below) := by
  simp [inTurn, List.mapM_cons]

theorem finds_inTurn {α : Type} {xs : List α} {f : α → Walk Id} (h : ∀ a ∈ xs, Finds (f a) P) :
    Finds (inTurn xs f) P := by
  induction xs with
  | nil => exact finds_nil
  | cons a xs ih =>
    obtain ⟨ha, hxs⟩ := List.forall_mem_cons.1 h
    rw [inTurn_cons]
    refine ha.bind fun here hhere => (ih hxs).bind fun below hbelow => ?_
    exact finds_pure (List.forall_mem_append.2 ⟨hhere, hbelow⟩)

end

/-! ## Paths that are spelled -/

/-- A name on the way to a path, with the component that let it pass. -/
abbrev Step := Component × List UInt8

/-- A pattern spells a path name by name: every component but `**` takes one name, which it matches, and
`**` takes any number of names. -/
inductive Spelled : List Component → List Step → Prop
  | nil : Spelled [] []
  | name {c : Component} {rest : List Component} {n : List UInt8} {steps : List Step} :
      c.matches n → Spelled rest steps → Spelled (c :: rest) ((c, n) :: steps)
  | skip {rest : List Component} {steps : List Step} :
      Spelled rest steps → Spelled (.recursive :: rest) steps
  | down {rest : List Component} {n : List UInt8} {steps : List Step} :
      Spelled (.recursive :: rest) steps → Spelled (.recursive :: rest) ((.recursive, n) :: steps)

/-- The path that the names of some steps make below a path. -/
def pathAlong (path : List UInt8) (steps : List Step) : List UInt8 :=
  steps.foldl (fun path step => childPath path step.2) path

/-- A path lies below another one, at the end of some steps that components spell. -/
def SpelledFrom (components : List Component) (path found : List UInt8) : Prop :=
  ∃ steps, Spelled components steps ∧ steps ≠ [] ∧ Plain (steps.map Prod.snd)
    ∧ found = pathAlong path steps

section

variable {c : Component} {components rest : List Component} {path found n : List UInt8}
  {steps : List Step}

theorem mem_of_spelled (h : Spelled components steps) (hstep : (c, n) ∈ steps) :
    c ∈ components ∧ c.matches n := by
  induction h with
  | nil => exact absurd hstep List.not_mem_nil
  | name hmatches _ ih =>
    rcases List.mem_cons.1 hstep with heq | hstep
    · cases heq
      exact ⟨List.mem_cons_self, hmatches⟩
    · exact ⟨List.mem_cons_of_mem _ (ih hstep).1, (ih hstep).2⟩
  | skip _ ih => exact ⟨List.mem_cons_of_mem _ (ih hstep).1, (ih hstep).2⟩
  | down _ ih =>
    rcases List.mem_cons.1 hstep with heq | hstep
    · cases heq
      exact ⟨List.mem_cons_self, rfl⟩
    · exact ih hstep

/-- Several `**` in a row spell what one does. -/
theorem spelled_of_dropWhile (h : Spelled (.recursive :: rest.dropWhile (· == .recursive)) steps) :
    Spelled (.recursive :: rest) steps := by
  induction rest with
  | nil => exact h
  | cons c rest ih =>
    rw [List.dropWhile_cons] at h
    split at h
    · next hc =>
      rw [beq_iff_eq.1 hc]
      exact .skip (ih h)
    · exact h

theorem spelledFrom_one (hmatches : c.matches n) (hn : slash ∉ n) :
    SpelledFrom [c] path (childPath path n) :=
  ⟨[(c, n)], .name hmatches .nil, List.cons_ne_nil _ _, plain_cons.2 ⟨hn, plain_nil⟩, rfl⟩

theorem SpelledFrom.name (h : SpelledFrom rest (childPath path n) found) (hmatches : c.matches n)
    (hn : slash ∉ n) : SpelledFrom (c :: rest) path found := by
  obtain ⟨steps, hsteps, -, hplain, hfound⟩ := h
  exact ⟨(c, n) :: steps, .name hmatches hsteps, List.cons_ne_nil _ _, plain_cons.2 ⟨hn, hplain⟩,
    hfound⟩

theorem SpelledFrom.skip (h : SpelledFrom (rest.dropWhile (· == .recursive)) path found) :
    SpelledFrom (.recursive :: rest) path found := by
  obtain ⟨steps, hsteps, hne, hplain, hfound⟩ := h
  exact ⟨steps, spelled_of_dropWhile (.skip hsteps), hne, hplain, hfound⟩

theorem SpelledFrom.down
    (h : SpelledFrom (.recursive :: rest.dropWhile (· == .recursive)) (childPath path n) found)
    (hn : slash ∉ n) : SpelledFrom (.recursive :: rest) path found := by
  obtain ⟨steps, hsteps, -, hplain, hfound⟩ := h
  exact ⟨(.recursive, n) :: steps, .down (spelled_of_dropWhile hsteps), List.cons_ne_nil _ _,
    plain_cons.2 ⟨hn, hplain⟩, hfound⟩

/-- What `**` reaches when nothing follows it. -/
theorem spelledFrom_recursive (hlater : rest.dropWhile (· == .recursive) = []) (hn : slash ∉ n) :
    SpelledFrom (.recursive :: rest) path (childPath path n) := by
  refine ⟨[(.recursive, n)], .down (spelled_of_dropWhile ?_), List.cons_ne_nil _ _,
    plain_cons.2 ⟨hn, plain_nil⟩, rfl⟩
  rw [hlater]
  exact .skip .nil

end

/-! ## The walk -/

/-- A component neither starts with a dot nor is a name with a slash. -/
structure Component.Undotted (c : Component) : Prop where
  undotted : c.startsWithDot = false
  plain : ∀ n, c = .literal n → slash ∉ n

theorem undotted_recursive : Component.recursive.Undotted := ⟨rfl, fun _ h => by cases h⟩

section

variable {t : Tree} {current : Place} {directoriesOnly : Bool}
  {below : List Component → List UInt8 → Walk Id}

theorem finds_ending {P : List UInt8 → Prop} {path : List UInt8} (h : P path) :
    Finds (ending (t.access current) directoriesOnly path) P := by
  unfold ending
  refine finds_ite (fun _ => ?_) fun _ => finds_one h
  exact finds_bind fun _ _ => finds_ite (fun _ => finds_one h) fun _ => finds_nil

variable (hbelow : ∀ components path, (∀ c ∈ components, c.Undotted) →
  Finds (below components path) (SpelledFrom components path))
include hbelow

theorem finds_onward {c : Component} {rest : List Component} {path n : List UInt8}
    (hrest : ∀ c ∈ rest, c.Undotted) (hmatches : c.matches n) (hn : slash ∉ n) :
    Finds (onward (t.access current) directoriesOnly below rest (childPath path n))
      (SpelledFrom (c :: rest) path) := by
  unfold onward
  split
  · exact finds_ending (spelledFrom_one hmatches hn)
  · exact (hbelow _ _ hrest).mono fun found hfound => hfound.name hmatches hn

theorem finds_onMatch {components : List Component} {path n : List UInt8}
    (hcomponents : ∀ c ∈ components, c.Undotted) (hn : slash ∉ n) :
    Finds (onMatch (t.access current) directoriesOnly below components (childPath path n) n)
      (SpelledFrom components path) := by
  unfold onMatch
  split
  · exact finds_nil
  · refine finds_ite (fun hmatches => ?_) fun _ => finds_nil
    exact finds_onward hbelow (fun c hc => hcomponents c (List.mem_cons_of_mem _ hc)) hmatches hn

theorem finds_visit {components : List Component} {path n : List UInt8}
    (hcomponents : ∀ c ∈ components, c.Undotted) (hn : slash ∉ n) :
    Finds (visit (t.access current) directoriesOnly below components (childPath path n) n)
      (SpelledFrom components path) := by
  unfold visit
  split
  · next rest =>
    have hrest : ∀ c ∈ rest.dropWhile (· == .recursive), c.Undotted := fun c hc =>
      hcomponents c (List.mem_cons_of_mem _ ((List.dropWhile_suffix _).subset hc))
    refine finds_bind fun isDirectory _ => ?_
    extract_lets more
    have hmore (here : List (List UInt8))
        (hhere : ∀ found ∈ here, SpelledFrom (.recursive :: rest) path found) :
        Finds (more here) (SpelledFrom (.recursive :: rest) path) := by
      refine finds_ite (fun _ => ?_) fun _ => ?_
      · have hdown := hbelow (.recursive :: rest.dropWhile (· == .recursive)) (childPath path n)
          (List.forall_mem_cons.2 ⟨undotted_recursive, hrest⟩)
        exact (hdown.mono fun found hfound => hfound.down hn).bind fun below' hbelow' =>
          finds_pure (List.forall_mem_append.2 ⟨hhere, hbelow'⟩)
      · exact finds_nil.bind fun below' hbelow' =>
          finds_pure (List.forall_mem_append.2 ⟨hhere, hbelow'⟩)
    split
    · next hlater =>
      refine Finds.bind (finds_pure ?_) hmore
      split
      · exact List.forall_mem_singleton.2 (spelledFrom_recursive hlater hn)
      · exact fun _ h => absurd h List.not_mem_nil
    · refine Finds.bind (Finds.mono (finds_onMatch hbelow hrest hn) fun found hfound => ?_) hmore
      exact hfound.skip
  · exact finds_onMatch hbelow hcomponents hn

end

theorem selectedDotNames_eq_nil {c : Component} (h : c.Undotted) :
    selectedDotNames c = [] := by
  rw [selectedDotNames, h.undotted]
  rfl

/-- The names that a directory of a tree lists are names of its entries. -/
theorem exists_of_mem_list {t : Tree} {current : Place} {path n : List UInt8} {ns : List (List UInt8)}
    (h : (t.resolve current path).bind t.listAt = .ok ns) (hn : n ∈ ns) : ∃ e ∈ t.entries, n ∈ e.1 := by
  cases hplace : t.resolve current path with
  | error fault =>
    rw [hplace] at h
    cases h
  | ok place =>
    rw [hplace] at h
    have hlist : t.listAt place = .ok ns := h
    unfold Tree.listAt at hlist
    split at hlist
    · cases hlist
      obtain ⟨e, he, heq⟩ := Tree.mem_children_iff.1 hn
      exact ⟨e, he, by simp [heq]⟩
    · cases hlist

theorem plain_of_list {t : Tree} {current : Place} (hnamed : t.Named) {path : List UInt8}
    {ns : List (List UInt8)} (h : (t.resolve current path).bind t.listAt = .ok ns) : Plain ns := by
  intro n hn
  obtain ⟨e, he, hne⟩ := exists_of_mem_list h hn
  exact hnamed e he n hne

/-- **Every path that a walk finds is spelled** by the components that it was started with, if none of
them starts with a dot. -/
theorem finds_fill {t : Tree} {current : Place} {directoriesOnly : Bool} (hnamed : t.Named)
    (depth : Nat) (components : List Component) (path : List UInt8)
    (hcomponents : ∀ c ∈ components, c.Undotted) :
    Finds (fill (t.access current) directoriesOnly depth components path)
      (SpelledFrom components path) := by
  induction depth generalizing components path with
  | zero => exact finds_nil
  | succ depth ih =>
    cases components with
    | nil => exact finds_nil
    | cons c rest =>
      obtain ⟨hc, hrest⟩ := List.forall_mem_cons.1 hcomponents
      rw [fill]
      refine finds_bind fun isDirectory _ => ?_
      extract_lets deeper
      split
      · next name =>
        extract_lets next more
        have hmore (found : Bool) : Finds (more found) (SpelledFrom (.literal name :: rest) path) := by
          refine finds_ite (fun _ => ?_) fun _ => finds_nil
          exact finds_onward ih hrest (Component.matches_literal.2 rfl) (hc.plain name rfl)
        split
        · exact finds_bind fun found _ => hmore found
        · exact finds_bind fun found _ => hmore found
      · refine finds_ite (fun _ => ?_) fun _ => finds_nil
        refine finds_bind fun listed hlisted => ?_
        split
        · exact finds_throw _
        · next ns =>
          have hns : Plain ns := plain_of_list hnamed (Except.ok.inj hlisted)
          rw [selectedDotNames_eq_nil hc]
          refine Finds.bind finds_nil fun dots hdots => ?_
          refine Finds.bind (finds_inTurn fun n hn => ?_) fun entries hentries => ?_
          · exact finds_visit ih hcomponents (hns n (mem_sortNames.1 hn))
          · exact finds_pure (List.forall_mem_append.2 ⟨hdots, hentries⟩)

end Glob

end EditionCheck
