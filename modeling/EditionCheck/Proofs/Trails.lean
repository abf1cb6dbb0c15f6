import EditionCheck.Proofs.Spelling

/-!
# Trails

A walk reaches a path along a trail: the names on its way, each with the component that let it pass. The
components of a pattern leave several trails open where `**` stands, and a walk takes none of them twice.

* `Tree.Proper` — the entries of a tree are its own, and have names as a directory lists them;
* `Trail` — the ways in which a walk may match components;
* `Tracked` — a walk finds a path for each of some trails that differ; `Tracked.behind`, `Tracked.append`
  and `tracked_inTurn` put walks together;
* `tracked_fill` — so does the walk for a pattern, by induction on its depth.
-/

set_option autoImplicit false

namespace EditionCheck

open EditionCheck.Files EditionCheck.Glob

/-! ## Proper trees -/

namespace Files

/-- A name as a directory lists it. -/
structure Genuine (name : List UInt8) : Prop where
  nonempty : name ≠ []
  plain : slash ∉ name
  notCurrent : name ≠ [dot]

/-- No place of a tree is taken twice, and all names in it are names that a directory can list. -/
structure Tree.Proper (t : Tree) : Prop where
  distinct : (t.entries.map (·.1)).Nodup
  genuine : ∀ e ∈ t.entries, ∀ name ∈ e.1, Genuine name

theorem Tree.Proper.children {t : Tree} (h : t.Proper) (place : Place) :
    (t.children place).Nodup ∧ ∀ name ∈ t.children place, Genuine name := by
  refine ⟨?_, ?_⟩
  · have hplaces : t.children place = (t.entries.map (·.1)).filterMap
        fun p => if p.dropLast = place then p.getLast? else none := by
      rw [Tree.children, List.filterMap_map]
      rfl
    rw [hplaces]
    refine List.Pairwise.filterMap _ (fun p q hne n hn m hm hnm => hne ?_) h.distinct
    have hlast {r : Place} {k : List UInt8}
        (hr : (if r.dropLast = place then r.getLast? else none) = some k) : r = place ++ [k] := by
      split at hr
      · next hfront =>
        obtain ⟨front, hrest⟩ := List.getLast?_eq_some_iff.1 hr
        rw [← hfront, hrest, List.dropLast_concat]
      · cases hr
    rw [hlast hn, hlast hm, hnm]
  · intro name hname
    obtain ⟨e, he, heq⟩ := Tree.mem_children_iff.1 hname
    refine h.genuine e he name ?_
    rw [heq]
    exact List.mem_append_right _ (List.mem_singleton.2 rfl)

theorem Tree.Proper.list {t : Tree} (h : t.Proper) {current : Place} {path : List UInt8}
    {ns : List (List UInt8)} (hlist : (t.resolve current path).bind t.listAt = .ok ns) :
    ns.Nodup ∧ ∀ name ∈ ns, Genuine name := by
  cases hplace : t.resolve current path with
  | error fault =>
    rw [hplace] at hlist
    cases hlist
  | ok place =>
    rw [hplace] at hlist
    have hlist : t.listAt place = .ok ns := hlist
    unfold Tree.listAt at hlist
    split at hlist
    · cases hlist
      exact h.children place
    · cases hlist

end Files

namespace Glob

/-! ## Trails -/

/-- The components behind a `**`, without those that add nothing to it. -/
abbrev behindRecursive (rest : List Component) : List Component := rest.dropWhile (· == .recursive)

/-- The ways in which components are matched by the names on the way to a path. A name of the pattern is
taken as it is, all others are names that a directory lists. -/
inductive Trail : List Component → List Step → Prop
  | nil : Trail [] []
  | literal {n : List UInt8} {rest : List Component} {steps : List Step} :
      slash ∉ n → Trail rest steps → Trail (.literal n :: rest) ((.literal n, n) :: steps)
  | wild {ws : List Wildcard} {n : List UInt8} {rest : List Component} {steps : List Step} :
      (Component.wild ws).matches n → Genuine n → Trail rest steps →
        Trail (.wild ws :: rest) ((.wild ws, n) :: steps)
  /-- The component behind `**` is matched right here. -/
  | here {c : Component} {n : List UInt8} {rest : List Component} {steps : List Step} :
      Genuine n → Trail (behindRecursive rest) ((c, n) :: steps) →
        Trail (.recursive :: rest) ((c, n) :: steps)
  /-- The match goes on below a directory. -/
  | down {n : List UInt8} {rest : List Component} {steps : List Step} :
      Genuine n → Trail (.recursive :: behindRecursive rest) steps →
        Trail (.recursive :: rest) ((.recursive, n) :: steps)
  /-- A directory is itself what is looked for. -/
  | last {n : List UInt8} {rest : List Component} :
      Genuine n → behindRecursive rest = [] → Trail (.recursive :: rest) [(.recursive, n)]

/-- The components of a pattern in which names are spelled without slashes, and wildcards without a dot
in front. -/
structure Component.Steady (c : Component) : Prop where
  plain : ∀ n, c = .literal n → slash ∉ n
  undotted : ∀ ws, c = .wild ws → c.startsWithDot = false

section

variable {c : Component} {components rest : List Component} {steps : List Step} {n : List UInt8}

theorem steady_recursive : Component.recursive.Steady :=
  ⟨fun _ h => (by cases h), fun _ h => (by cases h)⟩

theorem behindRecursive_subset : behindRecursive rest ⊆ rest := (List.dropWhile_suffix _).subset

theorem behindRecursive_ne {later : List Component} (h : behindRecursive rest = c :: later) :
    c ≠ .recursive := by
  rintro rfl
  have hhead := List.head?_dropWhile_not (· == Component.recursive) rest
  rw [show rest.dropWhile (· == .recursive) = .recursive :: later from h] at hhead
  cases hhead

theorem Trail.ne_nil (h : Trail components steps) (hne : components ≠ []) : steps ≠ [] := by
  cases h with
  | nil => exact absurd rfl hne
  | _ => exact List.cons_ne_nil _ _

end

/-! ## Walks along trails -/

/-- A walk finds a path for each of some trails from a path, which all differ. -/
def Tracked (x : Walk Id) (P : List Step → Prop) (path : List UInt8) : Prop :=
  ∀ paths, x.run = .ok paths → ∃ trails : List (List Step), trails.Nodup ∧ (∀ s ∈ trails, P s)
    ∧ paths = trails.map (pathAlong path)

section

variable {P Q : List Step → Prop} {x y : Walk Id} {path : List UInt8}

theorem tracked_nil : Tracked (pure []) P path := by
  intro paths h
  cases h
  exact ⟨[], List.nodup_nil, fun _ h => absurd h List.not_mem_nil, rfl⟩

theorem tracked_one {s : List Step} (h : P s) : Tracked (pure [pathAlong path s]) P path := by
  intro paths hpaths
  cases hpaths
  exact ⟨[s], List.pairwise_singleton _ s, List.forall_mem_singleton.2 h, rfl⟩

theorem tracked_throw (e : Unlisted) : Tracked (throw e) P path := by
  intro paths h
  cases h

theorem Tracked.mono (h : Tracked x P path) (hPQ : ∀ s, P s → Q s) : Tracked x Q path := by
  intro paths hpaths
  obtain ⟨trails, hnodup, hP, heq⟩ := h paths hpaths
  exact ⟨trails, hnodup, fun s hs => hPQ s (hP s hs), heq⟩

theorem tracked_ite {c : Prop} [Decidable c] (hx : c → Tracked x P path)
    (hy : ¬ c → Tracked y P path) : Tracked (if c then x else y) P path := by
  split
  · next h => exact hx h
  · next h => exact hy h

/-- A walk may rely on the answer to what is asked before it. -/
theorem tracked_bind {α : Type} {a : ExceptT Unlisted Id α} {f : α → Walk Id}
    (h : ∀ r, a.run = .ok r → Tracked (f r) P path) : Tracked (a >>= f) P path := by
  intro paths hpaths
  obtain ⟨r, ha, hr⟩ := exists_of_bind_ok hpaths
  exact h r ha paths hr

/-- The trails from a path through one of its names. -/
theorem Tracked.behind {c : Component} {n : List UInt8} (h : Tracked x P (childPath path n)) :
    Tracked x (fun s => ∃ steps, s = (c, n) :: steps ∧ P steps) path := by
  intro paths hpaths
  obtain ⟨trails, hnodup, hP, rfl⟩ := h paths hpaths
  refine ⟨trails.map ((c, n) :: ·), ?_, ?_, ?_⟩
  · exact List.Pairwise.map _ (fun s s' hne heq => hne (List.cons.inj heq).2) hnodup
  · intro s hs
    obtain ⟨steps, hsteps, rfl⟩ := List.mem_map.1 hs
    exact ⟨steps, rfl, hP steps hsteps⟩
  · rw [List.map_map]
    rfl

/-- One walk and then another one along other trails. -/
theorem Tracked.append (hx : Tracked x P path) (hy : Tracked y Q path) (hdisjoint : ∀ s, P s → ¬ Q s) :
    Tracked (x >>= fun a => y >>= fun b => pure (a ++ b)) (fun s => P s ∨ Q s) path := by
  intro paths hpaths
  obtain ⟨a, ha, hpaths⟩ := exists_of_bind_ok hpaths
  obtain ⟨b, hb, hpaths⟩ := exists_of_bind_ok hpaths
  cases hpaths
  obtain ⟨ss, hss, hP, rfl⟩ := hx a ha
  obtain ⟨ts, hts, hQ, rfl⟩ := hy b hb
  refine ⟨ss ++ ts, ?_, ?_, List.map_append.symm⟩
  · refine List.nodup_append.2 ⟨hss, hts, ?_⟩
    rintro s hs t ht rfl
    exact hdisjoint s (hP s hs) (hQ s ht)
  · exact List.forall_mem_append.2 ⟨fun s hs => .inl (hP s hs), fun s hs => .inr (hQ s hs)⟩

/-- Walks in turn, each along trails of its own. -/
theorem tracked_inTurn {α : Type} {xs : List α} {f : α → Walk Id} {R : α → List Step → Prop}
    (hxs : xs.Nodup) (h : ∀ a ∈ xs, Tracked (f a) (R a) path)
    (hdisjoint : ∀ a b s, R a s → R b s → a = b) :
    Tracked (inTurn xs f) (fun s => ∃ a ∈ xs, R a s) path := by
  induction xs with
  | nil => exact tracked_nil
  | cons a xs ih =>
    obtain ⟨ha, hrest⟩ := List.forall_mem_cons.1 h
    obtain ⟨hnot, hxs⟩ := List.nodup_cons.1 hxs
    rw [inTurn_cons]
    refine (ha.append (ih hxs hrest) ?_).mono ?_
    · rintro s hs ⟨b, hb, hs'⟩
      exact hnot (hdisjoint a b s hs hs' ▸ hb)
    · rintro s (hs | ⟨b, hb, hs⟩)
      · exact ⟨a, List.mem_cons_self, hs⟩
      · exact ⟨b, List.mem_cons_of_mem _ hb, hs⟩

end

/-! ## The walk for a pattern -/

section

variable {files : Access Id} {directoriesOnly : Bool}
  {below : List Component → List UInt8 → Walk Id} {path n : List UInt8}

theorem tracked_ending : Tracked (ending files directoriesOnly path) (Trail []) path := by
  have hone : Tracked (pure [path]) (Trail []) path := tracked_one (s := []) .nil
  unfold ending
  refine tracked_ite (fun _ => ?_) fun _ => hone
  exact tracked_bind fun _ _ => tracked_ite (fun _ => hone) fun _ => tracked_nil

/-- What an entry gives for `**`: a match of what follows here, and what is found below the entry. -/
theorem visit_recursive (rest : List Component) (path name : List UInt8) :
    visit files directoriesOnly below (.recursive :: rest) path name
      = (liftM (files.isDirectory path) : ExceptT Unlisted Id Bool) >>= fun isDirectory =>
        (match behindRecursive rest with
          | [] => pure (if isDirectory then [path] else [])
          | _ :: _ => onMatch files directoriesOnly below (behindRecursive rest) path name) >>= fun here =>
        (if isDirectory then below (.recursive :: behindRecursive rest) path else pure []) >>= fun found =>
        pure (here ++ found) := by
  rw [visit]
  refine bind_congr fun isDirectory => ?_
  unfold behindRecursive
  generalize rest.dropWhile (· == Component.recursive) = later
  cases later <;> cases isDirectory <;> rfl

variable (hbelow : ∀ components path, (∀ c ∈ components, c.Steady) →
  Tracked (below components path) (Trail components) path)
include hbelow

theorem tracked_onward {rest : List Component} (hrest : ∀ c ∈ rest, c.Steady) :
    Tracked (onward files directoriesOnly below rest path) (Trail rest) path := by
  unfold onward
  split
  · exact tracked_ending
  · exact hbelow _ _ hrest

/-- The trails that match a component here start with it. -/
theorem tracked_onMatch {components : List Component} (hcomponents : ∀ c ∈ components, c.Steady)
    (hn : Genuine n) (hhead : ∀ c rest, components = c :: rest → c ≠ .recursive) :
    Tracked (onMatch files directoriesOnly below components (childPath path n) n)
      (fun s => Trail components s ∧ ∃ c steps, c ≠ .recursive ∧ s = (c, n) :: steps) path := by
  unfold onMatch
  split
  · exact tracked_nil
  · next c rest =>
    refine tracked_ite (fun hmatches => ?_) fun _ => tracked_nil
    have honward : Tracked (onward files directoriesOnly below rest (childPath path n)) (Trail rest)
        (childPath path n) :=
      tracked_onward hbelow fun d hd => hcomponents d (List.mem_cons_of_mem _ hd)
    refine (honward.behind (c := c)).mono ?_
    rintro s ⟨steps, rfl, hsteps⟩
    have hc := hhead c rest rfl
    refine ⟨?_, c, steps, hc, rfl⟩
    cases c with
    | literal m =>
      rw [Component.matches_literal.1 hmatches]
      exact .literal ((hcomponents _ List.mem_cons_self).plain m rfl) hsteps
    | wild ws => exact .wild hmatches hn hsteps
    | recursive => exact absurd rfl hc

/-- The trails through an entry that `**` passes: those that end here or match here what follows, and
those that go on below with the same `**`. -/
theorem tracked_visit_recursive {rest : List Component} (hrest : ∀ c ∈ rest, c.Steady)
    (hn : Genuine n) :
    Tracked (visit files directoriesOnly below (.recursive :: rest) (childPath path n) n)
      (fun s => Trail (.recursive :: rest) s ∧ ∃ c steps, s = (c, n) :: steps) path := by
  have hlater : ∀ c ∈ behindRecursive rest, c.Steady := fun c hc => hrest c (behindRecursive_subset hc)
  rw [visit_recursive]
  refine tracked_bind fun isDirectory _ => ?_
  have hunder : Tracked (if isDirectory then
        below (.recursive :: behindRecursive rest) (childPath path n) else pure [])
      (fun s => ∃ steps, s = (.recursive, n) :: steps
        ∧ Trail (.recursive :: behindRecursive rest) steps) path := by
    refine tracked_ite (fun _ => ?_) fun _ => tracked_nil
    exact (hbelow _ _ (List.forall_mem_cons.2 ⟨steady_recursive, hlater⟩)).behind
  -- the trails of the two parts pass the name with different components, or one ends with it
  cases hcase : behindRecursive rest with
  | nil =>
    rw [hcase] at hunder
    have hhere : Tracked (pure (if isDirectory then [childPath path n] else []))
        (fun s => s = [(.recursive, n)]) path := by
      split
      · exact tracked_one (s := [(.recursive, n)]) rfl
      · exact tracked_nil
    refine (hhere.append hunder ?_).mono ?_
    · rintro s rfl ⟨steps, hs, hsteps⟩
      exact hsteps.ne_nil (List.cons_ne_nil _ _) (List.cons.inj hs).2.symm
    · rintro s (rfl | ⟨steps, rfl, hsteps⟩)
      · exact ⟨.last hn hcase, _, _, rfl⟩
      · exact ⟨.down hn (hcase ▸ hsteps), _, _, rfl⟩
  | cons d later =>
    rw [hcase] at hunder hlater
    refine Tracked.mono (Tracked.append (tracked_onMatch hbelow hlater hn ?_) hunder ?_) ?_
    · intro c rest' heq
      cases heq
      exact behindRecursive_ne hcase
    · rintro s ⟨-, c, steps, hc, rfl⟩ ⟨steps', heq, -⟩
      exact hc (Prod.mk.inj (List.cons.inj heq).1).1
    · rintro s (⟨hs, c, steps, -, rfl⟩ | ⟨steps, rfl, hsteps⟩)
      · exact ⟨.here hn (hcase ▸ hs), _, _, rfl⟩
      · exact ⟨.down hn (hcase ▸ hsteps), _, _, rfl⟩

/-- The trails through an entry of a directory start with its name. -/
theorem tracked_visit {components : List Component} (hcomponents : ∀ c ∈ components, c.Steady)
    (hn : Genuine n) :
    Tracked (visit files directoriesOnly below components (childPath path n) n)
      (fun s => Trail components s ∧ ∃ c steps, s = (c, n) :: steps) path := by
  by_cases hrecursive : ∃ rest, components = .recursive :: rest
  · obtain ⟨rest, rfl⟩ := hrecursive
    exact tracked_visit_recursive hbelow (List.forall_mem_cons.1 hcomponents).2 hn
  · have hvisit : visit files directoriesOnly below components (childPath path n) n
        = onMatch files directoriesOnly below components (childPath path n) n := by
      unfold visit
      split
      · next rest => exact absurd ⟨rest, rfl⟩ hrecursive
      · rfl
    rw [hvisit]
    refine (tracked_onMatch hbelow hcomponents hn ?_).mono ?_
    · rintro c rest rfl rfl
      exact hrecursive ⟨rest, rfl⟩
    · rintro s ⟨hs, c, steps, -, rfl⟩
      exact ⟨hs, c, steps, rfl⟩

end

theorem selectedDotNames_steady {c : Component} (h : c.Steady) (hc : ∀ n, c ≠ .literal n) :
    selectedDotNames c = [] := by
  cases c with
  | literal n => exact absurd rfl (hc n)
  | wild ws => rw [selectedDotNames, h.undotted ws rfl, if_neg Bool.false_ne_true]
  | recursive => rfl

/-- **A walk takes no trail twice**: it finds a path for each of some trails that match the components it
was started with, and these trails all differ. -/
theorem tracked_fill {t : Tree} {current : Place} {directoriesOnly : Bool} (hproper : t.Proper)
    (depth : Nat) (components : List Component) (path : List UInt8)
    (hcomponents : ∀ c ∈ components, c.Steady) :
    Tracked (fill (t.access current) directoriesOnly depth components path) (Trail components) path := by
  induction depth generalizing components path with
  | zero => exact tracked_nil
  | succ depth ih =>
    cases components with
    | nil => exact tracked_nil
    | cons c rest =>
      obtain ⟨hc, hrest⟩ := List.forall_mem_cons.1 hcomponents
      rw [fill]
      refine tracked_bind fun isDirectory _ => ?_
      extract_lets deeper
      split
      · next name =>
        extract_lets next more
        have hmore (found : Bool) : Tracked (more found) (Trail (.literal name :: rest)) path := by
          refine tracked_ite (fun _ => ?_) fun _ => tracked_nil
          refine ((tracked_onward ih hrest).behind (c := .literal name)).mono ?_
          rintro s ⟨steps, rfl, hsteps⟩
          exact .literal (hc.plain name rfl) hsteps
        split
        · exact tracked_bind fun found _ => hmore found
        · exact tracked_bind fun found _ => hmore found
      · next hnot =>
        refine tracked_ite (fun _ => ?_) fun _ => tracked_nil
        refine tracked_bind fun listed hlisted => ?_
        split
        · exact tracked_throw _
        · next ns =>
          obtain ⟨hnodup, hgenuine⟩ := hproper.list (Except.ok.inj hlisted)
          have hsorted : (sortNames ns).Nodup := (List.mergeSort_perm ns notAfter).nodup_iff.2 hnodup
          rw [selectedDotNames_steady hc fun n hn => hnot n hn]
          refine tracked_bind fun dots hdots => ?_
          cases hdots
          show Tracked (inTurn _ _ >>= pure) (Trail (c :: rest)) path
          rw [bind_pure]
          refine Tracked.mono (tracked_inTurn hsorted
            (fun n hn => tracked_visit ih hcomponents (hgenuine n (mem_sortNames.1 hn))) ?_) ?_
          · rintro a b s ⟨-, c, steps, rfl⟩ ⟨-, c', steps', heq⟩
            exact (Prod.mk.inj (List.cons.inj heq).1).2
          · rintro s ⟨n, -, hs, -⟩
            exact hs

end Glob

end EditionCheck
