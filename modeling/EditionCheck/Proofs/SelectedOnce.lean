import EditionCheck.Proofs.HiddenNames
import EditionCheck.Proofs.Stages
import EditionCheck.Proofs.Trails

/-!
# Paths that are selected more than once

A pattern selects a path once for every trail that its walk takes to it. Where `**` stands in one place of
a pattern only, the path tells which trail that is; where it stands in two, several trails may lead to one
path, which then is selected several times.

* `solidNames_pathAlong` — the names of a path, as far as they are not empty, are those of its trail;
* `Trail.eq_of_solid` — such names tell the trail if `**` stands in one place;
* `selections_of_expand` — what a pattern selects, and when it selects each path once;
* `selected_twice` — a pattern that selects its only path twice.
-/

set_option autoImplicit false

namespace EditionCheck

open EditionCheck.Files EditionCheck.Glob EditionCheck.Text

/-! ## The names of a path at the end of a trail -/

namespace Glob

/-- The names of a path that are not empty. -/
def solidNames (path : List UInt8) : List (List UInt8) := (names path).filter (· ≠ [])

/-- The names of some steps that are not empty. -/
def solid (steps : List Step) : List (List UInt8) := (steps.map Prod.snd).filter (· ≠ [])

theorem solidNames_name {n : List UInt8} (hn : slash ∉ n) : solidNames n = [n].filter (· ≠ []) := by
  rw [solidNames, names_of_not_mem hn]

theorem solidNames_join {path n : List UInt8} (hn : slash ∉ n) :
    solidNames (join path n) = solidNames path ++ [n].filter (· ≠ []) := by
  rw [join, isAbsolute_of_not_mem hn, if_neg Bool.false_ne_true]
  split
  · next hends =>
    rcases Bool.or_eq_true _ _ ▸ hends with hempty | hslash
    · rw [List.isEmpty_iff.1 hempty, List.nil_append, solidNames_name hn]
      rfl
    · obtain ⟨front, rfl⟩ := List.getLast?_eq_some_iff.1 (beq_iff_eq.1 hslash)
      rw [List.append_assoc, List.singleton_append, solidNames, solidNames, names_append_slash,
        names_append_slash, names_of_not_mem hn, List.filter_append, List.filter_append]
      rw [show names [] = [[]] from rfl]
      simp
  · rw [solidNames, names_append_slash, names_of_not_mem hn, List.filter_append, solidNames]

/-- A path that is no spelling of the current directory, since one of its names is no dot. -/
def Leaves (path : List UInt8) : Prop := ∃ n ∈ solidNames path, n ≠ [dot]

theorem not_isCurrent_of_leaves {path : List UInt8} (h : Leaves path) : isCurrent path = false := by
  obtain ⟨n, hn, hdot⟩ := h
  obtain ⟨hmem, hempty⟩ := List.mem_filter.1 hn
  rw [decide_eq_true_iff] at hempty
  unfold isCurrent
  cases hnames : names path with
  | nil => rfl
  | cons m ms =>
    rw [hnames] at hmem
    rcases List.mem_cons.1 hmem with rfl | hmem
    · simp [hdot]
    · refine Bool.and_eq_false_iff.2 (.inr (List.all_eq_false.2 ⟨n, hmem, ?_⟩))
      simp [hdot, hempty]

theorem solidNames_childPath {path n : List UInt8} (hn : slash ∉ n) (h : isCurrent path = false) :
    solidNames (childPath path n) = solidNames path ++ [n].filter (· ≠ []) := by
  rw [childPath, h, if_neg Bool.false_ne_true, solidNames_join hn]

theorem solidNames_pathAlong {path : List UInt8} {steps : List Step} (h : Leaves path)
    (hplain : Plain (steps.map Prod.snd)) :
    solidNames (pathAlong path steps) = solidNames path ++ solid steps := by
  induction steps generalizing path with
  | nil => exact (List.append_nil _).symm
  | cons step steps ih =>
    obtain ⟨hstep, hsteps⟩ := plain_cons.1 hplain
    have hchild := solidNames_childPath hstep (not_isCurrent_of_leaves h)
    have hleaves : Leaves (childPath path step.2) := by
      obtain ⟨n, hn, hdot⟩ := h
      exact ⟨n, hchild ▸ List.mem_append_left _ hn, hdot⟩
    refine (ih hleaves hsteps).trans ?_
    rw [hchild, List.append_assoc, solid, solid, List.map_cons, ← List.filter_append,
      List.singleton_append]

/-- The names of a path behind which a listed name is put. -/
def baseNames (path : List UInt8) : List (List UInt8) :=
  if isCurrent path then [] else solidNames path

theorem solidNames_genuine {path n : List UInt8} (hn : Genuine n) :
    solidNames (childPath path n) = baseNames path ++ [n] := by
  have hsolid : [n].filter (· ≠ []) = [n] := by simp [hn.nonempty]
  unfold baseNames
  cases hcurrent : isCurrent path with
  | true =>
    rw [childPath, hcurrent, if_pos rfl, solidNames_name hn.plain, hsolid]
    rfl
  | false =>
    rw [solidNames_childPath hn.plain hcurrent, hsolid]
    rfl

/-- Behind a listed name, the names of a path are those of its steps. -/
theorem solidNames_steps {path n : List UInt8} {c : Component} {steps : List Step} (hn : Genuine n)
    (hplain : Plain (steps.map Prod.snd)) :
    solidNames (pathAlong path ((c, n) :: steps)) = baseNames path ++ solid ((c, n) :: steps) := by
  have hchild : solidNames (childPath path n) = baseNames path ++ [n] := solidNames_genuine hn
  have hleaves : Leaves (childPath path n) :=
    ⟨n, by rw [hchild]; exact List.mem_append_right _ (List.mem_singleton.2 rfl), hn.notCurrent⟩
  refine (solidNames_pathAlong hleaves hplain).trans ?_
  rw [hchild, List.append_assoc, solid, solid, List.map_cons]
  simp [hn.nonempty]

/-! ## Trails and their names -/

theorem solid_cons {c : Component} {n : List UInt8} {steps : List Step} :
    solid ((c, n) :: steps) = [n].filter (· ≠ []) ++ solid steps := by
  rw [solid, List.map_cons, ← List.singleton_append, List.filter_append, solid]

theorem solid_genuine {c : Component} {n : List UInt8} {steps : List Step} (hn : Genuine n) :
    solid ((c, n) :: steps) = n :: solid steps := by
  rw [solid_cons]
  simp [hn.nonempty]

theorem solid_inj {c d : Component} {n m : List UInt8} {steps others : List Step} (hn : Genuine n)
    (hm : Genuine m) (h : solid ((c, n) :: steps) = solid ((d, m) :: others)) :
    n = m ∧ solid steps = solid others := by
  rw [solid_genuine hn, solid_genuine hm] at h
  exact List.cons.inj h

/-- `**` stands in one place of some components at most. -/
def RecursesOnce : List Component → Prop
  | [] => True
  | .recursive :: rest => .recursive ∉ behindRecursive rest
  | _ :: rest => RecursesOnce rest

/-- The number of names that components without `**` put into a path. -/
def weight (components : List Component) : Nat := components.countP (· ≠ .literal [])

section

variable {components rest : List Component} {steps others : List Step}

theorem recursesOnce_of_not_mem (h : .recursive ∉ components) : RecursesOnce components := by
  induction components with
  | nil => trivial
  | cons c rest ih =>
    have hrest := ih fun hmem => h (List.mem_cons_of_mem _ hmem)
    cases c with
    | recursive => exact absurd List.mem_cons_self h
    | literal n => exact hrest
    | wild ws => exact hrest

theorem Trail.plain (h : Trail components steps) : Plain (steps.map Prod.snd) := by
  induction h with
  | nil => exact plain_nil
  | literal hn _ ih => exact plain_cons.2 ⟨hn, ih⟩
  | wild _ hn _ ih => exact plain_cons.2 ⟨hn.plain, ih⟩
  | here _ _ ih => exact ih
  | down hn _ ih => exact plain_cons.2 ⟨hn.plain, ih⟩
  | last hn _ => exact plain_cons.2 ⟨hn.plain, plain_nil⟩

/-- Without `**`, the components fix the number of names. -/
theorem Trail.length_solid (h : Trail components steps) (hnot : .recursive ∉ components) :
    (solid steps).length = weight components := by
  induction h with
  | nil => rfl
  | @literal n rest steps _ _ ih =>
    rw [solid_cons, List.length_append, ih fun hmem => hnot (List.mem_cons_of_mem _ hmem), weight,
      weight, List.countP_cons]
    cases n <;> simp [Nat.add_comm]
  | wild _ hn _ ih =>
    rw [solid_genuine hn, List.length_cons, ih fun hmem => hnot (List.mem_cons_of_mem _ hmem), weight,
      weight, List.countP_cons]
    simp
  | here => exact absurd List.mem_cons_self hnot
  | down => exact absurd List.mem_cons_self hnot
  | last => exact absurd List.mem_cons_self hnot

theorem behindRecursive_idem : behindRecursive (behindRecursive rest) = behindRecursive rest := by
  cases h : behindRecursive rest with
  | nil => rfl
  | cons c later =>
    rw [behindRecursive, List.dropWhile_cons, if_neg]
    simpa using behindRecursive_ne h

/-- A component that is matched by a listed name adds that name. -/
theorem Trail.length_behind {c d : Component} {n : List UInt8} {later : List Component}
    (h : Trail (c :: later) ((d, n) :: steps)) (hnot : .recursive ∉ c :: later) :
    (solid steps).length = weight later := by
  have hlater : Component.recursive ∉ later := fun hmem => hnot (List.mem_cons_of_mem _ hmem)
  cases h with
  | literal _ hrest => exact hrest.length_solid hlater
  | wild _ _ hrest => exact hrest.length_solid hlater
  | here => exact absurd List.mem_cons_self hnot
  | down => exact absurd List.mem_cons_self hnot
  | last => exact absurd List.mem_cons_self hnot

/-- A `**` adds the name by which the component behind it is matched to the names of those behind that
one. -/
theorem Trail.weight_lt {c : Component} {later : List Component} (h : Trail (.recursive :: rest) steps)
    (hbehind : behindRecursive rest = c :: later) (hnot : .recursive ∉ c :: later) :
    weight later < (solid steps).length := by
  generalize hcomponents : Component.recursive :: rest = components at h
  induction h generalizing rest with
  | nil => cases hcomponents
  | literal => cases hcomponents
  | wild => cases hcomponents
  | here hn hmatch _ =>
    cases hcomponents
    rw [hbehind] at hmatch
    rw [solid_genuine hn, List.length_cons, hmatch.length_behind hnot]
    exact Nat.lt_succ_self _
  | down hn _ ih =>
    cases hcomponents
    rw [solid_genuine hn, List.length_cons]
    exact Nat.lt_succ_of_lt (ih (behindRecursive_idem.trans hbehind) rfl)
  | last _ hnone =>
    cases hcomponents
    rw [hbehind] at hnone
    cases hnone

/-- Only a name of the pattern is not a listed one. -/
theorem Trail.exists_genuine {c : Component} (h : Trail (c :: rest) steps)
    (hc : ∀ n, c ≠ .literal n) : ∃ d n more, steps = (d, n) :: more ∧ Genuine n := by
  cases h with
  | literal => exact absurd rfl (hc _)
  | wild _ hn _ => exact ⟨_, _, _, rfl, hn⟩
  | here hn _ => exact ⟨_, _, _, rfl, hn⟩
  | down hn _ => exact ⟨_, _, _, rfl, hn⟩
  | last hn _ => exact ⟨_, _, _, rfl, hn⟩

theorem Trail.solid_ne_nil (h : Trail (.recursive :: rest) steps) : solid steps ≠ [] := by
  obtain ⟨d, n, more, rfl, hn⟩ := h.exists_genuine fun _ => Component.noConfusion
  rw [solid_genuine hn]
  exact List.cons_ne_nil _ _

/-- Where `**` stands once, a match right here and one further below differ in the number of names. -/
theorem Trail.here_ne_down {c : Component} {n : List UInt8}
    (hhere : Trail (behindRecursive rest) ((c, n) :: steps))
    (hdown : Trail (.recursive :: behindRecursive rest) others)
    (hnot : .recursive ∉ behindRecursive rest) : solid steps ≠ solid others := by
  intro hsolid
  cases hbehind : behindRecursive rest with
  | nil =>
    rw [hbehind] at hhere
    cases hhere
  | cons d later =>
    have hlt := hdown.weight_lt (behindRecursive_idem.trans hbehind) (hbehind ▸ hnot)
    rw [hbehind] at hhere hnot
    rw [← hsolid, hhere.length_behind hnot] at hlt
    exact Nat.lt_irrefl _ hlt

/-- **The names of a trail tell which one it is**, if `**` stands in one place. -/
theorem Trail.eq_of_solid (h : Trail components steps) (h' : Trail components others)
    (honce : RecursesOnce components) (hsolid : solid steps = solid others) : steps = others := by
  induction h generalizing others with
  | nil =>
    cases h'
    rfl
  | literal _ _ ih =>
    cases h' with
    | literal _ hothers =>
      rw [solid_cons, solid_cons] at hsolid
      rw [ih hothers honce (List.append_cancel_left hsolid)]
  | wild _ hn _ ih =>
    cases h' with
    | wild _ hn' hothers =>
      obtain ⟨rfl, hrest⟩ := solid_inj hn hn' hsolid
      rw [ih hothers honce hrest]
  | here hn hmatch ih =>
    cases h' with
    | here _ hmatch' => exact ih hmatch' (recursesOnce_of_not_mem honce) hsolid
    | down hn' hothers =>
      exact absurd (solid_inj hn hn' hsolid).2 (hmatch.here_ne_down hothers honce)
    | last _ hnone =>
      rw [hnone] at hmatch
      cases hmatch
  | @down n rest steps hn hsteps ih =>
    cases h' with
    | here hn' hmatch' =>
      exact absurd (solid_inj hn hn' hsolid).2.symm (hmatch'.here_ne_down hsteps honce)
    | down hn' hothers =>
      obtain ⟨rfl, hrest⟩ := solid_inj hn hn' hsolid
      have honce' : RecursesOnce (.recursive :: behindRecursive rest) := by
        rw [RecursesOnce, behindRecursive_idem]
        exact honce
      rw [ih hothers honce' hrest]
    | last hn' _ => exact absurd (solid_inj hn hn' hsolid).2 hsteps.solid_ne_nil
  | last hn hnone =>
    cases h' with
    | here _ hmatch' =>
      rw [hnone] at hmatch'
      cases hmatch'
    | down hn' hothers => exact absurd (solid_inj hn hn' hsolid).2.symm hothers.solid_ne_nil
    | last hn' _ => rw [(solid_inj hn hn' hsolid).1]

/-- **The path tells the trail**, if `**` stands in one place. -/
theorem Trail.eq_of_pathAlong {path : List UInt8} (h : Trail components steps)
    (h' : Trail components others) (honce : RecursesOnce components)
    (heq : pathAlong path steps = pathAlong path others) : steps = others := by
  induction components generalizing steps others path with
  | nil =>
    cases h
    cases h'
    rfl
  | cons c rest ih =>
    by_cases hc : ∃ n, c = .literal n
    · obtain ⟨n, rfl⟩ := hc
      cases h with
      | literal _ hsteps =>
        cases h' with
        | literal _ hothers => rw [ih hsteps hothers honce heq]
    · have hc : ∀ n, c ≠ .literal n := fun n hn => hc ⟨n, hn⟩
      refine h.eq_of_solid h' honce ?_
      have hplain := h.plain
      have hplain' := h'.plain
      obtain ⟨d, n, more, rfl, hn⟩ := h.exists_genuine hc
      obtain ⟨d', n', more', rfl, hn'⟩ := h'.exists_genuine hc
      have hnames := congrArg solidNames heq
      rw [solidNames_steps hn (plain_cons.1 hplain).2,
        solidNames_steps hn' (plain_cons.1 hplain').2] at hnames
      exact List.append_cancel_left hnames

end

end Glob

/-! ## What a pattern selects -/

theorem Pattern.steady {cs : List Char} {p : Pattern} (hp : Pattern.ofChars cs = .ok p)
    (hdots : ∀ ws, .wild ws ∈ p.components → (Component.wild ws).startsWithDot = false) :
    ∀ c ∈ p.components, c.Steady := by
  refine fun c hc => ⟨fun n hn => p.plain_literal hp (hn ▸ hc), fun ws hws => ?_⟩
  rw [hws]
  exact hdots ws (hws ▸ hc)

/-- **A pattern selects a path once for every trail to it.** If no wildcard of a pattern has a dot in
front, the paths that it selects in a tree are those at the ends of some trails, which all differ. If `**`
stands in one place of the pattern only, all these paths differ, too, and so do the failures that a run for
the pattern reports. -/
theorem selections_of_expand {t : Tree} (hproper : t.Proper) (current : Place) (pattern : String)
    {p : Pattern} (hp : Pattern.ofChars pattern.toList = .ok p)
    (hdots : ∀ ws, .wild ws ∈ p.components → (Component.wild ws).startsWithDot = false)
    {paths : List (List UInt8)} (h : t.expand current pattern = .ok paths) :
    (∃ trails : List (List Step), trails.Nodup ∧ (∀ s ∈ trails, Trail p.components s)
        ∧ paths = trails.map (pathAlong p.start))
      ∧ (RecursesOnce p.components → paths.Nodup
        ∧ ∀ token, (fullReport (t.access current) ⟨token, [pattern]⟩).failures.Nodup) := by
  have hselected : (t.access current : Access Id).selected pattern = paths := by
    rw [Access.selected, expand_access, h]
  have htracked : Tracked (p.select (t.access current)) (Trail p.components) p.start :=
    tracked_fill hproper p.depth p.components p.start (Pattern.steady hp hdots)
  obtain ⟨trails, hnodup, htrails, heq⟩ := htracked paths (select_of_expand t current hp h)
  refine ⟨⟨trails, hnodup, htrails, heq⟩, fun honce => ?_⟩
  have hpaths : paths.Nodup := by
    rw [heq]
    refine List.pairwise_map.2
      (List.Pairwise.imp_of_mem (fun {s s'} hs hs' hne hsame => hne ?_) hnodup)
    exact (htrails s hs).eq_of_pathAlong (htrails s' hs') honce hsame
  refine ⟨hpaths, fun token => ?_⟩
  simp only [fullReport, List.flatMap_cons, List.flatMap_nil, List.append_nil, hselected]
  exact List.Pairwise.map _ (fun a b hne heq => hne (Path.ofBytes_injective heq))
    (List.Pairwise.filter _ hpaths)

/-! ## A path with two trails -/

instance (name : List UInt8) : Decidable (Genuine name) :=
  decidable_of_iff (name ≠ [] ∧ slash ∉ name ∧ name ≠ [dot])
    ⟨fun h => ⟨h.1, h.2.1, h.2.2⟩, fun h => ⟨h.nonempty, h.plain, h.notCurrent⟩⟩

/-- A file below a directory that stands in another one of the same name. -/
def nestedFile : Tree := .ofList [] [(Utf8.encode "a/a/b.js".toList, .file [])]

/-- The pattern for a file anywhere below a directory that stands anywhere. -/
def anywhereBelow : Pattern :=
  ⟨false, [.recursive, .literal (Utf8.encode "a".toList), .recursive, .literal (Utf8.encode "b.js".toList)], false⟩

theorem proper_nestedFile : nestedFile.Proper := ⟨by decide +kernel, by decide +kernel⟩

theorem ofChars_anywhereBelow : Pattern.ofChars "**/a/**/b.js".toList = .ok anywhereBelow :=
  ok_of_toOption (by decide +kernel)

theorem expand_nestedFile :
    nestedFile.expand [] "**/a/**/b.js" = .ok [Utf8.encode "a/a/b.js".toList, Utf8.encode "a/a/b.js".toList] :=
  ok_of_toOption (by decide +kernel)

theorem wild_anywhereBelow :
    ∀ ws, .wild ws ∈ anywhereBelow.components → (Component.wild ws).startsWithDot = false := by
  intro ws h
  simp [anywhereBelow] at h

/-- Either directory may be the one that is named, so the file has two trails. -/
theorem selections_of_expand_nested :
    nestedFile.Proper ∧ Pattern.ofChars "**/a/**/b.js".toList = .ok anywhereBelow
      ∧ (∀ ws, .wild ws ∈ anywhereBelow.components → (Component.wild ws).startsWithDot = false)
      ∧ nestedFile.expand [] "**/a/**/b.js" = .ok [Utf8.encode "a/a/b.js".toList, Utf8.encode "a/a/b.js".toList]
      ∧ ∃ s s', s ≠ s' ∧ Trail anywhereBelow.components s ∧ Trail anywhereBelow.components s'
        ∧ pathAlong anywhereBelow.start s = Utf8.encode "a/a/b.js".toList
        ∧ pathAlong anywhereBelow.start s' = Utf8.encode "a/a/b.js".toList := by
  obtain ⟨⟨trails, hnodup, htrails, heq⟩, -⟩ := selections_of_expand proper_nestedFile [] "**/a/**/b.js"
    ofChars_anywhereBelow wild_anywhereBelow expand_nestedFile
  refine ⟨proper_nestedFile, ofChars_anywhereBelow, wild_anywhereBelow, expand_nestedFile, ?_⟩
  have hlength : trails.length = 2 := by simpa using (congrArg List.length heq).symm
  match trails, hlength, hnodup, htrails, heq with
  | [s, s'], _, hnodup, htrails, heq =>
    obtain ⟨hs, hs'⟩ := List.cons.inj heq
    exact ⟨s, s', by simpa using hnodup, htrails s List.mem_cons_self,
      htrails s' (List.mem_cons_of_mem _ List.mem_cons_self), hs.symm, (List.cons.inj hs').1.symm⟩

/-- So a pattern may select a path twice, in a tree without links. -/
theorem selected_twice :
    ¬ ∀ (t : Tree) (current : Place) (pattern : String) (paths : List (List UInt8)),
      t.Proper → (∀ e ∈ t.entries, ∀ target, e.2 ≠ .link target) →
        t.expand current pattern = .ok paths → paths.Nodup := by
  intro hall
  have hlinks : ∀ e ∈ nestedFile.entries, ∀ target, e.2 ≠ .link target := by
    let a := Utf8.encode "a".toList
    have hentries : nestedFile.entries = [
        ([a], .directory), ([a, a], .directory), ([a, a, Utf8.encode "b.js".toList], .file [])] := by decide +kernel
    rw [hentries]
    simp
  have hnodup := hall _ [] _ _ proper_nestedFile hlinks expand_nestedFile
  exact (List.nodup_cons.1 hnodup).1 List.mem_cons_self

end EditionCheck
