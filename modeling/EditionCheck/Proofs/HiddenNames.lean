import EditionCheck.Proofs.Run
import EditionCheck.Proofs.Spelling

/-!
# Names with a leading dot

Which names that start with a dot a pattern reaches when none of its own names does.

* `mem_names_pathAlong` — the names of a path are those of the steps that lead to it;
* `Component.passesHidden_of_matches` — a component that matches a name with a leading dot lets such
  names pass: `**`, which looks at no name, and leading runs in front of a dot;
* `hidden_names_selected` — so each such name of a selected path was passed by such a component.
-/

set_option autoImplicit false

namespace EditionCheck

open EditionCheck.Files EditionCheck.Glob EditionCheck.Text

/-! ## Names on the way -/

namespace Glob

/-- Whether a name starts with a dot. -/
def isHidden (name : List UInt8) : Bool := name.head? == some dot

theorem mem_names_join {base n name : List UInt8} (hn : slash ∉ n)
    (hname : name ∈ names (join base n)) : name = n ∨ name ∈ names base := by
  have hns : names n = [n] := names_of_not_mem hn
  rw [join, isAbsolute_of_not_mem hn, if_neg Bool.false_ne_true] at hname
  split at hname
  · next hends =>
    -- the name goes on right behind the base, which is empty or ends in a slash
    rcases Bool.or_eq_true _ _ ▸ hends with hempty | hslash
    · rw [List.isEmpty_iff.1 hempty, List.nil_append, hns] at hname
      exact .inl (List.mem_singleton.1 hname)
    · obtain ⟨front, rfl⟩ := List.getLast?_eq_some_iff.1 (beq_iff_eq.1 hslash)
      rw [List.append_assoc, List.singleton_append, names_append_slash, hns] at hname
      rcases List.mem_append.1 hname with hname | hname
      · exact .inr (names_append_slash front [] ▸ List.mem_append_left _ hname)
      · exact .inl (List.mem_singleton.1 hname)
  · rw [names_append_slash, hns] at hname
    rcases List.mem_append.1 hname with hname | hname
    · exact .inr hname
    · exact .inl (List.mem_singleton.1 hname)

theorem mem_names_childPath {path n name : List UInt8} (hn : slash ∉ n)
    (hname : name ∈ names (childPath path n)) :
    name = n ∨ (isCurrent path = false ∧ name ∈ names path) := by
  unfold childPath at hname
  split at hname
  · rw [names_of_not_mem hn] at hname
    exact .inl (List.mem_singleton.1 hname)
  · next hcurrent =>
    rcases mem_names_join hn hname with h | h
    · exact .inl h
    · exact .inr ⟨Bool.not_eq_true _ ▸ hcurrent, h⟩

/-- The names of a path at the end of some steps are names of the steps or of the path before them. -/
theorem mem_names_pathAlong {path name : List UInt8} {steps : List Step}
    (hplain : Plain (steps.map Prod.snd)) (hname : name ∈ names (pathAlong path steps)) :
    name ∈ steps.map Prod.snd ∨ (name ∈ names path ∧ (steps ≠ [] → isCurrent path = false)) := by
  induction steps generalizing path with
  | nil => exact .inr ⟨hname, fun h => absurd rfl h⟩
  | cons step steps ih =>
    obtain ⟨hstep, hsteps⟩ := plain_cons.1 hplain
    rcases ih hsteps hname with h | ⟨h, -⟩
    · exact .inl (List.mem_cons_of_mem _ h)
    · rcases mem_names_childPath hstep h with rfl | ⟨hcurrent, h⟩
      · exact .inl List.mem_cons_self
      · exact .inr ⟨h, fun _ => hcurrent⟩

/-- Whether a component lets a name with a leading dot pass: `**` looks at no name, and leading runs may
stand for nothing in front of a dot that is spelled. -/
def Component.passesHidden : Component → Bool
  | .literal n => isHidden n
  | .wild ws => (ws.dropWhile (· == .anyRun)).head? == some (.char '.')
  | .recursive => true

theorem Component.passesHidden_of_matches {c : Component} {name : List UInt8} (h : c.matches name)
    (hhidden : isHidden name) : c.passesHidden := by
  cases c with
  | literal n =>
    rw [Component.matches_literal.1 h] at hhidden
    exact hhidden
  | wild ws =>
    obtain ⟨cs, rfl, hfound⟩ := Component.matches_wild.1 h
    have hdot : (Utf8.encode cs)[0]? = some ('.').toUInt8 :=
      List.head?_eq_getElem?.symm.trans (beq_iff_eq.1 hhidden)
    obtain ⟨rest, rfl⟩ :=
      List.head?_eq_some_iff.1 ((Utf8.getElem?_encode_eq_some_iff (by decide)).1 hdot)
    exact beq_iff_eq.2 (head?_of_matches_dot hfound)
  | recursive => rfl

/-- Where a walk for a pattern begins. -/
def Pattern.start (p : Pattern) : List UInt8 := if p.absolute then [slash] else [dot]

theorem Pattern.undotted {cs : List Char} {p : Pattern} (hp : Pattern.ofChars cs = .ok p)
    (hdots : ∀ c ∈ p.components, c.startsWithDot = false) : ∀ c ∈ p.components, c.Undotted := by
  refine fun c hc => ⟨hdots c hc, fun n hn => p.plain_literal hp ?_⟩
  rw [← hn]
  exact hc

/-- The names with a leading dot of a path that a pattern spells. -/
theorem hidden_of_spelledFrom {p : Pattern} {path : List UInt8}
    (h : SpelledFrom p.components p.start path) : ∃ steps, Spelled p.components steps
      ∧ path = pathAlong p.start steps
      ∧ ∀ name ∈ names path, isHidden name → ∃ c, (c, name) ∈ steps ∧ c.passesHidden := by
  obtain ⟨steps, hsteps, hne, hplain, rfl⟩ := h
  refine ⟨steps, hsteps, rfl, fun name hname hhidden => ?_⟩
  rcases mem_names_pathAlong hplain hname with hname | ⟨hname, hcurrent⟩
  · obtain ⟨⟨c, n⟩, hstep, rfl⟩ := List.mem_map.1 hname
    exact ⟨c, hstep, Component.passesHidden_of_matches (mem_of_spelled hsteps hstep).2 hhidden⟩
  · -- the root has no such name, and the path of the current directory is left with the first step
    have hcurrent := hcurrent hne
    unfold Pattern.start at hname hcurrent
    cases habs : p.absolute with
    | true =>
      rw [habs] at hname
      have hroot : names [slash] = [[], []] := rfl
      have hempty : name = [] := by simpa [hroot] using hname
      rw [hempty] at hhidden
      cases hhidden
    | false =>
      rw [habs] at hcurrent
      cases hcurrent

end Glob

/-- **Names with a leading dot are selected where the pattern lets them pass.** If no component of a
pattern starts with a dot, every path that it selects in a tree is spelled by the pattern name by name,
and each name of the path with a leading dot was passed by `**`, or matched by a component that has the
dot behind leading runs. So a pattern without such components selects no path with a name that starts
with a dot. -/
theorem hidden_names_selected {t : Tree} (hnamed : t.Named) (current : Place) (pattern : String)
    {p : Pattern} (hp : Pattern.ofChars pattern.toList = .ok p)
    (hdots : ∀ c ∈ p.components, c.startsWithDot = false) {paths : List (List UInt8)}
    (h : t.expand current pattern = .ok paths) :
    (∀ path ∈ paths, ∃ steps, Spelled p.components steps ∧ path = pathAlong p.start steps
        ∧ ∀ name ∈ names path, isHidden name → ∃ c, (c, name) ∈ steps ∧ c.passesHidden)
      ∧ ((∀ c ∈ p.components, c.passesHidden = false) →
          ∀ path ∈ paths, ∀ name ∈ names path, isHidden name = false) := by
  rw [expand_of_ok t current hp] at h
  have hfinds : Finds (p.select (t.access current)) (SpelledFrom p.components p.start) :=
    finds_fill hnamed p.depth p.components p.start (Pattern.undotted hp hdots)
  have hspelled (path : List UInt8) (hpath : path ∈ paths) : SpelledFrom p.components p.start path := by
    refine hfinds paths ?_ path hpath
    cases hrun : (p.select (t.access current : Access Id)).run with
    | error u =>
      rw [hrun] at h
      cases h
    | ok found =>
      rw [hrun] at h
      cases h
      rfl
  refine ⟨fun path hpath => hidden_of_spelledFrom (hspelled path hpath), ?_⟩
  intro hpasses path hpath name hname
  obtain ⟨steps, hsteps, -, hhidden⟩ := hidden_of_spelledFrom (hspelled path hpath)
  cases hname' : isHidden name with
  | false => rfl
  | true =>
    obtain ⟨c, hstep, hc⟩ := hhidden name hname hname'
    rw [hpasses c (mem_of_spelled hsteps hstep).1] at hc
    cases hc

/-! ## A hidden directory -/

theorem ok_of_toOption {ε α : Type} {x : Except ε α} {a : α} (h : x.toOption = some a) : x = .ok a := by
  cases x with
  | error e => cases h
  | ok b =>
    cases h
    rfl

/-- A file in a hidden directory. -/
def hiddenFile : Tree := .ofList [] [(Utf8.encode ".git/a.js".toList, .file [])]

/-- The pattern for a file at any depth. -/
def anywhere : Pattern := ⟨false, [.recursive, .literal (Utf8.encode "a.js".toList)], false⟩

theorem named_hiddenFile : hiddenFile.Named := Tree.named_ofList plain_nil _

theorem ofChars_anywhere : Pattern.ofChars "**/a.js".toList = .ok anywhere :=
  ok_of_toOption (by decide +kernel)

theorem startsWithDot_anywhere : ∀ c ∈ anywhere.components, c.startsWithDot = false := by decide

theorem expand_hiddenFile : hiddenFile.expand [] "**/a.js" = .ok [Utf8.encode ".git/a.js".toList] :=
  ok_of_toOption (by decide +kernel)

/-- The name of the hidden directory is passed by `**`. -/
theorem hidden_names_selected_recursive :
    hiddenFile.Named ∧ Pattern.ofChars "**/a.js".toList = .ok anywhere
      ∧ (∀ c ∈ anywhere.components, c.startsWithDot = false)
      ∧ hiddenFile.expand [] "**/a.js" = .ok [Utf8.encode ".git/a.js".toList]
      ∧ ∃ steps, Spelled anywhere.components steps
        ∧ Utf8.encode ".git/a.js".toList = pathAlong anywhere.start steps
        ∧ ∃ c, (c, Utf8.encode ".git".toList) ∈ steps ∧ c.passesHidden := by
  obtain ⟨hselected, -⟩ := hidden_names_selected named_hiddenFile [] "**/a.js" ofChars_anywhere
    startsWithDot_anywhere expand_hiddenFile
  obtain ⟨steps, hsteps, hpath, hhidden⟩ := hselected _ List.mem_cons_self
  have hgit : Utf8.encode ".git".toList ∈ names (Utf8.encode ".git/a.js".toList) := by decide
  exact ⟨named_hiddenFile, ofChars_anywhere, startsWithDot_anywhere, expand_hiddenFile, steps, hsteps,
    hpath, hhidden _ hgit rfl⟩

/-- So a pattern that has no name with a dot in front may select a path with one. -/
theorem hidden_directory_entered :
    ¬ ∀ (t : Tree) (current : Place) (pattern : String) (p : Pattern) (paths : List (List UInt8)),
      t.Named → Pattern.ofChars pattern.toList = .ok p →
        (∀ c ∈ p.components, c.startsWithDot = false) → t.expand current pattern = .ok paths →
          ∀ path ∈ paths, ∀ name ∈ names path, isHidden name = false := by
  intro hall
  have hgit : Utf8.encode ".git".toList ∈ names (Utf8.encode ".git/a.js".toList) := by decide
  have hhidden := hall _ [] _ _ _ named_hiddenFile ofChars_anywhere startsWithDot_anywhere
    expand_hiddenFile _ List.mem_cons_self _ hgit
  cases hhidden

end EditionCheck
