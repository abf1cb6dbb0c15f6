import EditionCheck.Proofs.Run
import EditionCheck.Proofs.Spelling

/-!
# Properties of the paths that are found

A walk makes its paths of the names in the directories that it lists, of the names in its pattern, and of
slashes and dots. So a property of bytes that concatenation keeps holds of the paths if it holds of these
parts.

* `Composable` — the properties that this is about; `composable_isText` — to be a text is one of them;
* `walked_fill` — the walk for a pattern, by induction on its depth;
* `walked_expand` — what a pattern selects, and the directory that it may be stopped by.
-/

set_option autoImplicit false

namespace EditionCheck

open EditionCheck.Files EditionCheck.Glob EditionCheck.Text

/-! ## Properties of paths -/

/-- A property that concatenation keeps, and that slashes and dots have. -/
structure Composable (P : List UInt8 → Prop) : Prop where
  append : ∀ a b, P a → P b → P (a ++ b)
  slash : P [slash]
  dot : P [dot]

/-- Bytes are those of a text. -/
def IsText (bytes : List UInt8) : Prop := ∃ cs, bytes = Utf8.encode cs

theorem isText_encode (cs : List Char) : IsText (Utf8.encode cs) := ⟨cs, rfl⟩

theorem composable_isText : Composable IsText where
  append := by
    rintro _ _ ⟨cs, rfl⟩ ⟨ds, rfl⟩
    exact ⟨cs ++ ds, (Utf8.encode_append cs ds).symm⟩
  slash := isText_encode ['/']
  dot := isText_encode ['.']

namespace Composable

variable {P : List UInt8 → Prop} {path name : List UInt8}

theorem join (hP : Composable P) (hpath : P path) (hname : P name) : P (join path name) := by
  unfold Files.join
  split
  · exact hname
  split
  · exact hP.append _ _ hpath hname
  · exact hP.append _ _ hpath (hP.append _ _ hP.slash hname)

theorem childPath (hP : Composable P) (hpath : P path) (hname : P name) :
    P (childPath path name) := by
  unfold Glob.childPath
  split
  · exact hname
  · exact hP.join hpath hname

theorem selectedDotNames (hP : Composable P) {c : Component} (h : name ∈ selectedDotNames c) :
    P name := by
  unfold Glob.selectedDotNames at h
  split at h
  · rcases List.mem_cons.1 (List.mem_filter.1 h).1 with rfl | hdot
    · exact hP.append _ _ hP.dot hP.dot
    · exact List.mem_singleton.1 hdot ▸ hP.dot
  · cases h

end Composable

/-- All names that the directories of some files list have a property. -/
def Files.Access.Lists (files : Access Id) (P : List UInt8 → Prop) : Prop :=
  ∀ path ns, (files.list path).run = .ok ns → ∀ n ∈ ns, P n

/-- The names that the directories of a tree list are names of its entries. -/
theorem lists_access {t : Tree} {P : List UInt8 → Prop} (h : ∀ e ∈ t.entries, ∀ n ∈ e.1, P n)
    (current : Place) : (t.access current : Access Id).Lists P := by
  intro path ns hlist n hn
  obtain ⟨e, he, hne⟩ := exists_of_mem_list hlist hn
  exact h e he n hne

/-! ## Walks -/

namespace Glob

/-- What a walk asks or finds has a property; a directory that stops it is one that cannot be listed, and
the property of paths holds of it. -/
def Walked {α : Type} (files : Access Id) (P : List UInt8 → Prop) (x : ExceptT Unlisted Id α)
    (Q : α → Prop) : Prop :=
  match x.run with
  | .ok a => Q a
  | .error u => P u.path ∧ (files.list u.path).run = .error u.fault

section

variable {files : Access Id} {P : List UInt8 → Prop}

section

variable {α β : Type} {Q : α → Prop} {R : β → Prop}

theorem walked_pure {a : α} (h : Q a) : Walked files P (pure a) Q := h

theorem walked_lift {a : Id α} : Walked files P (liftM a) fun _ : α => True := trivial

theorem Walked.bind {x : ExceptT Unlisted Id α} {f : α → ExceptT Unlisted Id β}
    (hx : Walked files P x Q) (hf : ∀ a, Q a → Walked files P (f a) R) :
    Walked files P (x >>= f) R := by
  unfold Walked at hx ⊢
  rw [ExceptT.run_bind]
  cases h : x.run with
  | error u =>
    rw [h] at hx
    exact hx
  | ok a =>
    rw [h] at hx
    exact hf a hx

end

/-- All paths have a property. -/
abbrev All (P : List UInt8 → Prop) (paths : List (List UInt8)) : Prop := ∀ path ∈ paths, P path

theorem all_nil : All P [] := fun _ h => absurd h List.not_mem_nil

theorem all_one {path : List UInt8} (h : P path) : All P [path] := List.forall_mem_singleton.2 h

theorem all_append {a b : List (List UInt8)} (ha : All P a) (hb : All P b) : All P (a ++ b) :=
  List.forall_mem_append.2 ⟨ha, hb⟩

theorem walked_ite {c : Prop} [Decidable c] {x y : Walk Id} (hx : Walked files P x (All P))
    (hy : Walked files P y (All P)) : Walked files P (if c then x else y) (All P) := by
  split
  · exact hx
  · exact hy

theorem walked_inTurn {α : Type} {xs : List α} {f : α → Walk Id}
    (h : ∀ a ∈ xs, Walked files P (f a) (All P)) : Walked files P (inTurn xs f) (All P) := by
  induction xs with
  | nil => exact walked_pure all_nil
  | cons a xs ih =>
    obtain ⟨ha, hxs⟩ := List.forall_mem_cons.1 h
    rw [inTurn_cons]
    exact ha.bind fun here hhere => (ih hxs).bind fun rest hrest =>
      walked_pure (all_append hhere hrest)

section

variable {directoriesOnly : Bool} {below : List Component → List UInt8 → Walk Id}

theorem walked_ending {path : List UInt8} (hpath : P path) :
    Walked files P (ending files directoriesOnly path) (All P) := by
  have hone := all_one hpath
  unfold ending
  refine walked_ite ?_ (walked_pure hone)
  exact walked_lift.bind fun _ _ => walked_ite (walked_pure hone) (walked_pure all_nil)

/-- The names in a pattern have a property. -/
def Names (P : List UInt8 → Prop) (components : List Component) : Prop :=
  ∀ name, .literal name ∈ components → P name

variable (hbelow : ∀ components path, Names P components → P path →
  Walked files P (below components path) (All P))
include hbelow

theorem walked_onward {rest : List Component} {path : List UInt8} (hrest : Names P rest)
    (hpath : P path) : Walked files P (onward files directoriesOnly below rest path) (All P) := by
  unfold onward
  split
  · exact walked_ending hpath
  · exact hbelow _ _ hrest hpath

theorem walked_onMatch {components : List Component} {path name : List UInt8}
    (hcomponents : Names P components) (hpath : P path) :
    Walked files P (onMatch files directoriesOnly below components path name) (All P) := by
  unfold onMatch
  split
  · exact walked_pure all_nil
  · next c rest =>
    have hrest : Names P rest := fun n hn => hcomponents n (List.mem_cons_of_mem c hn)
    exact walked_ite (walked_onward hbelow hrest hpath) (walked_pure all_nil)

theorem walked_visit {components : List Component} {path name : List UInt8}
    (hcomponents : Names P components) (hpath : P path) :
    Walked files P (visit files directoriesOnly below components path name) (All P) := by
  unfold visit
  split
  · next rest =>
    have hlater : Names P (rest.dropWhile (· == .recursive)) := fun n hn =>
      hcomponents n (List.mem_cons_of_mem _ ((List.dropWhile_suffix _).subset hn))
    have hagain : Names P (.recursive :: rest.dropWhile (· == .recursive)) := fun n hn =>
      hlater n (by simpa using hn)
    refine walked_lift.bind fun isDirectory _ => ?_
    extract_lets more
    have hmore (here : List (List UInt8)) (hhere : All P here) :
        Walked files P (more here) (All P) := by
      refine walked_ite ?_ ?_
      · exact (hbelow _ _ hagain hpath).bind fun found hfound =>
          walked_pure (all_append hhere hfound)
      · exact (walked_pure all_nil).bind fun found hfound => walked_pure (all_append hhere hfound)
    split
    · refine (walked_pure ?_).bind hmore
      split
      · exact all_one hpath
      · exact all_nil
    · exact (walked_onMatch hbelow hlater hpath).bind hmore
  · exact walked_onMatch hbelow hcomponents hpath

end

/-- **A walk makes paths of what it is given**: a property that concatenation keeps holds of them if it
holds of the listed names, of the names in the components, and of the path that the walk starts from. -/
theorem walked_fill (hP : Composable P) (hlists : files.Lists P) (directoriesOnly : Bool) (depth : Nat)
    (components : List Component) (path : List UInt8) (hcomponents : Names P components)
    (hpath : P path) : Walked files P (fill files directoriesOnly depth components path) (All P) := by
  induction depth generalizing components path with
  | zero => exact walked_pure all_nil
  | succ depth ih =>
    cases components with
    | nil => exact walked_pure all_nil
    | cons c rest =>
      have hrest : Names P rest := fun n hn => hcomponents n (List.mem_cons_of_mem c hn)
      rw [fill]
      refine walked_lift.bind fun isDirectory _ => ?_
      extract_lets deeper
      split
      · next name =>
        have hname : P name := hcomponents name List.mem_cons_self
        extract_lets next more
        have hmore (found : Bool) : Walked files P (more found) (All P) :=
          walked_ite (walked_onward ih hrest (hP.childPath hpath hname))
            (walked_pure all_nil)
        split
        · exact hmore isDirectory
        · exact walked_lift.bind fun found _ => hmore found
      · refine walked_ite ?_ (walked_pure all_nil)
        have hlisted : Walked files P (liftM (files.list path))
            fun listed => (files.list path).run = listed := rfl
        refine hlisted.bind fun listed hlisted => ?_
        split
        · next fault => exact ⟨hpath, hlisted⟩
        · next ns =>
          have hns := hlists path ns hlisted
          refine (walked_inTurn fun n hn => ?_).bind fun dots hdots => ?_
          · exact walked_onward ih hrest
              (hP.join hpath (hP.selectedDotNames hn))
          · refine (walked_inTurn fun n hn => ?_).bind fun entries hentries => ?_
            · exact walked_visit ih hcomponents
                (hP.childPath hpath (hns n (mem_sortNames.1 hn)))
            · exact walked_pure (all_append hdots hentries)

end

end Glob

/-! ## Selected paths -/

section

variable {files : Access Id} {P : List UInt8 → Prop}

/-- What a pattern selects, and the directory that it may be stopped by, have a property if the listed
names and the texts of characters of the pattern do. -/
theorem walked_expand (hP : Composable P) (hlists : files.Lists P) {pattern : String}
    (hpattern : ∀ word ⊆ pattern.toList, P (Utf8.encode word)) :
    match files.expand pattern with
    | .ok paths => ∀ path ∈ paths, P path
    | .error e => ∃ path fault, e = .unreadable path fault ∧ P path
        ∧ (files.list path).run = .error fault := by
  cases hp : Pattern.ofChars pattern.toList with
  | error e =>
    rw [files.expand_of_error hp]
    dsimp only
    split
    · exact all_one (hpattern _ (List.Subset.refl _))
    · exact all_nil
  | ok p =>
    have hnames : Names P p.components := by
      intro name hname
      obtain ⟨word, hword, -, rfl⟩ := Pattern.exists_word hp hname
      exact hpattern word hword
    have hstart : P (if p.absolute then [slash] else [dot]) := by
      split
      · exact hP.slash
      · exact hP.dot
    have hwalk := walked_fill hP hlists p.directoriesOnly p.depth p.components _ hnames hstart
    rw [files.expand_of_ok hp, Pattern.select]
    unfold Walked at hwalk
    generalize (fill files p.directoriesOnly p.depth p.components _).run = found at hwalk ⊢
    cases found with
    | ok paths => exact hwalk
    | error u => exact ⟨u.path, u.fault, rfl, hwalk⟩

end

end EditionCheck
