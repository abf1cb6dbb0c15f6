import EditionCheck.Files.Tree
import EditionCheck.Glob.Pattern

/-!
# Names without slashes

The names that a path is cut into hold no slash, and so do the names in a tree that is built from paths
and the names that a pattern spells.

* `not_mem_of_mem_splitOn`, `subset_of_mem_splitOn` — the parts between separators;
* `Tree.named_ofList` — the trees that are built from paths;
* `mem_of_mem_pieces` — the characters that a pattern spells stand in its text;
* `Pattern.exists_word`, `Pattern.plain_literal` — the names without wildcards in a pattern.
-/

set_option autoImplicit false

namespace EditionCheck

open EditionCheck.Files EditionCheck.Glob EditionCheck.Text

/-! ## Parts between separators -/

section

variable {α : Type} [BEq α] [LawfulBEq α] {a : α} {xs part : List α}

/-- The parts of a list hold no separator. -/
theorem not_mem_of_mem_splitOn (h : part ∈ xs.splitOn a) : a ∉ part := by
  induction xs generalizing part with
  | nil => simp [List.mem_singleton.1 h]
  | cons x xs ih =>
    rw [List.splitOn_cons_eq_if_modifyHead] at h
    split at h
    · rcases List.mem_cons.1 h with rfl | h
      · exact List.not_mem_nil
      · exact ih h
    · next hx =>
      obtain ⟨first, more, hparts⟩ := List.exists_cons_of_ne_nil (List.splitOn_ne_nil a xs)
      rw [hparts] at h ih
      rcases List.mem_cons.1 h with rfl | h
      · have hne : a ≠ x := fun heq => hx (beq_iff_eq.2 heq.symm)
        exact List.not_mem_cons_of_ne_of_not_mem hne (ih List.mem_cons_self)
      · exact ih (List.mem_cons_of_mem first h)

omit [LawfulBEq α] in
theorem subset_of_mem_splitOn (h : part ∈ xs.splitOn a) : part ⊆ xs := by
  induction xs generalizing part with
  | nil => simp [List.mem_singleton.1 h]
  | cons x xs ih =>
    rw [List.splitOn_cons_eq_if_modifyHead] at h
    split at h
    · rcases List.mem_cons.1 h with rfl | h
      · exact List.nil_subset _
      · exact List.subset_cons_of_subset x (ih h)
    · obtain ⟨first, more, hparts⟩ := List.exists_cons_of_ne_nil (List.splitOn_ne_nil a xs)
      rw [hparts] at h ih
      rcases List.mem_cons.1 h with rfl | h
      · exact List.cons_subset_cons x (ih List.mem_cons_self)
      · exact List.subset_cons_of_subset x (ih (List.mem_cons_of_mem first h))

end

/-! ## Names without slashes -/

namespace Files

/-- Names that hold no slash. -/
def Plain (ns : List (List UInt8)) : Prop := ∀ n ∈ ns, slash ∉ n

variable {n : List UInt8} {ns ms : List (List UInt8)}

theorem plain_nil : Plain [] := fun _ h => absurd h List.not_mem_nil

theorem plain_cons : Plain (n :: ns) ↔ slash ∉ n ∧ Plain ns := List.forall_mem_cons

theorem plain_append : Plain (ns ++ ms) ↔ Plain ns ∧ Plain ms := List.forall_mem_append

theorem plain_names (path : List UInt8) : Plain (names path) := fun _ => not_mem_of_mem_splitOn

theorem names_of_not_mem {path : List UInt8} (h : slash ∉ path) : names path = [path] :=
  List.splitOn_eq_singleton h

theorem isAbsolute_of_not_mem {path : List UInt8} (h : slash ∉ path) : isAbsolute path = false := by
  cases path with
  | nil => rfl
  | cons byte path => simpa [isAbsolute] using (List.ne_of_not_mem_cons h).symm

/-- No name in a tree holds a slash. -/
def Tree.Named (t : Tree) : Prop := ∀ e ∈ t.entries, Plain e.1

namespace Tree

variable {t : Tree} {place next : Place} {path : List (List UInt8)}

theorem plain_walkNames {follow : Place → List (List UInt8) → Except Fault Place}
    (hfollow : ∀ place path next, Plain place → Plain path → follow place path = .ok next → Plain next)
    (hplace : Plain place) (hpath : Plain path) (h : t.walkNames follow place path = .ok next) :
    Plain next := by
  induction path generalizing place with
  | nil =>
    cases h
    exact hplace
  | cons name rest ih =>
    obtain ⟨hname, hrest⟩ := plain_cons.1 hpath
    have hdown : Plain (place ++ [name]) := plain_append.2 ⟨hplace, plain_cons.2 ⟨hname, plain_nil⟩⟩
    have hup : Plain place.dropLast := fun n hn => hplace n (List.dropLast_subset _ hn)
    rw [walkNames] at h
    split at h
    · cases h
    split at h
    · exact ih hplace hrest h
    split at h
    · exact ih hup hrest h
    split at h
    · cases h
    split at h
    · cases h
    · next target _ =>
      refine hfollow _ _ _ ?_ (plain_append.2 ⟨plain_names target, hrest⟩) h
      split
      · exact plain_nil
      · exact hplace
    · exact ih hdown hrest h

theorem plain_walk (links : Nat) (hplace : Plain place) (hpath : Plain path)
    (h : t.walk links place path = .ok next) : Plain next := by
  induction links generalizing place path next with
  | zero => exact plain_walkNames (fun _ _ _ _ _ h => by cases h) hplace hpath h
  | succ links ih => exact plain_walkNames (fun _ _ _ => ih) hplace hpath h

theorem Named.put (h : t.Named) (hplace : Plain place) (entry : Entry) : (t.put place entry).Named := by
  intro e he
  rcases List.mem_append.1 he with he | he
  · exact h e (List.mem_filter.1 he).1
  · rw [List.mem_singleton.1 he]
    exact hplace

theorem Named.putBelow (h : t.Named) (hplace : Plain place) (hpath : Plain path) (entry : Entry) :
    (t.putBelow place path entry).Named := by
  induction path generalizing t place with
  | nil => exact h
  | cons name rest ih =>
    obtain ⟨hname, hrest⟩ := plain_cons.1 hpath
    have hone : Plain [name] := plain_cons.2 ⟨hname, plain_nil⟩
    have hdown : Plain (place ++ [name]) := plain_append.2 ⟨hplace, hone⟩
    cases rest with
    | nil => exact h.put hdown entry
    | cons name' rest =>
      rw [Tree.putBelow]
      split
      · next hnext => exact ih h (plain_walk _ hplace hone hnext) hrest
      · exact ih (h.put hdown .directory) hdown hrest
      · intro h'
        cases h'

/-- The trees that are built from paths hold names only. -/
theorem named_ofList (hplace : Plain place) (entries : List (List UInt8 × Entry)) :
    (ofList place entries).Named := by
  have hfold (es : List (List UInt8 × Entry)) (t : Tree) (h : t.Named) :
      (es.foldl (fun t e => t.putBelow place (names e.1) e.2) t).Named := by
    induction es generalizing t with
    | nil => exact h
    | cons e es ih => exact ih _ (h.putBelow hplace (plain_names e.1) e.2)
  refine hfold entries _ (Named.putBelow ?_ plain_nil hplace .directory)
  exact fun e he => absurd he List.not_mem_nil

end Tree

end Files

/-! ## Names in patterns -/

namespace Glob

theorem subset_of_untilBracket {skip : Nat} {cs inner rest : List Char}
    (h : untilBracket skip cs = some (inner, rest)) : rest ⊆ cs := by
  fun_induction untilBracket skip cs generalizing inner rest with
  | case1 => cases h
  | case2 =>
    cases h
    exact List.subset_cons_self _ _
  | case3 c cs _ ih =>
    obtain ⟨p, hp, he⟩ := Option.map_eq_some_iff.1 h
    cases he
    exact List.subset_cons_of_subset _ (ih hp)
  | case4 c cs _ ih =>
    obtain ⟨p, hp, he⟩ := Option.map_eq_some_iff.1 h
    cases he
    exact List.subset_cons_of_subset _ (ih hp)

/-- A character list is no single character, and what follows it is a part of the text. -/
theorem subset_of_readList {cs more : List Char} {w : Wildcard} (h : readList cs = some (w, more)) :
    more ⊆ cs ∧ ∀ c, w ≠ .char c := by
  unfold readList at h
  split at h
  · obtain ⟨p, hp, he⟩ := Option.map_eq_some_iff.1 h
    cases he
    exact ⟨List.subset_cons_of_subset _ (subset_of_untilBracket hp), fun _ h => by cases h⟩
  · obtain ⟨p, hp, he⟩ := Option.map_eq_some_iff.1 h
    cases he
    exact ⟨subset_of_untilBracket hp, fun _ h => by cases h⟩

theorem exists_of_map_cons {x : Except PatternError (List Wildcard)} {w : Wildcard}
    {ws : List Wildcard} (h : (w :: ·) <$> x = .ok ws) : ∃ vs, x = .ok vs ∧ ws = w :: vs := by
  cases x with
  | error e => cases h
  | ok vs =>
    cases h
    exact ⟨vs, rfl, rfl⟩

/-- The characters that a pattern spells stand in its text. -/
theorem mem_of_mem_pieces {position : Nat} {fresh : Bool} {cs : List Char} {ws : List Wildcard}
    {c : Char} (h : pieces position fresh cs = .ok ws) (hc : .char c ∈ ws) : c ∈ cs := by
  fun_induction pieces position fresh cs generalizing ws with
  | case1 =>
    cases h
    exact absurd hc List.not_mem_nil
  | case4 =>
    cases h
    exact absurd hc (by simp)
  | case3 => cases h
  | case6 => cases h
  | case7 => cases h
  | case9 => cases h
  | case2 position fresh rest ih =>
    obtain ⟨vs, hvs, rfl⟩ := exists_of_map_cons h
    exact List.mem_cons_of_mem _ (ih hvs (by simpa using hc))
  | case5 position more _ ih =>
    obtain ⟨vs, hvs, rfl⟩ := exists_of_map_cons h
    simp [ih hvs (by simpa using hc)]
  | case8 position fresh rest _ _ ih =>
    obtain ⟨vs, hvs, rfl⟩ := exists_of_map_cons h
    exact List.mem_cons_of_mem _ (ih hvs (by simpa using hc))
  | case10 position fresh rest w more hlist ih =>
    obtain ⟨vs, hvs, rfl⟩ := exists_of_map_cons h
    obtain ⟨hmore, hw⟩ := subset_of_readList hlist
    rcases List.mem_cons.1 hc with heq | hc
    · exact absurd heq.symm (hw c)
    · exact List.mem_cons_of_mem _ (hmore (ih hvs hc))
  | case11 position fresh d rest _ _ _ _ _ ih =>
    obtain ⟨vs, hvs, rfl⟩ := exists_of_map_cons h
    rcases List.mem_cons.1 hc with heq | hc
    · cases heq
      exact List.mem_cons_self
    · exact List.mem_cons_of_mem _ (ih hvs hc)

theorem char_mem_of_literal? {ws : List Wildcard} {name : List Char} (h : literal? ws = some name)
    {c : Char} (hc : c ∈ name) : .char c ∈ ws := by
  fun_induction literal? ws generalizing name with
  | case1 =>
    cases h
    exact absurd hc List.not_mem_nil
  | case2 d rest ih =>
    obtain ⟨name', hname, rfl⟩ := Option.map_eq_some_iff.1 h
    rcases List.mem_cons.1 hc with rfl | hc
    · exact List.mem_cons_self
    · exact List.mem_cons_of_mem _ (ih hname hc)
  | case3 => cases h

/-- A name in a pattern spells characters of its text only. -/
theorem Component.exists_of_ofChars {cs : List Char} {name : List UInt8}
    (h : Component.ofChars cs = .ok (.literal name)) :
    ∃ word, word ⊆ cs ∧ name = Utf8.encode word := by
  unfold Component.ofChars at h
  split at h
  · cases h
  · cases hws : pieces 0 true cs with
    | error e =>
      rw [hws] at h
      cases h
    | ok ws =>
      cases hliteral : literal? ws with
      | some word =>
        simp only [hws, bind, Except.bind, hliteral] at h
        cases h
        exact ⟨word, fun c hc => mem_of_mem_pieces hws (char_mem_of_literal? hliteral hc), rfl⟩
      | none =>
        simp only [hws, bind, Except.bind, hliteral] at h
        cases h

theorem mem_mapM_ok {α β ε : Type} {f : α → Except ε β} {xs : List α} {ys : List β}
    (h : xs.mapM f = .ok ys) {y : β} (hy : y ∈ ys) : ∃ x ∈ xs, f x = .ok y := by
  induction xs generalizing ys with
  | nil =>
    cases h
    exact absurd hy List.not_mem_nil
  | cons x xs ih =>
    rw [List.mapM_cons] at h
    cases hx : f x with
    | error e =>
      rw [hx] at h
      cases h
    | ok z =>
      rw [hx] at h
      cases hxs : xs.mapM f with
      | error e =>
        rw [hxs] at h
        cases h
      | ok zs =>
        rw [hxs] at h
        cases h
        rcases List.mem_cons.1 hy with rfl | hy
        · exact ⟨x, List.mem_cons_self, hx⟩
        · obtain ⟨x', hx', hfx⟩ := ih hxs hy
          exact ⟨x', List.mem_cons_of_mem _ hx', hfx⟩

theorem mem_splitOn_of_mem_namesWithin {cs n : List Char} (h : n ∈ namesWithin cs) :
    n ∈ cs.splitOn '/' := by
  unfold namesWithin at h
  extract_lets ns at h
  split at h
  · exact List.dropLast_subset _ h
  · exact h

/-- A name in a pattern is empty, or spelled by one of the names in its text. -/
theorem Pattern.exists_of_literal {cs : List Char} {name : List UInt8} {p : Pattern}
    (h : Pattern.ofChars cs = .ok p) (hname : .literal name ∈ p.components) :
    name = [] ∨ ∃ inner n, inner ⊆ cs ∧ n ∈ inner.splitOn '/'
      ∧ Component.ofChars n = .ok (.literal name) := by
  unfold Pattern.ofChars at h
  cases hws : pieces 0 true cs with
  | error e =>
    rw [hws] at h
    cases h
  | ok ws =>
    simp only [hws, bind, Except.bind] at h
    have hsubset : (if (cs.head? == some '/') = true then cs.drop 1 else cs) ⊆ cs := by
      split
      · exact List.drop_subset 1 cs
      · exact List.Subset.refl cs
    generalize (if (cs.head? == some '/') = true then cs.drop 1 else cs) = inner at h hsubset
    cases hcomponents : (namesWithin inner).mapM Component.ofChars with
    | error e =>
      simp only [hcomponents] at h
      cases h
    | ok components =>
      have hspelled (hmem : .literal name ∈ components) :
          ∃ n ∈ inner.splitOn '/', Component.ofChars n = .ok (.literal name) := by
        obtain ⟨n, hn, hof⟩ := mem_mapM_ok hcomponents hmem
        exact ⟨n, mem_splitOn_of_mem_namesWithin hn, hof⟩
      simp only [hcomponents] at h
      cases h
      have hname : .literal name ∈ if inner = [] then components ++ [.literal []] else components :=
        hname
      have hmem : .literal name ∈ components ∨ name = [] := by
        split at hname
        · simpa using hname
        · exact .inl hname
      rcases hmem with hmem | hempty
      · obtain ⟨n, hn, hof⟩ := hspelled hmem
        exact .inr ⟨inner, n, hsubset, hn, hof⟩
      · exact .inl hempty

/-- A name in a pattern is spelled by characters of its text, and by no slash. -/
theorem Pattern.exists_word {cs : List Char} {name : List UInt8} {p : Pattern}
    (h : Pattern.ofChars cs = .ok p) (hname : .literal name ∈ p.components) :
    ∃ word, word ⊆ cs ∧ '/' ∉ word ∧ name = Utf8.encode word := by
  rcases Pattern.exists_of_literal h hname with rfl | ⟨inner, n, hinner, hn, hof⟩
  · exact ⟨[], List.nil_subset cs, List.not_mem_nil, rfl⟩
  · obtain ⟨word, hword, rfl⟩ := Component.exists_of_ofChars hof
    exact ⟨word, fun c hc => hinner (subset_of_mem_splitOn hn (hword hc)),
      fun hslash => not_mem_of_mem_splitOn hn (hword hslash), rfl⟩

/-- The names of a pattern hold no slash. -/
theorem Pattern.plain_literal {cs : List Char} {name : List UInt8} {p : Pattern}
    (h : Pattern.ofChars cs = .ok p) (hname : .literal name ∈ p.components) : slash ∉ name := by
  obtain ⟨word, -, hword, rfl⟩ := Pattern.exists_word h hname
  intro hslash
  obtain ⟨c, hc, hbyte⟩ := List.mem_flatMap.1 hslash
  have hcslash : c = '/' := (Utf8.toUInt8_mem_encodeChar (by decide)).1 hbyte
  exact hword (hcslash ▸ hc)

end Glob

end EditionCheck
