import EditionCheck.Files.Tree
import EditionCheck.Glob.Walk

/-!
# Walking files that do not change

A walk for a pattern asks its file system questions in some monad. The answers of files that do not
change, such as those of a tree, do not depend on the monad, so neither does what the walk finds: in
every lawful monad the walk is the result of the plain walk, returned without any effect.

* `Settles x w` — `x`, in some monad, only returns the plain result `w`; it is closed under sequencing.
* `settles_select` — the walk for a pattern settles.
* `readText_fixed`, `textAt_access` — the text of a file is read without effect, and which text that is
  in a tree.
-/

set_option autoImplicit false

namespace EditionCheck

open EditionCheck.Files EditionCheck.Glob

variable {m : Type → Type} [Monad m] {ε α β : Type}

/-! ## Computations without effects -/

/-- A computation only returns a plain result, or throws its error. -/
def Settles (x : ExceptT ε m α) (w : ExceptT ε Id α) : Prop := x = ExceptT.mk (pure w.run)

namespace Settles

theorem pure (a : α) : Settles (pure a : ExceptT ε m α) (pure a) := rfl

theorem throw (e : ε) : Settles (throw e : ExceptT ε m α) (throw e) := rfl

theorem bind [LawfulMonad m] {x : ExceptT ε m α} {w : ExceptT ε Id α} {f : α → ExceptT ε m β}
    {g : α → ExceptT ε Id β} (hx : Settles x w) (hf : ∀ a, Settles (f a) (g a)) :
    Settles (x >>= f) (w >>= g) := by
  rw [Settles] at hx
  subst hx
  apply ExceptT.ext
  rw [ExceptT.run_bind, ExceptT.run_mk, pure_bind]
  show _ = (Pure.pure (w >>= g).run : m (Except ε β))
  rw [ExceptT.run_bind]
  show _ = (Pure.pure (match w.run with
    | .ok a => (g a).run
    | .error e => Except.error e) : m (Except ε β))
  cases w.run with
  | ok a => exact congrArg ExceptT.run (hf a)
  | error e => rfl

/-- An answer that is only returned settles. -/
theorem lift [LawfulMonad m] (a : α) :
    Settles (liftM (Pure.pure a : m α) : ExceptT ε m α) (Pure.pure a) := by
  apply ExceptT.ext
  rw [ExceptT.run_liftM, map_pure]
  rfl

end Settles

/-! ## Questions to files that do not change -/

/-- Files with answers that are values, for a program in any monad. -/
def Files.Access.fixed {m : Type → Type} [Pure m] (files : Access Id) : Access m where
  kind path := pure (files.kind path).run
  list path := pure (files.list path).run
  read path := pure (files.read path).run

/-- The text at a path. -/
def Files.Access.textAt (files : Access Id) (path : List UInt8) : Except Fault String :=
  (files.readText path).run

/-- The text at a path of a tree. -/
def Files.Tree.textAt (t : Tree) (current : Place) (path : List UInt8) : Except Fault String :=
  match (t.resolve current path).bind t.readAt with
  | .error fault => .error fault
  | .ok bytes =>
    match Text.Utf8.decode? bytes with
    | some chars => .ok (String.ofList chars)
    | none => .error .notText

theorem textAt_access (t : Tree) (current : Place) (path : List UInt8) :
    (t.access current : Access Id).textAt path = t.textAt current path := by
  simp only [Access.textAt, Access.readText, Tree.access, Tree.textAt, Id.run_bind, Id.run_pure]
  cases (t.resolve current path).bind t.readAt with
  | error e => rfl
  | ok bytes =>
    dsimp only
    cases Text.Utf8.decode? bytes <;> rfl

section

variable [LawfulMonad m] (files : Access Id)

omit [LawfulMonad m] in
@[simp] theorem kind_fixed (path : List UInt8) :
    (files.fixed : Access m).kind path = pure (files.kind path).run := rfl

omit [LawfulMonad m] in
@[simp] theorem list_fixed (path : List UInt8) :
    (files.fixed : Access m).list path = pure (files.list path).run := rfl

omit [LawfulMonad m] in
@[simp] theorem read_fixed (path : List UInt8) :
    (files.fixed : Access m).read path = pure (files.read path).run := rfl

theorem exists?_fixed (path : List UInt8) :
    (files.fixed : Access m).exists? path = pure (files.exists? path).run := by
  simp only [Access.exists?, kind_fixed, pure_bind, Id.run_bind]
  cases (files.kind path).run <;> rfl

theorem isDirectory_fixed (path : List UInt8) :
    (files.fixed : Access m).isDirectory path = pure (files.isDirectory path).run := by
  simp only [Access.isDirectory, kind_fixed, pure_bind, Id.run_bind]
  cases (files.kind path).run with
  | error e => rfl
  | ok kind => cases kind <;> rfl

theorem readText_fixed (path : List UInt8) :
    (files.fixed : Access m).readText path = pure (files.textAt path) := by
  simp only [Access.textAt, Access.readText, read_fixed, pure_bind, Id.run_bind]
  cases (files.read path).run with
  | error e => rfl
  | ok bytes =>
    dsimp only
    cases Text.Utf8.decode? bytes <;> rfl

theorem settles_exists? (path : List UInt8) :
    Settles (liftM ((files.fixed : Access m).exists? path) : ExceptT ε m Bool)
      (liftM (files.exists? path)) := by
  rw [exists?_fixed]
  exact Settles.lift _

theorem settles_isDirectory (path : List UInt8) :
    Settles (liftM ((files.fixed : Access m).isDirectory path) : ExceptT ε m Bool)
      (liftM (files.isDirectory path)) := by
  rw [isDirectory_fixed]
  exact Settles.lift _

theorem settles_list (path : List UInt8) :
    Settles (liftM ((files.fixed : Access m).list path) : ExceptT ε m _)
      (liftM (files.list path)) :=
  Settles.lift _

end

namespace Glob

/-! ## The walk -/

variable [LawfulMonad m] {files : Access Id} {directoriesOnly : Bool}

theorem settles_inTurn {γ : Type} (xs : List γ) {f : γ → Walk m} {g : γ → Walk Id}
    (hf : ∀ x, Settles (f x) (g x)) : Settles (inTurn xs f) (inTurn xs g) := by
  have hmap : Settles (xs.mapM f) (xs.mapM g) := by
    induction xs with
    | nil => exact .pure _
    | cons x xs ih =>
      rw [List.mapM_cons, List.mapM_cons]
      exact (hf x).bind fun _ => ih.bind fun _ => .pure _
  exact hmap.bind fun _ => .pure _

theorem settles_ending (path : List UInt8) :
    Settles (ending files.fixed directoriesOnly path : Walk m)
      (ending files directoriesOnly path) := by
  cases directoriesOnly with
  | false => exact .pure _
  | true =>
    refine (settles_isDirectory files path).bind fun found => ?_
    cases found <;> exact .pure _

section

variable {below : List Component → List UInt8 → Walk m} {below' : List Component → List UInt8 → Walk Id}

theorem settles_onward (hb : ∀ cs path, Settles (below cs path) (below' cs path))
    (rest : List Component) (path : List UInt8) :
    Settles (onward files.fixed directoriesOnly below rest path)
      (onward files directoriesOnly below' rest path) := by
  cases rest with
  | nil => exact settles_ending path
  | cons c rest => exact hb _ _

theorem settles_onMatch (hb : ∀ cs path, Settles (below cs path) (below' cs path))
    (components : List Component) (path name : List UInt8) :
    Settles (onMatch files.fixed directoriesOnly below components path name)
      (onMatch files directoriesOnly below' components path name) := by
  cases components with
  | nil => exact .pure _
  | cons c rest =>
    simp only [onMatch]
    split
    · exact settles_onward hb rest path
    · exact .pure _

theorem settles_visit (hb : ∀ cs path, Settles (below cs path) (below' cs path))
    (components : List Component) (path name : List UInt8) :
    Settles (visit files.fixed directoriesOnly below components path name)
      (visit files directoriesOnly below' components path name) := by
  unfold visit
  split
  · refine (settles_isDirectory files path).bind fun found => ?_
    cases found with
    | false =>
      simp only [Bool.false_eq_true, if_false, pure_bind]
      split
      · exact .pure _
      · exact (settles_onMatch hb _ _ _).bind fun _ => .pure _
    | true =>
      simp only [if_true, pure_bind]
      split
      · exact (hb _ _).bind fun _ => .pure _
      · exact (settles_onMatch hb _ _ _).bind fun _ => (hb _ _).bind fun _ => .pure _
  · exact settles_onMatch hb _ _ _

end

theorem settles_fill (depth : Nat) (components : List Component) (path : List UInt8) :
    Settles (fill files.fixed directoriesOnly depth components path : Walk m)
      (fill files directoriesOnly depth components path) := by
  induction depth generalizing components path with
  | zero => exact .pure _
  | succ depth ih =>
    cases components with
    | nil => exact .pure _
    | cons c rest =>
      refine (settles_isDirectory files path).bind fun found => ?_
      dsimp only
      split
      · split
        · simp only [pure_bind]
          cases found with
          | false => exact .pure _
          | true => exact settles_onward ih _ _
        · refine (settles_exists? files _).bind fun known => ?_
          cases known with
          | false => exact .pure _
          | true => exact settles_onward ih _ _
      · cases found with
        | false => exact .pure _
        | true =>
          refine (settles_list files path).bind fun listed => ?_
          cases listed with
          | error fault => exact .throw _
          | ok names =>
            refine (settles_inTurn _ fun name => settles_onward ih _ _).bind fun dots => ?_
            exact (settles_inTurn _ fun name => settles_visit ih _ _ _).bind fun _ => .pure _

theorem settles_select (p : Pattern) :
    Settles (p.select files.fixed : Walk m) (p.select files) :=
  settles_fill _ _ _

end Glob

end EditionCheck
