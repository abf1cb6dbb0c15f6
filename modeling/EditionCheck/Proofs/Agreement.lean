import EditionCheck.Proofs.ExitStatus

/-!
# Settings that differ in one variable

Two environments that agree on all variables but one, and what a file `.env` makes of them. A value in the
file can stand for another variable, so that the difference can spread; it does not if no line of the file
refers to the variable.

* `Environment.SameBut` — agreement on all other variables;
* `readValue_congr`, `readLine_congr` — a value and a line that do not refer to the variable say the same in
  both environments;
* `Parallel` — what is loaded in two environments agrees on all other variables, or both crash in the same
  way, or one crashes at a value for the variable;
* `SameBut.load`, `parallel_settingsIn` — so it is with a file without a reference.
-/

set_option autoImplicit false

namespace EditionCheck.Settings

open EditionCheck.Text

/-! ## Agreement -/

/-- Two environments agree on all variables but one. -/
def Environment.SameBut (v : List Char) (env env' : Environment) : Prop :=
  ∀ name, name ≠ v → env.bytes? name = env'.bytes? name

section

variable {v name : List Char} {env env' : Environment}

theorem Environment.SameBut.text? (h : env.SameBut v env') (hname : name ≠ v) :
    env.text? name = env'.text? name := by
  rw [Environment.text?, Environment.text?, h name hname]

theorem Environment.bytes?_put_of_ne (env : Environment) {name other : List Char} (value : List Char)
    (h : name ≠ other) : (env.put name value).bytes? other = env.bytes? other := by
  simp [bytes?, put, h]

theorem Environment.bytes?_put_self (env : Environment) (name value : List Char) :
    (env.put name value).bytes? name = some (Utf8.encode value) := by
  simp [bytes?, put]

/-- Giving a variable a value changes that variable only. -/
theorem Environment.sameBut_put (env : Environment) (v value : List Char) :
    (env.put v value).SameBut v env := fun _ hname => env.bytes?_put_of_ne value hname.symm

end

/-! ## Loading side by side -/

/-- What is loaded in two environments agrees on all variables but one, or loading crashes in the same way
in both. -/
inductive AgreeBut (v : List Char) : Except Crash Environment → Except Crash Environment → Prop
  | loaded {env env' : Environment} (same : env.SameBut v env') : AgreeBut v (.ok env) (.ok env')
  | crashed (crash : Crash) : AgreeBut v (.error crash) (.error crash)

/-- Loading crashes at a value for a variable. -/
def CrashesAt (v : List Char) (loaded : Except Crash Environment) : Prop :=
  ∃ value, loaded = .error (.nulInValue v value)

/-- What is loaded in two environments agrees but on one variable, unless a value for that variable makes
one of them crash. -/
def Parallel (v : List Char) (x y : Except Crash Environment) : Prop :=
  AgreeBut v x y ∨ CrashesAt v x ∨ CrashesAt v y

section

variable {v : List Char} {env env' : Environment}

theorem Parallel.bind {x y : Except Crash Environment} {f g : Environment → Except Crash Environment}
    (h : Parallel v x y) (hfg : ∀ e e', e.SameBut v e' → Parallel v (f e) (g e')) :
    Parallel v (x >>= f) (y >>= g) := by
  rcases h with hagree | ⟨value, rfl⟩ | ⟨value, rfl⟩
  · cases hagree with
    | loaded same => exact hfg _ _ same
    | crashed crash => exact .inl (.crashed crash)
  · exact .inr (.inl ⟨value, rfl⟩)
  · exact .inr (.inr ⟨value, rfl⟩)

/-- A variable is given a value, if that does not crash. -/
theorem set_cases (env : Environment) (name value : List Char) :
    env.set name value = .ok (env.put name value)
      ∨ env.set name value = .error (.nulInValue name value) := by
  unfold Environment.set
  split
  · exact .inr rfl
  · exact .inl rfl

/-- A missing variable may change itself or crash; all others stay as they are. -/
theorem setMissing_self (env : Environment) (v value : List Char) :
    (∃ env', env.setMissing v value = .ok env' ∧ env'.SameBut v env)
      ∨ CrashesAt v (env.setMissing v value) := by
  unfold Environment.setMissing
  split
  · rcases set_cases env v value with hset | hset
    · exact .inl ⟨_, hset, env.sameBut_put v value⟩
    · exact .inr ⟨value, hset⟩
  · exact .inl ⟨env, rfl, fun _ _ => rfl⟩

/-- A value for a variable that is missing keeps the agreement. -/
theorem Environment.SameBut.setMissing (h : env.SameBut v env') (name value : List Char) :
    Parallel v (env.setMissing name value) (env'.setMissing name value) := by
  by_cases hname : name = v
  · subst hname
    rcases setMissing_self env name value with ⟨e, he, hsame⟩ | hcrash
    · rcases setMissing_self env' name value with ⟨e', he', hsame'⟩ | hcrash'
      · rw [he, he']
        exact .inl (.loaded fun n hn => (hsame n hn).trans ((h n hn).trans (hsame' n hn).symm))
      · exact .inr (.inr hcrash')
    · exact .inr (.inl hcrash)
  · -- both environments have the same text for this variable, so they take the value or both do not
    have htext := h.text? hname
    by_cases hmissing : (env.text? name).isNone
    · rw [setMissing_of_isNone hmissing, setMissing_of_isNone (htext ▸ hmissing)]
      unfold Environment.set
      split
      · exact .inl (.crashed _)
      · refine .inl (.loaded fun other hother => ?_)
        by_cases hsame : name = other
        · rw [← hsame, env.bytes?_put_self, env'.bytes?_put_self]
        · rw [env.bytes?_put_of_ne value hsame, env'.bytes?_put_of_ne value hsame, h other hother]
    · rw [Environment.setMissing, Environment.setMissing, if_neg hmissing, if_neg (htext ▸ hmissing)]
      exact .inl (.loaded h)

end

/-! ## Values that do not refer to a variable -/

/-- How a value refers to a variable. -/
def reference (v : List Char) : List Char := '$' :: '{' :: (v ++ ['}'])

/-- A text does not refer to a variable. -/
def Silent (v cs : List Char) : Prop := ¬ reference v <:+: cs

/-- The start of a reference that has been read. -/
def ValueState.pending : ValueState → List Char
  | name _ n => '$' :: n
  | braced _ n => '$' :: '{' :: n
  | _ => []

/-- A name without braces has letters and numbers only. -/
def ValueState.Sane : ValueState → Prop
  | name _ n => ∀ c ∈ n, isAlphanumeric c
  | _ => True

section

variable {v cs ds : List Char} {env env' : Environment}

theorem Silent.of_infix (h : Silent v ds) (hcs : cs <:+: ds) : Silent v cs := fun href => h (href.trans hcs)

theorem Silent.of_suffix (h : Silent v ds) (hcs : cs <:+ ds) : Silent v cs := h.of_infix hcs.isInfix

theorem Silent.tail {c : Char} (h : Silent v (c :: cs)) : Silent v cs := h.of_suffix (List.suffix_cons c cs)

@[simp] theorem ValueState.pending_outside (inDouble : Bool) : (outside inDouble).pending = [] := by
  cases inDouble <;> rfl

@[simp] theorem ValueState.sane_outside (inDouble : Bool) : (outside inDouble).Sane := by
  cases inDouble <;> trivial

theorem substitute_congr (hsame : env.SameBut v env') {n : List Char} (hn : n ≠ v) :
    substitute env n = substitute env' n := by
  rw [substitute, substitute, hsame.text? hn]

/-- **A value that does not refer to a variable does not depend on it.** -/
theorem readValue_congr (hsame : env.SameBut v env') (hv : ∃ c ∈ v, isAlphanumeric c = false)
    {state : ValueState} (hstate : state.Sane) (hsilent : Silent v (state.pending ++ cs)) :
    readValue env state cs = readValue env' state cs := by
  have hname {n : List Char} (hn : ∀ c ∈ n, isAlphanumeric c) :
      substitute env n = substitute env' n := by
    refine substitute_congr hsame ?_
    rintro rfl
    obtain ⟨c, hc, hnot⟩ := hv
    rw [hn c hc] at hnot
    cases hnot
  -- what has been read of a variable's name stands in front of the rest, so that the text as a whole is
  -- without a reference at every step; a name without braces ends in front of the underscore
  fun_induction readValue env state cs with
  | case4 n => rw [readValue, hname hstate]
  | case14 inDouble n c rest hc ih =>
    rw [readValue, if_pos hc]
    refine ih ?_ ?_
    · exact List.forall_mem_append.2 ⟨hstate, List.forall_mem_singleton.2 hc⟩
    · simpa [ValueState.pending] using hsilent
  | case15 inDouble n c rest hc hopens ih =>
    rw [readValue, if_neg hc, if_pos hopens]
    obtain ⟨hbrace, hempty⟩ := Bool.and_eq_true_iff.1 hopens
    cases beq_iff_eq.1 hbrace
    cases List.isEmpty_iff.1 hempty
    exact ih trivial hsilent
  | case16 inDouble n c rest hc hopens hdollar ih =>
    rw [readValue, if_neg hc, if_neg hopens, if_pos hdollar, hname hstate]
    cases beq_iff_eq.1 hdollar
    rw [ih nofun (hsilent.of_suffix (List.suffix_append _ _))]
  | case17 inDouble n c rest hc hopens hdollar ih =>
    rw [readValue, if_neg hc, if_neg hopens, if_neg hdollar, hname hstate]
    have hrest : Silent v (c :: rest) := hsilent.of_suffix (List.suffix_append _ _)
    rw [ih (ValueState.sane_outside _) (by simpa using hrest.tail)]
  | case18 inDouble n c rest hclose ih =>
    rw [readValue, if_pos hclose]
    have hrest : Silent v (c :: rest) := hsilent.of_suffix (List.suffix_append _ _)
    have hne : n ≠ v := by
      rintro rfl
      cases beq_iff_eq.1 hclose
      refine hsilent ⟨[], rest, ?_⟩
      simp [reference, ValueState.pending]
    rw [substitute_congr hsame hne, ih (ValueState.sane_outside _) (by simpa using hrest.tail)]
  | case19 inDouble n c rest hclose ih =>
    rw [readValue, if_neg hclose]
    exact ih trivial (by simpa [ValueState.pending] using hsilent)
  | case20 c rest hdollar ih =>
    rw [readValue, if_pos hdollar]
    cases beq_iff_eq.1 hdollar
    exact ih nofun hsilent
  | case24 c rest hdollar ih =>
    rw [readValue, if_pos hdollar]
    cases beq_iff_eq.1 hdollar
    exact ih nofun hsilent
  | case1 | case2 | case3 => rw [readValue]
  | case5 => rw [readValue] <;> assumption
  | case7 | case8 | case11 => simp [readValue, *]
  | _ =>
    -- a character is taken outside of variables, and reading goes on behind it
    rename_i ih
    have hrest := ih (by first | exact ValueState.sane_outside _ | trivial)
      (by first | exact hsilent.tail | simpa using Silent.tail hsilent)
    simp [readValue, *]

/-! ## Lines that do not refer to a variable -/

theorem trimStart_suffix (cs : List Char) : trimStart cs <:+ cs := List.dropWhile_suffix _

/-- A line without the white space at its two ends is a part of it. -/
theorem trimmed_part (cs : List Char) : trimStart (trimEnd cs) <:+: cs := by
  have hend := List.reverse_prefix.2 (trimStart_suffix cs.reverse)
  rw [List.reverse_reverse] at hend
  exact (trimStart_suffix (trimEnd cs)).isInfix.trans hend.isInfix

theorem suffix_of_readName {name rest : List Char} (h : readName cs = some (name, rest)) :
    rest <:+ cs := by
  unfold readName at h
  split at h
  · split at h
    · cases h
      exact List.drop_suffix _ _
    · cases h
  · cases h

theorem assignBehind_congr (hsame : env.SameBut v env') (hv : ∃ c ∈ v, isAlphanumeric c = false)
    (hsilent : Silent v cs) (name : List Char) :
    assignBehind env name cs = assignBehind env' name cs := by
  have htrimmed := hsilent.of_suffix (trimStart_suffix cs)
  unfold assignBehind
  split
  · next rest heq =>
    rw [heq] at htrimmed
    have hvalue := htrimmed.tail.of_suffix (trimStart_suffix rest)
    have hread : readValue env .plain (trimStart rest) = readValue env' .plain (trimStart rest) :=
      readValue_congr hsame hv trivial hvalue
    simp only [assign, hread]
  · rfl

theorem readLine_congr (hsame : env.SameBut v env') (hv : ∃ c ∈ v, isAlphanumeric c = false)
    (hsilent : Silent v cs) : readLine env cs = readLine env' cs := by
  have hbody : Silent v (trimStart (trimEnd cs)) := hsilent.of_infix (trimmed_part cs)
  unfold readLine
  dsimp only
  split
  · rfl
  · cases hname : readName (trimStart (trimEnd cs)) with
    | none => rfl
    | some found =>
      obtain ⟨name, rest⟩ := found
      have hrest := hbody.of_suffix (suffix_of_readName hname)
      simp only [Option.bind_eq_bind, Option.bind_some, assignBehind_congr hsame hv hrest]
      split
      · cases hname' : readName (trimStart rest) with
        | none => rfl
        | some found' =>
          have hrest' := hrest.of_suffix ((suffix_of_readName hname').trans (trimStart_suffix rest))
          simp only [Option.bind_some, assignBehind_congr hsame hv hrest']
      · rfl

/-! ## Files that do not refer to a variable -/

/-- No line of a file refers to a variable. -/
def SilentFile (v : List Char) (bytes : List UInt8) : Prop :=
  ∀ line, .text line ∈ linesOf bytes → Silent v line

theorem Environment.SameBut.takeOver (h : env.SameBut v env') (as : List Assignment) :
    Parallel v (Settings.takeOver env as) (Settings.takeOver env' as) := by
  induction as generalizing env env' with
  | nil => exact .inl (.loaded h)
  | cons a as ih =>
    rw [takeOver_cons, takeOver_cons]
    exact (h.setMissing a.name a.value).bind fun e e' => ih

/-- Lines that do not refer to the variable keep the agreement. -/
theorem Environment.SameBut.loadLines (h : env.SameBut v env')
    (hv : ∃ c ∈ v, isAlphanumeric c = false) {lines : List Line}
    (hsilent : ∀ line, .text line ∈ lines → Silent v line) :
    Parallel v (Settings.loadLines env lines) (Settings.loadLines env' lines) := by
  induction lines generalizing env env' with
  | nil => exact .inl (.loaded h)
  | cons line lines ih =>
    cases line with
    | broken => exact .inl (.loaded h)
    | torn => exact .inl (.crashed .tornCharacter)
    | text line =>
      have hline := readLine_congr h hv (hsilent line List.mem_cons_self)
      simp only [Settings.loadLines, hline]
      split
      · exact .inl (.loaded h)
      · exact (h.takeOver _).bind fun e e' he => ih he fun l hl => hsilent l (List.mem_cons_of_mem _ hl)

/-- **A file that does not refer to the variable keeps the agreement.** -/
theorem Environment.SameBut.load (h : env.SameBut v env') (hv : ∃ c ∈ v, isAlphanumeric c = false)
    {bytes : List UInt8} (hsilent : SilentFile v bytes) :
    Parallel v (Settings.load env bytes) (Settings.load env' bytes) :=
  h.loadLines hv hsilent

end

end EditionCheck.Settings

namespace EditionCheck

open EditionCheck.Files EditionCheck.Settings EditionCheck.Text

/-! ## Settings -/

section

variable (files : Access Id) {v : List Char} {env env' : Environment}

/-- The bytes of the assignment file that a run in a directory reads. -/
def assignmentBytes (directory : Option (List UInt8)) : Option (List UInt8) := do
  let path ← (findFile files (ancestors (← directory))).run
  (files.read path).run.toOption

/-- Settings are the environment with the assignments of the file. -/
theorem settingsIn_eq (directory : Option (List UInt8)) (env : Environment) :
    settingsIn files directory env
      = match assignmentBytes files directory with
        | some bytes => load env bytes
        | none => .ok env := by
  cases directory with
  | none => rfl
  | some directory =>
    have hbytes : assignmentBytes files (some directory)
        = (findFile files (ancestors directory)).run.bind fun path => (files.read path).run.toOption :=
      rfl
    rw [hbytes]
    simp only [settingsIn, loadFor, Id.run_bind]
    cases (findFile files (ancestors directory)).run with
    | none => rfl
    | some path =>
      simp only [Option.bind_some, Id.run_bind]
      cases (files.read path).run <;> rfl

/-- Without a file that refers to the variable, the settings agree on all others. -/
theorem parallel_settingsIn (hsame : env.SameBut v env') (hv : ∃ c ∈ v, isAlphanumeric c = false)
    {directory : Option (List UInt8)}
    (hsilent : ∀ bytes, assignmentBytes files directory = some bytes → SilentFile v bytes) :
    Parallel v (settingsIn files directory env) (settingsIn files directory env') := by
  rw [settingsIn_eq, settingsIn_eq]
  cases hbytes : assignmentBytes files directory with
  | none => exact .inl (.loaded hsame)
  | some bytes => exact hsame.load hv (hsilent bytes hbytes)

end

end EditionCheck
