import EditionCheck.Proofs.OptionValues

/-!
# Layers of settings

A file `.env` is loaded line by line into the environment, and a line can refer to what the lines in front
of it have set. The outcome is that of a merge in which nothing is set: the environment lies over the
assignments of the file, of which the first one for a variable counts. There is no outcome if the merge has
a value of the file that no variable can have, or a torn line is come to.

* `parted_readValue`, `exists_drafts` — a value and a line are read in all environments alike, up to what
  their variables stand for, so a line parses in all of them or in none;
* `Environment.over`, `assignmentsOf` — an environment over assignments, and the assignments of some lines;
* `assignmentsOf_behind` — they are those in front of the first line that does not parse;
* `takeOver_cases`, `loadLines_cases` — loading lines makes the environment that lies over their
  assignments, or crashes;
* `loadLines_settled` — loading them once more changes nothing;
* `settings_layered` — the settings of a run are those of the merge; `settings_crash` — there may be none.
-/

set_option autoImplicit false

namespace EditionCheck.Settings

open EditionCheck.Files EditionCheck.Text

/-! ## Reading without an environment -/

/-- A part of a value: a character, or a variable in whose place its text is put. -/
inductive Part where
  | char (c : Char)
  | reference (name : List Char)

/-- What a part stands for. -/
def Part.text (env : Environment) : Part → List Char
  | char c => [c]
  | reference name => substitute env name

/-- What is read is a row of parts, or nothing, in all environments alike. -/
def Parted (read : Environment → Option (List Char)) : Prop :=
  ∃ parts : Option (List Part), ∀ env, read env = parts.map fun ps => ps.flatMap (Part.text env)

section

variable {read : Environment → Option (List Char)}

theorem parted_none : Parted fun _ => none := ⟨none, fun _ => rfl⟩

theorem parted_nil : Parted fun _ => some [] := ⟨some [], fun _ => rfl⟩

/-- A part can be put in front. -/
theorem Parted.cons (h : Parted read) (part : Part) :
    Parted fun env => (read env).map (part.text env ++ ·) := by
  obtain ⟨parts, hparts⟩ := h
  refine ⟨parts.map (part :: ·), fun env => ?_⟩
  simp only [hparts, Option.map_map, Function.comp_def, List.flatMap_cons]

theorem Parted.char (h : Parted read) (c : Char) : Parted fun env => (read env).map (c :: ·) :=
  h.cons (.char c)

theorem Parted.reference (h : Parted read) (name : List Char) :
    Parted fun env => (read env).map (substitute env name ++ ·) :=
  h.cons (.reference name)

/-- **A value is read in all environments alike**, up to what its variables stand for. -/
theorem parted_readValue (state : ValueState) (cs : List Char) :
    Parted fun env => readValue env state cs := by
  -- how the value is cut up does not depend on the environment, so that any one will do for the induction
  fun_induction readValue .empty state cs with
  | case4 name =>
    simpa only [readValue, Option.map_some, List.append_nil] using parted_nil.reference name
  | case16 inDouble name c rest hpart hopens hdollar ih =>
    simpa only [readValue, hpart, hopens, hdollar, Bool.false_eq_true, ↓reduceIte] using ih.reference name
  | case17 inDouble name c rest hpart hopens hdollar ih =>
    simpa only [readValue, hpart, hopens, hdollar, Bool.false_eq_true, ↓reduceIte, Option.map_map,
      Function.comp_def] using (ih.char c).reference name
  | case18 inDouble name c rest hclose ih =>
    simpa only [readValue, hclose, Bool.false_eq_true, ↓reduceIte] using ih.reference name
  | case9 | case10 | case13 | case23 | case29 =>
    -- the character is taken
    rename_i ih
    simpa only [readValue, *, Bool.false_eq_true, ↓reduceIte] using ih.char _
  | case1 | case2 | case3 | case7 =>
    simpa only [readValue, *, Bool.false_eq_true, ↓reduceIte] using parted_nil
  | case5 | case8 | case11 =>
    simpa only [readValue, *, Bool.false_eq_true, ↓reduceIte] using parted_none
  | _ =>
    -- the character only leads from one state to another
    simp only [readValue, *, Bool.false_eq_true, ↓reduceIte]

end

/-! ## Drafts -/

/-- An assignment with the parts of its value. -/
structure Draft where
  name : List Char
  parts : List Part

/-- The assignment that a draft makes in an environment. -/
def Draft.assignment (env : Environment) (d : Draft) : Assignment :=
  ⟨d.name, d.parts.flatMap (Part.text env)⟩

theorem exists_draft_of_assign (name cs : List Char) :
    ∃ d : Option Draft, ∀ env, assign env name cs = d.map (Draft.assignment env) := by
  by_cases hempty : (trimStart cs).isEmpty || (trimStart cs).head? == some '#'
  · exact ⟨some ⟨name, []⟩, fun env => by simp only [assign, if_pos hempty]; rfl⟩
  · obtain ⟨parts, hparts⟩ := parted_readValue .plain (trimStart cs)
    refine ⟨parts.map (Draft.mk name), fun env => ?_⟩
    simp only [assign, if_neg hempty, hparts, Option.map_map]
    rfl

theorem exists_draft_of_assignBehind (name cs : List Char) :
    ∃ d : Option Draft, ∀ env, assignBehind env name cs = d.map (Draft.assignment env) := by
  by_cases hequals : ∃ rest, trimStart cs = '=' :: rest
  · obtain ⟨rest, hrest⟩ := hequals
    simpa only [assignBehind, hrest] using exists_draft_of_assign name rest
  · refine ⟨none, fun env => ?_⟩
    unfold assignBehind
    split
    · next rest hrest => exact absurd ⟨rest, hrest⟩ hequals
    · rfl

/-- **A line is read in all environments alike**, up to what its variables stand for. -/
theorem exists_drafts (line : List Char) :
    ∃ ds : Option (List Draft), ∀ env, readLine env line = ds.map (List.map (Draft.assignment env)) := by
  unfold readLine
  dsimp only
  split
  · exact ⟨some [], fun _ => rfl⟩
  · cases readName (trimStart (trimEnd line)) with
    | none => exact ⟨none, fun _ => rfl⟩
    | some found =>
      obtain ⟨name, rest⟩ := found
      obtain ⟨d, hd⟩ := exists_draft_of_assignBehind name rest
      simp only [Option.bind_eq_bind, Option.bind_some, hd]
      split
      · cases readName (trimStart rest) with
        | none => exact ⟨none, fun _ => rfl⟩
        | some found' =>
          obtain ⟨d', hd'⟩ := exists_draft_of_assignBehind found'.1 found'.2
          refine ⟨d'.map fun d => [d], fun env => ?_⟩
          simp only [Option.bind_some, hd']
          cases d' <;> rfl
      · refine ⟨d.map fun d => [d], fun env => ?_⟩
        cases d <;> rfl

/-- Whether a line is an assignment, or has none. -/
def parses : Line → Bool
  | .text line => (readLine .empty line).isSome
  | _ => false

/-- A line that parses does so in every environment. -/
theorem isSome_readLine (env : Environment) (line : List Char) :
    (readLine env line).isSome = parses (.text line) := by
  obtain ⟨ds, hds⟩ := exists_drafts line
  rw [parses, hds env, hds .empty, Option.isSome_map, Option.isSome_map]

/-- Whether the first line that does not parse is torn. -/
def comesToTorn : List Line → Bool
  | .text line :: rest => parses (.text line) && comesToTorn rest
  | .torn :: _ => true
  | _ => false

/-! ## Environments over assignments -/

/-- The value of the first of some assignments for a variable. -/
def firstValue (as : List Assignment) (name : List Char) : Option (List Char) :=
  (as.find? (·.name == name)).map (·.value)

/-- An environment over assignments, which give values to the variables that it does not have. -/
def Environment.over (env : Environment) (as : List Assignment) : Environment :=
  ⟨env.bindings ++ as.map fun a => (a.name, Utf8.encode a.value)⟩

/-- All values of an environment are texts. -/
def Environment.Textual (env : Environment) : Prop :=
  ∀ name value, env.bytes? name = some value → ∃ text, value = Utf8.encode text

/-- Two environments agree on all variables. -/
def Environment.Agrees (env env' : Environment) : Prop := ∀ name, env.bytes? name = env'.bytes? name

namespace Environment

variable {env env' : Environment}

/-- **What lies over assignments counts, and of these the first one.** -/
theorem bytes?_over (env : Environment) (as : List Assignment) (name : List Char) :
    (env.over as).bytes? name = (env.bytes? name).or ((firstValue as name).map Utf8.encode) := by
  simp only [bytes?, Environment.over, firstValue, List.find?_append, List.find?_map, Function.comp_def,
    Option.map_or, Option.map_map]

theorem over_nil (env : Environment) : env.over [] = env := by simp [Environment.over]

theorem over_append (env : Environment) (as bs : List Assignment) :
    env.over (as ++ bs) = (env.over as).over bs := by simp [Environment.over]

theorem textual_empty : empty.Textual := nofun

theorem Textual.over (h : env.Textual) (as : List Assignment) : (env.over as).Textual := by
  intro name value hvalue
  rw [bytes?_over, Option.or_eq_some_iff] at hvalue
  obtain hvalue | ⟨-, hvalue⟩ := hvalue
  · exact h name value hvalue
  · obtain ⟨text, -, rfl⟩ := Option.map_eq_some_iff.1 hvalue
    exact ⟨text, rfl⟩

theorem Textual.text?_over (h : env.Textual) (as : List Assignment) (name : List Char) :
    (env.over as).text? name = (env.text? name).or (firstValue as name) := by
  rw [text?, text?, bytes?_over]
  cases hold : env.bytes? name with
  | none => cases firstValue as name <;> simp [Utf8.decode?_encode]
  | some bytes =>
    obtain ⟨text, rfl⟩ := h name bytes hold
    simp [Utf8.decode?_encode]

theorem Agrees.text? (h : env.Agrees env') (name : List Char) : env.text? name = env'.text? name := by
  rw [Environment.text?, Environment.text?, h name]

theorem Agrees.substitute (h : env.Agrees env') : Settings.substitute env = Settings.substitute env' := by
  funext name
  rw [Settings.substitute, Settings.substitute, h.text? name]

theorem Agrees.readLine (h : env.Agrees env') (line : List Char) :
    Settings.readLine env line = Settings.readLine env' line := by
  have htext : Part.text env = Part.text env' := by
    funext part
    cases part with
    | char c => rfl
    | reference name => exact congrFun h.substitute name
  obtain ⟨ds, hds⟩ := exists_drafts line
  have hassignment : Draft.assignment env = Draft.assignment env' := by
    funext d
    rw [Draft.assignment, Draft.assignment, htext]
  rw [hds, hds, hassignment]

theorem Agrees.ofEnvironment (h : env.Agrees env') :
    Options.ofEnvironment env = Options.ofEnvironment env' := by
  simp only [Options.ofEnvironment, Options.formatOf, h.text?]

/-- The environment with a value put at a variable that is missing lies over the assignment. -/
theorem agrees_put (h : env.Agrees env') {a : Assignment} (hmissing : env'.bytes? a.name = none) :
    (env.put a.name a.value).Agrees (env'.over [a]) := by
  intro name
  rw [bytes?_over]
  by_cases hname : a.name = name
  · subst hname
    rw [bytes?_put_self, hmissing]
    simp [firstValue]
  · rw [bytes?_put_of_ne env a.value hname, h name]
    simp [firstValue, hname]

/-- A value for a variable that is there does not count. -/
theorem agrees_over_of_isSome (h : env.Agrees env') {a : Assignment}
    (hset : (env'.bytes? a.name).isSome) : env.Agrees (env'.over [a]) := by
  intro name
  rw [bytes?_over, h name]
  by_cases hname : a.name = name
  · subst hname
    obtain ⟨bytes, hbytes⟩ := Option.isSome_iff_exists.1 hset
    rw [hbytes, Option.some_or]
  · simp [firstValue, hname]

theorem Textual.isSome_text? (h : env.Textual) (name : List Char) :
    (env.text? name).isSome = (env.bytes? name).isSome := by
  rw [text?]
  cases hold : env.bytes? name with
  | none => rfl
  | some bytes =>
    obtain ⟨text, rfl⟩ := h name bytes hold
    simp [Utf8.decode?_encode]

end Environment

/-! ## Values that no variable can have -/

theorem firstValue_append (as bs : List Assignment) (name : List Char) :
    firstValue (as ++ bs) name = (firstValue as name).or (firstValue bs name) := by
  rw [firstValue, List.find?_append, Option.map_or]
  rfl

/-- Some assignments give a variable that an environment does not have a value with the character U+0000. -/
def GivesNul (env : Environment) (as : List Assignment) : Prop :=
  ∃ name value, env.text? name = none ∧ firstValue as name = some value ∧ '\x00' ∈ value

theorem not_givesNul_nil (env : Environment) : ¬GivesNul env [] := by
  rintro ⟨name, value, -, hfirst, -⟩
  cases hfirst

/-- Assignments behind others are assignments for what lies over these. -/
theorem givesNul_append {env : Environment} (h : env.Textual) (as bs : List Assignment) :
    GivesNul env (as ++ bs) ↔ GivesNul env as ∨ GivesNul (env.over as) bs := by
  simp only [GivesNul, firstValue_append, h.text?_over, Option.or_eq_none_iff, Option.or_eq_some_iff]
  constructor
  · rintro ⟨name, value, hmissing, hfirst | ⟨hnone, hfirst⟩, hnul⟩
    · exact .inl ⟨name, value, hmissing, hfirst, hnul⟩
    · exact .inr ⟨name, value, ⟨hmissing, hnone⟩, hfirst, hnul⟩
  · rintro (⟨name, value, hmissing, hfirst, hnul⟩ | ⟨name, value, ⟨hmissing, hnone⟩, hfirst, hnul⟩)
    · exact ⟨name, value, hmissing, .inl hfirst, hnul⟩
    · exact ⟨name, value, hmissing, .inr ⟨hnone, hfirst⟩, hnul⟩

theorem givesNul_singleton {env : Environment} {a : Assignment} :
    GivesNul env [a] ↔ env.text? a.name = none ∧ '\x00' ∈ a.value := by
  constructor
  · rintro ⟨name, value, hmissing, hfirst, hnul⟩
    by_cases hname : a.name = name
    · subst hname
      simp only [firstValue, List.find?_cons, beq_self_eq_true, Option.map_some,
        Option.some.injEq] at hfirst
      exact ⟨hmissing, hfirst ▸ hnul⟩
    · simp [firstValue, hname] at hfirst
  · rintro ⟨hmissing, hnul⟩
    exact ⟨a.name, a.value, hmissing, by simp [firstValue], hnul⟩

/-! ## Loading as a merge -/

/-- Loading gives an environment that agrees with another one, or crashes, by whether something goes
wrong. -/
inductive Loads (merged : Environment) (wrong : Prop) : Except Crash Environment → Prop
  | loaded (cur : Environment) (agrees : cur.Agrees merged) (right : ¬wrong) :
      Loads merged wrong (.ok cur)
  | crashed (crash : Crash) (hwrong : wrong) : Loads merged wrong (.error crash)

/-- One assignment is put under the environment, or crashes. -/
theorem setMissing_cases {base cur : Environment} (hbase : base.Textual) (hcur : cur.Agrees base)
    (a : Assignment) :
    Loads (base.over [a]) (GivesNul base [a]) (cur.setMissing a.name a.value) := by
  have htext : cur.text? a.name = base.text? a.name := hcur.text? a.name
  rw [givesNul_singleton, ← htext]
  have hsome := hbase.isSome_text? a.name
  rw [← htext] at hsome
  by_cases hmissing : (cur.text? a.name).isNone
  · rw [Environment.setMissing_of_isNone hmissing]
    have hnone : cur.text? a.name = none := Option.isNone_iff_eq_none.1 hmissing
    unfold Environment.set
    split
    · next hnul => exact .crashed _ ⟨hnone, hnul⟩
    · next hnul =>
      refine .loaded _ (Environment.agrees_put hcur ?_) fun hwrong => hnul hwrong.2
      rw [hnone] at hsome
      simpa using hsome.symm
  · have hset : (cur.text? a.name).isSome := by
      rw [Option.isSome_iff_ne_none, ne_eq, ← Option.isNone_iff_eq_none]
      exact hmissing
    rw [Environment.setMissing_of_isSome hset]
    refine .loaded cur (Environment.agrees_over_of_isSome hcur (hsome ▸ hset)) fun hwrong => ?_
    rw [hwrong.1] at hset
    cases hset

/-- **Assignments are put under the environment**, or one of them crashes. -/
theorem takeOver_cases {base cur : Environment} (hbase : base.Textual) (hcur : cur.Agrees base)
    (as : List Assignment) : Loads (base.over as) (GivesNul base as) (takeOver cur as) := by
  induction as generalizing base cur with
  | nil => exact .loaded cur (by rwa [Environment.over_nil]) (not_givesNul_nil base)
  | cons a as ih =>
    rw [takeOver_cons, ← List.singleton_append, givesNul_append hbase, Environment.over_append]
    generalize hset : cur.setMissing a.name a.value = set
    cases hset ▸ setMissing_cases hbase hcur a with
    | crashed crash hwrong => exact .crashed crash (.inl hwrong)
    | loaded next hnext hright =>
      show Loads _ _ (takeOver next as)
      rw [or_iff_right hright]
      exact ih (hbase.over [a]) hnext

/-- The assignments of some lines, up to the first one that does not parse. A variable in a value stands for its
text in the environment or, if it has none there, in the assignments in front. -/
def assignmentsOf (env : Environment) (front : List Assignment) : List Line → List Assignment
  | .text line :: rest =>
    match readLine (env.over front) line with
    | some as => as ++ assignmentsOf env (front ++ as) rest
    | none => []
  | _ => []

/-- Nothing counts from the first line on that does not parse. -/
theorem assignmentsOf_behind (env : Environment) (front : List Assignment) {line : Line}
    (h : parses line = false) (before after : List Line) :
    assignmentsOf env front (before ++ line :: after) = assignmentsOf env front before := by
  induction before generalizing front with
  | nil =>
    cases line with
    | broken => rfl
    | torn => rfl
    | text line =>
      rw [← isSome_readLine (env.over front), Option.isSome_eq_false_iff, Option.isNone_iff_eq_none] at h
      rw [List.nil_append, assignmentsOf, h]
      rfl
  | cons first before ih =>
    cases first with
    | broken => rfl
    | torn => rfl
    | text first =>
      rw [List.cons_append, assignmentsOf, assignmentsOf]
      cases readLine (env.over front) first with
      | none => rfl
      | some as => exact congrArg (as ++ ·) (ih (front ++ as))

/-- **Loading lines makes the environment that lies over their assignments**, unless one of these crashes or
the first line that is none is torn. -/
theorem loadLines_cases {env cur : Environment} {front : List Assignment} (henv : env.Textual)
    (hcur : cur.Agrees (env.over front)) (lines : List Line) :
    let assignments := assignmentsOf env front lines
    Loads (env.over (front ++ assignments))
      (comesToTorn lines ∨ GivesNul (env.over front) assignments) (loadLines cur lines) := by
  induction lines generalizing cur front with
  | nil =>
    refine .loaded cur (by simpa only [assignmentsOf, List.append_nil] using hcur) ?_
    exact not_or.2 ⟨Bool.false_ne_true, not_givesNul_nil _⟩
  | cons line rest ih =>
    cases line with
    | broken =>
      refine .loaded cur (by simpa only [assignmentsOf, List.append_nil] using hcur) ?_
      exact not_or.2 ⟨Bool.false_ne_true, not_givesNul_nil _⟩
    | torn => exact .crashed _ (.inl rfl)
    | text line =>
      have hparses := isSome_readLine (env.over front) line
      rw [loadLines, assignmentsOf, hcur.readLine line, comesToTorn, ← hparses]
      cases readLine (env.over front) line with
      | none =>
        refine .loaded cur (by simpa only [List.append_nil] using hcur) ?_
        exact not_or.2 ⟨Bool.false_ne_true, not_givesNul_nil _⟩
      | some as =>
        dsimp only [Option.isSome_some, Bool.true_and]
        rw [givesNul_append (henv.over front), ← Environment.over_append, ← List.append_assoc]
        generalize htaken : takeOver cur as = taken
        cases htaken ▸ takeOver_cases (henv.over front) hcur as with
        | crashed crash hwrong => exact .crashed crash (.inr (.inl hwrong))
        | loaded next hnext hright =>
          rw [← Environment.over_append] at hnext
          rw [or_iff_right hright]
          exact ih hnext

/-! ## Loading again -/

theorem takeOver_settled {env : Environment} {as : List Assignment}
    (h : ∀ a ∈ as, (env.text? a.name).isSome) : takeOver env as = .ok env := by
  induction as with
  | nil => rfl
  | cons a as ih =>
    rw [takeOver_cons, Environment.setMissing_of_isSome (h a List.mem_cons_self)]
    exact ih fun b hb => h b (List.mem_cons_of_mem _ hb)

theorem isSome_text?_setMissing {env env' : Environment} {name value : List Char}
    (h : env.setMissing name value = .ok env') : (env'.text? name).isSome := by
  unfold Environment.setMissing at h
  split at h
  · obtain ⟨-, rfl⟩ := Environment.set_eq_ok_iff.1 h
    rw [Environment.text?_put_self]
    rfl
  · next hset =>
    cases h
    simpa [Option.isSome_iff_ne_none] using hset

theorem isSome_text?_takeOver {env env' : Environment} {as : List Assignment} {a : Assignment}
    (ha : a ∈ as) (h : takeOver env as = .ok env') : (env'.text? a.name).isSome := by
  induction as generalizing env with
  | nil => cases ha
  | cons b as ih =>
    rw [takeOver_cons] at h
    obtain ⟨next, hset, hrest⟩ := exists_of_bind_ok h
    cases ha with
    | head =>
      obtain ⟨value, hvalue⟩ := Option.isSome_iff_exists.1 (isSome_text?_setMissing hset)
      exact Option.isSome_of_eq_some (takeOver_kept hvalue hrest)
    | tail _ ha => exact ih ha hrest

/-- **Lines change nothing in an environment in which all variables have texts that they give texts to.** -/
theorem loadLines_settled {env env' settled : Environment} {lines : List Line}
    (hload : loadLines env lines = .ok env')
    (h : ∀ name, (env'.text? name).isSome → (settled.text? name).isSome) :
    loadLines settled lines = .ok settled := by
  induction lines generalizing env with
  | nil => rfl
  | cons line rest ih =>
    cases line with
    | broken => rfl
    | torn => cases hload
    | text line =>
      -- the line makes assignments for the same variables in both environments
      obtain ⟨ds, hds⟩ := exists_drafts line
      rw [loadLines, hds] at hload ⊢
      cases ds with
      | none => rfl
      | some ds =>
        simp only [Option.map_some] at hload ⊢
        obtain ⟨next, htaken, hrest⟩ := exists_of_bind_ok hload
        have hnames : ∀ a ∈ ds.map (Draft.assignment settled), (settled.text? a.name).isSome := by
          intro a ha
          obtain ⟨d, hd, rfl⟩ := List.mem_map.1 ha
          have hmem : d.assignment env ∈ ds.map (Draft.assignment env) := List.mem_map_of_mem hd
          obtain ⟨value, hvalue⟩ := Option.isSome_iff_exists.1 (isSome_text?_takeOver hmem htaken)
          exact h d.name (Option.isSome_of_eq_some (loadLines_kept hvalue hrest))
        rw [takeOver_settled hnames]
        exact ih hrest

/-! ## Settings -/

/-- The lines of the file that a run in a directory loads, if there is one. -/
def linesFor (files : Access Id) (directory : Option (List UInt8)) : List Line :=
  ((assignmentBytes files directory).map linesOf).getD []

theorem settingsIn_eq_loadLines (files : Access Id) (directory : Option (List UInt8))
    (env : Environment) : settingsIn files directory env = loadLines env (linesFor files directory) := by
  rw [settingsIn_eq, linesFor]
  cases assignmentBytes files directory <;> rfl

/-- **The settings of a run are a merge.** The assignments of the file `.env`, in front of its first line that
does not parse, are put under the environment: each variable has its value in the environment, which may be
empty, or else that of its first assignment, or else none. Loading crashes just when the merge gives a variable
a value of the file with the character U+0000, or when the line that does not parse is torn. If it does not, the
options are those of the merge, no variable of the environment is changed, and loading the file once more
changes nothing. -/
theorem settings_layered (files : Access Id) (directory : Option (List UInt8)) (env : Environment)
    (henv : env.Textual) :
    let lines := linesFor files directory
    let assignments := assignmentsOf env [] lines
    let merged := env.over assignments
    (∀ before line after, lines = before ++ line :: after → parses line = false →
        assignments = assignmentsOf env [] before)
    ∧ (∀ name, merged.text? name = (env.text? name).or (firstValue assignments name))
    ∧ ((∃ crash, settingsIn files directory env = .error crash)
        ↔ comesToTorn lines ∨ GivesNul env assignments)
    ∧ ∀ settings, settingsIn files directory env = .ok settings →
      optionsIn files directory env = .ok (Options.ofEnvironment merged)
      ∧ (∀ name, settings.bytes? name = merged.bytes? name)
      ∧ (∀ name value, env.bytes? name = some value → settings.bytes? name = some value)
      ∧ settingsIn files directory settings = .ok settings := by
  intro lines assignments merged
  have hstart : env.Agrees (env.over []) := fun name => by rw [Environment.over_nil]
  have hcases : Loads merged (comesToTorn lines ∨ GivesNul env assignments) (loadLines env lines) := by
    simpa only [Environment.over_nil, List.nil_append] using loadLines_cases henv hstart lines
  refine ⟨?_, fun name => henv.text?_over assignments name, ?_, ?_⟩
  · intro before line after hlines hline
    exact (congrArg (assignmentsOf env []) hlines).trans (assignmentsOf_behind env [] hline before after)
  · rw [settingsIn_eq_loadLines]
    generalize loadLines env lines = result at hcases
    cases hcases with
    | crashed crash hwrong => exact iff_of_true ⟨crash, rfl⟩ hwrong
    | loaded cur hagrees hright =>
      refine iff_of_false ?_ hright
      rintro ⟨crash, hcrash⟩
      cases hcrash
  · intro settings hsettings
    have hload : loadLines env lines = .ok settings :=
      (settingsIn_eq_loadLines files directory env).symm.trans hsettings
    rw [hload] at hcases
    cases hcases with
    | loaded _ hagrees _ =>
      refine ⟨?_, hagrees, fun name value hvalue => ?_, ?_⟩
      · rw [optionsIn, hsettings, ← hagrees.ofEnvironment]
        rfl
      · rw [hagrees name, Environment.bytes?_over, hvalue]
        rfl
      · rw [settingsIn_eq_loadLines]
        exact loadLines_settled hload fun _ => id

/-- The files of a directory with a file `.env`. -/
def withAssignments (assignments : String) : Access Id :=
  Tree.access ⟨[([[119]], .directory),
    ([[119], fileName], .file (Utf8.encode assignments.toList))]⟩ [[119]]

/-- An empty `NO_COLOR` of the environment wins over the file, the first format wins over the second one and
may refer to a variable, and behind the fourth line, which is no assignment, nothing counts. -/
theorem settings_layered_first_format :
    let files := withAssignments
      "NO_COLOR=1\nECMAV_FORMAT=$\x7bKIND\x7don\nECMAV_FORMAT=xml\n=\nECMAV_VERBOSE=1\n"
    let env := Environment.empty.over [⟨Options.colorVariable, []⟩, ⟨"KIND".toList, "js".toList⟩]
    env.Textual ∧ ∃ settings, settingsIn files (some [slash, 119]) env = .ok settings
      ∧ optionsIn files (some [slash, 119]) env = .ok (.ok { format := .json })
      ∧ settingsIn files (some [slash, 119]) settings = .ok settings := by
  intro files env
  have henv : env.Textual := Environment.textual_empty.over _
  have hloads : (settingsIn files (some [slash, 119]) env).isOk = true := by decide +kernel
  cases hsettings : settingsIn files (some [slash, 119]) env with
  | error crash =>
    rw [hsettings] at hloads
    cases hloads
  | ok settings =>
    obtain ⟨-, -, -, hlayered⟩ := settings_layered files (some [slash, 119]) env henv
    obtain ⟨hoptions, -, -, hagain⟩ := hlayered settings hsettings
    let merged := env.over (assignmentsOf env [] (linesFor files (some [slash, 119])))
    have hformat : merged.text? Options.formatVariable = some "json".toList := by decide +kernel
    have hmerged : Options.ofEnvironment merged = .ok { format := .json } := by
      refine ofEnvironment_eq_ok_iff.2 ⟨formatOf_eq_json_iff.2 ⟨_, hformat, ?_⟩, ?_, ?_⟩
      · decide
      · decide +kernel
      · decide +kernel
    exact ⟨henv, settings, rfl, hmerged ▸ hoptions, hagain⟩

/-- A value with the character U+0000 leaves a run without options, and so does a comment behind a value of
two lines whose offset in the second line lies inside a character of the first one. -/
theorem settings_crash :
    ¬ (∀ (files : Access Id) (directory : Option (List UInt8)) (env : Environment), env.Textual →
        ∃ options, optionsIn files directory env = .ok options)
      ∧ (settingsIn (withAssignments "A=\x22é\nxy\x22 #c") (some [slash, 119]) .empty).isOk = false := by
  refine ⟨fun hall => ?_, by decide +kernel⟩
  obtain ⟨options, hoptions⟩ :=
    hall (withAssignments "A=\x00") (some [slash, 119]) .empty Environment.textual_empty
  have hcrash : (optionsIn (withAssignments "A=\x00") (some [slash, 119]) .empty).isOk = false := by
    decide +kernel
  rw [hoptions] at hcrash
  cases hcrash

end EditionCheck.Settings
