import EditionCheck.Proofs.NoEscape

/-!
# What reading a command line keeps

Arguments are read from left to right. Nothing that is read behind the option `--no-color` takes it back,
and what is kept of the arguments are parts of them.

* `Seen.Leads` — what one argument keeps of those in front of it;
* `readCheck_leads`, `readFront_leads` — what a run over the arguments keeps, by induction on them;
* `check_of_arguments` — what this means for a command that is accepted.
-/

set_option autoImplicit false

namespace EditionCheck.CommandLine

open EditionCheck.Settings

/-! ## Results of readers -/

section

variable {α β : Type} {P Q : α → Prop} {R : β → Prop}

/-- What a reader accepts has a property, and where it stops, it does not ask for a check. -/
def Accepts (x : Except Stop α) (P : α → Prop) : Prop :=
  match x with
  | .ok a => P a
  | .error stop => ∀ i, stop ≠ .asked (.check i)

theorem Accepts.of_ok {x : Except Stop α} {a : α} (h : Accepts x P) (hx : x = .ok a) : P a := by
  subst hx
  exact h

theorem Accepts.mono {x : Except Stop α} (h : Accepts x P) (hPQ : ∀ a, P a → Q a) : Accepts x Q := by
  cases x with
  | error e => exact h
  | ok a => exact hPQ a h

theorem Accepts.bind {x : Except Stop α} {f : α → Except Stop β} (hx : Accepts x P)
    (hf : ∀ a, P a → Accepts (f a) R) : Accepts (x >>= f) R := by
  cases x with
  | error e => exact hx
  | ok a => exact hf a hx

theorem Accepts.map {x : Except Stop α} {f : α → β} (hx : Accepts x fun a => R (f a)) :
    Accepts (x.map f) R := by
  cases x with
  | error e => exact hx
  | ok a => exact hx

theorem accepts_ok {a : α} (h : P a) : Accepts (.ok a) P := h

theorem accepts_wrong (e : UsageError) : Accepts (.error (.wrong e)) P := nofun

end

/-! ## One level -/

/-- The texts that have been read on a level hold no escape character. -/
structure Seen.Shown (s : Seen) : Prop where
  level : ∀ level, s.logLevel = some level → NoEscape level.toList
  waiting : ∀ value, s.waiting = .withValue value → NoEscape value.toList
  values : ∀ value ∈ s.values, NoEscape value.toList

/-- What is read further on a level does not take back the option `--no-color`, and holds no escape
character. -/
structure Seen.Leads (s t : Seen) : Prop where
  noColor : s.noColor = true → t.noColor = true
  shown : s.Shown → t.Shown

namespace Seen

variable {s t u : Seen}

theorem Leads.refl (s : Seen) : s.Leads s := ⟨id, id⟩

theorem Leads.trans (h : s.Leads t) (h' : t.Leads u) : s.Leads u :=
  ⟨fun hs => h'.noColor (h.noColor hs), fun hs => h'.shown (h.shown hs)⟩

theorem takeLevel_leads {value : String} (hvalue : s.Shown → NoEscape value.toList) :
    Accepts (s.takeLevel value) s.Leads := by
  unfold takeLevel
  split
  · exact accepts_wrong _
  · refine accepts_ok ⟨id, fun hs => ⟨fun level hlevel => ?_, nofun, hs.values⟩⟩
    rw [← Option.some.inj hlevel]
    exact hvalue hs

theorem settle_leads (s : Seen) : Accepts s.settle s.Leads := by
  unfold settle
  split
  · exact accepts_ok (Leads.refl s)
  · exact accepts_wrong _
  · next value hwaiting => exact takeLevel_leads fun hs => hs.waiting value hwaiting

theorem switchOn_leads {switch : Switch} {already : Bool} {on : Seen} {P : Seen → Prop} (h : P on) :
    Accepts (switchOn switch already on) P := by
  unfold switchOn
  split
  · exact accepts_wrong _
  · exact accepts_ok h

/-- One option without a value; `--no-color` is one. -/
theorem takeSwitch_leads (inCheck : Bool) (s : Seen) (switch : Switch) :
    Accepts (s.takeSwitch inCheck switch) fun t =>
      s.Leads t ∧ (switch = .noColor → t.noColor = true) := by
  unfold takeSwitch
  refine (settle_leads s).bind fun r hr => ?_
  have hkept {t : Seen} (h : r.Leads t) (hswitch : switch ≠ .noColor) :
      s.Leads t ∧ (switch = .noColor → t.noColor = true) :=
    ⟨hr.trans h, fun hon => absurd hon hswitch⟩
  cases switch with
  | logLevel => exact accepts_ok (hkept ⟨id, fun h => ⟨h.level, nofun, h.values⟩⟩ (by simp))
  | noColor =>
    have hon : r.Leads { r with noColor := true } :=
      ⟨fun _ => rfl, fun h => ⟨h.level, h.waiting, h.values⟩⟩
    exact switchOn_leads ⟨hr.trans hon, fun _ => rfl⟩
  | verbose => exact switchOn_leads (hkept ⟨id, fun h => ⟨h.level, h.waiting, h.values⟩⟩ (by simp))
  | json => exact switchOn_leads (hkept ⟨id, fun h => ⟨h.level, h.waiting, h.values⟩⟩ (by simp))
  | help => exact nofun
  | version => exact nofun

/-- One option by its long name. -/
theorem takeLong_leads (inCheck : Bool) (s : Seen) (name : String) {value : Option String}
    (hvalue : ∀ v, value = some v → NoEscape v.toList) :
    Accepts (s.takeLong inCheck name value) fun t =>
      s.Leads t ∧ (name = "no-color" → t.noColor = true) := by
  have hname (switch : Switch) (h : Switch.ofLong? inCheck name = some switch)
      (hno : name = "no-color") : switch = .noColor := by
    subst hno
    simpa [Switch.ofLong?, eq_comm] using h
  unfold takeLong
  split
  · exact accepts_wrong _
  · next v hlong =>
    refine (settle_leads s).bind fun r hr => (takeLevel_leads fun _ => hvalue v rfl).mono fun t ht => ?_
    exact ⟨hr.trans ht, fun hno => absurd (hname _ hlong hno) (by simp)⟩
  · exact accepts_wrong _
  · next switch hlong =>
    refine (takeSwitch_leads inCheck s switch).mono fun t ht => ?_
    exact ⟨ht.1, fun hno => ht.2 (hname _ hlong hno)⟩

theorem takeLetters_leads (inCheck : Bool) (s : Seen) (cs : List Char) :
    Accepts (s.takeLetters inCheck cs) s.Leads := by
  induction cs generalizing s with
  | nil => exact accepts_ok (Leads.refl s)
  | cons c cs ih =>
    unfold takeLetters
    split
    · exact accepts_wrong _
    · exact (takeSwitch_leads inCheck s _).bind fun r hr => (ih r).mono fun t ht => hr.1.trans ht

end Seen

/-! ## Arguments -/

/-- The option `--no-color` stands among some arguments. What stands behind `--` is no option. -/
def NoColorGiven (arguments : List String) : Prop := "--no-color" ∈ arguments.takeWhile (· ≠ "--")

instance (arguments : List String) : Decidable (NoColorGiven arguments) :=
  inferInstanceAs (Decidable (_ ∈ _))

theorem NoColorGiven.cons {a : String} {rest : List String} (h : NoColorGiven (a :: rest)) :
    a ≠ "--" ∧ (a = "--no-color" ∨ NoColorGiven rest) := by
  by_cases ha : a = "--"
  · simp [NoColorGiven, ha] at h
  · refine ⟨ha, ?_⟩
    simpa [NoColorGiven, ha, eq_comm] using h

theorem eq_of_shapeOf_dashes {a : String} (h : shapeOf a = .dashes) : a = "--" := by
  unfold shapeOf at h
  split at h
  · next hlist => exact String.toList_inj.1 hlist
  all_goals cases h

/-- The value that is attached to an option is a part of the argument. -/
theorem noEscape_of_shapeOf_long {a name : String} {value : Option String}
    (h : shapeOf a = .long name value) (ha : NoEscape a.toList) :
    ∀ v, value = some v → NoEscape v.toList := by
  rintro v rfl
  unfold shapeOf at h
  split at h
  · cases h
  · next rest _ hlist =>
    simp only [Shape.long.injEq] at h
    obtain ⟨-, hvalue⟩ := h
    split at hvalue
    · next c cs hrest =>
      cases hvalue
      have hsubset : cs ⊆ a.toList := by
        intro d hd
        have hdrop : d ∈ rest.drop (rest.takeWhile (· != '=')).length := by
          rw [hrest]
          exact List.mem_cons_of_mem c hd
        rw [hlist]
        simp [List.mem_of_mem_drop hdrop]
      rw [String.toList_ofList]
      exact ha.mono hsubset
    · cases hvalue
  · cases h
  · cases h

section

variable {s t : Seen} {a : String} {rest : List String}

/-- A value that is taken. -/
theorem takeValue_leads (s : Seen) (ha : NoEscape a.toList) :
    Accepts (s.settle.map fun s => { s with values := s.values ++ [a] }) s.Leads := by
  refine (s.settle_leads.mono fun r hr => ?_).map
  refine hr.trans ⟨id, fun h => ⟨h.level, h.waiting, ?_⟩⟩
  exact List.forall_mem_append.2 ⟨h.values, List.forall_mem_singleton.2 ha⟩

/-- The value that waits for the log level. -/
theorem wait_leads (s : Seen) (ha : NoEscape a.toList) : s.Leads { s with waiting := .withValue a } := by
  refine ⟨id, fun h => ⟨h.level, fun value hvalue => ?_, h.values⟩⟩
  cases hvalue
  exact ha

/-- The option `--no-color` is no value, no group of letters and no `--`. -/
theorem shapeOf_noColor : shapeOf "--no-color" = .long "no-color" none := by decide

/-- An argument of another shape leaves the option to those behind it. -/
theorem NoColorGiven.of_shapeOf (h : NoColorGiven (a :: rest))
    (ha : ∀ name value, shapeOf a ≠ .long name value) : NoColorGiven rest := by
  rcases h.cons.2 with rfl | h
  · exact absurd shapeOf_noColor (ha _ _)
  · exact h

/-- What is read behind the command. -/
theorem readCheck_leads {arguments : List String} (harguments : ∀ a ∈ arguments, NoEscape a.toList)
    (onlyValues : Bool) (s : Seen) :
    Accepts (readCheck onlyValues s arguments) fun t =>
      s.Leads t ∧ (onlyValues = false → NoColorGiven arguments → t.noColor = true) := by
  induction arguments generalizing onlyValues s with
  | nil => exact s.settle_leads.mono fun t ht => ⟨ht, fun _ hno => absurd hno List.not_mem_nil⟩
  | cons a rest ih =>
    obtain ⟨ha, hrest⟩ := List.forall_mem_cons.1 harguments
    unfold readCheck
    extract_lets takeValue
    split
    · next honly =>
      subst honly
      exact (takeValue_leads s ha).bind fun r hr => (ih hrest true r).mono fun t ht =>
        ⟨hr.trans ht.1, nofun⟩
    split
    · next hdashes =>
      refine (ih hrest true s).mono fun t ht => ⟨ht.1, fun _ hno => ?_⟩
      exact absurd (eq_of_shapeOf_dashes hdashes) hno.cons.1
    · next name value hlong =>
      refine (Seen.takeLong_leads true s name (noEscape_of_shapeOf_long hlong ha)).bind fun r hr =>
        (ih hrest false r).mono fun t ht => ⟨hr.1.trans ht.1, fun _ hno => ?_⟩
      rcases hno.cons.2 with rfl | hno
      · rw [shapeOf_noColor] at hlong
        cases hlong
        exact ht.1.noColor (hr.2 rfl)
      · exact ht.2 rfl hno
    · next cs hletters =>
      refine (Seen.takeLetters_leads true s cs).bind fun r hr =>
        (ih hrest false r).mono fun t ht => ⟨hr.trans ht.1, fun _ hno => ?_⟩
      exact ht.2 rfl (hno.of_shapeOf (by simp [hletters]))
    · next hplain =>
      have hlater : NoColorGiven (a :: rest) → NoColorGiven rest :=
        fun hno => hno.of_shapeOf (by simp [hplain])
      split
      · exact (ih hrest false _).mono fun t ht =>
          ⟨(wait_leads s ha).trans ht.1, fun _ hno => ht.2 rfl (hlater hno)⟩
      · exact (takeValue_leads s ha).bind fun r hr => (ih hrest false r).mono fun t ht =>
          ⟨hr.trans ht.1, fun _ hno => ht.2 rfl (hlater hno)⟩

/-- What is read in front of the command. The option stands there or behind it. -/
theorem readFront_leads {arguments : List String} (harguments : ∀ a ∈ arguments, NoEscape a.toList)
    (onlyValues : Bool) (s : Seen) :
    Accepts (readFront onlyValues s arguments) fun r =>
      s.Leads r.1
        ∧ (∀ rest, r.2 = .check rest → ∀ a ∈ rest, NoEscape a.toList)
        ∧ (onlyValues = false → NoColorGiven arguments →
            r.1.noColor = true ∨ ∃ rest, r.2 = .check rest ∧ NoColorGiven rest) := by
  induction arguments generalizing onlyValues s with
  | nil => exact accepts_ok ⟨.refl s, nofun, fun _ hno => absurd hno List.not_mem_nil⟩
  | cons a rest ih =>
    obtain ⟨ha, hrest⟩ := List.forall_mem_cons.1 harguments
    unfold readFront
    extract_lets isCommand
    split
    · exact accepts_wrong _
    split
    · next hcommand =>
      split
      · split
        · exact nofun
        · exact accepts_wrong _
      · next hhelp =>
        have hlater : NoColorGiven (a :: rest) → NoColorGiven rest := by
          intro hno
          rcases hno.cons.2 with rfl | hno
          · simp [isCommand, isCheckName] at hcommand
          · exact hno
        refine accepts_ok ⟨.refl s, fun behind hbehind => ?_, fun _ hno => .inr ⟨rest, rfl, hlater hno⟩⟩
        cases hbehind
        exact hrest
    split
    · next hdashes =>
      refine (ih hrest true s).mono fun r hr => ⟨hr.1, hr.2.1, fun _ hno => ?_⟩
      exact absurd (eq_of_shapeOf_dashes hdashes) hno.cons.1
    · next name value hlong =>
      refine (Seen.takeLong_leads false s name (noEscape_of_shapeOf_long hlong ha)).bind fun q hq =>
        (ih hrest false q).mono fun r hr => ⟨hq.1.trans hr.1, hr.2.1, fun _ hno => ?_⟩
      rcases hno.cons.2 with rfl | hno
      · rw [shapeOf_noColor] at hlong
        cases hlong
        exact .inl (hr.1.noColor (hq.2 rfl))
      · exact hr.2.2 rfl hno
    · next cs hletters =>
      refine (Seen.takeLetters_leads false s cs).bind fun q hq =>
        (ih hrest false q).mono fun r hr => ⟨hq.trans hr.1, hr.2.1, fun _ hno => ?_⟩
      exact hr.2.2 rfl (hno.of_shapeOf (by simp [hletters]))
    · next hplain =>
      split
      · refine (ih hrest false _).mono fun r hr =>
          ⟨(wait_leads s ha).trans hr.1, hr.2.1, fun _ hno => ?_⟩
        exact hr.2.2 rfl (hno.of_shapeOf (by simp [hplain]))
      · exact accepts_wrong _

end

/-! ## Commands -/

/-- The log level and the patterns of a command hold no escape character. -/
structure Invocation.Shown (i : Invocation) : Prop where
  level : ∀ level, i.logLevel = some level → NoEscape level.toList
  patterns : ∀ p ∈ i.patterns, NoEscape p.toList

theorem shown_empty : Seen.Shown {} := ⟨nofun, nofun, nofun⟩

/-- The log level of the environment. -/
theorem levelFrom_shown {env : Environment}
    (henv : ∀ name value, env.text? name = some value → NoEscape value) (s : Seen) :
    Accepts (levelFrom env s) fun level => ∀ text, level = some text → NoEscape text.toList := by
  unfold levelFrom
  split
  · exact accepts_ok nofun
  split
  · exact accepts_ok nofun
  split
  · next value hvalue =>
    refine accepts_ok fun text htext => ?_
    cases htext
    simpa using henv _ value hvalue
  · exact accepts_wrong _

section

variable {env : Environment} {arguments : List String}
  (henv : ∀ name value, env.text? name = some value → NoEscape value)
  (harguments : ∀ a ∈ arguments, NoEscape a.toList)
include henv harguments

theorem readCommand_shown :
    Accepts (readCommand env arguments) fun c =>
      ∀ i, c = .check i → i.Shown ∧ (NoColorGiven arguments → i.noColor = true) := by
  unfold readCommand
  refine (readFront_leads harguments false {}).bind fun front hfront => ?_
  obtain ⟨front, tail⟩ := front
  obtain ⟨hleads, hbehind, hgiven⟩ := hfront
  dsimp only
  split
  · refine front.settle_leads.bind fun front _ => (levelFrom_shown henv front).bind fun level _ => ?_
    split <;> exact accepts_wrong _
  · next rest =>
    refine (readCheck_leads (hbehind rest rfl) false {}).bind fun inner hinner => ?_
    refine (levelFrom_shown henv inner).bind fun innerLevel hinnerLevel => ?_
    split
    · exact accepts_wrong _
    · next token patterns hvalues =>
      refine front.settle_leads.bind fun settled hsettled => ?_
      refine (levelFrom_shown henv settled).bind fun frontLevel hfrontLevel => ?_
      refine accepts_ok fun i hi => ?_
      cases hi
      have hfrontShown := hsettled.shown (hleads.shown shown_empty)
      have hinnerShown := hinner.1.shown shown_empty
      refine ⟨⟨fun level hlevel => ?_, fun p hp => ?_⟩, fun hno => ?_⟩
      · -- the level comes from one of four places
        have hfrom : inner.logLevel = some level ∨ settled.logLevel = some level
            ∨ innerLevel = some level ∨ frontLevel = some level := by
          cases hi : inner.logLevel <;> cases hf : settled.logLevel <;> cases innerLevel <;>
            simp_all
        rcases hfrom with h | h | h | h
        · exact hinnerShown.level level h
        · exact hfrontShown.level level h
        · exact hinnerLevel level h
        · exact hfrontLevel level h
      · refine hinnerShown.values p ?_
        rw [hvalues]
        exact List.mem_cons_of_mem token hp
      · rcases hgiven rfl hno with hfront | ⟨_, hrest, hno⟩
        · simp [hsettled.noColor hfront]
        · cases hrest
          simp [hinner.2 rfl hno]

/-- **A check that is accepted** has no escape character in its log level and its patterns, and is without
colour if the option for that is given. -/
theorem check_of_arguments {i : Invocation} (h : Command.ofArguments env arguments = .ok (.check i)) :
    i.Shown ∧ (NoColorGiven arguments → i.noColor = true) := by
  have hread := readCommand_shown henv harguments
  unfold Command.ofArguments at h
  split at h
  · next command hcommand =>
    cases h
    exact hread.of_ok hcommand i rfl
  · next command hcommand =>
    cases h
    rw [hcommand] at hread
    exact absurd rfl (hread i)
  · cases h

end

end EditionCheck.CommandLine
