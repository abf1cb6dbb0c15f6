import EditionCheck.CommandLine.Program

/-!
# Texts without escape characters

Terminals are sent colours by sequences that start with the character U+001B. Where colour is off, no
text of the program holds this character unless a text that is shown as it is does.

* `noEscape_quote`, `noEscape_jsonString` — quoted texts never do;
* `noEscape_lossy` — bytes do not, unless they have the byte of the character;
* `noEscape_event` — the line of an event does not, unless a path does;
* `noEscape_printed` — nor does what a notice prints without colour;
* `noEscape_obstacle` — nor does the wording of an error, unless its path or cause does.
-/

set_option autoImplicit false

namespace EditionCheck

open EditionCheck.Files EditionCheck.Glob EditionCheck.Log EditionCheck.Settings EditionCheck.Text

/-- A text holds no escape character. -/
def NoEscape (cs : List Char) : Prop := '\x1b' ∉ cs

instance (cs : List Char) : Decidable (NoEscape cs) := inferInstanceAs (Decidable (_ ∉ cs))

section

variable {c : Char} {a b cs : List Char}

@[simp] theorem noEscape_nil : NoEscape [] := List.not_mem_nil

@[simp] theorem noEscape_cons : NoEscape (c :: cs) ↔ c ≠ '\x1b' ∧ NoEscape cs := by
  simp [NoEscape, eq_comm]

@[simp] theorem noEscape_append : NoEscape (a ++ b) ↔ NoEscape a ∧ NoEscape b := by
  simp [NoEscape]

@[simp] theorem noEscape_flatMap {α : Type} {xs : List α} {f : α → List Char} :
    NoEscape (xs.flatMap f) ↔ ∀ x ∈ xs, NoEscape (f x) := by
  simp [NoEscape]

theorem NoEscape.mono (h : NoEscape b) (hab : a ⊆ b) : NoEscape a := fun ha => h (hab ha)

end

/-! ## Bytes -/

/-- The byte of the escape character. -/
def escapeByte : UInt8 := '\x1b'.toUInt8

/-- Bytes without that of the escape character are shown without one. -/
theorem noEscape_lossy {bytes : List UInt8} (h : escapeByte ∉ bytes) : NoEscape (Utf8.lossy bytes) :=
  fun hmem => h (Utf8.toUInt8_mem_of_mem_lossy (by decide) hmem)

theorem escapeByte_mem_encode {cs : List Char} : escapeByte ∈ Utf8.encode cs ↔ '\x1b' ∈ cs :=
  Utf8.toUInt8_mem_encode (by decide)

/-! ## Numbers -/

theorem digitChar_ne_escape {n : Nat} (h : n < 16) : Nat.digitChar n ≠ '\x1b' := by
  have all : ∀ k : Fin 16, Nat.digitChar k ≠ '\x1b' := by decide
  exact all ⟨n, h⟩

theorem noEscape_toDigits {base : Nat} (hbase : 1 < base) (hmax : base ≤ 16) (n : Nat) :
    NoEscape (Nat.toDigits base n) := by
  induction n using Nat.strongRecOn with
  | _ n ih =>
    have hdigit : Nat.digitChar (n % base) ≠ '\x1b' := by
      have hlt := Nat.mod_lt n (by omega : 0 < base)
      exact digitChar_ne_escape (by omega)
    rw [Nat.toDigits_eq_if hbase]
    split
    · next hn =>
      rw [Nat.mod_eq_of_lt hn] at hdigit
      simp [hdigit]
    · next hn =>
      have hsmaller : n / base < n := Nat.div_lt_self (by omega) hbase
      simp [hdigit, ih _ hsmaller]

@[simp] theorem noEscape_decimal (n : Nat) : NoEscape (Nat.toDigits 10 n) :=
  noEscape_toDigits (by decide) (by decide) n

/-! ## Quoted texts -/

theorem noEscape_quoteChar (c : Char) : NoEscape (quoteChar c) := by
  have hhex : NoEscape (hexDigits c) := noEscape_toDigits (by decide) (by decide) _
  unfold quoteChar
  iterate 4
    split
    · decide
  split
  · next h =>
    simp only [Bool.or_eq_true, beq_iff_eq] at h
    rcases h with rfl | rfl <;> decide
  split
  · next h =>
    -- the escape character itself is not shown as it is
    have hne : c ≠ '\x1b' := by
      rintro rfl
      exact absurd h (by decide)
    simp [hne]
  · simp [hhex]

@[simp] theorem noEscape_quoteChars (cs : List Char) : NoEscape (quoteChars cs) := by
  simp [quoteChars, noEscape_quoteChar]

@[simp] theorem noEscape_quote (s : String) : NoEscape (quote s).toList := by
  simp [quote]

theorem noEscape_jsonChar (c : Char) : NoEscape (Report.jsonChar c) := by
  have hhex : ∀ k : Fin 16, Report.hexDigit k ≠ '\x1b' := by decide
  unfold Report.jsonChar
  split
  · next h =>
    simp only [Bool.or_eq_true, decide_eq_true_eq] at h
    rcases h with rfl | rfl <;> decide
  iterate 5
    split
    · decide
  split
  · next h =>
    have hhigh := hhex ⟨c.toNat / 16, by omega⟩
    have hlow := hhex ⟨c.toNat % 16, by omega⟩
    simp [hhigh, hlow]
  · next h =>
    have hne : c ≠ '\x1b' := by
      rintro rfl
      exact absurd h (by decide)
    simp [hne]

@[simp] theorem noEscape_jsonString (cs : List Char) : NoEscape (Report.jsonString cs) := by
  simp [Report.jsonString, noEscape_jsonChar]

@[simp] theorem noEscape_digit (grammar : Grammar) : NoEscape grammar.digit.toList := by
  cases grammar <;> decide

theorem noEscape_jsonPaths (first : Bool) (paths : List Path) :
    NoEscape (Report.jsonPaths first paths).text := by
  induction paths generalizing first with
  | nil => simp [Report.jsonPaths]
  | cons path paths ih =>
    have hcomma : NoEscape (if first then [] else [',']) := by cases first <;> decide
    cases h : path.text? <;> simp [Report.jsonPaths, Report.Written.behind, h, hcomma, ih]

theorem noEscape_json (r : Report) : NoEscape r.json.text := by
  simp [Report.json, Report.Written.behind, noEscape_jsonPaths]

/-! ## Errors -/

@[simp] theorem noEscape_patternError (e : PatternError) : NoEscape e.message.toList := by
  have hmistake : NoEscape e.mistake.message.toList := by
    unfold Mistake.message
    cases e.mistake <;> simp
  unfold PatternError.message
  simp [hmistake]

@[simp] theorem noEscape_directiveError (e : DirectiveError) : NoEscape e.message.toList := by
  unfold DirectiveError.message
  cases e <;> simp

@[simp] theorem noEscape_crash (crash : Crash) : NoEscape crash.message.toList := by
  unfold Crash.message
  cases crash <;> simp

@[simp] theorem noEscape_optionsError (e : OptionsError) : NoEscape e.message.toList := by
  unfold OptionsError.message
  simp

/-- The wording of a cause, unless the system words it. -/
theorem noEscape_fault {fault : Fault} (h : ∀ message, fault ≠ .other message) :
    NoEscape fault.message.toList := by
  cases fault with
  | other message => exact absurd rfl (h message)
  | _ => simp [Fault.message]

/-- The path and the cause of an error hold no escape character. -/
def Obstacle.Shown : Obstacle → Prop
  | .unreadable path fault => escapeByte ∉ path ∧ NoEscape fault.message.toList
  | .output fault => NoEscape fault.message.toList
  | .configuration _ => True

theorem noEscape_obstacle {e : Obstacle} (h : e.Shown) : NoEscape e.message.toList := by
  unfold Obstacle.message
  cases e with
  | unreadable path fault =>
    obtain ⟨hpath, hfault⟩ := h
    simp [noEscape_lossy hpath, hfault]
  | output fault =>
    have hfault : NoEscape fault.message.toList := h
    simp [hfault]
  | configuration error => simp

/-! ## The log -/

theorem noEscape_edition (e : Edition) : NoEscape e.name.toList := by
  cases e <;> decide

theorem noEscape_feature (f : Feature) : NoEscape f.name.toList ∧ NoEscape f.description.toList := by
  unfold Feature.name Feature.description
  cases f <;> simp

theorem noEscape_verdictText (verdict : Verdict) : NoEscape (verdictText verdict).toList := by
  unfold verdictText
  cases verdict with
  | pass => simp
  | malformed n => simp
  | feature newer =>
    have hedition : NoEscape (editionName newer.edition).toList := by cases newer.edition <;> decide
    simp [noEscape_feature, hedition]

/-- The path of an event, if it has one, holds no escape character. -/
def Log.Event.Shown : Event → Prop
  | .rejected path _ => escapeByte ∉ path
  | _ => True

/-- The line of an event. -/
theorem noEscape_event {e : Event} (h : e.Shown) : NoEscape e.text.toList := by
  have hlevel : NoEscape e.level.name.toList := by cases e.level <;> decide
  have hmessage : NoEscape e.message.toList := by cases e <;> simp [Event.message]
  have hvalues : ∀ v ∈ e.values, NoEscape v.1.toList ∧ NoEscape v.2.toList := by
    cases e with
    | rejected path verdict =>
      have hpath : NoEscape (Utf8.lossy path) := noEscape_lossy h
      simp [Event.values, noEscape_verdictText, hpath]
    | _ => simp [Event.values, noEscape_feature, noEscape_edition, Feature.label]
  simp only [Event.text, String.toList_append, String.toList_join, noEscape_append, noEscape_flatMap,
    List.forall_mem_map]
  refine ⟨⟨⟨hlevel, by decide⟩, hmessage⟩, fun v hv => ?_⟩
  simp [hvalues v hv]

/-! ## Reports -/

/-- The paths of a notice hold no escape character. -/
def Notice.Shown : Notice → Prop
  | .passed path _ => NoEscape path.shown
  | .failed path _ => NoEscape path.shown
  | .finished report => ∀ path ∈ report.failures, NoEscape path.shown

/-- In JSON format, no path puts an escape character into what is printed. -/
theorem noEscape_printed_json {style : Style} (h : style.options.format = .json) (n : Notice) :
    ∀ piece ∈ (style.printed n).pieces, NoEscape piece.2.toList := by
  cases n with
  | finished report => simp [Style.printed, h, Style.jsonSummary, noEscape_json]
  | _ => simp [Style.printed, h]

section

variable {style : Style} (hplain : (style.options.color && style.escapes) = false)
include hplain

theorem noEscape_heading (color : Color) : NoEscape (style.heading color).toList := by
  rw [Style.heading, hplain]
  simp [Color.paint]

theorem noEscape_textSummary {r : Report} (h : ∀ path ∈ r.failures, NoEscape path.shown) :
    ∀ piece ∈ style.textSummary r, NoEscape piece.2.toList := by
  unfold Style.textSummary
  split
  · unfold Style.successLine
    simp [noEscape_heading hplain]
  · unfold Style.summaryLine Style.summaryPathLine
    simpa [noEscape_heading hplain] using h

/-- Without colour, a notice prints no escape character. -/
theorem noEscape_printed {n : Notice} (h : n.Shown) :
    (∀ piece ∈ (style.printed n).pieces, NoEscape piece.2.toList)
      ∧ ∀ fault, (style.printed n).fault = some fault → NoEscape fault.message.toList := by
  cases hformat : style.options.format with
  | json =>
    refine ⟨noEscape_printed_json hformat n, fun fault hfault => ?_⟩
    cases n with
    | finished report =>
      simp only [Style.printed, hformat, Style.jsonSummary] at hfault
      split at hfault
      · cases hfault
      · cases hfault
        decide
    | _ => simp [Style.printed, hformat] at hfault
  | text =>
    unfold Style.printed
    rw [hformat]
    cases n with
    | finished report => exact ⟨noEscape_textSummary hplain h, by simp⟩
    | passed path grammar =>
      have hpath : NoEscape path.shown := h
      unfold Style.passedLine
      cases style.options.verbose <;> simp [noEscape_heading hplain, hpath]
    | failed path grammar =>
      have hpath : NoEscape path.shown := h
      unfold Style.failedLine
      simp [noEscape_heading hplain, hpath]

end

end EditionCheck
