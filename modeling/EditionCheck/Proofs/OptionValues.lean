import EditionCheck.Proofs.Agreement

/-!
# Options from any values

The values of an environment are bytes, which need not be a text. What options they ask for is said here
in terms of these bytes, for all values of all variables.

* `switchesOn_iff` — a value switches something on if it is one of four words, with white space around it;
* `ofName?_eq_some_iff` — a format has its names, whatever the case of their letters;
* `options_of_values` — the options of an environment without a file `.env`, by its bytes;
* `broken_values_unnoticed` — a value that is no text counts as missing, also where any value would do.
-/

set_option autoImplicit false

namespace EditionCheck.Settings

open EditionCheck.Files EditionCheck.Text

/-! ## Words -/

/-- A text is one of some words, whatever the case of its ASCII letters. -/
def IsOneOf (words : List String) (cs : List Char) : Prop := String.ofList (lowerCase cs) ∈ words

instance (words : List String) (cs : List Char) : Decidable (IsOneOf words cs) :=
  inferInstanceAs (Decidable (_ ∈ words))

/-- All characters of a text have the property `White_Space`. -/
def Blank (cs : List Char) : Prop := ∀ c ∈ cs, isWhiteSpace c = true

instance (cs : List Char) : Decidable (Blank cs) :=
  decidable_of_iff (cs.all isWhiteSpace = true) List.all_eq_true

theorem toNat_of_isWhiteSpace {c : Char} (h : isWhiteSpace c = true) :
    c.toNat ≤ 32 ∨ 133 ≤ c.toNat := by
  simp only [isWhiteSpace, Bool.or_eq_true, beq_iff_eq, Bool.and_eq_true, decide_eq_true_eq] at h
  rcases h with (((((((((h | h) | h) | h) | h) | h) | h) | h) | h) | h) | h
  · subst h; decide
  · have hle : c.toNat ≤ 13 := h.2
    omega
  · subst h; decide
  · subst h; decide
  · subst h; decide
  · have hle : 0x2000 ≤ c.toNat := h.1
    omega
  all_goals subst h; decide

/-- White space has no lower case. -/
theorem toLower_of_isWhiteSpace {c : Char} (h : isWhiteSpace c = true) : c.toLower = c := by
  have hrange := toNat_of_isWhiteSpace h
  unfold Char.toLower
  split
  · next hupper =>
    have hlow : 65 ≤ c.toNat := hupper.1
    have hhigh : c.toNat ≤ 90 := hupper.2
    omega
  · rfl

/-- A text has white space at its two ends, which may be empty, and what is trimmed off between them. -/
theorem exists_trim (cs : List Char) :
    ∃ front back, cs = front ++ trim cs ++ back ∧ Blank front ∧ Blank back := by
  have hblank (s : List Char) : Blank (s.takeWhile isWhiteSpace) :=
    List.all_eq_true.1 List.all_takeWhile
  have hsplit (s : List Char) : s.takeWhile isWhiteSpace ++ trimStart s = s :=
    List.takeWhile_append_dropWhile
  refine ⟨cs.takeWhile isWhiteSpace, ((trimStart cs).reverse.takeWhile isWhiteSpace).reverse, ?_,
    hblank cs, ?_⟩
  · have hend : trim cs ++ ((trimStart cs).reverse.takeWhile isWhiteSpace).reverse = trimStart cs := by
      rw [trim, trimEnd, ← List.reverse_append, hsplit, List.reverse_reverse]
    rw [List.append_assoc, hend, hsplit]
  · intro c hc
    exact hblank _ c (List.mem_reverse.1 hc)

theorem trimStart_append {front : List Char} (hfront : Blank front) (cs : List Char) :
    trimStart (front ++ cs) = trimStart cs :=
  List.dropWhile_append_of_pos hfront

theorem trimStart_word {word : List Char} (hword : ∀ c ∈ word, isWhiteSpace c = false)
    (hne : word ≠ []) (rest : List Char) : trimStart (word ++ rest) = word ++ rest := by
  cases word with
  | nil => exact absurd rfl hne
  | cons c word => simp [trimStart, hword c List.mem_cons_self]

/-- A word without white space is what is left of it between white space. -/
theorem trim_between {front word back : List Char} (hfront : Blank front) (hback : Blank back)
    (hword : ∀ c ∈ word, isWhiteSpace c = false) : trim (front ++ word ++ back) = word := by
  rw [List.append_assoc, trim, trimStart_append hfront]
  by_cases hne : word = []
  · have hnothing : trimStart (back ++ []) = trimStart [] := trimStart_append hback []
    rw [List.append_nil] at hnothing
    rw [hne, List.nil_append, hnothing]
    rfl
  · have hend : Blank back.reverse := fun c hc => hback c (List.mem_reverse.1 hc)
    have hreverse : trimStart (word.reverse ++ []) = word.reverse ++ [] :=
      trimStart_word (fun c hc => hword c (List.mem_reverse.1 hc)) (by simpa using hne) []
    rw [List.append_nil] at hreverse
    rw [trimStart_word hword hne, trimEnd, List.reverse_append, trimStart_append hend, hreverse,
      List.reverse_reverse]

/-- A word that reads as one of some words without white space has none. -/
theorem not_isWhiteSpace_of_isOneOf {words : List String} {word : List Char} (h : IsOneOf words word)
    (hwords : ∀ w ∈ words, ∀ c ∈ w.toList, isWhiteSpace c = false) :
    ∀ c ∈ word, isWhiteSpace c = false := by
  intro c hc
  cases hblank : isWhiteSpace c with
  | false => rfl
  | true =>
    have hmem : c ∈ (String.ofList (lowerCase word)).toList := by
      rw [String.toList_ofList, lowerCase, ← toLower_of_isWhiteSpace hblank]
      exact List.mem_map_of_mem hc
    exact absurd hblank (by simp [hwords _ h c hmem])

/-! ## Values -/

/-- The words that switch something on. -/
def switchWords : List String := ["1", "true", "yes", "on"]

/-- **A value switches something on just when it is one of the words, with white space around it.** -/
theorem switchesOn_iff {value : List Char} :
    switchesOn value = true ↔ ∃ front word back, value = front ++ word ++ back
      ∧ Blank front ∧ Blank back ∧ IsOneOf switchWords word := by
  have hplain : ∀ w ∈ switchWords, ∀ c ∈ w.toList, isWhiteSpace c = false := by
    simp [switchWords, isWhiteSpace]
  have htrim : switchesOn value = true ↔ IsOneOf switchWords (trim value) := by
    rw [switchesOn, List.contains_iff_mem]
    rfl
  rw [htrim]
  constructor
  · intro h
    obtain ⟨front, back, hvalue, hfront, hback⟩ := exists_trim value
    exact ⟨front, trim value, back, hvalue, hfront, hback, h⟩
  · rintro ⟨front, word, back, rfl, hfront, hback, hword⟩
    rwa [trim_between hfront hback (not_isWhiteSpace_of_isOneOf hword hplain)]

/-- The names of a format. -/
def Format.names : Format → List String
  | text => ["text", "human"]
  | json => ["json"]

/-- A format has its names, whatever the case of their letters. -/
theorem ofName?_eq_some_iff {value : List Char} {format : Format} :
    Format.ofName? value = some format ↔ IsOneOf format.names value := by
  unfold Format.ofName? IsOneOf
  generalize String.ofList (lowerCase value) = word
  dsimp only
  split
  · next h =>
    simp only [Bool.or_eq_true, beq_iff_eq] at h
    rcases h with rfl | rfl <;> cases format <;> decide
  · next h =>
    simp only [Bool.or_eq_true, beq_iff_eq, not_or] at h
    split
    · next hjson =>
      rw [beq_iff_eq] at hjson
      subst hjson
      cases format <;> decide
    · next hjson =>
      rw [beq_iff_eq] at hjson
      cases format <;> simp [Format.names, h, hjson]

/-! ## Options -/

/-- The text of a variable is the one whose bytes it has. -/
theorem Environment.text?_eq_some_iff {env : Environment} {name value : List Char} :
    env.text? name = some value ↔ env.bytes? name = some (Utf8.encode value) := by
  rw [text?, Option.bind_eq_some_iff]
  simp only [Utf8.decode?_eq_some_iff_encode, exists_eq_right]

/-- What the options of an environment are, by the texts of its variables. -/
theorem ofEnvironment_eq_ok_iff {env : Environment} {o : Options} :
    Options.ofEnvironment env = .ok o ↔ Options.formatOf env = .ok o.format
      ∧ o.verbose = (env.text? Options.verboseVariable).any switchesOn
      ∧ o.color = !(env.text? Options.colorVariable).any fun value => !value.isEmpty := by
  obtain ⟨verbose, format, color⟩ := o
  rw [Options.ofEnvironment]
  cases Options.formatOf env with
  | error e => simp [bind, Except.bind]
  | ok f =>
    simp only [bind, Except.bind, pure, Except.pure, Except.ok.injEq, Options.mk.injEq]
    grind

/-- An environment asks for JSON by a name of this format. -/
theorem formatOf_eq_json_iff {env : Environment} :
    Options.formatOf env = .ok .json ↔ ∃ value, env.text? Options.formatVariable = some value
      ∧ IsOneOf Format.json.names value := by
  rw [Options.formatOf]
  cases env.text? Options.formatVariable with
  | none => simp
  | some value =>
    simp only [Option.some.injEq, exists_eq_left', ← ofName?_eq_some_iff]
    cases Format.ofName? value <;> simp

theorem formatOf_eq_error_iff {env : Environment} {e : OptionsError} :
    Options.formatOf env = .error e ↔ ∃ value, env.text? Options.formatVariable = some value
      ∧ (∀ format : Format, ¬IsOneOf format.names value) ∧ e = .unknownFormat value := by
  rw [Options.formatOf]
  cases env.text? Options.formatVariable with
  | none => simp
  | some value =>
    simp only [Option.some.injEq, exists_eq_left', ← ofName?_eq_some_iff]
    cases Format.ofName? value <;> simp [eq_comm]

/-- The options that a run finds, or the error for settings that give none, if loading them does not
crash. -/
def optionsIn (files : Access Id) (directory : Option (List UInt8)) (env : Environment) :
    Except Crash (Except OptionsError Options) :=
  (settingsIn files directory env).map Options.ofEnvironment

/-- **What options an environment without a file `.env` asks for.** Loading it does not crash. Options are refused just when the
variable for the format is set to the bytes of a text that is no name of a format, and the error shows that
text. Otherwise colour is switched off just when its variable is set to the bytes of a text that is not
empty, files that pass are reported just when their variable is set to the bytes of one of the switching
words with white space around it, and the format is JSON just when its variable is set to the bytes of a
name of JSON. So a value that is not the bytes of a text counts as missing in each of these places. -/
theorem options_of_values (files : Access Id) (directory : Option (List UInt8)) (env : Environment)
    (hnone : assignmentBytes files directory = none) :
    ∃ options, optionsIn files directory env = .ok options
    ∧ (∀ e, options = .error e ↔
      ∃ value, env.bytes? Options.formatVariable = some (Utf8.encode value)
        ∧ (∀ format : Format, ¬IsOneOf format.names value) ∧ e = .unknownFormat value)
    ∧ ∀ o, options = .ok o →
      (o.color = false ↔
        ∃ value, env.bytes? Options.colorVariable = some (Utf8.encode value) ∧ value ≠ [])
      ∧ (o.verbose = true ↔
        ∃ front word back,
          env.bytes? Options.verboseVariable = some (Utf8.encode (front ++ word ++ back))
          ∧ Blank front ∧ Blank back ∧ IsOneOf switchWords word)
      ∧ (o.format = .json ↔
        ∃ value, env.bytes? Options.formatVariable = some (Utf8.encode value)
          ∧ IsOneOf Format.json.names value) := by
  have hsettings : settingsIn files directory env = .ok env := by
    rw [settingsIn_eq, hnone]
  refine ⟨Options.ofEnvironment env, by rw [optionsIn, hsettings]; rfl, ?_⟩
  simp only [← Environment.text?_eq_some_iff]
  refine ⟨fun e => Options.ofEnvironment_error_iff.trans formatOf_eq_error_iff, fun o ho => ?_⟩
  obtain ⟨hformat, hverbose, hcolor⟩ := ofEnvironment_eq_ok_iff.1 ho
  refine ⟨?_, ?_, ?_⟩
  · rw [hcolor, Bool.not_eq_false', Option.any_eq_true]
    simp
  · rw [hverbose, Option.any_eq_true]
    simp only [switchesOn_iff]
    constructor
    · rintro ⟨_, hvalue, front, word, back, rfl, h⟩
      exact ⟨front, word, back, hvalue, h⟩
    · rintro ⟨front, word, back, hvalue, h⟩
      exact ⟨_, hvalue, front, word, back, rfl, h⟩
  · rw [← formatOf_eq_json_iff, hformat, Except.ok.injEq]

/-- A byte that is no text. -/
theorem not_encode_ff (value : List Char) : [0xFF] ≠ Utf8.encode value := by
  intro h
  have hbroken : Utf8.decode? [0xFF] = none := by decide +kernel
  rw [h, Utf8.decode?_encode] at hbroken
  cases hbroken

/-- The files of an empty directory. -/
def nothingThere : Access Id := Tree.access ⟨[([[119]], .directory)]⟩ [[119]]

/-- A switching word is found between blanks, and a value that is no text does not switch colour off. -/
theorem options_of_values_padded :
    let env : Environment :=
      ⟨[(Options.verboseVariable, Utf8.encode " Yes\n".toList), (Options.colorVariable, [0xFF])]⟩
    assignmentBytes nothingThere (some [slash, 119]) = none
      ∧ ∃ o, optionsIn nothingThere (some [slash, 119]) env = .ok (.ok o)
        ∧ o.verbose = true ∧ o.color = true := by
  intro env
  have hnone : assignmentBytes nothingThere (some [slash, 119]) = none := by decide +kernel
  obtain ⟨options, hoptions, herror, hok⟩ :=
    options_of_values nothingThere (some [slash, 119]) env hnone
  refine ⟨hnone, ?_⟩
  cases options with
  | error e =>
    obtain ⟨value, hvalue, -⟩ := (herror e).1 rfl
    cases hvalue
  | ok o =>
    obtain ⟨hcolor, hverbose, -⟩ := hok o rfl
    refine ⟨o, hoptions, hverbose.2 ⟨[' '], "Yes".toList, ['\n'], rfl, ?_, ?_, ?_⟩, ?_⟩
    · decide
    · decide
    · decide
    · rw [← Bool.not_eq_false]
      intro h
      obtain ⟨value, hvalue, -⟩ := hcolor.1 h
      exact not_encode_ff value (Option.some.inj hvalue)

/-- The environment with a value for a variable that is no text. -/
def brokenValue (name : List Char) : Environment := ⟨[(name, [0xFF])]⟩

theorem ofEnvironment_brokenValue (name : List Char) :
    Options.ofEnvironment (brokenValue name) = .ok {} := by
  have hmissing (v : List Char) : (brokenValue name).text? v = none := by
    refine Option.eq_none_iff_forall_ne_some.2 fun value h => ?_
    rw [Environment.text?_eq_some_iff, Environment.bytes?, Option.map_eq_some_iff] at h
    obtain ⟨binding, hfound, hbytes⟩ := h
    cases List.mem_singleton.1 (List.mem_of_find?_eq_some hfound)
    exact not_encode_ff value hbytes
  simp only [Options.ofEnvironment, Options.formatOf, hmissing]
  rfl

/-- A value that is no text is not noticed: `NO_COLOR` does not switch colour off with any value that is not
empty, and `ECMAV_FORMAT` is not refused with every value that names no format. -/
theorem broken_values_unnoticed :
    (¬ ∀ (files : Access Id) (directory : Option (List UInt8)) (env : Environment) (o : Options),
      assignmentBytes files directory = none →
      optionsIn files directory env = .ok (.ok o) →
      (o.color = false ↔ ∃ value, env.bytes? Options.colorVariable = some value ∧ value ≠ []))
    ∧ ¬ ∀ (files : Access Id) (directory : Option (List UInt8)) (env : Environment),
      assignmentBytes files directory = none →
      ((∃ e, optionsIn files directory env = .ok (.error e)) ↔
        ∃ value, env.bytes? Options.formatVariable = some value
          ∧ ∀ (format : Format) (name : List Char), IsOneOf format.names name →
            value ≠ Utf8.encode name) := by
  have hnone : assignmentBytes nothingThere (some [slash, 119]) = none := by decide +kernel
  have hoptions (name : List Char) :
      optionsIn nothingThere (some [slash, 119]) (brokenValue name) = .ok (.ok {}) := by
    rw [optionsIn, settingsIn_eq, hnone]
    exact congrArg Except.ok (ofEnvironment_brokenValue name)
  refine ⟨fun hall => ?_, fun hall => ?_⟩
  · have hoff := (hall _ _ _ _ hnone (hoptions Options.colorVariable)).2 ⟨[0xFF], rfl, by decide⟩
    cases hoff
  · obtain ⟨e, he⟩ := (hall nothingThere (some [slash, 119]) (brokenValue Options.formatVariable) hnone).2
      ⟨[0xFF], rfl, fun _ name _ => not_encode_ff name⟩
    rw [hoptions] at he
    cases he

end EditionCheck.Settings
