import EditionCheck.Script.Lexer

/-!
# What a lexeme is read from

The ways in which a token can be read where no blank stands, and what follows from its content about the
text that it was read from.

* `isNumeric_numberAt` — what begins with a digit is a number or no token;
* `LexemeOf`, `lexemeOf_lexemeAt` — the cases of reading a token;
* `pos_of_lexemeAt` — a token, other than the end of the text, has a first character;
* `no_backslash_of_nameFrom` — a name without escapes is written without backslashes.
-/

set_option autoImplicit false

namespace EditionCheck.Script

open EditionCheck.Text

/-! ## Numbers -/

/-- Whether something is what reading a number can give: a number of at least one character, or no
token. -/
def isNumeric : Lexeme × Nat → Bool
  | (.number _, count) => decide (0 < count)
  | (.bigInt, count) => decide (0 < count)
  | (.invalid, _) => true
  | _ => false

section

variable {l : Lexeme} {count : Nat}

theorem isNumeric_number (legacy : Bool) (h : 0 < count) : isNumeric (.number legacy, count) :=
  decide_eq_true h

theorem isNumeric_endNumber (h : isNumeric (l, count)) (text : List Char) :
    isNumeric (endNumber l count text) := by
  unfold endNumber
  split
  · split
    · rfl
    · exact h
  · exact h

theorem isNumeric_endInteger (h : 0 < count) (text : List Char) :
    isNumeric (endInteger count text) := by
  unfold endInteger
  split
  · exact isNumeric_endNumber (show isNumeric (.bigInt, count + 1) from decide_eq_true count.succ_pos) _
  · exact isNumeric_endNumber (isNumeric_number _ h) _

theorem isNumeric_exponentAt (legacy : Bool) (h : 0 < count) (text : List Char) :
    isNumeric (exponentAt legacy count text) := by
  unfold exponentAt
  split
  · split
    · split
      · exact isNumeric_endNumber (isNumeric_number _ (by omega)) _
      · rfl
    · exact isNumeric_endNumber (isNumeric_number _ h) _
  · exact isNumeric_number _ h

theorem isNumeric_fractionAt (legacy : Bool) (h : 0 < count) (text : List Char) :
    isNumeric (fractionAt legacy count text) := by
  unfold fractionAt
  split
  · split
    · exact isNumeric_exponentAt _ (by omega) _
    · rfl
  · exact isNumeric_exponentAt _ h _

theorem isNumeric_basedNumberAt (isDigit : Char → Bool) (text : List Char) :
    isNumeric (basedNumberAt isDigit text) := by
  unfold basedNumberAt
  split
  · exact isNumeric_endInteger (by omega) _
  · rfl

/-- A row of digits has a first one. -/
theorem pos_of_digitsAt {isDigit : Char → Bool} {text : List Char}
    (h : digitsAt isDigit text = some count) : 0 < count := by
  unfold digitsAt at h
  split at h
  · next hdigit =>
    cases text with
    | nil => cases hdigit
    | cons c r =>
      have hdigit : isDigit c = true := hdigit
      rw [digitsFrom, if_pos hdigit] at h
      obtain ⟨m, -, rfl⟩ := Option.map_eq_some_iff.1 h
      exact m.succ_pos
  · cases h

theorem isNumeric_decimalAt (text : List Char) : isNumeric (decimalAt text) := by
  unfold decimalAt
  split
  · rfl
  · next digits hdigits =>
    have hpos := pos_of_digitsAt hdigits
    split
    · exact isNumeric_fractionAt _ (by omega) _
    · split
      · exact isNumeric_exponentAt _ hpos _
      · exact isNumeric_endInteger hpos _
    · exact isNumeric_endInteger hpos _

theorem isNumeric_zeroNumberAt {c : Char} (hc : c.isDigit = true) (r : List Char) :
    isNumeric (zeroNumberAt (c :: r)) := by
  have hpos : 0 < ((c :: r).takeWhile Char.isDigit).length := by simp [hc]
  unfold zeroNumberAt
  dsimp only
  split
  · exact isNumeric_endNumber (isNumeric_number _ hpos) _
  · split
    · exact isNumeric_fractionAt _ (by omega) _
    · exact isNumeric_exponentAt _ hpos _

theorem isNumeric_numberAt (text : List Char) : isNumeric (numberAt text) := by
  unfold numberAt
  split
  · split
    · exact isNumeric_basedNumberAt _ _
    split
    · exact isNumeric_basedNumberAt _ _
    split
    · exact isNumeric_basedNumberAt _ _
    split
    · rfl
    split
    · exact isNumeric_zeroNumberAt rfl _
    · exact isNumeric_decimalAt _
  · exact isNumeric_decimalAt _

end

/-! ## Punctuators -/

theorem mem_of_punctuatorIn {table : List (List Char × Punctuator)} {text : List Char} {n : Nat}
    {p : Punctuator} (h : punctuatorIn table text = some (n, p)) :
    ∃ spelling, (spelling, p) ∈ table ∧ spelling.isPrefixOf text ∧ n = spelling.length := by
  induction table with
  | nil => cases h
  | cons entry table ih =>
    obtain ⟨spelling, q⟩ := entry
    rw [punctuatorIn] at h
    split at h
    · next hprefix =>
      cases h
      exact ⟨spelling, List.mem_cons_self, hprefix, rfl⟩
    · obtain ⟨spelling', hmem, hrest⟩ := ih h
      exact ⟨spelling', List.mem_cons_of_mem _ hmem, hrest⟩

theorem spelling_pos : ∀ entry ∈ Punctuator.table, 0 < entry.1.length := by decide

/-- A punctuator is read from one of its spellings. -/
theorem spelling_of_punctuatorAt {cs : List Char} {n : Nat} {p : Punctuator}
    (h : punctuatorAt cs = some (n, p)) :
    ∃ spelling, (spelling, p) ∈ Punctuator.table ∧ spelling.isPrefixOf cs ∧ n = spelling.length := by
  unfold punctuatorAt at h
  split at h
  · split at h
    · cases h
      exact ⟨['?'], by decide, rfl, rfl⟩
    · exact mem_of_punctuatorIn h
  · exact mem_of_punctuatorIn h

theorem pos_of_punctuatorAt {cs : List Char} {n : Nat} {p : Punctuator}
    (h : punctuatorAt cs = some (n, p)) : 0 < n := by
  obtain ⟨spelling, hmem, -, rfl⟩ := spelling_of_punctuatorAt h
  exact spelling_pos _ hmem

/-! ## The cases of reading a token -/

/-- What can be read at the start of a text, and how many characters it has. -/
inductive LexemeOf : List Char → Lexeme × Nat → Prop
  | endOfText : LexemeOf [] (.endOfText, 0)
  | name {cs : List Char} {n : ReadName} :
      nameFrom 0 true cs = some n → 0 < n.count →
        LexemeOf cs (.name (String.ofList n.chars) n.escaped, n.count)
  | number {cs : List Char} {read : Lexeme × Nat} : isNumeric read → LexemeOf cs read
  | string {quote : Char} {r : List Char} {s : ReadString} :
      stringFrom quote 0 r = some s →
        LexemeOf (quote :: r)
          (.string (String.ofList (r.take (s.count - 1))) (String.ofList s.value) s.legacy, s.count + 1)
  | template {quote : Char} {r : List Char} {part : TemplatePart} {count : Nat} :
      templateFrom 0 true r = some (part, count) → LexemeOf (quote :: r) (.template part, count + 1)
  | privateName {hash : Char} {r : List Char} {n : ReadName} :
      nameFrom 0 true r = some n →
        LexemeOf (hash :: r) (.privateName (String.ofList n.chars), n.count + 1)
  | punctuator {cs : List Char} {n : Nat} {p : Punctuator} :
      punctuatorAt cs = some (n, p) → LexemeOf cs (.punctuator p, n)
  | invalid {cs : List Char} {n : Nat} : LexemeOf cs (.invalid, n)

/-- What begins like a name is read as a name with a first character. -/
theorem pos_of_nameFrom {cs : List Char} {n : ReadName} (h : nameFrom 0 true cs = some n)
    (hbegins : ∃ c, cs.head? = some c ∧ (isNameStart c || c == '\\') = true) : 0 < n.count := by
  have hcons {m : Option ReadName} {d : Char} {escaped : Bool} {count : Nat}
      (h : m.map (ReadName.cons d escaped (count + 1)) = some n) : 0 < n.count := by
    obtain ⟨k, -, rfl⟩ := Option.map_eq_some_iff.1 h
    exact Nat.succ_pos _
  obtain ⟨c, hc, hbegins⟩ := hbegins
  generalize hskip : 0 = skip at h
  generalize hfirst : true = first at h
  fun_induction nameFrom skip first cs with
  | case1 => cases hskip
  | case2 => exact hcons h
  | case6 => exact hcons h
  | case7 first _ _ hescape hfits =>
    subst hfirst
    cases hc
    have hstart : isNameStart c = false := by simpa [fitsName] using hfits
    have hne : (c == '\\') = false := by simpa using hescape
    rw [hstart, hne] at hbegins
    cases hbegins
  | case8 => cases hc
  | _ => cases h

theorem lexemeOf_lexemeAt (cs : List Char) : LexemeOf cs (lexemeAt cs) := by
  unfold lexemeAt
  split
  · exact .endOfText
  split
  · split
    · next hc _ _ hname => exact .name hname (pos_of_nameFrom hname ⟨_, rfl, hc⟩)
    · exact .invalid
  split
  · exact .number (isNumeric_numberAt _)
  split
  · exact .number (isNumeric_fractionAt _ Nat.one_pos _)
  split
  · unfold stringAt
    split
    · exact .invalid
    · next hstring => exact .string hstring
  split
  · unfold templatePartAt
    split
    · exact .invalid
    · next htemplate => exact .template htemplate
  split
  · split
    · next hname =>
      split
      · exact .invalid
      · exact .privateName hname
    · exact .invalid
  split
  · next hpunctuator => exact .punctuator hpunctuator
  · exact .invalid

section

variable {cs : List Char} {n : Nat}

theorem punctuatorAt_of_lexemeAt {p : Punctuator} (h : lexemeAt cs = (.punctuator p, n)) :
    punctuatorAt cs = some (n, p) := by
  have hread := lexemeOf_lexemeAt cs
  rw [h] at hread
  cases hread with
  | number hnumeric => cases hnumeric
  | punctuator hpunctuator => exact hpunctuator

/-- A name is read by `nameFrom`. -/
theorem nameFrom_of_lexemeAt {x : String} {escaped : Bool} (h : lexemeAt cs = (.name x escaped, n)) :
    ∃ m, nameFrom 0 true cs = some m ∧ m.escaped = escaped ∧ m.count = n := by
  have hread := lexemeOf_lexemeAt cs
  rw [h] at hread
  cases hread with
  | number hnumeric => cases hnumeric
  | name hname _ => exact ⟨_, hname, rfl, rfl⟩

end

/-! ## Tokens that are read in one way -/

/-- Whether a lexeme is only ever read by `lexemeAt`, whatever the grammar asks for. -/
def Lexeme.isPlain : Lexeme → Bool
  | template _ => false
  | regExp => false
  | invalid => false
  | _ => true

theorem isPlain_regExpAt (cs : List Char) : (regExpAt cs).1.isPlain = false := by
  unfold regExpAt
  split
  · rfl
  · dsimp only
    split <;> rfl

theorem isPlain_templatePartAt (cs : List Char) : (templatePartAt cs).1.isPlain = false := by
  unfold templatePartAt
  split <;> rfl

/-! ## Tokens with characters -/

/-- Whether a lexeme is that of a token with characters. -/
def Lexeme.isSolid : Lexeme → Bool
  | endOfText => false
  | invalid => false
  | _ => true

theorem pos_of_lexemeAt {cs : List Char} (h : (lexemeAt cs).1.isSolid) :
    cs ≠ [] ∧ 0 < (lexemeAt cs).2 := by
  refine ⟨?_, ?_⟩
  · rintro rfl
    cases h
  · have hread := lexemeOf_lexemeAt cs
    generalize lexemeAt cs = read at h hread
    cases hread with
    | endOfText => cases h
    | name _ hpos => exact hpos
    | number hnumeric =>
      obtain ⟨l, count⟩ := read
      cases l with
      | number => exact of_decide_eq_true hnumeric
      | bigInt => exact of_decide_eq_true hnumeric
      | invalid => cases h
      | _ => cases hnumeric
    | string => exact Nat.succ_pos _
    | template => exact Nat.succ_pos _
    | privateName => exact Nat.succ_pos _
    | punctuator hpunctuator => exact pos_of_punctuatorAt hpunctuator
    | invalid => cases h

/-! ## Names without escapes -/

/-- A name without escapes is written without backslashes. -/
theorem no_backslash_of_nameFrom {first : Bool} {cs : List Char} {n : ReadName}
    (h : nameFrom 0 first cs = some n) (hplain : n.escaped = false) : '\\' ∉ cs.take n.count := by
  generalize hskip : 0 = skip at h
  fun_induction nameFrom skip first cs generalizing n with
  | case1 => cases hskip
  | case2 =>
    obtain ⟨m, -, rfl⟩ := Option.map_eq_some_iff.1 h
    cases hplain
  | case6 first c r hc _ ih =>
    obtain ⟨m, hm, rfl⟩ := Option.map_eq_some_iff.1 h
    have hr := ih (show m.escaped = false from hplain) rfl hm
    simpa [ReadName.cons, Ne.symm hc] using hr
  | case7 =>
    cases h
    exact List.not_mem_nil
  | case8 => simp
  | _ => cases h

end EditionCheck.Script
