/-!
# JSON texts

The values that a text spells in the grammar of JSON. Numbers and strings are read from left to right by
functions; values, arrays and objects are relations between the text in front of them, what they hold,
and the text behind them, one rule for each way of writing them.

* `readString`, `readNumber` — strings with their escapes, and decimal numbers;
* `ReadsValue`, `ReadsItems`, `ReadsMembers` — the rules;
* `Spells` — a whole text spells a value, with white space around it;
* `Spells.unique` — a text spells one value at most.
-/

set_option autoImplicit false

namespace EditionCheck.Json

/-! ## Values -/

/-- A decimal number: the mantissa times ten to the power of the exponent. -/
structure Decimal where
  mantissa : Int
  exponent : Int
  deriving DecidableEq, Repr

/-- A value. The members of an object are listed as they are written. -/
inductive Value where
  | null
  | bool (b : Bool)
  | number (n : Decimal)
  | string (text : List Char)
  | array (items : List Value)
  | object (members : List (List Char × Value))

/-- The value of a member of an object. -/
def Value.member? (name : List Char) : Value → Option Value
  | object members => (members.find? fun m => m.1 == name).map (·.2)
  | _ => none

/-! ## White space -/

/-- White space between tokens. -/
def isSpace (c : Char) : Bool := c == ' ' || c == '\t' || c == '\n' || c == '\r'

/-- A text without the white space in front of it. -/
def skipSpace (s : List Char) : List Char := s.dropWhile isSpace

theorem skipSpace_cons {c : Char} (h : isSpace c = false) (s : List Char) :
    skipSpace (c :: s) = c :: s := by
  simp [skipSpace, h]

/-! ## Strings -/

/-- The value of a hexadecimal digit. -/
def hexValue? (c : Char) : Option Nat :=
  if '0' ≤ c ∧ c ≤ '9' then some (c.toNat - 48)
  else if 'a' ≤ c ∧ c ≤ 'f' then some (c.toNat - 87)
  else if 'A' ≤ c ∧ c ≤ 'F' then some (c.toNat - 55)
  else none

/-- The code unit that four hexadecimal digits spell. -/
def codeUnit? (a b c d : Char) : Option Nat := do
  let a ← hexValue? a
  let b ← hexValue? b
  let c ← hexValue? c
  let d ← hexValue? d
  return ((a * 16 + b) * 16 + c) * 16 + d

/-- Whether a code unit is the first half of a character beyond U+FFFF. -/
def isHighHalf (unit : Nat) : Bool := decide (0xD800 ≤ unit) && decide (unit < 0xDC00)

/-- Whether a code unit is the second half of a character beyond U+FFFF. -/
def isLowHalf (unit : Nat) : Bool := decide (0xDC00 ≤ unit) && decide (unit < 0xE000)

/-- The character that two halves make. -/
def joinHalves (high low : Nat) : Char :=
  Char.ofNat (0x10000 + (high - 0xD800) * 0x400 + (low - 0xDC00))

/-- The character that a letter behind a backslash stands for. -/
def escaped? (c : Char) : Option Char :=
  if c == '\x22' || c == '\\' || c == '/' then some c
  else if c == 'b' then some '\x08'
  else if c == 'f' then some '\x0c'
  else if c == 'n' then some '\n'
  else if c == 'r' then some '\r'
  else if c == 't' then some '\t'
  else none

/-- A character in front of what is read behind it. -/
def withChar (c : Char) (r : List Char × List Char) : List Char × List Char := (c :: r.1, r.2)

/-- The text of a string behind its opening quote, and what follows its closing quote. Control
characters stand in a string as escapes only, and a half of a character only together with its other
half. -/
def readString : List Char → Option (List Char × List Char)
  | [] => none
  | '\x22' :: rest => some ([], rest)
  | '\\' :: 'u' :: a :: b :: c :: d :: rest => do
    let unit ← codeUnit? a b c d
    if isHighHalf unit then
      match rest with
      | '\\' :: 'u' :: e :: f :: g :: h :: more => do
        let low ← codeUnit? e f g h
        if isLowHalf low then (readString more).map (withChar (joinHalves unit low)) else none
      | _ => none
    else if isLowHalf unit then none
    else (readString rest).map (withChar (Char.ofNat unit))
  | '\\' :: c :: rest => do
    let c ← escaped? c
    (readString rest).map (withChar c)
  | c :: rest => if c.toNat < 32 then none else (readString rest).map (withChar c)

/-! ## Numbers -/

/-- The digits behind a decimal point, if there is one. -/
def readFraction : List Char → Option (List Char × List Char)
  | '.' :: s =>
    let digits := s.takeWhile Char.isDigit
    if digits.isEmpty then none else some (digits, s.dropWhile Char.isDigit)
  | s => some ([], s)

/-- The sign in front of an exponent, if there is one. -/
def readSign : List Char → Int × List Char
  | '+' :: s => (1, s)
  | '-' :: s => (-1, s)
  | s => (1, s)

/-- The exponent behind its letter, if there is one. -/
def readExponent (s : List Char) : Option (Int × List Char) :=
  match s with
  | c :: rest =>
    if c == 'e' || c == 'E' then
      let (sign, rest) := readSign rest
      let digits := rest.takeWhile Char.isDigit
      if digits.isEmpty then none
      else some (sign * Nat.ofDigitChars 10 digits 0, rest.dropWhile Char.isDigit)
    else some (0, s)
  | [] => some (0, [])

/-- Whether digits are a whole number: no zero stands in front of another digit. -/
def isWhole (digits : List Char) : Bool :=
  !digits.isEmpty && (digits.head? != some '0' || digits.length == 1)

/-- A number without its sign, and what follows it. -/
def readUnsigned (s : List Char) : Option (Decimal × List Char) := do
  let whole := s.takeWhile Char.isDigit
  if isWhole whole then
    let (fraction, s) ← readFraction (s.dropWhile Char.isDigit)
    let (exponent, s) ← readExponent s
    return (⟨Nat.ofDigitChars 10 (whole ++ fraction) 0, exponent - fraction.length⟩, s)
  else none

/-- A number and what follows it. -/
def readNumber : List Char → Option (Decimal × List Char)
  | '-' :: s => (readUnsigned s).map fun r => (⟨-r.1.mantissa, r.1.exponent⟩, r.2)
  | s => readUnsigned s

/-! ## The grammar -/

/-- What follows the separator of two items, which the first item has not. -/
def behindComma (first : Bool) (s : List Char) : Option (List Char) :=
  if first then some s
  else
    match s with
    | ',' :: rest => some rest
    | _ => none

/-- The name of a member and what follows the colon behind it. -/
def readKey : List Char → Option (List Char × List Char)
  | '\x22' :: s => do
    let (key, rest) ← readString s
    match skipSpace rest with
    | ':' :: rest => some (key, rest)
    | _ => none
  | _ => none

mutual

/-- A value stands at the start of a text, and the rest follows it. -/
inductive ReadsValue : List Char → Value → List Char → Prop
  | null {t : List Char} : ReadsValue ('n' :: 'u' :: 'l' :: 'l' :: t) .null t
  | yes {t : List Char} : ReadsValue ('t' :: 'r' :: 'u' :: 'e' :: t) (.bool true) t
  | no {t : List Char} : ReadsValue ('f' :: 'a' :: 'l' :: 's' :: 'e' :: t) (.bool false) t
  | number {s t : List Char} {n : Decimal} (read : readNumber s = some (n, t)) :
      ReadsValue s (.number n) t
  | string {s text t : List Char} (read : readString s = some (text, t)) :
      ReadsValue ('\x22' :: s) (.string text) t
  | array {s t : List Char} {items : List Value} (read : ReadsItems true s items t) :
      ReadsValue ('[' :: s) (.array items) t
  | object {s t : List Char} {members : List (List Char × Value)}
      (read : ReadsMembers true s members t) : ReadsValue ('\x7b' :: s) (.object members) t

/-- The items of an array up to its end. `first` says that none has been read before. -/
inductive ReadsItems : Bool → List Char → List Value → List Char → Prop
  | done {first : Bool} {s t : List Char} (closed : skipSpace s = ']' :: t) : ReadsItems first s [] t
  | next {first : Bool} {s s' u t : List Char} {v : Value} {items : List Value}
      (separated : behindComma first (skipSpace s) = some s') (read : ReadsValue (skipSpace s') v u)
      (more : ReadsItems false u items t) : ReadsItems first s (v :: items) t

/-- The members of an object up to its end. `first` says that none has been read before. -/
inductive ReadsMembers : Bool → List Char → List (List Char × Value) → List Char → Prop
  | done {first : Bool} {s t : List Char} (closed : skipSpace s = '\x7d' :: t) :
      ReadsMembers first s [] t
  | next {first : Bool} {s s' r key u t : List Char} {v : Value} {members : List (List Char × Value)}
      (separated : behindComma first (skipSpace s) = some s')
      (named : readKey (skipSpace s') = some (key, r)) (read : ReadsValue (skipSpace r) v u)
      (more : ReadsMembers false u members t) : ReadsMembers first s ((key, v) :: members) t

end

/-- A text is one value with white space around it. -/
def Spells (text : List Char) (v : Value) : Prop :=
  ∃ rest, ReadsValue (skipSpace text) v rest ∧ skipSpace rest = []

/-! ## A text spells one value -/

theorem readNumber_cons_eq_none {c : Char} (hsign : c ≠ '-') (hdigit : c.isDigit = false)
    (s : List Char) : readNumber (c :: s) = none := by
  simp [readNumber, readUnsigned, hsign, hdigit, isWhole]

/-- No value starts with a closing bracket. -/
theorem not_readsValue_bracket {s t : List Char} {v : Value} : ¬ReadsValue (']' :: s) v t := by
  intro h
  cases h with
  | number read => simp [readNumber_cons_eq_none] at read

/-- What is not a comma is not passed over as a separator. -/
theorem eq_of_behindComma {first : Bool} {c : Char} {s s' : List Char} (hc : c ≠ ',')
    (h : behindComma first (c :: s) = some s') : s' = c :: s := by
  cases first with
  | true => simpa [behindComma] using h.symm
  | false => simp [behindComma, hc] at h

/-- An array that ends has no further item. -/
theorem not_next_item {first : Bool} {s s' t u : List Char} {v : Value} (closed : skipSpace s = ']' :: t)
    (separated : behindComma first (skipSpace s) = some s') : ¬ReadsValue (skipSpace s') v u := by
  rw [closed] at separated
  rw [eq_of_behindComma (by decide) separated, skipSpace_cons (by decide)]
  exact not_readsValue_bracket

/-- An object that ends has no further member. -/
theorem not_next_member {first : Bool} {s s' t : List Char} (closed : skipSpace s = '\x7d' :: t)
    (separated : behindComma first (skipSpace s) = some s') : readKey (skipSpace s') = none := by
  rw [closed] at separated
  rw [eq_of_behindComma (by decide) separated, skipSpace_cons (by decide)]
  rfl

-- by the first derivation: each rule is told by the character at its start, and only the rule for
-- numbers has to be kept apart from the others
mutual

theorem ReadsValue.unique {s t u : List Char} {v w : Value} (h : ReadsValue s v t)
    (h' : ReadsValue s w u) : v = w ∧ t = u := by
  cases h with
  | number read =>
    cases h' with
    | number read' =>
      simp only [read, Option.some.injEq, Prod.mk.injEq] at read'
      simp [read']
    | _ => simp [readNumber_cons_eq_none] at read
  | null =>
    cases h' with
    | null => exact ⟨rfl, rfl⟩
    | number read => simp [readNumber_cons_eq_none] at read
  | yes =>
    cases h' with
    | yes => exact ⟨rfl, rfl⟩
    | number read => simp [readNumber_cons_eq_none] at read
  | no =>
    cases h' with
    | no => exact ⟨rfl, rfl⟩
    | number read => simp [readNumber_cons_eq_none] at read
  | string read =>
    cases h' with
    | string read' =>
      simp only [read, Option.some.injEq, Prod.mk.injEq] at read'
      simp [read']
    | number read => simp [readNumber_cons_eq_none] at read
  | array read =>
    cases h' with
    | array read' =>
      obtain ⟨rfl, rfl⟩ := read.unique read'
      exact ⟨rfl, rfl⟩
    | number read => simp [readNumber_cons_eq_none] at read
  | object read =>
    cases h' with
    | object read' =>
      obtain ⟨rfl, rfl⟩ := read.unique read'
      exact ⟨rfl, rfl⟩
    | number read => simp [readNumber_cons_eq_none] at read

theorem ReadsItems.unique {first : Bool} {s t u : List Char} {vs ws : List Value}
    (h : ReadsItems first s vs t) (h' : ReadsItems first s ws u) : vs = ws ∧ t = u := by
  cases h with
  | done closed =>
    cases h' with
    | done closed' => simpa [closed] using closed'
    | next separated read => exact absurd read (not_next_item closed separated)
  | next separated read more =>
    cases h' with
    | done closed => exact absurd read (not_next_item closed separated)
    | next separated' read' more' =>
      rw [separated, Option.some.injEq] at separated'
      subst separated'
      obtain ⟨rfl, rfl⟩ := read.unique read'
      obtain ⟨rfl, rfl⟩ := more.unique more'
      exact ⟨rfl, rfl⟩

theorem ReadsMembers.unique {first : Bool} {s t u : List Char} {vs ws : List (List Char × Value)}
    (h : ReadsMembers first s vs t) (h' : ReadsMembers first s ws u) : vs = ws ∧ t = u := by
  cases h with
  | done closed =>
    cases h' with
    | done closed' => simpa [closed] using closed'
    | next separated named => simp [not_next_member closed separated] at named
  | next separated named read more =>
    cases h' with
    | done closed => simp [not_next_member closed separated] at named
    | next separated' named' read' more' =>
      rw [separated, Option.some.injEq] at separated'
      subst separated'
      simp only [named, Option.some.injEq, Prod.mk.injEq] at named'
      obtain ⟨rfl, rfl⟩ := named'
      obtain ⟨rfl, rfl⟩ := read.unique read'
      obtain ⟨rfl, rfl⟩ := more.unique more'
      exact ⟨rfl, rfl⟩

end

/-- **A text spells one value at most.** -/
theorem Spells.unique {text : List Char} {v w : Value} (h : Spells text v) (h' : Spells text w) :
    v = w := by
  obtain ⟨_, hv, -⟩ := h
  obtain ⟨_, hw, -⟩ := h'
  exact (hv.unique hw).1

end EditionCheck.Json
