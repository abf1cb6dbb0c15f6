/-!
# Editions and grammar versions

The published editions of the language, oldest first, and the grammar versions `3` to `8` that a check
can be run under. A version is named on the command line by a token such as `ecma6`; a token that is
not known stands for the default version.

Main statement: `Grammar.edition_mono` — a later version never stands for an earlier edition.
-/

set_option autoImplicit false

namespace EditionCheck

/-! ## Editions -/

/-- A published edition of the language. -/
inductive Edition where
  | es3
  | es5
  | es2015
  | es2016
  | es2017
  | es2018
  | es2019
  | es2020
  | es2021
  | es2022
  | es2023
  | es2024
  deriving DecidableEq, Repr

namespace Edition

/-- All editions, oldest first. -/
def all : List Edition :=
  [es3, es5, es2015, es2016, es2017, es2018, es2019, es2020, es2021, es2022, es2023, es2024]

/-- The position of an edition in the order of publication. -/
def rank : Edition → Nat
  | es3 => 0
  | es5 => 1
  | es2015 => 2
  | es2016 => 3
  | es2017 => 4
  | es2018 => 5
  | es2019 => 6
  | es2020 => 7
  | es2021 => 8
  | es2022 => 9
  | es2023 => 10
  | es2024 => 11

instance : LT Edition := ⟨fun a b => a.rank < b.rank⟩

instance : LE Edition := ⟨fun a b => a.rank ≤ b.rank⟩

instance (a b : Edition) : Decidable (a < b) := inferInstanceAs (Decidable (a.rank < b.rank))

instance (a b : Edition) : Decidable (a ≤ b) := inferInstanceAs (Decidable (a.rank ≤ b.rank))

theorem lt_iff_rank {a b : Edition} : a < b ↔ a.rank < b.rank := Iff.rfl

theorem le_iff_rank {a b : Edition} : a ≤ b ↔ a.rank ≤ b.rank := Iff.rfl

/-- The name of an edition in messages. -/
def name : Edition → String
  | es3 => "ES3"
  | es5 => "ES5"
  | es2015 => "ES2015"
  | es2016 => "ES2016"
  | es2017 => "ES2017"
  | es2018 => "ES2018"
  | es2019 => "ES2019"
  | es2020 => "ES2020"
  | es2021 => "ES2021"
  | es2022 => "ES2022"
  | es2023 => "ES2023"
  | es2024 => "ES2024"

/-- The edition with a given name. -/
def ofName? (s : String) : Option Edition := all.find? (·.name == s)

end Edition

/-! ## Grammar versions -/

/-- A grammar version that files are checked against. -/
inductive Grammar where
  | v3
  | v4
  | v5
  | v6
  | v7
  | v8
  deriving DecidableEq, Repr

namespace Grammar

/-- All versions, oldest first. -/
def all : List Grammar := [v3, v4, v5, v6, v7, v8]

/-- The position of a version among the versions. -/
def rank : Grammar → Nat
  | v3 => 0
  | v4 => 1
  | v5 => 2
  | v6 => 3
  | v7 => 4
  | v8 => 5

instance : LE Grammar := ⟨fun a b => a.rank ≤ b.rank⟩

instance (a b : Grammar) : Decidable (a ≤ b) := inferInstanceAs (Decidable (a.rank ≤ b.rank))

/-- The version used when a token names none. -/
def default : Grammar := v5

/-- The digit that names a version. -/
def digit : Grammar → String
  | v3 => "3"
  | v4 => "4"
  | v5 => "5"
  | v6 => "6"
  | v7 => "7"
  | v8 => "8"

/-- The version with a given digit. -/
def ofDigit? (s : String) : Option Grammar := all.find? (·.digit == s)

/-- The newest edition whose syntax a version accepts. Edition 4 was never published, so version 4
accepts what version 3 accepts. -/
def edition : Grammar → Edition
  | v3 => .es3
  | v4 => .es3
  | v5 => .es5
  | v6 => .es2015
  | v7 => .es2016
  | v8 => .es2017

theorem edition_mono {v w : Grammar} (h : v ≤ w) : v.edition ≤ w.edition := by
  revert h
  cases v <;> cases w <;> decide

/-- The token that names the default version. -/
def defaultToken : String := "ecma5"

/-- The version that a token names; every token but the five listed ones names the default. -/
def ofToken (token : String) : Grammar :=
  if token == "ecma3" then v3
  else if token == "ecma4" then v4
  else if token == "ecma6" then v6
  else if token == "ecma7" then v7
  else if token == "ecma8" then v8
  else default

/-- Whether a token falls back to the default version without naming it. -/
def isFallback (token : String) : Bool :=
  decide (ofToken token = default) && token != defaultToken

end Grammar

end EditionCheck
