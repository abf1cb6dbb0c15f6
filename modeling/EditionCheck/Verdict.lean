import EditionCheck.Scan.Search
import EditionCheck.Script.EarlyError
import EditionCheck.Script.Program

/-!
# Verdicts

Whether a text is a script of a grammar version. A text that is no script at all is rejected for its
syntax, under every version alike; early errors count only in a text that the grammar takes; and a
feature that is newer than the version is looked for only in a text without either.

Main statement: `Parser.validate_eq` — the verdict in terms of the three stages.
-/

set_option autoImplicit false

namespace EditionCheck

open EditionCheck.Scan EditionCheck.Script

/-- A feature and the edition that introduced it, as a rejection names them. -/
structure DatedFeature where
  feature : Feature
  edition : Edition
  deriving DecidableEq, Repr

instance : Coe DatedFeature Feature := ⟨DatedFeature.feature⟩

/-- A feature with its edition. -/
def Feature.dated (f : Feature) : DatedFeature := ⟨f, f.edition⟩

/-- The answer to whether a text is a script of a grammar version. -/
inductive Verdict where
  | pass
  /-- The text is no script, with so many errors. -/
  | malformed (errors : Nat)
  /-- The script uses a feature that is newer than the version. -/
  | feature (newer : DatedFeature)
  deriving DecidableEq, Repr

/-- Whether a text has passed. -/
def Verdict.isPass : Verdict → Bool
  | pass => true
  | _ => false

/-- What is found out about a text under a grammar version. -/
inductive Finding where
  | conforming
  /-- Reading the text has met errors, or has been given up without naming one. -/
  | unparsable (errors : List SyntaxError)
  | breaches (first : EarlyError) (others : List EarlyError)
  | newer (r : Requirement)
  deriving DecidableEq, Repr

/-- The verdict that follows from a finding. A text that could not be read has at least one error. -/
def Finding.verdict : Finding → Verdict
  | conforming => .pass
  | unparsable errors => .malformed (max errors.length 1)
  | breaches _ others => .malformed (others.length + 1)
  | newer r => .feature r.feature.dated

/-- What is found out about a script by looking for features. -/
def Finding.ofNewer : Option Requirement → Finding
  | none => conforming
  | some r => newer r

/-- What tells scripts from other texts: a parser, which gives the tree of a text or the errors that it
has met, and the rules that a tree can break. Neither knows of versions. -/
structure Parser where
  parse : List Char → Except (List SyntaxError) Node
  breaches : Node → List EarlyError

/-- The parser of this library. -/
def Parser.script : Parser := ⟨Script.parse, earlyErrors⟩

/-- Examines a text under a grammar version, as a parser reads it. -/
def Parser.examine (parser : Parser) (text : String) (version : Grammar) : Finding :=
  let source := text.toList
  match parser.parse source with
  | .error errors => .unparsable errors
  | .ok program =>
    match parser.breaches program with
    | first :: others => .breaches first others
    | [] => .ofNewer (firstNewer source version.edition program)

/-- Checks that a text is a script of a grammar version, as a parser reads it. -/
def Parser.validate (parser : Parser) (text : String) (version : Grammar) : Verdict :=
  (parser.examine text version).verdict

/-- Examines a text under a grammar version. -/
def examine (text : String) (version : Grammar) : Finding := Parser.script.examine text version

/-- Checks that a text is a script of a grammar version. -/
def validate (text : String) (version : Grammar) : Verdict := (examine text version).verdict

theorem Parser.validate_eq (parser : Parser) (text : String) (version : Grammar) :
    parser.validate text version =
      match parser.parse text.toList with
      | .error errors => .malformed (max errors.length 1)
      | .ok program =>
        match parser.breaches program with
        | [] =>
          match firstNewer text.toList version.edition program with
          | none => .pass
          | some r => .feature r.feature.dated
        | errors => .malformed errors.length := by
  simp only [validate, examine]
  cases parser.parse text.toList with
  | error errors => simp only [Finding.verdict]
  | ok program =>
    cases he : parser.breaches program with
    | cons first others => simp only [he, Finding.verdict, List.length_cons]
    | nil =>
      cases hv : firstNewer text.toList version.edition program with
      | none => simp only [he, hv, Finding.ofNewer, Finding.verdict]
      | some r => simp only [he, hv, Finding.ofNewer, Finding.verdict]

theorem validate_eq (text : String) (version : Grammar) :
    validate text version = Parser.script.validate text version := rfl

end EditionCheck
