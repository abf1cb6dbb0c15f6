import EditionCheck.Feature

/-!
# Features inside literals

Features that show only in the text of a literal or a name: the base and the separators of a number, the
escapes of a name or string, and the body and flags of a regular expression.
-/

set_option autoImplicit false

namespace EditionCheck.Scan

/-! ## Numbers -/

/-- Whether a number begins with the mark of a binary or octal base. -/
def isBinaryOrOctal : List Char → Bool
  | '0' :: b :: _ => b == 'b' || b == 'B' || b == 'o' || b == 'O'
  | _ => false

/-- The features of a number. -/
def numberFeatures (raw : List Char) : List Feature :=
  (if isBinaryOrOctal raw then [.binaryOctalLiteral] else [])
    ++ (if raw.contains '_' then [.numericSeparator] else [])

/-! ## Names and strings -/

/-- Whether a text has a code point escape whose backslash is not escaped itself. -/
def spellsCodePoint : List Char → Bool
  | [] => false
  | '\\' :: 'u' :: '{' :: _ => true
  | '\\' :: _ :: r => spellsCodePoint r
  | _ :: r => spellsCodePoint r

/-- The features of a name or a string. -/
def escapeFeatures (raw : List Char) : List Feature :=
  if spellsCodePoint raw then [.codePointEscape] else []

/-! ## Regular expressions -/

/-- The group that follows an opening parenthesis, a question mark and a less sign. -/
def angleGroup : List Char → Feature
  | '=' :: _ => .regExpLookbehind
  | '!' :: _ => .regExpLookbehind
  | _ => .regExpNamedGroup

/-- The first construct of a pattern, outside of character classes, that ES2018 added. -/
def bodyFeature : Bool → List Char → Option Feature
  | _, [] => none
  | false, '\\' :: 'p' :: '{' :: _ => some .regExpPropertyEscape
  | false, '\\' :: 'P' :: '{' :: _ => some .regExpPropertyEscape
  | inClass, '\\' :: _ :: r => bodyFeature inClass r
  | false, '(' :: '?' :: '<' :: r => some (angleGroup r)
  | _, '[' :: r => bodyFeature true r
  | _, ']' :: r => bodyFeature false r
  | inClass, _ :: r => bodyFeature inClass r

/-- The feature that a flag stands for. -/
def flagFeature : Char → Option Feature
  | 'u' => some .stickyUnicodeRegExp
  | 'y' => some .stickyUnicodeRegExp
  | 's' => some .dotAllRegExp
  | 'd' => some .regExpIndices
  | 'v' => some .regExpUnicodeSets
  | _ => none

/-- Splits a text at its last slash; a text without one has two empty parts. -/
def splitAtLastSlash (raw : List Char) : List Char × List Char :=
  if raw.contains '/' then
    let flags := (raw.reverse.takeWhile (· != '/')).reverse
    (raw.take (raw.length - flags.length - 1), flags)
  else ([], [])

/-- A text without the slash at its start. -/
def dropSlash : List Char → List Char
  | '/' :: r => r
  | cs => cs

/-- The features of a regular expression: that of the body, then those of the flags in order. -/
def regExpFeatures (raw : List Char) : List Feature :=
  let (body, flags) := splitAtLastSlash raw
  (bodyFeature false (dropSlash body)).toList ++ flags.filterMap flagFeature

end EditionCheck.Scan
