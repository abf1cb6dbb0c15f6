import EditionCheck.Text.Span

/-!
# Tokens

What the words of a script are: names (keywords among them), private names, punctuators, numbers,
strings, templates and regular expressions. A token knows its span, whether a line ended before it, and
where the text goes on behind it.
-/

set_option autoImplicit false

namespace EditionCheck.Script

open EditionCheck.Text

/-! ## Punctuators -/

/-- A mark that is no name, number or quoted text. -/
inductive Punctuator where
  | lbrace
  | rbrace
  | lparen
  | rparen
  | lbracket
  | rbracket
  | dot
  | ellipsis
  | semicolon
  | comma
  | less
  | greater
  | lessEqual
  | greaterEqual
  | equal
  | notEqual
  | strictEqual
  | strictNotEqual
  | plus
  | minus
  | star
  | slash
  | percent
  | power
  | increment
  | decrement
  | shiftLeft
  | shiftRight
  | shiftRightZero
  | bitAnd
  | bitOr
  | bitXor
  | bang
  | tilde
  | logicalAnd
  | logicalOr
  | nullish
  | question
  | questionDot
  | colon
  | assign
  | plusAssign
  | minusAssign
  | starAssign
  | slashAssign
  | percentAssign
  | powerAssign
  | shiftLeftAssign
  | shiftRightAssign
  | shiftRightZeroAssign
  | bitAndAssign
  | bitOrAssign
  | bitXorAssign
  | logicalAndAssign
  | logicalOrAssign
  | nullishAssign
  | arrow
  deriving DecidableEq, Repr

namespace Punctuator

/-- The spelling of every punctuator. The lexer tries them in this order, so each stands before its own
beginnings. -/
def table : List (List Char × Punctuator) := [
  (['>', '>', '>', '='], shiftRightZeroAssign),
  (['.', '.', '.'], ellipsis),
  (['=', '=', '='], strictEqual),
  (['!', '=', '='], strictNotEqual),
  (['>', '>', '>'], shiftRightZero),
  (['*', '*', '='], powerAssign),
  (['<', '<', '='], shiftLeftAssign),
  (['>', '>', '='], shiftRightAssign),
  (['&', '&', '='], logicalAndAssign),
  (['|', '|', '='], logicalOrAssign),
  (['?', '?', '='], nullishAssign),
  (['<', '='], lessEqual),
  (['>', '='], greaterEqual),
  (['=', '='], equal),
  (['!', '='], notEqual),
  (['*', '*'], power),
  (['+', '+'], increment),
  (['-', '-'], decrement),
  (['<', '<'], shiftLeft),
  (['>', '>'], shiftRight),
  (['&', '&'], logicalAnd),
  (['|', '|'], logicalOr),
  (['?', '?'], nullish),
  (['?', '.'], questionDot),
  (['+', '='], plusAssign),
  (['-', '='], minusAssign),
  (['*', '='], starAssign),
  (['/', '='], slashAssign),
  (['%', '='], percentAssign),
  (['&', '='], bitAndAssign),
  (['|', '='], bitOrAssign),
  (['^', '='], bitXorAssign),
  (['=', '>'], arrow),
  (['{'], lbrace),
  (['}'], rbrace),
  (['('], lparen),
  ([')'], rparen),
  (['['], lbracket),
  ([']'], rbracket),
  (['.'], dot),
  ([';'], semicolon),
  ([','], comma),
  (['<'], less),
  (['>'], greater),
  (['+'], plus),
  (['-'], minus),
  (['*'], star),
  (['/'], slash),
  (['%'], percent),
  (['&'], bitAnd),
  (['|'], bitOr),
  (['^'], bitXor),
  (['!'], bang),
  (['~'], tilde),
  (['?'], question),
  ([':'], colon),
  (['='], assign)]

end Punctuator

/-! ## Lexemes -/

/-- The part of a template up to its next substitution or its end. -/
structure TemplatePart where
  /-- Whether every escape in the part has a meaning. -/
  wellFormed : Bool
  /-- Whether a substitution follows, rather than the end of the template. -/
  opens : Bool
  deriving DecidableEq, Repr

/-- The content of one token. -/
inductive Lexeme where
  | endOfText
  /-- A name or keyword: its text with escapes resolved, and whether it was written with any. -/
  | name (text : String) (escaped : Bool)
  /-- A name after `#`. -/
  | privateName (text : String)
  | punctuator (p : Punctuator)
  /-- A number, and whether it is written with a leading zero that strict code refuses. -/
  | number (legacy : Bool)
  | bigInt
  /-- A string: its text as written, its value, and whether it has an escape that strict code
  refuses. -/
  | string (raw value : String) (legacy : Bool)
  | template (part : TemplatePart)
  | regExp
  /-- Text that begins no token. -/
  | invalid
  deriving DecidableEq, Repr, Inhabited

/-! ## Positions and tokens -/

/-- A place in a text: the offset in bytes, and the characters from there on. -/
structure Cursor where
  offset : Nat
  rest : List Char
  deriving DecidableEq, Repr, Inhabited

namespace Cursor

/-- The start of a text. -/
def ofText (text : List Char) : Cursor := ⟨0, text⟩

/-- The next character and the place behind it. -/
def next? : Cursor → Option (Char × Cursor)
  | ⟨_, []⟩ => none
  | ⟨o, c :: cs⟩ => some (c, ⟨o + c.utf8Size, cs⟩)

/-- The place `n` characters further on. -/
def skip : Nat → Cursor → Cursor
  | 0, c => c
  | n + 1, c =>
    match c.next? with
    | none => c
    | some (_, c) => skip n c

end Cursor

/-- A token of a script. -/
structure Token where
  lexeme : Lexeme
  span : Span
  /-- Whether a line ends between the token before and this one. -/
  lineBefore : Bool
  /-- The place where the token begins. -/
  origin : Cursor
  /-- The place behind the token. -/
  after : Cursor
  deriving DecidableEq, Repr, Inhabited

namespace Token

/-- Whether a token is a given punctuator. -/
def isPunctuator (t : Token) (p : Punctuator) : Bool :=
  match t.lexeme with
  | .punctuator q => decide (q = p)
  | _ => false

/-- Whether a token is a given keyword, written without escapes. -/
def isWord (t : Token) (word : String) : Bool :=
  match t.lexeme with
  | .name text false => text == word
  | _ => false

/-- The text of a name. -/
def name? (t : Token) : Option String :=
  match t.lexeme with
  | .name text _ => some text
  | _ => none

end Token

/-! ## Keywords -/

/-- The words that never name a variable. -/
def reservedWords : List String := ["break", "case", "catch", "class", "const", "continue", "debugger",
  "default", "delete", "do", "else", "enum", "export", "extends", "false", "finally", "for", "function",
  "if", "import", "in", "instanceof", "new", "null", "return", "super", "switch", "this", "throw", "true",
  "try", "typeof", "var", "void", "while", "with"]

/-- The words that name no variable in strict code. -/
def strictReservedWords : List String := ["implements", "interface", "let", "package", "private",
  "protected", "public", "static", "yield"]

end EditionCheck.Script
