import EditionCheck.Script.Token
import EditionCheck.Text.Blank
import EditionCheck.Text.NameChar

/-!
# Lexer

Cuts a script into tokens, one at a time. The reader of a script decides where a slash begins a regular
expression and where a brace ends a substitution; `regExpAt` and `templateTail` read those tokens again
from the place where the plain token began.

A comment can also begin with `<!--`, and with `-->` where nothing but blanks and comments precede it on
the line.
-/

set_option autoImplicit false

namespace EditionCheck.Script

open EditionCheck.Text

/-! ## Blanks and comments -/

/-- What the lexer is inside of while it skips blanks. -/
inductive TriviaMode where
  | blanks
  | lineComment
  | blockComment
  deriving DecidableEq, Repr

/-- Skips blanks and comments from a place in a text. The flag says whether the line has held nothing
else so far; the answer says whether a line has ended, and is empty when a comment has no end. -/
def skipTriviaFrom : TriviaMode → Bool → Nat → List Char → Option (Bool × Cursor)
  | .blanks, line, o, '/' :: '/' :: r => skipTriviaFrom .lineComment line (o + 2) r
  | .blanks, line, o, '/' :: '*' :: r => skipTriviaFrom .blockComment line (o + 2) r
  | .blanks, line, o, '<' :: '!' :: '-' :: '-' :: r => skipTriviaFrom .lineComment line (o + 4) r
  | .blanks, true, o, '-' :: '-' :: '>' :: r => skipTriviaFrom .lineComment true (o + 3) r
  | .blanks, line, o, c :: r =>
    if isLineTerminator c then skipTriviaFrom .blanks true (o + c.utf8Size) r
    else if isScriptSpace c then skipTriviaFrom .blanks line (o + c.utf8Size) r
    else some (line, ⟨o, c :: r⟩)
  | .lineComment, line, o, c :: r =>
    if isLineTerminator c then skipTriviaFrom .blanks true (o + c.utf8Size) r
    else skipTriviaFrom .lineComment line (o + c.utf8Size) r
  | .blockComment, line, o, '*' :: '/' :: r => skipTriviaFrom .blanks line (o + 2) r
  | .blockComment, line, o, c :: r =>
    skipTriviaFrom .blockComment (line || isLineTerminator c) (o + c.utf8Size) r
  | .blockComment, _, _, [] => none
  | _, line, o, [] => some (line, ⟨o, []⟩)

/-! ## Escapes -/

/-- The value of a hexadecimal digit. -/
def hexValue? (c : Char) : Option Nat :=
  if '0' ≤ c ∧ c ≤ '9' then some (c.toNat - '0'.toNat)
  else if 'a' ≤ c ∧ c ≤ 'f' then some (c.toNat - 'a'.toNat + 10)
  else if 'A' ≤ c ∧ c ≤ 'F' then some (c.toNat - 'A'.toNat + 10)
  else none

/-- Whether a character is a hexadecimal digit. -/
def isHexDigit (c : Char) : Bool := (hexValue? c).isSome

/-- The number that a row of hexadecimal digits spells. -/
def hexNumber (cs : List Char) : Nat := cs.foldl (fun n c => n * 16 + (hexValue? c).getD 0) 0

/-- The number that the first `n` characters spell, if they are hexadecimal digits. -/
def hexDigits (n : Nat) (cs : List Char) : Option Nat :=
  let digits := cs.take n
  if digits.length = n ∧ digits.all isHexDigit then some (hexNumber digits) else none

/-- Reads what follows a backslash and `u`: four digits, or digits in braces that name a code point.
Gives the code and the number of characters read. -/
def unicodeEscape : List Char → Option (Nat × Nat)
  | '{' :: r =>
    let digits := r.takeWhile isHexDigit
    if digits.isEmpty || (r.drop digits.length).head? != some '}' || decide (0x10FFFF < hexNumber digits)
    then none
    else some (hexNumber digits, digits.length + 2)
  | cs => (hexDigits 4 cs).map fun code => (code, 4)

/-- The value of an octal digit. -/
def octalValue? (c : Char) : Option Nat :=
  if '0' ≤ c ∧ c ≤ '7' then some (c.toNat - '0'.toNat) else none

/-- Whether a character is an octal digit. -/
def isOctalDigit (c : Char) : Bool := (octalValue? c).isSome

/-- Reads at most `n` further digits of an octal escape whose first digits are worth `value`, as long as
the result stays below 256. Gives the result and the number of digits read. -/
def octalTail : Nat → Nat → List Char → Nat × Nat
  | n + 1, value, c :: r =>
    match octalValue? c with
    | some v =>
      if value * 8 + v < 256 then
        let (result, count) := octalTail n (value * 8 + v) r
        (result, count + 1)
      else (value, 0)
    | none => (value, 0)
  | _, value, _ => (value, 0)

/-- The meaning of one escape. -/
inductive Escape where
  /-- A character. -/
  | char (c : Char)
  /-- A line break in the source that stands for nothing. -/
  | nothing
  /-- A character in a form that strict code and templates refuse. -/
  | legacy (c : Char)
  deriving DecidableEq, Repr

/-- Reads what follows a backslash in a string or template, and counts its characters. -/
def escapeAt : List Char → Option (Escape × Nat)
  | [] => none
  | '\r' :: '\n' :: _ => some (.nothing, 2)
  | 'x' :: r => (hexDigits 2 r).map fun code => (.char (Char.ofNat code), 3)
  | 'u' :: r => (unicodeEscape r).map fun (code, count) => (.char (Char.ofNat code), count + 1)
  | 'b' :: _ => some (.char '\x08', 1)
  | 't' :: _ => some (.char '\t', 1)
  | 'n' :: _ => some (.char '\n', 1)
  | 'v' :: _ => some (.char '\x0b', 1)
  | 'f' :: _ => some (.char '\x0c', 1)
  | 'r' :: _ => some (.char '\r', 1)
  | e :: r =>
    if isLineTerminator e then some (.nothing, 1)
    else if e == '0' && !r.head?.any Char.isDigit then some (.char (Char.ofNat 0), 1)
    else if e == '8' || e == '9' then some (.legacy e, 1)
    else
      match octalValue? e with
      | some v =>
        let (code, count) := octalTail 2 v r
        some (.legacy (Char.ofNat code), count + 1)
      | none => some (.char e, 1)

/-! ## Names -/

/-- A name as it was read: its characters with escapes resolved, whether any was escaped, and the number
of characters in the source. -/
structure ReadName where
  chars : List Char
  escaped : Bool
  count : Nat
  deriving DecidableEq, Repr

/-- Puts one character, spelled by `count` source characters, in front of a name. -/
def ReadName.cons (c : Char) (escaped : Bool) (count : Nat) (n : ReadName) : ReadName :=
  ⟨c :: n.chars, escaped || n.escaped, n.count + count⟩

/-- Whether a character can stand in a name, at its start or later. -/
def fitsName (first : Bool) (c : Char) : Bool := if first then isNameStart c else isNamePart c

/-- Reads the characters of a name behind `skip` characters of an escape that has been read. An escape
counts as the character it stands for. Nothing is read where an escape has no meaning or stands for a
character that no name has at this place. -/
def nameFrom : Nat → Bool → List Char → Option ReadName
  | skip + 1, first, _ :: r => nameFrom skip first r
  | 0, first, '\\' :: r =>
    match r with
    | 'u' :: digits =>
      match unicodeEscape digits with
      | some (code, count) =>
        if fitsName first (Char.ofNat code) then
          (nameFrom (count + 1) false r).map (ReadName.cons (Char.ofNat code) true (count + 2))
        else none
      | none => none
    | _ => none
  | 0, first, c :: r =>
    if fitsName first c then (nameFrom 0 false r).map (ReadName.cons c false 1)
    else some ⟨[], false, 0⟩
  | _, _, [] => some ⟨[], false, 0⟩

/-! ## Strings and templates -/

/-- A string as it was read: its value, whether it has a legacy escape, and the number of characters in
the source with the closing quote. -/
structure ReadString where
  value : List Char
  legacy : Bool
  count : Nat
  deriving DecidableEq, Repr

/-- Reads a string up to its closing quote, behind `skip` characters of an escape that has been read. -/
def stringFrom (quote : Char) : Nat → List Char → Option ReadString
  | _, [] => none
  | skip + 1, _ :: r => stringFrom quote skip r
  | 0, c :: r =>
    if c == quote then some ⟨[], false, 1⟩
    else if c == '\n' || c == '\r' then none
    else if c == '\\' then
      match escapeAt r with
      | none => none
      | some (escape, count) =>
        (stringFrom quote count r).map fun s =>
          match escape with
          | .char e => ⟨e :: s.value, s.legacy, s.count + count + 1⟩
          | .nothing => ⟨s.value, s.legacy, s.count + count + 1⟩
          | .legacy e => ⟨e :: s.value, true, s.count + count + 1⟩
    else (stringFrom quote 0 r).map fun s => ⟨c :: s.value, s.legacy, s.count + 1⟩

/-- The string behind an opening quote. -/
def stringAt (quote : Char) (text : List Char) : Lexeme × Nat :=
  match stringFrom quote 0 text with
  | none => (.invalid, 0)
  | some s =>
    (.string (String.ofList (text.take (s.count - 1))) (String.ofList s.value) s.legacy, s.count)

/-- Reads a template up to its next substitution or its end, behind `skip` characters of an escape that
has been read. An escape without meaning is passed over and noted. -/
def templateFrom : Nat → Bool → List Char → Option (TemplatePart × Nat)
  | _, _, [] => none
  | skip + 1, ok, _ :: r => (templateFrom skip ok r).map fun (part, count) => (part, count + 1)
  | 0, ok, '\x60' :: _ => some (⟨ok, false⟩, 1)
  | 0, ok, '$' :: '{' :: _ => some (⟨ok, true⟩, 2)
  | 0, ok, c :: r =>
    let (ok, skip) :=
      if c == '\\' then
        match escapeAt r with
        | some (.char _, count) => (ok, count)
        | some (.nothing, count) => (ok, count)
        | _ => (false, 1)
      else (ok, 0)
    (templateFrom skip ok r).map fun (part, count) => (part, count + 1)

/-- The template part that begins here. -/
def templatePartAt (text : List Char) : Lexeme × Nat :=
  match templateFrom 0 true text with
  | none => (.invalid, 0)
  | some (part, count) => (.template part, count)

/-! ## Numbers -/

/-- Counts a row of digits with single underscores between them; the flag says whether a digit has just
been read. A misplaced underscore spoils the row. -/
def digitsFrom (isDigit : Char → Bool) : Bool → List Char → Option Nat
  | _, [] => some 0
  | afterDigit, c :: r =>
    if isDigit c then (digitsFrom isDigit true r).map (· + 1)
    else if c == '_' then
      if afterDigit && r.head?.any isDigit then (digitsFrom isDigit false r).map (· + 1) else none
    else some 0

/-- Counts a row of one or more digits with single underscores between them. -/
def digitsAt (isDigit : Char → Bool) (text : List Char) : Option Nat :=
  if text.head?.any isDigit then digitsFrom isDigit false text else none

/-- Ends a number of `count` characters, which must not run into a name or another digit. -/
def endNumber (lexeme : Lexeme) (count : Nat) (text : List Char) : Lexeme × Nat :=
  match (text.drop count).head? with
  | some c => if isNameStart c || c.isDigit || c == '\\' then (.invalid, count) else (lexeme, count)
  | none => (lexeme, count)

/-- Ends an integer, which is a big integer if `n` follows. -/
def endInteger (count : Nat) (text : List Char) : Lexeme × Nat :=
  if (text.drop count).head? == some 'n' then endNumber .bigInt (count + 1) text
  else endNumber (.number false) count text

/-- The number of characters of a sign. -/
def signLength : List Char → Nat
  | '+' :: _ => 1
  | '-' :: _ => 1
  | _ => 0

/-- Whether a character introduces an exponent. -/
def isExponentMark (c : Char) : Bool := c == 'e' || c == 'E'

/-- Reads the exponent of a number behind `count` characters, if there is one. -/
def exponentAt (legacy : Bool) (count : Nat) (text : List Char) : Lexeme × Nat :=
  match text.drop count with
  | e :: r =>
    if isExponentMark e then
      match digitsAt Char.isDigit (r.drop (signLength r)) with
      | some digits => endNumber (.number legacy) (count + 1 + signLength r + digits) text
      | none => (.invalid, count)
    else endNumber (.number legacy) count text
  | [] => (.number legacy, count)

/-- Reads the digits behind a decimal point, which may be missing, and the exponent. -/
def fractionAt (legacy : Bool) (count : Nat) (text : List Char) : Lexeme × Nat :=
  if (text.drop count).head?.any Char.isDigit then
    match digitsAt Char.isDigit (text.drop count) with
    | some digits => exponentAt legacy (count + digits) text
    | none => (.invalid, count)
  else exponentAt legacy count text

/-- Reads a number whose digits are behind a base mark of two characters. -/
def basedNumberAt (isDigit : Char → Bool) (text : List Char) : Lexeme × Nat :=
  match digitsAt isDigit (text.drop 2) with
  | some digits => endInteger (digits + 2) text
  | none => (.invalid, 2)

/-- Reads a number without a base mark or leading zero. -/
def decimalAt (text : List Char) : Lexeme × Nat :=
  match digitsAt Char.isDigit text with
  | none => (.invalid, 0)
  | some count =>
    match text.drop count with
    | '.' :: _ => fractionAt false (count + 1) text
    | e :: _ => if isExponentMark e then exponentAt false count text else endInteger count text
    | [] => endInteger count text

/-- Reads a number that begins with a zero and a further digit: octal if all digits are, else
decimal. -/
def zeroNumberAt (text : List Char) : Lexeme × Nat :=
  let digits := text.takeWhile Char.isDigit
  if digits.all isOctalDigit then endNumber (.number true) digits.length text
  else if (text.drop digits.length).head? == some '.' then fractionAt true (digits.length + 1) text
  else exponentAt true digits.length text

/-- Reads a number whose first digit stands here. -/
def numberAt : List Char → Lexeme × Nat
  | '0' :: b :: r =>
    if b == 'x' || b == 'X' then basedNumberAt isHexDigit ('0' :: b :: r)
    else if b == 'o' || b == 'O' then basedNumberAt isOctalDigit ('0' :: b :: r)
    else if b == 'b' || b == 'B' then basedNumberAt (fun d => d == '0' || d == '1') ('0' :: b :: r)
    else if b == '_' then (.invalid, 1)
    else if b.isDigit then zeroNumberAt ('0' :: b :: r)
    else decimalAt ('0' :: b :: r)
  | text => decimalAt text

/-! ## Regular expressions -/

/-- Counts the characters of the body of a regular expression with the slash that ends it, which stands
neither behind a backslash nor in a class. -/
def regExpBody : Bool → List Char → Option Nat
  | _, [] => none
  | _, '\\' :: [] => none
  | inClass, '\\' :: c :: r => if isLineTerminator c then none else (regExpBody inClass r).map (· + 2)
  | inClass, c :: r =>
    if isLineTerminator c then none
    else if c == '/' && !inClass then some 1
    else (regExpBody ((inClass || c == '[') && c != ']') r).map (· + 1)

/-- The flags of a regular expression. -/
def regExpFlags : List Char := ['d', 'g', 'i', 'm', 's', 'u', 'v', 'y']

/-- Flags are known letters, each at most once, and `u` and `v` exclude each other. -/
def validFlags (flags : List Char) : Bool :=
  flags.all regExpFlags.contains && decide flags.Nodup && !(flags.contains 'u' && flags.contains 'v')

/-- Reads a regular expression behind its opening slash. -/
def regExpAt (text : List Char) : Lexeme × Nat :=
  match regExpBody false text with
  | none => (.invalid, 0)
  | some body =>
    let flags := (text.drop body).takeWhile isNamePart
    if validFlags flags && (text.drop (body + flags.length)).head? != some '\\' then
      (.regExp, body + flags.length)
    else (.invalid, body)

/-! ## Tokens -/

/-- The first punctuator of a table that the text begins with. -/
def punctuatorIn : List (List Char × Punctuator) → List Char → Option (Nat × Punctuator)
  | [], _ => none
  | (spelling, p) :: table, text =>
    if spelling.isPrefixOf text then some (spelling.length, p) else punctuatorIn table text

/-- The longest punctuator that the text begins with; `?.` before a digit is a lone `?`. -/
def punctuatorAt (text : List Char) : Option (Nat × Punctuator) :=
  match text with
  | '?' :: '.' :: d :: _ =>
    if d.isDigit then some (1, .question) else punctuatorIn Punctuator.table text
  | _ => punctuatorIn Punctuator.table text

/-- Shifts the length of what was read by the characters in front of it. -/
def behind (n : Nat) (read : Lexeme × Nat) : Lexeme × Nat := (read.1, read.2 + n)

/-- Reads one token where no blank stands: what it is and how many characters it has. -/
def lexemeAt (text : List Char) : Lexeme × Nat :=
  match text with
  | [] => (.endOfText, 0)
  | c :: r =>
    if isNameStart c || c == '\\' then
      match nameFrom 0 true text with
      | some n => (.name (String.ofList n.chars) n.escaped, n.count)
      | none => (.invalid, 1)
    else if c.isDigit then numberAt text
    else if c == '.' && r.head?.any Char.isDigit then fractionAt false 1 text
    else if c == '\x22' || c == '\x27' then behind 1 (stringAt c r)
    else if c == '\x60' then behind 1 (templatePartAt r)
    else if c == '#' then
      match nameFrom 0 true r with
      | some n => if n.count = 0 then (.invalid, 1) else (.privateName (String.ofList n.chars), n.count + 1)
      | none => (.invalid, 1)
    else
      match punctuatorAt text with
      | some (n, p) => (.punctuator p, n)
      | none => (.invalid, 1)

/-- A token from its place and what was read there. -/
def Token.ofRead (lineBefore : Bool) (origin : Cursor) (read : Lexeme × Nat) : Token :=
  let after := origin.skip read.2
  { lexeme := read.1, span := ⟨origin.offset, after.offset⟩, lineBefore, origin, after }

/-- The token behind the blanks that stand at a place. -/
def tokenIn (mode : TriviaMode) (line : Bool) (c : Cursor) : Token :=
  match skipTriviaFrom mode line c.offset c.rest with
  | some (line, c) => Token.ofRead line c (lexemeAt c.rest)
  | none => Token.ofRead line c (.invalid, 0)

/-- The first token of a script. A line that begins with `#!` at the very start is passed over. -/
def firstToken (text : List Char) : Token :=
  tokenIn (if ['#', '!'].isPrefixOf text then .lineComment else .blanks) true (Cursor.ofText text)

/-- The token that follows. -/
def Token.next (t : Token) : Token := tokenIn .blanks false t.after

/-- The regular expression that begins where a token begins. -/
def Token.asRegExp (t : Token) : Token :=
  Token.ofRead t.lineBefore t.origin (behind 1 (regExpAt (t.origin.rest.drop 1)))

/-- The template part that goes on behind the brace that a token is. -/
def Token.asTemplateTail (t : Token) : Token :=
  Token.ofRead t.lineBefore t.origin (behind 1 (templatePartAt (t.origin.rest.drop 1)))

end EditionCheck.Script
