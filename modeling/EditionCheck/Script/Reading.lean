import EditionCheck.Script.Lexer
import EditionCheck.Script.Pattern

/-!
# Reading a script

A reader takes tokens off a script and gives a result, or says at which offset the text has no reading.
There are faults behind which it goes on as if the text had a reading: these are put down in `Notes`, so
that the errors of a text are those in the notes and the one at which reading gave up, if it did.

`Rules` holds the productions of the grammar that refer back to themselves: the others are written as
functions of it, and `Script/Program.lean` ties them together.
-/

set_option autoImplicit false

namespace EditionCheck.Script

open EditionCheck.Text

/-! ## Errors -/

/-- Why a text is no script. -/
inductive SyntaxFault where
  /-- A token that no production takes here. -/
  | unexpectedToken
  /-- A statement that neither a semicolon nor a line break ends. -/
  | missingSemicolon
  /-- A reserved word where a variable is named. -/
  | reservedWord
  /-- Something that no value can be assigned to. -/
  | invalidTarget
  /-- Something that is no parameter list or pattern. -/
  | invalidPattern
  /-- A declaration that lacks its initial value. -/
  | missingInitializer
  /-- A declaration where only a statement may stand. -/
  | misplacedDeclaration
  /-- `return` outside a function. -/
  | misplacedReturn
  /-- An element that a class cannot have. -/
  | invalidClassElement
  /-- A part of a template with an escape that has no meaning. -/
  | invalidEscape
  /-- A property with a default in an object that is no pattern. -/
  | defaultInObject
  /-- A text with more tokens than characters; no text is. -/
  | exhausted
  deriving DecidableEq, Repr

/-- A fault and its place. -/
structure SyntaxError where
  fault : SyntaxFault
  offset : Nat
  deriving DecidableEq, Repr

/-! ## Notes -/

/-- What readers have put down on their way, the last entry first. -/
structure Notes where
  /-- The faults behind which reading went on. -/
  complaints : List SyntaxError := []
  /-- The offsets of the properties with a default in objects that no pattern has come of so far. -/
  defaults : List Nat := []

namespace Notes

/-- The notes with one fault at each of a row of offsets. -/
def complain (notes : Notes) (fault : SyntaxFault) (offsets : List Nat) : Notes :=
  { notes with complaints := (offsets.map (⟨fault, ·⟩)).reverse ++ notes.complaints }

/-- The notes behind a property with a default. -/
def addDefault (notes : Notes) (offset : Nat) : Notes :=
  { notes with defaults := offset :: notes.defaults }

/-- The notes once a pattern has taken the place of expressions. Its properties may have defaults, and
only those that stand in the values of the pattern are still in objects. -/
def takeUp (notes : Notes) (expressions patterns : List Node) : Notes :=
  let kept := Node.defaultOffsets patterns
  let taken := (Node.defaultOffsets expressions).filter fun offset => !(kept.contains offset)
  { notes with defaults := notes.defaults.filter fun offset => !(taken.contains offset) }

/-- The errors of a text in the order in which they are found: the faults that reading went on behind,
the one that ended it, and the defaults that no pattern has. -/
def errors (notes : Notes) (last : Option SyntaxError) : List SyntaxError :=
  notes.complaints.reverse ++ last.toList ++ notes.defaults.reverse.map (⟨.defaultInObject, ·⟩)

end Notes

/-! ## Readers -/

/-- Where a reader stands. -/
structure Place where
  /-- The token that comes next. -/
  token : Token
  /-- The end of the token read last. -/
  lastStop : Nat
  /-- A bound on the number of tokens. -/
  bound : Nat

/-- A reader of part of a script. The notes outlast the fault at which a reader gives up. -/
abbrev Reader := StateT Place (ExceptT SyntaxError (StateM Notes))

/-- What the grammar takes into account about the surroundings of a production. -/
structure Setting where
  /-- Whether `in` is an operator here. -/
  inOperator : Bool := true
  /-- Whether `yield` is an expression. -/
  yieldExpression : Bool := false
  /-- Whether `await` is an expression. -/
  awaitExpression : Bool := false
  /-- Whether `return` may stand here. -/
  returnStatement : Bool := false
  deriving DecidableEq, Repr

/-- The same surroundings with `in` as an operator. -/
def Setting.withIn (s : Setting) : Setting := { s with inOperator := true }

namespace Reader

/-- A reader goes on with the result, the place and the notes of the one before it. -/
theorem run_bind {α β : Type} (x : Reader α) (f : α → Reader β) (p : Place) (notes : Notes) :
    (x >>= f) p notes = match x p notes with
      | (.ok (a, q), notes) => f a q notes
      | (.error e, notes) => (.error e, notes) := by
  show ExceptT.bindCont (fun s : α × Place => f s.1 s.2) (x p notes).1 (x p notes).2 = _
  generalize x p notes = s
  obtain ⟨_ | ⟨a, q⟩, notes'⟩ := s <;> rfl

/-- The next token. -/
def token : Reader Token := do return (← get).token

/-- Gives up at the next token. -/
def fail {α : Type} (fault : SyntaxFault) : Reader α := do
  throw ⟨fault, (← get).token.span.start⟩

/-- Gives up at an offset. -/
def failAt {α : Type} (fault : SyntaxFault) (offset : Nat) : Reader α := throw ⟨fault, offset⟩

/-- Puts down a fault at each of a row of offsets and goes on. -/
def complain (fault : SyntaxFault) (offsets : List Nat) : Reader Unit :=
  modifyThe Notes (·.complain fault offsets)

/-- Puts down a property with a default. -/
def addDefault (offset : Nat) : Reader Unit := modifyThe Notes (·.addDefault offset)

/-- Puts down that patterns have taken the place of expressions. -/
def takeUp (expressions patterns : List Node) : Reader Unit :=
  modifyThe Notes (·.takeUp expressions patterns)

/-- Takes the next token, whatever it is. -/
def advance : Reader Token := do
  let p ← get
  set { p with token := p.token.next, lastStop := p.token.span.stop }
  return p.token

/-- Replaces the next token by another reading of the same text. -/
def reread (t : Token) : Reader Unit := do
  let p ← get
  set { p with token := t }

/-- Whether the next token is a punctuator. -/
def at? (p : Punctuator) : Reader Bool := do return (← token).isPunctuator p

/-- Whether the next token is a keyword. -/
def atWord? (word : String) : Reader Bool := do return (← token).isWord word

/-- Takes a punctuator if it comes next. -/
def accept (p : Punctuator) : Reader Bool := do
  if ← at? p then
    let _ ← advance
    return true
  return false

/-- Takes a keyword if it comes next. -/
def acceptWord (word : String) : Reader Bool := do
  if ← atWord? word then
    let _ ← advance
    return true
  return false

/-- Takes a punctuator, which must come next. -/
def expect (p : Punctuator) : Reader Token := do
  if ← at? p then advance else fail .unexpectedToken

/-- Takes a keyword, which must come next. -/
def expectWord (word : String) : Reader Token := do
  if ← atWord? word then advance else fail .unexpectedToken

/-- The span from an offset to the end of the token read last. -/
def spanFrom (start : Nat) : Reader Span := do return ⟨start, (← get).lastStop⟩

/-- A node from an offset to the end of the token read last. -/
def node (start : Nat) (kind : Kind) (children : List Node) : Reader Node := do
  return Node.mk kind (← spanFrom start) children

/-- The offset of the next token. -/
def here : Reader Nat := do return (← token).span.start

/-- Ends a statement: with a semicolon, or where a line, a block or the text ends. -/
def endStatement : Reader Unit := do
  let t ← token
  if t.isPunctuator .semicolon then
    let _ ← advance
  else if t.isPunctuator .rbrace || t.lexeme == .endOfText || t.lineBefore then return ()
  else fail .missingSemicolon

/-- Repeats a step until it gives a result. Each step takes a token, so the bound is never reached. -/
def iterate {σ α : Type} (step : σ → Reader (σ ⊕ α)) (init : σ) : Reader α := do
  go ((← get).bound) init
where
  go : Nat → σ → Reader α
    | 0, _ => fail .exhausted
    | n + 1, s => do
      match ← step s with
      | .inl s => go n s
      | .inr a => return a

/-- Reads items up to a closing punctuator, which is taken. -/
def itemsUntil (close : Punctuator) (item : Reader Node) : Reader (List Node) :=
  iterate (fun items => do
    if ← accept close then return .inr items.reverse
    return .inl ((← item) :: items)) []

/-- Reads items with commas between them up to a closing punctuator, which is taken. Says also whether a
comma stands behind the last one. -/
def commaList (close : Punctuator) (item : Reader Node) : Reader (List Node × Bool) :=
  iterate (fun (items, comma) => do
    if ← accept close then return .inr (items.reverse, comma)
    let items := (← item) :: items
    if ← accept .comma then return .inl (items, true)
    let _ ← expect close
    return .inr (items.reverse, false)) ([], false)

end Reader

/-! ## Productions that refer back -/

/-- The productions of the grammar that refer back to themselves. -/
structure Rules where
  /-- An expression with commas. -/
  expression : Setting → Reader Node
  /-- An expression without commas. -/
  assignment : Setting → Reader Node
  /-- An operand with the operators before it. -/
  unary : Setting → Reader Node
  /-- Operands joined by operators that bind at least as tightly as a level. -/
  binary : Setting → Nat → Reader Node
  /-- An expression with the member accesses behind it, and with the calls if the flag says so. -/
  member : Setting → Bool → Reader Node
  /-- A pattern that declares names. -/
  bindingTarget : Setting → Reader Node
  /-- A statement. -/
  statement : Setting → Reader Node
  /-- A statement or declaration. -/
  listItem : Setting → Reader Node

/-- Rules that read nothing. -/
def Rules.none : Rules where
  expression _ := Reader.fail .exhausted
  assignment _ := Reader.fail .exhausted
  unary _ := Reader.fail .exhausted
  binary _ _ := Reader.fail .exhausted
  member _ _ := Reader.fail .exhausted
  bindingTarget _ := Reader.fail .exhausted
  statement _ := Reader.fail .exhausted
  listItem _ := Reader.fail .exhausted

end EditionCheck.Script
