import EditionCheck.Log.Event
import EditionCheck.Text.Alphanumeric
import EditionCheck.Text.Blank

/-!
# Log filters

Which events are shown. A filter is a list of directives between commas, such as `info` or
`ecmav_core::version=debug`: each gives the finest level that is shown, for all events or for those of
one part of the program. The most specific directive that applies to an event decides.
-/

set_option autoImplicit false

namespace EditionCheck.Log

open EditionCheck.Text

/-! ## Levels -/

/-- The finest detail that is shown; `0` shows nothing. -/
abbrev Detail := Nat

/-- The value of decimal digits, with or without a plus sign in front. -/
def number? (cs : List Char) : Option Nat :=
  let digits := if cs.head? == some '+' then cs.drop 1 else cs
  if digits.isEmpty || !digits.all Char.isDigit then none
  else some (digits.foldl (fun n c => 10 * n + (c.toNat - '0'.toNat)) 0)

/-- The detail with a name, in letters of any case, or a number up to 5. -/
def detail? (cs : List Char) : Option Detail :=
  match number? cs with
  | some n => if n ≤ 5 then some n else none
  | none =>
    let word := String.ofList (cs.map Char.toLower)
    if word == "off" then some 0
    else if word == "" || word == "error" then some 1
    else if word == "warn" then some 2
    else if word == "info" then some 3
    else if word == "debug" then some 4
    else if word == "trace" then some 5
    else none

/-- The finest detail of all. -/
def finest : Detail := 5

/-! ## Directives -/

/-- One part of a filter. -/
structure Directive where
  /-- The events that it applies to come from parts whose names start like this. -/
  source : Option (List Char)
  /-- They have values of these names. -/
  fields : List (List Char) := []
  detail : Detail
  deriving DecidableEq, Repr

/-- Why a text is no directive. -/
inductive DirectiveError where
  | malformed
  | badLevel
  deriving DecidableEq, Repr

/-- The wording of an error in a directive. -/
def DirectiveError.message : DirectiveError → String
  | malformed => "invalid filter directive"
  | badLevel => "error parsing level filter: expected one of \x22off\x22, \x22error\x22, \x22warn\x22, "
      ++ "\x22info\x22, \x22debug\x22, \x22trace\x22, or a number 0-5"

/-- The detail behind an equals sign; nothing there asks for the finest. -/
def levelAfter (cs : List Char) : Except DirectiveError Detail :=
  if cs.isEmpty then .ok finest
  else
    match detail? cs with
    | some d => .ok d
    | none => .error .badLevel

/-- What a bracket holds: a name, and the names and values of fields in braces. -/
structure Bracket where
  named : Bool
  fields : List (List Char)

/-- Reads a bracket behind its opening character, with what follows it. -/
def readBracket (cs : List Char) : Option (Bracket × List Char) :=
  let name := cs.takeWhile fun c => c != ']' && c != '\x7b'
  match cs.drop name.length with
  | ']' :: rest => some (⟨true, []⟩, rest)
  | '\x7b' :: rest =>
    let inner := rest.takeWhile (· != '\x7d')
    let fields := inner.splitOn ','
    match rest.drop inner.length with
    | '\x7d' :: ']' :: more => if fields.contains [] then none else some (⟨!name.isEmpty, fields⟩, more)
    | _ => none
  | _ => none

/-- A directive with a bracket, which starts here. It applies to events only if it asks for the names
of fields and for nothing else. -/
def readSpanDirective (source : Option (List Char)) (cs : List Char) :
    Except DirectiveError (Option Directive) :=
  match readBracket cs with
  | none => .error .malformed
  | some (bracket, rest) => do
    let detail ← match rest with
      | [] => .ok finest
      | '=' :: level => levelAfter level
      | _ => .error .malformed
    if bracket.named || bracket.fields.any (·.contains '=') then return none
    return some ⟨source, bracket.fields, detail⟩

/-- Reads a directive. The result is empty for one that applies to no events. -/
def readDirective (cs : List Char) : Except DirectiveError (Option Directive) :=
  match trim cs with
  | [] => .error .malformed
  | '[' :: rest => readSpanDirective none rest
  | c :: rest =>
    if c == '-' || c == ':' || c == '_' || isAlphanumeric c then
      let word := (c :: rest).takeWhile fun d => d != '=' && d != '['
      match (c :: rest).drop word.length with
      | '=' :: _ => do
        let detail ← levelAfter (cs.drop (word.length + 1))
        return some ⟨some (cs.take word.length), [], detail⟩
      | '[' :: inner => readSpanDirective (some (cs.take word.length)) inner
      | _ =>
        match detail? cs with
        | some d => .ok (some ⟨none, [], d⟩)
        | none => .ok (some ⟨some cs, [], finest⟩)
    else .error .malformed

/-! ## Filters -/

/-- Which events are shown. -/
structure Filter where
  directives : List Directive
  deriving DecidableEq, Repr

namespace Filter

/-- Whether a directive applies to an event. -/
def applies (e : Event) (d : Directive) : Bool :=
  (match d.source with
    | none => true
    | some start => start.isPrefixOf e.source.toList)
  && d.fields.all fun f => e.fieldNames.contains (String.ofList f)

/-- How specific a directive is: a longer name of a part counts first, then the number of fields. -/
def specificity (d : Directive) : Nat × Nat :=
  match d.source with
  | none => (0, d.fields.length)
  | some start => (start.length + 1, d.fields.length)

/-- Whether a directive is preferred to another one that comes before it. -/
def outranks (later earlier : Directive) : Bool :=
  let a := specificity later
  let b := specificity earlier
  decide (b.1 < a.1) || (a.1 == b.1 && decide (b.2 ≤ a.2))

/-- The directive that decides among some. -/
def deciding : List Directive → Option Directive
  | [] => none
  | d :: ds =>
    match deciding ds with
    | none => some d
    | some best => if outranks best d then some best else some d

/-- The finest detail that is shown for the shape of an event. -/
def detailFor (f : Filter) (e : Event) : Detail :=
  match deciding (f.directives.filter (applies e)) with
  | some d => d.detail
  | none => 0

/-- Whether an event is shown. -/
def admits (f : Filter) (e : Event) : Bool := decide (e.level.detail ≤ f.detailFor e)

/-- The filter with some directives; without any, errors are shown. -/
def ofDirectives (ds : List Directive) : Filter :=
  ⟨if ds.isEmpty then [⟨none, [], 1⟩] else ds⟩

/-- The texts of the directives in a filter. -/
def directiveTexts (cs : List Char) : List (List Char) := (cs.splitOn ',').filter (· ≠ [])

/-- The filter that a text spells, if all its directives can be read. -/
def ofChars? (cs : List Char) : Option Filter :=
  match (directiveTexts cs).mapM readDirective with
  | .ok ds => some (ofDirectives ds.reduceOption)
  | .error _ => none

/-- The filter that a text spells, where directives that cannot be read are left out, and a complaint
about each of them. -/
def ofCharsLeniently (cs : List Char) : Filter × List String :=
  let read := (directiveTexts cs).map fun t => (t, readDirective t)
  let good := read.filterMap fun p =>
    match p.2 with
    | .ok d => d
    | .error _ => none
  let complaints := read.filterMap fun p =>
    match p.2 with
    | .ok _ => none
    | .error e => some ("ignoring \x60" ++ String.ofList p.1 ++ "\x60: " ++ e.message)
  (ofDirectives good, complaints)

end Filter

end EditionCheck.Log
