import EditionCheck.Script.Token
import EditionCheck.Script.Node

/-!
# Scopes

Which names a script declares where, and which declarations clash. A `var` belongs to the nearest
function and is seen in every block in between; `let`, `const` and `class` belong to their block and
share their name with nothing else there; a plain function in a block may be declared again by another
one.
-/

set_option autoImplicit false

namespace EditionCheck.Script

open EditionCheck.Text

/-! ## Properties of functions -/

namespace Node

/-- Whether a node is the directive that makes its surroundings strict. -/
def isUseStrict (n : Node) : Bool := n.kind == .directive "use strict"

/-- Whether the body of a function, or a program, asks for strict code. -/
def asksForStrict (n : Node) : Bool :=
  n.children.any isUseStrict
    || n.children.any fun c => c.kind == .functionBody && c.children.any isUseStrict

/-- Whether a parameter is a name without a default. -/
def isPlainParameter (n : Node) : Bool :=
  match n.children with
  | [p] => n.kind == .parameter && p.variableName?.isSome
  | _ => false

/-- Whether a node is a parameter list. -/
def isParameters (n : Node) : Bool :=
  match n.kind with
  | .parameters _ => true
  | _ => false

/-- Whether all parameters of a function are names without defaults. -/
def hasPlainParameters (n : Node) : Bool :=
  n.children.all fun c => !c.isParameters || c.children.all isPlainParameter

mutual

/-- The names that a pattern declares, each with its place. Keys and defaults declare none. -/
def boundNames : Node → List (String × Span)
  | mk (.bindingName name) s _ => [(name, s)]
  | mk .defaultedPattern _ (p :: _) => boundNames p
  | mk (.patternProperty _ _) _ [_, p] => boundNames p
  | mk (.patternProperty _ _) _ [p] => boundNames p
  | mk .objectPattern _ ps => boundNamesAll ps
  | mk .arrayPattern _ ps => boundNamesAll ps
  | mk .restElement _ ps => boundNamesAll ps
  | mk .parameter _ ps => boundNamesAll ps
  | mk (.parameters _) _ ps => boundNamesAll ps
  | mk .declarator _ (p :: _) => boundNames p
  | mk (.variableDeclaration _) _ ds => boundNamesAll ds
  | mk .moduleSpecifier _ [_, p] => boundNames p
  | _ => []

/-- The names that a row of patterns declares. -/
def boundNamesAll : List Node → List (String × Span)
  | [] => []
  | n :: ns => boundNames n ++ boundNamesAll ns

end

end Node

/-! ## Declarations -/

/-- What declares a name. -/
inductive Declaration where
  /-- A `var`, or a function at the top of a function or program. -/
  | variable
  /-- A parameter. -/
  | parameter
  /-- A `let`, `const` or class, or a function in a block that is strict, `async` or a generator. -/
  | lexical
  /-- A plain function in a block of sloppy code. -/
  | blockFunction
  /-- The name between the parentheses of a `catch`. -/
  | caughtName
  /-- A name in a pattern between the parentheses of a `catch`. -/
  | caughtPattern
  deriving DecidableEq, Repr

/-- Whether a declaration clashes with an earlier one of the same name in the same scope. -/
def Declaration.clashes : Declaration → Declaration → Bool
  | .variable, earlier => earlier == .lexical || earlier == .blockFunction || earlier == .caughtPattern
  | .blockFunction, earlier => earlier != .blockFunction
  | _, _ => true

/-- A scope: whether a `var` stays in it, and the names declared so far. -/
structure Frame where
  holdsVariables : Bool
  names : List (String × Declaration) := []

/-- Whether a declaration clashes with one in a scope. -/
def Frame.clashesWith (f : Frame) (name : String) (d : Declaration) : Bool :=
  f.names.any fun e => e.1 == name && d.clashes e.2

/-- A scope with one more declaration. -/
def Frame.declare (f : Frame) (name : String) (d : Declaration) : Frame :=
  { f with names := (name, d) :: f.names }

/-- The scopes around a place, the innermost first, and the places of the clashes found so far. -/
structure Scopes where
  frames : List Frame := []
  clashes : List Span := []

namespace Scopes

/-- Opens a scope. -/
def push (holdsVariables : Bool) (s : Scopes) : Scopes :=
  { s with frames := { holdsVariables } :: s.frames }

/-- Closes the innermost scope. -/
def pop (s : Scopes) : Scopes := { s with frames := s.frames.tail }

/-- Notes a clash, if there is one. -/
def note (clash : Bool) (place : Span) (s : Scopes) : Scopes :=
  if clash then { s with clashes := place :: s.clashes } else s

/-- Declares a name in the innermost scope. -/
def declare (d : Declaration) (s : Scopes) (n : String × Span) : Scopes :=
  match s.frames with
  | [] => s
  | f :: fs => { s with frames := f.declare n.1 d :: fs }.note (f.clashesWith n.1 d) n.2

/-- Declares a variable in every scope up to the one that holds it. Says whether it clashes in any. -/
def declareThrough (name : String) : List Frame → List Frame × Bool
  | [] => ([], false)
  | f :: fs =>
    let clash := f.clashesWith name .variable
    if f.holdsVariables then (f.declare name .variable :: fs, clash)
    else
      let (fs, outer) := declareThrough name fs
      (f.declare name .variable :: fs, clash || outer)

/-- Declares a variable. -/
def declareVariable (s : Scopes) (n : String × Span) : Scopes :=
  let (frames, clash) := declareThrough n.1 s.frames
  { s with frames }.note clash n.2

/-- Declares a parameter, which clashes with another only where names must differ. -/
def declareParameter (unique : Bool) (s : Scopes) (n : String × Span) : Scopes :=
  match s.frames with
  | [] => s
  | f :: fs =>
    { s with frames := f.declare n.1 .parameter :: fs }.note (unique && f.names.any (·.1 == n.1)) n.2

/-- Whether the innermost scope holds variables. -/
def atTop (s : Scopes) : Bool := s.frames.head?.any Frame.holdsVariables

end Scopes

/-! ## Declarations of a script -/

/-- How the name of a function is declared. -/
def functionDeclaration (strict isAsync isGenerator atTop : Bool) : Declaration :=
  if atTop then .variable
  else if strict || isAsync || isGenerator then .lexical
  else .blockFunction

/-- Whether a function must have parameters of different names. -/
def uniqueParameters (strict : Bool) (n : Node) : Bool :=
  match n.kind with
  | .function form _ _ => strict || (form != .declaration && form != .expression) || !n.hasPlainParameters
  | _ => true

/-- Declares the parameters of a function. -/
def declareParameters (strict : Bool) (n : Node) (s : Scopes) : Scopes :=
  (n.children.filter Node.isParameters).foldl
    (fun s ps => ps.boundNames.foldl (Scopes.declareParameter (uniqueParameters strict n)) s) s

/-- Declares what a node declares in the scope where it stands. -/
def declareHere (strict : Bool) (n : Node) (s : Scopes) : Scopes :=
  match n.kind with
  | .function .declaration isAsync isGenerator =>
    let d := functionDeclaration strict isAsync isGenerator s.atTop
    ((n.children.take 1).flatMap Node.boundNames).foldl
      (fun s x => if d == .variable then s.declareVariable x else s.declare d x) s
  | .classNode true => ((n.children.take 1).flatMap Node.boundNames).foldl (Scopes.declare .lexical) s
  | .variableDeclaration .var => n.boundNames.foldl Scopes.declareVariable s
  | .variableDeclaration _ => n.boundNames.foldl (Scopes.declare .lexical) s
  | .importDeclaration => (n.children.flatMap Node.boundNames).foldl (Scopes.declare .lexical) s
  | _ => s

/-- The scope that a node opens for its children: none, or one that may hold variables. -/
def opensScope (n : Node) : Option Bool :=
  match n.kind with
  | .program => some true
  | .function _ _ _ => some true
  | .arrowFunction _ => some true
  | .staticBlock => some true
  | .block => some false
  | .forStatement => some false
  | .forIn => some false
  | .forOf _ => some false
  | .switchStatement => some false
  | .catchClause _ => some false
  | _ => none

/-- Declares what a node declares in the scope that it opens. -/
def declareInside (strict : Bool) (n : Node) (s : Scopes) : Scopes :=
  match n.kind with
  | .function _ _ _ => declareParameters strict n s
  | .arrowFunction _ => declareParameters strict n s
  | .catchClause true =>
    match n.children with
    | p :: _ =>
      let d := if p.variableName?.isSome then Declaration.caughtName else .caughtPattern
      p.boundNames.foldl (Scopes.declare d) s
    | [] => s
  | _ => s

/-- Whether the code in a node is strict, by the code around it. -/
def strictInside (strict : Bool) (n : Node) : Bool :=
  strict ||
    match n.kind with
    | .program => n.asksForStrict
    | .function _ _ _ => n.asksForStrict
    | .arrowFunction _ => n.asksForStrict
    | .classNode _ => true
    | _ => false

/-- Opens the scope of a node, if it has one. -/
def openScope (strict : Bool) (n : Node) (s : Scopes) : Scopes :=
  match opensScope n with
  | some holdsVariables => declareInside strict n (s.push holdsVariables)
  | none => s

/-- Closes the scope of a node, if it has one. -/
def closeScope (n : Node) (s : Scopes) : Scopes := if (opensScope n).isSome then s.pop else s

/-- Which children of a node declare names in its scope. The block of a `catch` shares the scope of its
parameter, and a function that is a branch of an `if` has a scope of its own. -/
def sharesScope (parent child : Node) : Bool :=
  match parent.kind, child.kind with
  | .catchClause _, .block => true
  | _, _ => false

/-- Whether a child is a function that is a branch of an `if`. -/
def isBranchFunction (parent child : Node) : Bool :=
  match parent.kind, child.kind with
  | .ifStatement, .function .declaration _ _ => true
  | _, _ => false

mutual

/-- Declares the names of a node and of everything in it. -/
def declareNode (parent : Node) (strict : Bool) : Node → Scopes → Scopes
  | .mk k sp cs, s =>
    let n := Node.mk k sp cs
    let s := if isBranchFunction parent n then s else declareHere strict n s
    let inner := strictInside strict n
    if sharesScope parent n then declareNodes n inner cs s
    else closeScope n (declareNodes n inner cs (openScope inner n s))

/-- Declares the names of a row of nodes. -/
def declareNodes (parent : Node) (strict : Bool) : List Node → Scopes → Scopes
  | [], s => s
  | n :: ns, s => declareNodes parent strict ns (declareNode parent strict n s)

end

/-- The places where a script declares a name that clashes with an earlier one. -/
def clashes (program : Node) : List Span := (declareNode program false program {}).clashes.reverse

end EditionCheck.Script
