import EditionCheck.Script.Scope

/-!
# Early errors

Rules that a script breaks although the grammar takes it: strict code, labels and jumps, `super` and
`new.target`, private names, declarations that clash, and module syntax, which a script has none of.
Each breach counts once.
-/

set_option autoImplicit false

namespace EditionCheck.Script

open EditionCheck.Text

/-- A rule that a script can break. -/
inductive EarlyFault where
  | clashingDeclaration
  | reservedInStrict
  | reservedInStaticBlock
  | restrictedName
  | letAsName
  | argumentsInInitializer
  | assignmentToRestricted
  | undeclaredPrivateName
  | duplicatePrivateName
  | duplicateConstructor
  | legacyNumber
  | legacyEscape
  | strictWithComplexParameters
  | accessorParameters
  | moduleSyntax
  | newTargetOutside
  | superCallOutside
  | superPropertyOutside
  | misplacedFunction
  | withInStrict
  | duplicateDefault
  | duplicateLabel
  | missingLabel
  | breakOutside
  | continueOutside
  | severalLoopVariables
  | initializedLoopVariable
  | deletedName
  | deletedPrivateName
  | duplicateProto
  | unaryBeforePower
  | mixedCoalesce
  | yieldOrAwaitInParameters
  | awaitInStaticBlock
  deriving DecidableEq, Repr

/-- A breach of a rule and its place. -/
structure EarlyError where
  fault : EarlyFault
  place : Span
  deriving DecidableEq, Repr

/-! ## Surroundings -/

/-- What the rules take into account about the surroundings of a node. -/
structure Surroundings where
  strict : Bool := false
  /-- The labels around, each with whether it labels a loop. -/
  labels : List (String × Bool) := []
  inLoop : Bool := false
  inSwitch : Bool := false
  newTarget : Bool := false
  superProperty : Bool := false
  superCall : Bool := false
  /-- Whether `arguments` is refused. -/
  initializer : Bool := false
  /-- Whether `await` is refused. -/
  staticBlock : Bool := false
  inParameters : Bool := false
  /-- The private names of the classes around, if there are any. -/
  privateNames : Option (List String) := none

namespace Surroundings

/-- The surroundings without what a jump could lead to. -/
def withoutJumps (c : Surroundings) : Surroundings :=
  { c with labels := [], inLoop := false, inSwitch := false }

/-- The surroundings inside a function. -/
def inFunction (c : Surroundings) (form : FunctionForm) : Surroundings :=
  { c.withoutJumps with
    newTarget := true
    superProperty := form != .declaration && form != .expression
    superCall := form == .constructor true
    initializer := false
    staticBlock := false
    inParameters := false }

/-- The surroundings inside an initializer or a static block of a class. -/
def inClassCode (c : Surroundings) (staticBlock : Bool) : Surroundings :=
  { c.withoutJumps with
    newTarget := true
    superProperty := true
    superCall := false
    initializer := true
    staticBlock := staticBlock
    inParameters := false }

end Surroundings

/-- The name of a private element that a class element declares, with whether the class keeps it apart
from its instances, and its form. -/
def privateElement? (n : Node) : Option (String × Bool × FunctionForm) :=
  match n.kind, n.children.head?.map Node.kind with
  | .methodDefinition form isStatic _, some (.privateName name) => some (name, isStatic, form)
  | .fieldDefinition isStatic _, some (.privateName name) => some (name, isStatic, .method)
  | _, _ => none

/-- The private names that the elements of a class declare. -/
def declaredPrivateNames (elements : List Node) : List String :=
  elements.filterMap fun n => (privateElement? n).map (·.1)

/-- The statement behind all labels of a statement. -/
def Node.unlabeled : Node → Node
  | mk .labeled _ [_, body] => unlabeled body
  | n => n

/-- Whether a node is a loop. -/
def Node.isLoop (n : Node) : Bool :=
  match n.kind with
  | .forStatement => true
  | .forIn => true
  | .forOf _ => true
  | .whileStatement => true
  | .doWhile => true
  | _ => false

/-- The name of a label. -/
def Node.label? (n : Node) : Option String :=
  match n.kind with
  | .labelName name => some name
  | _ => none

/-- The label of a statement with whether it labels a loop. -/
def labelOf (children : List Node) : List (String × Bool) :=
  match children with
  | [l, body] => l.label?.toList.map fun name => (name, body.unlabeled.isLoop)
  | _ => []

/-- The surroundings of the children of a node. -/
def Surroundings.enter (c : Surroundings) (n : Node) : Surroundings :=
  let strict := strictInside c.strict n
  match n.kind with
  | .program => { c with strict }
  | .function form _ _ => { c.inFunction form with strict }
  | .arrowFunction isAsync =>
    { c.withoutJumps with strict, staticBlock := c.staticBlock && !isAsync }
  | .parameters _ => { c with inParameters := true }
  | .functionBody => { c with inParameters := false }
  | .classNode _ => { c with strict }
  | .classBody =>
    { c with privateNames := some (declaredPrivateNames n.children ++ c.privateNames.getD []) }
  | .fieldInitializer => c.inClassCode false
  | .staticBlock => c.inClassCode true
  | .forStatement => { c with inLoop := true }
  | .forIn => { c with inLoop := true }
  | .forOf _ => { c with inLoop := true }
  | .whileStatement => { c with inLoop := true }
  | .doWhile => { c with inLoop := true }
  | .switchStatement => { c with inSwitch := true }
  | .labeled => { c with labels := labelOf n.children ++ c.labels }
  | _ => c

/-! ## Rules -/

/-- One breach if a condition holds. -/
def breach (condition : Bool) (fault : EarlyFault) (place : Span) : List EarlyError :=
  if condition then [⟨fault, place⟩] else []

/-- Whether strict code keeps a name from being assigned to. -/
def isRestricted (name : String) : Bool := name == "eval" || name == "arguments"

/-- The rules on the name of a variable or label. -/
def nameErrors (c : Surroundings) (name : String) (place : Span) : List EarlyError :=
  if c.staticBlock && name == "await" then [⟨.reservedInStaticBlock, place⟩]
  else breach (c.strict && strictReservedWords.contains name) .reservedInStrict place

/-- The rules on a function declaration that is the body of a statement. Sloppy code may have one behind
a label and, if the flag says so, as the body itself. -/
def bodyFunctionErrors (allowed : Bool) (body : Node) : List EarlyError :=
  match body.unlabeled.kind with
  | .function .declaration _ _ =>
    breach (!allowed || body.kind == .labeled) .misplacedFunction body.span
  | _ => []

/-- The rules on the declaration of the variable of a loop over keys or values. -/
def loopVariableErrors (sloppyKeys : Bool) (target : Node) : List EarlyError :=
  match target with
  | .mk (.variableDeclaration word) s [d] =>
    match d.children with
    | [p, _] =>
      breach (!(sloppyKeys && word == .var && p.variableName?.isSome)) .initializedLoopVariable s
    | _ => []
  | .mk (.variableDeclaration _) s _ => [⟨.severalLoopVariables, s⟩]
  | _ => []

/-- Whether two private elements may share their name: a getter and a setter on the same side. -/
def sharesName (a b : String × Bool × FunctionForm) : Bool :=
  a.2.1 == b.2.1 &&
    ((a.2.2 == .getter && b.2.2 == .setter) || (a.2.2 == .setter && b.2.2 == .getter))

/-- The private elements that repeat the name of an earlier one. -/
def repeatedPrivate : List (String × Bool × FunctionForm) → List (String × Bool × FunctionForm) → Nat
  | _, [] => 0
  | earlier, e :: es =>
    (if earlier.any fun x => x.1 == e.1 && !sharesName x e then 1 else 0)
      + repeatedPrivate (e :: earlier) es

/-- Whether a class element is a constructor. -/
def isConstructor (n : Node) : Bool :=
  match n.kind with
  | .methodDefinition (.constructor _) _ _ => true
  | _ => false

/-- Whether a property of an object sets its prototype. -/
def isProto (n : Node) : Bool :=
  match n.kind, n.children.head?.map Node.kind with
  | .objectProperty .plain false false, some (.propertyName name) => name == "__proto__"
  | .objectProperty .plain false false, some (.stringLiteral name _) => name == "__proto__"
  | _, _ => false

/-- Whether an expression, without parentheses, is the access to a private element. -/
def isPrivateAccess (n : Node) : Bool :=
  match n.unparenthesized with
  | .mk .privateMember _ _ => true
  | .mk .chain _ [.mk .privateMember _ _] => true
  | _ => false

/-- Whether an operand may not stand before `**`. -/
def isUnaryOperand (n : Node) : Bool :=
  match n.kind with
  | .unary _ => true
  | .awaitExpression => true
  | _ => false

/-- Whether an operand may not stand beside `??`. -/
def isMixedOperand (n : Node) : Bool :=
  match n.kind with
  | .logical .and => true
  | .logical .or => true
  | _ => false

/-- The rules on a jump. -/
def jumpErrors (c : Surroundings) (isContinue : Bool) (n : Node) : List EarlyError :=
  match n.children.head?.bind Node.label? with
  | none =>
    if isContinue then breach (!c.inLoop) .continueOutside n.span
    else breach (!(c.inLoop || c.inSwitch)) .breakOutside n.span
  | some name =>
    match c.labels.find? (·.1 == name) with
    | none => [⟨.missingLabel, n.span⟩]
    | some (_, loop) => breach (isContinue && !loop) .continueOutside n.span

/-- The rules on a function as a whole: its parameters and its directives. -/
def functionErrors (form : FunctionForm) (n : Node) : List EarlyError :=
  let params := (n.children.filter Node.isParameters).flatMap Node.children
  breach (n.asksForStrict && !n.hasPlainParameters) .strictWithComplexParameters n.span
    ++ match form with
      | .getter => breach (!params.isEmpty) .accessorParameters n.span
      | .setter => breach (!(params.map Node.kind == [.parameter])) .accessorParameters n.span
      | _ => []

/-- The breaches of a node itself, in its surroundings. -/
def ownErrors (c : Surroundings) (n : Node) : List EarlyError :=
  let s := n.span
  match n.kind with
  | .reference name =>
    nameErrors c name s ++ breach (c.initializer && name == "arguments") .argumentsInInitializer s
  | .bindingName name =>
    nameErrors c name s ++ breach (c.strict && isRestricted name) .restrictedName s
  | .labelName name => nameErrors c name s
  | .privateName name =>
    breach (!(c.privateNames.any (·.contains name))) .undeclaredPrivateName s
  | .numericLiteral legacy => breach (legacy && c.strict) .legacyNumber s
  | .stringLiteral _ legacy => breach (legacy && c.strict) .legacyEscape s
  | .simpleTarget =>
    match n.children.head?.bind fun e => e.unparenthesized.variableName? with
    | some name => breach (c.strict && isRestricted name) .assignmentToRestricted s
    | none => []
  | .function form _ _ => functionErrors form n
  | .arrowFunction _ => functionErrors .expression n
  | .classBody =>
    List.replicate (repeatedPrivate [] (n.children.filterMap privateElement?))
        ⟨.duplicatePrivateName, s⟩
      ++ List.replicate ((n.children.filter isConstructor).length - 1) ⟨.duplicateConstructor, s⟩
  | .member => superProperty
  | .index => superProperty
  | .privateMember =>
    breach (n.children.head?.any (·.kind == .superKeyword)) .superPropertyOutside s
  | .call _ =>
    breach (n.children.head?.any (·.kind == .superKeyword) && !c.superCall) .superCallOutside s
  | .newTarget => breach (!c.newTarget) .newTargetOutside s
  | .importMeta => [⟨.moduleSyntax, s⟩]
  | .importDeclaration => [⟨.moduleSyntax, s⟩]
  | .exportDeclaration => [⟨.moduleSyntax, s⟩]
  | .ifStatement => n.children.tail.flatMap (bodyFunctionErrors (!c.strict))
  | .forStatement => lastBody
  | .forIn => lastBody ++ (n.children.take 1).flatMap (loopVariableErrors (!c.strict))
  | .forOf isAwait =>
    lastBody ++ (n.children.take 1).flatMap (loopVariableErrors false)
      ++ breach (isAwait && c.staticBlock) .awaitInStaticBlock s
  | .whileStatement => lastBody
  | .doWhile => (n.children.take 1).flatMap (bodyFunctionErrors false)
  | .withStatement => lastBody ++ breach c.strict .withInStrict s
  | .labeled =>
    (labelOf n.children).flatMap
        (fun l => breach (c.labels.any (·.1 == l.1)) .duplicateLabel s)
      ++ breach (c.strict && n.children.getLast?.any (·.kind matches .function _ _ _))
          .misplacedFunction s
  | .breakStatement => jumpErrors c false n
  | .continueStatement => jumpErrors c true n
  | .switchStatement =>
    List.replicate ((n.children.filter (·.kind == .switchCase true)).length - 1) ⟨.duplicateDefault, s⟩
  | .variableDeclaration .var => []
  | .variableDeclaration _ =>
    (n.boundNames.filter (·.1 == "let")).map fun x => ⟨.letAsName, x.2⟩
  | .unary .delete =>
    match n.children with
    | [e] =>
      breach (c.strict && e.unparenthesized.variableName?.isSome) .deletedName s
        ++ breach (isPrivateAccess e) .deletedPrivateName s
    | _ => []
  | .objectLiteral _ =>
    List.replicate ((n.children.filter isProto).length - 1) ⟨.duplicateProto, s⟩
  | .binary .power => breach (n.children.head?.any isUnaryOperand) .unaryBeforePower s
  | .logical .coalesce => breach (n.children.any isMixedOperand) .mixedCoalesce s
  | .logical _ =>
    breach (n.children.any (·.kind == .logical .coalesce)) .mixedCoalesce s
  | .yieldExpression => breach c.inParameters .yieldOrAwaitInParameters s
  | .awaitExpression =>
    breach c.inParameters .yieldOrAwaitInParameters s ++ breach c.staticBlock .awaitInStaticBlock s
  | _ => []
where
  lastBody : List EarlyError := n.children.getLast?.toList.flatMap (bodyFunctionErrors false)
  superProperty : List EarlyError :=
    breach (n.children.head?.any (·.kind == .superKeyword) && !c.superProperty) .superPropertyOutside
      n.span

/-! ## All breaches -/

mutual

/-- The breaches of a node and of everything in it. -/
def errorsIn (c : Surroundings) : Node → List EarlyError
  | .mk k s cs => ownErrors c (.mk k s cs) ++ errorsInAll (c.enter (.mk k s cs)) cs

/-- The breaches of a row of nodes. -/
def errorsInAll (c : Surroundings) : List Node → List EarlyError
  | [] => []
  | n :: ns => errorsIn c n ++ errorsInAll c ns

end

/-- All rules that a script breaks. -/
def earlyErrors (program : Node) : List EarlyError :=
  errorsIn {} program ++ (clashes program).map fun place => ⟨.clashingDeclaration, place⟩

end EditionCheck.Script
