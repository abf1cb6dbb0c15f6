import EditionCheck.Scan.Literal
import EditionCheck.Script.Node
import EditionCheck.Text.Blank

/-!
# Requirements of a script

Each node of a script requires some features, at the places where they are written. The requirements of
a script are those of its nodes, a parent before its children and the children in source order. They do
not depend on the edition that the script is checked against.
-/

set_option autoImplicit false

namespace EditionCheck.Scan

open EditionCheck.Text EditionCheck.Script

/-- A feature that a script uses, and where. -/
structure Requirement where
  feature : Feature
  span : Span
  deriving DecidableEq, Repr

/-- The requirements of several features at one place. -/
def requireAt (span : Span) (features : List Feature) : List Requirement :=
  features.map fun f => ⟨f, span⟩

/-! ## Trailing commas -/

/-- Whether a comma is the first thing, blanks apart, in a text. -/
def beginsWithComma (text : List Char) : Bool := (trimStart text).head? == some ','

/-- The requirement of the comma behind the last item of a list that ends where `close` ends. The comma
is seen only if nothing but blanks precedes it. -/
def commaBehind (source : List Char) (feature : Feature) (last : Option Span) (close : Span) :
    List Requirement :=
  match last with
  | none => []
  | some last =>
    let tail : Span := ⟨last.stop, close.stop⟩
    if last.stop < close.stop && beginsWithComma (tail.slice source) then [⟨feature, tail⟩] else []

/-! ## Requirements of one node -/

/-- The feature of a function. -/
def functionFeatures : Bool → Bool → List Feature
  | true, true => [.asyncGenerator]
  | true, false => [.asyncFunction]
  | false, true => [.generator]
  | false, false => []

/-- The features of a property of an object. -/
def propertyFeatures (form : PropertyForm) (shorthand computed : Bool) : List Feature :=
  (if form == .getter || form == .setter then [.accessorProperty] else [])
    ++ (if form == .method || shorthand || computed then [.propertyShorthand] else [])

/-- The features of the operator of an assignment. -/
def assignmentFeatures : AssignmentOperator → List Feature
  | .power => [.exponentiation]
  | .logical => [.logicalAssignment]
  | _ => []

/-- Whether the last part of a pattern is a rest of a given kind. -/
def endsWith (kind : Kind) (parts : List Node) : Bool := parts.getLast?.any (·.kind == kind)

/-- The requirements of the pattern that a value is assigned to. -/
def targetRequirements (span : Span) (target : Option Node) : List Requirement :=
  match target with
  | some (.mk .arrayTarget _ _) => [⟨.destructuring, span⟩]
  | some (.mk .objectTarget s parts) =>
    ⟨.destructuring, span⟩ :: (if endsWith .restTarget parts then [⟨.objectRestSpread, s⟩] else [])
  | _ => []

/-- The requirements of a node itself, without those of its children. -/
def ownRequirements (source : List Char) (n : Node) : List Requirement :=
  let s := n.span
  let raw := s.slice source
  match n.kind with
  | .program => if ['#', '!'].isPrefixOf source then [⟨.hashbang, ⟨0, 2⟩⟩] else []
  | .reference _ => requireAt s (escapeFeatures raw)
  | .bindingName _ => requireAt s (escapeFeatures raw)
  | .propertyName _ => requireAt s (escapeFeatures raw)
  | .privateName _ => [⟨.privateName, s⟩]
  | .stringLiteral _ _ => requireAt s (escapeFeatures raw)
  | .numericLiteral _ => requireAt s (numberFeatures raw)
  | .bigIntLiteral => [⟨.bigInt, s⟩]
  | .regExpLiteral => requireAt s (regExpFeatures raw)
  | .templateLiteral => [⟨.templateLiteral, s⟩]
  | .superKeyword => [⟨.superKeyword, s⟩]
  | .spreadElement => [⟨.spread, s⟩]
  | .spreadProperty => [⟨.spread, s⟩]
  | .objectLiteral _ =>
    (n.children.filter (·.kind == .spreadProperty)).map (fun p => ⟨.objectRestSpread, p.span⟩)
      ++ commaBehind source .objectTrailingComma (n.children.getLast?.map Node.span) s
  | .objectProperty form shorthand computed => requireAt s (propertyFeatures form shorthand computed)
  | .function _ isAsync isGenerator => requireAt s (functionFeatures isAsync isGenerator)
  | .arrowFunction isAsync => requireAt s (.arrowFunction :: (if isAsync then [.asyncFunction] else []))
  | .classNode _ => [⟨.classSyntax, s⟩]
  | .call _ =>
    commaBehind source .functionTrailingComma (n.children.tail.getLast?.map Node.span) s
  | .newCall _ =>
    commaBehind source .functionTrailingComma (n.children.tail.getLast?.map Node.span) s
  | .parameters _ =>
    if endsWith .restElement n.children then []
    else commaBehind source .functionTrailingComma (n.children.getLast?.map Node.span) s
  | .taggedTemplate => [⟨.taggedTemplate, s⟩]
  | .importCall => [⟨.dynamicImport, s⟩]
  | .importMeta => [⟨.importMeta, s⟩]
  | .newTarget => [⟨.newTarget, s⟩]
  | .chain => [⟨.optionalChaining, s⟩]
  | .binary .power => [⟨.exponentiation, s⟩]
  | .logical .coalesce => [⟨.nullishCoalescing, s⟩]
  | .assignment op => requireAt s (assignmentFeatures op) ++ targetRequirements s n.children.head?
  | .yieldExpression => [⟨.generator, s⟩]
  | .awaitExpression => [⟨.awaitExpression, s⟩]
  | .objectPattern =>
    ⟨.destructuring, s⟩ ::
      ((n.children.getLast?.filter (·.kind == .restElement)).toList.map
        fun r => ⟨.objectRestSpread, r.span⟩)
  | .arrayPattern => [⟨.destructuring, s⟩]
  | .defaultedPattern => [⟨.defaultParameter, s⟩]
  | .restElement => [⟨.rest, s⟩]
  | .fieldDefinition _ _ => [⟨.classFields, s⟩]
  | .staticBlock => [⟨.staticBlock, s⟩]
  | .variableDeclaration .let => [⟨.blockBinding, s⟩]
  | .variableDeclaration .const => [⟨.blockBinding, s⟩]
  | .forOf isAwait => [⟨if isAwait then .forAwait else .forOf, s⟩]
  | .catchClause hasParameter => if hasParameter then [] else [⟨.optionalCatchBinding, s⟩]
  | .importDeclaration => [⟨.moduleSyntax, s⟩]
  | .exportDeclaration => [⟨.moduleSyntax, s⟩]
  | _ => []

/-! ## Requirements of a script -/

/-- All requirements of a script, in the order in which its nodes stand. -/
def requirements (source : List Char) (program : Node) : List Requirement :=
  program.preorder.flatMap (ownRequirements source)

end EditionCheck.Scan
