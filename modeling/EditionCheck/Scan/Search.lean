import EditionCheck.Scan.Requirement

/-!
# Looking for newer syntax

Walks a script and keeps the first construct that is newer than a target edition. The walk enters every
node, a parent before its children; entering a node raises the features that the node uses. What has
been found is never replaced, and a feature that the target has leaves no trace.
-/

set_option autoImplicit false

namespace EditionCheck.Scan

open EditionCheck.Text EditionCheck.Script

/-- A walk over a script: the edition it is checked against, and what has been found. -/
structure Search where
  target : Edition
  found : Option Requirement := none
  deriving DecidableEq, Repr

namespace Search

/-- Notes a requirement, unless the target has the feature or something was noted before. -/
def consider (s : Search) (r : Requirement) : Search :=
  if s.found.isNone && decide (s.target < r.feature.edition) then { s with found := some r } else s

/-- Raises a feature that is used at a place. -/
def raise (feature : Feature) (span : Span) (s : Search) : Search := s.consider ⟨feature, span⟩

/-- Raises a feature if a condition holds. -/
def raiseIf (condition : Bool) (feature : Feature) (span : Span) (s : Search) : Search :=
  if condition then s.raise feature span else s

/-! ## Literals and lists -/

/-- Enters a number. -/
def enterNumber (raw : List Char) (span : Span) (s : Search) : Search :=
  let s := s.raiseIf (isBinaryOrOctal raw) .binaryOctalLiteral span
  s.raiseIf (raw.contains '_') .numericSeparator span

/-- Enters a name or a string. -/
def enterName (raw : List Char) (span : Span) (s : Search) : Search :=
  s.raiseIf (spellsCodePoint raw) .codePointEscape span

/-- Raises a feature, if there is one. -/
def raiseAny (feature : Option Feature) (span : Span) (s : Search) : Search :=
  match feature with
  | some feature => s.raise feature span
  | none => s

/-- Enters a regular expression: its body, then its flags one by one. -/
def enterRegExp (raw : List Char) (span : Span) (s : Search) : Search :=
  let (body, flags) := splitAtLastSlash raw
  let s := s.raiseAny (bodyFeature false (dropSlash body)) span
  flags.foldl (fun s flag => s.raiseAny (flagFeature flag) span) s

/-- Enters the end of a list that ends where `close` ends, behind the last of its items. -/
def enterListEnd (source : List Char) (feature : Feature) (last : Option Node) (close : Span)
    (s : Search) : Search :=
  match last with
  | none => s
  | some last =>
    if close.stop ≤ last.span.stop then s
    else
      let tail : Span := ⟨last.span.stop, close.stop⟩
      s.raiseIf (beginsWithComma (tail.slice source)) feature tail

/-- Enters the target of an assignment with a given span. -/
def enterTarget (span : Span) (target : Option Node) (s : Search) : Search :=
  match target with
  | some (.mk .arrayTarget _ _) => s.raise .destructuring span
  | some (.mk .objectTarget inner parts) =>
    let s := s.raise .destructuring span
    s.raiseIf (endsWith .restTarget parts) .objectRestSpread inner
  | _ => s

/-! ## Nodes -/

/-- Enters a node: raises the features that it uses itself. -/
def enter (source : List Char) (s : Search) (n : Node) : Search :=
  let span := n.span
  let raw := span.slice source
  match n.kind with
  | .program => s.raiseIf (['#', '!'].isPrefixOf source) .hashbang ⟨0, 2⟩
  | .reference _ => s.enterName raw span
  | .bindingName _ => s.enterName raw span
  | .propertyName _ => s.enterName raw span
  | .privateName _ => s.raise .privateName span
  | .stringLiteral _ _ => s.enterName raw span
  | .numericLiteral _ => s.enterNumber raw span
  | .bigIntLiteral => s.raise .bigInt span
  | .regExpLiteral => s.enterRegExp raw span
  | .templateLiteral => s.raise .templateLiteral span
  | .superKeyword => s.raise .superKeyword span
  | .spreadElement => s.raise .spread span
  | .spreadProperty => s.raise .spread span
  | .objectLiteral _ =>
    let s := n.children.foldl (fun s property =>
      s.raiseIf (property.kind == .spreadProperty) .objectRestSpread property.span) s
    s.enterListEnd source .objectTrailingComma n.children.getLast? span
  | .objectProperty form shorthand computed =>
    let s := s.raiseIf (form == .getter || form == .setter) .accessorProperty span
    s.raiseIf (form == .method || shorthand || computed) .propertyShorthand span
  | .function _ true true => s.raise .asyncGenerator span
  | .function _ true false => s.raise .asyncFunction span
  | .function _ false true => s.raise .generator span
  | .arrowFunction isAsync =>
    let s := s.raise .arrowFunction span
    s.raiseIf isAsync .asyncFunction span
  | .classNode _ => s.raise .classSyntax span
  | .call _ => s.enterListEnd source .functionTrailingComma n.children.tail.getLast? span
  | .newCall _ => s.enterListEnd source .functionTrailingComma n.children.tail.getLast? span
  | .parameters _ =>
    if endsWith .restElement n.children then s
    else s.enterListEnd source .functionTrailingComma n.children.getLast? span
  | .taggedTemplate => s.raise .taggedTemplate span
  | .importCall => s.raise .dynamicImport span
  | .importMeta => s.raise .importMeta span
  | .newTarget => s.raise .newTarget span
  | .chain => s.raise .optionalChaining span
  | .binary .power => s.raise .exponentiation span
  | .logical .coalesce => s.raise .nullishCoalescing span
  | .assignment op =>
    let s :=
      match op with
      | .power => s.raise .exponentiation span
      | .logical => s.raise .logicalAssignment span
      | _ => s
    s.enterTarget span n.children.head?
  | .yieldExpression => s.raise .generator span
  | .awaitExpression => s.raise .awaitExpression span
  | .objectPattern =>
    let s := s.raise .destructuring span
    match n.children.getLast? with
    | some rest => s.raiseIf (rest.kind == .restElement) .objectRestSpread rest.span
    | none => s
  | .arrayPattern => s.raise .destructuring span
  | .defaultedPattern => s.raise .defaultParameter span
  | .restElement => s.raise .rest span
  | .fieldDefinition _ _ => s.raise .classFields span
  | .staticBlock => s.raise .staticBlock span
  | .variableDeclaration .let => s.raise .blockBinding span
  | .variableDeclaration .const => s.raise .blockBinding span
  | .forOf true => s.raise .forAwait span
  | .forOf false => s.raise .forOf span
  | .catchClause hasParameter => s.raiseIf (!hasParameter) .optionalCatchBinding span
  | .importDeclaration => s.raise .moduleSyntax span
  | .exportDeclaration => s.raise .moduleSyntax span
  | _ => s

/-! ## The walk -/

mutual

/-- Walks a node and everything in it. -/
def walk (source : List Char) (s : Search) : Node → Search
  | .mk kind span children => walkAll source (s.enter source (.mk kind span children)) children

/-- Walks a row of nodes in turn. -/
def walkAll (source : List Char) (s : Search) : List Node → Search
  | [] => s
  | n :: ns => walkAll source (walk source s n) ns

end

end Search

/-- The first construct of a script that a target edition does not have. -/
def firstNewer (source : List Char) (target : Edition) (program : Node) : Option Requirement :=
  (Search.walk source { target } program).found

end EditionCheck.Scan
