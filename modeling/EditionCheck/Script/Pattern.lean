import EditionCheck.Script.Node

/-!
# Expressions read as patterns

An assignment and an arrow function begin like an expression: only the `=` or `=>` behind it shows that
it was a pattern. `Node.toTarget?` reads an expression again as the target of an assignment, and
`Node.toBinding?` as a pattern that declares names. Either gives nothing where the expression has no such
reading.
-/

set_option autoImplicit false

namespace EditionCheck.Script

open EditionCheck.Text

namespace Node

/-! ## Simple targets -/

/-- Whether an expression is a variable or a property, which a value can be stored in. -/
def isPlace (n : Node) : Bool :=
  match n.kind with
  | .reference _ => true
  | .member => true
  | .index => true
  | .privateMember => true
  | _ => false

/-- The target that a variable or property, with or without parentheses, makes. -/
def toSimpleTarget? (n : Node) : Option Node :=
  if n.unparenthesized.isPlace then some (mk .simpleTarget n.span [n]) else none

/-! ## Assignment targets -/

mutual

/-- Reads an expression as the target of an assignment. Inside a pattern, `a = b` is a target with a
default. -/
def toTarget? : Node → Option Node
  | mk (.arrayLiteral trailing) s es => (toArrayTargets? trailing es).map (mk .arrayTarget s)
  | mk (.objectLiteral trailing) s ps => (toPropertyTargets? trailing ps).map (mk .objectTarget s)
  | mk (.assignment .assign) s cs => some (mk .defaultedTarget s cs)
  | n => n.toSimpleTarget?

/-- Reads the elements of an array as targets. A spread element becomes the rest, and must come last,
without a comma behind it or a default. -/
def toArrayTargets? : Bool → List Node → Option (List Node)
  | _, [] => some []
  | trailing, mk .hole s cs :: es => (toArrayTargets? trailing es).map (mk .hole s cs :: ·)
  | trailing, mk .spreadElement s [e] :: es =>
    if trailing || !es.isEmpty || e.kind == .assignment .assign then none
    else (toTarget? e).map fun t => [mk .restTarget s [t]]
  | trailing, e :: es =>
    (toTarget? e).bind fun t => (toArrayTargets? trailing es).map (t :: ·)

/-- Reads the properties of an object as targets. A spread property becomes the rest, and must come
last, without a comma behind it; only a variable or property can take it. -/
def toPropertyTargets? : Bool → List Node → Option (List Node)
  | _, [] => some []
  | trailing, mk (.objectProperty .plain false computed) s [key, value] :: ps =>
    (toTarget? value).bind fun t =>
      (toPropertyTargets? trailing ps).map (mk (.targetProperty false computed) s [key, t] :: ·)
  | trailing, mk (.objectProperty .plain true computed) s [_, value] :: ps =>
    value.toSimpleTarget?.bind fun t =>
      (toPropertyTargets? trailing ps).map (mk (.targetProperty true computed) s [t] :: ·)
  | trailing, mk (.objectProperty .plain true computed) s [_, value, init] :: ps =>
    value.toSimpleTarget?.bind fun t =>
      (toPropertyTargets? trailing ps).map
        (mk (.targetProperty true computed) s [mk .defaultedTarget s [t, init]] :: ·)
  | trailing, mk .spreadProperty s [e] :: ps =>
    if trailing || !ps.isEmpty then none
    else e.toSimpleTarget?.map fun t => [mk .restTarget s [t]]
  | _, _ => none

end

/-! ## Binding patterns -/

/-- The declared name that a variable makes. -/
def toBindingName? : Node → Option Node
  | mk (.reference name) s _ => some (mk (.bindingName name) s [])
  | _ => none

mutual

/-- Reads an expression, or a target that one has been read as, as a pattern that declares names. -/
def toBinding? : Node → Option Node
  | mk (.reference name) s _ => some (mk (.bindingName name) s [])
  | mk .simpleTarget _ [e] => e.toBindingName?
  | mk (.arrayLiteral trailing) s es => (toArrayBindings? trailing es).map (mk .arrayPattern s)
  | mk .arrayTarget s es => (toArrayBindings? false es).map (mk .arrayPattern s)
  | mk (.objectLiteral trailing) s ps => (toPropertyBindings? trailing ps).map (mk .objectPattern s)
  | mk .objectTarget s ps => (toPropertyBindings? false ps).map (mk .objectPattern s)
  | mk (.assignment .assign) s [t, value] =>
    (toBinding? t).map fun p => mk .defaultedPattern s [p, value]
  | mk .defaultedTarget s [t, value] => (toBinding? t).map fun p => mk .defaultedPattern s [p, value]
  | _ => none

/-- Reads the elements of an array as patterns. -/
def toArrayBindings? : Bool → List Node → Option (List Node)
  | _, [] => some []
  | trailing, mk .hole s cs :: es => (toArrayBindings? trailing es).map (mk .hole s cs :: ·)
  | trailing, mk .spreadElement s [e] :: es =>
    if trailing || !es.isEmpty || e.kind == .assignment .assign then none
    else (toBinding? e).map fun p => [mk .restElement s [p]]
  | _, [mk .restTarget s [t]] => (toBinding? t).map fun p => [mk .restElement s [p]]
  | trailing, e :: es =>
    (toBinding? e).bind fun p => (toArrayBindings? trailing es).map (p :: ·)

/-- Reads the properties of an object as patterns. -/
def toPropertyBindings? : Bool → List Node → Option (List Node)
  | _, [] => some []
  | trailing, mk (.objectProperty .plain shorthand computed) s [key, value] :: ps =>
    (toBinding? value).bind fun p =>
      (toPropertyBindings? trailing ps).map (mk (.patternProperty shorthand computed) s [key, p] :: ·)
  | trailing, mk (.objectProperty .plain true computed) s [key, value, init] :: ps =>
    value.toBindingName?.bind fun p =>
      (toPropertyBindings? trailing ps).map
        (mk (.patternProperty true computed) s [key, mk .defaultedPattern s [p, init]] :: ·)
  | trailing, mk (.targetProperty false computed) s [key, t] :: ps =>
    (toBinding? t).bind fun p =>
      (toPropertyBindings? trailing ps).map (mk (.patternProperty false computed) s [key, p] :: ·)
  | trailing, mk (.targetProperty true computed) s [t] :: ps =>
    (toBinding? t).bind fun p =>
      (toPropertyBindings? trailing ps).map (mk (.patternProperty true computed) s [p] :: ·)
  | trailing, mk .spreadProperty s [e] :: ps =>
    if trailing || !ps.isEmpty then none
    else e.toBindingName?.map fun p => [mk .restElement s [p]]
  | _, [mk .restTarget s [mk .simpleTarget _ [e]]] =>
    e.toBindingName?.map fun p => [mk .restElement s [p]]
  | _, _ => none

end

/-! ## Properties with a default -/

/-- Whether a node is a property of an object with a default, which only a pattern can have. -/
def isDefaulted : Node → Bool
  | mk (.objectProperty .plain true _) _ [_, _, _] => true
  | _ => false

/-- The offsets of the properties with a default in a row of trees. -/
def defaultOffsets (ns : List Node) : List Nat :=
  ((preorderAll ns).filter isDefaulted).map (·.span.start)

/-! ## Parameters of arrow functions -/

/-- Reads the items between the parentheses before an arrow as parameters. A rest element has been read
as a pattern already; a spread argument, which stands in its place behind `async`, becomes one. -/
def toParameters? : Bool → List Node → Option (List Node)
  | _, [] => some []
  | _, [mk .restElement s cs] => some [mk .restElement s cs]
  | trailing, [mk .spreadElement s [e]] =>
    if trailing || e.kind == .assignment .assign then none
    else e.toBinding?.map fun p => [mk .restElement s [p]]
  | trailing, e :: es =>
    e.toBinding?.bind fun p =>
      (toParameters? trailing es).map (mk .parameter p.span [p] :: ·)

mutual

/-- Whether a variable of a given name is declared or referred to, outside of nested functions that are
no arrow functions. -/
def mentions (name : String) : Node → Bool
  | mk (.function _ _ _) _ _ => false
  | mk k s cs => (mk k s []).variableName? == some name || mentionedIn name cs

/-- Whether one of a row of nodes mentions a variable. -/
def mentionedIn (name : String) : List Node → Bool
  | [] => false
  | n :: ns => mentions name n || mentionedIn name ns

end

end Node

end EditionCheck.Script
