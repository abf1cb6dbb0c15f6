import EditionCheck.Text.Span

/-!
# Syntax trees

A script is a tree of nodes. A node has a kind, the span of its own text, and its children in the order
in which they stand in the source. The kinds follow the grammar: a name that refers to a variable, one
that declares it, one that labels a statement and one that names a property are different kinds, and
parentheses around an expression are a node of their own.

Main statements: `Node.mem_preorder_iff` — the nodes of a tree are its root and the nodes of its
children —, `Node.preorder_eq`.
-/

set_option autoImplicit false

namespace EditionCheck.Script

open EditionCheck.Text

/-! ## Kinds -/

/-- The keyword of a variable declaration. -/
inductive DeclarationWord where
  | var
  | let
  | const
  deriving DecidableEq, Repr

/-- What a function is written as. -/
inductive FunctionForm where
  | declaration
  | expression
  /-- The function of a method. -/
  | method
  | getter
  | setter
  /-- The constructor of a class, and whether the class extends another. -/
  | constructor (derived : Bool)
  deriving DecidableEq, Repr

/-- How a property of an object literal is written. -/
inductive PropertyForm where
  /-- A name and a value, or a name alone. -/
  | plain
  | method
  | getter
  | setter
  deriving DecidableEq, Repr

/-- The operators of two operands. -/
inductive BinaryOperator where
  | equal
  | notEqual
  | strictEqual
  | strictNotEqual
  | less
  | lessEqual
  | greater
  | greaterEqual
  | shiftLeft
  | shiftRight
  | shiftRightZero
  | plus
  | minus
  | times
  | divide
  | remainder
  | power
  | bitOr
  | bitXor
  | bitAnd
  | inOperator
  | instanceOf
  deriving DecidableEq, Repr

/-- The operators that may leave their right side alone. -/
inductive LogicalOperator where
  | and
  | or
  | coalesce
  deriving DecidableEq, Repr

/-- The operators before an operand. -/
inductive UnaryOperator where
  | minus
  | plus
  | not
  | complement
  | typeOf
  | void
  | delete
  deriving DecidableEq, Repr

/-- The operators of an assignment. -/
inductive AssignmentOperator where
  | assign
  | arithmetic
  | power
  | logical
  deriving DecidableEq, Repr

/-- What a node of a syntax tree is. -/
inductive Kind where
  | program
  /-- A string that stands alone as a statement at the start of a body, with its text as written. -/
  | directive (raw : String)
  -- Names
  | reference (name : String)
  | bindingName (name : String)
  | propertyName (name : String)
  | labelName (name : String)
  | privateName (name : String)
  -- Literals
  | nullLiteral
  | booleanLiteral
  | numericLiteral (legacy : Bool)
  | bigIntLiteral
  | stringLiteral (value : String) (legacy : Bool)
  | regExpLiteral
  | templateLiteral
  -- Expressions
  | thisExpression
  | superKeyword
  | arrayLiteral (trailingComma : Bool)
  | hole
  | spreadElement
  | objectLiteral (trailingComma : Bool)
  | objectProperty (form : PropertyForm) (shorthand computed : Bool)
  | spreadProperty
  | parenthesized
  | function (form : FunctionForm) (isAsync isGenerator : Bool)
  | arrowFunction (isAsync : Bool)
  | classNode (isDeclaration : Bool)
  | member
  | index
  | privateMember
  | call (trailingComma : Bool)
  | newCall (trailingComma : Bool)
  | taggedTemplate
  | importCall
  | importMeta
  | newTarget
  | chain
  | unary (op : UnaryOperator)
  | update
  | binary (op : BinaryOperator)
  | logical (op : LogicalOperator)
  | privateIn
  | conditional
  | assignment (op : AssignmentOperator)
  | sequence
  | yieldExpression
  | awaitExpression
  -- Patterns
  | objectPattern
  | patternProperty (shorthand computed : Bool)
  | arrayPattern
  | defaultedPattern
  | restElement
  | objectTarget
  | targetProperty (shorthand computed : Bool)
  | arrayTarget
  | defaultedTarget
  | restTarget
  /-- An expression that is assigned to. -/
  | simpleTarget
  -- Parts of functions and classes
  | parameters (trailingComma : Bool)
  | parameter
  | functionBody
  | classHeritage
  | classBody
  | methodDefinition (form : FunctionForm) (isStatic computed : Bool)
  | fieldDefinition (isStatic computed : Bool)
  | fieldInitializer
  | staticBlock
  -- Statements
  | block
  | emptyStatement
  | expressionStatement
  | variableDeclaration (word : DeclarationWord)
  | declarator
  | ifStatement
  | forStatement
  | forIn
  | forOf (isAwait : Bool)
  | whileStatement
  | doWhile
  | continueStatement
  | breakStatement
  | returnStatement
  | withStatement
  | switchStatement
  | switchCase (isDefault : Bool)
  | labeled
  | throwStatement
  | tryStatement
  | catchClause (hasParameter : Bool)
  | debuggerStatement
  -- Modules
  | importDeclaration
  | exportDeclaration
  | moduleSpecifier
  deriving DecidableEq, Repr, Inhabited

/-! ## Nodes -/

/-- A node of a syntax tree. -/
inductive Node where
  | mk (kind : Kind) (span : Span) (children : List Node)
  deriving Repr, Inhabited

namespace Node

/-- What a node is. -/
def kind : Node → Kind
  | mk k _ _ => k

/-- The text that a node covers. -/
def span : Node → Span
  | mk _ s _ => s

/-- The parts of a node in source order. -/
def children : Node → List Node
  | mk _ _ cs => cs

@[simp] theorem kind_mk (k : Kind) (s : Span) (cs : List Node) : (mk k s cs).kind = k := rfl

@[simp] theorem span_mk (k : Kind) (s : Span) (cs : List Node) : (mk k s cs).span = s := rfl

@[simp] theorem children_mk (k : Kind) (s : Span) (cs : List Node) : (mk k s cs).children = cs := rfl

/-! ## All nodes of a tree -/

mutual

/-- All nodes of a tree: a parent before its children, and the children in source order. -/
def preorder : Node → List Node
  | mk k s cs => mk k s cs :: preorderAll cs

/-- All nodes of a row of trees. -/
def preorderAll : List Node → List Node
  | [] => []
  | n :: ns => preorder n ++ preorderAll ns

end

theorem preorderAll_eq (ns : List Node) : preorderAll ns = ns.flatMap preorder := by
  induction ns with
  | nil => simp [preorderAll]
  | cons n ns ih => simp [preorderAll, ih]

theorem preorder_eq (n : Node) : n.preorder = n :: n.children.flatMap preorder := by
  cases n with
  | mk k s cs => simp [preorder, preorderAll_eq]

theorem mem_preorder_iff {m n : Node} : m ∈ n.preorder ↔ m = n ∨ ∃ c ∈ n.children, m ∈ c.preorder := by
  rw [preorder_eq]
  simp

theorem self_mem_preorder (n : Node) : n ∈ n.preorder := mem_preorder_iff.2 (.inl rfl)

/-- What holds of a node if it holds of its children holds of every node. -/
@[elab_as_elim, induction_eliminator]
theorem induction {motive : Node → Prop}
    (mk : ∀ kind span children, (∀ c ∈ children, motive c) → motive (mk kind span children)) :
    (n : Node) → motive n
  | .mk kind span children => mk kind span children fun c _ => induction mk c

/-- The nodes of a node of a tree are nodes of the tree. -/
theorem mem_preorder_trans {m n p : Node} (hm : m ∈ n.preorder) (hn : n ∈ p.preorder) :
    m ∈ p.preorder := by
  induction p with
  | mk kind span children ih =>
    rcases mem_preorder_iff.1 hn with rfl | ⟨c, hc, hnc⟩
    · exact hm
    · exact mem_preorder_iff.2 (.inr ⟨c, hc, ih c hc hnc⟩)

/-- An expression without the parentheses around it. -/
def unparenthesized : Node → Node
  | mk .parenthesized _ [e] => unparenthesized e
  | n => n

/-- The name of a node that is a variable, declared or referred to. -/
def variableName? (n : Node) : Option String :=
  match n.kind with
  | .reference name => some name
  | .bindingName name => some name
  | _ => none

end Node

end EditionCheck.Script
