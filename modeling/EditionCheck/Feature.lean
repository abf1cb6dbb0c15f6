import EditionCheck.Edition

/-!
# Features

The syntax constructs that not every edition has, the edition that introduced each, and the names under
which they are reported.
-/

set_option autoImplicit false

namespace EditionCheck

/-- A syntax construct that is not available in every edition. -/
inductive Feature where
  /-- A `get` or `set` property of an object literal. -/
  | accessorProperty
  /-- A comma after the last property of an object literal. -/
  | objectTrailingComma
  /-- A `let` or `const` declaration. -/
  | blockBinding
  /-- A `\u` escape with braces in a string or a name. -/
  | codePointEscape
  /-- A function written with `=>`. -/
  | arrowFunction
  /-- A class declaration or expression. -/
  | classSyntax
  /-- The keyword `super`. -/
  | superKeyword
  /-- Text between back quotes. -/
  | templateLiteral
  /-- A template literal with a function in front. -/
  | taggedTemplate
  /-- The form `...` before an argument or an array element. -/
  | spread
  /-- The form `...` before the last binding of a parameter list or pattern. -/
  | rest
  /-- An array or object pattern. -/
  | destructuring
  /-- A default value in a parameter list or pattern. -/
  | defaultParameter
  /-- A generator function or a `yield`. -/
  | generator
  /-- A loop over the values of an iterable. -/
  | forOf
  /-- A method, a shorthand or a computed property of an object literal. -/
  | propertyShorthand
  /-- The form `new.target`. -/
  | newTarget
  /-- A number that begins with `0b` or `0o`. -/
  | binaryOctalLiteral
  /-- The flags `u` and `y` of a regular expression. -/
  | stickyUnicodeRegExp
  /-- An import or export declaration. -/
  | moduleSyntax
  /-- The operators `**` and `**=`. -/
  | exponentiation
  /-- An `async` function that is no generator. -/
  | asyncFunction
  /-- An `await` expression. -/
  | awaitExpression
  /-- A comma after the last argument or parameter. -/
  | functionTrailingComma
  /-- An `async` generator function. -/
  | asyncGenerator
  /-- A `for await` loop. -/
  | forAwait
  /-- The form `...` in an object literal or object pattern. -/
  | objectRestSpread
  /-- The flag `s` of a regular expression. -/
  | dotAllRegExp
  /-- A named group in a regular expression. -/
  | regExpNamedGroup
  /-- A lookbehind in a regular expression. -/
  | regExpLookbehind
  /-- A Unicode property escape in a regular expression. -/
  | regExpPropertyEscape
  /-- A `catch` clause without a parameter. -/
  | optionalCatchBinding
  /-- A chain with `?.` in it. -/
  | optionalChaining
  /-- The operator `??`. -/
  | nullishCoalescing
  /-- An integer literal that ends in `n`. -/
  | bigInt
  /-- The form `import` used as a function. -/
  | dynamicImport
  /-- The form `import.meta`. -/
  | importMeta
  /-- The operators `&&=`, `||=` and `??=`. -/
  | logicalAssignment
  /-- An underscore between digits. -/
  | numericSeparator
  /-- A field of a class. -/
  | classFields
  /-- A name that begins with `#`. -/
  | privateName
  /-- A static block of a class. -/
  | staticBlock
  /-- The flag `d` of a regular expression. -/
  | regExpIndices
  /-- The form `#!` at the start of the file. -/
  | hashbang
  /-- The flag `v` of a regular expression. -/
  | regExpUnicodeSets
  deriving DecidableEq, Repr

namespace Feature

/-- All features. -/
def all : List Feature :=
  [accessorProperty, objectTrailingComma, blockBinding, codePointEscape, arrowFunction,
   classSyntax, superKeyword, templateLiteral, taggedTemplate, spread, rest, destructuring,
   defaultParameter, generator, forOf, propertyShorthand, newTarget, binaryOctalLiteral,
   stickyUnicodeRegExp, moduleSyntax, exponentiation, asyncFunction, awaitExpression,
   functionTrailingComma, asyncGenerator, forAwait, objectRestSpread, dotAllRegExp,
   regExpNamedGroup, regExpLookbehind, regExpPropertyEscape, optionalCatchBinding,
   optionalChaining, nullishCoalescing, bigInt, dynamicImport, importMeta, logicalAssignment,
   numericSeparator, classFields, privateName, staticBlock, regExpIndices, hashbang,
   regExpUnicodeSets]

/-- The edition that introduced a construct. -/
def edition : Feature → Edition
  | accessorProperty => .es5
  | objectTrailingComma => .es5
  | blockBinding => .es2015
  | codePointEscape => .es2015
  | arrowFunction => .es2015
  | classSyntax => .es2015
  | superKeyword => .es2015
  | templateLiteral => .es2015
  | taggedTemplate => .es2015
  | spread => .es2015
  | rest => .es2015
  | destructuring => .es2015
  | defaultParameter => .es2015
  | generator => .es2015
  | forOf => .es2015
  | propertyShorthand => .es2015
  | newTarget => .es2015
  | binaryOctalLiteral => .es2015
  | stickyUnicodeRegExp => .es2015
  | moduleSyntax => .es2015
  | exponentiation => .es2016
  | asyncFunction => .es2017
  | awaitExpression => .es2017
  | functionTrailingComma => .es2017
  | asyncGenerator => .es2018
  | forAwait => .es2018
  | objectRestSpread => .es2018
  | dotAllRegExp => .es2018
  | regExpNamedGroup => .es2018
  | regExpLookbehind => .es2018
  | regExpPropertyEscape => .es2018
  | optionalCatchBinding => .es2019
  | optionalChaining => .es2020
  | nullishCoalescing => .es2020
  | bigInt => .es2020
  | dynamicImport => .es2020
  | importMeta => .es2020
  | logicalAssignment => .es2021
  | numericSeparator => .es2021
  | classFields => .es2022
  | privateName => .es2022
  | staticBlock => .es2022
  | regExpIndices => .es2022
  | hashbang => .es2023
  | regExpUnicodeSets => .es2024

/-- The words that describe a construct. -/
def description : Feature → String
  | accessorProperty => "getter/setter property"
  | objectTrailingComma => "trailing comma in object literal"
  | blockBinding => "let/const declaration"
  | codePointEscape => "unicode code point escape"
  | arrowFunction => "arrow function"
  | classSyntax => "class"
  | superKeyword => "super"
  | templateLiteral => "template literal"
  | taggedTemplate => "tagged template"
  | spread => "spread element"
  | rest => "rest element"
  | destructuring => "destructuring pattern"
  | defaultParameter => "default value"
  | generator => "generator"
  | forOf => "for-of loop"
  | propertyShorthand => "method, shorthand or computed property"
  | newTarget => "new.target"
  | binaryOctalLiteral => "binary or octal literal"
  | stickyUnicodeRegExp => "regexp u/y flag"
  | moduleSyntax => "module declaration"
  | exponentiation => "exponentiation operator"
  | asyncFunction => "async function"
  | awaitExpression => "await"
  | functionTrailingComma => "trailing comma in arguments or parameters"
  | asyncGenerator => "async generator"
  | forAwait => "for-await loop"
  | objectRestSpread => "object rest/spread"
  | dotAllRegExp => "regexp s flag"
  | regExpNamedGroup => "regexp named group"
  | regExpLookbehind => "regexp lookbehind"
  | regExpPropertyEscape => "regexp property escape"
  | optionalCatchBinding => "optional catch binding"
  | optionalChaining => "optional chaining"
  | nullishCoalescing => "nullish coalescing"
  | bigInt => "bigint literal"
  | dynamicImport => "dynamic import"
  | importMeta => "import.meta"
  | logicalAssignment => "logical assignment"
  | numericSeparator => "numeric separator"
  | classFields => "class field"
  | privateName => "private name"
  | staticBlock => "class static block"
  | regExpIndices => "regexp d flag"
  | hashbang => "hashbang comment"
  | regExpUnicodeSets => "regexp v flag"

/-- The name that identifies a construct in verdicts. -/
def name : Feature → String
  | accessorProperty => "AccessorProperty"
  | objectTrailingComma => "ObjectTrailingComma"
  | blockBinding => "BlockBinding"
  | codePointEscape => "CodePointEscape"
  | arrowFunction => "ArrowFunction"
  | classSyntax => "Class"
  | superKeyword => "Super"
  | templateLiteral => "TemplateLiteral"
  | taggedTemplate => "TaggedTemplate"
  | spread => "Spread"
  | rest => "Rest"
  | destructuring => "Destructuring"
  | defaultParameter => "DefaultParameter"
  | generator => "Generator"
  | forOf => "ForOf"
  | propertyShorthand => "PropertyShorthand"
  | newTarget => "NewTarget"
  | binaryOctalLiteral => "BinaryOctalLiteral"
  | stickyUnicodeRegExp => "StickyUnicodeRegExp"
  | moduleSyntax => "Module"
  | exponentiation => "Exponentiation"
  | asyncFunction => "AsyncFunction"
  | awaitExpression => "Await"
  | functionTrailingComma => "FunctionTrailingComma"
  | asyncGenerator => "AsyncGenerator"
  | forAwait => "ForAwait"
  | objectRestSpread => "ObjectRestSpread"
  | dotAllRegExp => "DotAllRegExp"
  | regExpNamedGroup => "RegExpNamedGroup"
  | regExpLookbehind => "RegExpLookbehind"
  | regExpPropertyEscape => "RegExpPropertyEscape"
  | optionalCatchBinding => "OptionalCatchBinding"
  | optionalChaining => "OptionalChaining"
  | nullishCoalescing => "NullishCoalescing"
  | bigInt => "BigInt"
  | dynamicImport => "DynamicImport"
  | importMeta => "ImportMeta"
  | logicalAssignment => "LogicalAssignment"
  | numericSeparator => "NumericSeparator"
  | classFields => "ClassFields"
  | privateName => "PrivateName"
  | staticBlock => "StaticBlock"
  | regExpIndices => "RegExpIndices"
  | hashbang => "Hashbang"
  | regExpUnicodeSets => "RegExpUnicodeSets"

/-- The feature with a given name. -/
def ofName? (s : String) : Option Feature := all.find? (·.name == s)

/-- A construct in words, followed by its edition. -/
def label (f : Feature) : String := f.description ++ " (" ++ f.edition.name ++ ")"

end Feature

end EditionCheck
