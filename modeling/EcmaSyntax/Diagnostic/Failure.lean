import EcmaSyntax.Text.LineMap

/-!
Refusals, and why a text is refused. Each cause has a number, a message template and the arguments
that fill it. Numbers from 1000 are lexical, from 1100 grammatical, from 1200 early errors, and from
1300 about embedded markup. A failure is a cause at an offset; a report adds the message and the
line and column, which the text alone determines.

A template holds places written as a number in braces; the arguments are put in one after another,
in order, so an argument that itself holds a later place is filled too.
-/

namespace EcmaSyntax.Diagnostic

open EcmaSyntax.Text

/-- Put `replacement` for every occurrence of `pattern`, from left to right,
after leaving out `skip` characters. -/
def replaceFrom (pattern replacement : List Char) : Nat → List Char → List Char
  | _, [] => []
  | skip + 1, _ :: rest => replaceFrom pattern replacement skip rest
  | 0, c :: rest =>
    if pattern.isPrefixOf (c :: rest) then
      replacement ++ replaceFrom pattern replacement (pattern.length - 1) rest
    else c :: replaceFrom pattern replacement 0 rest

/-- Replace every occurrence of a nonempty pattern. -/
def replaceAll (pattern replacement text : String) : String :=
  String.ofList (replaceFrom pattern.toList replacement.toList 0 text.toList)

/-- The place of argument `i`. -/
def place (i : Nat) : String := "\x7b" ++ toString i ++ "\x7d"

def fillFrom (i : Nat) : List String → String → String
  | [], text => text
  | argument :: rest, text => fillFrom (i + 1) rest (replaceAll (place i) argument text)

/-- The template with every argument in its place. -/
def fill (template : String) (arguments : List String) : String :=
  fillFrom 0 arguments template

inductive Cause where
  | invalidCharacter
  | unterminatedStringLiteral
  | unterminatedTemplateLiteral
  | unterminatedRegex
  | unterminatedComment
  | invalidEscapeSequence
  | invalidUnicodeEscape
  | invalidHexEscape
  | undefinedCodePoint
  | invalidIdentifierEscape
  | numericSeparatorNotAllowed
  | trailingNumericSeparator
  | digitExpected
  | hexDigitExpected
  | binaryDigitExpected
  | octalDigitExpected
  | identifierAfterNumber
  | invalidBigint
  | invalidRegexFlag (flag : String)
  | duplicateRegexFlag (flag : String)
  | invalidTemplateEscape
  | unexpectedToken (text : String)
  | expectedToken (text : String)
  | unexpectedEnd
  | identifierExpected
  | expressionExpected
  | missingConstInitializer
  | missingDestructuringInitializer
  | invalidAssignmentTarget
  | invalidUpdateTarget (position : String)
  | invalidForInOfTarget (word : String)
  | forInOfSingleBinding (word : String)
  | forInOfInitializer (word : String)
  | forOfLet
  | forOfAsync
  | forAwaitRequiresOf
  | newlineAfterThrow
  | missingCatchOrFinally
  | multipleDefaultsInSwitch
  | restTrailingComma
  | restMustBeLast
  | restWithInitializer
  | invalidDestructuringTarget
  | invalidShorthandInitializer
  | invalidArrowParameter
  | lineTerminatorBeforeArrow
  | nullishMixedWithLogical
  | unaryBeforeExponentiation
  | optionalChainNew
  | optionalChainTemplate
  | getterParameters
  | setterParameters
  | setterRestParameter
  | duplicateProto
  | functionNameRequired
  | classNameRequired
  | lexicalInSingleStatement
  | functionInSingleStatement
  | generatorInSingleStatement
  | escapedKeyword
  | invalidDecoratorPosition
  | importCallArguments
  | unexpectedPrivateName
  | nestingTooDeep
  | invalidMetaProperty (object : String) (property : String)
  | stringExportWithoutFrom
  | duplicateImportAttribute (key : String)
  | invalidModuleName
  | unexpectedReservedWord (word : String)
  | unexpectedStrictReservedWord (word : String)
  | strictEvalArguments
  | strictWith
  | strictOctalLiteral
  | strictOctalEscape
  | strictDelete
  | illegalUseStrict
  | duplicateParameter
  | duplicateBinding (name : String)
  | letInLexicalBinding
  | yieldInParameter
  | awaitInParameter
  | awaitAsIdentifier
  | yieldAsIdentifier
  | argumentsInInitializer
  | illegalReturn
  | illegalBreak
  | illegalContinue
  | undefinedLabel (label : String)
  | continueTargetNotIteration (label : String)
  | duplicateLabel (label : String)
  | superCallNotAllowed
  | superPropertyNotAllowed
  | superUnexpected
  | newTargetNotAllowed
  | importMetaOutsideModule
  | importExportOutsideModule (word : String)
  | duplicateConstructor
  | invalidConstructor (role : String)
  | constructorField
  | staticPrototype
  | privateConstructor
  | duplicatePrivateName (name : String)
  | undeclaredPrivateName (name : String)
  | deletePrivateField
  | duplicateExport (name : String)
  | undeclaredExport (name : String)
  | awaitInStaticBlock
  | duplicatePatternKey (key : String)
  | markupClosingTagMismatch (tag : String)
  | markupEmptyAttribute
  | markupUnterminated
  | markupAdjacentElements
  /-- The work allowed for a text was used up; no text reaches this. -/
  | exhausted
deriving DecidableEq, Repr

namespace Cause

/-- The stable number of a cause. -/
def code : Cause → Nat
  | .invalidCharacter => 1000
  | .unterminatedStringLiteral => 1001
  | .unterminatedTemplateLiteral => 1002
  | .unterminatedRegex => 1003
  | .unterminatedComment => 1004
  | .invalidEscapeSequence => 1005
  | .invalidUnicodeEscape => 1006
  | .invalidHexEscape => 1007
  | .undefinedCodePoint => 1008
  | .invalidIdentifierEscape => 1009
  | .numericSeparatorNotAllowed => 1010
  | .trailingNumericSeparator => 1011
  | .digitExpected => 1012
  | .hexDigitExpected => 1013
  | .binaryDigitExpected => 1014
  | .octalDigitExpected => 1015
  | .identifierAfterNumber => 1016
  | .invalidBigint => 1017
  | .invalidRegexFlag _ => 1018
  | .duplicateRegexFlag _ => 1019
  | .invalidTemplateEscape => 1020
  | .unexpectedToken _ => 1100
  | .expectedToken _ => 1101
  | .unexpectedEnd => 1102
  | .identifierExpected => 1103
  | .expressionExpected => 1104
  | .missingConstInitializer => 1105
  | .missingDestructuringInitializer => 1106
  | .invalidAssignmentTarget => 1107
  | .invalidUpdateTarget _ => 1108
  | .invalidForInOfTarget _ => 1109
  | .forInOfSingleBinding _ => 1110
  | .forInOfInitializer _ => 1111
  | .forOfLet => 1112
  | .forOfAsync => 1113
  | .forAwaitRequiresOf => 1114
  | .newlineAfterThrow => 1115
  | .missingCatchOrFinally => 1116
  | .multipleDefaultsInSwitch => 1117
  | .restTrailingComma => 1118
  | .restMustBeLast => 1119
  | .restWithInitializer => 1120
  | .invalidDestructuringTarget => 1121
  | .invalidShorthandInitializer => 1122
  | .invalidArrowParameter => 1123
  | .lineTerminatorBeforeArrow => 1124
  | .nullishMixedWithLogical => 1125
  | .unaryBeforeExponentiation => 1126
  | .optionalChainNew => 1127
  | .optionalChainTemplate => 1128
  | .getterParameters => 1129
  | .setterParameters => 1130
  | .setterRestParameter => 1131
  | .duplicateProto => 1132
  | .functionNameRequired => 1133
  | .classNameRequired => 1134
  | .lexicalInSingleStatement => 1135
  | .functionInSingleStatement => 1136
  | .generatorInSingleStatement => 1137
  | .escapedKeyword => 1138
  | .invalidDecoratorPosition => 1139
  | .importCallArguments => 1140
  | .unexpectedPrivateName => 1141
  | .nestingTooDeep => 1142
  | .invalidMetaProperty _ _ => 1143
  | .stringExportWithoutFrom => 1144
  | .duplicateImportAttribute _ => 1145
  | .invalidModuleName => 1146
  | .unexpectedReservedWord _ => 1200
  | .unexpectedStrictReservedWord _ => 1201
  | .strictEvalArguments => 1202
  | .strictWith => 1203
  | .strictOctalLiteral => 1204
  | .strictOctalEscape => 1205
  | .strictDelete => 1206
  | .illegalUseStrict => 1207
  | .duplicateParameter => 1208
  | .duplicateBinding _ => 1209
  | .letInLexicalBinding => 1210
  | .yieldInParameter => 1211
  | .awaitInParameter => 1212
  | .awaitAsIdentifier => 1213
  | .yieldAsIdentifier => 1214
  | .argumentsInInitializer => 1215
  | .illegalReturn => 1216
  | .illegalBreak => 1217
  | .illegalContinue => 1218
  | .undefinedLabel _ => 1219
  | .continueTargetNotIteration _ => 1220
  | .duplicateLabel _ => 1221
  | .superCallNotAllowed => 1222
  | .superPropertyNotAllowed => 1223
  | .superUnexpected => 1224
  | .newTargetNotAllowed => 1225
  | .importMetaOutsideModule => 1226
  | .importExportOutsideModule _ => 1227
  | .duplicateConstructor => 1228
  | .invalidConstructor _ => 1229
  | .constructorField => 1230
  | .staticPrototype => 1231
  | .privateConstructor => 1232
  | .duplicatePrivateName _ => 1233
  | .undeclaredPrivateName _ => 1234
  | .deletePrivateField => 1235
  | .duplicateExport _ => 1236
  | .undeclaredExport _ => 1237
  | .awaitInStaticBlock => 1238
  | .duplicatePatternKey _ => 1239
  | .markupClosingTagMismatch _ => 1300
  | .markupEmptyAttribute => 1301
  | .markupUnterminated => 1302
  | .markupAdjacentElements => 1303
  | .exhausted => 1142

/-- The message, with places for the arguments. -/
def template : Cause → String
  | .invalidCharacter => "Invalid character."
  | .unterminatedStringLiteral => "Unterminated string literal."
  | .unterminatedTemplateLiteral => "Unterminated template literal."
  | .unterminatedRegex => "Unterminated regular expression literal."
  | .unterminatedComment => "Unterminated comment."
  | .invalidEscapeSequence => "Invalid escape sequence."
  | .invalidUnicodeEscape => "Invalid Unicode escape sequence."
  | .invalidHexEscape => "Invalid hexadecimal escape sequence."
  | .undefinedCodePoint => "Undefined Unicode code-point."
  | .invalidIdentifierEscape => "Invalid Unicode escape sequence in identifier."
  | .numericSeparatorNotAllowed => "Numeric separators are not allowed here."
  | .trailingNumericSeparator =>
    "Numeric separators are not allowed at the end of numeric literals."
  | .digitExpected => "Digit expected."
  | .hexDigitExpected => "Hexadecimal digit expected."
  | .binaryDigitExpected => "Binary digit expected."
  | .octalDigitExpected => "Octal digit expected."
  | .identifierAfterNumber =>
    "An identifier or keyword cannot immediately follow a numeric literal."
  | .invalidBigint => "Invalid BigInt syntax."
  | .invalidRegexFlag _ => "Invalid regular expression flag '{0}'."
  | .duplicateRegexFlag _ => "Duplicate regular expression flag '{0}'."
  | .invalidTemplateEscape => "Invalid escape sequence in template."
  | .unexpectedToken _ => "Unexpected token '{0}'."
  | .expectedToken _ => "'{0}' expected."
  | .unexpectedEnd => "Unexpected end of input."
  | .identifierExpected => "Identifier expected."
  | .expressionExpected => "Expression expected."
  | .missingConstInitializer => "Missing initializer in const declaration."
  | .missingDestructuringInitializer => "Missing initializer in destructuring declaration."
  | .invalidAssignmentTarget => "Invalid left-hand side in assignment."
  | .invalidUpdateTarget _ => "Invalid left-hand side expression in {0} operation."
  | .invalidForInOfTarget _ => "Invalid left-hand side in for-{0} loop."
  | .forInOfSingleBinding _ => "Only a single declaration is allowed in a for-{0} statement."
  | .forInOfInitializer _ => "for-{0} loop variable declaration may not have an initializer."
  | .forOfLet => "The left-hand side of a for-of loop may not be 'let'."
  | .forOfAsync => "The left-hand side of a for-of loop may not be 'async'."
  | .forAwaitRequiresOf => "'for await' loops must use 'of'."
  | .newlineAfterThrow => "Illegal newline after throw."
  | .missingCatchOrFinally => "Missing catch or finally after try."
  | .multipleDefaultsInSwitch => "More than one default clause in switch statement."
  | .restTrailingComma => "A rest element may not have a trailing comma."
  | .restMustBeLast => "Rest element must be last element."
  | .restWithInitializer => "Rest elements cannot have a default value."
  | .invalidDestructuringTarget => "Invalid destructuring assignment target."
  | .invalidShorthandInitializer => "Invalid shorthand property initializer."
  | .invalidArrowParameter => "Invalid arrow function parameter."
  | .lineTerminatorBeforeArrow => "Line terminator not permitted before arrow."
  | .nullishMixedWithLogical =>
    "Nullish coalescing cannot be mixed with '||' or '&&' without parentheses."
  | .unaryBeforeExponentiation =>
    "Unary operator used immediately before exponentiation expression; parentheses are required."
  | .optionalChainNew => "Invalid optional chain from new expression."
  | .optionalChainTemplate => "Tagged template cannot be used in optional chain."
  | .getterParameters => "Getter must not have any formal parameters."
  | .setterParameters => "Setter must have exactly one formal parameter."
  | .setterRestParameter => "Setter function argument must not be a rest parameter."
  | .duplicateProto => "Duplicate __proto__ fields are not allowed in object literals."
  | .functionNameRequired => "Function statements require a function name."
  | .classNameRequired => "Class declarations require a name."
  | .lexicalInSingleStatement => "Lexical declaration cannot appear in a single-statement context."
  | .functionInSingleStatement =>
    "In strict mode code, functions can only be declared at top level or inside a block."
  | .generatorInSingleStatement =>
    "Generators and async functions can only be declared at the top level or inside a block."
  | .escapedKeyword => "Keyword must not contain escaped characters."
  | .invalidDecoratorPosition => "Decorators are not valid here."
  | .importCallArguments => "Dynamic import requires one or two arguments without spread."
  | .unexpectedPrivateName => "Unexpected private name."
  | .nestingTooDeep => "Maximum nesting depth exceeded."
  | .invalidMetaProperty _ _ => "'{0}.{1}' is not a valid meta-property."
  | .stringExportWithoutFrom =>
    "A string literal cannot be used as an exported binding without 'from'."
  | .duplicateImportAttribute _ => "Import attribute has duplicate key '{0}'."
  | .invalidModuleName => "String literal must not contain lone surrogates."
  | .unexpectedReservedWord _ => "Unexpected reserved word '{0}'."
  | .unexpectedStrictReservedWord _ => "Unexpected strict mode reserved word '{0}'."
  | .strictEvalArguments => "Unexpected eval or arguments in strict mode."
  | .strictWith => "Strict mode code may not include a with statement."
  | .strictOctalLiteral => "Octal literals are not allowed in strict mode."
  | .strictOctalEscape => "Octal escape sequences are not allowed in strict mode."
  | .strictDelete => "Delete of an unqualified identifier in strict mode."
  | .illegalUseStrict =>
    "Illegal 'use strict' directive in function with non-simple parameter list."
  | .duplicateParameter => "Duplicate parameter name not allowed in this context."
  | .duplicateBinding _ => "Identifier '{0}' has already been declared."
  | .letInLexicalBinding => "let is disallowed as a lexically bound name."
  | .yieldInParameter => "Yield expression not allowed in formal parameter."
  | .awaitInParameter => "Await expression not allowed in formal parameter."
  | .awaitAsIdentifier => "Cannot use 'await' as an identifier here."
  | .yieldAsIdentifier => "Cannot use 'yield' as an identifier here."
  | .argumentsInInitializer =>
    "'arguments' is not allowed in class field initializer or static initialization block."
  | .illegalReturn => "Illegal return statement."
  | .illegalBreak => "Illegal break statement."
  | .illegalContinue => "Illegal continue statement: no surrounding iteration statement."
  | .undefinedLabel _ => "Undefined label '{0}'."
  | .continueTargetNotIteration _ =>
    "Illegal continue statement: '{0}' does not denote an iteration statement."
  | .duplicateLabel _ => "Label '{0}' has already been declared."
  | .superCallNotAllowed => "'super()' is only valid in derived class constructors."
  | .superPropertyNotAllowed => "'super' property access is only valid inside methods."
  | .superUnexpected => "'super' keyword unexpected here."
  | .newTargetNotAllowed => "new.target expression is not allowed here."
  | .importMetaOutsideModule => "Cannot use 'import.meta' outside a module."
  | .importExportOutsideModule _ => "'{0}' declarations may only appear at top level of a module."
  | .duplicateConstructor => "A class may only have one constructor."
  | .invalidConstructor _ => "Class constructor may not be a {0}."
  | .constructorField => "Classes may not have a field named 'constructor'."
  | .staticPrototype => "Classes may not have a static property named 'prototype'."
  | .privateConstructor => "Classes may not have a private element named '#constructor'."
  | .duplicatePrivateName _ => "Private name '#{0}' has already been declared."
  | .undeclaredPrivateName _ => "Private field '#{0}' must be declared in an enclosing class."
  | .deletePrivateField => "Private fields cannot be deleted."
  | .duplicateExport _ => "Duplicate export of '{0}'."
  | .undeclaredExport _ => "Export '{0}' is not defined in module."
  | .awaitInStaticBlock => "Cannot use 'await' in class static initialization block."
  | .duplicatePatternKey _ => "Duplicate property name '{0}' in destructuring pattern."
  | .markupClosingTagMismatch _ => "Expected corresponding closing tag for '{0}'."
  | .markupEmptyAttribute => "Attributes must only be assigned a non-empty expression."
  | .markupUnterminated => "Unterminated markup contents."
  | .markupAdjacentElements => "Adjacent markup elements must be wrapped in an enclosing tag."
  | .exhausted => "Maximum nesting depth exceeded."

def arguments : Cause → List String
  | .invalidRegexFlag flag => [flag]
  | .duplicateRegexFlag flag => [flag]
  | .unexpectedToken text => [text]
  | .expectedToken text => [text]
  | .invalidUpdateTarget position => [position]
  | .invalidForInOfTarget word => [word]
  | .forInOfSingleBinding word => [word]
  | .forInOfInitializer word => [word]
  | .invalidMetaProperty object property => [object, property]
  | .duplicateImportAttribute key => [key]
  | .unexpectedReservedWord word => [word]
  | .unexpectedStrictReservedWord word => [word]
  | .duplicateBinding name => [name]
  | .undefinedLabel label => [label]
  | .continueTargetNotIteration label => [label]
  | .duplicateLabel label => [label]
  | .importExportOutsideModule word => [word]
  | .invalidConstructor role => [role]
  | .duplicatePrivateName name => [name]
  | .undeclaredPrivateName name => [name]
  | .duplicateExport name => [name]
  | .undeclaredExport name => [name]
  | .duplicatePatternKey key => [key]
  | .markupClosingTagMismatch tag => [tag]
  | _ => []

def message (cause : Cause) : String := fill cause.template cause.arguments

end Cause

structure Failure where
  cause : Cause
  offset : Nat
deriving DecidableEq, Repr

structure Report where
  code : Nat
  message : String
  offset : Nat
  position : Position
deriving DecidableEq, Repr

/-- The report of a failure in a text. -/
def Failure.report (failure : Failure) (lines : LineMap) : Report :=
  ⟨failure.cause.code, failure.cause.message, failure.offset, lines.position failure.offset⟩

/-- The message followed by its place. -/
def Report.display (report : Report) : String :=
  report.message ++ " (" ++ report.position.render ++ ")"

end EcmaSyntax.Diagnostic
