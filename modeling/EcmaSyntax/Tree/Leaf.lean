import EcmaSyntax.Number.Binary64
import EcmaSyntax.Text.Measure

/-!
Parts of the syntax tree that hold no expressions: names, literals, template
text, the names of modules' imports and exports, and the names of markup.
-/

namespace EcmaSyntax.Tree

open EcmaSyntax.Number EcmaSyntax.Text

structure Identifier where
  span : Span
  name : String
deriving DecidableEq, Repr

/-- A private name, without its number sign. -/
structure PrivateIdentifier where
  span : Span
  name : String
deriving DecidableEq, Repr

inductive LiteralValue where
  | string (value : String)
  | number (value : Binary64)
  | boolean (value : Bool)
  | null
  | regex (pattern flags : String)
  | bigint (digits : String)
deriving DecidableEq, Repr

structure Literal where
  span : Span
  value : LiteralValue
  /-- The text, if it was asked for. -/
  raw : Option String
deriving DecidableEq, Repr

/-- The value of a string literal. -/
def Literal.string? (literal : Literal) : Option String :=
  match literal.value with
  | .string value => some value
  | _ => none

/-- A part of a template between substitutions. -/
structure TemplateElement where
  span : Span
  raw : String
  /-- The value, unless an escape has none. -/
  cooked : Option String
  tail : Bool
deriving DecidableEq, Repr

inductive PropertyKind where
  | init
  | get
  | set
deriving DecidableEq, Repr

inductive MethodKind where
  | constructor
  | method
  | get
  | set
deriving DecidableEq, Repr

inductive VariableKind where
  | varKind
  | letKind
  | constKind
deriving DecidableEq, Repr

def VariableKind.text : VariableKind → String
  | .varKind => "var"
  | .letKind => "let"
  | .constKind => "const"

/-- A name under which a module imports or exports. -/
inductive ModuleName where
  | identifier (id : Identifier)
  | literal (lit : Literal)
deriving DecidableEq, Repr

namespace ModuleName

def span : ModuleName → Span
  | .identifier id => id.span
  | .literal lit => lit.span

def text : ModuleName → String
  | .identifier id => id.name
  | .literal lit => lit.string?.getD ""

end ModuleName

structure ImportAttribute where
  span : Span
  key : ModuleName
  value : Literal
deriving DecidableEq, Repr

inductive ImportSpecifier where
  | named (span : Span) (imported : ModuleName) (binding : Identifier)
  | default (span : Span) (binding : Identifier)
  | all (span : Span) (binding : Identifier)
deriving DecidableEq, Repr

structure ImportDeclaration where
  span : Span
  specifiers : List ImportSpecifier
  source : Literal
  attributes : List ImportAttribute
deriving DecidableEq, Repr

structure ExportSpecifier where
  span : Span
  binding : ModuleName
  exported : ModuleName
deriving DecidableEq, Repr

/-- Names exported together, from another module if it has a source. -/
structure ExportNames where
  span : Span
  specifiers : List ExportSpecifier
  source : Option Literal
  attributes : List ImportAttribute
deriving DecidableEq, Repr

structure ExportAll where
  span : Span
  exported : Option ModuleName
  source : Literal
  attributes : List ImportAttribute
deriving DecidableEq, Repr

structure MarkupIdentifier where
  span : Span
  name : String
deriving DecidableEq, Repr

structure NamespacedName where
  span : Span
  space : MarkupIdentifier
  name : MarkupIdentifier
deriving DecidableEq, Repr

/-- A markup name with points, from the left. -/
inductive MarkupPath where
  | identifier (id : MarkupIdentifier)
  | member (span : Span) (object : MarkupPath) (property : MarkupIdentifier)
deriving DecidableEq, Repr

def MarkupPath.text : MarkupPath → String
  | .identifier id => id.name
  | .member _ object property => object.text ++ "." ++ property.name

inductive MarkupName where
  | path (steps : MarkupPath)
  | namespaced (name : NamespacedName)
deriving DecidableEq, Repr

/-- The name as it is written, without blanks. -/
def MarkupName.text : MarkupName → String
  | .path steps => steps.text
  | .namespaced name => name.space.name ++ ":" ++ name.name.name

inductive MarkupAttributeName where
  | identifier (id : MarkupIdentifier)
  | namespaced (name : NamespacedName)
deriving DecidableEq, Repr

structure MarkupClosing where
  span : Span
  name : MarkupName
deriving DecidableEq, Repr

end EcmaSyntax.Tree
