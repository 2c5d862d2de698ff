import EcmaSyntax.Json.Reader

/-!
Settings of the parser, and their form as JSON: an object with a boolean for
each setting that is given, or an array of booleans in the order of the keys.
-/

namespace EcmaSyntax

structure Options where
  /-- Read a module, which is strict. -/
  module : Bool
  /-- Allow decorators. -/
  next : Bool
  /-- Write the offsets of every node. -/
  ranges : Bool
  /-- Write the lines and columns of every node. -/
  loc : Bool
  /-- Keep the text of literals. -/
  raw : Bool
  /-- Keep parentheses as nodes. -/
  preserveParens : Bool
  /-- Allow the legacy syntax of web browsers. -/
  webCompat : Bool
  /-- Allow embedded markup. -/
  jsx : Bool
  /-- Refuse repeated property names in object patterns. -/
  uniqueKeysInPatterns : Bool
  /-- Allow `return` outside functions. -/
  globalReturn : Bool
  /-- Treat scripts as strict. -/
  impliedStrict : Bool
deriving DecidableEq, Repr

namespace Options

def ofList (given : List Bool) : Options where
  module := given.getD 0 false
  next := given.getD 1 false
  ranges := given.getD 2 false
  loc := given.getD 3 false
  raw := given.getD 4 false
  preserveParens := given.getD 5 false
  webCompat := given.getD 6 false
  jsx := given.getD 7 false
  uniqueKeysInPatterns := given.getD 8 false
  globalReturn := given.getD 9 false
  impliedStrict := given.getD 10 false

def toList (o : Options) : List Bool :=
  [o.module, o.next, o.ranges, o.loc, o.raw, o.preserveParens, o.webCompat, o.jsx,
    o.uniqueKeysInPatterns, o.globalReturn, o.impliedStrict]

/-- The names of the settings, in their order. -/
def keys : List String :=
  ["module", "next", "ranges", "loc", "raw", "preserveParens", "webCompat", "jsx",
    "uniqueKeysInPatterns", "globalReturn", "impliedStrict"]

def script : Options := ofList []

def asModule : Options := { script with module := true }

/-- Every setting that either of two has. -/
def merge (a b : Options) : Options := ofList (List.zipWith (· || ·) a.toList b.toList)

theorem ofList_toList (o : Options) : ofList o.toList = o := rfl

def toJson (o : Options) : Json := Json.ofFields (keys.zip (o.toList.map Json.bool))

inductive Error where
  /-- The text is no JSON, or a setting is no boolean. -/
  | malformed
  | unknownKey (key : String)
deriving DecidableEq, Repr

/-- The message about a key that names no setting. -/
def Error.message? : Error → Option String
  | .malformed => none
  | .unknownKey key => some ("invalid options: unknown option " ++ "\x60" ++ key ++ "\x60")

def bool? : Json → Option Bool
  | .bool b => some b
  | _ => none

/-- Settings from a value. Unknown keys are reported before anything else, the
least of them first. -/
def ofJson (value : Json) : Except Error Options :=
  match value with
  | .object fields =>
    match fields.find? fun field => !keys.contains field.1 with
    | some field => .error (.unknownKey field.1)
    | none =>
      match fields.mapM fun field => (bool? field.2).map fun b => (field.1, b) with
      | some given => .ok (ofList (keys.map fun key => (given.lookup key).getD false))
      | none => .error .malformed
  | .array items =>
    match items.mapM bool? with
    | some given => if given.length ≤ keys.length then .ok (ofList given) else .error .malformed
    | none => .error .malformed
  | _ => .error .malformed

def ofText (text : String) : Except Error Options :=
  match Json.ofText? text with
  | some value => ofJson value
  | none => .error .malformed

end Options

end EcmaSyntax
