import EcmaSyntax.Print.Place
import EcmaSyntax.Print.Tree
import EcmaSyntax.Proofs.Lexer.Spelling

/-!
Formulas: the expressions made of names, `this`, arrays, members, calls, `new`,
optional chains and operators, without literals, functions and classes. Each is
written as a list of words, with a pair of parentheses around a part that binds
less tightly than its place asks for.
-/

namespace EcmaSyntax.Tree

open EcmaSyntax.Lexer EcmaSyntax.Print EcmaSyntax.Text

variable {version : Nat} [Unicode.IdentifierChars version]

/-- A target of assignment as the expression that it looks like. -/
def Pattern.asExpression? : Pattern → Option Expression
  | .identifier id => some (.identifier id)
  | .member span e name computed optional => some (.member span e name computed optional)
  | _ => none

theorem Pattern.asExpression?_cases {left : Pattern} {target : Expression}
    (h : left.asExpression? = some target) :
    (∃ id, left = .identifier id ∧ target = .identifier id) ∨
      ∃ span object property computed optional,
        left = .member span object property computed optional ∧
          target = .member span object property computed optional := by
  cases left <;> simp only [Pattern.asExpression?, Option.some.injEq, reduceCtorEq] at h
  · exact .inl ⟨_, rfl, h.symm⟩
  · exact .inr ⟨_, _, _, _, _, rfl, h.symm⟩

/-- A name, or a member of something. -/
def isReference : Expression → Bool
  | .identifier _ | .member _ _ _ _ _ => true
  | _ => false

mutual

inductive Formula : Expression → Prop
  | identifier {id} (h : IsSpelling .identifier id.name) : Formula (.identifier id)
  | this {span} : Formula (.thisKeyword span)
  | array {span elements} (h : ∀ x ∈ elements, FormulaElement x) : Formula (.array span elements)
  | member {span object property computed} (hobject : Formula object)
      (hproperty : FormulaProperty computed property) :
      Formula (.member span object property computed false)
  | call {span callee arguments} (hcallee : Formula callee)
      (harguments : ∀ x ∈ arguments, FormulaElement x) (hholes : .hole ∉ arguments) :
      Formula (.call span callee arguments false)
  | newCall {span callee arguments} (hcallee : Formula callee)
      (harguments : ∀ x ∈ arguments, FormulaElement x) (hholes : .hole ∉ arguments) :
      Formula (.newCall span callee arguments)
  | chain {span inner} (h : Links true inner) : Formula (.chain span inner)
  | update {span operator isBefore argument} (h : Formula argument)
      (hreference : isReference argument = true) :
      Formula (.update span operator isBefore argument)
  | unary {span operator argument} (h : Formula argument) : Formula (.unary span operator argument)
  | binary {span left operator right} (hleft : Formula left) (hright : Formula right) :
      Formula (.binary span left operator right)
  | logical {span left operator right} (hleft : Formula left) (hright : Formula right) :
      Formula (.logical span left operator right)
  | conditional {span test consequent alternate} (htest : Formula test)
      (hconsequent : Formula consequent) (halternate : Formula alternate) :
      Formula (.conditional span test consequent alternate)
  | assignment {span operator left target right} (htarget : left.asExpression? = some target)
      (hleft : Formula target) (hright : Formula right) :
      Formula (.assignment span operator left right)
  | sequence {span expressions} (h : ∀ e ∈ expressions, Formula e)
      (hlength : 2 ≤ expressions.length) : Formula (.sequence span expressions)

/-- A place of an array or an argument. -/
inductive FormulaElement : Element → Prop
  | item {e} (h : Formula e) : FormulaElement (.item e)
  | spread {span e} (h : Formula e) : FormulaElement (.spread span e)
  | hole : FormulaElement .hole

/-- What names a member: an expression in brackets, or any word. -/
inductive FormulaProperty : Bool → Expression → Prop
  | computed {e} (h : Formula e) : FormulaProperty true e
  | name {id token} (hword : token.isWord = true) (h : IsSpelling token id.name) :
      FormulaProperty false (.identifier id)

/-- Members and calls applied to a formula, and whether one of them is optional. -/
inductive Links : Bool → Expression → Prop
  | base {e} (h : Formula e) : Links false e
  | member {found span object property computed optional} (hobject : Links found object)
      (hproperty : FormulaProperty computed property) :
      Links (found || optional) (.member span object property computed optional)
  | call {found span callee arguments optional} (hcallee : Links found callee)
      (harguments : ∀ x ∈ arguments, FormulaElement x) (hholes : .hole ∉ arguments) :
      Links (found || optional) (.call span callee arguments optional)

end

/-- The expression at a place of an array or in an argument. -/
def elementExpression? : Element → Option Expression
  | .item e | .spread _ e => some e
  | .hole => none

theorem FormulaElement.formula {x : Element} {e : Expression} (h : FormulaElement x)
    (he : elementExpression? x = some e) : Formula e := by
  cases h with
  | item h | spread h =>
    cases he
    exact h
  | hole => cases he

theorem FormulaProperty.formula {e : Expression} (h : FormulaProperty true e) : Formula e := by
  cases h with
  | computed h => exact h

theorem sizeOf_lt_of_element {elements : List Element} {x : Element} (hx : x ∈ elements)
    {e : Expression} (he : elementExpression? x = some e) : sizeOf e < sizeOf elements := by
  have hlt := List.sizeOf_lt_of_mem hx
  cases x with
  | item e' | spread span e' =>
    cases he
    simp only [Element.item.sizeOf_spec, Element.spread.sizeOf_spec] at hlt
    omega
  | hole => cases he

theorem sizeOf_lt_of_target {left : Pattern} {target : Expression}
    (h : left.asExpression? = some target) (span : Span) (operator : AssignmentOperator)
    (right : Expression) : sizeOf target <
      sizeOf (Expression.assignment span operator left right) := by
  obtain ⟨id, rfl, rfl⟩ | ⟨span', object, property, computed, optional, rfl, rfl⟩ :=
    Pattern.asExpression?_cases h
  · simp
    omega
  · simp
    omega

/-- A name or keyword with its kind. -/
def nameWord (name : String) : Word := ⟨(Token.ofKeyword? name).getD .identifier, name⟩

@[simp] theorem nameWord_this : nameWord "this" = ⟨.thisKeyword, "this"⟩ := rfl

@[simp] theorem nameWord_new : nameWord "new" = ⟨.newKeyword, "new"⟩ := rfl

/-- An operator, which may be a word. -/
def operatorWord (token : Token) : Word := ⟨token, if token.isWord then token.text else ""⟩

def inParentheses (isEnclosed : Bool) (words : List Word) : List Word :=
  if isEnclosed then .sign .leftParen :: (words ++ [.sign .rightParen]) else words

@[simp] theorem inParentheses_false (words : List Word) : inParentheses false words = words := rfl

/-- Items with commas between them. -/
def withCommas : List (List Word) → List Word
  | [] => []
  | [item] => item
  | item :: next :: rest => item ++ .sign .comma :: withCommas (next :: rest)

/-- The expression binds less tightly than a place asks for. -/
def bindsBelow (least : Precedence) (e : Expression) : Bool := decide (precedence e < least)

@[simp] theorem bindsBelow_comma (e : Expression) : bindsBelow .comma e = false :=
  decide_eq_false (Nat.not_lt_zero _)

def isChain : Expression → Bool
  | .chain _ _ => true
  | _ => false

/-- What something is applied to needs parentheses. -/
def enclosesCallee (e : Expression) : Bool := isChain e || bindsBelow .leftHandSide e

/-- The callee of `new` needs parentheses. -/
def enclosesConstructor (e : Expression) : Bool := containsCall e || bindsBelow .member e

/-- An operand of a logical operator needs parentheses. -/
def enclosesOperand (operator : LogicalOperator) (least : Precedence) (e : Expression) : Bool :=
  mixes operator e || bindsBelow least e

def updateToken : UpdateOperator → Token
  | .increment => .increment
  | .decrement => .decrement

def memberWords (object property : List Word) (computed optional : Bool) : List Word :=
  object ++
    if computed then
      (if optional then [.sign .questionDot, .sign .leftBracket] else [.sign .leftBracket]) ++
        (property ++ [.sign .rightBracket])
    else .sign (if optional then .questionDot else .dot) :: property

def argumentWords (arguments : List (List Word)) : List Word :=
  .sign .leftParen :: (withCommas arguments ++ [.sign .rightParen])

mutual

/-- The words of an expression without parentheses around it. -/
def formulaWords : Expression → List Word
  | .identifier id => [nameWord id.name]
  | .thisKeyword _ => [nameWord "this"]
  | .array _ elements =>
    .sign .leftBracket :: (withCommas (elementWords elements) ++
      (if endsInHole elements then [.sign .comma] else []) ++ [.sign .rightBracket])
  | .member _ object property computed optional =>
    memberWords (inParentheses (enclosesCallee object) (formulaWords object))
      (formulaWords property) computed optional
  | .call _ callee arguments optional =>
    inParentheses (enclosesCallee callee) (formulaWords callee) ++
      ((if optional then [.sign .questionDot] else []) ++ argumentWords (elementWords arguments))
  | .newCall _ callee arguments =>
    nameWord "new" :: (inParentheses (enclosesConstructor callee) (formulaWords callee) ++
      argumentWords (elementWords arguments))
  | .chain _ inner => formulaWords inner
  | .update _ operator isBefore argument =>
    if isBefore then
      .sign (updateToken operator) ::
        inParentheses (bindsBelow .leftHandSide argument) (formulaWords argument)
    else inParentheses (bindsBelow .leftHandSide argument) (formulaWords argument) ++
      [.sign (updateToken operator)]
  | .unary _ operator argument =>
    operatorWord operator.token ::
      inParentheses (bindsBelow .unary argument) (formulaWords argument)
  | .binary span left operator right =>
    let least := operandPrecedences operator (precedence (.binary span left operator right))
    inParentheses (bindsBelow least.1 left) (formulaWords left) ++
      operatorWord operator.token ::
        inParentheses (bindsBelow least.2 right) (formulaWords right)
  | .logical span left operator right =>
    let level := precedence (.logical span left operator right)
    inParentheses (enclosesOperand operator level left) (formulaWords left) ++
      operatorWord operator.token ::
        inParentheses (enclosesOperand operator level.tighter right) (formulaWords right)
  | .conditional _ test consequent alternate =>
    inParentheses (bindsBelow .coalesce test) (formulaWords test) ++
      .sign .question ::
        (inParentheses (bindsBelow .assignment consequent) (formulaWords consequent) ++
          .sign .colon ::
            inParentheses (bindsBelow .assignment alternate) (formulaWords alternate))
  | .assignment _ operator left right =>
    targetWords left ++ operatorWord operator.token ::
      inParentheses (bindsBelow .assignment right) (formulaWords right)
  | .sequence _ expressions => withCommas (sequenceWords expressions)
  | _ => []

def sequenceWords : List Expression → List (List Word)
  | [] => []
  | e :: rest => inParentheses (bindsBelow .assignment e) (formulaWords e) :: sequenceWords rest

def elementWords : List Element → List (List Word)
  | [] => []
  | .item e :: rest =>
    inParentheses (bindsBelow .assignment e) (formulaWords e) :: elementWords rest
  | .spread _ e :: rest =>
    (.sign .ellipsis :: inParentheses (bindsBelow .assignment e) (formulaWords e)) ::
      elementWords rest
  | .hole :: rest => [] :: elementWords rest

def targetWords : Pattern → List Word
  | .identifier id => [nameWord id.name]
  | .member _ object property computed optional =>
    memberWords (inParentheses (enclosesCallee object) (formulaWords object))
      (formulaWords property) computed optional
  | _ => []

end

/-- The words between the brackets of an array. -/
def elementListWords (elements : List Element) : List Word :=
  withCommas (elementWords elements) ++ if endsInHole elements then [.sign .comma] else []

theorem endsInHole_cons_cons (x y : Element) (elements : List Element) :
    endsInHole (x :: y :: elements) = endsInHole (y :: elements) := rfl

/-- A hole is nothing but its comma. -/
theorem elementListWords_hole (elements : List Element) :
    elementListWords (.hole :: elements) = .sign .comma :: elementListWords elements := by
  cases elements with
  | nil => rfl
  | cons x elements =>
    unfold elementListWords
    rw [endsInHole_cons_cons, elementWords]
    cases x <;> rfl

/-- What follows an element: nothing if it is the last, else a comma and the others. -/
def restWords (rest : List Element) : List Word :=
  if rest.isEmpty then [] else .sign .comma :: elementListWords rest

/-- An element that is no hole stands before the others. -/
theorem elementListWords_cons {x : Element} (hx : x ≠ .hole) (elements : List Element) :
    ∃ words, elementWords [x] = [words] ∧
      elementListWords (x :: elements) = words ++ restWords elements := by
  cases x with
  | hole => exact absurd rfl hx
  | item e =>
    refine ⟨_, rfl, ?_⟩
    cases elements with
    | nil => simp [restWords, elementListWords, elementWords, withCommas, endsInHole]
    | cons y elements =>
      unfold restWords elementListWords
      rw [endsInHole_cons_cons, elementWords]
      cases y <;> simp [elementWords, withCommas]
  | spread span e =>
    refine ⟨_, rfl, ?_⟩
    cases elements with
    | nil => simp [restWords, elementListWords, elementWords, withCommas, endsInHole]
    | cons y elements =>
      unfold restWords elementListWords
      rw [endsInHole_cons_cons, elementWords]
      cases y <;> simp [elementWords, withCommas]

/-- Without holes no comma stands at the end. -/
theorem elementListWords_of_no_holes {elements : List Element} (h : .hole ∉ elements) :
    elementListWords elements = withCommas (elementWords elements) := by
  have hends : endsInHole elements = false := by
    unfold endsInHole
    split
    · rename_i hlast
      exact absurd (List.mem_of_getLast? hlast) h
    · rfl
  simp [elementListWords, hends]

/-- A target is written like the expression that it looks like. -/
theorem targetWords_eq {left : Pattern} {target : Expression}
    (h : left.asExpression? = some target) : targetWords left = formulaWords target := by
  obtain ⟨id, rfl, rfl⟩ | ⟨span, object, property, computed, optional, rfl, rfl⟩ :=
    Pattern.asExpression?_cases h
  · rfl
  · rfl

end EcmaSyntax.Tree
