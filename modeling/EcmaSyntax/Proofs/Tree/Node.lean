import EcmaSyntax.Tree.Basic
import Mathlib.Logic.Relation
import Mathlib.Logic.ExistsUnique

/-!
The nodes of a syntax tree as one type, with the nodes directly below each. A node lies within
another if steps down lead to it, so that "anywhere in the tree, at any depth" has one meaning for
all kinds of nodes.

A member or call is applied to what its link leads to. An expression is open if one of the links
down from it is optional, and then it stands only where links lead up from it to the chain that ends
the optional part. Imports and exports stand only in a program. When every other node stands where
it likes, each optional link has one chain around it.
-/

namespace EcmaSyntax.Tree

inductive Node where
  | expression (e : Expression)
  | element (x : Element)
  | member (m : ObjectMember)
  | function (f : Function)
  | pattern (p : Pattern)
  | patternProperty (p : PatternProperty)
  | classDefinition (c : ClassDefinition)
  | classElement (x : ClassElement)
  | decorator (d : Decorator)
  | statement (s : Statement)
  | switchCase (c : SwitchCase)
  | catchClause (c : CatchClause)
  | forHead (h : ForHead)
  | declarator (d : VariableDeclarator)
  | markup (m : Markup)
  | markupAttribute (a : MarkupAttribute)
  | markupValue (v : MarkupAttributeValue)
  | markupChild (c : MarkupChild)

namespace Node

@[reducible] def ofOption (e : Option Expression) : List Node := e.toList.map expression

@[reducible] def ofExpression : Expression → List Node
  | .identifier _ | .privateIdentifier _ | .literal _ | .thisKeyword _ | .superKeyword _
  | .metaProperty _ _ _ => []
  | .array _ elements => elements.map element
  | .object _ members => members.map member
  | .function value => [function value]
  | .arrow _ _ params body => expression body :: params.map pattern
  | .blockArrow _ _ params _ body => params.map pattern ++ body.map statement
  | .classExpression value => [classDefinition value]
  | .template _ _ expressions => expressions.map expression
  | .taggedTemplate _ tag _ _ expressions => expression tag :: expressions.map expression
  | .member _ object property _ _ => [expression object, expression property]
  | .call _ callee arguments _ => expression callee :: arguments.map element
  | .newCall _ callee arguments => expression callee :: arguments.map element
  | .chain _ inner => [expression inner]
  | .update _ _ _ argument => [expression argument]
  | .unary _ _ argument => [expression argument]
  | .binary _ left _ right => [expression left, expression right]
  | .logical _ left _ right => [expression left, expression right]
  | .conditional _ test consequent alternate =>
    [expression test, expression consequent, expression alternate]
  | .assignment _ _ left right => [pattern left, expression right]
  | .sequence _ expressions => expressions.map expression
  | .yield _ _ argument => ofOption argument
  | .await _ argument => [expression argument]
  | .importCall _ source options => expression source :: ofOption options
  | .parenthesized _ inner => [expression inner]
  | .markup value => [markup value]

@[reducible] def ofPattern : Pattern → List Node
  | .identifier _ | .hole => []
  | .object _ properties => properties.map patternProperty
  | .array _ elements => elements.map pattern
  | .rest _ argument => [pattern argument]
  | .withDefault _ left right => [pattern left, expression right]
  | .member _ object property _ _ => [expression object, expression property]

@[reducible] def ofStatement : Statement → List Node
  | .expression _ e _ => [expression e]
  | .block _ body => body.map statement
  | .empty _ | .debugger _ | .breakStatement _ _ | .continueStatement _ _
  | .importDeclaration _ | .exportNames _ | .exportAll _ => []
  | .withStatement _ object body => [expression object, statement body]
  | .returnStatement _ argument => ofOption argument
  | .labeled _ _ body => [statement body]
  | .ifStatement _ test consequent => [expression test, statement consequent]
  | .ifElse _ test consequent alternate =>
    [expression test, statement consequent, statement alternate]
  | .switchStatement _ discriminant cases => expression discriminant :: cases.map switchCase
  | .throwStatement _ argument => [expression argument]
  | .tryCatch _ _ block handler => catchClause handler :: block.map statement
  | .tryFinally _ _ block _ finalizer => block.map statement ++ finalizer.map statement
  | .tryCatchFinally _ _ block handler _ finalizer =>
    catchClause handler :: (block.map statement ++ finalizer.map statement)
  | .whileStatement _ test body => [expression test, statement body]
  | .doWhileStatement _ body test => [statement body, expression test]
  | .forStatement _ init test update body =>
    forHead init :: statement body :: (ofOption test ++ ofOption update)
  | .forInStatement _ left right body => [forHead left, expression right, statement body]
  | .forOfStatement _ _ left right body => [forHead left, expression right, statement body]
  | .variables _ _ declarations => declarations.map declarator
  | .function value => [function value]
  | .classDeclaration value => [classDefinition value]
  | .exportDeclaration _ declaration => [statement declaration]
  | .exportDefaultFunction _ value => [function value]
  | .exportDefaultClass _ value => [classDefinition value]
  | .exportDefault _ e => [expression e]

/-- The nodes directly below a node. -/
@[reducible] def children : Node → List Node
  | .expression e => ofExpression e
  | .element (.item e) | .element (.spread _ e) => [expression e]
  | .element .hole => []
  | .member (.property _ key value _ _ _ _) => [expression key, expression value]
  | .member (.spread _ e) => [expression e]
  | .function f => f.params.map pattern ++ f.body.map statement
  | .pattern p => ofPattern p
  | .patternProperty (.property _ key value _ _) => [expression key, pattern value]
  | .patternProperty (.rest _ argument) => [pattern argument]
  | .classDefinition c =>
    ofOption c.superClass ++ (c.elements.map classElement ++ c.decorators.map decorator)
  | .classElement (.method _ _ _ key _ value decorators) =>
    expression key :: function value :: decorators.map decorator
  | .classElement (.field _ _ _ key value decorators) =>
    expression key :: (ofOption value ++ decorators.map decorator)
  | .classElement (.staticBlock _ body) => body.map statement
  | .decorator d => [expression d.expression]
  | .statement s => ofStatement s
  | .switchCase c => ofOption c.test ++ c.consequent.map statement
  | .catchClause (.plain _ _ body) => body.map statement
  | .catchClause (.binding _ param _ body) => pattern param :: body.map statement
  | .forHead .nothing => []
  | .forHead (.variables _ _ declarations) => declarations.map declarator
  | .forHead (.expression e) => [expression e]
  | .forHead (.pattern p) => [pattern p]
  | .declarator d => pattern d.id :: ofOption d.init
  | .markup (.element _ _ _ attributes _ children _) =>
    attributes.map markupAttribute ++ children.map markupChild
  | .markup (.fragment _ _ children _) => children.map markupChild
  | .markupAttribute (.attribute _ _ value) => [markupValue value]
  | .markupAttribute (.spread _ e) => [expression e]
  | .markupValue (.container _ e) => [expression e]
  | .markupValue (.markup value) => [markup value]
  | .markupValue .absent | .markupValue (.string _) => []
  | .markupChild (.markup value) => [markup value]
  | .markupChild (.container _ e) | .markupChild (.spread _ e) => [expression e]
  | .markupChild (.text _ _ _) | .markupChild (.emptyContainer _ _) => []

/-- Steps down from the first node lead to the second. -/
def Within : Node → Node → Prop := Relation.ReflTransGen fun n c => c ∈ n.children

theorem Within.refl (n : Node) : Within n n := Relation.ReflTransGen.refl

theorem Within.step {n c m : Node} (hc : c ∈ n.children) (h : Within c m) : Within n m :=
  Relation.ReflTransGen.head hc h

theorem Within.trans {n m k : Node} (h : Within n m) (h' : Within m k) : Within n k :=
  Relation.ReflTransGen.trans h h'

/-- The node and all nodes within it have a property. -/
def Every (P : Node → Prop) (n : Node) : Prop := ∀ m, Within n m → P m

variable {P : Node → Prop} {n : Node}

theorem Every.here (h : Every P n) : P n := h n (Within.refl n)

theorem Every.below (h : Every P n) {c : Node} (hc : c ∈ n.children) : Every P c :=
  fun m hm => h m (Within.step hc hm)

theorem Every.node (hn : P n) (hc : ∀ c ∈ n.children, Every P c) : Every P n := by
  intro m hm
  rcases Relation.ReflTransGen.cases_head hm with heq | ⟨c, hstep, hrest⟩
  · rwa [← heq]
  · exact hc c hstep m hrest

theorem Every.leaf (hn : P n) (hnone : n.children = []) : Every P n :=
  .node hn (by simp [hnone])

theorem Every.single {c : Node} (hn : P n) (hc : Every P c) (hone : n.children = [c]) :
    Every P n :=
  .node hn (by simpa [hone] using hc)

theorem Every.pair {c d : Node} (hn : P n) (hc : Every P c) (hd : Every P d)
    (htwo : n.children = [c, d]) : Every P n :=
  .node hn (by simpa [htwo] using ⟨hc, hd⟩)

theorem Every.triple {c d k : Node} (hn : P n) (hc : Every P c) (hd : Every P d) (hk : Every P k)
    (hthree : n.children = [c, d, k]) : Every P n :=
  .node hn (by simpa [hthree] using ⟨hc, hd, hk⟩)

/-- A node over the members of a list. -/
theorem Every.list {α : Type} {f : α → Node} {items : List α} (hn : P n)
    (hitems : ∀ a ∈ items, Every P (f a)) (hall : n.children = items.map f) :
    Every P n :=
  .node hn (by simpa [hall] using hitems)

/-- A node over another one and the members of a list. -/
theorem Every.consList {α : Type} {f : α → Node} {items : List α} {c : Node} (hn : P n)
    (hc : Every P c) (hitems : ∀ a ∈ items, Every P (f a))
    (hall : n.children = c :: items.map f) : Every P n :=
  .node hn (by simpa [hall] using ⟨hc, hitems⟩)

/-- A node over the members of two lists. -/
theorem Every.lists {α β : Type} {f : α → Node} {k : β → Node} {items : List α} {others : List β}
    (hn : P n) (hitems : ∀ a ∈ items, Every P (f a)) (hothers : ∀ b ∈ others, Every P (k b))
    (hall : n.children = items.map f ++ others.map k) : Every P n := by
  refine .node hn ?_
  rw [hall]
  exact List.forall_mem_append.mpr
    ⟨List.forall_mem_map.mpr hitems, List.forall_mem_map.mpr hothers⟩

theorem every_ofOption {e : Option Expression} (h : ∀ x ∈ e, Every P (.expression x)) :
    ∀ c ∈ ofOption e, Every P c := by
  cases e with
  | none => exact nofun
  | some x => exact List.forall_mem_singleton.mpr (h x rfl)

end Node

/-- A node of the program. -/
def Program.Contains (p : Program) (n : Node) : Prop :=
  ∃ s ∈ p.body, Node.Within (.statement s) n

namespace Expression

/-- What a member or a call is applied to. -/
def link? : Expression → Option Expression
  | .member _ e _ _ _ => some e
  | .call _ e _ _ => some e
  | _ => none

/-- What a member, call, `new` or template is applied to. -/
def operand? : Expression → Option Expression
  | .member _ e _ _ _ | .call _ e _ _ | .newCall _ e _ | .taggedTemplate _ e _ _ _ => some e
  | _ => none

/-- A member or call that is left out when there is nothing to apply it to. -/
def isOptional : Expression → Bool
  | .member _ _ _ _ optional => optional
  | .call _ _ _ optional => optional
  | _ => false

def isChain : Expression → Bool
  | .chain _ _ => true
  | _ => false

/-- Links lead down from the first expression to the second. -/
def Reaches : Expression → Expression → Prop :=
  Relation.ReflTransGen fun e below => e.link? = some below

/-- One of the links down from the expression, or it itself, is optional. -/
def isOpen : Expression → Bool
  | .member _ e _ _ optional => optional || e.isOpen
  | .call _ e _ optional => optional || e.isOpen
  | _ => false

theorem isOpen_eq (e : Expression) : e.isOpen = (e.isOptional || e.link?.any isOpen) := by
  cases e <;> rfl

theorem isOpen_of_link {e below : Expression} (h : e.link? = some below)
    (hopen : below.isOpen = true) : e.isOpen = true := by
  rw [isOpen_eq, h]
  simp [hopen]

theorem isOpen_of_isOptional {e : Expression} (h : e.isOptional = true) : e.isOpen = true := by
  rw [isOpen_eq, h, Bool.true_or]

theorem isOpen_of_reaches {e below : Expression} (h : e.Reaches below)
    (hoptional : below.isOptional = true) : e.isOpen = true := by
  induction h using Relation.ReflTransGen.head_induction_on with
  | refl => exact isOpen_of_isOptional hoptional
  | head hlink _ ih => exact isOpen_of_link hlink ih

/-- An open expression is a member or a call, from which links lead to an optional one. -/
theorem reaches_of_isOpen {e : Expression} (h : e.isOpen = true) :
    ∃ below, e.Reaches below ∧ below.isOptional = true := by
  have hlink : ∀ {e object : Expression}, e.link? = some object →
      (∃ below, object.Reaches below ∧ below.isOptional = true) →
      ∃ below, e.Reaches below ∧ below.isOptional = true := by
    rintro e object hobject ⟨below, hbelow, hoptional⟩
    exact ⟨below, .head hobject hbelow, hoptional⟩
  induction e using isOpen.induct with
  | case1 span object property computed optional ih =>
    rw [isOpen, Bool.or_eq_true] at h
    exact h.elim (fun h => ⟨_, .refl, h⟩) fun h => hlink rfl (ih h)
  | case2 span callee arguments optional ih =>
    rw [isOpen, Bool.or_eq_true] at h
    exact h.elim (fun h => ⟨_, .refl, h⟩) fun h => hlink rfl (ih h)
  | case3 e => simp_all [isOpen]

theorem link_of_isOpen {e : Expression} (h : e.isOpen = true) : e.link?.isSome = true := by
  cases e <;> first | rfl | cases h

end Expression

/-- Imports and exports, which only modules have. -/
def Statement.isModuleItem : Statement → Bool
  | .importDeclaration _ | .exportDeclaration _ _ | .exportNames _ | .exportAll _
  | .exportDefaultFunction _ _ | .exportDefaultClass _ _ | .exportDefault _ _ => true
  | _ => false

namespace Node

/-- The node stands only below certain others, or in a program. -/
def isTied : Node → Bool
  | .expression e => e.isOpen
  | .statement x => x.isModuleItem
  | _ => false

/-- The nodes directly below that no link leads to, nor the end of a chain. -/
def apart : Node → List Node
  | .expression (.member _ _ property _ _) => [expression property]
  | .expression (.call _ _ arguments _) => arguments.map element
  | .expression (.chain _ _) => []
  | n => n.children

/-- What the node asks of the expression that it is about. A chain is about something optional. It
is no target, and when parentheses are kept nothing is applied to it directly. -/
def SuitsOperand (keepsParens : Bool) : Node → Prop
  | .expression (.chain _ e) => e.isOpen = true
  | .expression (.update _ _ _ e) => e.withoutParens.isChain = false
  | .pattern (.member _ e _ _ optional) =>
    optional = false ∧ (keepsParens = true → e.isChain = false)
  | .expression (.member _ e _ _ _) | .expression (.call _ e _ _) | .expression (.newCall _ e _)
  | .expression (.taggedTemplate _ e _ _ _) => keepsParens = true → e.isChain = false
  | _ => True

/-- What is directly below the node may stand there. -/
structure Fits (keepsParens : Bool) (n : Node) : Prop where
  apart : ∀ c ∈ n.apart, c.isTied = false
  operand : n.SuitsOperand keepsParens

/-- The node may stand anywhere, and what is in it stands where it may. -/
structure Proper (keepsParens : Bool) (n : Node) : Prop where
  every : n.Every (Fits keepsParens)
  free : n.isTied = false

/-- Steps lead from the root down to a node. The nodes above it are given, nearest first, with the
number of the child where the way goes on. -/
inductive Path (root : Node) : List (Node × Nat) → Node → Prop
  | here : Path root [] root
  | down {above n i c} (h : Path root above n) (hc : n.children[i]? = some c) :
    Path root ((n, i) :: above) c

theorem within_iff_path {root n : Node} : Within root n ↔ ∃ above, Path root above n := by
  constructor
  · intro h
    induction h with
    | refl => exact ⟨[], .here⟩
    | tail _ hc ih =>
      obtain ⟨above, h⟩ := ih
      obtain ⟨i, hi⟩ := List.mem_iff_getElem?.mp hc
      exact ⟨_, .down h hi⟩
  · rintro ⟨above, h⟩
    induction h with
    | here => exact .refl _
    | down _ hc ih => exact ih.trans (.step (List.mem_of_getElem? hc) (.refl _))

/-- The way goes down a link. -/
def followsLink : Node × Nat → Bool
  | (.expression (.member _ _ _ _ _), 0) | (.expression (.call _ _ _ _), 0) => true
  | _ => false

/-- The way goes into a chain. -/
def entersChain : Node × Nat → Bool
  | (.expression (.chain _ _), _) => true
  | _ => false

/-- The way goes into a chain at this place above, and down links from there on. -/
def EndsAt (above : List (Node × Nat)) (k : Nat) : Prop :=
  above[k]?.any entersChain = true ∧ ∀ step ∈ above.take k, followsLink step = true

theorem followsLink_of_entersChain {step : Node × Nat} (h : entersChain step = true) :
    followsLink step = false := by
  unfold entersChain at h
  split at h
  · rfl
  · cases h

theorem endsAt_of_entersChain {step : Node × Nat} {above : List (Node × Nat)}
    (h : entersChain step = true) (k : Nat) : EndsAt (step :: above) k ↔ k = 0 := by
  cases k with
  | zero => simp [EndsAt, h]
  | succ k => simp [EndsAt, followsLink_of_entersChain h]

theorem endsAt_of_followsLink {step : Node × Nat} {above : List (Node × Nat)}
    (h : followsLink step = true) (k : Nat) :
    EndsAt (step :: above) k ↔ ∃ j, k = j + 1 ∧ EndsAt above j := by
  cases k with
  | zero =>
    have hno : entersChain step = false :=
      Bool.eq_false_iff.mpr fun hchain => Bool.false_ne_true
        ((followsLink_of_entersChain hchain).symm.trans h)
    simp [EndsAt, hno]
  | succ k => simp [EndsAt, h]

/-- A child stands apart, at the end of a link or directly in a chain. -/
theorem apart_or_link {n c : Node} {i : Nat} (hc : n.children[i]? = some c) :
    c ∈ n.apart ∨ followsLink (n, i) = true ∨ entersChain (n, i) = true := by
  unfold apart
  split
  · match i, hc with
    | 0, _ => exact .inr (.inl rfl)
    | 1, hc =>
      cases hc
      exact .inl List.mem_cons_self
  · match i, hc with
    | 0, _ => exact .inr (.inl rfl)
    | i + 1, hc => exact .inl (List.mem_of_getElem? (i := i) hc)
  · exact .inr (.inr rfl)
  · exact .inl (List.mem_of_getElem? hc)

/-- A link leads from an expression to an expression. -/
theorem link_of_followsLink {n c : Node} {i : Nat} (h : followsLink (n, i) = true)
    (hc : n.children[i]? = some c) :
    ∃ e below, n = .expression e ∧ c = .expression below ∧ e.link? = some below := by
  unfold followsLink at h
  split at h
  · rename_i heq
    cases heq
    cases hc
    exact ⟨_, _, rfl, rfl, rfl⟩
  · rename_i heq
    cases heq
    cases hc
    exact ⟨_, _, rfl, rfl, rfl⟩
  · cases h

theorem expression_of_entersChain {n c : Node} {i : Nat} (h : entersChain (n, i) = true)
    (hc : n.children[i]? = some c) : ∃ e, c = .expression e := by
  unfold entersChain at h
  split at h
  · rename_i heq
    cases heq
    exact ⟨_, List.mem_singleton.mp (List.mem_of_getElem? hc)⟩
  · cases h

section Fitting

variable {keepsParens : Bool} {root : Node} {above : List (Node × Nat)}

theorem Path.fits (hroot : root.Every (Fits keepsParens)) {n : Node} (h : Path root above n) :
    n.Fits keepsParens := hroot n (within_iff_path.mpr ⟨above, h⟩)

/-- Each optional link has one chain around it, to which links lead up. -/
theorem existsUnique_endsAt (hroot : root.Every (Fits keepsParens))
    (hstart : ∀ e, root = .expression e → e.isOpen = false) {e : Expression}
    (h : Path root above (.expression e)) (hopen : e.isOpen = true) : ∃! k, EndsAt above k := by
  induction above generalizing e with
  | nil =>
    cases h
    exact absurd hopen (Bool.eq_false_iff.mp (hstart e rfl))
  | cons step above ih =>
    cases h with
    | down hn hc =>
      rcases apart_or_link hc with hapart | hlink | hchain
      · exact absurd hopen (Bool.eq_false_iff.mp ((hn.fits hroot).apart _ hapart))
      · obtain ⟨upper, _, rfl, ⟨⟩, hupper⟩ := link_of_followsLink hlink hc
        obtain ⟨k, hk, honly⟩ := ih hn (Expression.isOpen_of_link hupper hopen)
        refine ⟨k + 1, (endsAt_of_followsLink hlink _).mpr ⟨k, rfl, hk⟩, fun j hj => ?_⟩
        obtain ⟨i, rfl, hi⟩ := (endsAt_of_followsLink hlink _).mp hj
        exact congrArg (· + 1) (honly i hi)
      · exact ⟨0, (endsAt_of_entersChain hchain 0).mpr rfl, fun j hj =>
          (endsAt_of_entersChain hchain j).mp hj⟩

/-- Imports and exports stand in nothing else. -/
theorem eq_nil_of_isModuleItem (hroot : root.Every (Fits keepsParens)) {x : Statement}
    (h : Path root above (.statement x)) (hitem : x.isModuleItem = true) : above = [] := by
  cases above with
  | nil => rfl
  | cons step above =>
    cases h with
    | down hn hc =>
      rcases apart_or_link hc with hapart | hlink | hchain
      · have hfree := (hn.fits hroot).apart _ hapart
        exact absurd hitem (Bool.eq_false_iff.mp hfree)
      · obtain ⟨_, _, _, ⟨⟩, _⟩ := link_of_followsLink hlink hc
      · obtain ⟨_, ⟨⟩⟩ := expression_of_entersChain hchain hc

end Fitting

end Node

/-- Optional chains of a program have one boundary each. -/
structure Program.ChainsFit (keepsParens : Bool) (p : Program) : Prop where
  /-- Links lead up from an optional member or call to one chain. -/
  boundary : ∀ x ∈ p.body, ∀ above e, Node.Path (.statement x) above (.expression e) →
    e.isOptional = true → ∃! k, Node.EndsAt above k
  /-- A chain is a member or call from which links lead down to an optional one. -/
  wraps : ∀ span e, p.Contains (.expression (.chain span e)) →
    e.link?.isSome = true ∧ ∃ below, e.Reaches below ∧ below.isOptional = true
  updates : ∀ span operator isBefore e,
    p.Contains (.expression (.update span operator isBefore e)) → e.withoutParens.isChain = false
  /-- No link down from a member that is a target is optional. -/
  targets : ∀ span object property computed optional,
    p.Contains (.pattern (.member span object property computed optional)) →
      optional = false ∧ ∀ below, object.Reaches below → below.isOptional = false
  /-- When parentheses are kept, they stand around a chain that something is applied to. -/
  operands : keepsParens = true →
    (∀ e operand, p.Contains (.expression e) → e.operand? = some operand →
      operand.isChain = false) ∧
    ∀ span object property computed optional,
      p.Contains (.pattern (.member span object property computed optional)) →
        object.isChain = false

theorem Program.chainsFit {keepsParens : Bool} {p : Program}
    (h : ∀ x ∈ p.body, (Node.statement x).Every (Node.Fits keepsParens)) :
    p.ChainsFit keepsParens := by
  have hfits : ∀ {n}, p.Contains n → n.Fits keepsParens := by
    rintro n ⟨x, hx, hwithin⟩
    exact h x hx n hwithin
  constructor
  · intro x hx above e hpath hoptional
    exact Node.existsUnique_endsAt (h x hx) nofun hpath (Expression.isOpen_of_isOptional hoptional)
  · intro span e hchain
    have hopen : e.isOpen = true := (hfits hchain).operand
    exact ⟨Expression.link_of_isOpen hopen, Expression.reaches_of_isOpen hopen⟩
  · intro span operator isBefore e hupdate
    exact (hfits hupdate).operand
  · intro span object property computed optional htarget
    refine ⟨(hfits htarget).operand.1, fun below hbelow => Bool.eq_false_iff.mpr fun hoptional =>
      ?_⟩
    have hclosed := (hfits htarget).apart (.expression object) List.mem_cons_self
    exact Bool.eq_false_iff.mp hclosed (Expression.isOpen_of_reaches hbelow hoptional)
  · intro hkeeps
    refine ⟨fun e operand he hoperand => ?_, fun _ _ _ _ _ htarget =>
      (hfits htarget).operand.2 hkeeps⟩
    have hsuits := (hfits he).operand
    cases e <;> cases hoperand <;> exact hsuits hkeeps

end EcmaSyntax.Tree
