import EcmaSyntax.Grammar.Program
import EcmaSyntax.Proofs.Grammar.Preserve
import EcmaSyntax.Proofs.Tree.Node

/-!
What all nodes that a step makes have in common. The value that a step returns may hold nodes in
lists, pairs and records of its own. A node that asks nothing special of what is below it has the
property if the nodes directly below it have it, so a step made of steps that make such nodes
makes such nodes, which is left to instances.
-/

namespace EcmaSyntax.Tree

/-- The node asks nothing special of what is below it, nor of what is above. -/
@[reducible] def Node.isPlain : Node → Bool
  | .expression (.member _ _ _ _ _) | .expression (.call _ _ _ _) | .expression (.newCall _ _ _)
  | .expression (.taggedTemplate _ _ _ _ _) | .expression (.chain _ _)
  | .expression (.update _ _ _ _) | .pattern (.member _ _ _ _ _)
  | .statement (.importDeclaration _) | .statement (.exportDeclaration _ _)
  | .statement (.exportNames _) | .statement (.exportAll _)
  | .statement (.exportDefaultFunction _ _) | .statement (.exportDefaultClass _ _)
  | .statement (.exportDefault _ _) => false
  | _ => true

/-- A property that plain nodes have if the nodes directly below have another, which may be the
same. -/
class Forms (Q : Node → Prop) (P : outParam (Node → Prop)) : Prop where
  plain : ∀ n : Node, n.isPlain = true → (∀ c ∈ n.children, P c) → Q n

/-- Nodes with the property `Q` are made of nodes with the property `P`. The class has nothing to
prove: it tells the search for instances of `Makes` which property to look for in the parts. -/
class Needs (Q : Node → Prop) (P : outParam (Node → Prop)) : Prop

instance {Q P : Node → Prop} [Forms Q P] : Needs Q P := ⟨⟩

end EcmaSyntax.Tree

namespace EcmaSyntax.Grammar

open EcmaSyntax.Diagnostic EcmaSyntax.Scope EcmaSyntax.Tree

variable {version : Nat} [Unicode.IdentifierChars version]

variable {α β γ : Type} {P Q : Node → Prop}

/-- Values that hold nodes. -/
class Forest (α : Type) where
  all : (Node → Prop) → α → Prop

/-- Nothing is said of other values. -/
instance (priority := low) forestNone : Forest α := ⟨fun _ _ => True⟩

/-- All nodes in the value have the property. -/
class AllIn (P : Node → Prop) [Forest α] (a : α) : Prop where
  all : Forest.all P a

/-- Values without nodes. -/
class Bare (α : Type) [Forest α] : Prop where
  all : ∀ P (a : α), Forest.all P a

section Values

variable [Forest α] [Forest β]

instance (priority := low) : @Bare α forestNone := @Bare.mk α forestNone fun _ _ => trivial

instance : Forest (List α) := ⟨fun P items => ∀ a ∈ items, Forest.all P a⟩
instance : Forest (Option α) := ⟨fun P item => ∀ a ∈ item, Forest.all P a⟩
instance : Forest (α × β) := ⟨fun P pair => Forest.all P pair.1 ∧ Forest.all P pair.2⟩
instance : Forest (Round α) := ⟨fun P => Round.Adds (Forest.all P)⟩

instance [Bare α] : Bare (List α) := ⟨fun P _ a _ => Bare.all P a⟩
instance [Bare α] : Bare (Option α) := ⟨fun P _ a _ => Bare.all P a⟩
instance [Bare α] [Bare β] : Bare (α × β) := ⟨fun P _ => ⟨Bare.all P _, Bare.all P _⟩⟩

instance (priority := low) [Bare α] {a : α} : AllIn P a := ⟨Bare.all P a⟩
instance {a : {a : α // AllIn P a}} : AllIn P a.1 := a.2

instance {a : α} {b : β} [ha : AllIn P a] [hb : AllIn P b] : AllIn P (a, b) := ⟨ha.all, hb.all⟩
instance {pair : α × β} [h : AllIn P pair] : AllIn P pair.1 := ⟨h.all.1⟩
instance {pair : α × β} [h : AllIn P pair] : AllIn P pair.2 := ⟨h.all.2⟩
instance : AllIn P (none : Option α) := ⟨nofun⟩
instance {a : α} [h : AllIn P a] : AllIn P (some a) := ⟨by rintro _ ⟨⟩; exact h.all⟩
theorem AllIn.of_some {a : α} (h : AllIn P (some a)) : AllIn P a := ⟨h.all a rfl⟩

instance : AllIn P ([] : List α) := ⟨List.forall_mem_nil _⟩

instance {a : α} {items : List α} [ha : AllIn P a] [h : AllIn P items] : AllIn P (a :: items) :=
  ⟨List.forall_mem_cons.mpr ⟨ha.all, h.all⟩⟩

instance {items others : List α} [h : AllIn P items] [h' : AllIn P others] :
    AllIn P (items ++ others) := ⟨List.forall_mem_append.mpr ⟨h.all, h'.all⟩⟩

instance {p : Prop} [Decidable p] {a b : α} [AllIn P a] [AllIn P b] :
    AllIn P (if p then a else b) := by
  split <;> infer_instance

instance {items : List (α × β)} [h : AllIn P items] : AllIn P (items.map Prod.fst) :=
  ⟨List.forall_mem_map.mpr fun pair hpair => (h.all pair hpair).1⟩

instance {items : List (α × Option β)} [h : AllIn P items] :
    AllIn P (items.filterMap Prod.snd) := by
  refine ⟨fun b hb => ?_⟩
  obtain ⟨pair, hpair, heq⟩ := List.mem_filterMap.mp hb
  exact (h.all pair hpair).2 b heq

instance {items : List (Option α)} [h : AllIn P items] : AllIn P (items.filterMap id) := by
  refine ⟨fun a ha => ?_⟩
  obtain ⟨item, hitem, heq⟩ := List.mem_filterMap.mp ha
  exact h.all item hitem a heq

instance : AllIn P (Round.stop : Round α) := ⟨trivial⟩
instance {a : α} [h : AllIn P a] : AllIn P (Round.last a) := ⟨h.all⟩
instance {a : α} [h : AllIn P a] : AllIn P (Round.more a) := ⟨h.all⟩

end Values

section Nodes

instance : Forest Node := ⟨fun P n => P n⟩
instance : Forest Expression := ⟨fun P e => P (.expression e)⟩
instance : Forest Element := ⟨fun P x => P (.element x)⟩
instance : Forest ObjectMember := ⟨fun P m => P (.member m)⟩
instance : Forest Tree.Function := ⟨fun P f => P (.function f)⟩
instance : Forest Pattern := ⟨fun P p => P (.pattern p)⟩
instance : Forest PatternProperty := ⟨fun P p => P (.patternProperty p)⟩
instance : Forest ClassDefinition := ⟨fun P c => P (.classDefinition c)⟩
instance : Forest ClassElement := ⟨fun P x => P (.classElement x)⟩
instance : Forest Decorator := ⟨fun P d => P (.decorator d)⟩
instance : Forest Statement := ⟨fun P x => P (.statement x)⟩
instance : Forest SwitchCase := ⟨fun P c => P (.switchCase c)⟩
instance : Forest CatchClause := ⟨fun P c => P (.catchClause c)⟩
instance : Forest ForHead := ⟨fun P h => P (.forHead h)⟩
instance : Forest VariableDeclarator := ⟨fun P d => P (.declarator d)⟩
instance : Forest Markup := ⟨fun P m => P (.markup m)⟩
instance : Forest MarkupAttribute := ⟨fun P a => P (.markupAttribute a)⟩
instance : Forest MarkupAttributeValue := ⟨fun P v => P (.markupValue v)⟩
instance : Forest MarkupChild := ⟨fun P c => P (.markupChild c)⟩

instance {e : Expression} [h : AllIn P e] : AllIn P (Node.expression e) := ⟨h.all⟩
instance {f : Tree.Function} [h : AllIn P f] : AllIn P (Node.function f) := ⟨h.all⟩
instance {p : Pattern} [h : AllIn P p] : AllIn P (Node.pattern p) := ⟨h.all⟩
instance {c : ClassDefinition} [h : AllIn P c] : AllIn P (Node.classDefinition c) := ⟨h.all⟩
instance {x : Statement} [h : AllIn P x] : AllIn P (Node.statement x) := ⟨h.all⟩
instance {c : CatchClause} [h : AllIn P c] : AllIn P (Node.catchClause c) := ⟨h.all⟩
instance {h : ForHead} [h' : AllIn P h] : AllIn P (Node.forHead h) := ⟨h'.all⟩
instance {m : Markup} [h : AllIn P m] : AllIn P (Node.markup m) := ⟨h.all⟩
instance {v : MarkupAttributeValue} [h : AllIn P v] : AllIn P (Node.markupValue v) := ⟨h.all⟩

/-- A kind of nodes. -/
class IsKind [Forest α] (kind : α → Node) : Prop where
  all : ∀ {P : Node → Prop} {a}, Forest.all P a → P (kind a)

instance : IsKind Node.expression := ⟨id⟩
instance : IsKind Node.element := ⟨id⟩
instance : IsKind Node.member := ⟨id⟩
instance : IsKind Node.pattern := ⟨id⟩
instance : IsKind Node.patternProperty := ⟨id⟩
instance : IsKind Node.classElement := ⟨id⟩
instance : IsKind Node.decorator := ⟨id⟩
instance : IsKind Node.statement := ⟨id⟩
instance : IsKind Node.switchCase := ⟨id⟩
instance : IsKind Node.declarator := ⟨id⟩
instance : IsKind Node.markupAttribute := ⟨id⟩
instance : IsKind Node.markupChild := ⟨id⟩

instance [Forest α] {kind : α → Node} [hkind : IsKind kind] {items : List α} [h : AllIn P items] :
    AllIn P (items.map kind) := ⟨List.forall_mem_map.mpr fun a ha => hkind.all (h.all a ha)⟩

instance {e : Option Expression} [h : AllIn P e] : AllIn P (Node.ofOption e) :=
  ⟨List.forall_mem_map.mpr fun e he => h.all e (Option.mem_toList.mp he)⟩

/-- The flag is set. -/
class IsTrue (flag : Bool) : Prop where
  out : flag = true

instance : IsTrue true := ⟨rfl⟩

/-- The node has the property since those directly below it are as they should be. -/
class Over (Q : Node → Prop) (n : Node) : Prop where
  holds : Q n

instance [hP : Forms Q P] {n : Node} [h : IsTrue n.isPlain] [hc : AllIn P n.children] : Over Q n :=
  ⟨hP.plain n h.out hc.all⟩

instance {e : Expression} [h : Over P (.expression e)] : AllIn P e := ⟨h.holds⟩
instance {x : Element} [h : Over P (.element x)] : AllIn P x := ⟨h.holds⟩
instance {m : ObjectMember} [h : Over P (.member m)] : AllIn P m := ⟨h.holds⟩
instance {f : Tree.Function} [h : Over P (.function f)] : AllIn P f := ⟨h.holds⟩
instance {p : Pattern} [h : Over P (.pattern p)] : AllIn P p := ⟨h.holds⟩
instance {p : PatternProperty} [h : Over P (.patternProperty p)] : AllIn P p := ⟨h.holds⟩
instance {c : ClassDefinition} [h : Over P (.classDefinition c)] : AllIn P c := ⟨h.holds⟩
instance {x : ClassElement} [h : Over P (.classElement x)] : AllIn P x := ⟨h.holds⟩
instance {d : Decorator} [h : Over P (.decorator d)] : AllIn P d := ⟨h.holds⟩
instance {x : Statement} [h : Over P (.statement x)] : AllIn P x := ⟨h.holds⟩
instance {c : SwitchCase} [h : Over P (.switchCase c)] : AllIn P c := ⟨h.holds⟩
instance {c : CatchClause} [h : Over P (.catchClause c)] : AllIn P c := ⟨h.holds⟩
instance {h : ForHead} [h' : Over P (.forHead h)] : AllIn P h := ⟨h'.holds⟩
instance {d : VariableDeclarator} [h : Over P (.declarator d)] : AllIn P d := ⟨h.holds⟩
instance {m : Markup} [h : Over P (.markup m)] : AllIn P m := ⟨h.holds⟩
instance {a : MarkupAttribute} [h : Over P (.markupAttribute a)] : AllIn P a := ⟨h.holds⟩
instance {v : MarkupAttributeValue} [h : Over P (.markupValue v)] : AllIn P v := ⟨h.holds⟩
instance {c : MarkupChild} [h : Over P (.markupChild c)] : AllIn P c := ⟨h.holds⟩

end Nodes

section Records

instance : Forest TemplateParts := ⟨fun P parts => Forest.all P parts.expressions⟩
instance : Forest FunctionParts := ⟨fun P parts => Forest.all P (parts.params, parts.body)⟩
instance : Forest GroupItem := ⟨fun P item => Forest.all P item.expression⟩

instance : Forest ArrowBody := ⟨fun P body =>
  match body with
  | .concise e => Forest.all P e
  | .block _ statements _ => Forest.all P statements⟩

instance {parts : TemplateParts} [h : AllIn P parts] : AllIn P parts.expressions := ⟨h.all⟩
instance {parts : FunctionParts} [h : AllIn P parts] : AllIn P parts.params := ⟨h.all.1⟩
instance {parts : FunctionParts} [h : AllIn P parts] : AllIn P parts.body := ⟨h.all.2⟩
instance {item : GroupItem} [h : AllIn P item] : AllIn P item.expression := ⟨h.all⟩

instance {span : Text.Span} {quasis : List TemplateElement} {expressions : List Expression}
    [h : AllIn P expressions] : AllIn P (TemplateParts.mk span quasis expressions) := ⟨h.all⟩

instance {params : List Pattern} {span : Text.Span} {body : List Statement} [h : AllIn P params]
    [h' : AllIn P body] : AllIn P (FunctionParts.mk params span body) := ⟨h.all, h'.all⟩

instance {start : Nat} {isRest comma : Bool} {e : Expression} {cover : Cover} [h : AllIn P e] :
    AllIn P (GroupItem.mk start isRest e cover comma) := ⟨h.all⟩

instance {e : Expression} [h : AllIn P e] : AllIn P (ArrowBody.concise e) := ⟨h.all⟩

instance {span : Text.Span} {body : List Statement} {strict : Bool} [h : AllIn P body] :
    AllIn P (ArrowBody.block span body strict) := ⟨h.all⟩

end Records

/-- The results of a step have a property wherever it starts. -/
abbrev Returns (Q : α → Prop) (step : Parser α) : Prop := Preserves (fun _ => True) Q step

instance : Robust fun _ => True := ⟨fun _ _ => trivial⟩

instance {step : Parser α} : Steady (fun _ => True) step :=
  ⟨fun _ _ => .of_results fun _ _ => ⟨trivial, trivial⟩⟩

/-- All nodes that the step makes have the property. -/
class Makes (P : Node → Prop) [Forest α] (step : Parser α) : Prop where
  makes : Returns (AllIn P) step

section Steps

variable [Forest α] [Forest β] [Forest γ] {step : Parser α} {rest : α → Parser β}

theorem Makes.yields [h : Makes P step] (s : State) : Yields step (fun a _ => AllIn P a) s :=
  (h.makes s trivial).mono fun _ _ ha => ha.2

theorem Makes.of_yields (h : ∀ s, Yields step (fun a _ => AllIn P a) s) : Makes P step :=
  ⟨fun s _ => (h s).mono fun _ _ ha => ⟨trivial, ha⟩⟩

/-- A step that fails. -/
theorem Makes.stop (h : Stops step) : Makes P step := ⟨h.preserves⟩

instance {a : α} [h : AllIn P a] : Makes P (pure a : Parser α) := ⟨.pure h⟩

omit [Forest α] in
/-- A step whose result does not matter. -/
theorem Makes.skip (h : ∀ a, Makes Q (rest a)) : Makes Q (step >>= rest) :=
  ⟨.skip fun a => (h a).makes⟩

theorem Makes.bind (h : Makes P step) (hrest : ∀ a, AllIn P a → Makes Q (rest a)) :
    Makes Q (step >>= rest) := ⟨h.makes.bind fun a ha => (hrest a ha).makes⟩

-- The nodes in a result are known to have the property by the type of the result, since what is
-- assumed of a bound variable is no instance.
instance [Needs Q P] [h : Makes P step] [hrest : ∀ a : {a // AllIn P a}, Makes Q (rest a.1)] :
    Makes Q (step >>= rest) := h.bind fun a ha => hrest ⟨a, ha⟩

instance (priority := high) [Bare α] [h : ∀ a, Makes Q (rest a)] : Makes Q (step >>= rest) :=
  .skip h

instance (priority := high) {step : Parser Unit} {rest : Unit → Parser β} [h : Makes Q (rest ())] :
    Makes Q (step >>= rest) := .skip fun _ => h

instance (priority := high) {step : Parser (α × β)} {rest : α × β → Parser γ} [Needs Q P]
    [h : Makes P step] [hrest : ∀ (a : {a // AllIn P a}) (b : {b // AllIn P b}),
      Makes Q (rest (a.1, b.1))] : Makes Q (step >>= rest) :=
  h.bind fun pair _ => hrest ⟨pair.1, inferInstance⟩ ⟨pair.2, inferInstance⟩

instance (priority := low) [Bare α] : Makes P step :=
  .of_yields fun _ => .of_results fun a _ => ⟨Bare.all P a⟩

instance {f : α → β} [Needs Q P] [h : Makes P step]
    [hf : ∀ a : {a // AllIn P a}, AllIn Q (f a.1)] : Makes Q (f <$> step) :=
  ⟨.map (h.makes.mono fun a ha => hf ⟨a, ha⟩)⟩

instance {p : Prop} [Decidable p] {first second : Parser α} [Makes P first] [Makes P second] :
    Makes P (if p then first else second) := by
  split <;> infer_instance

instance {cause : Cause} {offset : Nat} : Makes P (failAt cause offset : Parser α) :=
  .stop (stops_failAt _ _)

instance {cause : Cause} : Makes P (fail cause : Parser α) := .stop (stops_fail _)

instance : Makes P (unexpected : Parser α) := .stop stops_unexpected

instance [h : Makes P step] : Makes P (nested step) := by
  unfold nested
  exact .skip fun _ => h.bind fun _ _ => inferInstance

theorem Makes.nested (h : Makes P step) : Makes P (nested step) := inferInstance

instance {roles : List Role} [h : Makes P step] : Makes P (inScope roles step) := by
  unfold inScope
  exact .skip fun _ => h.bind fun _ _ => inferInstance

instance [h : Makes P step] : Makes P (asFunction step) := by
  unfold asFunction
  exact .skip fun _ => .skip fun _ => h.bind fun _ _ => inferInstance

/-- What a conversion makes of nodes with the property. -/
theorem Makes.ofExcept {found : Except Failure α} (h : ∀ a, found = .ok a → AllIn P a) :
    Makes P (ofExcept found) := ⟨(preserves_ofExcept found).mono h⟩

variable {g : Phrases}

instance {round : List α → Parser (Round α)} [h : ∀ earlier, Makes P (round earlier)] :
    Makes P (g.collect round) := by
  have hcollect := Phrases.collect_preserves (g := g) (I := fun _ => True) (P := Forest.all P)
    fun earlier _ => (h earlier).makes.mono fun _ ha => ha.all
  exact ⟨hcollect.mono fun _ hitems => ⟨hitems⟩⟩

instance {close : Token} {item : List α → Parser α} [Needs P P]
    [∀ earlier, Makes P (item earlier)] : Makes P (g.listed close item) := by
  unfold Phrases.listed; infer_instance

instance {close : Token} {item : Parser α} [Needs P P] [Makes P item] :
    Makes P (g.itemsUpTo close item) := by
  unfold Phrases.itemsUpTo; infer_instance

instance {round : α → Parser (Option α)} {fuel : Nat} {a : α} [ha : AllIn P a]
    [h : ∀ a : {a // AllIn P a}, Makes P (round a.1)] : Makes P (iterate round fuel a) :=
  ⟨.iterate (fun a ha => (h ⟨a, ha⟩).makes.mono fun _ hfound b hb => ⟨hfound.all b hb⟩) fuel ha⟩

end Steps

end EcmaSyntax.Grammar
