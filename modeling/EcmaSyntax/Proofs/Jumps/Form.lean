import EcmaSyntax.Proofs.Tree.Node
import EcmaSyntax.Grammar.Context
import EcmaSyntax.Scope.Labels

/-!
Where jumps lead. A node of a program stands at the end of steps down, of which those
behind the nearest boundary are forgotten: no jump leaves a function, the initial value
of a field or a static block. The steps that are left say which labels are open, and
whether a loop or a switch is.

What a parse knows about the targets of jumps, next to the steps that lead to a node.
The labels of the state and two flags of the context promise that there are targets;
steps cover them if they keep the promise.
-/

namespace EcmaSyntax.Tree

namespace Statement

def isIteration : Statement → Bool
  | .whileStatement _ _ _ | .doWhileStatement _ _ _ | .forStatement _ _ _ _ _
  | .forInStatement _ _ _ _ | .forOfStatement _ _ _ _ _ => true
  | _ => false

/-- A loop, with or without labels before it. -/
def isLoop : Statement → Bool
  | .labeled _ _ body => body.isLoop
  | s => s.isIteration

end Statement

/-- A node and one directly below it. -/
abbrev Step := Node × Node

namespace Step

/-- The label that the step goes behind, and whether it is that of a loop. -/
def label? : Step → Option (String × Bool)
  | (.statement (.labeled _ label body), _) => some (label.name, body.isLoop)
  | _ => none

/-- The step goes into the body of a loop. -/
def entersLoop : Step → Bool
  | (.statement s, .statement _) => s.isIteration
  | _ => false

/-- The step goes into a case of a switch. -/
def entersSwitch : Step → Bool
  | (.statement (.switchStatement _ _ _), .switchCase _) => true
  | _ => false

end Step

namespace Node

/-- The nodes directly below a node that no jump leaves. -/
def closedParts : Node → List Node
  | .function f => children (.function f)
  | .expression (.arrow span isAsync params body) =>
    children (.expression (.arrow span isAsync params body))
  | .expression (.blockArrow span isAsync params bodySpan body) =>
    children (.expression (.blockArrow span isAsync params bodySpan body))
  | .classElement (.field _ _ _ _ value _) => ofOption value
  | .classElement (.staticBlock span body) => children (.classElement (.staticBlock span body))
  | _ => []

/-- The other nodes directly below a node. -/
def openParts : Node → List Node
  | .function _ | .expression (.arrow _ _ _ _) | .expression (.blockArrow _ _ _ _ _)
  | .classElement (.staticBlock _ _) => []
  | .classElement (.field _ _ _ key _ decorators) => expression key :: decorators.map decorator
  | n => n.children

theorem mem_children {n c : Node} : c ∈ n.children ↔ c ∈ n.openParts ∨ c ∈ n.closedParts := by
  unfold openParts closedParts
  split <;> simp [children, or_assoc, or_comm]

/-- A step down from a node, and the steps that count below it. -/
inductive Descends : List Step × Node → List Step × Node → Prop
  | inside {steps n c} (hc : c ∈ n.openParts) : Descends (steps, n) ((n, c) :: steps, c)
  | beyond {steps n c} (hc : c ∈ n.closedParts) : Descends (steps, n) ([], c)

end Node

/-- What the steps to a node allow it to be. A jump with a label needs one that is open,
which names a loop if the jump continues it; a jump without label needs a loop, or a
switch to break out of. A label is not open already. -/
def JumpFits (steps : List Step) : Node → Prop
  | .statement (.continueStatement _ (some label)) =>
    ∃ step ∈ steps, step.label? = some (label.name, true)
  | .statement (.continueStatement _ none) => ∃ step ∈ steps, step.entersLoop = true
  | .statement (.breakStatement _ (some label)) =>
    ∃ step ∈ steps, ∃ isLoop, step.label? = some (label.name, isLoop)
  | .statement (.breakStatement _ none) =>
    ∃ step ∈ steps, step.entersLoop = true ∨ step.entersSwitch = true
  | .statement (.labeled _ label _) =>
    ∀ step ∈ steps, ∀ isLoop, step.label? ≠ some (label.name, isLoop)
  | _ => True

/-- The node stands in the program behind these steps, the last one first. -/
def Program.Stands (p : Program) (steps : List Step) (n : Node) : Prop :=
  ∃ s ∈ p.body, Relation.ReflTransGen Node.Descends ([], .statement s) (steps, n)

/-- What stands in a program is every node of it. -/
theorem Program.contains_iff_stands {p : Program} {n : Node} :
    p.Contains n ↔ ∃ steps, p.Stands steps n := by
  constructor
  · rintro ⟨s, hs, hwithin⟩
    suffices h : ∃ steps, Relation.ReflTransGen Node.Descends ([], .statement s) (steps, n) from
      h.imp fun steps h => ⟨s, hs, h⟩
    induction hwithin with
    | refl => exact ⟨[], .refl⟩
    | tail _ hc ih =>
      obtain ⟨steps, h⟩ := ih
      rcases Node.mem_children.mp hc with hopen | hclosed
      · exact ⟨_, h.tail (.inside hopen)⟩
      · exact ⟨_, h.tail (.beyond hclosed)⟩
  · rintro ⟨steps, s, hs, h⟩
    refine ⟨s, hs, h.lift Prod.snd fun a b hab => ?_⟩
    cases hab with
    | inside hc => exact Node.mem_children.mpr (.inl hc)
    | beyond hc => exact Node.mem_children.mpr (.inr hc)

/-- All jumps in a node lead somewhere when these steps lead to the node. -/
def Resolved (steps : List Step) (n : Node) : Prop :=
  ∀ place, Relation.ReflTransGen Node.Descends (steps, n) place → JumpFits place.1 place.2

namespace Resolved

variable {steps : List Step} {n : Node}

theorem node (hn : JumpFits steps n) (hopen : ∀ c ∈ n.openParts, Resolved ((n, c) :: steps) c)
    (hclosed : ∀ c ∈ n.closedParts, Resolved [] c) : Resolved steps n := by
  intro place hplace
  rcases Relation.ReflTransGen.cases_head hplace with heq | ⟨next, hstep, hrest⟩
  · rwa [← heq]
  · cases hstep with
    | inside hc => exact hopen _ hc place hrest
    | beyond hc => exact hclosed _ hc place hrest

theorem below (h : Resolved steps n) {c : Node} (hc : c ∈ n.children) :
    ∃ inner, Resolved inner c := by
  rcases Node.mem_children.mp hc with hopen | hclosed
  · exact ⟨_, fun place hplace => h place (.head (.inside hopen) hplace)⟩
  · exact ⟨_, fun place hplace => h place (.head (.beyond hclosed) hplace)⟩

theorem closed (h : Resolved steps n) {c : Node} (hc : c ∈ n.closedParts) : Resolved [] c :=
  fun place hplace => h place (.head (.beyond hc) hplace)

end Resolved

/-- The jumps in the body of a function, or in a static block, lead somewhere in it. -/
def Encloses : Node → Prop
  | .function f => ∀ s ∈ f.body, Resolved [] (.statement s)
  | .expression (.blockArrow _ _ _ _ body) => ∀ s ∈ body, Resolved [] (.statement s)
  | .classElement (.staticBlock _ body) => ∀ s ∈ body, Resolved [] (.statement s)
  | _ => True

/-- No jump leaves a function or static block in the node. -/
abbrev Enclosed (n : Node) : Prop := n.Every Encloses

theorem Resolved.encloses {steps : List Step} {n : Node} (h : Resolved steps n) : Encloses n := by
  unfold Encloses
  split
  · exact fun s hs => h.closed (by simp [Node.closedParts, Node.children, hs])
  · exact fun s hs => h.closed (by simp [Node.closedParts, Node.children, Node.ofExpression, hs])
  · exact fun s hs => h.closed (by simp [Node.closedParts, Node.children, hs])
  · trivial

theorem Resolved.enclosed {steps : List Step} {n : Node} (h : Resolved steps n) : Enclosed n := by
  intro m hm
  suffices hresolved : ∃ inner, Resolved inner m from hresolved.elim fun _ h => h.encloses
  induction hm with
  | refl => exact ⟨steps, h⟩
  | tail _ hc ih => exact ih.elim fun _ h => h.below hc

namespace Node

/-- The kinds of nodes that jumps stand in. -/
def isStatement : Node → Bool
  | .statement _ | .switchCase _ | .catchClause _ => true
  | _ => false

/-- Statements stand in other nodes only as bodies that no jump leaves. -/
theorem isStatement_openParts {n c : Node} (hn : n.isStatement = false) (hc : c ∈ n.openParts) :
    c.isStatement = false := by
  cases n with
  | statement | switchCase | catchClause => cases hn
  | expression e => cases e <;> grind [openParts, isStatement]
  | pattern p => cases p <;> grind [openParts, isStatement]
  | element x | member x | patternProperty x | classElement x | forHead x | markup x
  | markupAttribute x | markupValue x | markupChild x =>
    cases x <;> grind [openParts, isStatement]
  | function | classDefinition | decorator | declarator =>
    grind [openParts, isStatement]

theorem resolved_closedParts {n c : Node} (h : Encloses n) (hc : c ∈ n.closedParts)
    (hstatement : c.isStatement = true) : Resolved [] c := by
  unfold closedParts at hc
  split at hc
  · grind [isStatement, Encloses]
  · grind [isStatement]
  · grind [isStatement, Encloses]
  · grind [isStatement]
  · grind [isStatement, Encloses]
  · cases hc

end Node

/-- Outside of functions and static blocks there are no jumps in an expression. -/
theorem Resolved.of_enclosed {steps : List Step} {n : Node} (hn : n.isStatement = false)
    (h : Enclosed n) : Resolved steps n := by
  intro place hplace
  generalize hstart : (steps, n) = start at hplace
  induction hplace using Relation.ReflTransGen.head_induction_on generalizing steps n with
  | refl =>
    subst hstart
    cases n with
    | statement => cases hn
    | _ => trivial
  | head hstep hrest ih =>
    subst hstart
    cases hstep with
    | inside hc =>
      exact ih (Node.isStatement_openParts hn hc) (h.below (Node.mem_children.mpr (.inl hc))) rfl
    | @beyond _ _ c hc =>
      cases hstatement : c.isStatement with
      | false => exact ih hstatement (h.below (Node.mem_children.mpr (.inr hc))) rfl
      | true => exact Node.resolved_closedParts h.here hc hstatement _ hrest

end EcmaSyntax.Tree

namespace EcmaSyntax.Scope.Labels

theorem isIteration?_append (labels : Labels) (label : Label) (name : String) :
    isIteration? (labels ++ [label]) name =
      if label.name = name then some label.isIteration else isIteration? labels name := by
  unfold isIteration?
  rw [List.reverse_concat, List.find?_cons]
  by_cases h : label.name = name
  · simp [h]
  · rw [beq_false_of_ne h, if_neg h]

theorem contains_append (labels : Labels) (label : Label) (name : String) :
    contains (labels ++ [label]) name = (contains labels name || label.name == name) := by
  simp [contains]

theorem contains_markIteration (labels : Labels) (first : Nat) (name : String) :
    (labels.markIteration first).contains name = labels.contains name := by
  have h : ∀ labels : Labels, labels.contains name = (labels.map Label.name).any (· == name) := by
    intro labels
    simp [contains, Function.comp_def]
  rw [h, h, names_markIteration]

/-- No label stands behind the last one. -/
theorem markIteration_length (labels : Labels) : labels.markIteration labels.length = labels := by
  simp [markIteration]

theorem markIteration_append {labels : Labels} {first : Nat} (h : first ≤ labels.length)
    (label : Label) : markIteration (labels ++ [label]) first =
      labels.markIteration first ++ [{ label with isIteration := true }] := by
  simp [markIteration, List.take_append_of_le_length h, List.drop_append_of_le_length h]

end EcmaSyntax.Scope.Labels

namespace EcmaSyntax.Grammar

open EcmaSyntax.Scope EcmaSyntax.Tree

/-- The steps have the targets that the labels and the flags for loops and switches
promise, and no label that is not open. -/
structure Covers (steps : List Step) (labels : Labels) (inLoop inSwitch : Bool) : Prop where
  target : ∀ name isIteration, labels.isIteration? name = some isIteration →
    ∃ step ∈ steps, ∃ isLoop, step.label? = some (name, isLoop) ∧
      (isIteration = true → isLoop = true)
  named : ∀ step ∈ steps, ∀ name isLoop, step.label? = some (name, isLoop) →
    labels.contains name = true
  loop : inLoop = true → ∃ step ∈ steps, step.entersLoop = true
  switch : inSwitch = true → ∃ step ∈ steps, step.entersSwitch = true

namespace Covers

variable {steps : List Step} {labels : Labels} {inLoop inSwitch : Bool} {step : Step}

theorem nil : Covers [] [] false false :=
  ⟨nofun, nofun, nofun, nofun⟩

/-- Behind a step that is no label, all targets are left. -/
theorem cons (h : Covers steps labels inLoop inSwitch) (hstep : step.label? = none) :
    Covers (step :: steps) labels inLoop inSwitch where
  target name isIteration hname :=
    (h.target name isIteration hname).imp fun _ => .imp_left (List.mem_cons_of_mem _)
  named := List.forall_mem_cons.mpr ⟨fun name isLoop hlabel => by simp [hstep] at hlabel, h.named⟩
  loop hloop := (h.loop hloop).imp fun _ => .imp_left (List.mem_cons_of_mem _)
  switch hswitch := (h.switch hswitch).imp fun _ => .imp_left (List.mem_cons_of_mem _)

theorem enterLoop (h : Covers steps labels inLoop inSwitch) (hstep : step.label? = none)
    (hloop : step.entersLoop = true) : Covers (step :: steps) labels true inSwitch :=
  { h.cons hstep with loop := fun _ => ⟨step, List.mem_cons_self, hloop⟩ }

theorem enterSwitch (h : Covers steps labels inLoop inSwitch) (hstep : step.label? = none)
    (hswitch : step.entersSwitch = true) : Covers (step :: steps) labels inLoop true :=
  { h.cons hstep with switch := fun _ => ⟨step, List.mem_cons_self, hswitch⟩ }

/-- Behind a label there is one target more. -/
theorem enterLabel (h : Covers steps labels inLoop inSwitch) {name : String}
    {isLoop marked : Bool} (hstep : step.label? = some (name, isLoop))
    (hmarked : marked = true → isLoop = true) :
    Covers (step :: steps) (labels ++ [⟨name, marked⟩]) inLoop inSwitch where
  target other isIteration hother := by
    rw [Labels.isIteration?_append] at hother
    split at hother
    · rename_i heq
      cases heq
      cases hother
      exact ⟨step, List.mem_cons_self, isLoop, hstep, hmarked⟩
    · exact (h.target other isIteration hother).imp fun _ => .imp_left (List.mem_cons_of_mem _)
  named := by
    refine List.forall_mem_cons.mpr ⟨fun other loop hlabel => ?_, fun x hx other loop hlabel => ?_⟩
    · rw [hstep] at hlabel
      cases hlabel
      simp [Labels.contains_append]
    · simp [Labels.contains_append, h.named x hx other loop hlabel]
  loop hloop := (h.loop hloop).imp fun _ => .imp_left (List.mem_cons_of_mem _)
  switch hswitch := (h.switch hswitch).imp fun _ => .imp_left (List.mem_cons_of_mem _)

end Covers

/-- The jumps in a node lead somewhere where a parse has these labels and this context. -/
def Fits (labels : Labels) (ctx : Context) (n : Node) : Prop :=
  ∀ steps, Covers steps labels ctx.inIteration ctx.inSwitch → Resolved steps n

/-- Statements and clauses that jumps in them do not lead to, and that are no jumps. -/
def isTransparent : Node → Bool
  | .statement (.labeled _ _ _) | .statement (.breakStatement _ _)
  | .statement (.continueStatement _ _) | .statement (.switchStatement _ _ _) => false
  | .statement s => !s.isIteration
  | .switchCase _ | .catchClause _ => true
  | _ => false

namespace Fits

variable {labels : Labels} {ctx : Context}

/-- No jump leaves an expression. -/
theorem of_enclosed {n : Node} (hn : n.isStatement = false) (h : Enclosed n) :
    Fits labels ctx n := fun _ _ => .of_enclosed hn h

theorem expression {e : Expression} (h : Enclosed (.expression e)) :
    Fits labels ctx (.expression e) := .of_enclosed rfl h

theorem ofOption {e : Option Expression} (h : ∀ x ∈ e, Enclosed (.expression x)) :
    ∀ c ∈ Node.ofOption e, Fits labels ctx c := by
  cases e with
  | none => exact nofun
  | some x => exact List.forall_mem_singleton.mpr (.expression (h x rfl))

/-- What stands in a body that no jump leaves. -/
theorem resolved {n : Node} (h : Fits [] ctx n) (hloop : ctx.inIteration = false)
    (hswitch : ctx.inSwitch = false) : Resolved [] n :=
  h [] (by rw [hloop, hswitch]; exact .nil)

theorem node {n : Node} (hn : isTransparent n = true) (hc : ∀ c ∈ n.children, Fits labels ctx c) :
    Fits labels ctx n := by
  intro steps hsteps
  have hclosed : n.closedParts = [] := by
    cases n <;> first | rfl | cases hn
  have hlabel : ∀ c, Step.label? (n, c) = none := by
    intro c
    cases n with
    | statement s => cases s <;> first | rfl | cases hn
    | _ => rfl
  refine .node ?_ (fun c hmem => ?_) (by simp [hclosed])
  · cases n with
    | statement s => cases s <;> trivial
    | _ => trivial
  · exact hc c (Node.mem_children.mpr (.inl hmem)) _ (hsteps.cons (hlabel c))

theorem loop {s body : Statement} (hs : s.isIteration = true)
    (hbody : Fits labels { ctx with inIteration := true } (.statement body))
    (hparts : ∀ c ∈ Node.ofStatement s, c = .statement body ∨
      c.isStatement = false ∧ Enclosed c) : Fits labels ctx (.statement s) := by
  intro steps hsteps
  have hlabel : ∀ c, Step.label? (.statement s, c) = none := by
    intro c
    cases s <;> first | rfl | cases hs
  refine .node ?_ (fun c hmem => ?_) nofun
  · cases s <;> trivial
  · rcases hparts c hmem with rfl | ⟨hstatement, henclosed⟩
    · exact hbody _ (hsteps.enterLoop (hlabel _) hs)
    · exact .of_enclosed hstatement henclosed

theorem switch {span : Text.Span} {discriminant : Expression} {cases : List SwitchCase}
    (hdiscriminant : Enclosed (.expression discriminant))
    (hcases : ∀ c ∈ cases, Fits labels { ctx with inSwitch := true } (.switchCase c)) :
    Fits labels ctx (.statement (.switchStatement span discriminant cases)) := by
  intro steps hsteps
  refine .node trivial (fun c hmem => ?_) nofun
  rcases List.mem_cons.mp hmem with rfl | hmem
  · exact .of_enclosed rfl hdiscriminant
  · obtain ⟨c, hc, rfl⟩ := List.mem_map.mp hmem
    exact hcases c hc _ (hsteps.enterSwitch rfl rfl)

theorem labeled {span : Text.Span} {label : Identifier} {body : Statement} {marked : Bool}
    (hnew : labels.contains label.name = false) (hmarked : marked = true → body.isLoop = true)
    (hbody : Fits (labels ++ [⟨label.name, marked⟩]) ctx (.statement body)) :
    Fits labels ctx (.statement (.labeled span label body)) := by
  intro steps hsteps
  refine .node (fun step hstep isLoop hlabel => ?_) (fun c hmem => ?_) nofun
  · rw [hsteps.named step hstep _ _ hlabel] at hnew
    cases hnew
  · obtain rfl := List.mem_singleton.mp hmem
    exact hbody _ (hsteps.enterLabel rfl hmarked)

end Fits

end EcmaSyntax.Grammar
