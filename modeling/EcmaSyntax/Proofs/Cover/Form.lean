import EcmaSyntax.Grammar.Conversion
import EcmaSyntax.Proofs.Tree.Node
import EcmaSyntax.Proofs.Grammar.Outcome
import EcmaSyntax.Proofs.Grammar.Conversion

/-!
Object literals that make sense only as patterns. A literal just read may still
become a pattern, and so may the literals that are its parts; a literal that
stays an expression has to be plain. `Checked` describes the trees in which
this has been settled: for `Checked false` everywhere, for `Checked true`
everywhere but in the parts of the literal at the root.

The cover state as a promise about the expression just read: when it is clear,
the expression is settled, and in any case only the parts of a literal are
open. A check of the cover state turns the promise into a fact, and so does
turning the literal into a pattern, since a pattern has no open parts.
-/

namespace EcmaSyntax.Grammar

open EcmaSyntax.Diagnostic EcmaSyntax.Tree

variable {version : Nat} [Unicode.IdentifierChars version]

/-- A shorthand property with an initializer. -/
def hasInitializer : ObjectMember → Bool
  | .property _ _ (.assignment _ _ _ _) _ _ shorthand _ => shorthand
  | _ => false

/-- The members of an object that is an expression: no shorthand has an
initializer, and the prototype is set at most once. -/
structure PlainMembers (members : List ObjectMember) : Prop where
  noInitializer : ∀ m ∈ members, hasInitializer m = false
  oneProto : (members.filter setsProto).length ≤ 1

def IsPlain : Node → Prop
  | .expression (.object _ members) => PlainMembers members
  | _ => True

/-- The second node is the first or a part of the literal that the first is. A
`new` without arguments belongs to what it is applied to. -/
inductive LiteralPart : Node → Node → Prop
  | refl (n : Node) : LiteralPart n n
  | item {span elements x m} (hx : x ∈ elements) (h : LiteralPart (.element x) m) :
      LiteralPart (.expression (.array span elements)) m
  | element {x c m} (hc : c ∈ (Node.element x).children) (h : LiteralPart c m) :
      LiteralPart (.element x) m
  | member {span members x m} (hx : x ∈ members) (h : LiteralPart (.member x) m) :
      LiteralPart (.expression (.object span members)) m
  | value {span key value kind method shorthand computed m}
      (h : LiteralPart (.expression value) m) :
      LiteralPart (.member (.property span key value kind method shorthand computed)) m
  | spread {span e m} (h : LiteralPart (.expression e) m) :
      LiteralPart (.member (.spread span e)) m
  | callee {span callee m} (h : LiteralPart (.expression callee) m) :
      LiteralPart (.expression (.newCall span callee [])) m

/-- All parts of the literal are plain. -/
def PartsPlain (n : Node) : Prop := ∀ m, LiteralPart n m → IsPlain m

theorem LiteralPart.within {n m : Node} (h : LiteralPart n m) : Node.Within n m := by
  induction h with
  | refl n => exact .refl n
  | item hx _ ih => exact .step (List.mem_map_of_mem hx) ih
  | element hc _ ih => exact .step hc ih
  | member hx _ ih => exact .step (List.mem_map_of_mem hx) ih
  | value _ ih => exact .step (by simp [Node.children]) ih
  | spread _ ih => exact .step (by simp [Node.children]) ih
  | callee _ ih => exact .step (by simp [Node.children, Node.ofExpression]) ih

/-- A `new` with arguments is applied to a literal that is plain. -/
def CalleeIsPlain : Node → Prop
  | .expression (.newCall _ callee arguments) =>
    arguments ≠ [] → PartsPlain (.expression callee)
  | _ => True

/-- Literals have been settled, except for the callee of a `new` with
arguments, which nothing looks at. -/
inductive Checked : Bool → Node → Prop
  | node {pending n} (hn : IsPlain n) (hc : ∀ c ∈ n.children, Checked false c) :
      Checked pending n
  | newCall {pending span callee arguments} (hcallee : Checked true (.expression callee))
      (harguments : ∀ a ∈ arguments, Checked false (.element a)) (hne : arguments ≠ []) :
      Checked pending (.expression (.newCall span callee arguments))
  | array {span elements} (h : ∀ x ∈ elements, Checked true (.element x)) :
      Checked true (.expression (.array span elements))
  | element {x} (h : ∀ c ∈ (Node.element x).children, Checked true c) :
      Checked true (.element x)
  | object {span members} (h : ∀ m ∈ members, Checked true (.member m)) :
      Checked true (.expression (.object span members))
  | property {span key value kind method shorthand computed}
      (hkey : Checked false (.expression key)) (hvalue : Checked true (.expression value)) :
      Checked true (.member (.property span key value kind method shorthand computed))
  | spread {span e} (h : Checked true (.expression e)) : Checked true (.member (.spread span e))
  | bareNew {span callee} (h : Checked true (.expression callee)) :
      Checked true (.expression (.newCall span callee []))

namespace Checked

theorem weaken {pending : Bool} {n : Node} (h : Checked false n) : Checked pending n := by
  cases h with
  | node hn hc => exact .node hn hc
  | newCall hcallee harguments hne => exact .newCall hcallee harguments hne

/-- The expressions that have no literal parts. -/
def isSettled : Expression → Bool
  | .array _ _ | .object _ _ | .newCall _ _ _ => false
  | _ => true

theorem settle {e : Expression} (he : isSettled e = true) (h : Checked true (.expression e)) :
    Checked false (.expression e) := by
  cases h with
  | node hn hc => exact .node hn hc
  | newCall hcallee harguments hne => exact .newCall hcallee harguments hne
  | array _ => simp [isSettled] at he
  | object _ => simp [isSettled] at he
  | bareNew _ => simp [isSettled] at he

/-- Where every callee of a `new` with arguments is plain, all objects are,
apart from the parts of a literal that is still pending. -/
theorem every_isPlain {pending : Bool} {n : Node} (h : Checked pending n)
    (hcallees : n.Every CalleeIsPlain) (hparts : pending = true → PartsPlain n) :
    n.Every IsPlain := by
  induction h with
  | node hn _ ih =>
    exact .node hn fun c hc => ih c hc (hcallees.below hc) (by simp)
  | newCall _ _ hne ihcallee iharguments =>
    refine .node trivial fun c hc => ?_
    rcases List.mem_cons.mp hc with rfl | hmem
    · exact ihcallee (hcallees.below hc) fun _ => hcallees.here hne
    · obtain ⟨a, ha, rfl⟩ := List.mem_map.mp hmem
      exact iharguments a ha (hcallees.below hc) (by simp)
  | array _ ih =>
    refine .node trivial fun c hc => ?_
    obtain ⟨x, hx, rfl⟩ := List.mem_map.mp hc
    exact ih x hx (hcallees.below hc) fun _ m hm => hparts rfl m (.item hx hm)
  | element _ ih =>
    refine .node trivial fun c hc => ?_
    exact ih c hc (hcallees.below hc) fun _ m hm => hparts rfl m (.element hc hm)
  | object _ ih =>
    refine .node (hparts rfl _ (.refl _)) fun c hc => ?_
    obtain ⟨x, hx, rfl⟩ := List.mem_map.mp hc
    exact ih x hx (hcallees.below hc) fun _ m hm => hparts rfl m (.member hx hm)
  | property _ _ ihkey ihvalue =>
    refine .node trivial fun c hc => ?_
    rcases List.mem_cons.mp hc with rfl | hmem
    · exact ihkey (hcallees.below hc) (by simp)
    · obtain rfl := List.mem_singleton.mp hmem
      exact ihvalue (hcallees.below hc) fun _ m hm => hparts rfl m (.value hm)
  | spread _ ih =>
    refine .node trivial fun c hc => ?_
    obtain rfl := List.mem_singleton.mp hc
    exact ih (hcallees.below hc) fun _ m hm => hparts rfl m (.spread hm)
  | bareNew _ ih =>
    refine .node trivial fun c hc => ?_
    obtain rfl := List.mem_singleton.mp hc
    exact ih (hcallees.below hc) fun _ m hm => hparts rfl m (.callee hm)

theorem array_inv {span : Text.Span} {elements : List Element}
    (h : Checked true (.expression (.array span elements))) :
    ∀ x ∈ elements, Checked true (.element x) := by
  intro x hx
  cases h with
  | node _ hc => exact (hc _ (List.mem_map_of_mem hx)).weaken
  | array h => exact h x hx

theorem element_inv {x : Element} (h : Checked true (.element x)) {e : Expression}
    (he : x.expression? = some e) : Checked true (.expression e) := by
  have hmem : Node.expression e ∈ (Node.element x).children := by
    cases x with
    | item e' =>
      obtain rfl : e' = e := by simpa [Element.expression?] using he
      simp [Node.children]
    | spread span e' =>
      obtain rfl : e' = e := by simpa [Element.expression?] using he
      simp [Node.children]
    | hole => simp [Element.expression?] at he
  cases h with
  | node _ hc => exact (hc _ hmem).weaken
  | element h => exact h _ hmem

theorem object_inv {span : Text.Span} {members : List ObjectMember}
    (h : Checked true (.expression (.object span members))) :
    ∀ m ∈ members, Checked true (.member m) := by
  intro x hx
  cases h with
  | node _ hc => exact (hc _ (List.mem_map_of_mem hx)).weaken
  | object h => exact h x hx

theorem property_inv {span : Text.Span} {key value : Expression} {kind : PropertyKind}
    {method shorthand computed : Bool}
    (h : Checked true (.member (.property span key value kind method shorthand computed))) :
    Checked false (.expression key) ∧ Checked true (.expression value) := by
  cases h with
  | node _ hc => exact ⟨hc _ (by simp [Node.children]), (hc _ (by simp [Node.children])).weaken⟩
  | property hkey hvalue => exact ⟨hkey, hvalue⟩

theorem spread_inv {span : Text.Span} {e : Expression}
    (h : Checked true (.member (.spread span e))) : Checked true (.expression e) := by
  cases h with
  | node _ hc => exact (hc _ (by simp [Node.children])).weaken
  | spread h => exact h

/-- What is below a node is settled with it, except for the callee of a `new`. -/
theorem children_checked {n : Node} (h : Checked false n) (hn : ∀ span callee arguments,
    n ≠ .expression (.newCall span callee arguments)) : ∀ c ∈ n.children, Checked false c := by
  cases h with
  | node _ hc => exact hc
  | newCall _ _ _ => exact absurd rfl (hn _ _ _)

end Checked

/-- What the cover state says about the expression just read. -/
structure Pending (e : Expression) (cover : Cover) : Prop where
  parts : Checked true (.expression e)
  settled : cover = Cover.none → Checked false (.expression e)

theorem Checked.pending {e : Expression} {cover : Cover} (h : Checked false (.expression e)) :
    Pending e cover :=
  ⟨h.weaken, fun _ => h⟩

/-- An expression without literal parts is settled whatever the cover state is. -/
theorem Pending.settle {e : Expression} {cover : Cover} (h : Pending e cover)
    (he : Checked.isSettled e = true) : Checked false (.expression e) :=
  h.parts.settle he

theorem Cover.eq_none {c : Cover} (hmust : c.mustDestruct = false)
    (hproto : c.repeatsProto = false) : c = none := by
  obtain ⟨must, proto⟩ := c
  simp_all [none]

theorem Cover.union_eq_none {a b : Cover} : a.union b = none ↔ a = none ∧ b = none := by
  obtain ⟨a₁, a₂⟩ := a
  obtain ⟨b₁, b₂⟩ := b
  simp only [union, none, mk.injEq, Bool.or_eq_false_iff]
  exact and_and_and_comm

theorem Cover.unionAll_eq_none {covers : List Cover} :
    unionAll covers = none ↔ ∀ c ∈ covers, c = none := by
  induction covers with
  | nil => simp [unionAll]
  | cons c rest ih =>
    have hstep : unionAll (c :: rest) = c.union (unionAll rest) := rfl
    rw [hstep, union_eq_none, ih, List.forall_mem_cons]

/-- An element with the cover state of its expression. -/
def ElementPending (x : Element × Cover) : Prop :=
  Checked true (.element x.1) ∧ (x.2 = Cover.none → Checked false (.element x.1))

theorem Pending.item {e : Expression} {cover : Cover} (h : Pending e cover) :
    ElementPending (.item e, cover) := by
  refine ⟨.element fun c hc => ?_, fun hcover => .node trivial fun c hc => ?_⟩
  · obtain rfl := List.mem_singleton.mp hc
    exact h.parts
  · obtain rfl := List.mem_singleton.mp hc
    exact h.settled hcover

theorem Pending.spread {e : Expression} {cover : Cover} (h : Pending e cover)
    (span : Text.Span) : ElementPending (.spread span e, cover) := by
  refine ⟨.element fun c hc => ?_, fun hcover => .node trivial fun c hc => ?_⟩
  · obtain rfl := List.mem_singleton.mp hc
    exact h.parts
  · obtain rfl := List.mem_singleton.mp hc
    exact h.settled hcover

theorem elementPending_hole (cover : Cover) : ElementPending (.hole, cover) :=
  ⟨.node trivial (by simp [Node.children]), fun _ => .node trivial (by simp [Node.children])⟩

/-- An array takes over the cover states of its elements. -/
theorem pending_array {found : List (Element × Cover)} (h : ∀ x ∈ found, ElementPending x)
    (span : Text.Span) :
    Pending (.array span (found.map Prod.fst)) (Cover.unionAll (found.map Prod.snd)) := by
  constructor
  · refine .array fun x hx => ?_
    obtain ⟨y, hy, rfl⟩ := List.mem_map.mp hx
    exact (h y hy).1
  · intro hcover
    refine .node trivial fun c hc => ?_
    obtain ⟨x, hx, rfl⟩ := List.mem_map.mp hc
    obtain ⟨y, hy, rfl⟩ := List.mem_map.mp hx
    exact (h y hy).2 (Cover.unionAll_eq_none.mp hcover _ (List.mem_map_of_mem hy))

/-- A member of an object with the cover state that it brings in. -/
structure MemberPending (x : ObjectMember × Cover) : Prop where
  parts : Checked true (.member x.1)
  settled : x.2 = Cover.none → Checked false (.member x.1) ∧ hasInitializer x.1 = false

/-- An object takes over the cover states of its members, and notes a second
prototype. -/
theorem pending_object {found : List (ObjectMember × Cover)} (h : ∀ x ∈ found, MemberPending x)
    (span : Text.Span) :
    Pending (.object span (found.map Prod.fst))
      { Cover.unionAll (found.map Prod.snd) with
        repeatsProto := (Cover.unionAll (found.map Prod.snd)).repeatsProto ||
          ((found.map Prod.fst).filter setsProto).length > 1 } := by
  constructor
  · refine .object fun m hm => ?_
    obtain ⟨y, hy, rfl⟩ := List.mem_map.mp hm
    exact (h y hy).parts
  · intro hcover
    simp only [Cover.none, Cover.mk.injEq, Bool.or_eq_false_iff] at hcover
    obtain ⟨hmust, hproto, hone⟩ := hcover
    have hall := Cover.unionAll_eq_none.mp (Cover.eq_none hmust hproto)
    have hsettled := fun y hy => (h y hy).settled (hall _ (List.mem_map_of_mem hy))
    refine .node ⟨fun m hm => ?_, by simpa using hone⟩ fun c hc => ?_
    · obtain ⟨y, hy, rfl⟩ := List.mem_map.mp hm
      exact (hsettled y hy).2
    · obtain ⟨m, hm, rfl⟩ := List.mem_map.mp hc
      obtain ⟨y, hy, rfl⟩ := List.mem_map.mp hm
      exact (hsettled y hy).1

/-- A `new` passes on the cover state of its callee if no argument was read. -/
theorem pending_newCall {callee : Expression} {arguments : List Element} {cover : Cover}
    (hcallee : Checked true (.expression callee))
    (harguments : ∀ a ∈ arguments, Checked false (.element a))
    (hnone : arguments = [] → Pending callee cover) (span : Text.Span) :
    Pending (.newCall span callee arguments) cover := by
  by_cases hne : arguments = []
  · subst hne
    refine ⟨.bareNew hcallee, fun hcover => .node trivial fun c hc => ?_⟩
    obtain rfl := List.mem_singleton.mp hc
    exact (hnone rfl).settled hcover
  · exact Checked.pending (.newCall hcallee harguments hne)

theorem checkCovers_yields (cover : Cover) (es : List Expression) (s : State) :
    Yields (checkCovers cover es) (fun _ _ => cover = Cover.none) s := by
  unfold checkCovers
  refine .skip fun here s => ?_
  cases hmust : cover.mustDestruct with
  | true => exact (stops_failAt _ _).yields
  | false =>
    cases hproto : cover.repeatsProto with
    | true => exact (stops_failAt _ _).yields
    | false => exact .pure (Cover.eq_none hmust hproto)

theorem checkCover_yields {e : Expression} {s : State} (h : Pending e s.cover) :
    Yields (checkCover e) (fun _ _ => Checked false (.expression e)) s := by
  have htake : takeCover s = .ok s.cover { s with cover := Cover.none } := rfl
  refine .run htake ?_
  exact (checkCovers_yields _ _ _).mono fun _ _ hnone => h.settled hnone

theorem checked_identifier (id : Identifier) : Checked false (.pattern (.identifier id)) :=
  .node trivial (by simp [Node.children, Node.ofPattern])

/-- A member is the same target as it was an expression. -/
theorem checked_member {span : Text.Span} {object property : Expression}
    {computed optional : Bool}
    (h : Checked true (.expression (.member span object property computed optional))) :
    Checked false (.pattern (.member span object property computed optional)) :=
  .node trivial ((h.settle rfl).children_checked (by simp))

theorem withoutParens_checked {e : Expression} (h : Checked true (.expression e)) :
    Checked true (.expression e.withoutParens) := by
  induction e using Expression.withoutParens.induct with
  | case1 span e ih =>
    have hinner : Checked false (.expression e) :=
      (h.settle rfl).children_checked (by simp) _ (by simp [Node.children, Node.ofExpression])
    exact ih hinner.weaken
  | case2 e hne =>
    rw [Expression.withoutParens]
    · exact h
    · exact hne

section Conversion

variable {c : Conversion}

/-- What a literal becomes has no open parts left. -/
def Settles (e : Expression) (p : Pattern) : Prop :=
  Checked true (.expression e) → Checked false (.pattern p)

theorem elements_checked {elements : List Element} {ps : List Pattern}
    (h : List.Forall₂ (ElementBecomes Settles) elements ps)
    (he : ∀ x ∈ elements, Checked true (.element x)) : ∀ p ∈ ps, Checked false (.pattern p) := by
  induction h with
  | nil => exact List.forall_mem_nil _
  | cons hx _ ih =>
    obtain ⟨hfirst, hrest⟩ := List.forall_mem_cons.mp he
    refine List.forall_mem_cons.mpr ⟨?_, ih hrest⟩
    cases hx with
    | hole => exact .node trivial (List.forall_mem_nil _)
    | item hp => exact hp (hfirst.element_inv rfl)
    | spread hp => exact .node trivial (List.forall_mem_singleton.mpr (hp (hfirst.element_inv rfl)))

theorem members_checked {members : List ObjectMember} {ps : List PatternProperty}
    (h : List.Forall₂ (MemberBecomes Settles) members ps)
    (he : ∀ m ∈ members, Checked true (.member m)) :
    ∀ p ∈ ps, Checked false (.patternProperty p) := by
  induction h with
  | nil => exact List.forall_mem_nil _
  | cons hm _ ih =>
    obtain ⟨hfirst, hrest⟩ := List.forall_mem_cons.mp he
    refine List.forall_mem_cons.mpr ⟨?_, ih hrest⟩
    cases hm with
    | property hp =>
      obtain ⟨hkey, hvalue⟩ := hfirst.property_inv
      have htarget := List.forall_mem_singleton.mpr (hp hvalue)
      exact .node trivial (List.forall_mem_cons.mpr ⟨hkey, htarget⟩)
    | spread hp => exact .node trivial (List.forall_mem_singleton.mpr (hp hfirst.spread_inv))

theorem respects_settles : c.Respects Settles where
  name _ _ _ := checked_identifier _
  member he _ hall := by
    have hinner := withoutParens_checked hall
    rw [he] at hinner
    exact checked_member hinner
  array _ hps hall :=
    .node trivial (List.forall_mem_map.mpr (elements_checked hps hall.array_inv))
  object _ hps hall :=
    .node trivial (List.forall_mem_map.mpr (members_checked hps hall.object_inv))
  withDefault _ hall := .node trivial ((hall.settle rfl).children_checked (by simp))

/-- A pattern made of a literal has no open parts left. -/
theorem toPattern_checked (e : Expression) {p : Pattern} (h : toPattern c e = .ok p)
    (he : Checked true (.expression e)) : Checked false (.pattern p) :=
  toPattern_induction respects_settles e h he

theorem toPatterns_checked (elements : List Element) {ps : List Pattern}
    (h : toPatterns c elements = .ok ps)
    (he : ∀ x ∈ elements, Checked true (.element x)) : ∀ p ∈ ps, Checked false (.pattern p) :=
  elements_checked (toPatterns_become respects_settles elements h) he

theorem toRestPattern_checked {start : Nat} {e : Expression} {p : Pattern}
    (h : toRestPattern c start e = .ok p) (he : Checked true (.expression e)) :
    Checked false (.pattern p) := by
  obtain ⟨_, _, h⟩ := except_bind_ok h
  obtain ⟨q, hq, hp⟩ := except_bind_ok h
  cases hp
  have htarget := toPattern_checked e hq he
  exact .node trivial (by simpa [Node.children, Node.ofPattern] using htarget)

end Conversion

theorem ofExcept_yields {α : Type} {found : Except Failure α} (s : State) :
    Yields (ofExcept found) (fun a _ => found = .ok a) s := by
  cases found with
  | ok a => exact .pure rfl
  | error failure => trivial

end EcmaSyntax.Grammar
