import EcmaSyntax.Scope.Stack

/-!
Scopes as a tree: what is declared in each of them and which scopes stand in it, in
their order. Two declarations of a name are compatible or not whatever their order is;
the tree is consistent if no scope of it has a conflict.
-/

namespace EcmaSyntax.Scope

/-- A declaration, or a scope with what stands in it. -/
inductive Item where
  | declaration (name : String) (kind : BindingKind) (offset : Nat)
  | scope (role : Role) (items : List Item)

namespace Item

mutual

/-- Declare a name, or go through a scope of its own. -/
def run (repeatFunctions : Bool) : Item → Stack → Except Error Stack
  | .declaration name kind offset, stack =>
    match stack.declare name kind offset repeatFunctions with
    | (.ok (), declared) => .ok declared
    | (.error error, _) => .error error
  | .scope role items, stack => do
    let inner ← runAll repeatFunctions items (stack.push [role])
    return inner.pop

/-- Go through what stands in a scope, up to the first declaration that is refused. -/
def runAll (repeatFunctions : Bool) : List Item → Stack → Except Error Stack
  | [], stack => .ok stack
  | item :: rest, stack => do
    let stack ← run repeatFunctions item stack
    runAll repeatFunctions rest stack

end

/-- The names declared in a scope itself, with their kinds. -/
def declared : List Item → List (String × BindingKind)
  | [] => []
  | .declaration name kind _ :: rest => (name, kind) :: declared rest
  | .scope _ _ :: rest => declared rest

mutual

/-- The variables that an item lets out into the scope where it stands. -/
def escaping : Item → List String
  | .declaration name kind _ => if kind.isVarLike then [name] else []
  | .scope role items => if role.isVarBoundary then [] else hoisted items

/-- The variables declared in a scope or further in, with no boundary in between. -/
def hoisted : List Item → List String
  | [] => []
  | item :: rest => escaping item ++ hoisted rest

end

/-- A scope of the tree whose outermost scope is given. -/
inductive Occurs : Role → List Item → Role → List Item → Prop
  | here {role items} : Occurs role items role items
  | inside {role items inner body role' items'} (hmem : .scope inner body ∈ items)
      (h : Occurs inner body role' items') : Occurs role items role' items'

/-- Every scope of the tree has the property. -/
def Everywhere (P : Role → List Item → Prop) (role : Role) (items : List Item) : Prop :=
  ∀ role' items', Occurs role items role' items' → P role' items'

end Item

namespace Role

/-- A body, in whose scope lexical names may not repeat those around it. -/
def isBody (role : Role) : Bool := role == .functionBody || role == .catchBody

/-- What stands around a body. -/
def isSignature (role : Role) : Bool := role.isParams || role == .catchParam

end Role

namespace BindingKind

/-- The name may not be declared again with such a kind. -/
def isExclusive (kind : BindingKind) : Bool :=
  kind.isLexical || kind == .catchSimple || kind == .catchPattern

/-- The kinds of names that are declared in a scope. -/
def standsIn (kind : BindingKind) : Role → Bool
  | .functionParams | .arrowParams => kind == .parameter
  | .catchParam => kind == .catchSimple || kind == .catchPattern
  | _ => kind.isLexical || kind.isVarLike

theorem plain_of_isVarLike {kind : BindingKind} (h : kind.isVarLike = true) :
    kind.refusesVar = false ∧ kind.isExclusive = false ∧ kind ≠ .functionLexical := by
  cases kind <;> first | exact ⟨rfl, rfl, nofun⟩ | cases h

/-- Parameters, names that are caught, and all others stand in scopes of their own. -/
theorem standsIn_cases {kind : BindingKind} {role : Role} (h : kind.standsIn role = true) :
    (role.isParams = true ∧ kind = .parameter) ∨
      (role = .catchParam ∧ (kind = .catchSimple ∨ kind = .catchPattern)) ∨
      (role.isSignature = false ∧ (kind.isLexical = true ∨ kind.isVarLike = true)) := by
  revert h
  cases role <;> cases kind <;> decide

end BindingKind

open Item

/-- What the grammar puts into a scope. A body stands in the scope of its parameters or
of the name that is caught, which are declared before; a handler has its body last. -/
structure IsShaped (role : Role) (items : List Item) : Prop where
  kinds : ∀ d ∈ declared items, d.2.standsIn role = true
  around : ∀ inner body, .scope inner body ∈ items →
    (inner = .functionBody → role.isParams = true) ∧ (inner = .catchBody → role = .catchParam)
  first : ∀ before inner body after, items = before ++ .scope inner body :: after →
    inner.isBody = true → declared after = []
  still : role.isParams = true ∨ role = .classScope → hoisted items = []
  handler : role = .catchParam → ∀ before last, items = before ++ [last] → hoisted before = []

/-- No two declarations that concern a scope are in conflict. -/
structure IsConsistent (repeatFunctions : Bool) (items : List Item) : Prop where
  /-- Names are distinct, up to functions that may be repeated. -/
  distinct : (declared items).Pairwise fun a b => a.1 = b.1 → a.2.isExclusive = true →
    b.2.isExclusive = true →
      repeatFunctions = true ∧ a.2 = .functionLexical ∧ b.2 = .functionLexical
  /-- No variable of the name is declared here or further in. -/
  apart : ∀ d ∈ declared items, d.2.refusesVar = true → d.1 ∉ hoisted items
  /-- A body does not declare the names around it again. -/
  bodies : ∀ inner body, .scope inner body ∈ items → inner.isBody = true →
    ∀ d ∈ declared body, d.2.isLexical = true → ∀ e ∈ declared items, e.1 ≠ d.1

namespace Item

section Append

theorem declared_append (a b : List Item) : declared (a ++ b) = declared a ++ declared b := by
  induction a with
  | nil => rfl
  | cons item rest ih =>
    cases item with
    | declaration name kind offset =>
      rw [List.cons_append, declared, declared, ih, List.cons_append]
    | scope role items => rw [List.cons_append, declared, declared, ih]

theorem hoisted_append (a b : List Item) : hoisted (a ++ b) = hoisted a ++ hoisted b := by
  induction a with
  | nil => rfl
  | cons item rest ih => rw [List.cons_append, hoisted, hoisted, ih, List.append_assoc]

theorem everywhere_iff {P : Role → List Item → Prop} {role : Role} {items : List Item} :
    Everywhere P role items ↔
      P role items ∧ ∀ inner body, .scope inner body ∈ items → Everywhere P inner body := by
  refine ⟨fun h => ⟨h _ _ .here, fun inner body hmem r its ho => h _ _ (.inside hmem ho)⟩, ?_⟩
  rintro ⟨hhere, hinside⟩ r its ho
  cases ho with
  | here => exact hhere
  | inside hmem ho => exact hinside _ _ hmem _ _ ho

end Append

end Item

namespace IsConsistent

variable {repeatFunctions : Bool} {a b : List Item}

/-- What stands at the start of a scope is consistent if the whole scope is. -/
theorem left (h : IsConsistent repeatFunctions (a ++ b)) : IsConsistent repeatFunctions a := by
  have hdistinct := h.distinct
  rw [declared_append, List.pairwise_append] at hdistinct
  refine ⟨hdistinct.1, fun d hd hrefuses hmem => ?_, fun inner body hmem hbody d hd hlexical e he =>
    ?_⟩
  · refine h.apart d ?_ hrefuses ?_
    · rw [declared_append]
      exact List.mem_append_left _ hd
    · rw [hoisted_append]
      exact List.mem_append_left _ hmem
  · refine h.bodies inner body (List.mem_append_left _ hmem) hbody d hd hlexical e ?_
    rw [declared_append]
    exact List.mem_append_left _ he

end IsConsistent

theorem everywhere_left {repeatFunctions : Bool} {role : Role} {a b : List Item}
    (h : Everywhere (fun _ => IsConsistent repeatFunctions) role (a ++ b)) :
    Everywhere (fun _ => IsConsistent repeatFunctions) role a := by
  rw [everywhere_iff] at h ⊢
  exact ⟨h.1.left, fun inner body hmem => h.2 inner body (List.mem_append_left _ hmem)⟩

namespace IsShaped

variable {role : Role} {before after : List Item}

theorem stands {name : String} {kind : BindingKind} {offset : Nat}
    (h : IsShaped role (before ++ .declaration name kind offset :: after)) :
    kind.standsIn role = true :=
  h.kinds (name, kind) (by simp [declared_append, declared])

theorem stands_before {item : Item} (h : IsShaped role (before ++ item :: after))
    {d : String × BindingKind} (hd : d ∈ declared before) : d.2.standsIn role = true :=
  h.kinds d (by simp [declared_append, hd])

/-- Declarations come before a body. -/
theorem no_body {name : String} {kind : BindingKind} {offset : Nat}
    (h : IsShaped role (before ++ .declaration name kind offset :: after)) {inner : Role}
    {body : List Item} (hmem : .scope inner body ∈ before) : inner.isBody = false := by
  rw [Bool.eq_false_iff]
  intro hbody
  obtain ⟨first, second, rfl⟩ := List.append_of_mem hmem
  have hnone := h.first first inner body (second ++ .declaration name kind offset :: after)
    (by simp) hbody
  rw [declared_append, declared] at hnone
  simp at hnone

/-- Nothing but the last item of a handler lets a variable out. -/
theorem hoisted_handler {item : Item} (h : IsShaped .catchParam (before ++ item :: after)) :
    hoisted before = [] := by
  obtain ⟨rest, last, hrest⟩ : ∃ rest last, item :: after = rest ++ [last] :=
    ⟨_, _, (List.dropLast_concat_getLast (List.cons_ne_nil item after)).symm⟩
  have hnone := h.handler rfl (before ++ rest) last (by rw [hrest, List.append_assoc])
  rw [hoisted_append] at hnone
  exact (List.append_eq_nil_iff.mp hnone).1

end IsShaped

end EcmaSyntax.Scope
