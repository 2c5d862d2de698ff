import EcmaSyntax.Scope.PrivateNames

/-!
Whole runs over the private names of classes. Calls in which every class that is entered is exited
are the calls for a tree of class bodies. What a class remembers is what has been declared in it,
and references of an inner body wait in their order in the body around it.
-/

namespace EcmaSyntax.Scope

/-- What is done with the private names of the open classes. -/
inductive PrivateCall where
  | enterClass
  | exitClass
  | declare (name : String) (kind : PrivateKind) (isStatic : Bool) (offset : Nat)
  | reference (name : String) (offset : Nat)
deriving DecidableEq, Repr

/-- A call with the number of classes open before it and what it gave. -/
structure PrivateOutcome where
  call : PrivateCall
  depth : Nat
  result : Except Error Unit
deriving Repr

namespace PrivateCall

/-- A name that is refused leaves the others as they are. -/
def run (classes : PrivateNames) : PrivateCall → Except Error Unit × PrivateNames
  | .enterClass => (.ok (), classes.enterClass)
  | .exitClass => classes.exitClass
  | .declare name kind isStatic offset =>
    match classes.declare name kind isStatic offset with
    | .ok declared => (.ok (), declared)
    | .error error => (.error error, classes)
  | .reference name offset =>
    match classes.reference name offset with
    | .ok referred => (.ok (), referred)
    | .error error => (.error error, classes)

/-- The classes that are open after calls. -/
def after (classes : PrivateNames) (calls : List PrivateCall) : PrivateNames :=
  calls.foldl (fun classes call => (call.run classes).2) classes

/-- What calls give one after the other. An error does not end the run. -/
def outcomes : PrivateNames → List PrivateCall → List PrivateOutcome
  | _, [] => []
  | classes, call :: rest =>
    ⟨call, classes.length, (call.run classes).1⟩ :: outcomes (call.run classes).2 rest

/-- As many classes as given are open, and these and all that are entered are exited. -/
def isBalanced : Nat → List PrivateCall → Bool
  | depth, [] => depth == 0
  | depth, .enterClass :: rest => isBalanced (depth + 1) rest
  | depth, .exitClass :: rest => depth != 0 && isBalanced (depth - 1) rest
  | depth, .declare _ _ _ _ :: rest | depth, .reference _ _ :: rest => isBalanced depth rest

theorem after_append (classes : PrivateNames) (first second : List PrivateCall) :
    after classes (first ++ second) = after (after classes first) second := List.foldl_append

theorem outcomes_append (classes : PrivateNames) (first second : List PrivateCall) :
    outcomes classes (first ++ second) =
      outcomes classes first ++ outcomes (after classes first) second := by
  induction first generalizing classes with
  | nil => rfl
  | cons call rest ih => exact congrArg (_ :: ·) (ih _)

/-- No call fails. -/
def Succeed (classes : PrivateNames) (calls : List PrivateCall) : Prop :=
  ∀ outcome ∈ outcomes classes calls, outcome.result = .ok ()

theorem succeed_nil (classes : PrivateNames) : Succeed classes [] := by
  intro outcome hmem
  cases hmem

theorem succeed_cons {classes : PrivateNames} {call : PrivateCall} {rest : List PrivateCall} :
    Succeed classes (call :: rest) ↔
      (call.run classes).1 = .ok () ∧ Succeed (call.run classes).2 rest :=
  List.forall_mem_cons

theorem succeed_append {classes : PrivateNames} {first second : List PrivateCall} :
    Succeed classes (first ++ second) ↔
      Succeed classes first ∧ Succeed (after classes first) second := by
  rw [Succeed, outcomes_append, List.forall_mem_append]
  rfl

end PrivateCall

/-- A declared private name. -/
structure PrivateDeclaration where
  name : String
  kind : PrivateKind
  isStatic : Bool
deriving DecidableEq, Repr

/-- What stands in the body of a class as far as private names go. -/
inductive ClassItem where
  | declaration (declared : PrivateDeclaration) (offset : Nat)
  | reference (name : String) (offset : Nat)
  | body (items : List ClassItem)

/-- A name is declared once at most, or as a getter and a setter that belong together. -/
def IsOnce (declarations : List PrivateDeclaration) : Prop :=
  declarations.length ≤ 1 ∨ ∃ first second, declarations = [first, second] ∧
    first.kind.pairs second.kind = true ∧ first.isStatic = second.isStatic

/-- The names are distinct, but for pairs of accessors. -/
def AreUnique (declarations : List PrivateDeclaration) : Prop :=
  ∀ name, IsOnce (declarations.filter (·.name == name))

namespace ClassItem

mutual

/-- The calls that are made for an item. -/
def calls : ClassItem → List PrivateCall
  | .declaration declared offset => [.declare declared.name declared.kind declared.isStatic offset]
  | .reference name offset => [.reference name offset]
  | .body items => .enterClass :: (callsOf items ++ [.exitClass])

def callsOf : List ClassItem → List PrivateCall
  | [] => []
  | item :: rest => calls item ++ callsOf rest

end

mutual

/-- The item and what stands in it, in the order of the calls, each with the bodies around it
from the inside out. -/
def standing (around : List (List ClassItem)) : ClassItem → List (List (List ClassItem) × ClassItem)
  | .declaration declared offset => [(around, .declaration declared offset)]
  | .reference name offset => [(around, .reference name offset)]
  | .body items => (around, .body items) :: standingIn (items :: around) items

def standingIn (around : List (List ClassItem)) :
    List ClassItem → List (List (List ClassItem) × ClassItem)
  | [] => []
  | item :: rest => standing around item ++ standingIn around rest

end

/-- The names that a body itself declares. -/
def declared : List ClassItem → List PrivateDeclaration
  | [] => []
  | .declaration one _ :: rest => one :: declared rest
  | .reference _ _ :: rest | .body _ :: rest => declared rest

def declares (items : List ClassItem) (name : String) : Bool :=
  (declared items).any (·.name == name)

mutual

/-- The references that an item leaves to the body in which it stands. -/
def escaping : ClassItem → List PrivateReference
  | .declaration _ _ => []
  | .reference name offset => [⟨name, offset⟩]
  | .body items => (escapingFrom items).filter fun reference => !declares items reference.name

def escapingFrom : List ClassItem → List PrivateReference
  | [] => []
  | item :: rest => escaping item ++ escapingFrom rest

end

/-- An item with the bodies around it. -/
abbrev Entry := List (List ClassItem) × ClassItem

/-- No name is that of a constructor. -/
def IsNamed (entry : Entry) : Prop :=
  ∀ one offset, entry.2 = .declaration one offset → one.name ≠ "constructor"

/-- A body declares its names once, up to pairs of accessors. -/
def IsDistinct (entry : Entry) : Prop :=
  ∀ items, entry.2 = .body items → AreUnique (declared items)

/-- A reference in a class is answered by one of the bodies around it. -/
def IsAnswered (entry : Entry) : Prop :=
  ∀ name offset, entry.2 = .reference name offset → entry.1 ≠ [] →
    ∃ items ∈ entry.1, declares items name = true

/-- Only classes stand outside of every class. -/
def IsInClass (entry : Entry) : Prop := entry.1 = [] → ∃ items, entry.2 = .body items

/-- A reference that nothing answers. -/
def unanswered : Entry → Option PrivateReference
  | (around, .reference name offset) =>
    if around.any (declares · name) then none else some ⟨name, offset⟩
  | _ => none

end ClassItem

open ClassItem PrivateCall

section Trees

/-- What the calls that are left make of the open classes: the rest of each of their bodies. -/
theorem exists_segments {depth : Nat} {calls : List PrivateCall}
    (h : isBalanced depth calls = true) :
    ∃ (items : List ClassItem) (segments : List (List ClassItem)), segments.length = depth ∧
      calls = callsOf items ++ segments.flatMap fun segment => .exitClass :: callsOf segment := by
  induction calls generalizing depth with
  | nil =>
    obtain rfl : depth = 0 := by simpa [isBalanced] using h
    exact ⟨[], [], rfl, rfl⟩
  | cons call rest ih =>
    cases call with
    | enterClass =>
      obtain ⟨items, segments, hlength, rfl⟩ := ih h
      obtain _ | ⟨segment, segments⟩ := segments
      · cases hlength
      refine ⟨.body items :: segment, segments, by simpa using hlength, ?_⟩
      simp [callsOf, ClassItem.calls]
    | exitClass =>
      cases depth with
      | zero => cases h
      | succ depth =>
        obtain ⟨items, segments, hlength, rfl⟩ := ih h
        exact ⟨[], items :: segments, by simpa using hlength,
          by rw [callsOf, List.flatMap_cons, List.nil_append, List.cons_append]⟩
    | declare name kind isStatic offset =>
      obtain ⟨items, segments, hlength, rfl⟩ := ih h
      exact ⟨.declaration ⟨name, kind, isStatic⟩ offset :: items, segments, hlength, rfl⟩
    | reference name offset =>
      obtain ⟨items, segments, hlength, rfl⟩ := ih h
      exact ⟨.reference name offset :: items, segments, hlength, rfl⟩

/-- Calls that exit every class they enter are those for a tree of bodies. -/
theorem exists_callsOf {calls : List PrivateCall} (h : isBalanced 0 calls = true) :
    ∃ items, callsOf items = calls := by
  obtain ⟨items, segments, hlength, rfl⟩ := exists_segments h
  obtain rfl := List.length_eq_zero_iff.mp hlength
  exact ⟨items, by simp⟩

end Trees

section Names

variable {names : ClassNames} {done : List PrivateDeclaration} {one : PrivateDeclaration}

/-- What a class remembers of the declarations of one name. -/
def entryOf : List PrivateDeclaration → Option PrivateEntry
  | [] => none
  | first :: others => some ⟨first.name, first.kind, first.isStatic, !others.isEmpty⟩

/-- A class remembers what has been declared in it. -/
def ClassNames.Holds (names : ClassNames) (done : List PrivateDeclaration) : Prop :=
  ∀ name, names.declared.find? (·.name == name) = entryOf (done.filter (·.name == name))

theorem holds_empty : ClassNames.empty.Holds [] := fun _ => rfl

theorem areUnique_nil : AreUnique [] := fun _ => .inl (Nat.zero_le 1)

theorem IsOnce.left {first second : List PrivateDeclaration} (h : IsOnce (first ++ second)) :
    IsOnce first := by
  obtain hone | ⟨a, b, hpair, hfits⟩ := h
  · rw [List.length_append] at hone
    exact .inl (by omega)
  obtain _ | ⟨c, _ | ⟨d, rest⟩⟩ := first
  · exact .inl (Nat.zero_le 1)
  · exact .inl (Nat.le_refl 1)
  · obtain ⟨rfl, rfl, hrest⟩ : c = a ∧ d = b ∧ rest ++ second = [] := by simpa using hpair
    obtain rfl := (List.append_eq_nil_iff.mp hrest).1
    exact .inr ⟨c, d, rfl, hfits⟩

theorem AreUnique.left {first second : List PrivateDeclaration} (h : AreUnique (first ++ second)) :
    AreUnique first := by
  intro name
  have hname := h name
  rw [List.filter_append] at hname
  exact hname.left

/-- Whether one more declaration may follow turns on those of its name. -/
theorem areUnique_concat (h : AreUnique done) :
    AreUnique (done ++ [one]) ↔ IsOnce (done.filter (·.name == one.name) ++ [one]) := by
  constructor
  · intro hunique
    have hname := hunique one.name
    rwa [List.filter_append, List.filter_cons_of_pos (by simp), List.filter_nil] at hname
  · intro hname name
    rw [List.filter_append]
    by_cases heq : one.name = name
    · subst heq
      rwa [List.filter_cons_of_pos (by simp), List.filter_nil]
    · rw [List.filter_cons_of_neg (by simpa using heq), List.filter_nil, List.append_nil]
      exact h name

theorem ClassNames.Holds.declares (h : names.Holds done) (name : String) :
    names.declares name = done.any (·.name == name) := by
  have hsome : ∀ l, (entryOf l).isSome = l.any fun _ => true := fun l => by cases l <;> rfl
  rw [ClassNames.declares, ← List.isSome_find?, h name, hsome, List.any_filter]
  simp only [Bool.and_true]

theorem ClassNames.Holds.first (h : names.Holds done)
    (hnone : done.filter (·.name == one.name) = []) :
    ClassNames.Holds
      { names with declared := names.declared ++ [⟨one.name, one.kind, one.isStatic, false⟩] }
      (done ++ [one]) := by
  intro name
  rw [List.find?_append, h name, List.filter_append]
  by_cases heq : one.name = name
  · subst heq
    simp [hnone, entryOf]
  · simp [heq]

theorem ClassNames.Holds.second {first : PrivateDeclaration} (h : names.Holds done)
    (hfirst : done.filter (·.name == one.name) = [first]) :
    ClassNames.Holds
      { names with declared := names.declared.map fun entry =>
          if entry.name == one.name then { entry with paired := true } else entry }
      (done ++ [one]) := by
  intro name
  have hname : first.name = one.name := by
    have hmem : first ∈ done.filter (·.name == one.name) := hfirst ▸ List.mem_singleton_self first
    simpa using (List.mem_filter.mp hmem).2
  have hkept : ((fun entry : PrivateEntry => entry.name == name) ∘ fun entry =>
      if entry.name == one.name then { entry with paired := true } else entry) =
      fun entry => entry.name == name := by
    funext entry
    simp only [Function.comp_apply, apply_ite PrivateEntry.name, ite_self]
  rw [List.find?_map, hkept, h name, List.filter_append]
  by_cases heq : one.name = name
  · subst heq
    simp [hfirst, entryOf, hname]
  · have hother : ∀ entry, entryOf (done.filter (·.name == name)) = some entry →
        entry.name ≠ one.name := by
      intro entry hentry
      rw [← h name] at hentry
      rw [show entry.name = name by simpa using List.find?_some hentry]
      exact Ne.symm heq
    rw [List.filter_cons_of_neg (by simpa using heq), List.filter_nil, List.append_nil]
    cases hentry : entryOf (done.filter (·.name == name)) with
    | none => rfl
    | some entry => simp [hother entry hentry]

/-- A class takes a declaration if its names stay unique. -/
theorem declare?_cases (h : names.Holds done) (hunique : AreUnique done) :
    (AreUnique (done ++ [one]) ∧
      ∃ names', names.declare? one.name one.kind one.isStatic = some names' ∧
        names'.Holds (done ++ [one]) ∧ names'.pending = names.pending) ∨
    (¬AreUnique (done ++ [one]) ∧ names.declare? one.name one.kind one.isStatic = none) := by
  obtain ⟨named, hname⟩ : ∃ named, done.filter (·.name == one.name) = named := ⟨_, rfl⟩
  rw [areUnique_concat hunique, ClassNames.declare?, h one.name, hname]
  match named, hname with
  | [], hname => exact .inl ⟨.inl (Nat.le_refl 1), _, rfl, h.first hname, rfl⟩
  | [first], hname =>
    by_cases hfits : first.kind.pairs one.kind = true ∧ first.isStatic = one.isStatic
    · refine .inl ⟨.inr ⟨first, one, rfl, hfits⟩, _, ?_, h.second hname, rfl⟩
      simp [entryOf, hfits]
    · refine .inr ⟨?_, by simpa [entryOf] using hfits⟩
      rintro (hshort | ⟨a, b, hpair, hpairs⟩)
      · cases Nat.not_succ_le_self 1 hshort
      · cases hpair
        exact hfits hpairs
  | first :: second :: rest, hname =>
    refine .inr ⟨?_, by simp [entryOf]⟩
    rintro (hshort | ⟨a, b, hpair, -⟩)
    · simp at hshort
    · simp at hpair

end Names

section Run

variable {names : ClassNames} {outer : PrivateNames} {done : List PrivateDeclaration}
  {around : List (List ClassItem)}

/-- The rules for what is declared. -/
def IsLegal (entry : Entry) : Prop := IsNamed entry ∧ IsDistinct entry

/-- What a run through a part of a body does to the class, where some names have been declared
in it before. -/
structure Runs (names : ClassNames) (outer : PrivateNames) (done : List PrivateDeclaration)
    (calls : List PrivateCall) (more : List PrivateDeclaration) (entries : List Entry)
    (left : List PrivateReference) : Prop where
  succeed_iff : Succeed (names :: outer) calls ↔
    AreUnique (done ++ more) ∧ ∀ entry ∈ entries, IsLegal entry
  leaves : Succeed (names :: outer) calls →
    ∃ names', after (names :: outer) calls = names' :: outer ∧
    names'.Holds (done ++ more) ∧ names'.pending = names.pending ++ left

theorem isLegal_reference (name : String) (offset : Nat) :
    IsLegal (around, .reference name offset) := ⟨nofun, nofun⟩

theorem isLegal_declaration {one : PrivateDeclaration} {offset : Nat} :
    IsLegal (around, .declaration one offset) ↔ one.name ≠ "constructor" := by
  refine ⟨fun h => h.1 one offset rfl, fun h => ⟨?_, nofun⟩⟩
  rintro _ _ ⟨⟩
  exact h

theorem isLegal_body {items : List ClassItem} :
    IsLegal (around, .body items) ↔ AreUnique (declared items) := by
  refine ⟨fun h => h.2 items rfl, fun h => ⟨nofun, ?_⟩⟩
  rintro _ ⟨⟩
  exact h

theorem ClassItem.declared_append (first second : List ClassItem) :
    declared (first ++ second) = declared first ++ declared second := by
  induction first with
  | nil => rfl
  | cons item rest ih => cases item <;> simp [declared, ih]

theorem unresolved_of_holds {items : List ClassItem} (h : names.Holds (declared items)) :
    names.unresolved = names.pending.filter fun reference => !declares items reference.name := by
  simp only [ClassNames.unresolved, h.declares, ClassItem.declares]

theorem runs_reference (h : names.Holds done) (hunique : AreUnique done) (name : String)
    (offset : Nat) :
    Runs names outer done [.reference name offset] [] [(around, .reference name offset)]
      [⟨name, offset⟩] := by
  refine ⟨iff_of_true (succeed_cons.mpr ⟨rfl, succeed_nil _⟩) ⟨by rwa [List.append_nil], ?_⟩,
    fun _ => ⟨_, rfl, by rw [List.append_nil]; exact h, rfl⟩⟩
  intro entry hmem
  rw [List.mem_singleton.mp hmem]
  exact isLegal_reference name offset

theorem runs_declaration (h : names.Holds done) (hunique : AreUnique done)
    (one : PrivateDeclaration) (offset : Nat) :
    Runs names outer done [.declare one.name one.kind one.isStatic offset] [one]
      [(around, .declaration one offset)] [] := by
  have hlegal : (∀ entry ∈ [(around, ClassItem.declaration one offset)], IsLegal entry) ↔
      one.name ≠ "constructor" := by
    rw [List.forall_mem_singleton, isLegal_declaration]
  by_cases hname : one.name = "constructor"
  · have hrun : (PrivateCall.declare one.name one.kind one.isStatic offset).run (names :: outer) =
        (.error ⟨.privateConstructor, one.name, offset⟩, names :: outer) := by
      rw [PrivateCall.run, PrivateNames.declare]
      simp [hname]
    have hfails : ¬Succeed (names :: outer) [.declare one.name one.kind one.isStatic offset] := by
      rw [succeed_cons, hrun]
      rintro ⟨⟨⟩, -⟩
    exact ⟨iff_of_false hfails fun h => hlegal.mp h.2 hname, fun h => absurd h hfails⟩
  obtain ⟨hmore, names', hdeclare, hholds, hpending⟩ | ⟨hmore, hdeclare⟩ :=
    (declare?_cases h hunique : (AreUnique (done ++ [one]) ∧ _) ∨ _)
  · have hrun : (PrivateCall.declare one.name one.kind one.isStatic offset).run (names :: outer) =
        (.ok (), names' :: outer) := by
      rw [PrivateCall.run, PrivateNames.declare, hdeclare]
      simp [hname]
    refine ⟨iff_of_true ?_ ⟨hmore, hlegal.mpr hname⟩, fun _ => ⟨names', ?_, hholds, ?_⟩⟩
    · exact succeed_cons.mpr ⟨by rw [hrun], succeed_nil _⟩
    · rw [after, List.foldl_cons, List.foldl_nil, hrun]
    · rw [hpending, List.append_nil]
  · have hrun : (PrivateCall.declare one.name one.kind one.isStatic offset).run (names :: outer) =
        (.error ⟨.duplicatePrivateName, one.name, offset⟩, names :: outer) := by
      rw [PrivateCall.run, PrivateNames.declare, hdeclare]
      simp [hname]
    have hfails : ¬Succeed (names :: outer) [.declare one.name one.kind one.isStatic offset] := by
      rw [succeed_cons, hrun]
      rintro ⟨⟨⟩, -⟩
    exact ⟨iff_of_false hfails fun h => hmore h.1, fun h => absurd h hfails⟩

theorem Runs.append {calls₁ calls₂ : List PrivateCall} {more₁ more₂ : List PrivateDeclaration}
    {entries₁ entries₂ : List Entry} {left₁ left₂ : List PrivateReference}
    (h : Runs names outer done calls₁ more₁ entries₁ left₁)
    (hrest : ∀ names', names'.Holds (done ++ more₁) → AreUnique (done ++ more₁) →
      Runs names' outer (done ++ more₁) calls₂ more₂ entries₂ left₂) :
    Runs names outer done (calls₁ ++ calls₂) (more₁ ++ more₂) (entries₁ ++ entries₂)
      (left₁ ++ left₂) := by
  by_cases hfirst : Succeed (names :: outer) calls₁
  · obtain ⟨names', hafter, hholds, hpending⟩ := h.leaves hfirst
    obtain ⟨hunique, hlegal⟩ := h.succeed_iff.mp hfirst
    have hsecond := hrest names' hholds hunique
    constructor
    · rw [succeed_append, hafter, hsecond.succeed_iff, List.append_assoc, List.forall_mem_append]
      exact ⟨fun ⟨_, hmore, hall⟩ => ⟨hmore, hlegal, hall⟩, fun ⟨hmore, _, hall⟩ =>
        ⟨hfirst, hmore, hall⟩⟩
    · intro hboth
      rw [succeed_append, hafter] at hboth
      obtain ⟨names'', hafter', hholds', hpending'⟩ := hsecond.leaves hboth.2
      refine ⟨names'', by rw [after_append, hafter, hafter'], ?_, ?_⟩
      · rwa [← List.append_assoc]
      · rw [hpending', hpending, List.append_assoc]
  · have hfails : ¬Succeed (names :: outer) (calls₁ ++ calls₂) := fun h =>
      hfirst (succeed_append.mp h).1
    refine ⟨iff_of_false hfails fun hrules => hfirst (h.succeed_iff.mpr ⟨?_, ?_⟩),
      fun h => absurd h hfails⟩
    · have hall := hrules.1
      rw [← List.append_assoc] at hall
      exact hall.left
    · exact fun entry hmem => hrules.2 entry (List.mem_append_left _ hmem)

theorem runs_body {items : List ClassItem} (h : names.Holds done) (hunique : AreUnique done)
    (hitems : Runs .empty (names :: outer) [] (callsOf items) (declared items)
      (standingIn (items :: around) items) (escapingFrom items)) :
    Runs names outer done (calls (.body items)) [] (standing around (.body items))
      (escaping (.body items)) := by
  rw [calls, standing, escaping]
  have hexit : Succeed (names :: outer) (.enterClass :: (callsOf items ++ [.exitClass])) ↔
      Succeed (.empty :: names :: outer) (callsOf items) := by
    rw [succeed_cons, succeed_append]
    refine ⟨fun h => h.2.1, fun h => ⟨rfl, h, ?_⟩⟩
    obtain ⟨inner, hafter, -, -⟩ := hitems.leaves h
    refine succeed_cons.mpr ⟨?_, succeed_nil _⟩
    change ((PrivateCall.exitClass).run (after (.empty :: names :: outer) (callsOf items))).1 = _
    rw [hafter]
    rfl
  constructor
  · rw [hexit, hitems.succeed_iff, List.append_nil, List.nil_append,
      List.forall_mem_cons, isLegal_body]
    exact ⟨fun ⟨hnames, hall⟩ => ⟨hunique, hnames, hall⟩, fun ⟨_, hnames, hall⟩ => ⟨hnames, hall⟩⟩
  · intro hall
    obtain ⟨inner, hafter, hholds, hpending⟩ := hitems.leaves (hexit.mp hall)
    refine ⟨names.refer inner.unresolved, ?_, by rw [List.append_nil]; exact h, ?_⟩
    · change after (.empty :: names :: outer) (callsOf items ++ [.exitClass]) = _
      rw [after_append, hafter]
      rfl
    · rw [unresolved_of_holds hholds, hpending]
      rfl

mutual

/-- A run through an item in a class. -/
theorem runs_item {names : ClassNames} {outer : PrivateNames} {done : List PrivateDeclaration}
    {around : List (List ClassItem)} (h : names.Holds done) (hunique : AreUnique done) :
    ∀ item, Runs names outer done (calls item) (declared [item])
      (standing around item) (escaping item)
  | .declaration one offset => runs_declaration h hunique one offset
  | .reference name offset => runs_reference h hunique name offset
  | .body items => runs_body h hunique (runs_items holds_empty areUnique_nil items)

theorem runs_items {names : ClassNames} {outer : PrivateNames} {done : List PrivateDeclaration}
    {around : List (List ClassItem)} (h : names.Holds done) (hunique : AreUnique done) :
    ∀ items, Runs names outer done (callsOf items) (declared items) (standingIn around items)
      (escapingFrom items)
  | [] => by
    rw [declared, callsOf, standingIn, escapingFrom]
    refine ⟨iff_of_true (succeed_nil _) ⟨by rwa [List.append_nil], nofun⟩,
      fun _ => ⟨names, rfl, by rwa [List.append_nil], (List.append_nil _).symm⟩⟩
  | item :: rest => by
    have hitem : Runs names outer done _ _ (standing around item) _ := runs_item h hunique item
    have hsplit := hitem.append fun names' hholds hmore =>
      (runs_items hholds hmore rest : Runs _ _ _ _ _ (standingIn around rest) _)
    rw [← declared_append] at hsplit
    exact hsplit

end

end Run

end EcmaSyntax.Scope
