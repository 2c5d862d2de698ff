import EcmaSyntax.Proofs.Scope.Layout
import EcmaSyntax.Scope.PrivateNames
import EcmaSyntax.Scope.Stack

/-!
What the frames of a stack tell. A frame holds the names declared in its scope so far and the
variables that have come out of the scopes in it; a variable is recorded in the frames from the
inside out to the nearest boundary, unless one of them refuses it.

Declarations and references fill the frames that are open. Only what opens or closes a scope or a
class changes how many there are, and what the scopes are for.
-/

namespace EcmaSyntax.Scope

open Item

section Bindings

theorem find?_insert (bindings : Bindings) (name other : String) (kind : BindingKind) :
    (bindings.insert name kind).find? other =
      if other = name then some kind else bindings.find? other := by
  unfold Bindings.find?
  induction bindings with
  | nil =>
    by_cases hother : other = name
    · simp [Bindings.insert, hother]
    · have hne : (other == name) = false := by simpa using hother
      simp [Bindings.insert, List.lookup_cons, hne, hother]
  | cons binding rest ih =>
    obtain ⟨first, old⟩ := binding
    unfold Bindings.insert
    by_cases hfirst : first = name
    · subst hfirst
      by_cases hother : other = first
      · simp [hother]
      · have hne : (other == first) = false := by simpa using hother
        simp [List.lookup_cons, hne, hother]
    · by_cases hother : other = first
      · subst hother
        simp [hfirst]
      · have hne : (other == first) = false := by simpa using hother
        have hne' : (first == name) = false := by simpa using hfirst
        simp only [hne', Bool.false_eq_true, if_false, List.lookup_cons, hne]
        exact ih

end Bindings

section Frames

/-- The name is bound in the scope. -/
def Frame.Binds (frame : Frame) (name : String) : Prop := (frame.find? name).isSome = true

/-- A variable of the name may not pass through the scope. -/
def Frame.Refuses (frame : Frame) (name : String) : Prop :=
  ∃ kind, frame.find? name = some kind ∧ kind.refusesVar = true

/-- Variables are recorded in the scope and nothing else changes. -/
structure Frame.Records (frame frame' : Frame) (names : List String) : Prop where
  roles : frame'.roles = frame.roles
  binds : ∀ name, frame'.Binds name ↔ frame.Binds name ∨ name ∈ names
  refuses : ∀ name, frame'.Refuses name ↔ frame.Refuses name
  repeats : ∀ name, frame'.find? name = some .functionLexical ↔
    frame.find? name = some .functionLexical

/-- The frame tells of a scope what has been declared in it so far. -/
structure Frame.Holds (frame : Frame) (role : Role) (items : List Item) : Prop where
  roles : frame.roles = [role]
  binds : ∀ name, frame.Binds name ↔ name ∈ (declared items).map Prod.fst ∨ name ∈ hoisted items
  refuses : ∀ name, frame.Refuses name ↔ ∃ d ∈ declared items, d.1 = name ∧ d.2.refusesVar = true
  repeats : ∀ name, frame.find? name = some .functionLexical ↔
    (name, .functionLexical) ∈ declared items

theorem Frame.find?_bind (frame : Frame) (name other : String) (kind : BindingKind) :
    (frame.bind name kind).find? other = if other = name then some kind else frame.find? other :=
  find?_insert frame.bindings name other kind

theorem Frame.binds_bind (frame : Frame) (name other : String) (kind : BindingKind) :
    (frame.bind name kind).Binds other ↔ frame.Binds other ∨ other = name := by
  unfold Frame.Binds
  rw [Frame.find?_bind]
  split
  · simp [*]
  · simp [*]

theorem Frame.Records.refl (frame : Frame) : frame.Records frame [] :=
  ⟨rfl, by simp, fun _ => Iff.rfl, fun _ => Iff.rfl⟩

theorem Frame.Records.has {frame frame' : Frame} {names : List String}
    (h : frame.Records frame' names) (test : Role → Bool) : frame'.has test = frame.has test := by
  unfold Frame.has
  rw [h.roles]

theorem Frame.Records.trans {a b c : Frame} {first second : List String}
    (h : a.Records b first) (h' : b.Records c second) : a.Records c (first ++ second) := by
  refine ⟨h'.roles.trans h.roles, fun name => ?_, fun name => ?_, fun name => ?_⟩
  · rw [h'.binds, h.binds, List.mem_append, or_assoc]
  · rw [h'.refuses, h.refuses]
  · rw [h'.repeats, h.repeats]

theorem Frame.holds_ofRoles (role : Role) : (Frame.ofRoles [role]).Holds role [] := by
  refine ⟨rfl, fun name => ?_, fun name => ?_, fun name => ?_⟩
  · simp [Frame.Binds, Frame.ofRoles, Frame.find?, Bindings.find?, declared, hoisted]
  · simp [Frame.Refuses, Frame.ofRoles, Frame.find?, Bindings.find?, declared]
  · simp [Frame.ofRoles, Frame.find?, Bindings.find?, declared]

/-- A variable is recorded unless it is refused. -/
theorem Frame.recordVar?_spec (frame : Frame) (name : String) {kind : BindingKind}
    (hkind : kind.isVarLike = true) :
    match frame.recordVar? name kind with
    | none => frame.Refuses name
    | some recorded => ¬frame.Refuses name ∧ frame.Records recorded [name] := by
  unfold Frame.recordVar?
  cases hfind : frame.find? name with
  | some existing =>
    dsimp only
    by_cases hrefuses : existing.refusesVar = true
    · rw [if_pos hrefuses]
      exact ⟨existing, hfind, hrefuses⟩
    · rw [if_neg hrefuses]
      refine ⟨?_, rfl, fun other => ?_, fun _ => Iff.rfl, fun _ => Iff.rfl⟩
      · rintro ⟨kind', hkind', hrefuses'⟩
        rw [hfind] at hkind'
        cases hkind'
        exact hrefuses hrefuses'
      · refine ⟨.inl, fun h => h.elim id fun hmem => ?_⟩
        rw [List.mem_singleton.mp hmem, Frame.Binds, hfind]
        rfl
  | none =>
    have hfree : ¬frame.Refuses name := by
      rintro ⟨kind', hkind', -⟩
      rw [hfind] at hkind'
      cases hkind'
    obtain ⟨hplain, -, hlexical⟩ := BindingKind.plain_of_isVarLike hkind
    refine ⟨hfree, rfl, fun other => ?_, fun other => ?_, fun other => ?_⟩
    · rw [Frame.binds_bind, List.mem_singleton]
    · unfold Frame.Refuses
      rw [Frame.find?_bind]
      by_cases hother : other = name
      · subst hother
        simp [hfind, hplain]
      · rw [if_neg hother]
    · rw [Frame.find?_bind]
      by_cases hother : other = name
      · subst hother
        simp [hfind, hlexical]
      · rw [if_neg hother]

end Frames

section Hoisting

/-- One of the scopes out to the nearest boundary refuses the variable. -/
def IsRefused (name : String) : List Frame → Prop
  | [] => False
  | frame :: outer =>
    frame.Refuses name ∨ (frame.has Role.isVarBoundary = false ∧ IsRefused name outer)

/-- Variables are recorded in the scopes out to the nearest boundary. -/
def Hoists (names : List String) : List Frame → List Frame → Prop
  | [], frames => frames = []
  | frame :: outer, frames => ∃ frame' outer', frames = frame' :: outer' ∧
      frame.Records frame' names ∧
      if frame.has Role.isVarBoundary then outer' = outer else Hoists names outer outer'

/-- What variables that come out of a scope do to the scopes around it. -/
def Passes (role : Role) (names : List String) (outer outer' : List Frame) : Prop :=
  if role.isVarBoundary then outer' = outer else Hoists names outer outer'

/-- The name is one of those around a body. -/
def IsTaken (outer : List Frame) (name : String) : Prop :=
  ∃ around ∈ outer.head?, around.has Role.isSignature = true ∧ around.Binds name

theorem has_of_roles {frame : Frame} {role : Role} (h : frame.roles = [role])
    (test : Role → Bool) : frame.has test = test role := by
  unfold Frame.has
  rw [h]
  simp

theorem Hoists.refl (frames : List Frame) : Hoists [] frames frames := by
  induction frames with
  | nil => rfl
  | cons frame outer ih =>
    refine ⟨frame, outer, rfl, .refl frame, ?_⟩
    split
    · rfl
    · exact ih

theorem Hoists.trans {first second : List String} {a b c : List Frame} (h : Hoists first a b)
    (h' : Hoists second b c) : Hoists (first ++ second) a c := by
  induction a generalizing b c with
  | nil =>
    cases h
    exact h'
  | cons frame outer ih =>
    obtain ⟨frame₁, outer₁, rfl, hrecords, hrest⟩ := h
    obtain ⟨frame₂, outer₂, rfl, hrecords', hrest'⟩ := h'
    rw [hrecords.has] at hrest'
    refine ⟨frame₂, outer₂, rfl, hrecords.trans hrecords', ?_⟩
    split at hrest
    · rename_i hboundary
      rw [if_pos hboundary] at hrest' ⊢
      rw [hrest', hrest]
    · rename_i hboundary
      rw [if_neg hboundary] at hrest' ⊢
      exact ih hrest hrest'

/-- Recorded variables make no scope refuse more. -/
theorem Hoists.isRefused_iff {names : List String} {a b : List Frame} (h : Hoists names a b)
    (name : String) : IsRefused name b ↔ IsRefused name a := by
  induction a generalizing b with
  | nil =>
    cases h
    exact Iff.rfl
  | cons frame outer ih =>
    obtain ⟨frame', outer', rfl, hrecords, hrest⟩ := h
    unfold IsRefused
    rw [hrecords.refuses, hrecords.has]
    split at hrest
    · rename_i hboundary
      simp [hboundary]
    · rw [ih hrest]

theorem Hoists.isTaken {names : List String} {a b : List Frame} (h : Hoists names a b)
    {name : String} (htaken : IsTaken b name) : IsTaken a name ∨ name ∈ names := by
  cases a with
  | nil =>
    cases h
    exact .inl htaken
  | cons frame outer =>
    obtain ⟨frame', outer', rfl, hrecords, -⟩ := h
    obtain ⟨around, hhead, hsignature, hbinds⟩ := htaken
    cases hhead
    rw [hrecords.has] at hsignature
    rcases (hrecords.binds name).mp hbinds with hbinds | hmem
    · exact .inl ⟨frame, rfl, hsignature, hbinds⟩
    · exact .inr hmem

theorem Hoists.isTaken_of {names : List String} {a b : List Frame} (h : Hoists names a b)
    {name : String} (htaken : IsTaken a name) : IsTaken b name := by
  obtain ⟨around, hhead, hsignature, hbinds⟩ := htaken
  cases a with
  | nil => cases hhead
  | cons frame outer =>
    obtain ⟨frame', outer', rfl, hrecords, -⟩ := h
    cases hhead
    refine ⟨frame', rfl, ?_, (hrecords.binds name).mpr (.inl hbinds)⟩
    rw [hrecords.has]
    exact hsignature

theorem passes_nil (role : Role) (outer : List Frame) : Passes role [] outer outer := by
  unfold Passes
  split
  · rfl
  · exact .refl outer

theorem Passes.trans {role : Role} {first second : List String} {a b c : List Frame}
    (h : Passes role first a b)
    (h' : Passes role second b c) : Passes role (first ++ second) a c := by
  unfold Passes at h h' ⊢
  split at h
  · rename_i hboundary
    rw [if_pos hboundary] at h' ⊢
    rw [h', h]
  · rename_i hboundary
    rw [if_neg hboundary] at h' ⊢
    exact h.trans h'

theorem Passes.isRefused_iff {role : Role} {names : List String} {a b : List Frame}
    (h : Passes role names a b) (name : String) : IsRefused name b ↔ IsRefused name a := by
  unfold Passes at h
  split at h
  · rw [h]
  · exact h.isRefused_iff name

theorem Passes.isTaken {role : Role} {names : List String} {a b : List Frame}
    (h : Passes role names a b) {name : String} (htaken : IsTaken b name) :
    IsTaken a name ∨ name ∈ names := by
  unfold Passes at h
  split at h
  · rw [h] at htaken
    exact .inl htaken
  · exact h.isTaken htaken

theorem Passes.isTaken_of {role : Role} {names : List String} {a b : List Frame}
    (h : Passes role names a b) {name : String} (htaken : IsTaken a name) : IsTaken b name := by
  unfold Passes at h
  split at h
  · rwa [h]
  · exact h.isTaken_of htaken

/-- A variable is recorded out to the nearest boundary unless it is refused on the way. -/
theorem recordVar_spec (name : String) (frames : List Frame) :
    ∀ kind : BindingKind, kind.isVarLike = true →
      match Stack.recordVar name kind frames with
      | (frames', true) => ¬IsRefused name frames ∧ Hoists [name] frames frames'
      | (_, false) => IsRefused name frames := by
  induction frames with
  | nil =>
    intro kind _
    exact ⟨id, rfl⟩
  | cons frame outer ih =>
    intro kind hkind
    have hframe := frame.recordVar?_spec name hkind
    have hrest := ih .varName rfl
    unfold Stack.recordVar
    cases hrecord : frame.recordVar? name kind with
    | none =>
      rw [hrecord] at hframe
      exact .inl hframe
    | some recorded =>
      rw [hrecord] at hframe
      obtain ⟨hfree, hrecords⟩ := hframe
      have hsame := hrecords.has Role.isVarBoundary
      dsimp only
      cases hboundary : frame.has Role.isVarBoundary with
      | true =>
        rw [if_pos (hsame.trans hboundary)]
        refine ⟨?_, recorded, outer, rfl, hrecords, by rw [if_pos hboundary]⟩
        rintro (hrefuses | ⟨hopen, -⟩)
        · exact hfree hrefuses
        · rw [hboundary] at hopen
          cases hopen
      | false =>
        have hopen : ¬frame.has Role.isVarBoundary = true := by rw [hboundary]; nofun
        rw [if_neg (by rwa [hsame])]
        split at hrest
        · rename_i outer' hrecorded
          rw [hrecorded]
          refine ⟨?_, recorded, outer', rfl, hrecords, by rw [if_neg hopen]; exact hrest.2⟩
          rintro (hrefuses | ⟨-, hrefused⟩)
          · exact hfree hrefuses
          · exact hrest.1 hrefused
        · rename_i outer' hrecorded
          rw [hrecorded]
          exact .inr ⟨hboundary, hrest⟩

end Hoisting

section Growth

variable {role : Role} {done items : List Item} {frame : Frame} {name : String} {kind : BindingKind}

/-- Variables that come from more items are recorded. -/
theorem Frame.Holds.record {frame' : Frame} (h : frame.Holds role done)
    (hrecords : frame.Records frame' (hoisted items))
    (hvar : ∀ d ∈ declared items, d.2.isVarLike = true ∧ d.1 ∈ hoisted items) :
    frame'.Holds role (done ++ items) := by
  refine ⟨hrecords.roles.trans h.roles, fun name => ?_, fun name => ?_, fun name => ?_⟩
  · rw [hrecords.binds, h.binds, declared_append, hoisted_append, List.map_append, List.mem_append,
      List.mem_append]
    have hmem : name ∈ (declared items).map Prod.fst → name ∈ hoisted items := by
      intro hname
      obtain ⟨d, hd, rfl⟩ := List.mem_map.mp hname
      exact (hvar d hd).2
    grind
  · rw [hrecords.refuses, h.refuses, declared_append]
    refine ⟨fun ⟨d, hd, hname⟩ => ⟨d, List.mem_append_left _ hd, hname⟩, ?_⟩
    rintro ⟨d, hd, hname, hrefuses⟩
    rcases List.mem_append.mp hd with hd | hd
    · exact ⟨d, hd, hname, hrefuses⟩
    · rw [(BindingKind.plain_of_isVarLike (hvar d hd).1).1] at hrefuses
      cases hrefuses
  · rw [hrecords.repeats, h.repeats, declared_append, List.mem_append]
    refine ⟨.inl, fun hmem => hmem.elim id fun hmem => ?_⟩
    exact absurd rfl (BindingKind.plain_of_isVarLike (hvar _ hmem).1).2.2

/-- A name that is no variable is bound, in place of what may be repeated. -/
theorem Frame.Holds.bind (h : frame.Holds role done) (hkind : kind.isVarLike = false)
    (hold : ∀ d ∈ declared done, d.1 = name → (d.2.refusesVar = true → kind.refusesVar = true) ∧
      (d.2 = .functionLexical → kind = .functionLexical)) (offset : Nat) :
    (frame.bind name kind).Holds role (done ++ [.declaration name kind offset]) := by
  have hdeclared : declared (done ++ [.declaration name kind offset]) =
      declared done ++ [(name, kind)] := declared_append _ _
  have hhoisted : hoisted (done ++ [.declaration name kind offset]) = hoisted done := by
    rw [hoisted_append, hoisted, hoisted, List.append_nil, escaping, hkind]
    simp
  refine ⟨h.roles, fun other => ?_, fun other => ?_, fun other => ?_⟩
  · rw [Frame.binds_bind, h.binds, hdeclared, hhoisted, List.map_append, List.mem_append]
    simp only [List.map_cons, List.map_nil, List.mem_singleton]
    grind
  · rw [hdeclared]
    unfold Frame.Refuses
    rw [Frame.find?_bind]
    by_cases hother : other = name
    · subst hother
      rw [if_pos rfl]
      constructor
      · rintro ⟨kind', hkind', hrefuses⟩
        cases hkind'
        exact ⟨(other, kind), by simp, rfl, hrefuses⟩
      · rintro ⟨d, hd, hname, hrefuses⟩
        refine ⟨kind, rfl, ?_⟩
        rcases List.mem_append.mp hd with hd | hd
        · exact (hold d hd hname).1 hrefuses
        · rw [List.mem_singleton.mp hd] at hrefuses
          exact hrefuses
    · rw [if_neg hother]
      refine (h.refuses other).trans ⟨?_, ?_⟩
      · rintro ⟨d, hd, hname⟩
        exact ⟨d, List.mem_append_left _ hd, hname⟩
      · rintro ⟨d, hd, hname, hrefuses⟩
        rcases List.mem_append.mp hd with hd | hd
        · exact ⟨d, hd, hname, hrefuses⟩
        · rw [List.mem_singleton.mp hd] at hname
          exact absurd hname.symm hother
  · rw [hdeclared, Frame.find?_bind, List.mem_append, List.mem_singleton, Prod.mk.injEq]
    by_cases hother : other = name
    · subst hother
      rw [if_pos rfl, Option.some.injEq]
      refine ⟨fun hsame => .inr ⟨rfl, hsame.symm⟩, fun hmem => ?_⟩
      rcases hmem with hmem | ⟨-, hsame⟩
      · exact (hold _ hmem rfl).2 rfl
      · exact hsame.symm
    · rw [if_neg hother, h.repeats]
      exact ⟨.inl, fun hmem => hmem.elim id fun hsame => absurd hsame.1 hother⟩

end Growth

theorem Frame.roles_recordVar? {frame recorded : Frame} {name : String} {kind : BindingKind}
    (h : frame.recordVar? name kind = some recorded) : recorded.roles = frame.roles := by
  unfold Frame.recordVar? at h
  split at h
  · split at h
    · cases h
    · cases h
      rfl
  · cases h
    rfl

namespace Stack

/-- What the open scopes are for, from the inside out. -/
def roles (stack : Stack) : List (List Role) := stack.frames.map Frame.roles

theorem roles_ne_nil (stack : Stack) : stack.roles ≠ [] := List.cons_ne_nil _ _

/-- A scope that stands in another one is closed. -/
theorem roles_pop {stack : Stack} {inner : List Role} {outer : List (List Role)}
    (h : stack.roles = inner :: outer) (hne : outer ≠ []) : stack.pop.roles = outer := by
  obtain ⟨current, frames⟩ := stack
  obtain ⟨-, rfl⟩ := List.cons.inj h
  cases frames with
  | nil => exact absurd rfl hne
  | cons frame rest => rfl

theorem roles_ofFrames {frames : List Frame} {stack : Stack}
    (h : frames.map Frame.roles = stack.roles) : (ofFrames frames stack).roles = stack.roles := by
  cases frames with
  | nil => rfl
  | cons current outer => exact h

theorem roles_recordVar (name : String) (kind : BindingKind) (frames : List Frame) :
    (recordVar name kind frames).1.map Frame.roles = frames.map Frame.roles := by
  induction frames generalizing kind with
  | nil => rfl
  | cons frame outer ih =>
    unfold recordVar
    split
    · rfl
    · rename_i recorded hrecorded
      have hroles := Frame.roles_recordVar? hrecorded
      split
      · simp [hroles]
      · simp [hroles, ih]

theorem roles_declareVar (stack : Stack) (name : String) (kind : BindingKind) (offset : Nat) :
    (stack.declareVar name kind offset).2.roles = stack.roles :=
  roles_ofFrames (roles_recordVar name kind stack.frames)

theorem roles_declareParameter (stack : Stack) (name : String) (offset : Nat) :
    (stack.declareParameter name offset).roles = stack.roles := by
  unfold declareParameter
  dsimp only
  split <;> rfl

theorem roles_declareLexical (stack : Stack) (name : String) (kind : BindingKind) (offset : Nat)
    (repeatFunctions : Bool) :
    (stack.declareLexical name kind offset repeatFunctions).2.roles = stack.roles := by
  unfold declareLexical
  extract_lets conflict
  split <;> rfl

theorem roles_declare (stack : Stack) (name : String) (kind : BindingKind) (offset : Nat)
    (repeatFunctions : Bool) :
    (stack.declare name kind offset repeatFunctions).2.roles = stack.roles := by
  unfold declare
  split
  · exact roles_declareVar ..
  · exact roles_declareVar ..
  · exact roles_declareParameter ..
  · exact roles_declareLexical ..

theorem roles_takeDeferred (stack : Stack) (depth : Nat) :
    (stack.takeDeferred depth).2.roles = stack.roles := by
  unfold takeDeferred
  dsimp only
  split
  · refine roles_ofFrames ?_
    refine List.ext_getElem? fun index => ?_
    rw [roles, List.getElem?_map, List.getElem?_map, List.getElem?_modify]
    cases stack.frames[index]? with
    | none => rfl
    | some frame =>
      change some (Frame.roles (if _ then _ else frame)) = some frame.roles
      split <;> rfl
  · rfl

end Stack

namespace PrivateNames

theorem length_declare {classes declared : PrivateNames} {name : String} {kind : PrivateKind}
    {isStatic : Bool} {offset : Nat}
    (h : classes.declare name kind isStatic offset = .ok declared) :
    declared.length = classes.length := by
  unfold declare at h
  split at h
  · cases h
  · split at h
    · cases h
    · split at h
      · cases h
        rfl
      · cases h

theorem length_reference {classes referred : PrivateNames} {name : String} {offset : Nat}
    (h : classes.reference name offset = .ok referred) : referred.length = classes.length := by
  unfold reference at h
  split at h
  · cases h
  · cases h
    rfl

theorem length_exitClass (classes : PrivateNames) :
    classes.exitClass.2.length = classes.length - 1 := by
  unfold exitClass
  split
  · rfl
  · split <;> rfl
  · rfl

end PrivateNames

end EcmaSyntax.Scope
