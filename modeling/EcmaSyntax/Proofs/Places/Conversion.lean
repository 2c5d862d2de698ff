import EcmaSyntax.Grammar.Primary
import EcmaSyntax.Proofs.Grammar.Light
import EcmaSyntax.Proofs.Places.Form

/-!
A literal that becomes a pattern stands where it stood, and so do the parts of it. Names in
it become targets or bindings, which the conversion checks.
-/

namespace EcmaSyntax.Grammar

open EcmaSyntax.Diagnostic EcmaSyntax.Text EcmaSyntax.Tree

variable {version : Nat} [Unicode.IdentifierChars version]

variable {options : Options} {place : Place} {slot : Slot} {c : Conversion}

section Targets

theorem suits_withoutParens {e : Expression} (hslot : slot ≠ .name)
    (h : Suits options (place.as slot) (.expression e)) :
    ∃ slot', slot' ≠ .name ∧ Suits options (place.as slot') (.expression e.withoutParens) := by
  induction e using Expression.withoutParens.induct generalizing slot with
  | case1 span e ih => exact ih (show Slot.value ≠ .name from nofun) (h.part List.mem_cons_self)
  | case2 e hne =>
    rw [Expression.withoutParens]
    · exact ⟨slot, hslot, h⟩
    · exact hne

theorem isUnreserved_of_suits {id : Identifier} (hslot : slot ≠ .name)
    (h : Suits options (place.as slot) (.expression (.identifier id)))
    (hstrict : place.strict = true) : IsUnreserved id.name := h.here.strict hstrict hslot

theorem suits_identifier {id : Identifier} (h : place.strict = true → IsBindable id.name) :
    Suits options (place.as slot) (.pattern (.identifier id)) := by
  refine .leaf ⟨trivial, trivial, fun hstrict => ?_, trivial, trivial⟩ rfl
  exact ⟨(h hstrict).unreserved, fun _ => (h hstrict).assignable⟩

/-- A member is the same target as it was an expression. -/
theorem suits_member {span : Span} {object property : Expression} {computed optional : Bool}
    (h : Suits options (place.as slot)
      (.expression (.member span object property computed optional))) :
    Suits options (place.as .value) (.pattern (.member span object property computed optional)) :=
  .pair ⟨trivial, trivial, trivial, trivial, trivial⟩ (h.part List.mem_cons_self)
    (h.part (List.mem_cons_of_mem _ List.mem_cons_self)) rfl

/-- Only for a name it matters that it is the target of the value of a shorthand property. -/
theorem suits_target {p : Pattern} (hslot : slot = .value ∨ slot = .shorthand)
    (h : Suits options (place.as slot) (.pattern p))
    (hname : ∀ id, p = .identifier id → place.strict = true → IsAssignable id.name) :
    Suits options (place.as .value) (.pattern p) := by
  rcases hslot with rfl | rfl
  · exact h
  · cases p with
    | identifier id =>
      exact suits_identifier fun hstrict => ⟨(h.here.strict hstrict).1, hname id rfl hstrict⟩
    | _ => exact .node ⟨trivial, trivial, trivial, trivial, trivial⟩ fun part hpart => h.part hpart

end Targets

section Checks

/-- Strict code assigns to the name, if it is a target. -/
theorem gives_checkName (id : Identifier) :
    Gives (fun _ => c.ctx.strict = true → IsAssignable id.name) (c.checkName id) := by
  unfold Conversion.checkName
  split
  · refine (gives_refuse (spared_bindingFault _ _ _) _).mono fun _ h => ?_
    exact isAssignable_of_target (target_of_binding h)
  · exact (gives_refuse (spared_targetFault _ _) _).mono fun _ h => isAssignable_of_target h

theorem gives_checkRest (span : Span) (isLast : Bool) :
    Gives (fun _ => True) (c.checkRest span isLast) := by
  unfold Conversion.checkRest
  split
  · exact .error
  · split
    · exact .ok trivial
    · exact .error

theorem gives_checkRestArgument (e : Expression) :
    Gives (fun _ => True) (c.checkRestArgument e) := by
  unfold Conversion.checkRestArgument
  split
  · split
    · exact .ok trivial
    · exact .error
  · exact .ok trivial

theorem gives_noteKey (unique : Bool) (keys : List String) (key : Expression) :
    Gives (fun _ => True) (noteKey unique keys key) := by
  unfold noteKey
  split
  · exact .ok trivial
  · split
    · exact .error
    · exact .ok trivial

mutual

theorem gives_checkPattern (p : Pattern) : Gives (fun _ => ∀ id, p = .identifier id →
    c.ctx.strict = true → IsAssignable id.name) (checkPattern c p) := by
  match p with
  | .identifier id =>
    unfold checkPattern
    refine (gives_checkName id).mono fun _ h other hother => ?_
    cases hother
    exact h
  | .member span _ _ _ _ =>
    unfold checkPattern
    split
    · exact .ok nofun
    · exact .error
  | .array _ elements =>
    unfold checkPattern
    exact (gives_checkPatterns elements).mono fun _ _ => nofun
  | .object _ properties =>
    unfold checkPattern
    exact (gives_checkPatternProperties properties).mono fun _ _ => nofun
  | .rest _ argument =>
    unfold checkPattern
    exact (gives_checkPattern argument).mono fun _ _ => nofun
  | .withDefault _ left _ =>
    unfold checkPattern
    exact (gives_checkPattern left).mono fun _ _ => nofun
  | .hole =>
    unfold checkPattern
    exact .ok nofun

theorem gives_checkPatterns (ps : List Pattern) :
    Gives (fun _ => True) (checkPatterns c ps) := by
  match ps with
  | [] => exact .ok trivial
  | p :: rest => exact (gives_checkPattern p).bind fun _ _ => gives_checkPatterns rest

theorem gives_checkPatternProperties (ps : List PatternProperty) :
    Gives (fun _ => True) (checkPatternProperties c ps) := by
  match ps with
  | [] => exact .ok trivial
  | .property _ _ value _ _ :: rest =>
    exact (gives_checkPattern value).bind fun _ _ => gives_checkPatternProperties rest
  | .rest _ argument :: rest =>
    exact (gives_checkPattern argument).bind fun _ _ => gives_checkPatternProperties rest

end

end Checks

section Conversion

/-- Where the expression may stand, by itself or as the value of a shorthand property, the
pattern may, if the conversion is strict wherever the place is. -/
def Replaces (options : Options) (c : Conversion) (e : Expression) (p : Pattern) : Prop :=
  ∀ (place : Place) (slot : Slot), (place.strict = true → c.ctx.strict = true) →
    slot = .value ∨ slot = .shorthand → Suits options (place.as slot) (.expression e) →
      Suits options (place.as .value) (.pattern p)

theorem gives_parenthesizedTarget (e : Expression) :
    Gives (Replaces options c e) (c.parenthesizedTarget e) := by
  unfold Conversion.parenthesizedTarget
  split
  · rename_i id _ hid
    refine (gives_checkName id).bind fun _ hname => .ok fun place slot hstrict hslot h => ?_
    obtain ⟨slot', hslot', hinner⟩ :=
      suits_withoutParens (by rcases hslot with rfl | rfl <;> exact nofun) h
    rw [hid] at hinner
    exact suits_identifier fun hplace =>
      ⟨isUnreserved_of_suits hslot' hinner hplace, hname (hstrict hplace)⟩
  · rename_i hmember
    refine .ok fun place slot hstrict hslot h => ?_
    obtain ⟨slot', hslot', hinner⟩ :=
      suits_withoutParens (by rcases hslot with rfl | rfl <;> exact nofun) h
    rw [hmember] at hinner
    exact suits_member hinner
  · exact .error

mutual

theorem gives_toPattern (e : Expression) : Gives (Replaces options c e) (toPattern c e) := by
  unfold toPattern
  split
  · exact gives_parenthesizedTarget _
  · split
    · exact gives_parenthesizedTarget _
    · rename_i id _
      refine (gives_checkName id).bind fun _ hname => .ok fun place slot hstrict hslot h => ?_
      have hslot' : slot ≠ .name := by rcases hslot with rfl | rfl <;> exact nofun
      exact suits_identifier fun hplace =>
        ⟨isUnreserved_of_suits hslot' h hplace, hname (hstrict hplace)⟩
  · split
    · exact gives_parenthesizedTarget _
    · split
      · exact .ok fun place slot hstrict hslot h => suits_member h
      · exact .error
  · split
    · exact gives_parenthesizedTarget _
    · rename_i elements _
      refine (gives_toPatterns elements).bind fun ps hps => .ok fun place slot hstrict _ h => ?_
      have hall := hps place hstrict fun x hx =>
        h.part (List.mem_map_of_mem (List.mem_map_of_mem hx))
      refine .node (.of_isTransparent rfl) ?_
      exact List.forall_mem_map.mpr (List.forall_mem_map.mpr hall)
  · split
    · exact gives_parenthesizedTarget _
    · rename_i members _
      refine (gives_toProperties [] members).bind fun ps hps => .ok fun place slot hstrict _ h => ?_
      have hall := hps place hstrict fun m hm =>
        h.part (List.mem_map_of_mem (List.mem_map_of_mem hm))
      refine .node (.of_isTransparent rfl) ?_
      exact List.forall_mem_map.mpr (List.forall_mem_map.mpr hall)
  · split
    · exact gives_parenthesizedTarget _
    · rename_i span operator left right _
      split
      · refine (gives_checkPattern left).bind fun _ hname => ?_
        refine .ok fun place slot hstrict hslot h => ?_
        have hleft := h.part List.mem_cons_self
        have hright := h.part (List.mem_cons_of_mem _ List.mem_cons_self)
        refine .pair (.of_isTransparent rfl) (suits_target ?_ hleft fun id hid hplace =>
          hname id hid (hstrict hplace)) hright rfl
        rcases hslot with rfl | rfl
        · exact .inl rfl
        · exact .inr rfl
      · exact .error
  · exact .error
termination_by sizeOf e

theorem gives_toPatterns (elements : List Element) : Gives (fun ps => ∀ place : Place,
    (place.strict = true → c.ctx.strict = true) →
      (∀ x ∈ elements, Suits options (place.as .value) (.element x)) →
        ∀ p ∈ ps, Suits options (place.as .value) (.pattern p)) (toPatterns c elements) := by
  match elements with
  | [] => exact .ok fun _ _ _ => nofun
  | .hole :: rest =>
    unfold toPatterns
    refine (gives_toPatterns rest).bind fun ps hps => .ok fun place hstrict hall => ?_
    refine List.forall_mem_cons.mpr ⟨.leaf (.of_isTransparent rfl) rfl, ?_⟩
    exact hps place hstrict (List.forall_mem_cons.mp hall).2
  | .item e :: rest =>
    unfold toPatterns
    refine (gives_toPattern e).bind fun p hp => (gives_toPatterns rest).bind fun ps hps => ?_
    refine .ok fun place hstrict hall => ?_
    rw [List.forall_mem_cons] at hall
    refine List.forall_mem_cons.mpr ⟨?_, hps place hstrict hall.2⟩
    exact hp place .value hstrict (.inl rfl) (hall.1.part List.mem_cons_self)
  | .spread span e :: rest =>
    unfold toPatterns
    refine (gives_checkRest _ _).bind fun _ _ => (gives_checkRestArgument e).bind fun _ _ => ?_
    refine (gives_toPattern e).bind fun p hp => (gives_toPatterns rest).bind fun ps hps => ?_
    refine .ok fun place hstrict hall => ?_
    rw [List.forall_mem_cons] at hall
    refine List.forall_mem_cons.mpr ⟨?_, hps place hstrict hall.2⟩
    refine .node (.of_isTransparent rfl) (List.forall_mem_singleton.mpr ?_)
    exact hp place .value hstrict (.inl rfl) (hall.1.part List.mem_cons_self)
termination_by sizeOf elements

theorem gives_toProperties (keys : List String) (members : List ObjectMember) :
    Gives (fun ps => ∀ place : Place, (place.strict = true → c.ctx.strict = true) →
      (∀ m ∈ members, Suits options (place.as .value) (.member m)) →
        ∀ p ∈ ps, Suits options (place.as .value) (.patternProperty p))
      (toProperties c keys members) := by
  match members with
  | [] => exact .ok fun _ _ _ => nofun
  | .property span key value kind method shorthand computed :: rest =>
    unfold toProperties
    split
    · exact .error
    · rename_i hinit
      have hslot : propertySlot kind method shorthand = .value ∨
          propertySlot kind method shorthand = .shorthand := by
        unfold propertySlot
        rw [if_neg hinit]
        split
        · exact .inr rfl
        · exact .inl rfl
      have hrest : ∀ keys, Gives (fun ps => ∀ place : Place,
          (place.strict = true → c.ctx.strict = true) →
            (∀ m ∈ ObjectMember.property span key value kind method shorthand computed :: rest,
              Suits options (place.as .value) (.member m)) →
              ∀ p ∈ ps, Suits options (place.as .value) (.patternProperty p)) (do
            let target ← toPattern c value
            let others ← toProperties c keys rest
            pure (PatternProperty.property span key target shorthand computed :: others)) := by
        intro keys
        refine (gives_toPattern value).bind fun p hp => ?_
        refine (gives_toProperties keys rest).bind fun ps hps => .ok fun place hstrict hall => ?_
        rw [List.forall_mem_cons] at hall
        refine List.forall_mem_cons.mpr ⟨?_, hps place hstrict hall.2⟩
        have hkey := hall.1.part List.mem_cons_self
        have hvalue := hall.1.part (List.mem_cons_of_mem _ List.mem_cons_self)
        exact .pair ⟨trivial, trivial, trivial, trivial, trivial⟩ hkey
          (hp place _ hstrict hslot hvalue) rfl
      dsimp only
      split
      · exact (Gives.ok (P := fun _ => True) trivial).bind fun keys _ => hrest keys
      · exact (gives_noteKey _ _ _).bind fun keys _ => hrest keys
  | .spread span e :: rest =>
    unfold toProperties
    refine (gives_checkRest _ _).bind fun _ _ => (gives_toPattern e).bind fun p hp => ?_
    have hrest : Gives (fun ps => ∀ place : Place,
        (place.strict = true → c.ctx.strict = true) →
          (∀ m ∈ ObjectMember.spread span e :: rest, Suits options (place.as .value) (.member m)) →
            ∀ p ∈ ps, Suits options (place.as .value) (.patternProperty p)) (do
          let others ← toProperties c keys rest
          pure (PatternProperty.rest span p :: others)) := by
      refine (gives_toProperties keys rest).bind fun ps hps => .ok fun place hstrict hall => ?_
      rw [List.forall_mem_cons] at hall
      refine List.forall_mem_cons.mpr ⟨?_, hps place hstrict hall.2⟩
      refine .node (.of_isTransparent rfl) (List.forall_mem_singleton.mpr ?_)
      exact hp place .value hstrict (.inl rfl) (hall.1.part List.mem_cons_self)
    split
    · exact hrest
    · exact hrest
    · exact .error
termination_by sizeOf members

end

end Conversion

section Parameters

variable {exposed : Prop} {grant : Grant}

theorem Replaces.allowed {e : Expression} {p : Pattern} (h : Replaces options c e p)
    (hstrict : grant.strict = true → c.ctx.strict = true)
    (he : Allowed options exposed grant (.expression e)) :
    Allowed options exposed grant (.pattern p) := fun place hplace =>
  h place .value (fun hplace' => hstrict (hplace.strict hplace')) (.inl rfl) (he place hplace)

theorem gives_toPatterns_allowed (hstrict : grant.strict = true → c.ctx.strict = true)
    (elements : List Element) : Gives (fun ps =>
      (∀ x ∈ elements, Allowed options exposed grant (.element x)) →
        ∀ p ∈ ps, Allowed options exposed grant (.pattern p)) (toPatterns c elements) :=
  (gives_toPatterns elements).mono fun _ hps hall p hp place hplace =>
    hps place (fun hplace' => hstrict (hplace.strict hplace'))
      (fun x hx => hall x hx place hplace) p hp

theorem gives_toRestPattern (hstrict : grant.strict = true → c.ctx.strict = true) (start : Nat)
    (e : Expression) : Gives (fun p => Allowed options exposed grant (.expression e) →
      Allowed options exposed grant (.pattern p)) (toRestPattern c start e) := by
  have htarget : Gives (Replaces options c e) (toPattern c e) := gives_toPattern e
  refine (gives_checkRestArgument e).bind fun _ _ => htarget.bind fun p hp => ?_
  exact .ok fun he => .single rfl (hp.allowed hstrict he) rfl

theorem gives_groupParameter (hstrict : grant.strict = true → c.ctx.strict = true)
    (item : GroupItem) : Gives (fun p =>
      Allowed options exposed grant (.expression item.expression) →
        Allowed options exposed grant (.pattern p)) (groupParameter c item) := by
  unfold groupParameter
  split
  · exact gives_toRestPattern hstrict item.start item.expression
  · exact (gives_toPattern item.expression).mono fun _ hp he => hp.allowed hstrict he

theorem gives_groupParameters (hstrict : grant.strict = true → c.ctx.strict = true)
    (items : List GroupItem) : Gives (fun ps =>
      (∀ item ∈ items, Allowed options exposed grant (.expression item.expression)) →
        ∀ p ∈ ps, Allowed options exposed grant (.pattern p))
      (items.mapM (groupParameter c)) := by
  induction items with
  | nil => exact .ok nofun
  | cons item rest ih =>
    have hitem : Gives (fun p => Allowed options exposed grant (.expression item.expression) →
        Allowed options exposed grant (.pattern p)) (groupParameter c item) :=
      gives_groupParameter hstrict item
    rw [List.mapM_cons]
    refine hitem.bind fun p hp => ih.bind fun ps hps => ?_
    refine .ok fun hall => ?_
    rw [List.forall_mem_cons] at hall
    exact List.forall_mem_cons.mpr ⟨hp hall.1, hps hall.2⟩

end Parameters

end EcmaSyntax.Grammar
