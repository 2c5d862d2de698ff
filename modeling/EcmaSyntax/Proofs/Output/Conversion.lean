import EcmaSyntax.Grammar.Conversion
import EcmaSyntax.Proofs.Output.Mirror
import EcmaSyntax.Proofs.Tree.Raws

/-!
What the grammar reads off a tree without looking at the text of its literals: where a
literal is no expression, and the pattern that an expression stands for.
-/

namespace EcmaSyntax.Grammar

open EcmaSyntax.Diagnostic EcmaSyntax.Tree

variable {version : Nat} [Unicode.IdentifierChars version]

section Covers

mutual

@[simp] theorem shorthandInitializer?_withoutRaw (e : Expression) :
    shorthandInitializer? e.withoutRaw = shorthandInitializer? e := by
  cases e with
  | array span elements => exact shorthandInitializerOfElements?_withoutRaw elements
  | object span members => exact shorthandInitializerOfMembers?_withoutRaw members
  | _ => rfl

theorem shorthandInitializerOfElements?_withoutRaw (elements : List Element) :
    shorthandInitializerOfElements? (elementsWithoutRaw elements) =
      shorthandInitializerOfElements? elements := by
  match elements with
  | [] => rfl
  | .hole :: rest => exact shorthandInitializerOfElements?_withoutRaw rest
  | .item e :: rest =>
    simp only [elementsWithoutRaw, Element.withoutRaw, shorthandInitializerOfElements?,
      shorthandInitializer?_withoutRaw e, shorthandInitializerOfElements?_withoutRaw rest]
  | .spread span e :: rest =>
    simp only [elementsWithoutRaw, Element.withoutRaw, shorthandInitializerOfElements?,
      shorthandInitializer?_withoutRaw e, shorthandInitializerOfElements?_withoutRaw rest]

theorem shorthandInitializerOfMembers?_withoutRaw (members : List ObjectMember) :
    shorthandInitializerOfMembers? (membersWithoutRaw members) =
      shorthandInitializerOfMembers? members := by
  match members with
  | [] => rfl
  | .property span key value kind method shorthand computed :: rest =>
    have hrest := shorthandInitializerOfMembers?_withoutRaw rest
    cases shorthand with
    | true => cases value <;> first | rfl | exact hrest
    | false =>
      simp only [membersWithoutRaw, ObjectMember.withoutRaw, shorthandInitializerOfMembers?,
        shorthandInitializer?_withoutRaw value, hrest, Bool.false_eq_true, if_false]
  | .spread span e :: rest =>
    simp only [membersWithoutRaw, ObjectMember.withoutRaw, shorthandInitializerOfMembers?,
      shorthandInitializer?_withoutRaw e, shorthandInitializerOfMembers?_withoutRaw rest]

end

@[simp] theorem setsProto_withoutRaw (m : ObjectMember) : setsProto m.withoutRaw = setsProto m := by
  cases m with
  | property span key value kind method shorthand computed =>
    simp [ObjectMember.withoutRaw, setsProto]
  | spread => rfl

theorem filter_setsProto (members : List ObjectMember) :
    (members.map ObjectMember.withoutRaw).filter setsProto =
      (members.filter setsProto).map ObjectMember.withoutRaw := by
  rw [List.filter_map]
  congr 2
  funext m
  exact setsProto_withoutRaw m

theorem secondProto?_withoutRaw (members : List ObjectMember) :
    secondProto? (membersWithoutRaw members) = secondProto? members := by
  rw [membersWithoutRaw_eq_map]
  unfold secondProto?
  rw [filter_setsProto, ← List.map_drop]
  match (members.filter setsProto).drop 1 with
  | [] => rfl
  | .property _ key _ _ _ _ _ :: _ => exact congrArg some key.start_withoutRaw
  | .spread _ _ :: _ => rfl

mutual

@[simp] theorem repeatedProto?_withoutRaw (e : Expression) :
    repeatedProto? e.withoutRaw = repeatedProto? e := by
  cases e with
  | array span elements => exact repeatedProtoOfElements?_withoutRaw elements
  | object span members =>
    simp only [Expression.withoutRaw, repeatedProto?, secondProto?_withoutRaw,
      repeatedProtoOfMembers?_withoutRaw members]
  | _ => rfl

theorem repeatedProtoOfElements?_withoutRaw (elements : List Element) :
    repeatedProtoOfElements? (elementsWithoutRaw elements) =
      repeatedProtoOfElements? elements := by
  match elements with
  | [] => rfl
  | .hole :: rest => exact repeatedProtoOfElements?_withoutRaw rest
  | .item e :: rest =>
    simp only [elementsWithoutRaw, Element.withoutRaw, repeatedProtoOfElements?,
      repeatedProto?_withoutRaw e, repeatedProtoOfElements?_withoutRaw rest]
  | .spread span e :: rest =>
    simp only [elementsWithoutRaw, Element.withoutRaw, repeatedProtoOfElements?,
      repeatedProto?_withoutRaw e, repeatedProtoOfElements?_withoutRaw rest]

theorem repeatedProtoOfMembers?_withoutRaw (members : List ObjectMember) :
    repeatedProtoOfMembers? (membersWithoutRaw members) = repeatedProtoOfMembers? members := by
  match members with
  | [] => rfl
  | .property span key value kind method shorthand computed :: rest =>
    simp only [membersWithoutRaw, ObjectMember.withoutRaw, repeatedProtoOfMembers?,
      repeatedProto?_withoutRaw value, repeatedProtoOfMembers?_withoutRaw rest]
  | .spread span e :: rest =>
    simp only [membersWithoutRaw, ObjectMember.withoutRaw, repeatedProtoOfMembers?,
      repeatedProto?_withoutRaw e, repeatedProtoOfMembers?_withoutRaw rest]

end

@[simp] theorem checkCovers_withoutRaw (cover : Cover) (es : List Expression) :
    checkCovers cover (es.map Expression.withoutRaw) = checkCovers cover es := by
  unfold checkCovers
  simp only [List.head?_map, Option.map_map, List.findSome?_map, Function.comp_def,
    shorthandInitializer?_withoutRaw, repeatedProto?_withoutRaw, Expression.start_withoutRaw]

@[simp] theorem checkCover_withoutRaw (e : Expression) :
    checkCover e.withoutRaw = checkCover e := by
  unfold checkCover
  simp only [show [e.withoutRaw] = [e].map Expression.withoutRaw from rfl, checkCovers_withoutRaw]

@[simp] theorem isParenthesized_withoutRaw (e : Expression) :
    isParenthesized e.withoutRaw = isParenthesized e := by
  unfold isParenthesized
  rw [e.start_withoutRaw]

@[simp] theorem isBareArrow_withoutRaw (e : Expression) :
    isBareArrow e.withoutRaw = isBareArrow e := by
  cases e <;> rfl

instance {cover : Cover} {es : List Expression} : Unwatched (checkCovers cover es) := by
  unfold checkCovers; infer_instance

instance {e : Expression} : Unwatched (checkCover e) := by unfold checkCover; infer_instance

instance {e : Expression} : Unwatched (isParenthesized e) := blind_of_eq fun _ => rfl

instance {e : Expression} : Unwatched (isBareArrow e) := by
  unfold isBareArrow
  split <;> infer_instance

instance {options : Options} {use : PatternUse} {ctx : Context} :
    Unwatched (conversion options use ctx) :=
  blind_of_eq fun _ => rfl

@[simp] theorem conversion_quiet (options : Options) :
    conversion options.quiet = conversion options := rfl

end Covers

section Patterns

variable {c : Conversion}

@[simp] theorem standsInParens_withoutRaw (e : Expression) :
    c.standsInParens e.withoutRaw = c.standsInParens e := by
  unfold Conversion.standsInParens
  rw [e.start_withoutRaw]

theorem parenthesizedTarget_withoutRaw (e : Expression) :
    c.parenthesizedTarget e.withoutRaw = (c.parenthesizedTarget e).map Pattern.withoutRaw := by
  unfold Conversion.parenthesizedTarget
  rw [e.withoutParens_withoutRaw, e.start_withoutRaw]
  cases c.use with
  | binding => rfl
  | assignment =>
    cases e.withoutParens with
    | identifier id =>
      change (c.checkName id >>= _) = (c.checkName id >>= _).map _
      cases c.checkName id <;> rfl
    | _ => rfl

@[simp] theorem checkRestArgument_withoutRaw (e : Expression) :
    c.checkRestArgument e.withoutRaw = c.checkRestArgument e := by
  cases e <;> rfl

@[simp] theorem noteKey_withoutRaw (unique : Bool) (keys : List String) (key : Expression) :
    noteKey unique keys key.withoutRaw = noteKey unique keys key := by
  unfold noteKey
  rw [key.staticKey?_withoutRaw, key.start_withoutRaw]

mutual

@[simp] theorem checkPattern_withoutRaw (p : Pattern) :
    checkPattern c p.withoutRaw = checkPattern c p := by
  cases p with
  | identifier id => rfl
  | object span properties => exact checkPatternProperties_withoutRaw properties
  | array span elements => exact checkPatterns_withoutRaw elements
  | rest span argument => exact checkPattern_withoutRaw argument
  | withDefault span left right => exact checkPattern_withoutRaw left
  | member => rfl
  | hole => rfl

theorem checkPatterns_withoutRaw (patterns : List Pattern) :
    checkPatterns c (patternsWithoutRaw patterns) = checkPatterns c patterns := by
  cases patterns with
  | nil => rfl
  | cons p rest =>
    simp only [patternsWithoutRaw, checkPatterns, checkPattern_withoutRaw p,
      checkPatterns_withoutRaw rest]

theorem checkPatternProperties_withoutRaw (properties : List PatternProperty) :
    checkPatternProperties c (patternPropertiesWithoutRaw properties) =
      checkPatternProperties c properties := by
  match properties with
  | [] => rfl
  | .property _ _ value _ _ :: rest =>
    simp only [patternPropertiesWithoutRaw, PatternProperty.withoutRaw, checkPatternProperties,
      checkPattern_withoutRaw value, checkPatternProperties_withoutRaw rest]
  | .rest _ argument :: rest =>
    simp only [patternPropertiesWithoutRaw, PatternProperty.withoutRaw, checkPatternProperties,
      checkPattern_withoutRaw argument, checkPatternProperties_withoutRaw rest]

end

mutual

/-- The pattern of an expression without the text of its literals. -/
theorem toPattern_withoutRaw (e : Expression) :
    toPattern c e.withoutRaw = (toPattern c e).map Pattern.withoutRaw := by
  have hparens := parenthesizedTarget_withoutRaw (c := c) e
  have hstands := standsInParens_withoutRaw (c := c) e
  cases e with
  | parenthesized span inner => exact hparens
  | identifier id =>
    simp only [Expression.withoutRaw, toPattern] at hparens hstands ⊢
    split
    · exact hparens
    · cases c.checkName id <;> rfl
  | member span object property computed optional =>
    simp only [Expression.withoutRaw, toPattern] at hparens hstands ⊢
    rw [hstands]
    split
    · exact hparens
    · split <;> rfl
  | array span elements =>
    simp only [Expression.withoutRaw, toPattern] at hparens hstands ⊢
    rw [hstands, toPatterns_withoutRaw elements]
    split
    · exact hparens
    · cases toPatterns c elements <;> rfl
  | object span members =>
    simp only [Expression.withoutRaw, toPattern] at hparens hstands ⊢
    rw [hstands, toProperties_withoutRaw members]
    split
    · exact hparens
    · cases toProperties c [] members <;> rfl
  | assignment span operator left right =>
    simp only [Expression.withoutRaw, toPattern] at hparens hstands ⊢
    rw [hstands, checkPattern_withoutRaw]
    split
    · exact hparens
    · split
      · cases checkPattern c left <;> rfl
      · rfl
  | function value => cases value; rfl
  | classExpression value => cases value; rfl
  | markup value => cases value <;> rfl
  | _ => rfl

theorem toPatterns_withoutRaw (elements : List Element) :
    toPatterns c (elementsWithoutRaw elements) =
      (toPatterns c elements).map patternsWithoutRaw := by
  match elements with
  | [] => rfl
  | .hole :: rest =>
    simp only [elementsWithoutRaw, Element.withoutRaw, toPatterns, toPatterns_withoutRaw rest]
    cases toPatterns c rest <;> rfl
  | .item e :: rest =>
    simp only [elementsWithoutRaw, Element.withoutRaw, toPatterns, toPattern_withoutRaw e,
      toPatterns_withoutRaw rest]
    cases toPattern c e with
    | error failure => rfl
    | ok p => cases toPatterns c rest <;> rfl
  | .spread span e :: rest =>
    have hempty : (elementsWithoutRaw rest).isEmpty = rest.isEmpty := by simp
    simp only [elementsWithoutRaw, Element.withoutRaw, toPatterns, toPattern_withoutRaw e,
      toPatterns_withoutRaw rest, hempty, checkRestArgument_withoutRaw, Expression.span_withoutRaw]
    cases c.checkRest span rest.isEmpty with
    | error failure => rfl
    | ok _ =>
      cases c.checkRestArgument e with
      | error failure => rfl
      | ok _ =>
        cases toPattern c e with
        | error failure => rfl
        | ok p => cases toPatterns c rest <;> rfl

theorem toProperties_withoutRaw (members : List ObjectMember) {keys : List String} :
    toProperties c keys (membersWithoutRaw members) =
      (toProperties c keys members).map patternPropertiesWithoutRaw := by
  match members with
  | [] => rfl
  | .property span key value kind method shorthand computed :: rest =>
    simp only [membersWithoutRaw, ObjectMember.withoutRaw, toProperties, toPattern_withoutRaw value,
      noteKey_withoutRaw]
    have hrest : ∀ keys, (do
        let target ← (toPattern c value).map Pattern.withoutRaw
        let others ← toProperties c keys (membersWithoutRaw rest)
        pure (PatternProperty.property span key.withoutRaw target shorthand computed :: others)) =
          (do
            let target ← toPattern c value
            let others ← toProperties c keys rest
            pure (PatternProperty.property span key target shorthand computed :: others)).map
              patternPropertiesWithoutRaw := by
      intro keys
      rw [toProperties_withoutRaw rest]
      cases toPattern c value with
      | error failure => rfl
      | ok p => cases toProperties c keys rest <;> rfl
    split
    · rfl
    · split
      · exact hrest keys
      · cases noteKey c.uniqueKeys keys key with
        | error failure => rfl
        | ok keys => exact hrest keys
  | .spread span e :: rest =>
    have hempty : (membersWithoutRaw rest).isEmpty = rest.isEmpty := by simp
    simp only [membersWithoutRaw, ObjectMember.withoutRaw, toProperties, toPattern_withoutRaw e,
      toProperties_withoutRaw rest, hempty, Expression.start_withoutRaw]
    cases c.checkRest span rest.isEmpty with
    | error failure => rfl
    | ok _ =>
      cases toPattern c e with
      | error failure => rfl
      | ok p => cases p <;> first | rfl | (cases toProperties c keys rest <;> rfl)

end

theorem toPatterns_map (elements : List Element) :
    toPatterns c (elements.map Element.withoutRaw) =
      (toPatterns c elements).map (List.map Pattern.withoutRaw) := by
  rw [← elementsWithoutRaw_eq_map, toPatterns_withoutRaw]
  congr 1
  funext patterns
  exact patternsWithoutRaw_eq_map patterns

theorem toRestPattern_withoutRaw (start : Nat) (e : Expression) :
    toRestPattern c start e.withoutRaw = (toRestPattern c start e).map Pattern.withoutRaw := by
  unfold toRestPattern
  rw [checkRestArgument_withoutRaw, toPattern_withoutRaw, e.span_withoutRaw]
  cases c.checkRestArgument e with
  | error failure => rfl
  | ok _ => cases toPattern c e <;> rfl

/-- Patterns that are made outside the parse are made there for the erased run too. -/
theorem echoes_ofExcept {α : Type} {k : α → α} {found found' : Except Failure α}
    (h : found' = found.map k) : Echoes k (ofExcept found) (ofExcept found') := by
  subst h
  cases found with
  | error failure => exact .failing (throw failure)
  | ok a => exact .pure rfl

end Patterns

end EcmaSyntax.Grammar
