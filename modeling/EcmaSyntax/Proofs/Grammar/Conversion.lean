import EcmaSyntax.Grammar.Conversion
import EcmaSyntax.Proofs.Outcome
import EcmaSyntax.Proofs.Tree.Patterns
import Mathlib.Data.List.Forall2
import EcmaSyntax.Proofs.Grammar.Makes

/-!
What a literal was that could be turned into a pattern. A pattern is made of a name, a member, an
array, an object or an assignment, and the parts of an array or an object are patterns again, so a
relation of expressions to patterns that holds in these five cases holds of a literal and the
pattern it becomes.

A literal that is turned into a pattern keeps the expressions in it. A property that goes down
from plain nodes to what is below them and up again, and from members to targets, goes over from
the literal to the pattern.
-/

namespace EcmaSyntax.Grammar

open EcmaSyntax.Diagnostic EcmaSyntax.Text EcmaSyntax.Tree EcmaSyntax.Tree.Node

variable {version : Nat} [Unicode.IdentifierChars version]

variable {c : Conversion} {G : Node → Prop}

/-- What an element of an array becomes, if `R` tells what its expression does. -/
inductive ElementBecomes (R : Expression → Pattern → Prop) : Element → Pattern → Prop where
  | hole : ElementBecomes R .hole .hole
  | item {e : Expression} {p : Pattern} (h : R e p) : ElementBecomes R (.item e) p
  | spread {span : Span} {e : Expression} {p : Pattern} (h : R e p) :
    ElementBecomes R (.spread span e) (.rest ⟨span.start, e.span.stop⟩ p)

/-- What a member of an object becomes, if `R` tells what its expression does. -/
inductive MemberBecomes (R : Expression → Pattern → Prop) : ObjectMember → PatternProperty → Prop
    where
  | property {span : Span} {key value : Expression} {p : Pattern} {shorthand computed : Bool}
    (h : R value p) : MemberBecomes R (.property span key value .init false shorthand computed)
      (.property span key p shorthand computed)
  | spread {span : Span} {e : Expression} {p : Pattern} (h : R e p) :
    MemberBecomes R (.spread span e) (.rest span p)

theorem parenthesizedTarget_ok {e : Expression} {p : Pattern}
    (h : c.parenthesizedTarget e = .ok p) :
    (∃ id, e.withoutParens = .identifier id ∧ c.checkName id = .ok () ∧ p = .identifier id) ∨
      ∃ span object property computed optional,
        e.withoutParens = .member span object property computed optional ∧
          c.use = .assignment ∧ p = .member span object property computed optional := by
  unfold Conversion.parenthesizedTarget at h
  split at h
  · obtain ⟨_, hname, hp⟩ := except_bind_ok h
    cases hp
    exact .inl ⟨_, by assumption, hname, rfl⟩
  · cases h
    exact .inr ⟨_, _, _, _, _, by assumption, by assumption, rfl⟩
  · cases h

theorem checkRest_ok {α : Type} {span : Span} {rest : List α} {u : Unit}
    (h : c.checkRest span rest.isEmpty = .ok u) : rest = [] := by
  unfold Conversion.checkRest at h
  split at h
  · cases h
  · split at h
    · exact List.isEmpty_iff.mp ‹_›
    · cases h

/-- The keys noted go on with that of the next property, which is new if names are unique. -/
theorem noteKey_ok {unique : Bool} {keys found : List String} {key : Expression}
    (h : noteKey unique keys key = .ok found) :
    found = key.staticKey?.toList ++ keys ∧
      (unique = true → ∀ name ∈ key.staticKey?, name ∉ keys) := by
  unfold noteKey at h
  cases hkey : key.staticKey? with
  | none =>
    rw [hkey] at h
    cases h
    exact ⟨rfl, fun _ => nofun⟩
  | some name =>
    rw [hkey] at h
    dsimp only at h
    split at h
    · cases h
    · rename_i hnew
      cases h
      refine ⟨rfl, ?_⟩
      rintro rfl _ ⟨⟩
      simpa using hnew

/-- The first element of an array that becomes a pattern. -/
theorem toPatterns_cons {x : Element} {rest : List Element} {ps : List Pattern}
    (h : toPatterns c (x :: rest) = .ok ps) :
    ∃ q qs, ps = q :: qs ∧ ElementBecomes (fun e p => toPattern c e = .ok p) x q ∧
      ((∃ span e, x = .spread span e) → rest = []) ∧ toPatterns c rest = .ok qs := by
  cases x with
  | hole =>
    obtain ⟨qs, hqs, hp⟩ := except_bind_ok h
    cases hp
    exact ⟨_, _, rfl, .hole, nofun, hqs⟩
  | item e =>
    obtain ⟨q, hq, h⟩ := except_bind_ok h
    obtain ⟨qs, hqs, hp⟩ := except_bind_ok h
    cases hp
    exact ⟨_, _, rfl, .item hq, nofun, hqs⟩
  | spread span e =>
    obtain ⟨_, hlast, h⟩ := except_bind_ok h
    obtain ⟨_, _, h⟩ := except_bind_ok h
    obtain ⟨q, hq, h⟩ := except_bind_ok h
    obtain ⟨qs, hqs, hp⟩ := except_bind_ok h
    cases hp
    exact ⟨_, _, rfl, .spread hq, fun _ => checkRest_ok hlast, hqs⟩

/-- The first member of an object that becomes a pattern, after properties with the names `keys`. -/
theorem toProperties_cons {keys : List String} {m : ObjectMember} {rest : List ObjectMember}
    {ps : List PatternProperty} (h : toProperties c keys (m :: rest) = .ok ps) :
    ∃ q qs, ps = q :: qs ∧ MemberBecomes (fun e p => toPattern c e = .ok p) m q ∧
      (q.isRest = true → rest = []) ∧
      (c.uniqueKeys = true → ∀ name ∈ q.staticKey?, name ∉ keys) ∧
      toProperties c (q.staticKey?.toList ++ keys) rest = .ok qs := by
  cases m with
  | property span key value kind method shorthand computed =>
    by_cases hkind : (method || kind != .init) = true
    · rw [toProperties, if_pos hkind] at h
      cases h
    · rw [toProperties, if_neg hkind] at h
      obtain ⟨rfl, rfl⟩ : method = false ∧ kind = .init := by simpa using hkind
      cases computed with
      | true =>
        obtain ⟨_, hkeys, h⟩ := except_bind_ok h
        cases hkeys
        obtain ⟨q, hq, h⟩ := except_bind_ok h
        obtain ⟨qs, hqs, hp⟩ := except_bind_ok h
        cases hp
        exact ⟨_, _, rfl, .property hq, by rintro ⟨⟩, by rintro - _ ⟨⟩, hqs⟩
      | false =>
        obtain ⟨_, hkeys, h⟩ := except_bind_ok h
        obtain ⟨q, hq, h⟩ := except_bind_ok h
        obtain ⟨qs, hqs, hp⟩ := except_bind_ok h
        cases hp
        obtain ⟨rfl, hnew⟩ := noteKey_ok hkeys
        exact ⟨_, _, rfl, .property hq, by rintro ⟨⟩, hnew, hqs⟩
  | spread span e =>
    obtain ⟨_, hlast, h⟩ := except_bind_ok h
    obtain ⟨q, hq, h⟩ := except_bind_ok h
    have hrest : ∃ qs, toProperties c keys rest = .ok qs ∧ ps = .rest span q :: qs := by
      cases q with
      | identifier | member =>
        obtain ⟨qs, hqs, hp⟩ := except_bind_ok h
        cases hp
        exact ⟨qs, hqs, rfl⟩
      | _ => cases h
    obtain ⟨qs, hqs, rfl⟩ := hrest
    exact ⟨_, _, rfl, .spread hq, fun _ => checkRest_ok hlast, by rintro - _ ⟨⟩, hqs⟩

/-- What holds in each case in which an expression becomes a pattern. -/
structure Conversion.Respects (c : Conversion) (R : Expression → Pattern → Prop) : Prop where
  name : ∀ {e : Expression} {id : Identifier}, e.withoutParens = .identifier id →
    c.checkName id = .ok () → R e (.identifier id)
  member : ∀ {e : Expression} {span : Span} {object property : Expression}
    {computed optional : Bool}, e.withoutParens = .member span object property computed optional →
      c.use = .assignment → R e (.member span object property computed optional)
  array : ∀ {span : Span} {elements : List Element} {ps : List Pattern},
    toPatterns c elements = .ok ps → List.Forall₂ (ElementBecomes R) elements ps →
      R (.array span elements) (.array span ps)
  object : ∀ {span : Span} {members : List ObjectMember} {ps : List PatternProperty},
    toProperties c [] members = .ok ps → List.Forall₂ (MemberBecomes R) members ps →
      R (.object span members) (.object span ps)
  withDefault : ∀ {span : Span} {left : Pattern} {right : Expression},
    checkPattern c left = .ok () →
      R (.assignment span .assign left right) (.withDefault span left right)

section Induction

variable {R : Expression → Pattern → Prop}

theorem parenthesizedTarget_induction (hR : c.Respects R) {e : Expression} {p : Pattern}
    (h : c.parenthesizedTarget e = .ok p) : R e p := by
  obtain ⟨id, he, hid, rfl⟩ | ⟨_, _, _, _, _, he, huse, rfl⟩ := parenthesizedTarget_ok h
  · exact hR.name he hid
  · exact hR.member he huse

mutual

/-- What holds in each of the five cases holds of a literal and the pattern it becomes. -/
theorem toPattern_induction (hR : c.Respects R) (e : Expression) {p : Pattern}
    (h : toPattern c e = .ok p) : R e p := by
  unfold toPattern at h
  split at h
  · exact parenthesizedTarget_induction hR h
  · split at h
    · exact parenthesizedTarget_induction hR h
    · obtain ⟨_, hid, hp⟩ := except_bind_ok h
      cases hp
      exact hR.name (by rw [Expression.withoutParens]; nofun) hid
  · split at h
    · exact parenthesizedTarget_induction hR h
    · split at h
      · rename_i huse
        cases h
        exact hR.member (by rw [Expression.withoutParens]; nofun) (by simpa using huse)
      · cases h
  · split at h
    · exact parenthesizedTarget_induction hR h
    · obtain ⟨ps, hps, hp⟩ := except_bind_ok h
      cases hp
      exact hR.array hps (toPatterns_become hR _ hps)
  · split at h
    · exact parenthesizedTarget_induction hR h
    · obtain ⟨ps, hps, hp⟩ := except_bind_ok h
      cases hp
      exact hR.object hps (toProperties_become hR _ hps)
  · split at h
    · exact parenthesizedTarget_induction hR h
    · split at h
      · rename_i hoperator
        obtain ⟨_, hleft, hp⟩ := except_bind_ok h
        cases hp
        obtain rfl := eq_of_beq hoperator
        exact hR.withDefault hleft
      · cases h
  · cases h
termination_by sizeOf e

theorem toPatterns_become (hR : c.Respects R) (elements : List Element) {ps : List Pattern}
    (h : toPatterns c elements = .ok ps) :
    List.Forall₂ (ElementBecomes R) elements ps := by
  match elements with
  | [] =>
    cases h
    exact .nil
  | .hole :: rest =>
    obtain ⟨q, qs, rfl, hx, -, hqs⟩ := toPatterns_cons h
    cases hx
    exact .cons .hole (toPatterns_become hR rest hqs)
  | .item e :: rest =>
    obtain ⟨q, qs, rfl, hx, -, hqs⟩ := toPatterns_cons h
    cases hx with
    | item hq => exact .cons (.item (toPattern_induction hR e hq)) (toPatterns_become hR rest hqs)
  | .spread span e :: rest =>
    obtain ⟨q, qs, rfl, hx, -, hqs⟩ := toPatterns_cons h
    cases hx with
    | spread hq =>
      exact .cons (.spread (toPattern_induction hR e hq)) (toPatterns_become hR rest hqs)
termination_by sizeOf elements

theorem toProperties_become (hR : c.Respects R) (members : List ObjectMember)
    {keys : List String} {ps : List PatternProperty} (h : toProperties c keys members = .ok ps) :
    List.Forall₂ (MemberBecomes R) members ps := by
  match members with
  | [] =>
    cases h
    exact .nil
  | .property span key value kind method shorthand computed :: rest =>
    obtain ⟨q, qs, rfl, hm, -, -, hqs⟩ := toProperties_cons h
    cases hm with
    | property hq =>
      exact .cons (.property (toPattern_induction hR value hq)) (toProperties_become hR rest hqs)
  | .spread span e :: rest =>
    obtain ⟨q, qs, rfl, hm, -, -, hqs⟩ := toProperties_cons h
    cases hm with
    | spread hq =>
      exact .cons (.spread (toPattern_induction hR e hq)) (toProperties_become hR rest hqs)
termination_by sizeOf members

end

end Induction

/-- The property goes down from plain nodes to what is below them, and from members to targets. -/
class HoldsBelow (G : Node → Prop) : Prop where
  below : ∀ n : Node, n.isPlain = true → G n → ∀ c ∈ n.children, G c
  target : ∀ {span object property computed optional},
    G (.expression (.member span object property computed optional)) →
      G (.pattern (.member span object property computed optional))

/-- The property is that of a pattern if it is that of the literal that it is made of. -/
class Converts (c : Conversion) (G : Node → Prop) [HoldsBelow G] : Prop where
  pattern : ∀ p, (Node.pattern p).isPlain = true → (Node.pattern p).isFree = true →
    (∀ n ∈ (Node.pattern p).children, G n) → G (.pattern p)
  array : ∀ {span : Span} {elements : List Element} {ps : List Pattern},
    toPatterns c elements = .ok ps → (∀ p ∈ ps, G (.pattern p)) → G (.pattern (.array span ps))
  object : ∀ {span : Span} {members : List ObjectMember} {ps : List PatternProperty},
    toProperties c [] members = .ok ps → (∀ p ∈ ps, G (.patternProperty p)) →
      G (.pattern (.object span ps))
  property : ∀ p, (∀ n ∈ (Node.patternProperty p).children, G n) → G (.patternProperty p)

theorem HoldsBelow.every {P : Node → Prop} (hpattern : ∀ p, P (.pattern p)) :
    HoldsBelow (Every P) where
  below _ _ hn _ hc := hn.below hc
  target h := .node (hpattern _) fun _ hn => h.below hn

theorem Converts.of_pattern [HoldsBelow G]
    (hpattern : ∀ p, (Node.pattern p).isPlain = true → (∀ n ∈ (Node.pattern p).children, G n) →
      G (.pattern p))
    (hproperty : ∀ p, (∀ n ∈ (Node.patternProperty p).children, G n) → G (.patternProperty p)) :
    Converts c G where
  pattern p hplain _ hc := hpattern p hplain hc
  array _ hps := hpattern _ rfl (List.forall_mem_map.mpr hps)
  object _ hps := hpattern _ rfl (List.forall_mem_map.mpr hps)
  property := hproperty

/-- What holds of every node of the literal, and of patterns anyway. -/
theorem Converts.every {P : Node → Prop} [HoldsBelow (Every P)] (hpattern : ∀ p, P (.pattern p))
    (hproperty : ∀ p, P (.patternProperty p)) : Converts c (Every P) :=
  .of_pattern (fun p _ hc => .node (hpattern p) hc) fun p hc => .node (hproperty p) hc

section Parts

variable [hS : HoldsBelow G]

theorem withoutParens_allIn {e : Expression} (h : AllIn G e) : AllIn G e.withoutParens := by
  induction e using Expression.withoutParens.induct with
  | case1 span e ih => exact ih ⟨hS.below _ rfl h.all _ List.mem_cons_self⟩
  | case2 e hne =>
    rw [Expression.withoutParens]
    · exact h
    · exact hne

variable [hG : Converts c G]

include hG in
theorem elements_become {elements : List Element} {ps : List Pattern}
    (h : List.Forall₂ (ElementBecomes fun e p => G (.expression e) → G (.pattern p)) elements ps)
    (hall : ∀ x ∈ elements, G (.element x)) : ∀ p ∈ ps, G (.pattern p) := by
  induction h with
  | nil => exact List.forall_mem_nil _
  | cons hx _ ih =>
    obtain ⟨hfirst, hrest⟩ := List.forall_mem_cons.mp hall
    refine List.forall_mem_cons.mpr ⟨?_, ih hrest⟩
    have hbelow := hS.below _ rfl hfirst
    cases hx with
    | hole => exact hG.pattern _ rfl rfl (List.forall_mem_nil _)
    | item hp => exact hp (hbelow _ List.mem_cons_self)
    | spread hp =>
      have hargument := hp (hbelow _ List.mem_cons_self)
      exact hG.pattern _ rfl rfl (List.forall_mem_singleton.mpr hargument)

include hG in
theorem members_become {members : List ObjectMember} {ps : List PatternProperty}
    (h : List.Forall₂ (MemberBecomes fun e p => G (.expression e) → G (.pattern p)) members ps)
    (hall : ∀ m ∈ members, G (.member m)) : ∀ p ∈ ps, G (.patternProperty p) := by
  induction h with
  | nil => exact List.forall_mem_nil _
  | cons hm _ ih =>
    obtain ⟨hfirst, hrest⟩ := List.forall_mem_cons.mp hall
    refine List.forall_mem_cons.mpr ⟨?_, ih hrest⟩
    have hbelow := hS.below _ rfl hfirst
    cases hm with
    | property hp =>
      obtain ⟨hkey, hvalue⟩ := List.forall_mem_cons.mp hbelow
      have htarget := hp (hvalue _ List.mem_cons_self)
      exact hG.property _ (List.forall_mem_cons.mpr ⟨hkey, List.forall_mem_singleton.mpr htarget⟩)
    | spread hp =>
      have hargument := hp (hbelow _ List.mem_cons_self)
      exact hG.property _ (List.forall_mem_singleton.mpr hargument)

theorem respects_of_converts : c.Respects fun e p => G (.expression e) → G (.pattern p) where
  name _ _ _ := hG.pattern _ rfl rfl (List.forall_mem_nil _)
  member he _ hall := by
    have hinner := withoutParens_allIn ⟨hall⟩
    rw [he] at hinner
    exact hS.target hinner.all
  array hps hbecome hall := hG.array hps
    (elements_become (c := c) hbecome fun x hx => hS.below _ rfl hall _ (List.mem_map_of_mem hx))
  object hps hbecome hall := hG.object hps
    (members_become (c := c) hbecome fun m hm => hS.below _ rfl hall _ (List.mem_map_of_mem hm))
  withDefault {span left right} _ hall :=
    hG.pattern _ rfl rfl (hS.below (.expression (.assignment span .assign left right)) rfl hall)

/-- A pattern made of a literal has the expressions of the literal in it. -/
theorem toPattern_allIn (e : Expression) {p : Pattern} (h : toPattern c e = .ok p)
    (he : AllIn G e) : AllIn G p := ⟨toPattern_induction respects_of_converts e h he.all⟩

theorem toPatterns_allIn (elements : List Element) {ps : List Pattern}
    (h : toPatterns c elements = .ok ps) (he : ∀ x ∈ elements, AllIn G x) : AllIn G ps :=
  ⟨elements_become (c := c) (toPatterns_become respects_of_converts elements h) fun x hx =>
    (he x hx).all⟩

theorem toRestPattern_allIn {start : Nat} {e : Expression} {p : Pattern}
    (h : toRestPattern c start e = .ok p) (he : AllIn G e) : AllIn G p := by
  obtain ⟨_, _, h⟩ := except_bind_ok h
  obtain ⟨q, hq, hp⟩ := except_bind_ok h
  cases hp
  have htarget := toPattern_allIn e hq he
  exact ⟨hG.pattern _ rfl rfl (List.forall_mem_singleton.mpr htarget.all)⟩

/-- The items of a group that become parameters. -/
theorem groupParameters_allIn {items : List GroupItem} {ps : List Pattern}
    (h : items.mapM (groupParameter c) = .ok ps)
    (hitems : ∀ item ∈ items, AllIn G item.expression) : AllIn G ps := by
  induction items generalizing ps with
  | nil =>
    cases h
    exact (inferInstance : AllIn G ([] : List Pattern))
  | cons item rest ih =>
    rw [List.mapM_cons] at h
    obtain ⟨q, hq, h⟩ := except_bind_ok h
    obtain ⟨qs, hqs, hp⟩ := except_bind_ok h
    cases hp
    rw [List.forall_mem_cons] at hitems
    have hrest := ih hqs hitems.2
    have htarget : AllIn G q := by
      unfold groupParameter at hq
      split at hq
      · exact toRestPattern_allIn hq hitems.1
      · exact toPattern_allIn _ hq hitems.1
    infer_instance

instance {e : Expression} [he : AllIn G e] : Makes G (ofExcept (toPattern c e)) :=
  .ofExcept fun _ hok => toPattern_allIn e hok he

instance {elements : List Element} [h : AllIn G elements] :
    Makes G (ofExcept (toPatterns c elements)) :=
  .ofExcept fun _ hok => toPatterns_allIn elements hok fun x hx => ⟨h.all x hx⟩

instance {items : List GroupItem} [h : AllIn G items] :
    Makes G (ofExcept (items.mapM (groupParameter c))) :=
  .ofExcept fun _ hok => groupParameters_allIn hok fun item hitem => ⟨h.all item hitem⟩

end Parts

end EcmaSyntax.Grammar
