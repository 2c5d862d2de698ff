import EcmaSyntax.Proofs.Grammar.Conversion
import EcmaSyntax.Unicode.IdentifierRanges
import EcmaSyntax.Proofs.Grammar.Makes
import EcmaSyntax.Proofs.Progress.Loops

/-!
What is known of a literal that was turned into a pattern, and of binding patterns. The targets of
the one are allowed, nothing comes after a rest element, names of properties differ if they are to,
and the pattern stands for the literal.

Binding patterns are put together as they should be: a rest element ends the list that it stands in,
and the key of a property is looked up among those before it. All other nodes are made of any parts,
so phrases keep what is known of the phrases in them.
-/

set_option synthInstance.maxSize 4000

namespace EcmaSyntax.Grammar

open EcmaSyntax.Diagnostic EcmaSyntax.Text EcmaSyntax.Tree EcmaSyntax.Tree.Node EcmaSyntax.Scope

section Converted

variable {version : Nat} [Unicode.IdentifierChars version]

variable {c : Conversion}

section Shape

theorem toPattern_isRest {e : Expression} {p : Pattern} (h : toPattern c e = .ok p) :
    p.isRest = false := by
  have hcases : c.Respects fun _ p => p.isRest = false :=
    { name := fun _ _ => rfl
      member := fun _ _ => rfl
      array := fun _ _ => rfl
      object := fun _ _ => rfl
      withDefault := fun _ => rfl }
  exact toPattern_induction hcases e h

theorem toPatterns_restsLast {elements : List Element} {ps : List Pattern}
    (h : toPatterns c elements = .ok ps) : ps.Pairwise fun p _ => p.isRest = false := by
  induction elements generalizing ps with
  | nil =>
    cases h
    exact .nil
  | cons x rest ih =>
    obtain ⟨q, qs, rfl, hx, hlast, hqs⟩ := toPatterns_cons h
    refine .cons (fun p hp => ?_) (ih hqs)
    cases hx with
    | hole => rfl
    | item hq => exact toPattern_isRest hq
    | spread hq =>
      obtain rfl := hlast ⟨_, _, rfl⟩
      cases hqs
      cases hp

theorem toProperties_restsLast {keys : List String} {members : List ObjectMember}
    {ps : List PatternProperty} (h : toProperties c keys members = .ok ps) :
    ps.Pairwise fun q _ => q.isRest = false := by
  induction members generalizing keys ps with
  | nil =>
    cases h
    exact .nil
  | cons m rest ih =>
    obtain ⟨q, qs, rfl, -, hlast, -, hqs⟩ := toProperties_cons h
    refine .cons (fun p hp => Bool.eq_false_iff.mpr fun hrest => ?_) (ih hqs)
    obtain rfl := hlast hrest
    cases hqs
    cases hp

/-- Names of properties differ from each other and from the names before. -/
theorem toProperties_keysDiffer (hunique : c.uniqueKeys = true) {keys : List String}
    {members : List ObjectMember} {ps : List PatternProperty}
    (h : toProperties c keys members = .ok ps) :
    (ps.filterMap PatternProperty.staticKey?).Nodup ∧
      (ps.filterMap PatternProperty.staticKey?).Disjoint keys := by
  induction members generalizing keys ps with
  | nil =>
    cases h
    exact ⟨.nil, List.disjoint_nil_left keys⟩
  | cons m rest ih =>
    obtain ⟨q, qs, rfl, -, -, hnew, hqs⟩ := toProperties_cons h
    obtain ⟨hnodup, hdisjoint⟩ := ih hqs
    cases hkey : q.staticKey? with
    | none =>
      rw [hkey] at hdisjoint
      rw [List.filterMap_cons_none hkey]
      exact ⟨hnodup, hdisjoint⟩
    | some name =>
      rw [hkey] at hdisjoint
      rw [List.filterMap_cons_some hkey, List.nodup_cons, List.disjoint_cons_left]
      obtain ⟨hname, hrest⟩ := List.disjoint_cons_right.mp hdisjoint
      exact ⟨⟨hname, hnodup⟩, hnew hunique name hkey, hrest⟩

variable {unique : Bool}

instance : HoldsBelow (Tidy unique) where
  below _ _ hn _ hc := hn.below hc
  target h := .node (.free rfl) fun _ hn => h.below hn

/-- Patterns that literals become are put together as they should be if those in them are. -/
theorem converts_tidy (hunique : unique = true → c.uniqueKeys = true) :
    Converts c (Tidy unique) where
  pattern _ _ hfree hc := .node (.free hfree) hc
  array hps hall := .list ⟨toPatterns_restsLast hps, fun _ => trivial⟩ hall rfl
  object hps hall :=
    .list ⟨toProperties_restsLast hps, fun hu => (toProperties_keysDiffer (hunique hu) hps).1⟩ hall
      rfl
  property _ hc := .node (.free rfl) hc

end Shape

section Targets

/-- The target is one that the conversion allows. -/
def Conversion.Admits (c : Conversion) : Pattern → Prop
  | .identifier id => c.checkName id = .ok ()
  | p => p.isMember = true → c.use = .assignment

mutual

theorem checkPattern_admits (p : Pattern) (h : checkPattern c p = .ok ()) :
    ∀ t ∈ p.targets, c.Admits t := by
  match p with
  | .identifier id => exact List.forall_mem_singleton.mpr h
  | .member span _ _ _ _ =>
    refine List.forall_mem_singleton.mpr fun _ => ?_
    unfold checkPattern at h
    split at h
    · assumption
    · cases h
  | .array _ elements => exact checkPatterns_admits elements h
  | .object _ properties => exact checkPatternProperties_admits properties h
  | .rest _ argument => exact checkPattern_admits argument h
  | .withDefault _ left _ => exact checkPattern_admits left h
  | .hole => exact List.forall_mem_nil _

theorem checkPatterns_admits (ps : List Pattern) (h : checkPatterns c ps = .ok ()) :
    ∀ t ∈ targetsOfPatterns ps, c.Admits t := by
  match ps with
  | [] => exact List.forall_mem_nil _
  | p :: rest =>
    obtain ⟨_, hp, hrest⟩ := except_bind_ok h
    exact List.forall_mem_append.mpr ⟨checkPattern_admits p hp, checkPatterns_admits rest hrest⟩

theorem checkPatternProperties_admits (ps : List PatternProperty)
    (h : checkPatternProperties c ps = .ok ()) : ∀ t ∈ targetsOfProperties ps, c.Admits t := by
  match ps with
  | [] => exact List.forall_mem_nil _
  | .property _ _ value _ _ :: rest | .rest _ value :: rest =>
    obtain ⟨_, hp, hrest⟩ := except_bind_ok h
    exact List.forall_mem_append.mpr
      ⟨checkPattern_admits value hp, checkPatternProperties_admits rest hrest⟩

end

theorem targetsOfPatterns_admitted {elements : List Element} {ps : List Pattern}
    (h : List.Forall₂ (ElementBecomes fun _ p => ∀ t ∈ p.targets, c.Admits t) elements ps) :
    ∀ t ∈ targetsOfPatterns ps, c.Admits t := by
  induction h with
  | nil => exact List.forall_mem_nil _
  | cons hx _ ih =>
    refine List.forall_mem_append.mpr ⟨?_, ih⟩
    cases hx with
    | hole => exact List.forall_mem_nil _
    | item hp => exact hp
    | spread hp => exact hp

theorem targetsOfProperties_admitted {members : List ObjectMember} {ps : List PatternProperty}
    (h : List.Forall₂ (MemberBecomes fun _ p => ∀ t ∈ p.targets, c.Admits t) members ps) :
    ∀ t ∈ targetsOfProperties ps, c.Admits t := by
  induction h with
  | nil => exact List.forall_mem_nil _
  | cons hm _ ih => cases hm with
    | property hp => exact List.forall_mem_append.mpr ⟨hp, ih⟩
    | spread hp => exact List.forall_mem_append.mpr ⟨hp, ih⟩

/-- Every target of a pattern that a literal becomes is allowed, be it new or of an earlier
pattern. -/
theorem toPattern_admits {e : Expression} {p : Pattern} (h : toPattern c e = .ok p) :
    ∀ t ∈ p.targets, c.Admits t := by
  have hcases : c.Respects fun _ p => ∀ t ∈ p.targets, c.Admits t :=
    { name := fun _ hid => List.forall_mem_singleton.mpr hid
      member := fun _ huse => List.forall_mem_singleton.mpr fun _ => huse
      array := fun _ hps => targetsOfPatterns_admitted hps
      object := fun _ hps => targetsOfProperties_admitted hps
      withDefault := fun hleft => checkPattern_admits _ hleft }
  exact toPattern_induction hcases e h

end Targets

section Inverse

/-- The pattern stands for the expression, but for spans and for parentheses around targets. -/
def Relabels (e : Expression) (p : Pattern) : Prop :=
  ∃ e', p.toExpression? = some e' ∧ e'.withoutSpans = e.bareTargets.withoutSpans

theorem Relabels.toElement {e : Expression} {p : Pattern} (h : Relabels e p) :
    ∃ e', p.toElement? = some (.item e') ∧ e'.withoutSpans = e.bareTargets.withoutSpans := by
  obtain ⟨e', hp, he'⟩ := h
  unfold Pattern.toExpression? at hp
  split at hp
  · cases hp
    exact ⟨e', by assumption, he'⟩
  · cases hp

theorem toElements_relabel {elements : List Element} {ps : List Pattern}
    (h : List.Forall₂ (ElementBecomes Relabels) elements ps) :
    ∃ found, toElements? ps = some found ∧
      elementsWithoutSpans found = elementsWithoutSpans (elementsWithBareTargets elements) := by
  induction h with
  | nil => exact ⟨[], rfl, rfl⟩
  | cons hx _ ih =>
    obtain ⟨others, hothers, heq⟩ := ih
    cases hx with
    | hole =>
      refine ⟨.hole :: others, by simp only [toElements?, Pattern.toElement?, hothers], ?_⟩
      exact congrArg (List.cons Element.hole) heq
    | item hp =>
      obtain ⟨e', he', hsame⟩ := hp.toElement
      refine ⟨.item e' :: others, by simp only [toElements?, he', hothers], ?_⟩
      exact congrArg₂ (fun e rest => Element.item e :: rest) hsame heq
    | @spread span e p hp =>
      obtain ⟨e', he', hsame⟩ := hp.toElement
      refine ⟨.spread ⟨span.start, e.span.stop⟩ e' :: others,
        by simp only [toElements?, Pattern.toElement?, he', hothers], ?_⟩
      exact congrArg₂ (fun e rest => Element.spread noSpan e :: rest) hsame heq

theorem toMembers_relabel {members : List ObjectMember} {ps : List PatternProperty}
    (h : List.Forall₂ (MemberBecomes Relabels) members ps) :
    ∃ found, toMembers? ps = some found ∧
      membersWithoutSpans found = membersWithoutSpans (membersWithBareTargets members) := by
  induction h with
  | nil => exact ⟨[], rfl, rfl⟩
  | cons hm _ ih =>
    obtain ⟨others, hothers, heq⟩ := ih
    cases hm with
    | @property span key value p shorthand computed hp =>
      obtain ⟨e', he', hsame⟩ := hp.toElement
      refine ⟨.property span key e' .init false shorthand computed :: others,
        by simp only [toMembers?, he', hothers], ?_⟩
      exact congrArg₂ (fun e rest => ObjectMember.property noSpan key.withoutSpans e .init false
        shorthand computed :: rest) hsame heq
    | @spread span e p hp =>
      obtain ⟨e', he', hsame⟩ := hp.toElement
      refine ⟨.spread span e' :: others, by simp only [toMembers?, he', hothers], ?_⟩
      exact congrArg₂ (fun e rest => ObjectMember.spread noSpan e :: rest) hsame heq

/-- A target in parentheses is the target. -/
theorem bareTargets_of_isTarget {e : Expression} (h : e.withoutParens.isTarget = true) :
    e.bareTargets = e.withoutParens := by
  cases e with
  | parenthesized span inner =>
    rw [Expression.withoutParens] at h ⊢
    rw [Expression.bareTargets, if_pos h]
  | _ => first | rfl | cases h

/-- A pattern that a literal becomes stands for the literal. -/
theorem toPattern_relabels {e : Expression} {p : Pattern} (h : toPattern c e = .ok p) :
    ∃ e', p.toExpression? = some e' ∧ e'.withoutSpans = e.bareTargets.withoutSpans := by
  have hcases : c.Respects Relabels :=
    { name := fun {e id} he _ => by
        refine ⟨.identifier id, rfl, ?_⟩
        rw [bareTargets_of_isTarget (he ▸ rfl), he]
      member := fun {e span object property computed optional} he _ => by
        refine ⟨.member span object property computed optional, rfl, ?_⟩
        rw [bareTargets_of_isTarget (he ▸ rfl), he]
      array := fun {span elements ps} _ hps => by
        obtain ⟨found, hfound, heq⟩ := toElements_relabel hps
        refine ⟨.array span found, by rw [Pattern.toExpression?, Pattern.toElement?, hfound]; rfl,
          ?_⟩
        exact congrArg (Expression.array noSpan) heq
      object := fun {span members ps} _ hps => by
        obtain ⟨found, hfound, heq⟩ := toMembers_relabel hps
        refine ⟨.object span found, by rw [Pattern.toExpression?, Pattern.toElement?, hfound]; rfl,
          ?_⟩
        exact congrArg (Expression.object noSpan) heq
      withDefault := fun {span left right} _ => ⟨.assignment span .assign left right, rfl, rfl⟩ }
  exact toPattern_induction hcases e h

end Inverse

end Converted

/-- A list with a hole, an object in parentheses that has a default, and a rest element. -/
theorem toPattern_relabels_list :
    let e : Expression := .array ⟨0, 24⟩ [.item (.parenthesized ⟨1, 4⟩ (.identifier ⟨⟨2, 3⟩, "a"⟩)),
      .hole, .item (.object ⟨7, 16⟩ [.property ⟨8, 12⟩ (.identifier ⟨⟨8, 9⟩, "b"⟩)
        (.assignment ⟨8, 12⟩ .assign (.identifier ⟨⟨8, 9⟩, "b"⟩) (.identifier ⟨⟨11, 12⟩, "c"⟩))
          .init false true false]), .spread ⟨18, 22⟩ (.identifier ⟨⟨21, 22⟩, "d"⟩)]
    ∃ p e', toPattern ⟨.assignment, Context.none, true, [], []⟩ e = .ok p ∧
      p.toExpression? = some e' ∧ e'.withoutSpans = e.bareTargets.withoutSpans := by
  intro e
  have hp : ∃ p, toPattern ⟨.assignment, Context.none, true, [], []⟩ e = .ok p := ⟨_, rfl⟩
  obtain ⟨p, hp⟩ := hp
  obtain ⟨e', he', hsame⟩ := toPattern_relabels hp
  exact ⟨p, e', hp, he', hsame⟩

section Bindings

variable {version : Nat} [Unicode.IdentifierChars version]

variable {α : Type} {unique : Bool}

instance : Needs (Tidy unique) (Tidy unique) := ⟨⟩

instance {n : Node} [h : IsTrue n.isFree] [hc : AllIn (Tidy unique) n.children] :
    Over (Tidy unique) n := ⟨.node (.free h.out) hc.all⟩

/-- Phrases make nodes in which patterns are put together as they should be. -/
class Phrases.Tidies (unique : outParam Bool) (g : Phrases) : Prop where
  uniqueKeys : g.options.uniqueKeysInPatterns = unique
  assignmentCover : ∀ ctx, Makes (Tidy unique) (g.assignmentCover ctx)
  unary : ∀ ctx, Makes (Tidy unique) (g.unary ctx)
  binary : ∀ ctx start left minimum, AllIn (Tidy unique) left →
    Makes (Tidy unique) (g.binary ctx start left minimum)
  newCall : ∀ ctx, Makes (Tidy unique) (g.newCall ctx)
  leftHandSide : ∀ ctx, Makes (Tidy unique) (g.leftHandSide ctx)
  markup : ∀ ctx exit, Makes (Tidy unique) (g.markup ctx exit)
  bindingTarget : ∀ ctx kind, Returns (fun p => AllIn (Tidy unique) p ∧ p.isRest = false)
    (g.bindingTarget ctx kind)
  statement : ∀ ctx position, Makes (Tidy unique) (g.statement ctx position)
  listItem : ∀ ctx, Makes (Tidy unique) (g.listItem ctx)

variable {g : Phrases} [hg : g.Tidies unique] {ctx : Context} {kind : BindingKind}

section Phrases

instance : Makes (Tidy unique) (g.assignmentCover ctx) := hg.assignmentCover ctx
instance : Makes (Tidy unique) (g.unary ctx) := hg.unary ctx
instance {start minimum : Nat} {left : Expression} [h : AllIn (Tidy unique) left] :
    Makes (Tidy unique) (g.binary ctx start left minimum) := hg.binary ctx start left minimum h
instance : Makes (Tidy unique) (g.newCall ctx) := hg.newCall ctx
instance : Makes (Tidy unique) (g.leftHandSide ctx) := hg.leftHandSide ctx
instance {exit : MarkupExit} : Makes (Tidy unique) (g.markup ctx exit) := hg.markup ctx exit
instance : Makes (Tidy unique) (g.bindingTarget ctx kind) :=
  ⟨(hg.bindingTarget ctx kind).mono fun _ hp => hp.1⟩
instance {position : Position} : Makes (Tidy unique) (g.statement ctx position) :=
  hg.statement ctx position
instance : Makes (Tidy unique) (g.listItem ctx) := hg.listItem ctx

instance : Makes (Tidy unique) (g.assignment ctx) := by
  unfold Phrases.assignment; infer_instance

instance : Makes (Tidy unique) (g.covered ctx) := by
  unfold Phrases.covered; infer_instance

instance {start : Nat} {first : Expression} [AllIn (Tidy unique) first] :
    Makes (Tidy unique) (g.sequenceAfter ctx start first) := by
  unfold Phrases.sequenceAfter; infer_instance

instance : Makes (Tidy unique) (g.expression ctx) := by
  unfold Phrases.expression; infer_instance

end Phrases

section Literals

instance {tagged : Bool} : Makes (Tidy unique) (template g ctx tagged) := by
  unfold template; infer_instance

instance {allowPrivate : Bool} : Makes (Tidy unique) (propertyKey g ctx allowPrivate) := by
  unfold propertyKey
  refine .skip fun token => ?_
  split <;> infer_instance

instance : Makes (Tidy unique) memberName := by unfold memberName; infer_instance

instance {start : Nat} {isSpread : Bool} {e : Expression} [AllIn (Tidy unique) e] :
    Makes (Tidy unique) (elementFrom start isSpread e) := by
  unfold elementFrom; infer_instance

instance : Makes (Tidy unique) (coveredArguments g ctx) := by
  unfold coveredArguments; infer_instance

instance : Makes (Tidy unique) (arguments g ctx) := by unfold arguments; infer_instance

end Literals

section Loops

omit hg in
/-- The items of a loop, newest first, have at the end what the last round leaves. -/
theorem collect_until (round : List α → Parser (Round α)) {I Q : List α → Prop}
    (hround : ∀ earlier, I earlier → Returns (fun r =>
      match r with
      | .stop => Q earlier
      | .last item => Q (item :: earlier)
      | .more item => I (item :: earlier)) (round earlier)) (hnil : I []) :
    Returns (fun items => Q items.reverse) (g.collect round) := by
  intro s _
  refine (Yields.collectAfter_until (I := fun items _ => I items) (Q := fun items _ => Q items)
    (fun earlier s h => ?_) g.size [] s hnil).mono fun items _ h => ⟨trivial, h⟩
  refine (hround earlier h s trivial).mono fun r s' hr => ?_
  cases r <;> exact hr.2

end Loops

section Bindings

include hg in
theorem returns_bindingElement :
    Returns (fun p => p.isRest = false) (bindingElement g ctx kind) := by
  unfold bindingElement
  refine .skip fun start => Preserves.bind (hg.bindingTarget ctx kind) fun target htarget => ?_
  refine .skip fun hasInit => ?_
  split
  · exact .skip fun right => .skip fun span => .pure rfl
  · exact .pure htarget.2

instance : Makes (Tidy unique) (bindingElement g ctx kind) := by
  unfold bindingElement; infer_instance

instance {close : Token} : Makes (Tidy unique) (bindingRest g ctx kind close) := by
  unfold bindingRest
  refine .skip fun start => .skip fun _ => ?_
  infer_instance

instance {earlier : List Pattern} :
    Makes (Tidy unique) (Round.arrayBinding g ctx kind earlier) := by
  refine .skip fun token => ?_
  split <;> infer_instance

include hg in
/-- A rest element ends the elements of an array pattern. -/
theorem returns_arrayElements : Returns (fun ps => ps.Pairwise fun p _ => p.isRest = false)
    (g.collect (Round.arrayBinding g ctx kind)) := by
  have hitems := collect_until (g := g) (Round.arrayBinding g ctx kind)
    (I := fun earlier => ∀ p ∈ earlier, p.isRest = false)
    (Q := fun items => items.Pairwise fun _ p => p.isRest = false) (fun earlier hearlier => ?_)
    (List.forall_mem_nil _)
  · exact hitems.mono fun ps hps => List.pairwise_reverse.mp hps
  · have hall : earlier.Pairwise fun _ p => p.isRest = false :=
      List.pairwise_of_forall_mem_list fun _ _ p hp => hearlier p hp
    refine .skip fun token => ?_
    split
    · exact .pure hall
    · exact .skip fun _ => .pure (List.forall_mem_cons.mpr ⟨rfl, hearlier⟩)
    · exact .skip fun rest => .pure (.cons hearlier hall)
    · refine Preserves.bind returns_bindingElement fun p hp => .skip fun _ => .pure ?_
      exact List.forall_mem_cons.mpr ⟨hp, hearlier⟩

instance : Makes (Tidy unique) (arrayBinding g ctx kind) := by
  refine ⟨.skip fun start => .skip fun _ => ?_⟩
  have hitems : Makes (Tidy unique) (g.collect (Round.arrayBinding g ctx kind)) := inferInstance
  refine Preserves.bind (hitems.makes.and returns_arrayElements) fun ps hps => ?_
  refine .skip fun _ => .skip fun span => .pure ⟨?_⟩
  exact .list ⟨hps.2, fun _ => trivial⟩ hps.1.all rfl

instance {start : Nat} {id : Identifier} :
    Makes (Tidy unique) (shorthandBinding g ctx kind start id) := by
  unfold shorthandBinding; infer_instance

instance {keys : List String} : Makes (Tidy unique) (propertyBinding g ctx kind keys) := by
  unfold propertyBinding; infer_instance

instance {earlier : List (PatternProperty × List String)} :
    Makes (Tidy unique) (Round.objectBinding g ctx kind earlier) := by
  refine .skip fun token => ?_
  split <;> infer_instance

end Bindings

section Keys

/-- The property is noted after the names `keys`, which do not have its key if they are to
differ. -/
structure Noted (unique : Bool) (before : List String) (found : PatternProperty × List String) :
    Prop where
  isRest : found.1.isRest = false
  keys : found.2 = found.1.staticKey?.toList ++ before
  isNew : unique = true → ∀ name ∈ found.1.staticKey?, name ∉ before

/-- The keys of properties, newest first. -/
def staticKeys (earlier : List (PatternProperty × List String)) : List String :=
  earlier.filterMap fun found => found.1.staticKey?

theorem staticKeys_cons (found : PatternProperty × List String)
    (earlier : List (PatternProperty × List String)) :
    staticKeys (found :: earlier) = found.1.staticKey?.toList ++ staticKeys earlier := by
  unfold staticKeys
  rw [List.filterMap_cons]
  cases found.1.staticKey? <;> rfl

/-- What is known of the properties of an object pattern so far, newest first. -/
structure Listing (unique : Bool) (earlier : List (PatternProperty × List String)) : Prop where
  isRest : ∀ found ∈ earlier, found.1.isRest = false
  keys : (earlier.head?.map Prod.snd).getD [] = staticKeys earlier
  nodup : unique = true → (staticKeys earlier).Nodup

theorem Listing.cons {earlier : List (PatternProperty × List String)}
    (h : Listing unique earlier) {found : PatternProperty × List String}
    (hfound : Noted unique ((earlier.head?.map Prod.snd).getD []) found) :
    Listing unique (found :: earlier) := by
  rw [h.keys] at hfound
  refine ⟨List.forall_mem_cons.mpr ⟨hfound.isRest, h.isRest⟩, ?_, fun hu => ?_⟩
  · rw [staticKeys_cons]
    exact hfound.keys
  · rw [staticKeys_cons, List.nodup_append]
    refine ⟨?_, h.nodup hu, fun name hname other hother => ?_⟩
    · cases found.1.staticKey? with
      | none => exact .nil
      | some name => exact List.pairwise_singleton _ name
    · rintro rfl
      exact hfound.isNew hu name (Option.mem_toList.mp hname) hother

theorem returns_propertyBinding (before : List String) :
    Returns (Noted unique before) (propertyBinding g ctx kind before) := by
  unfold propertyBinding
  refine .skip fun start => .skip fun token => .skip fun escaped => .skip fun (key, computed) => ?_
  dsimp -zeta only
  extract_lets rest
  have hrest : ∀ keys, (∀ span value shorthand,
      Noted unique before (.property span key value shorthand computed, keys)) →
      Returns (Noted unique before) (rest keys) := by
    refine fun keys hkeys => .skip fun hasValue => ?_
    split
    · exact .skip fun value => .skip fun span => .pure (hkeys _ _ _)
    · exact .skip fun id => .skip fun value => .skip fun span => .pure (hkeys _ _ _)
  clear_value rest
  cases computed with
  | true => exact hrest before fun _ _ _ => ⟨rfl, rfl, fun _ => nofun⟩
  | false =>
    refine Preserves.bind (preserves_ofExcept _) fun keys hok => hrest keys fun _ _ _ => ?_
    obtain ⟨hkeys, hnew⟩ := noteKey_ok hok
    exact ⟨rfl, hkeys, fun hu => hnew (hg.uniqueKeys.trans hu)⟩

/-- A rest element ends the properties of an object pattern, and keys differ if they are to. -/
theorem returns_objectProperties : Returns (fun found => ∀ span,
    (Node.pattern (.object span (found.map Prod.fst))).PatternFits unique)
    (g.collect (Round.objectBinding g ctx kind)) := by
  have hitems := collect_until (g := g) (Round.objectBinding g ctx kind)
    (I := Listing unique)
    (Q := fun items => items.Pairwise (fun _ found => found.1.isRest = false) ∧
      (unique = true → (staticKeys items).Nodup)) (fun earlier hearlier => ?_)
    ⟨List.forall_mem_nil _, rfl, fun _ => .nil⟩
  · refine hitems.mono fun found hfound span => ⟨?_, fun hu => ?_⟩
    · exact List.pairwise_map.mpr (List.pairwise_reverse.mp hfound.1)
    · have hkeys := hfound.2 hu
      rw [staticKeys, List.filterMap_reverse, (List.reverse_perm _).nodup_iff] at hkeys
      rwa [Node.KeysDiffer, List.filterMap_map]
  · have hall : earlier.Pairwise fun _ found => found.1.isRest = false :=
      List.pairwise_of_forall_mem_list fun _ _ found hfound => hearlier.isRest found hfound
    refine .skip fun token => ?_
    split
    · exact .pure ⟨hall, hearlier.nodup⟩
    · refine .skip fun (span, argument) => .pure ⟨.cons hearlier.isRest hall, fun hu => ?_⟩
      rw [staticKeys_cons]
      exact hearlier.nodup hu
    · refine Preserves.bind (returns_propertyBinding _) fun found hfound => ?_
      exact .skip fun _ => .pure (hearlier.cons hfound)

instance : Makes (Tidy unique) (objectBinding g ctx kind) := by
  refine ⟨.skip fun start => .skip fun _ => ?_⟩
  have hitems : Makes (Tidy unique) (g.collect (Round.objectBinding g ctx kind)) := inferInstance
  refine Preserves.bind (hitems.makes.and returns_objectProperties) fun found hfound => ?_
  refine .skip fun _ => .skip fun span => .pure ⟨?_⟩
  exact .list (hfound.2 span) (List.forall_mem_map.mpr fun q hq => (hfound.1.all q hq).1) rfl

omit hg in
theorem returns_bindingTarget : Returns (fun p => p.isRest = false) (bindingTarget g ctx kind) := by
  unfold bindingTarget nested
  refine .skip fun _ => Preserves.bind (.skip fun token => ?_) fun p hp => .skip fun _ => .pure hp
  split
  · exact .skip fun _ => .skip fun _ => .skip fun _ => .skip fun _ => .skip fun _ => .pure rfl
  · exact .skip fun _ => .skip fun _ => .skip fun _ => .skip fun _ => .skip fun _ => .pure rfl
  · exact .skip fun id => .pure rfl

instance : Makes (Tidy unique) (bindingTarget g ctx kind) := by
  unfold bindingTarget
  refine Makes.nested (.skip fun token => ?_)
  split <;> infer_instance

end Keys

section Functions

instance : Makes (Tidy unique) (directive g ctx) := by
  unfold directive
  refine .skip fun s => (hg.listItem ctx).bind fun statement hstatement => ?_
  split
  · split <;> infer_instance
  · infer_instance

instance {simpleParams : Bool} : Makes (Tidy unique) (prologue g ctx simpleParams) := by
  unfold prologue
  infer_instance

instance {simpleParams : Bool} {close : Token} :
    Makes (Tidy unique) (bodyStatements g ctx simpleParams close) := by
  unfold bodyStatements; infer_instance

instance : Makes (Tidy unique) (formalParameters g ctx) := by
  have : ∀ earlier, Makes (Tidy unique) (Round.parameter g ctx earlier) := fun earlier => by
    refine .skip fun token => ?_
    split <;> infer_instance
  unfold formalParameters
  infer_instance

instance {shape : FunctionShape} {name : Option Identifier} :
    Makes (Tidy unique) (functionParts g ctx shape name) := by
  unfold functionParts
  infer_instance

instance {isAsync nameRequired : Bool} :
    Makes (Tidy unique) (functionDeclaration g ctx isAsync nameRequired) := by
  unfold functionDeclaration
  infer_instance

instance {start : Nat} {isAsync : Bool} :
    Makes (Tidy unique) (functionExpression g ctx start isAsync) := by
  unfold functionExpression
  infer_instance

instance {isAsync generator : Bool} {shape : FunctionShape} :
    Makes (Tidy unique) (methodFunction g ctx isAsync generator shape) := by
  unfold methodFunction
  infer_instance

end Functions

end Bindings

end EcmaSyntax.Grammar
