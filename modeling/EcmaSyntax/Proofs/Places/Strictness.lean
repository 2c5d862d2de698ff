import EcmaSyntax.Proofs.Jumps.Program
import EcmaSyntax.Proofs.Places.Program
import EcmaSyntax.Unicode.IdentifierRanges

/-!
What strict code of a program refuses. A jump in strict code has the label of a statement
around it, which is strict too, so its name is not reserved. A target at which nothing looks
is that of a shorthand property with an initializer, in an object that stays one; there is
none unless a `new` with arguments is applied to a literal that is not plain.
-/

namespace EcmaSyntax.Tree

namespace Program

variable {p : Program} {impliedStrict : Bool} {place : Place} {n : Node}

theorem Places.last (h : p.Places impliedStrict place n) :
    (∃ x ∈ p.body, n = .statement x) ∨
      ∃ outer m, p.Places impliedStrict outer m ∧ Node.Holds (outer, m) (place, n) := by
  obtain ⟨x, hx, hpath⟩ := h
  rcases Relation.ReflTransGen.cases_tail hpath with heq | ⟨⟨outer, m⟩, hpath, hlast⟩
  · exact .inl ⟨x, hx, congrArg Prod.snd heq⟩
  · exact .inr ⟨outer, m, ⟨x, hx, hpath⟩, hlast⟩

theorem Places.contains (h : p.Places impliedStrict place n) : p.Contains n :=
  contains_iff_places.mpr ⟨place, h⟩

end Program

section Labels

/-- Every part of a statement stands where the statement does. -/
theorem Node.strict_parts {n : Node} (hn : n.isStatement = true) {place : Place}
    {part : Place × Node} (h : part ∈ n.parts place) : part.1.strict = place.strict := by
  have hparts : n.parts place = n.children.map fun c => (place.as .value, c) := by
    cases n with
    | statement | switchCase | catchClause => rfl
    | _ => cases hn
  rw [hparts] at h
  obtain ⟨c, -, rfl⟩ := List.mem_map.mp h
  rfl

/-- The labels around a statement in strict code are not reserved. -/
def LabelsFit (place : Place) (steps : List Step) (n : Node) : Prop :=
  n.isStatement = true → place.strict = true →
    ∀ step ∈ steps, ∀ name isLoop, step.label? = some (name, isLoop) → IsUnreserved name

/-- A step down goes into a statement only from a statement whose label fits, or begins anew. -/
theorem LabelsFit.step {outer : Place} {steps : List Step} {m : Node} {inner : Place × Node}
    (h : LabelsFit outer steps m) (hfits : StrictFits outer m)
    (hinner : Node.Holds (outer, m) inner) :
    ∃ steps', Node.Descends (steps, m) (steps', inner.2) ∧ LabelsFit inner.1 steps' inner.2 := by
  have hchild : inner.2 ∈ m.children := by
    rw [← Node.map_snd_parts outer]
    exact List.mem_map_of_mem hinner
  rcases Node.mem_children.mp hchild with hopen | hclosed
  · refine ⟨_, .inside hopen, fun hstatement hstrict => ?_⟩
    have hm : m.isStatement = true := by
      cases hm : m.isStatement with
      | true => rfl
      | false => rwa [Node.isStatement_openParts hm hopen] at hstatement
    rw [Node.strict_parts hm hinner] at hstrict
    refine List.forall_mem_cons.mpr ⟨fun name isLoop hlabel => ?_, h hm hstrict⟩
    unfold Step.label? at hlabel
    split at hlabel
    · rename_i heq
      cases heq
      cases hlabel
      exact hfits hstrict
    · cases hlabel
  · exact ⟨[], .beyond hclosed, fun _ _ => nofun⟩

theorem exists_descends {start inner : Place × Node} (hfits : ∀ place n,
      Relation.ReflTransGen Node.Holds start (place, n) → StrictFits place n)
    (h : Relation.ReflTransGen Node.Holds start inner) :
    ∃ steps, Relation.ReflTransGen Node.Descends ([], start.2) (steps, inner.2) ∧
      LabelsFit inner.1 steps inner.2 := by
  induction h with
  | refl => exact ⟨[], .refl, fun _ _ => nofun⟩
  | tail hpath hlast ih =>
    obtain ⟨steps, hdescends, hlabels⟩ := ih
    obtain ⟨steps', hstep, hlabels'⟩ := hlabels.step (hfits _ _ hpath) hlast
    exact ⟨steps', hdescends.tail hstep, hlabels'⟩

/-- A jump leads to a label that fits. -/
theorem LabelsFit.jump {place : Place} {steps : List Step} {n : Node}
    (h : LabelsFit place steps n) (hjump : JumpFits steps n) : JumpLabelFits place n := by
  unfold JumpLabelFits
  split
  · obtain ⟨step, hstep, isLoop, hlabel⟩ := hjump
    exact fun hstrict => h rfl hstrict step hstep _ _ hlabel
  · obtain ⟨step, hstep, hlabel⟩ := hjump
    exact fun hstrict => h rfl hstrict step hstep _ _ hlabel
  · trivial

end Labels

section Shorthands

variable {outer place : Place} {m : Node}

theorem target_eq_shorthand {slot : Slot} (h : slot.target = .shorthand) : slot = .shorthand := by
  cases slot with
  | shorthand => rfl
  | _ => cases h

theorem shorthand_of_propertySlot {kind : PropertyKind} {method shorthand : Bool}
    (h : propertySlot kind method shorthand = .shorthand) : shorthand = true := by
  unfold propertySlot at h
  grind

theorem asKey_slot (place : Place) (computed : Bool) :
    (place.asKey computed).slot ≠ .shorthand := by
  cases computed <;> exact nofun

/-- What stands as a shorthand is the value of such a property, or the target of an assignment
that is one. -/
theorem holds_shorthand {inner : Place × Node} (h : Node.Holds (outer, m) inner)
    (hslot : inner.1.slot = .shorthand) :
    (∃ span key value kind method computed,
        m = .member (.property span key value kind method true computed) ∧
        inner.2 = .expression value) ∨
      outer.slot = .shorthand ∧ ∃ span operator left right,
        m = .expression (.assignment span operator left right) ∧ inner.2 = .pattern left := by
  unfold Node.Holds Node.parts at h
  dsimp only at h
  split at h
  case h_6 span operator left right =>
    obtain rfl | rfl := by simpa using h
    · exact .inr ⟨target_eq_shorthand hslot, span, operator, left, right, rfl, rfl⟩
    · cases hslot
  case h_8 span key value kind method shorthand computed =>
    obtain rfl | rfl := by simpa using h
    · exact absurd hslot (asKey_slot _ _)
    · obtain rfl := shorthand_of_propertySlot hslot
      exact .inl ⟨span, key, value, kind, method, computed, rfl, rfl⟩
  all_goals exfalso
  -- The other places say themselves that they are not those of a shorthand.
  all_goals grind [Place.as, asKey_slot, Place.arrowParameters, Place.arrowBody,
    Place.functionParameters, Place.functionBody, Place.heritage, Place.classElement,
    Place.fieldInitializer, Place.staticBlock]

theorem exists_object {x : ObjectMember} (h : Node.Holds (outer, m) (place, .member x)) :
    ∃ span members, m = .expression (.object span members) ∧ x ∈ members := by
  have hchild : .member x ∈ m.children := by
    rw [← Node.map_snd_parts outer]
    exact List.mem_map_of_mem h
  cases m with
  | expression e =>
    cases e with
    | object span members =>
      exact ⟨span, members, rfl, by simpa [Node.children, Node.ofExpression] using hchild⟩
    | _ => simp [Node.children, Node.ofExpression, Node.ofOption] at hchild
  | pattern target => cases target <;> simp [Node.children, Node.ofPattern] at hchild
  | statement y => cases y <;> simp [Node.children, Node.ofStatement, Node.ofOption] at hchild
  | element y | member y | patternProperty y | classElement y | forHead y | catchClause y
  | markup y | markupAttribute y | markupValue y | markupChild y =>
    cases y <;> simp [Node.children, Node.ofOption] at hchild
  | _ => simp [Node.children, Node.ofOption] at hchild

end Shorthands

/-- No exception is made for shorthand properties with an initializer. -/
def TargetFits (place : Place) : Node → Prop
  | .pattern (.identifier id) => place.strict = true → IsAssignable id.name
  | _ => True

end EcmaSyntax.Tree

namespace EcmaSyntax.Grammar

open EcmaSyntax.Diagnostic EcmaSyntax.Lexer EcmaSyntax.Tree

variable {options : Options} {text : String} {p : Program}

section

variable {version : Nat} [Unicode.IdentifierChars version]

theorem parse_resolved (h : parse options text = .ok p) :
    ∀ x ∈ p.body, Resolved [] (.statement x) := by
  obtain ⟨s, hrun⟩ := exists_run h
  exact ((phrases_targets options _ _).program _ rfl rfl).result hrun

theorem parse_jumpLabelFits (h : parse options text = .ok p) {place : Place} {n : Node}
    (hn : p.Places options.impliedStrict place n) : JumpLabelFits place n := by
  obtain ⟨x, hx, hpath⟩ := hn
  obtain ⟨steps, hdescends, hlabels⟩ := exists_descends
    (fun _ _ hinner => (parse_fits h ⟨x, hx, hinner⟩).strict) hpath
  exact hlabels.jump (parse_resolved h x hx _ hdescends)

/-- Where objects are plain, no target stands in a shorthand property. -/
theorem parse_targetFits (h : parse options text = .ok p)
    (hcallees : ∀ m, p.Contains m → CalleeIsPlain m) {place : Place} {n : Node}
    (hn : p.Places options.impliedStrict place n) : TargetFits place n := by
  have hstrictFits := (parse_fits h hn).strict
  unfold TargetFits
  split
  · rename_i id
    intro hstrict
    refine (hstrictFits hstrict).2 fun hslot => ?_
    obtain ⟨_, _, hx⟩ | ⟨outer, m, hm, hlast⟩ := hn.last
    · cases hx
    obtain ⟨_, _, _, _, _, _, rfl, hid⟩ | ⟨houter, span, operator, left, right, rfl, -⟩ :=
      holds_shorthand hlast hslot
    · cases hid
    obtain ⟨_, _, hx⟩ | ⟨outer', m', hm', hlast'⟩ := hm.last
    · cases hx
    obtain ⟨_, key, value, kind, method, computed, rfl, hvalue⟩ | ⟨_, _, _, _, _, rfl, hvalue⟩ :=
      holds_shorthand hlast' houter
    · cases hvalue
      obtain ⟨_, _, hx⟩ | ⟨_, object, hobject, hlast''⟩ := hm'.last
      · cases hx
      obtain ⟨_, members, rfl, hmember⟩ := exists_object hlast''
      obtain ⟨x, hx, hwithin⟩ := hobject.contains
      have hplain : IsPlain (.expression (.object _ members)) :=
        (parse_checked h x hx).every_isPlain (fun m hm => hcallees m ⟨x, hx, hm⟩) (by simp) _
          hwithin
      cases hplain.noInitializer _ hmember
    · cases hvalue
  · trivial

/-- Nothing in strict code is what strict code refuses, but that the target of a shorthand
property may be `eval` or `arguments` if some `new` with arguments is applied to a literal
that is not plain. -/
theorem strict_code_fits (h : parse options text = .ok p) {place : Place} {n : Node}
    (hn : p.Places options.impliedStrict place n) :
    StrictFits place n ∧ JumpLabelFits place n ∧
      ((∀ m, p.Contains m → CalleeIsPlain m) → TargetFits place n) :=
  ⟨(parse_fits h hn).strict, parse_jumpLabelFits h hn, fun hcallees =>
    parse_targetFits h hcallees hn⟩

/-- A function of one parameter whose body turns strict. -/
def turnsParameter : Except Failure Program → Bool
  | .ok ⟨_, _, [.function ⟨_, _, _, _, [.identifier _], _, body⟩]⟩ => startsStrict body
  | _ => false

end

/-- A parameter of a function whose body turns strict. -/
theorem strict_code_fits_parameter :
    ∃ p place id, parse Options.script "function f(a) \x7b \"use strict\"; a = 1 \x7d" = .ok p ∧
      p.Places false place (.pattern (.identifier id)) ∧ place.strict = true ∧
      IsUnreserved id.name ∧ (place.slot ≠ .shorthand → IsAssignable id.name) := by
  obtain ⟨found, hfound, hshape⟩ : ∃ found,
      parse Options.script "function f(a) \x7b \"use strict\"; a = 1 \x7d" = found ∧
      turnsParameter found = true := ⟨_, rfl, by decide +kernel⟩
  unfold turnsParameter at hshape
  split at hshape
  · rename_i id _ body
    have hfits : ∀ {place n}, Program.Places _ false place n → Program.Places _ false place n ∧
        StrictFits place n := fun hplaces =>
      ⟨hplaces, (strict_code_fits hfound hplaces).1⟩
    obtain ⟨hplaces, hstrict⟩ := hfits (n := .pattern (.identifier id)) ⟨_,
      List.mem_singleton_self _, .head (List.mem_singleton_self _) <| .single List.mem_cons_self⟩
    have hchanges : ∀ strict : Bool, (strict || startsStrict body) = true := by simp [hshape]
    exact ⟨_, _, id, hfound, hplaces, hchanges _, hstrict (hchanges _)⟩
  · cases hshape

/-- Strict code with an assignment to `eval` in the callee of a `new`. -/
def assignsEval : Except Failure Program → Bool
  | .ok ⟨_, _, [.expression _ _ directive, .expression _ (.newCall _ (.object _
      [.property _ _ (.assignment _ _ (.identifier id) _) _ _ _ _]) _) _]⟩ =>
    directive == some "use strict" && id.name == "eval"
  | _ => false

/-- The arguments of a `new` forget a target that its callee left open. -/
theorem exists_strict_target :
    ∃ p place id, parse Options.script "\"use strict\"; new {eval = 1}(b)" = .ok p ∧
      p.Places false place (.pattern (.identifier id)) ∧ place.strict = true ∧
      ¬ IsAssignable id.name := by
  obtain ⟨found, hfound, hshape⟩ : ∃ found,
      parse Options.script "\"use strict\"; new {eval = 1}(b)" = found ∧
      assignsEval found = true := ⟨_, rfl, by decide +kernel⟩
  unfold assignsEval at hshape
  split at hshape
  · obtain ⟨hdirective, hname⟩ := by simpa using hshape
    refine ⟨_, _, _, hfound, ⟨_, List.mem_cons_of_mem _ List.mem_cons_self,
      .head List.mem_cons_self <| .head List.mem_cons_self <| .head List.mem_cons_self <|
      .head (List.mem_cons_of_mem _ List.mem_cons_self) <| .single List.mem_cons_self⟩, ?_, ?_⟩
    · simp [Program.place, Place.as, startsStrict, Statement.directive?, hdirective]
    · exact fun hassignable => hassignable.1 hname
  · cases hshape

end EcmaSyntax.Grammar
