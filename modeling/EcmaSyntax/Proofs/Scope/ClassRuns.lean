import EcmaSyntax.Proofs.Scope.ClassBodies

/-!
The names that the bodies of classes answer. A run over the private names of a tree of class bodies
fails nowhere if and only if every body declares its names once, up to pairs of accessors, and every
reference is answered by a body around it, whether the declaration comes before or after. References
of an inner body wait in their order in the body around it, so the first that nothing answers is the
one complained of.
-/

namespace EcmaSyntax.Scope

open ClassItem PrivateCall

section Answers

mutual

/-- What nothing answers in an item is what it leaves to the bodies around it and none of them
declares. -/
theorem unanswered_item (around : List (List ClassItem)) : ∀ item,
    (standing around item).filterMap unanswered =
      (escaping item).filter fun reference => !around.any (declares · reference.name)
  | .declaration one offset => rfl
  | .reference name offset => by
    rw [standing, escaping, List.filterMap_cons, List.filterMap_nil, unanswered]
    cases h : around.any (declares · name) <;> simp [h]
  | .body items => by
    have hinside := unanswered_items (items :: around) items
    simp only [List.any_cons, Bool.not_or] at hinside
    rw [standing, escaping, List.filterMap_cons_none rfl, hinside, List.filter_filter]
    simp only [Bool.and_comm]

theorem unanswered_items (around : List (List ClassItem)) : ∀ items,
    (standingIn around items).filterMap unanswered =
      (escapingFrom items).filter fun reference => !around.any (declares · reference.name)
  | [] => rfl
  | item :: rest => by
    rw [standingIn, escapingFrom, List.filterMap_append, List.filter_append, unanswered_item,
      unanswered_items]

end

mutual

theorem standing_inside {around : List (List ClassItem)} (h : around ≠ []) :
    ∀ item, ∀ entry ∈ standing around item, entry.1 ≠ []
  | .declaration _ _, _, hmem | .reference _ _, _, hmem => by
    rw [standing, List.mem_singleton] at hmem
    rwa [hmem]
  | .body items, entry, hmem => by
    rw [standing, List.mem_cons] at hmem
    obtain rfl | hmem := hmem
    · exact h
    · exact standingIn_inside (List.cons_ne_nil _ _) items entry hmem

theorem standingIn_inside {around : List (List ClassItem)} (h : around ≠ []) :
    ∀ items, ∀ entry ∈ standingIn around items, entry.1 ≠ []
  | [], _, hmem => by cases hmem
  | item :: rest, entry, hmem => by
    rw [standingIn, List.mem_append] at hmem
    exact hmem.elim (standing_inside h item entry) (standingIn_inside h rest entry)

end

theorem isInClass_of_body (items : List ClassItem) :
    ∀ entry ∈ standing [] (.body items), IsInClass entry := by
  rw [standing, List.forall_mem_cons]
  exact ⟨fun _ => ⟨items, rfl⟩, fun entry hmem hnone =>
    absurd hnone (standingIn_inside (List.cons_ne_nil _ _) items entry hmem)⟩

theorem unanswered_eq_none {entry : Entry} (h : IsInClass entry) :
    unanswered entry = none ↔ IsAnswered entry := by
  obtain ⟨around, item⟩ := entry
  cases item with
  | declaration one offset => exact iff_of_true rfl nofun
  | body items => exact iff_of_true rfl nofun
  | reference name offset =>
    have hinside : around ≠ [] := by
      intro hnone
      obtain ⟨items, hbody⟩ := h hnone
      cases hbody
    have hiff : unanswered (around, .reference name offset) = none ↔
        ∃ items ∈ around, declares items name = true := by
      rw [unanswered, ← List.any_eq_true]
      split <;> simp_all
    rw [hiff]
    refine ⟨?_, fun h => h name offset rfl hinside⟩
    rintro h _ _ ⟨⟩ -
    exact h

theorem eq_of_unanswered {entry : Entry} {reference : PrivateReference}
    (h : unanswered entry = some reference) :
    entry.2 = .reference reference.name reference.offset := by
  obtain ⟨around, item⟩ := entry
  cases item with
  | declaration one offset => cases h
  | body items => cases h
  | reference name offset =>
    rw [unanswered] at h
    split at h <;> cases h
    rfl

end Answers

section Outermost

/-- The rules for private names. -/
structure IsLawful (entry : Entry) : Prop where
  named : IsNamed entry
  distinct : IsDistinct entry
  answered : IsAnswered entry
  inClass : IsInClass entry

/-- The earliest of a list that does not have the property. -/
def IsEarliest {α : Type} (P : α → Prop) (list : List α) (one : α) : Prop :=
  ¬P one ∧ ∃ before later, list = before ++ one :: later ∧ ∀ other ∈ before, P other

/-- What the end of a class gives that has no class around it. -/
def lastResult : List PrivateReference → Except Error Unit
  | [] => .ok ()
  | unanswered :: _ => .error ⟨.undeclaredPrivateName, unanswered.name, unanswered.offset⟩

/-- The run for an outermost class: its names decide until the end, its references at the end. -/
theorem outermost (items : List ClassItem) :
    (Succeed [.empty] (callsOf items) ↔ ∀ entry ∈ standing [] (.body items), IsLegal entry) ∧
      (Succeed [.empty] (callsOf items) →
        after [] (calls (.body items)) = [] ∧
        outcomes [] (calls (.body items)) = ⟨.enterClass, 0, .ok ()⟩ ::
          (outcomes [.empty] (callsOf items) ++
            [⟨.exitClass, 1, lastResult ((standing [] (.body items)).filterMap unanswered)⟩])) := by
  have hitems : Runs .empty [] [] _ _ (standingIn [items] items) _ :=
    runs_items holds_empty areUnique_nil items
  constructor
  · rw [hitems.succeed_iff, standing, List.forall_mem_cons, isLegal_body, List.nil_append]
  · intro hall
    obtain ⟨inner, hafter, hholds, hpending⟩ := hitems.leaves hall
    have hleft : inner.unresolved = (standing [] (.body items)).filterMap unanswered := by
      rw [unresolved_of_holds hholds, hpending, unanswered_item, escaping]
      simp [ClassNames.empty]
    have hcalls : calls (.body items) = .enterClass :: (callsOf items ++ [.exitClass]) := by
      rw [calls]
    have hexit : (PrivateCall.exitClass).run [inner] = (lastResult inner.unresolved, []) := by
      simp only [PrivateCall.run, PrivateNames.exitClass]
      cases inner.unresolved <;> rfl
    rw [hcalls, ← hleft]
    constructor
    · change after [.empty] (callsOf items ++ [.exitClass]) = []
      rw [after_append, hafter, after, List.foldl_cons, hexit]
      rfl
    · change _ :: outcomes [.empty] (callsOf items ++ [.exitClass]) = _
      rw [outcomes_append, hafter, outcomes, hexit]
      rfl

theorem succeed_outermost (items : List ClassItem) :
    Succeed [] (calls (.body items)) ↔ ∀ entry ∈ standing [] (.body items), IsLawful entry := by
  obtain ⟨hiff, hend⟩ := outermost items
  have hanswers : (∀ entry ∈ standing [] (.body items), IsAnswered entry) ↔
      (standing [] (.body items)).filterMap unanswered = [] := by
    rw [List.filterMap_eq_nil_iff]
    exact forall₂_congr fun entry hmem =>
      (unanswered_eq_none (isInClass_of_body items entry hmem)).symm
  constructor
  · intro hall
    have hinner : Succeed [.empty] (callsOf items) := by
      rw [calls, succeed_cons, succeed_append] at hall
      exact hall.2.1
    have hlast : lastResult ((standing [] (.body items)).filterMap unanswered) = .ok () := by
      refine hall ⟨.exitClass, 1, _⟩ ?_
      rw [(hend hinner).2]
      exact List.mem_cons_of_mem _ (List.mem_append_right _ (List.mem_singleton_self _))
    have hnone : (standing [] (.body items)).filterMap unanswered = [] := by
      cases hleft : (standing [] (.body items)).filterMap unanswered with
      | nil => rfl
      | cons first later =>
        rw [hleft] at hlast
        cases hlast
    intro entry hmem
    have hlegal := hiff.mp hinner entry hmem
    exact ⟨hlegal.1, hlegal.2, hanswers.mpr hnone entry hmem, isInClass_of_body items entry hmem⟩
  · intro hall
    have hinner : Succeed [.empty] (callsOf items) :=
      hiff.mpr fun entry hmem => ⟨(hall entry hmem).named, (hall entry hmem).distinct⟩
    rw [Succeed, (hend hinner).2, hanswers.mp fun entry hmem => (hall entry hmem).answered]
    simp only [List.forall_mem_cons, List.forall_mem_append]
    exact ⟨trivial, hinner, rfl, List.forall_mem_nil _⟩

theorem self_mem_standing (around : List (List ClassItem)) (item : ClassItem) :
    (around, item) ∈ standing around item := by
  cases item <;> simp [standing]

theorem exists_body_of_inClass {item : ClassItem}
    (h : ∀ entry ∈ standing [] item, IsInClass entry) :
    ∃ items, item = .body items :=
  h _ (self_mem_standing [] item) rfl

theorem exists_body_of_succeed {item : ClassItem} (h : Succeed [] (calls item)) :
    ∃ items, item = .body items := by
  cases item with
  | body items => exact ⟨items, rfl⟩
  | declaration one offset =>
    rw [calls, succeed_cons] at h
    by_cases hname : one.name = "constructor" <;>
      simp [PrivateCall.run, PrivateNames.declare, hname] at h
  | reference name offset =>
    rw [calls, succeed_cons] at h
    cases h.1

theorem after_outermost {items : List ClassItem} (h : Succeed [] (calls (.body items))) :
    after [] (calls (.body items)) = [] := by
  refine ((outermost items).2 ?_).1
  rw [calls, succeed_cons, succeed_append] at h
  exact h.2.1

/-- The run for all classes that have no class around them. -/
theorem succeed_outside (items : List ClassItem) :
    Succeed [] (callsOf items) ↔ ∀ entry ∈ standingIn [] items, IsLawful entry := by
  induction items with
  | nil => exact iff_of_true (succeed_nil []) nofun
  | cons item rest ih =>
    rw [callsOf, standingIn, succeed_append, List.forall_mem_append]
    by_cases hbody : ∃ items, item = .body items
    · obtain ⟨items, rfl⟩ := hbody
      rw [← succeed_outermost, ← ih]
      refine and_congr_right fun hitem => ?_
      rw [after_outermost hitem]
    · exact iff_of_false (fun h => hbody (exists_body_of_succeed h.1)) fun h =>
        hbody (exists_body_of_inClass fun entry hmem => (h.1 entry hmem).inClass)

variable {α : Type} {P : α → Prop}

theorem IsEarliest.append_left {first second : List α} {one : α} (hfirst : ∀ other ∈ first, P other)
    (h : IsEarliest P second one) : IsEarliest P (first ++ second) one := by
  obtain ⟨hnot, before, later, rfl, hbefore⟩ := h
  exact ⟨hnot, first ++ before, later, (List.append_assoc ..).symm,
    List.forall_mem_append.mpr ⟨hfirst, hbefore⟩⟩

theorem IsEarliest.append_right {first second : List α} {one : α} (h : IsEarliest P first one) :
    IsEarliest P (first ++ second) one := by
  obtain ⟨hnot, before, later, rfl, hbefore⟩ := h
  exact ⟨hnot, before, later ++ second, by rw [List.append_assoc, List.cons_append], hbefore⟩

/-- The first reference of an outermost class that nothing answers fails at its end. -/
theorem earliest_outermost {items : List ClassItem}
    (hlegal : ∀ entry ∈ standing [] (.body items), IsLegal entry)
    {reference : PrivateReference} {others : List PrivateReference}
    (hleft : (standing [] (.body items)).filterMap unanswered = reference :: others) :
    (∃ around, IsEarliest IsAnswered (standing [] (.body items))
      (around, .reference reference.name reference.offset)) ∧
      IsEarliest (·.result = .ok ()) (outcomes [] (calls (.body items)))
        ⟨.exitClass, 1, .error ⟨.undeclaredPrivateName, reference.name, reference.offset⟩⟩ := by
  constructor
  · obtain ⟨before, ⟨around, item⟩, later, hsplit, hbefore, hone, -⟩ :=
      List.filterMap_eq_cons_iff.mp hleft
    have hclass := isInClass_of_body items
    rw [hsplit] at hclass
    obtain rfl : item = .reference reference.name reference.offset := eq_of_unanswered hone
    refine ⟨around, fun hanswered => ?_, before, later, hsplit, fun other hmem => ?_⟩
    · rw [(unanswered_eq_none (hclass _ (by simp))).mpr hanswered] at hone
      cases hone
    · exact (unanswered_eq_none (hclass other (by simp [hmem]))).mp (hbefore other hmem)
  · have hinner := (outermost items).1.mpr hlegal
    rw [((outermost items).2 hinner).2, hleft]
    refine ⟨nofun, ⟨.enterClass, 0, .ok ()⟩ :: outcomes [.empty] (callsOf items), [], rfl, ?_⟩
    exact List.forall_mem_cons.mpr ⟨rfl, hinner⟩

theorem earliest_outside {items : List ClassItem}
    (hlegal : ∀ entry ∈ standingIn [] items, IsLegal entry)
    (hclass : ∀ entry ∈ standingIn [] items, IsInClass entry)
    (hnot : ∃ entry ∈ standingIn [] items, ¬IsAnswered entry) :
    ∃ around name offset,
      IsEarliest IsAnswered (standingIn [] items) (around, .reference name offset) ∧
      IsEarliest (·.result = .ok ()) (outcomes [] (callsOf items))
        ⟨.exitClass, 1, .error ⟨.undeclaredPrivateName, name, offset⟩⟩ := by
  induction items with
  | nil =>
    obtain ⟨entry, hmem, -⟩ := hnot
    cases hmem
  | cons item rest ih =>
    rw [standingIn, List.forall_mem_append] at hlegal hclass
    obtain ⟨items, rfl⟩ := exists_body_of_inClass hclass.1
    rw [callsOf, standingIn, outcomes_append]
    cases hleft : (standing [] (.body items)).filterMap unanswered with
    | nil =>
      have hanswered : ∀ entry ∈ standing [] (.body items), IsAnswered entry := fun entry hmem =>
        (unanswered_eq_none (hclass.1 entry hmem)).mp
          (List.filterMap_eq_nil_iff.mp hleft entry hmem)
      have hitem : Succeed [] (calls (.body items)) :=
        (succeed_outermost items).mpr fun entry hmem =>
        ⟨(hlegal.1 entry hmem).1, (hlegal.1 entry hmem).2, hanswered entry hmem,
          hclass.1 entry hmem⟩
      have hrest : ∃ entry ∈ standingIn [] rest, ¬IsAnswered entry := by
        obtain ⟨entry, hmem, hnone⟩ := hnot
        rw [standingIn, List.mem_append] at hmem
        exact ⟨entry, hmem.resolve_left fun hmem => hnone (hanswered entry hmem), hnone⟩
      obtain ⟨around, name, offset, hentry, houtcome⟩ := ih hlegal.2 hclass.2 hrest
      rw [after_outermost hitem]
      exact ⟨around, name, offset, hentry.append_left hanswered, houtcome.append_left hitem⟩
    | cons reference others =>
      obtain ⟨⟨around, hentry⟩, houtcome⟩ := earliest_outermost hlegal.1 hleft
      exact ⟨around, _, _, hentry.append_right, houtcome.append_right⟩

/-- Calls that exit every class they enter go through a tree of class bodies. None of them fails
if and only if all that stands in the tree is lawful; if nothing but an answer is missing, then
the first to fail is the end of an outermost class, over the earliest reference that has none. -/
theorem private_names_run (calls : List PrivateCall) (h : isBalanced 0 calls = true) :
    ∃ items, callsOf items = calls ∧
      ((∀ outcome ∈ outcomes [] calls, outcome.result = .ok ()) ↔
        ∀ entry ∈ standingIn [] items,
          IsNamed entry ∧ IsDistinct entry ∧ IsAnswered entry ∧ IsInClass entry) ∧
      ((∀ entry ∈ standingIn [] items, IsNamed entry ∧ IsDistinct entry ∧ IsInClass entry) →
        (∃ entry ∈ standingIn [] items, ¬IsAnswered entry) →
        ∃ around name offset,
          IsEarliest IsAnswered (standingIn [] items) (around, .reference name offset) ∧
          IsEarliest (·.result = .ok ()) (outcomes [] calls)
            ⟨.exitClass, 1, .error ⟨.undeclaredPrivateName, name, offset⟩⟩) := by
  obtain ⟨items, rfl⟩ := exists_callsOf h
  refine ⟨items, rfl, (succeed_outside items).trans ?_, fun hrules hnot => ?_⟩
  · refine forall₂_congr fun entry _ => ⟨fun h => ⟨h.named, h.distinct, h.answered, h.inClass⟩, ?_⟩
    rintro ⟨hnamed, hdistinct, hanswered, hclass⟩
    exact ⟨hnamed, hdistinct, hanswered, hclass⟩
  · exact earliest_outside (fun entry hmem => ⟨(hrules entry hmem).1, (hrules entry hmem).2.1⟩)
      (fun entry hmem => (hrules entry hmem).2.2) hnot

/-- A class in a class. Of three references in the inner one the class itself answers the first,
the class around it the last, and nothing the second. -/
def nestedClasses : List PrivateCall :=
  [.enterClass, .declare "pair" .getter false 0,
    .enterClass, .reference "own" 1, .reference "missing" 2, .reference "later" 3,
      .declare "own" .method true 4, .exitClass,
    .declare "later" .field false 5, .declare "pair" .setter false 6, .exitClass]

theorem private_names_run_nested :
    isBalanced 0 nestedClasses = true ∧
      ∃ items, callsOf items = nestedClasses ∧
        ¬(∀ entry ∈ standingIn [] items,
          IsNamed entry ∧ IsDistinct entry ∧ IsAnswered entry ∧ IsInClass entry) := by
  obtain ⟨items, hcalls, hiff, -⟩ := private_names_run nestedClasses rfl
  refine ⟨rfl, items, hcalls, fun hrules => ?_⟩
  have hlast : (⟨.exitClass, 1, .error ⟨.undeclaredPrivateName, "missing", 2⟩⟩ : PrivateOutcome) ∈
      outcomes [] nestedClasses :=
    List.mem_of_getLast? rfl
  cases hiff.mpr hrules _ hlast

end Outermost

end EcmaSyntax.Scope
