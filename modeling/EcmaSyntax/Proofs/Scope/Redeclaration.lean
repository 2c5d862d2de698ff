import EcmaSyntax.Proofs.Scope.Frames

/-!
Redeclarations are found exactly. A stack of scopes sees the declarations one by one and
forgets a scope when it is closed, yet it refuses one of them if and only if some scope of
the whole tree has a conflict. What carries the proof is that a frame tells of a scope
which names are declared in it and which variables have come out of the scopes in it.
-/

namespace EcmaSyntax.Scope

open Item

section Declaration

variable {repeatFunctions : Bool} {role : Role} {done items rest : List Item} {frame : Frame}
  {outer outer' : List Frame} {name : String} {kind : BindingKind} {offset : Nat}

/-- More items of a scope are compatible with those before them and with the scopes
around. -/
structure Fits (repeatFunctions : Bool) (role : Role) (done items : List Item)
    (outer : List Frame) : Prop where
  inside : Everywhere (fun _ => IsConsistent repeatFunctions) role (done ++ items)
  outside : role.isVarBoundary = false → ∀ name ∈ hoisted items, ¬IsRefused name outer
  signature : role.isBody = true → ∀ d ∈ declared items, d.2.isLexical = true →
    ¬IsTaken outer d.1

/-- The result is that the items fit, and the frames tell so; or that they do not fit. -/
def Decides (repeatFunctions : Bool) (role : Role) (done items : List Item) (outer : List Frame) :
    Except Error Stack → Prop
  | .ok stack => Fits repeatFunctions role done items outer ∧ ∃ frame outer',
      stack = ⟨frame, outer'⟩ ∧ frame.Holds role (done ++ items) ∧
        Passes role (hoisted items) outer outer'
  | .error _ => ¬Fits repeatFunctions role done items outer

/-- One more declaration in a consistent scope. -/
theorem isConsistent_concat (name : String) (kind : BindingKind) (offset : Nat)
    (h : IsConsistent repeatFunctions done)
    (hbody : ∀ inner body, .scope inner body ∈ done → inner.isBody = false) :
    IsConsistent repeatFunctions (done ++ [.declaration name kind offset]) ↔
      (kind.isExclusive = true → ∀ d ∈ declared done, d.1 = name → d.2.isExclusive = true →
        repeatFunctions = true ∧ d.2 = .functionLexical ∧ kind = .functionLexical) ∧
      (kind.refusesVar = true → name ∉ hoisted done) ∧
      (kind.isVarLike = true → ∀ d ∈ declared done, d.2.refusesVar = true → d.1 ≠ name) := by
  have hdeclared : declared (done ++ [.declaration name kind offset]) =
      declared done ++ [(name, kind)] := declared_append _ _
  have hhoisted : hoisted (done ++ [.declaration name kind offset]) =
      hoisted done ++ if kind.isVarLike then [name] else [] := by
    rw [hoisted_append, hoisted, hoisted, List.append_nil, escaping]
  constructor
  · intro hmore
    have hdistinct := hmore.distinct
    rw [hdeclared, List.pairwise_append] at hdistinct
    refine ⟨fun hkind d hd hname hexclusive => ?_, fun hrefuses hmem => ?_,
      fun hvar d hd hrefuses hname => ?_⟩
    · exact hdistinct.2.2 d hd (name, kind) (List.mem_singleton_self _) hname hexclusive hkind
    · refine hmore.apart (name, kind) ?_ hrefuses ?_
      · simp [hdeclared]
      · rw [hhoisted]
        exact List.mem_append_left _ hmem
    · refine hmore.apart d ?_ hrefuses ?_
      · rw [hdeclared]
        exact List.mem_append_left _ hd
      · rw [hhoisted, if_pos hvar, hname]
        simp
  · rintro ⟨hexclusive, hrefuses, hvar⟩
    refine ⟨?_, fun d hd hd' hmem => ?_, fun inner body hmem hinner => ?_⟩
    · rw [hdeclared, List.pairwise_append]
      refine ⟨h.distinct, List.pairwise_singleton _ _, fun a ha b hb hname hfirst hsecond => ?_⟩
      rw [List.mem_singleton] at hb
      subst hb
      exact hexclusive hsecond a ha hname hfirst
    · rw [hdeclared, List.mem_append, List.mem_singleton] at hd
      rw [hhoisted, List.mem_append] at hmem
      rcases hd with hd | rfl
      · rcases hmem with hmem | hmem
        · exact h.apart d hd hd' hmem
        · split at hmem
          · rename_i hkind
            exact hvar hkind d hd hd' (List.mem_singleton.mp hmem)
          · cases hmem
      · rcases hmem with hmem | hmem
        · exact hrefuses hd' hmem
        · split at hmem
          · rename_i hkind
            rw [(BindingKind.plain_of_isVarLike hkind).1] at hd'
            cases hd'
          · cases hmem
    · rw [List.mem_append, List.mem_singleton] at hmem
      rcases hmem with hmem | hmem
      · rw [hbody inner body hmem] at hinner
        cases hinner
      · cases hmem

/-- What one more declaration has to be compatible with. -/
theorem fits_declaration (h : Everywhere (fun _ => IsConsistent repeatFunctions) role done)
    (hshape : IsShaped role (done ++ .declaration name kind offset :: rest)) :
    Fits repeatFunctions role done [.declaration name kind offset] outer ↔
      (kind.isExclusive = true → ∀ d ∈ declared done, d.1 = name → d.2.isExclusive = true →
        repeatFunctions = true ∧ d.2 = .functionLexical ∧ kind = .functionLexical) ∧
      (kind.refusesVar = true → name ∉ hoisted done) ∧
      (kind.isVarLike = true → (∀ d ∈ declared done, d.2.refusesVar = true → d.1 ≠ name) ∧
        (role.isVarBoundary = false → ¬IsRefused name outer)) ∧
      (role.isBody = true → kind.isLexical = true → ¬IsTaken outer name) := by
  rw [everywhere_iff] at h
  have hconcat := isConsistent_concat name kind offset h.1 fun _ _ hmem => hshape.no_body hmem
  constructor
  · intro hfits
    obtain ⟨hexclusive, hrefuses, hvar⟩ := hconcat.mp (everywhere_iff.mp hfits.inside).1
    refine ⟨hexclusive, hrefuses, fun hkind => ⟨hvar hkind, fun hopen => ?_⟩, fun hbody hkind => ?_⟩
    · refine hfits.outside hopen name ?_
      simp [hoisted, escaping, hkind]
    · exact hfits.signature hbody (name, kind) (List.mem_singleton_self _) hkind
  · rintro ⟨hexclusive, hrefuses, hvar, hsignature⟩
    refine ⟨everywhere_iff.mpr ⟨hconcat.mpr ⟨hexclusive, hrefuses, fun hkind => (hvar hkind).1⟩,
      fun inner body hmem => ?_⟩, fun hopen other hmem => ?_, fun hbody d hd hkind => ?_⟩
    · rw [List.mem_append, List.mem_singleton] at hmem
      rcases hmem with hmem | hmem
      · exact h.2 inner body hmem
      · cases hmem
    · rw [hoisted, hoisted, List.append_nil, escaping] at hmem
      split at hmem
      · rename_i hkind
        rw [List.mem_singleton.mp hmem]
        exact (hvar hkind).2 hopen
      · cases hmem
    · rw [List.mem_singleton.mp hd] at hkind ⊢
      exact hsignature hbody hkind

theorem declareVar_decides (hholds : frame.Holds role done)
    (h : Everywhere (fun _ => IsConsistent repeatFunctions) role done)
    (hshape : IsShaped role (done ++ .declaration name kind offset :: rest))
    (hkind : kind.isVarLike = true) :
    Decides repeatFunctions role done [.declaration name kind offset] outer
      (Item.run repeatFunctions (.declaration name kind offset) ⟨frame, outer⟩) := by
  obtain ⟨hrefuses, hexclusive, hlexical⟩ := BindingKind.plain_of_isVarLike hkind
  have hescaping : hoisted [Item.declaration name kind offset] = [name] := by
    simp [hoisted, escaping, hkind]
  have hfits : Fits repeatFunctions role done [.declaration name kind offset] outer ↔
      ¬IsRefused name (frame :: outer) := by
    have hnot : kind.isLexical = false := by
      cases kind <;> first | rfl | cases hkind
    rw [fits_declaration h hshape, IsRefused, has_of_roles hholds.roles, hholds.refuses]
    grind
  have hdeclare : (⟨frame, outer⟩ : Stack).declare name kind offset repeatFunctions =
      (⟨frame, outer⟩ : Stack).declareVar name kind offset := by
    cases kind <;> first | rfl | cases hkind
  have hrecord := recordVar_spec name (frame :: outer) kind hkind
  unfold Item.run
  rw [hdeclare]
  unfold Stack.declareVar Stack.frames
  dsimp only
  split at hrecord
  · rename_i frames hrecorded
    rw [hrecorded]
    obtain ⟨hfree, frame', outer', rfl, hrecords, hpass⟩ := hrecord
    refine ⟨hfits.mpr hfree, frame', outer', rfl, ?_, ?_⟩
    · refine hholds.record (by rwa [hescaping]) fun d hd => ?_
      rw [List.mem_singleton.mp hd]
      exact ⟨hkind, by simp [hescaping]⟩
    · rw [has_of_roles hholds.roles] at hpass
      rwa [hescaping]
  · rename_i frames hrecorded
    rw [hrecorded]
    exact fun hfit => hfits.mp hfit hrecord

theorem declareParameter_decides (hholds : frame.Holds role done)
    (h : Everywhere (fun _ => IsConsistent repeatFunctions) role done)
    (hshape : IsShaped role (done ++ .declaration name .parameter offset :: rest)) :
    Decides repeatFunctions role done [.declaration name .parameter offset] outer
      (Item.run repeatFunctions (.declaration name .parameter offset) ⟨frame, outer⟩) := by
  have hfits : Fits repeatFunctions role done [.declaration name .parameter offset] outer :=
    (fits_declaration h hshape).mpr ⟨nofun, nofun, nofun, fun _ => nofun⟩
  have hparams : role.isParams = true := by
    have hstands := hshape.stands
    cases role <;> first | rfl | cases hstands
  have hbound : (frame.bind name .parameter).Holds role
      (done ++ [.declaration name .parameter offset]) := by
    refine hholds.bind rfl (fun d hd _ => ?_) offset
    have hstands := hshape.stands_before hd
    have hkind : d.2 = .parameter := by
      cases role <;> first | exact beq_iff_eq.mp hstands | cases hparams
    rw [hkind]
    exact ⟨nofun, nofun⟩
  unfold Item.run Stack.declare Stack.declareParameter
  dsimp only
  cases frame.find? name with
  | none => exact ⟨hfits, _, outer, rfl, hbound, passes_nil role outer⟩
  | some existing =>
    refine ⟨hfits, _, outer, rfl, ⟨hbound.roles, hbound.binds, hbound.refuses, hbound.repeats⟩, ?_⟩
    exact passes_nil role outer

/-- A variable declared in a scope is one of those that come out of it. -/
theorem mem_hoisted_of_declared {d : String × BindingKind} (hd : d ∈ declared items)
    (hkind : d.2.isVarLike = true) : d.1 ∈ hoisted items := by
  induction items with
  | nil => cases hd
  | cons item rest ih =>
    rw [hoisted, List.mem_append]
    cases item with
    | declaration name kind offset =>
      rcases List.mem_cons.mp hd with rfl | hd
      · refine .inl ?_
        rw [escaping, if_pos hkind]
        exact List.mem_singleton_self _
      · exact .inr (ih hd)
    | scope role items => exact .inr (ih hd)

theorem shadowsParameter_iff (hroles : frame.roles = [role]) (outer : List Frame) (name : String) :
    (⟨frame, outer⟩ : Stack).shadowsParameter name = true ↔
      role.isBody = true ∧ IsTaken outer name := by
  unfold Stack.shadowsParameter IsTaken
  rw [has_of_roles hroles, Bool.and_eq_true]
  refine and_congr Iff.rfl ?_
  cases outer with
  | nil => simp
  | cons around outer =>
    have hsame : around.has (fun role => role.isParams || role == .catchParam) =
        around.has Role.isSignature := rfl
    simp [hsame, Frame.Binds]

/-- In a consistent scope a name that may be repeated has no other kind. -/
theorem IsConsistent.eq_functionLexical (h : IsConsistent repeatFunctions done)
    (hname : (name, .functionLexical) ∈ declared done) {d : String × BindingKind}
    (hd : d ∈ declared done) (hsame : d.1 = name) (hexclusive : d.2.isExclusive = true) :
    d.2 = .functionLexical := by
  by_cases heq : d = (name, .functionLexical)
  · rw [heq]
  · obtain ⟨first, last, hsplit⟩ := List.append_of_mem hd
    have hdistinct := h.distinct
    rw [hsplit, List.pairwise_append, List.pairwise_cons] at hdistinct
    rw [hsplit, List.mem_append, List.mem_cons] at hname
    rcases hname with hname | hname | hname
    · exact (hdistinct.2.2 _ hname d List.mem_cons_self hsame.symm rfl hexclusive).2.2
    · exact absurd hname.symm heq
    · exact (hdistinct.2.1.1 _ hname hsame hexclusive rfl).2.1

/-- A name that may be declared only once is not bound yet, or it may be repeated. -/
theorem unbound_iff (hholds : frame.Holds role done) (h : IsConsistent repeatFunctions done)
    (hshape : IsShaped role (done ++ .declaration name kind offset :: rest))
    (hkind : kind.isExclusive = true) :
    (∀ existing, frame.find? name = some existing →
      repeatFunctions = true ∧ existing = .functionLexical ∧ kind = .functionLexical) ↔
    (∀ d ∈ declared done, d.1 = name → d.2.isExclusive = true →
      repeatFunctions = true ∧ d.2 = .functionLexical ∧ kind = .functionLexical) ∧
    (kind.refusesVar = true → name ∉ hoisted done) := by
  have hbound : frame.Binds name → ∃ existing, frame.find? name = some existing :=
    Option.isSome_iff_exists.mp
  constructor
  · intro hfree
    refine ⟨fun d hd hname hexclusive => ?_, fun _ hmem => ?_⟩
    · obtain ⟨existing, hfind⟩ := hbound ((hholds.binds name).mpr
        (.inl (List.mem_map.mpr ⟨d, hd, hname⟩)))
      obtain ⟨hrepeat, rfl, hfunction⟩ := hfree existing hfind
      exact ⟨hrepeat, h.eq_functionLexical ((hholds.repeats name).mp hfind) hd hname hexclusive,
        hfunction⟩
    · obtain ⟨existing, hfind⟩ := hbound ((hholds.binds name).mpr (.inr hmem))
      obtain ⟨-, rfl, -⟩ := hfree existing hfind
      exact h.apart _ ((hholds.repeats name).mp hfind) rfl hmem
  · rintro ⟨hdistinct, hapart⟩ existing hfind
    have hnone : name ∉ hoisted done := by
      intro hmem
      -- Only a name that is caught lets a variable pass, and there is none before it.
      by_cases hrefuses : kind.refusesVar = true
      · exact hapart hrefuses hmem
      · have hrole : role = .catchParam := by
          rcases BindingKind.standsIn_cases hshape.stands with ⟨-, hparam⟩ | ⟨hrole, -⟩ |
            ⟨-, hlexical | hvar⟩
          · rw [hparam] at hkind
            cases hkind
          · exact hrole
          · simp [BindingKind.refusesVar, hlexical] at hrefuses
          · rw [(BindingKind.plain_of_isVarLike hvar).2.1] at hkind
            cases hkind
        subst hrole
        rw [hshape.hoisted_handler] at hmem
        cases hmem
    have hbinds : frame.Binds name := by
      unfold Frame.Binds
      rw [hfind]
      rfl
    rcases (hholds.binds name).mp hbinds with hname | hmem
    · obtain ⟨d, hd, rfl⟩ := List.mem_map.mp hname
      have hexclusive : d.2.isExclusive = true := by
        have hvar : ¬d.2.isVarLike = true := fun hvar => hnone (mem_hoisted_of_declared hd hvar)
        rcases BindingKind.standsIn_cases (hshape.stands_before hd) with ⟨hparams, -⟩ |
            ⟨-, hcatch | hcatch⟩ | ⟨-, hlexical | hvar'⟩
        · rcases BindingKind.standsIn_cases hshape.stands with ⟨-, hparam⟩ | ⟨hrole, -⟩ | ⟨hrole, -⟩
          · rw [hparam] at hkind
            cases hkind
          · rw [hrole] at hparams
            cases hparams
          · simp [Role.isSignature, hparams] at hrole
        · rw [hcatch]
          rfl
        · rw [hcatch]
          rfl
        · simp [BindingKind.isExclusive, hlexical]
        · exact absurd hvar' hvar
      obtain ⟨hrepeat, hfunction, hkind'⟩ := hdistinct d hd rfl hexclusive
      have hmem : (d.1, .functionLexical) ∈ declared done := by
        rw [← hfunction]
        exact hd
      rw [(hholds.repeats d.1).mpr hmem] at hfind
      cases hfind
      exact ⟨hrepeat, rfl, hkind'⟩
    · exact absurd hmem hnone

theorem declareLexical_ok {stack : Stack}
    (hfree : ∀ existing, stack.current.find? name = some existing →
    repeatFunctions = true ∧ existing = .functionLexical ∧ kind = .functionLexical)
    (hshadow : stack.shadowsParameter name = false) :
    stack.declareLexical name kind offset repeatFunctions =
      (.ok (), { stack with current := stack.current.bind name kind }) := by
  unfold Stack.declareLexical
  rw [hshadow]
  cases hfind : stack.current.find? name with
  | none => rfl
  | some existing =>
    obtain ⟨rfl, rfl, rfl⟩ := hfree existing hfind
    rfl

theorem declareLexical_error {stack : Stack}
    (h : ¬((∀ existing, stack.current.find? name = some existing →
      repeatFunctions = true ∧ existing = .functionLexical ∧ kind = .functionLexical) ∧
        ¬stack.shadowsParameter name = true)) :
    stack.declareLexical name kind offset repeatFunctions =
      (.error ⟨.duplicateBinding, name, offset⟩, stack) := by
  unfold Stack.declareLexical
  refine if_pos ?_
  rw [Bool.or_eq_true_iff]
  cases hfind : stack.current.find? name with
  | none => exact .inr (by simpa [hfind] using h)
  | some existing =>
    rw [hfind] at h
    simp only [Bool.not_eq_true', Bool.and_eq_false_iff, beq_eq_false_iff_ne, ne_eq]
    grind

theorem declareLexical_decides (hholds : frame.Holds role done)
    (h : Everywhere (fun _ => IsConsistent repeatFunctions) role done)
    (hshape : IsShaped role (done ++ .declaration name kind offset :: rest))
    (hkind : kind.isExclusive = true) :
    Decides repeatFunctions role done [.declaration name kind offset] outer
      (Item.run repeatFunctions (.declaration name kind offset) ⟨frame, outer⟩) := by
  have hdeclare : (⟨frame, outer⟩ : Stack).declare name kind offset repeatFunctions =
      (⟨frame, outer⟩ : Stack).declareLexical name kind offset repeatFunctions := by
    cases kind <;> first | rfl | cases hkind
  have hvar : kind.isVarLike = false := by
    cases kind <;> first | rfl | cases hkind
  have hbody : role.isBody = true → kind.isLexical = true := by
    intro hbody
    have hstands := hshape.stands
    cases role <;> cases hbody
    all_goals simpa [BindingKind.standsIn, hvar] using hstands
  have hunbound := unbound_iff hholds (everywhere_iff.mp h).1 hshape hkind
  have hshadows := shadowsParameter_iff hholds.roles outer name
  have hfits : Fits repeatFunctions role done [.declaration name kind offset] outer ↔
      (∀ existing, frame.find? name = some existing →
        repeatFunctions = true ∧ existing = .functionLexical ∧ kind = .functionLexical) ∧
      ¬(⟨frame, outer⟩ : Stack).shadowsParameter name = true := by
    rw [fits_declaration h hshape, hunbound, hshadows]
    grind
  have hescaping : hoisted [Item.declaration name kind offset] = [] := by
    simp [hoisted, escaping, hvar]
  by_cases hfit : Fits repeatFunctions role done [.declaration name kind offset] outer
  · obtain ⟨hfree, hshadow⟩ := hfits.mp hfit
    unfold Item.run
    rw [hdeclare, declareLexical_ok hfree (by simpa using hshadow)]
    refine ⟨hfit, _, outer, rfl, hholds.bind hvar (fun d hd hname => ?_) offset, ?_⟩
    · have hbinds := (hholds.binds name).mpr (.inl (List.mem_map.mpr ⟨d, hd, hname⟩))
      obtain ⟨existing, hfind⟩ := Option.isSome_iff_exists.mp hbinds
      obtain ⟨-, -, rfl⟩ := hfree existing hfind
      exact ⟨fun _ => rfl, fun _ => rfl⟩
    · rw [hescaping]
      exact passes_nil role outer
  · unfold Item.run
    rw [hdeclare, declareLexical_error (mt hfits.mpr hfit)]
    exact hfit

theorem declaration_decides (hholds : frame.Holds role done)
    (h : Everywhere (fun _ => IsConsistent repeatFunctions) role done)
    (hshape : IsShaped role (done ++ .declaration name kind offset :: rest)) :
    Decides repeatFunctions role done [.declaration name kind offset] outer
      (Item.run repeatFunctions (.declaration name kind offset) ⟨frame, outer⟩) := by
  cases hvar : kind.isVarLike with
  | true => exact declareVar_decides hholds h hshape hvar
  | false =>
    cases hexclusive : kind.isExclusive with
    | true => exact declareLexical_decides hholds h hshape hexclusive
    | false =>
      have hkind : kind = .parameter := by
        revert hvar hexclusive
        cases kind <;> decide
      subst hkind
      exact declareParameter_decides hholds h hshape

end Declaration

section Run

variable {repeatFunctions : Bool} {role inner : Role} {done items rest body : List Item}
  {frame : Frame} {outer outer' : List Frame}

/-- What stands around a body when it opens is what was declared there. -/
theorem isTaken_iff (hholds : frame.Holds role done)
    (hshape : IsShaped role (done ++ .scope inner body :: rest)) (hinner : inner.isBody = true)
    (name : String) :
    IsTaken (frame :: outer) name ↔ ∃ e ∈ declared done, e.1 = name := by
  have haround := hshape.around inner body (by simp)
  have hsignature : role.isSignature = true := by
    unfold Role.isSignature
    rcases Bool.or_eq_true_iff.mp hinner with hbody | hbody
    · rw [haround.1 (beq_iff_eq.mp hbody), Bool.true_or]
    · rw [haround.2 (beq_iff_eq.mp hbody)]
      rfl
  have hnone : hoisted done = [] := by
    rcases Bool.or_eq_true_iff.mp hsignature with hparams | hcatch
    · have hstill := hshape.still (.inl hparams)
      rw [hoisted_append] at hstill
      exact (List.append_eq_nil_iff.mp hstill).1
    · rw [beq_iff_eq.mp hcatch] at hshape
      exact hshape.hoisted_handler
  unfold IsTaken
  simp only [List.head?_cons, Option.mem_some_iff, exists_eq_left', has_of_roles hholds.roles,
    hsignature, true_and]
  rw [hholds.binds, hnone]
  simp

/-- A scope fits into the scope around it if what stands in it fits there. -/
theorem fits_scope (hholds : frame.Holds role done)
    (h : Everywhere (fun _ => IsConsistent repeatFunctions) role done)
    (hshape : IsShaped role (done ++ .scope inner body :: rest)) :
    Fits repeatFunctions role done [.scope inner body] outer ↔
      Fits repeatFunctions inner [] body (frame :: outer) := by
  have hdeclared : declared (done ++ [.scope inner body]) = declared done := by
    rw [declared_append, declared, declared, List.append_nil]
  have hhoisted : hoisted (done ++ [.scope inner body]) =
      hoisted done ++ hoisted [.scope inner body] := hoisted_append _ _
  have hescaping {name : String} : name ∈ hoisted [Item.scope inner body] ↔
      inner.isVarBoundary = false ∧ name ∈ hoisted body := by
    rw [hoisted, hoisted, List.append_nil, escaping]
    cases inner.isVarBoundary <;> simp
  rw [everywhere_iff] at h
  constructor
  · intro hfits
    obtain ⟨hconsistent, hinside⟩ := everywhere_iff.mp hfits.inside
    refine ⟨hinside inner body (by simp), fun hinner name hmem hrefused => ?_,
      fun hinner d hd hlexical htaken => ?_⟩
    · have hmem' := hescaping.mpr ⟨hinner, hmem⟩
      rcases hrefused with hrefuses | ⟨hopen, hrefused⟩
      · obtain ⟨d, hd, rfl, hkind⟩ := (hholds.refuses name).mp hrefuses
        refine hconsistent.apart d (by rwa [hdeclared]) hkind ?_
        rw [hhoisted]
        exact List.mem_append_right _ hmem'
      · rw [has_of_roles hholds.roles] at hopen
        exact hfits.outside hopen name hmem' hrefused
    · obtain ⟨e, he, hname⟩ := (isTaken_iff hholds hshape hinner d.1).mp htaken
      exact hconsistent.bodies inner body (by simp) hinner d hd hlexical e
        (by rwa [hdeclared]) hname
  · intro hfits
    refine ⟨everywhere_iff.mpr ⟨⟨?_, fun d hd hrefuses hmem => ?_,
      fun inner' body' hmem hinner d hd hlexical e he hname => ?_⟩, fun inner' body' hmem => ?_⟩,
      fun hopen name hmem hrefused => ?_, fun _ d hd => by cases hd⟩
    · rw [hdeclared]
      exact h.1.distinct
    · rw [hdeclared] at hd
      rw [hhoisted, List.mem_append] at hmem
      rcases hmem with hmem | hmem
      · exact h.1.apart d hd hrefuses hmem
      · obtain ⟨hinner, hmem⟩ := hescaping.mp hmem
        exact hfits.outside hinner d.1 hmem (.inl ((hholds.refuses d.1).mpr ⟨d, hd, rfl, hrefuses⟩))
    · rw [hdeclared] at he
      rw [List.mem_append, List.mem_singleton] at hmem
      rcases hmem with hmem | hmem
      · exact h.1.bodies inner' body' hmem hinner d hd hlexical e he hname
      · cases hmem
        exact hfits.signature hinner d hd hlexical
          ((isTaken_iff hholds hshape hinner d.1).mpr ⟨e, he, hname⟩)
    · rw [List.mem_append, List.mem_singleton] at hmem
      rcases hmem with hmem | hmem
      · exact h.2 inner' body' hmem
      · cases hmem
        exact hfits.inside
    · obtain ⟨hinner, hmem⟩ := hescaping.mp hmem
      refine hfits.outside hinner name hmem (.inr ⟨?_, hrefused⟩)
      rwa [has_of_roles hholds.roles]

theorem Fits.head {item : Item} (h : Fits repeatFunctions role done (item :: rest) outer) :
    Fits repeatFunctions role done [item] outer := by
  have hinside := h.inside
  rw [List.append_cons] at hinside
  refine ⟨everywhere_left hinside, fun hopen name hmem => ?_, fun hbody d hd hlexical => ?_⟩
  · refine h.outside hopen name ?_
    rw [← List.singleton_append, hoisted_append]
    exact List.mem_append_left _ hmem
  · refine h.signature hbody d ?_ hlexical
    rw [← List.singleton_append, declared_append]
    exact List.mem_append_left _ hd

/-- Items fit one after the other. -/
theorem fits_cons {item : Item} (hpass : Passes role (hoisted [item]) outer outer') :
    Fits repeatFunctions role done (item :: rest) outer ↔
      Fits repeatFunctions role done [item] outer ∧
        Fits repeatFunctions role (done ++ [item]) rest outer' := by
  have hdeclared : declared (item :: rest) = declared [item] ++ declared rest :=
    declared_append [item] rest
  have hhoisted : hoisted (item :: rest) = hoisted [item] ++ hoisted rest :=
    hoisted_append [item] rest
  constructor
  · intro h
    have hinside := h.inside
    rw [List.append_cons] at hinside
    refine ⟨h.head, hinside, fun hopen name hmem hrefused => ?_,
      fun hbody d hd hlexical htaken => ?_⟩
    · refine h.outside hopen name ?_ ((hpass.isRefused_iff name).mp hrefused)
      rw [hhoisted]
      exact List.mem_append_right _ hmem
    · have hd' : d ∈ declared (item :: rest) := by
        rw [hdeclared]
        exact List.mem_append_right _ hd
      rcases hpass.isTaken htaken with htaken | hmem
      · exact h.signature hbody d hd' hlexical htaken
      · -- A variable of the name came out of the item, so the name is in conflict with it.
        refine (everywhere_iff.mp h.inside).1.apart d ?_ ?_ ?_
        · rw [declared_append]
          exact List.mem_append_right _ hd'
        · rw [BindingKind.refusesVar, hlexical, Bool.true_or]
        · rw [hoisted_append, hhoisted]
          exact List.mem_append_right _ (List.mem_append_left _ hmem)
  · rintro ⟨hitem, hrest⟩
    have hinside := hrest.inside
    rw [← List.append_cons] at hinside
    refine ⟨hinside, fun hopen name hmem hrefused => ?_, fun hbody d hd hlexical htaken => ?_⟩
    · rw [hhoisted, List.mem_append] at hmem
      rcases hmem with hmem | hmem
      · exact hitem.outside hopen name hmem hrefused
      · exact hrest.outside hopen name hmem ((hpass.isRefused_iff name).mpr hrefused)
    · rw [hdeclared, List.mem_append] at hd
      rcases hd with hd | hd
      · exact hitem.signature hbody d hd hlexical htaken
      · exact hrest.signature hbody d hd hlexical (hpass.isTaken_of htaken)

/-- What the first item and the rest decide, all of them decide. -/
theorem Decides.cons {item : Item} {first : Except Error Stack}
    (h : Decides repeatFunctions role done [item] outer first)
    (hrest : ∀ frame outer', frame.Holds role (done ++ [item]) →
      Everywhere (fun _ => IsConsistent repeatFunctions) role (done ++ [item]) →
        Decides repeatFunctions role (done ++ [item]) rest outer'
          (runAll repeatFunctions rest ⟨frame, outer'⟩)) :
    Decides repeatFunctions role done (item :: rest) outer
      (first >>= runAll repeatFunctions rest) := by
  cases first with
  | error error =>
    exact fun hfits => h hfits.head
  | ok stack =>
    obtain ⟨hfits, frame, outer', rfl, hholds, hpass⟩ := h
    have hnext := hrest frame outer' hholds hfits.inside
    have hcons : Fits repeatFunctions role done (item :: rest) outer ↔ _ := fits_cons hpass
    change Decides _ _ _ _ _ (runAll repeatFunctions rest ⟨frame, outer'⟩)
    cases hrun : runAll repeatFunctions rest ⟨frame, outer'⟩ with
    | error error =>
      rw [hrun] at hnext
      exact fun hall => hnext (hcons.mp hall).2
    | ok stack =>
      rw [hrun] at hnext
      obtain ⟨hfits', frame', outer'', rfl, hholds', hpass'⟩ := hnext
      refine ⟨hcons.mpr ⟨hfits, hfits'⟩, frame', outer'', rfl, ?_, ?_⟩
      · rwa [List.append_cons]
      · have hall := hpass.trans hpass'
        rwa [← hoisted_append] at hall

/-- What a scope decides, once what stands in it is decided. -/
theorem scope_decides (hholds : frame.Holds role done)
    (h : Everywhere (fun _ => IsConsistent repeatFunctions) role done)
    (hshape : IsShaped role (done ++ .scope inner body :: rest))
    (hbody : Decides repeatFunctions inner [] body (frame :: outer)
      (runAll repeatFunctions body ⟨Frame.ofRoles [inner], frame :: outer⟩)) :
    Decides repeatFunctions role done [.scope inner body] outer
      (Item.run repeatFunctions (.scope inner body) ⟨frame, outer⟩) := by
  have hfits : Fits repeatFunctions role done [.scope inner body] outer ↔ _ :=
    fits_scope hholds h hshape
  have hrun : Item.run repeatFunctions (.scope inner body) ⟨frame, outer⟩ =
      (runAll repeatFunctions body ⟨Frame.ofRoles [inner], frame :: outer⟩).map Stack.pop := by
    unfold Item.run
    cases hrun : runAll repeatFunctions body ⟨Frame.ofRoles [inner], frame :: outer⟩ with
    | ok stack => exact congrArg (Except.map Stack.pop) hrun
    | error error => exact congrArg (Except.map Stack.pop) hrun
  rw [hrun]
  cases hresult : runAll repeatFunctions body ⟨Frame.ofRoles [inner], frame :: outer⟩ with
  | error error =>
    rw [hresult] at hbody
    exact fun hfit => hbody (hfits.mp hfit)
  | ok stack =>
    rw [hresult] at hbody
    obtain ⟨hfit, closed, frames, rfl, -, hpass⟩ := hbody
    have hescaping : hoisted [Item.scope inner body] =
        if inner.isVarBoundary then [] else hoisted body := by
      rw [hoisted, hoisted, List.append_nil, escaping]
    obtain ⟨frame', outer', rfl, hrecords, hpass'⟩ : ∃ frame' outer', frames = frame' :: outer' ∧
        frame.Records frame' (hoisted [.scope inner body]) ∧
          Passes role (hoisted [.scope inner body]) outer outer' := by
      unfold Passes at hpass
      rw [hescaping]
      split at hpass
      · rename_i hboundary
        rw [if_pos hboundary]
        exact ⟨frame, outer, hpass, .refl frame, passes_nil role outer⟩
      · rename_i hboundary
        rw [if_neg hboundary]
        obtain ⟨frame', outer', hframes, hrecords, hrest⟩ := hpass
        rw [has_of_roles hholds.roles] at hrest
        exact ⟨frame', outer', hframes, hrecords, hrest⟩
    exact ⟨hfits.mpr hfit, frame', outer', rfl, hholds.record hrecords (by simp [declared]), hpass'⟩

mutual

theorem run_decides (item : Item) {role : Role} {done rest : List Item} {frame : Frame}
    {outer : List Frame} (hholds : frame.Holds role done)
    (h : Everywhere (fun _ => IsConsistent repeatFunctions) role done)
    (hshape : Everywhere IsShaped role (done ++ item :: rest)) :
    Decides repeatFunctions role done [item] outer (item.run repeatFunctions ⟨frame, outer⟩) := by
  obtain ⟨hhere, hinside⟩ := everywhere_iff.mp hshape
  match item with
  | .declaration name kind offset => exact declaration_decides hholds h hhere
  | .scope inner body =>
    have hconsistent : Everywhere (fun _ => IsConsistent repeatFunctions) inner [] := by
      refine everywhere_iff.mpr ⟨⟨.nil, by simp [declared], by simp⟩, by simp⟩
    refine scope_decides hholds h hhere ?_
    exact runAll_decides body (Frame.holds_ofRoles inner) hconsistent (hinside inner body (by simp))

theorem runAll_decides (items : List Item) {role : Role} {done : List Item} {frame : Frame}
    {outer : List Frame} (hholds : frame.Holds role done)
    (h : Everywhere (fun _ => IsConsistent repeatFunctions) role done)
    (hshape : Everywhere IsShaped role (done ++ items)) :
    Decides repeatFunctions role done items outer
      (runAll repeatFunctions items ⟨frame, outer⟩) := by
  match items with
  | [] =>
    have hfits : Fits repeatFunctions role done [] outer := by
      refine ⟨by rwa [List.append_nil], fun _ _ hmem => ?_, fun _ _ hd => ?_⟩
      · cases hmem
      · cases hd
    exact ⟨hfits, frame, outer, rfl, by rwa [List.append_nil], passes_nil role outer⟩
  | item :: rest =>
    rw [runAll]
    refine (run_decides item hholds h hshape).cons fun frame' outer' hholds' h' => ?_
    refine runAll_decides rest hholds' h' ?_
    rwa [← List.append_cons]

end

end Run

/-- Every declaration of a tree of scopes is accepted if and only if no scope of the tree
has a conflict, in whatever order its declarations and the scopes in it come. -/
theorem runAll_isOk_iff {items : List Item} (hshape : Everywhere IsShaped .topLevel items)
    (repeatFunctions : Bool) :
    (∃ stack, runAll repeatFunctions items Stack.initial = .ok stack) ↔
      Everywhere (fun _ => IsConsistent repeatFunctions) .topLevel items := by
  have hempty : Everywhere (fun _ => IsConsistent repeatFunctions) .topLevel [] :=
    everywhere_iff.mpr ⟨⟨.nil, by simp [declared], by simp⟩, by simp⟩
  have hdecides : Decides repeatFunctions .topLevel [] items []
      (runAll repeatFunctions items ⟨Frame.ofRoles [.topLevel], []⟩) :=
    runAll_decides items (Frame.holds_ofRoles .topLevel) hempty hshape
  constructor
  · rintro ⟨stack, hrun⟩
    change runAll repeatFunctions items ⟨Frame.ofRoles [.topLevel], []⟩ = _ at hrun
    rw [hrun] at hdecides
    exact hdecides.1.inside
  · intro hconsistent
    have hfits : Fits repeatFunctions .topLevel [] items [] := ⟨hconsistent, nofun, nofun⟩
    change ∃ stack, runAll repeatFunctions items ⟨Frame.ofRoles [.topLevel], []⟩ = _
    cases hrun : runAll repeatFunctions items ⟨Frame.ofRoles [.topLevel], []⟩ with
    | ok stack => exact ⟨stack, rfl⟩
    | error error =>
      rw [hrun] at hdecides
      exact absurd hfits hdecides

/-- A scope without bodies that lets variables through only has to declare what may stand
in it. -/
theorem isShaped_of_no_body {role : Role} {items : List Item} (hrole : role.isSignature = false)
    (hclass : role ≠ .classScope) (hkinds : ∀ d ∈ declared items, d.2.standsIn role = true)
    (hbody : ∀ inner body, .scope inner body ∈ items → inner.isBody = false) :
    IsShaped role items := by
  have hparams : role.isParams = false := (Bool.or_eq_false_iff.mp hrole).1
  refine ⟨hkinds, fun inner body hmem => ⟨?_, ?_⟩, fun before inner body after hitems hinner => ?_,
    fun h => ?_, fun hcatch => ?_⟩
  · rintro rfl
    cases hbody _ body hmem
  · rintro rfl
    cases hbody _ body hmem
  · rw [hbody inner body (by simp [hitems])] at hinner
    cases hinner
  · rw [hparams] at h
    exact absurd (h.resolve_left nofun) hclass
  · rw [hcatch] at hrole
    cases hrole

/-- A variable in a block, a handler whose body declares again the name that is caught, and
behind them a lexical name. -/
def handlerScopes : List Item :=
  [.scope .block [.declaration "x" .varName 0],
    .scope .catchParam [.declaration "e" .catchSimple 1,
      .scope .catchBody [.declaration "e" .varName 2]],
    .declaration "x" .letName 3]

theorem handlerScopes_isShaped : Everywhere IsShaped .topLevel handlerScopes := by
  have hblock : Everywhere IsShaped .block [.declaration "x" .varName 0] :=
    everywhere_iff.mpr ⟨isShaped_of_no_body rfl nofun (by decide) (by simp), by simp⟩
  have hbody : Everywhere IsShaped .catchBody [.declaration "e" .varName 2] :=
    everywhere_iff.mpr ⟨isShaped_of_no_body rfl nofun (by decide) (by simp), by simp⟩
  have hparam : IsShaped .catchParam [.declaration "e" .catchSimple 1,
      .scope .catchBody [.declaration "e" .varName 2]] := by
    refine ⟨by decide, by simp, fun before inner body after hitems _ => ?_, by simp [Role.isParams],
      fun _ before last hitems => ?_⟩
    · cases before with
      | nil => cases hitems
      | cons first before =>
        cases before with
        | nil =>
          cases hitems
          rfl
        | cons second before => simp at hitems
    · have hbefore := congrArg List.dropLast hitems
      rw [List.dropLast_concat] at hbefore
      rw [← hbefore]
      rfl
  have hmem {inner : Role} {body : List Item} (h : .scope inner body ∈ handlerScopes) :
      inner = .block ∧ body = [.declaration "x" .varName 0] ∨
        inner = .catchParam ∧ body = [.declaration "e" .catchSimple 1,
          .scope .catchBody [.declaration "e" .varName 2]] := by
    simpa [handlerScopes] using h
  refine everywhere_iff.mpr ⟨isShaped_of_no_body rfl nofun (by decide) fun inner body h => ?_,
    fun inner body h => ?_⟩
  · rcases hmem h with ⟨rfl, -⟩ | ⟨rfl, -⟩
    · rfl
    · rfl
  · rcases hmem h with ⟨rfl, rfl⟩ | ⟨rfl, rfl⟩
    · exact hblock
    · refine everywhere_iff.mpr ⟨hparam, fun inner body h => ?_⟩
      obtain ⟨rfl, rfl⟩ : inner = .catchBody ∧ body = [.declaration "e" .varName 2] := by
        simpa using h
      exact hbody

theorem handlerScopes_conflict : Everywhere IsShaped .topLevel handlerScopes ∧
    runAll true handlerScopes Stack.initial = .error ⟨.duplicateBinding, "x", 3⟩ ∧
    ¬Everywhere (fun _ => IsConsistent true) .topLevel handlerScopes := by
  have hrun : runAll true handlerScopes Stack.initial = .error ⟨.duplicateBinding, "x", 3⟩ :=
    rfl
  refine ⟨handlerScopes_isShaped, hrun, fun hconsistent => ?_⟩
  obtain ⟨stack, hok⟩ := (runAll_isOk_iff handlerScopes_isShaped true).mpr hconsistent
  rw [hrun] at hok
  cases hok

end EcmaSyntax.Scope
