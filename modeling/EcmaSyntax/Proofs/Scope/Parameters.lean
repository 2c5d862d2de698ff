import EcmaSyntax.Proofs.Scope.Frames

/-!
Parameters that are declared one after the other in a fresh scope: the error that the scope
keeps for later is about the first of them whose name stands before it. What is declared
behind the nearest boundary for variables does not reach that scope.

Names in the outermost scope. It is reached only by declarations that stand directly in it and by
variables that no boundary stops on the way out.
-/

namespace EcmaSyntax.Scope

/-- The first of the parameters that repeats the name of an earlier one. -/
def FirstRepeat (params : List (String × Nat)) (param : String × Nat) : Prop :=
  ∃ before after, params = before ++ param :: after ∧
    (before.map Prod.fst).Nodup ∧ param.1 ∈ before.map Prod.fst

theorem FirstRepeat.append {params others : List (String × Nat)} {param : String × Nat}
    (h : FirstRepeat params param) : FirstRepeat (params ++ others) param := by
  obtain ⟨before, after, rfl, hnodup, hmem⟩ := h
  exact ⟨before, after ++ others, by simp, hnodup, hmem⟩

namespace Stack

section Parameters

def declareParameters (stack : Stack) (params : List (String × Nat)) : Stack :=
  params.foldl (fun stack param => stack.declareParameter param.1 param.2) stack

/-- The frame keeps what there is to say about the parameters declared so far. -/
structure Keeps (frame : Frame) (params : List (String × Nat)) : Prop where
  binds : ∀ name, frame.Binds name ↔ name ∈ params.map Prod.fst
  none : frame.deferred = none → (params.map Prod.fst).Nodup
  some : ∀ error, frame.deferred = some error →
    ∃ param, FirstRepeat params param ∧ error = ⟨.duplicateParameter, param.1, param.2⟩

theorem Keeps.declareParameter {stack : Stack} {params : List (String × Nat)}
    (h : Keeps stack.current params) (param : String × Nat) :
    Keeps (stack.declareParameter param.1 param.2).current (params ++ [param]) := by
  have hbinds : ∀ name, (stack.current.bind param.1 .parameter).Binds name ↔
      name ∈ (params ++ [param]).map Prod.fst := by
    intro name
    rw [Frame.binds_bind, h.binds]
    simp
  unfold Stack.declareParameter
  dsimp only
  split
  · rename_i existing hexisting
    have hmem : param.1 ∈ params.map Prod.fst :=
      (h.binds _).mp (by rw [Frame.Binds, hexisting]; rfl)
    refine ⟨hbinds, fun hnone => ?_, fun error herror => ?_⟩
    · cases hdeferred : stack.current.deferred <;>
        simp [Frame.defer, Frame.bind, hdeferred] at hnone
    · cases hdeferred : stack.current.deferred with
      | none =>
        obtain rfl : Error.mk .duplicateParameter param.1 param.2 = error := by
          simpa [Frame.defer, Frame.bind, hdeferred] using herror
        exact ⟨param, ⟨params, [], rfl, h.none hdeferred, hmem⟩, rfl⟩
      | some kept =>
        obtain rfl : kept = error := by simpa [Frame.defer, Frame.bind, hdeferred] using herror
        obtain ⟨first, hfirst, hkept⟩ := h.some kept hdeferred
        exact ⟨first, hfirst.append, hkept⟩
  · rename_i hfree
    refine ⟨hbinds, fun hnone => ?_, fun error herror => ?_⟩
    · rw [List.map_append, List.map_singleton, List.nodup_append]
      refine ⟨h.none hnone, by simp, fun name hname other hother => ?_⟩
      obtain rfl : other = param.1 := by simpa using hother
      rintro rfl
      rw [← h.binds, Frame.Binds, hfree] at hname
      cases hname
    · obtain ⟨first, hfirst, hkept⟩ := h.some error herror
      exact ⟨first, hfirst.append, hkept⟩

theorem Keeps.declareParameters {stack : Stack} {earlier : List (String × Nat)}
    (h : Keeps stack.current earlier) (params : List (String × Nat)) :
    Keeps (stack.declareParameters params).current (earlier ++ params) := by
  induction params generalizing stack earlier with
  | nil => rwa [List.append_nil]
  | cons param rest ih =>
    have hrest := ih (h.declareParameter param)
    rwa [List.append_assoc] at hrest

/-- What the scope of parameters keeps when all of them are declared. -/
theorem keeps_parameters (stack : Stack) (roles : List Role) (params : List (String × Nat)) :
    Keeps ((stack.push roles).declareParameters params).current params := by
  have hfresh : Keeps (stack.push roles).current [] := by
    refine ⟨fun name => ?_, fun _ => List.nodup_nil, nofun⟩
    simp [Frame.Binds, push, Frame.ofRoles, Frame.find?, Bindings.find?]
  exact hfresh.declareParameters params

theorem outer_declareParameters (stack : Stack) (params : List (String × Nat)) :
    (stack.declareParameters params).outer = stack.outer := by
  induction params generalizing stack with
  | nil => rfl
  | cons param rest ih =>
    refine (ih _).trans ?_
    unfold declareParameter
    dsimp only
    split <;> rfl

/-- The current scope gives its error away. -/
theorem takeDeferred_depth (stack : Stack) :
    stack.takeDeferred stack.depth =
      (stack.current.deferred, { stack with current :=
        { stack.current with deferred := none } }) := by
  unfold takeDeferred
  simp [frames, ofFrames]

end Parameters

section Boundaries

/-- The frames around the nearest boundary for variables. -/
def beyond : List Frame → List Frame
  | [] => []
  | frame :: outer => if frame.has Role.isVarBoundary then outer else beyond outer

theorem beyond_boundary {frame : Frame} (h : frame.has Role.isVarBoundary = true)
    (outer : List Frame) : beyond (frame :: outer) = outer := if_pos h

theorem beyond_inner {frame : Frame} (h : frame.has Role.isVarBoundary = false)
    (outer : List Frame) : beyond (frame :: outer) = beyond outer :=
  if_neg (Bool.eq_false_iff.mp h)

/-- Names are declared no further out than the nearest boundary. -/
structure KeepsOuter (stack stack' : Stack) : Prop where
  roles : stack'.roles = stack.roles
  beyond : beyond stack'.frames = beyond stack.frames

namespace KeepsOuter

variable {a b c stack : Stack}

theorem refl : KeepsOuter a a := ⟨rfl, rfl⟩

theorem trans (h : KeepsOuter a b) (h' : KeepsOuter b c) : KeepsOuter a c :=
  ⟨h'.roles.trans h.roles, h'.beyond.trans h.beyond⟩

end KeepsOuter

theorem beyond_recordVar (name : String) (kind : BindingKind) (frames : List Frame) :
    beyond (recordVar name kind frames).1 = beyond frames := by
  induction frames generalizing kind with
  | nil => rfl
  | cons frame outer ih =>
    unfold recordVar
    split
    · rfl
    · rename_i recorded hrecorded
      have hhas : recorded.has Role.isVarBoundary = frame.has Role.isVarBoundary := by
        unfold Frame.has
        rw [Frame.roles_recordVar? hrecorded]
      split
      · rename_i hboundary
        rw [beyond, beyond, if_pos hboundary, if_pos (hhas.symm.trans hboundary)]
      · rename_i hboundary
        rw [beyond, beyond, if_neg hboundary, if_neg (hhas ▸ hboundary)]
        exact ih .varName

/-- A change to the current frame that leaves its roles alone. -/
theorem keepsOuter_current {stack : Stack} {frame : Frame} (h : frame.roles = stack.current.roles) :
    KeepsOuter stack { stack with current := frame } := by
  refine ⟨by simp [roles, frames, h], ?_⟩
  simp [frames, beyond, Frame.has, h]

theorem keepsOuter_declare (stack : Stack) (name : String) (kind : BindingKind) (offset : Nat)
    (repeatFunctions : Bool) :
    KeepsOuter stack (stack.declare name kind offset repeatFunctions).2 := by
  have hvar : KeepsOuter stack (stack.declareVar name kind offset).2 := by
    refine ⟨roles_declareVar .., ?_⟩
    have hbeyond := beyond_recordVar name kind stack.frames
    unfold declareVar
    dsimp only
    cases hrecorded : (recordVar name kind stack.frames).1 with
    | nil => rfl
    | cons current outer =>
      rw [hrecorded] at hbeyond
      exact hbeyond
  unfold declare
  split
  · exact hvar
  · exact hvar
  · unfold declareParameter
    dsimp only
    split
    · exact keepsOuter_current rfl
    · exact keepsOuter_current rfl
  · unfold declareLexical
    extract_lets conflict
    split
    · exact .refl
    · exact keepsOuter_current rfl

theorem KeepsOuter.has_current {stack inner : Stack} {roles : List Role}
    (h : KeepsOuter (stack.push roles) inner) (test : Role → Bool) :
    inner.current.has test = roles.any test :=
  congrArg (List.any · test) (List.cons.inj h.roles).1

/-- Behind a boundary nothing is declared further out. -/
theorem KeepsOuter.pop_boundary {stack inner : Stack} {roles : List Role}
    (hroles : roles.any Role.isVarBoundary = true) (h : KeepsOuter (stack.push roles) inner) :
    inner.pop = stack := by
  obtain ⟨current, outer⟩ := inner
  have hbeyond : outer = stack.frames := by
    rw [← beyond_boundary ((h.has_current _).trans hroles) outer]
    have hnew : (Frame.ofRoles roles).has Role.isVarBoundary = true := hroles
    exact h.beyond.trans (beyond_boundary hnew stack.frames)
  subst hbeyond
  rfl

/-- Other scopes may be closed again. -/
theorem KeepsOuter.pop {stack inner : Stack} {roles : List Role}
    (hroles : roles.any Role.isVarBoundary = false) (h : KeepsOuter (stack.push roles) inner) :
    KeepsOuter stack inner.pop := by
  have hpop := roles_pop h.roles stack.roles_ne_nil
  obtain ⟨current, outer⟩ := inner
  have hbeyond : Stack.beyond outer = Stack.beyond stack.frames := by
    rw [← beyond_inner ((h.has_current _).trans hroles) outer]
    have hnew : (Frame.ofRoles roles).has Role.isVarBoundary = false := hroles
    exact h.beyond.trans (beyond_inner hnew stack.frames)
  have houter : outer ≠ [] := by
    rintro rfl
    exact stack.roles_ne_nil (List.cons.inj h.roles).2.symm
  obtain ⟨frame, rest, rfl⟩ := List.exists_cons_of_ne_nil houter
  exact ⟨hpop, hbeyond⟩

end Boundaries

end Stack

theorem Frame.binds_recordVar? {frame recorded : Frame} {name other : String} {kind : BindingKind}
    (h : frame.recordVar? other kind = some recorded) (hbinds : recorded.Binds name) :
    frame.Binds name ∨ name = other := by
  unfold Frame.recordVar? at h
  split at h
  · split at h
    · cases h
    · cases h
      exact .inl hbinds
  · cases h
    exact (frame.binds_bind other name kind).mp hbinds

namespace Stack

variable {stack : Stack} {name other : String} {kind : BindingKind}

theorem getLast?_frames (stack : Stack) : stack.frames.getLast? = some stack.top :=
  List.getLast?_eq_some_getLast _

/-- The outermost of the frames binds the name. -/
def LastBinds (name : String) (frames : List Frame) : Prop :=
  ∃ frame ∈ frames.getLast?, frame.Binds name

theorem binds_top_iff : stack.top.Binds name ↔ LastBinds name stack.frames := by
  simp [LastBinds, getLast?_frames]

theorem lastBinds_cons {frame : Frame} {outer : List Frame} (h : outer ≠ []) :
    LastBinds name (frame :: outer) ↔ LastBinds name outer := by
  obtain ⟨first, rest, rfl⟩ := List.exists_cons_of_ne_nil h
  rw [LastBinds, List.getLast?_cons_cons, LastBinds]

theorem top_pop (h : stack.outer ≠ []) : stack.pop.top = stack.top := by
  obtain ⟨current, outer⟩ := stack
  obtain ⟨first, rest, rfl⟩ := List.exists_cons_of_ne_nil h
  rfl

theorem outer_ne_nil_of_depth {depth : Nat} (h : stack.depth = depth + 1) : stack.outer ≠ [] :=
  List.ne_nil_of_length_eq_add_one h

theorem depth_pop {depth : Nat} (h : stack.depth = depth + 1) : stack.pop.depth = depth := by
  obtain ⟨first, rest, heq⟩ := List.exists_cons_of_ne_nil (outer_ne_nil_of_depth h)
  obtain ⟨current, outer⟩ := stack
  cases heq
  exact Nat.succ.inj h

theorem depth_declare (stack : Stack) (name : String) (kind : BindingKind) (offset : Nat)
    (repeatFunctions : Bool) :
    (stack.declare name kind offset repeatFunctions).2.depth = stack.depth := by
  have hlength := congrArg List.length (roles_declare stack name kind offset repeatFunctions)
  simpa [roles, frames, depth] using hlength

theorem recordVar_ne_nil {frames : List Frame} (h : frames ≠ []) :
    (recordVar name kind frames).1 ≠ [] := by
  intro hnil
  have hroles := roles_recordVar name kind frames
  rw [hnil, List.map_nil] at hroles
  exact h (List.map_eq_nil_iff.mp hroles.symm)

/-- A variable is new in the outermost frame only if nothing stops it on the way out. -/
theorem lastBinds_recordVar {frames : List Frame}
    (h : LastBinds name (recordVar other kind frames).1) : LastBinds name frames ∨
      name = other ∧ ∀ frame ∈ frames.dropLast, frame.has Role.isVarBoundary = false := by
  induction frames generalizing kind with
  | nil => exact .inl h
  | cons frame outer ih =>
    unfold recordVar at h
    split at h
    · exact .inl h
    · rename_i recorded hrecorded
      have hhas : recorded.has Role.isVarBoundary = frame.has Role.isVarBoundary := by
        unfold Frame.has
        rw [Frame.roles_recordVar? hrecorded]
      by_cases houter : outer = []
      · subst houter
        have hlast : recorded.Binds name := by
          split at h
          · simpa [LastBinds] using h
          · simpa [LastBinds, recordVar] using h
        refine (Frame.binds_recordVar? hrecorded hlast).imp (fun hbinds => ?_) fun hname => ?_
        · simpa [LastBinds] using hbinds
        · exact ⟨hname, List.forall_mem_nil _⟩
      · rw [lastBinds_cons houter]
        split at h
        · exact .inl ((lastBinds_cons houter).mp h)
        · rename_i hopen
          refine (ih ((lastBinds_cons (recordVar_ne_nil houter)).mp h)).imp_right fun hname => ?_
          rw [List.dropLast_cons_of_ne_nil houter]
          refine ⟨hname.1, List.forall_mem_cons.mpr ⟨?_, hname.2⟩⟩
          rw [← hhas]
          exact Bool.eq_false_iff.mpr hopen

/-- A change to the current frame reaches the outermost scope only from there. -/
theorem binds_top_current {frame : Frame}
    (h : ({ stack with current := frame } : Stack).top.Binds name) :
    stack.top.Binds name ∨ stack.outer = [] ∧ frame.Binds name := by
  obtain ⟨current, outer⟩ := stack
  by_cases houter : outer = []
  · subst houter
    exact .inr ⟨rfl, h⟩
  · rw [binds_top_iff] at h ⊢
    exact .inl ((lastBinds_cons houter).mpr ((lastBinds_cons houter).mp h))

/-- The outermost scope gets a name that is declared in it, and that of a variable which may come
out of the scopes in it. -/
theorem binds_top_declare {offset : Nat} {repeatFunctions : Bool}
    (h : (stack.declare other kind offset repeatFunctions).2.top.Binds name) :
    stack.top.Binds name ∨ name = other ∧ (stack.outer = [] ∨
      kind.isVarLike = true ∧ stack.current.has Role.isVarBoundary = false) := by
  have hvar : kind.isVarLike = true → (stack.declareVar other kind offset).2.top.Binds name →
      stack.top.Binds name ∨ name = other ∧ (stack.outer = [] ∨
        kind.isVarLike = true ∧ stack.current.has Role.isVarBoundary = false) := by
    intro hkind h
    rw [binds_top_iff] at h ⊢
    have hframes : (stack.declareVar other kind offset).2.frames =
        (recordVar other kind stack.frames).1 := by
      unfold declareVar
      dsimp only
      cases hrecorded : (recordVar other kind stack.frames).1 with
      | nil => exact absurd hrecorded (recordVar_ne_nil (List.cons_ne_nil _ _))
      | cons current outer => rfl
    rw [hframes] at h
    refine (lastBinds_recordVar h).imp_right fun ⟨hname, hpasses⟩ => ⟨hname, ?_⟩
    by_cases houter : stack.outer = []
    · exact .inl houter
    · refine .inr ⟨hkind, hpasses _ ?_⟩
      rw [frames, List.dropLast_cons_of_ne_nil houter]
      exact List.mem_cons_self
  have hcurrent : ∀ frame : Frame,
      (∀ name, frame.Binds name → stack.current.Binds name ∨ name = other) →
      ({ stack with current := frame } : Stack).top.Binds name →
      stack.top.Binds name ∨ name = other ∧ (stack.outer = [] ∨
        kind.isVarLike = true ∧ stack.current.has Role.isVarBoundary = false) := by
    intro frame hframe h
    rcases binds_top_current h with h | ⟨houter, hbinds⟩
    · exact .inl h
    · refine (hframe name hbinds).imp (fun hold => ?_) fun hname => ⟨hname, .inl houter⟩
      obtain ⟨current, outer⟩ := stack
      cases houter
      exact hold
  unfold declare at h
  split at h
  · exact hvar rfl h
  · exact hvar rfl h
  · unfold declareParameter at h
    dsimp only at h
    have hbind := fun name => (stack.current.binds_bind other name .parameter).mp
    split at h
    · exact hcurrent ((stack.current.bind other .parameter).defer _) hbind h
    · exact hcurrent _ hbind h
  · unfold declareLexical at h
    extract_lets conflict at h
    split at h
    · exact .inl h
    · exact hcurrent _ (fun name => (stack.current.binds_bind other name kind).mp) h

end Stack

end EcmaSyntax.Scope
