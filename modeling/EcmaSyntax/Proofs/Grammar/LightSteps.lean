import EcmaSyntax.Proofs.Grammar.Light

/-!
The light steps of the grammar: names, literals, checks and whatever else declares no names
and reads none of the phrases that contain each other. What a conversion into patterns and
the tables of private names and exports complain about is raised where it is found.
-/

namespace EcmaSyntax.Scope

open EcmaSyntax.Diagnostic

/-- The error is one that is raised where it is found. -/
abbrev Error.IsImmediate (error : Error) : Prop := error.failure.IsImmediate

theorem PrivateNames.declare_isImmediate {classes : PrivateNames} {name : String}
    {kind : PrivateKind} {isStatic : Bool} {offset : Nat} {error : Error}
    (h : classes.declare name kind isStatic offset = .error error) : error.IsImmediate := by
  unfold declare at h
  split at h
  · cases h
    rfl
  · split at h
    · cases h
      rfl
    · split at h
      · cases h
      · cases h
        rfl

theorem PrivateNames.reference_isImmediate {classes : PrivateNames} {name : String}
    {offset : Nat} {error : Error} (h : classes.reference name offset = .error error) :
    error.IsImmediate := by
  unfold reference at h
  split at h
  · cases h
    rfl
  · cases h

theorem PrivateNames.exitClass_isImmediate {classes : PrivateNames} {error : Error}
    (h : classes.exitClass.1 = .error error) : error.IsImmediate := by
  unfold exitClass at h
  split at h
  · cases h
  · split at h
    · cases h
    · cases h
      rfl
  · cases h

theorem Exports.add_isImmediate {exports : Exports} {name : String} {offset : Nat}
    {error : Error} (h : exports.add name offset = .error error) : error.IsImmediate := by
  unfold add at h
  split at h
  · cases h
    rfl
  · cases h

theorem Exports.undeclared_isImmediate {exports : Exports} {scopes : Stack} {error : Error}
    (h : exports.undeclared? scopes = some error) : error.IsImmediate := by
  obtain ⟨entry, -, rfl⟩ := Option.map_eq_some_iff.mp h
  rfl

end EcmaSyntax.Scope

namespace EcmaSyntax.Grammar

open EcmaSyntax.Diagnostic EcmaSyntax.Lexer EcmaSyntax.Scope EcmaSyntax.Tree

variable {version : Nat} [Unicode.IdentifierChars version]

variable {α : Type}

section Names

instance : Light identifier := by unfold identifier; infer_instance

instance : Light privateName := by unfold privateName; infer_instance

instance : Light privateReference := by
  unfold privateReference
  refine .skip fun s => .skip fun name => .skip fun start => ?_
  split
  · rename_i error herror
    exact light_throw (PrivateNames.reference_isImmediate herror)
  · infer_instance

instance {key : Expression} {kind : PrivateKind} {isStatic : Bool} {offset : Nat} :
    Light (declarePrivate key kind isStatic offset) := by
  unfold declarePrivate
  split
  · refine .skip fun s => ?_
    split
    · rename_i error herror
      exact light_throw (PrivateNames.declare_isImmediate herror)
    · infer_instance
  · infer_instance

/-- The names that a class leaves to the one around it are known. -/
theorem light_exitClass (s : State) : Light (ofScope s.privateNames.exitClass.1) := by
  unfold ofScope
  split
  · infer_instance
  · rename_i error herror
    exact light_throw (PrivateNames.exitClass_isImmediate herror)

end Names

section Literals

instance {options : Options} : Light (keptRaw options) := by unfold keptRaw; infer_instance

instance {ctx : Context} : Light (literalValue ctx) := by
  unfold literalValue
  refine .skip fun flags => .skip fun token => ?_
  split <;> infer_instance

instance {options : Options} {ctx : Context} : Light (literal options ctx) := by
  unfold literal; infer_instance

instance {options : Options} : Light (regexLiteral options) := by
  unfold regexLiteral; infer_instance

instance {tagged isTail : Bool} : Light (templateElement tagged isTail) := by
  unfold templateElement; infer_instance

instance {start : Nat} : Light (noteSpread start) := by unfold noteSpread; infer_instance

instance {token : Token} {escaped : Bool} {start : Nat} {key : Expression} :
    Light (shorthandName token escaped start key) := by
  unfold shorthandName
  split <;> infer_instance

end Literals

section Functions

/-- A directive that makes code strict is taken into account. -/
theorem tells_add (prologue : Prologue) (simpleParams : Bool) (directive : String) (start : Nat)
    (hasOctalEscape : Bool) : Tells (fun after =>
      after.ctx = { prologue.ctx with
        strict := prologue.ctx.strict || directive == "use strict" } ∧
      (directive = "use strict" → simpleParams = true))
      (prologue.add simpleParams directive start hasOctalEscape) := by
  unfold Prologue.add
  generalize (prologue.octalEscape <|> if hasOctalEscape then some start else none) = octalEscape
  dsimp only
  split
  · rename_i hdirective
    refine .guard tells_failAt fun hsimple => ?_
    cases octalEscape with
    | none => exact .pure ⟨by simp [hdirective], fun _ => by simpa using hsimple⟩
    | some offset => exact .absurd tells_failAt
  · rename_i hdirective
    refine .pure ⟨?_, fun h => absurd (beq_iff_eq.mpr h) hdirective⟩
    rw [Bool.eq_false_iff.mpr hdirective, Bool.or_false]

instance {isAsync : Bool} : Light (functionStart isAsync) := by
  unfold functionStart; infer_instance

end Functions

section Classes

instance {token : Token} : Light (atModifier token) := by unfold atModifier; infer_instance

instance {isStatic : Bool} : Light (modifiers isStatic) := by
  unfold modifiers
  refine .skip fun isAsync => ?_
  extract_lets rest
  have hrest : ∀ u, Light (rest u) := fun u => .skip fun generator => inferInstance
  clear_value rest
  infer_instance

end Classes

section Markup

variable {g : Phrases}

instance {exit : MarkupExit} : Light (leaveTag exit) := by
  unfold leaveTag
  split <;> infer_instance

theorem nextInTag_isLegible (s : State) : Yields nextInTag (fun _ s' => s'.lexer.IsLegible) s := by
  unfold nextInTag advance
  refine .run rfl ((scan_isLegible _).withLexer.bind fun _ s₁ hs₁ => .run rfl ?_)
  obtain ⟨lexer, hlegible, rfl⟩ := hs₁
  split
  · refine .run rfl (.ok rfl ?_)
    change (State.recordComments _ lexer.comments).lexer.IsLegible
    obtain ⟨observations, hcomments⟩ := recordComments_frame _ lexer.comments
    rw [hcomments]
    exact hlegible.setComments
  · exact .pure hlegible

/-- A word of markup may be no name, but the token behind it is read anew. -/
theorem Strides.afterMarkupName {s s' : State} {lexer : Lexer.State}
    (hname : scanMarkupName s.lexer = .ok ⟨⟩ lexer) (h : Strides { s with lexer := lexer } s')
    (hlegible : s'.lexer.IsLegible) : Strides s s' := by
  have hrescan : ∀ text, Situated text s.lexer → Situated text lexer ∧
    lexer.start = s.lexer.start :=
    fun text hs => (situated_rescan hs fun _ htoken =>
      (scanMarkupName_meets htoken).weaken fun _ _ => trivial).result hname
  refine ⟨⟨h.scopes, h.lastYield, h.lastAwait, fun text hs => ?_, fun _ => hlegible⟩, h.exports,
    fun text hs hle => ?_⟩
  · obtain ⟨hlexer, hstart⟩ := hrescan text hs
    obtain ⟨hs', hle⟩ := h.goesOn text hlexer
    refine ⟨hs', Nat.le_trans (Nat.le_of_eq ?_) hle⟩
    exact (congrArg Cursor.offset hstart).symm
  · obtain ⟨hlexer, hstart⟩ := hrescan text hs
    refine h.previousEnd text hlexer (Nat.le_trans hle (Nat.le_of_eq ?_))
    exact (congrArg Cursor.offset hstart).symm

instance : Light markupIdentifier := by
  refine ⟨fun s => ?_⟩
  unfold markupIdentifier
  refine .run rfl ?_
  obtain ⟨lexer, hname⟩ : ∃ lexer, scanMarkupName s.lexer = .ok ⟨⟩ lexer := ⟨_, rfl⟩
  have hrun : withLexer scanMarkupName s = .ok ⟨⟩ { s with lexer := lexer } := by
    unfold withLexer
    rw [hname]
  split
  · exact (tells_fail s).bind fun _ _ h => h.2.elim
  · refine .run hrun (.run rfl (.run rfl ?_))
    refine (((inferInstance : Light nextInTag).moves _).and (nextInTag_isLegible _)).bind
      fun _ s₁ hs₁ => .pure (hs₁.1.afterMarkupName hname hs₁.2)

instance : Light expectClosingBrace := by unfold expectClosingBrace; infer_instance

instance : Loose (markupName g) := by
  unfold markupName
  refine .skip fun start => .skip fun first => .skip fun atColon => ?_
  split
  · infer_instance
  · exact Loose.bind (h := loose_iterate g.size _)

instance {name : MarkupName} : Loose (closingTag g name) := by
  unfold closingTag
  refine .skip fun start => .skip fun _ => .skip fun _ => .skip fun atEnd => ?_
  extract_lets rest
  have hrest : ∀ closing, Loose (rest closing) := by
    intro closing
    cases closing with
    | none => exact inferInstanceAs (Loose (failAt _ _))
    | some found => exact inferInstanceAs (Loose (ite _ _ _))
  clear_value rest
  infer_instance

end Markup

section Expressions

instance : Light propertyHead := by
  unfold propertyHead
  refine .skip fun isAsync => ?_
  extract_lets rest
  have hrest : ∀ u, Light (rest u) := fun u => .skip fun generator => inferInstance
  clear_value rest
  infer_instance

instance {name : String} {offset : Nat} : Light (noteAwaitName name offset) := by
  unfold noteAwaitName; infer_instance

instance {noted : Option Nat} {start : Nat} {cause : Cause} [cause.IsImmediate] :
    Light (checkNone noted start cause) := by
  unfold checkNone
  split <;> infer_instance

instance : Light checkArrow := by unfold checkArrow; infer_instance

instance {e : Expression} : Light (isBareArrow e) := by
  unfold isBareArrow
  split <;> infer_instance

instance {e : Expression} : Light (refusePrivateName e) := by
  unfold refusePrivateName
  split <;> infer_instance

instance {a b : Option Token} : Light (checkMixing a b) := by
  unfold checkMixing
  split <;> infer_instance

end Expressions

section Statements

variable {g : Phrases}

instance : Light atLetDeclaration := by unfold atLetDeclaration; infer_instance

instance : Light atAsyncFunction := by unfold atAsyncFunction; infer_instance

instance : Light atMisplacedLet := by unfold atMisplacedLet; infer_instance

instance : Light atImportDeclaration := by unfold atImportDeclaration; infer_instance

instance {kind : VariableKind} {declarator : VariableDeclarator} :
    Light (checkInitializer kind declarator) := by
  unfold checkInitializer; infer_instance

instance {name : String} {start : Nat} : Light (openLabel name start) := by
  unfold openLabel
  refine .skip fun s => .skip fun _ => ?_
  split <;> infer_instance

instance {isContinue : Bool} : Light (jumpLabel isContinue) := by
  unfold jumpLabel
  refine .skip fun name => .skip fun s => ?_
  split <;> infer_instance

instance {ctx : Context} {start : Nat} {isContinue : Bool} :
    Light (checkJump ctx start isContinue) := by
  unfold checkJump; infer_instance


instance {ctx : Context} {start : Nat} {kind : VariableKind} {isOf : Bool}
    {declarations : List VariableDeclarator} :
    Light (checkForDeclarators g ctx start kind isOf declarations) := by
  unfold checkForDeclarators
  dsimp only
  split <;> infer_instance

instance : Light forKeyword? := by unfold forKeyword?; infer_instance

instance {isAwait : Bool} {isOf : Option Bool} : Light (checkAwait isAwait isOf) := by
  unfold checkAwait; infer_instance

instance : Light forDeclaration? := by unfold forDeclaration?; infer_instance

end Statements

section Modules

variable {g : Phrases} {ctx : Context}

instance : Light (moduleName g ctx) := by unfold moduleName; infer_instance

instance : Light (expectString g ctx) := by unfold expectString; infer_instance

instance : Light (attributeKey g ctx) := by unfold attributeKey; infer_instance

instance {earlier : List ImportAttribute} : Light (importAttribute g ctx earlier) := by
  unfold importAttribute; infer_instance

instance : Loose (importAttributes g ctx) := by unfold importAttributes; infer_instance

instance : Loose (moduleSource g ctx) := by unfold moduleSource; infer_instance

instance : Loose (fromClause g ctx) := by unfold fromClause; infer_instance

/-- A change to what is exported. -/
instance {exports : State → Exports} :
    Loose (modify fun s => { s with exports := exports s } : Parser Unit) :=
  ⟨fun _ => .ok rfl (.of_same rfl rfl rfl rfl)⟩

instance {name : String} {offset : Nat} : Loose (addExport name offset) := by
  unfold addExport
  refine .skip fun s => ?_
  split
  · rename_i error herror
    have := light_throw (α := Unit) (Exports.add_isImmediate herror)
    infer_instance
  · infer_instance

instance {isLocal : Bool} {specifier : ExportSpecifier} :
    Loose (noteExport isLocal specifier) := by
  unfold noteExport; infer_instance

theorem tells_localFault :
    Tells (fun fault => ∀ failure ∈ fault, failure.IsImmediate) (localFault? ctx) := by
  unfold localFault?
  refine Tells.skip fun start => .skip fun token => ?_
  split
  · refine Tells.pure ?_
    rintro _ ⟨⟩
    rfl
  · refine Tells.skip fun atAwait => ?_
    split
    · refine Tells.skip fun s => .pure ?_
      rintro _ ⟨⟩
      rfl
    · exact .pure nofun

theorem tells_exportEntry :
    Tells (fun entry => ∀ failure ∈ entry.fault, failure.IsImmediate) (exportEntry g ctx) := by
  unfold exportEntry
  refine .skip fun start => tells_localFault.bind fun fault hfault => .skip fun binding => ?_
  refine .skip fun isNamed => ?_
  split
  · exact .skip fun _ => .skip fun exported => .skip fun span => .pure hfault
  · exact .skip fun exported => .skip fun span => .pure hfault

/-- What is wrong with an entry is no deferred cause. -/
theorem light_faults {entries : List ExportEntry}
    (h : ∀ entry ∈ entries, ∀ failure ∈ entry.fault, failure.IsImmediate) :
    Light ((entries.findSome? ExportEntry.fault).forM
      (fun failure => throw failure : Failure → Parser PUnit)) := by
  cases hfound : entries.findSome? ExportEntry.fault with
  | none => exact inferInstanceAs (Light (pure _))
  | some failure =>
    obtain ⟨entry, hentry, hfault⟩ := List.exists_of_findSome?_eq_some hfound
    exact light_throw (h entry hentry failure hfault)

instance : Light (exportEntry g ctx) := tells_exportEntry.light

theorem exportEntries_immediate (s : State) :
    Yields (g.listed .rightBrace fun _ => exportEntry g ctx)
      (fun entries _ => ∀ entry ∈ entries, ∀ failure ∈ entry.fault, failure.IsImmediate) s :=
  Phrases.listed_yields .rightBrace (fun _ s => ((tells_exportEntry s).mono fun _ _ h => h.2).weaken
    fun _ _ => trivial) s

instance {start : Nat} : Loose (exportNames g ctx start) := by
  unfold exportNames
  refine .skip fun _ => ⟨fun s => ?_⟩
  have hlisted := (inferInstance : Loose (g.listed .rightBrace fun _ => exportEntry g ctx)).moves s
  refine (hlisted.and (exportEntries_immediate s)).bind fun entries s₁ h => ?_
  have hfaults := light_faults h.2
  refine ((?_ : Loose _).moves s₁).mono fun _ _ => h.1.trans
  refine .skip fun _ => .skip fun isFrom => ?_
  extract_lets rest
  have hrest : ∀ found, Loose (rest found) := by
    intro found
    dsimp only [rest]
    infer_instance
  clear_value rest
  infer_instance

instance {options : Options} : Light (checkExports options) := by
  unfold checkExports
  split
  · refine .skip fun s => ?_
    cases herror : s.exports.undeclared? s.scopes with
    | none => exact inferInstanceAs (Light (pure _))
    | some error => exact light_throw (Exports.undeclared_isImmediate herror)
  · infer_instance

end Modules

end EcmaSyntax.Grammar
