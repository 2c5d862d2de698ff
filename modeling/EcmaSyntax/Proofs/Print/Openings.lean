import EcmaSyntax.Print.Program
import EcmaSyntax.Proofs.Formula.Text
import EcmaSyntax.Proofs.Lexer.Starts
import EcmaSyntax.Proofs.Tree.Places

/-!
The tokens that nothing behind a guard may start with, and texts that start with none of them:
words, signs and literals.
-/

namespace EcmaSyntax.Print

open EcmaSyntax.Lexer EcmaSyntax.Number EcmaSyntax.Tree EcmaSyntax.Unicode

section

variable {version : Nat} [Unicode.IdentifierChars version]

/-- The tokens that nothing behind the guard may start with. -/
def Guard.openings : Guard → List (List Token)
  | .statement =>
    [[.leftBrace], [.functionKeyword], [.asyncKeyword, .functionKeyword], [.classKeyword], [.at],
      [.letKeyword, .leftBracket]]
  | .arrowBody => [[.leftBrace]]
  | .exportDefault =>
    [[.functionKeyword], [.asyncKeyword, .functionKeyword], [.classKeyword], [.at]]
  | .none | .forHead => []

/-- The text starts with none of these tokens. -/
def Guard.Avoids (guard : Guard) (text : List Char) : Prop :=
  ∀ tokens ∈ guard.openings, ¬ StartsWith text tokens

/-- The same whatever comes after the text. -/
def Guard.Bars (guard : Guard) (text : String) : Prop :=
  ∀ rest, guard.Avoids (text.toList ++ rest)

/-- The same in front of all that may stand behind an expression. -/
def Guard.Shields (guard : Guard) (text : String) : Prop :=
  ∀ rest, Follows rest → guard.Avoids (text.toList ++ rest)

/-- The text may stand behind an expression with such a text after it. -/
def Attaches (text : String) : Prop := ∀ rest, Follows rest → Follows (text.toList ++ rest)

variable {guard : Guard} {c : Char} {name first more : String} {rest tail : List Char}
  {token kind : Token} {tokens : List Token}

section Openings

/-- The first tokens of what a guard is there for. -/
def openers : List Token :=
  [.leftBrace, .functionKeyword, .asyncKeyword, .classKeyword, .at, .letKeyword]

/-- One of these tokens stands first, and at most one more comes with it. -/
theorem Guard.exists_token (h : tokens ∈ guard.openings) :
    ∃ token more, tokens = token :: more ∧ more.length ≤ 1 ∧ token ∈ openers := by
  have hall : ∀ tokens ∈ guard.openings, tokens.length ≤ 2 ∧
      ∃ token ∈ openers, tokens.head? = some token := by
    cases guard <;> decide
  obtain ⟨hlength, token, hmem, hhead⟩ := hall tokens h
  obtain ⟨more, rfl⟩ := List.head?_eq_some_iff.mp hhead
  exact ⟨token, more, rfl, Nat.le_of_succ_le_succ hlength, hmem⟩

/-- A sign, which is no brace if the guard is there for braces. -/
theorem avoids_sign (hstart : isIdentifierStart c = false) (hc : c ∉ ['\\', '@'])
    (hbrace : c = '\x7b' → [.leftBrace] ∉ guard.openings) (rest : List Char) :
    guard.Avoids (c :: rest) := by
  intro tokens htokens hstarts
  obtain ⟨token, more, rfl, -, hmem⟩ := Guard.exists_token htokens
  simp only [List.mem_cons, List.not_mem_nil, or_false, not_or] at hc
  have hall : ∀ token ∈ openers, token.isWord = true ∨ token = .leftBrace ∨ token = .at := by
    decide
  rcases hall token hmem with hword | rfl | rfl
  · have hnone := hstarts.sign (by rintro rfl; cases hword) hstart hc.1
    cases hword.symm.trans hnone
  · refine hbrace (hstarts.signOf? rfl) ?_
    revert htokens
    cases guard <;> simp [Guard.openings]
  · exact hc.2 (hstarts.signOf? rfl)

/-- A name, if it does not start anything alone or together with what comes next. -/
theorem avoids_name (hname : IsName kind name) (hrest : Apart rest)
    (hone : [kind] ∉ guard.openings)
    (htwo : ∀ token, [kind, token] ∈ guard.openings → Next rest (· ≠ token)) :
    guard.Avoids (name.toList ++ rest) := by
  intro tokens htokens hstarts
  obtain ⟨token, more, rfl, hlength, hmem⟩ := Guard.exists_token htokens
  have hend : token ≠ .endOfSource := by
    rintro rfl
    revert hmem
    decide
  obtain ⟨rfl, s, hs, hreads⟩ := hstarts.name hend hname hrest
  cases more with
  | nil => exact hone htokens
  | cons second more =>
    obtain rfl := List.eq_nil_of_length_eq_zero (Nat.le_zero.mp (Nat.le_of_succ_le_succ hlength))
    obtain ⟨s', hscan, -⟩ := hreads
    exact htwo second htokens s s' second hs hscan rfl

/-- The keywords at the start of an expression, but for those of functions and classes. -/
def plainKeywords : List Token :=
  [.thisKeyword, .superKeyword, .trueKeyword, .falseKeyword, .nullKeyword, .newKeyword,
    .awaitKeyword, .importKeyword, .yieldKeyword, .typeofKeyword, .voidKeyword, .deleteKeyword]

theorem isName_plainKeyword (h : kind ∈ plainKeywords) : IsName kind kind.text := by
  have hspelled : IsSpelling kind kind.text ∧ kind.isWord = true := by
    simp only [plainKeywords, List.mem_cons, List.not_mem_nil, or_false] at h
    rcases h with rfl | rfl | rfl | rfl | rfl | rfl | rfl | rfl | rfl | rfl | rfl | rfl <;>
      exact ⟨⟨_, rfl, rfl, rfl, rfl⟩, rfl⟩
  exact hspelled.1.isName hspelled.2

theorem avoids_keyword (h : kind ∈ plainKeywords) (hrest : Apart rest) :
    guard.Avoids (kind.text.toList ++ rest) := by
  have hall : ∀ kind ∈ plainKeywords, kind ∉ openers := by decide
  have hnone : ∀ more, kind :: more ∉ guard.openings := by
    intro more hmem
    obtain ⟨token, others, heq, -, htoken⟩ := Guard.exists_token hmem
    obtain ⟨rfl, -⟩ := List.cons.inj heq
    exact hall kind h htoken
  exact avoids_name (isName_plainKeyword h) hrest (hnone []) fun token htoken =>
    absurd htoken (hnone [token])

theorem Guard.only_token (h : [kind] ∈ guard.openings) :
    kind.isReserved = true ∨ kind.isWord = false := by
  have hall : ∀ tokens ∈ guard.openings, ∀ kind ∈ tokens.head?, tokens.length = 1 →
      kind.isReserved = true ∨ kind.isWord = false := by
    cases guard <;> decide
  exact hall _ h kind rfl rfl

theorem Guard.second_token (h : [kind, token] ∈ guard.openings) :
    kind = .asyncKeyword ∧ token = .functionKeyword ∨
      guard = .statement ∧ kind = .letKeyword ∧ token = .leftBracket := by
  revert h
  cases guard <;> simp [Guard.openings]

/-- A reference, which is not `let` where an expression statement starts with it and a bracket
follows. -/
theorem avoids_reference (hword : IsWord name) (hreference : IsReference name)
    (hrest : Follows rest)
    (hlet : guard = .statement → name = "let" → Next rest (· ≠ .leftBracket)) :
    guard.Avoids (name.toList ++ rest) := by
  cases hkeyword : Token.ofKeyword? name with
  | none =>
    have hname : IsName .identifier name := ⟨hword.fits, hword.nonempty, by rw [hkeyword]; rfl⟩
    refine avoids_name hname hrest.apart (by cases guard <;> decide) fun token htoken => ?_
    rcases Guard.second_token htoken with ⟨hkind, -⟩ | ⟨-, hkind, -⟩ <;> cases hkind
  | some kind =>
    have hname : IsName kind name := ⟨hword.fits, hword.nonempty, by rw [hkeyword]; rfl⟩
    have hreserved := hreference kind hkeyword
    refine avoids_name hname hrest.apart (fun hone => ?_) fun token htoken => ?_
    · have hkind := isWord_of_ofKeyword? name
      rw [hkeyword] at hkind
      rcases Guard.only_token hone with hone | hone
      · cases hreserved.symm.trans hone
      · cases hone.symm.trans hkind
    · rcases Guard.second_token htoken with ⟨-, rfl⟩ | ⟨hguard, rfl, rfl⟩
      · exact hrest.next
      · have hspelled := List.find?_some hkeyword
        exact hlet hguard (beq_iff_eq.mp hspelled).symm

/-- An arrow function that is asynchronous starts like no function. -/
theorem avoids_asyncArrow (rest : List Char) :
    guard.Avoids ("async".toList ++ ' ' :: '(' :: rest) := by
  have hname : IsName .asyncKeyword "async" := IsSpelling.isName ⟨_, rfl, rfl, rfl, rfl⟩ rfl
  refine avoids_name hname (apart_sign (by decide) _) (by cases guard <;> decide)
    fun token htoken => ?_
  rcases Guard.second_token htoken with ⟨-, rfl⟩ | ⟨-, hkind, -⟩
  · exact next_space (startsToken_iff.mp rfl) (fun _ _ _ => rfl)
      (fun lexeme hread => by cases hread; exact nofun) nofun
  · cases hkind

theorem avoids_follows (h : Follows rest) : guard.Avoids rest := by
  cases rest with
  | nil =>
    intro tokens htokens hstarts
    obtain ⟨token, more, rfl, -, hmem⟩ := Guard.exists_token htokens
    refine startsWith_nil (fun hend => ?_) hstarts
    rw [hend] at hmem
    revert hmem
    decide
  | cons c rest =>
    have hplain := h.plain c rfl
    simp only [List.mem_cons, List.not_mem_nil, or_false, not_or] at hplain
    obtain ⟨hpart, hescape⟩ := h.apart c rfl
    refine avoids_sign (h.begins c rfl) ?_ (fun hbrace => ?_) rest
    · simp [hescape, hplain]
    · exact absurd hbrace hplain.1

end Openings

section Texts

theorem Guard.Bars.append (h : guard.Bars first) (more : String) : guard.Bars (first ++ more) := by
  intro rest
  rw [String.toList_append, List.append_assoc]
  exact h _

theorem Guard.Bars.shields (h : guard.Bars first) : guard.Shields first := fun rest _ => h rest

theorem Guard.Shields.append (h : guard.Shields first) (hmore : Attaches more) :
    guard.Shields (first ++ more) := by
  intro rest hrest
  rw [String.toList_append, List.append_assoc]
  exact h _ (hmore rest hrest)

/-- The text starts with a sign. -/
theorem bars_sign {text : String} (htext : text.toList.head? = some c)
    (hstart : isIdentifierStart c = false) (hc : c ∉ ['\\', '@', '\x7b']) : guard.Bars text := by
  obtain ⟨tail, htail⟩ := List.head?_eq_some_iff.mp htext
  simp only [List.mem_cons, List.not_mem_nil, or_false, not_or] at hc
  intro rest
  rw [htail]
  exact avoids_sign hstart (by simp [hc.1, hc.2.1]) (fun hbrace => absurd hbrace hc.2.2) _

/-- The text starts with a keyword that ends there. -/
theorem bars_keyword {text : String} (kind : Token) (h : kind ∈ plainKeywords)
    (htext : text.toList = kind.text.toList ++ c :: tail)
    (hc : isIdentifierPart c = false ∧ c ≠ '\\') : guard.Bars text := by
  intro rest
  rw [htext, List.append_assoc]
  exact avoids_keyword h (apart_cons hc _)

theorem shields_keyword (kind : Token) (h : kind ∈ plainKeywords) : guard.Shields kind.text :=
  fun _ hrest => avoids_keyword h hrest.apart

theorem attaches_sign (htext : more.toList.head? = some c) (hc : c ∈ ".?[(\x60+,;)".toList) :
    Attaches more := by
  obtain ⟨tail, htail⟩ := List.head?_eq_some_iff.mp htext
  intro rest _
  rw [htail]
  exact .sign hc _

theorem attaches_update (operator : UpdateOperator) : Attaches operator.text := by
  cases operator with
  | increment => exact attaches_sign rfl (by decide)
  | decrement => exact fun rest hrest => .decrement hrest

theorem attaches_spaced [LawfulIdentifierChars version] {operator : Token} (h : Separates operator)
    (more : String) :
    Attaches (" " ++ operator.text ++ " " ++ more) := by
  intro rest _
  have htext : (" " ++ operator.text ++ " " ++ more).toList ++ rest =
      ' ' :: (operator.text.toList ++ ' ' :: (more.toList ++ rest)) := by simp
  rw [htext]
  exact .spaced h _

theorem attaches_question [LawfulIdentifierChars version] (more : String) :
    Attaches (" ? " ++ more) := by
  intro rest _
  have hspaced : isSpaced .question = true := by decide
  have htext : (" ? " ++ more).toList ++ rest =
      ' ' :: (Token.question.text.toList ++ ' ' :: (more.toList ++ rest)) := by
    rw [String.toList_append, List.append_assoc]
    rfl
  rw [htext]
  exact .spaced (.inl hspaced) _

/-- An operator between spaces after what stands before it. -/
theorem Guard.Shields.operation [LawfulIdentifierChars version] {operator : Token}
    (h : guard.Shields first) (hoperator : Separates operator) (more : String) :
    guard.Shields (first ++ " " ++ operator.text ++ " " ++ more) := by
  have htext : first ++ " " ++ operator.text ++ " " ++ more =
      first ++ (" " ++ operator.text ++ " " ++ more) := by simp only [String.append_assoc]
  rw [htext]
  exact h.append (attaches_spaced hoperator more)

theorem shields_parens {body : String} {isEnclosed : Bool}
    (h : isEnclosed = false → guard.Shields body) : guard.Shields (parens isEnclosed body) := by
  cases isEnclosed with
  | false => exact h rfl
  | true => exact (bars_sign (c := '(') (by simp [parens]) rfl (by decide)).shields

end Texts

section Literals

/-- The text starts with a sign, or it is empty. -/
theorem shields_head {text : String} (h : ∀ c, text.toList.head? = some c →
    isIdentifierStart c = false ∧ c ∉ ['\\', '@', '\x7b']) : guard.Shields text := by
  cases htext : text.toList with
  | nil =>
    intro rest hrest
    rw [htext]
    exact avoids_follows hrest
  | cons c tail =>
    have hhead : text.toList.head? = some c := by rw [htext]; rfl
    obtain ⟨hstart, hc⟩ := h c hhead
    exact (bars_sign hhead hstart hc).shields

theorem sign_of_opensLiteral (h : opensLiteral c = true) :
    isIdentifierStart c = false ∧ c ∉ ['\\', '@', '\x7b'] := by
  refine ⟨Bool.eq_false_iff.mpr fun hstart => ?_, fun hc => ?_⟩
  · have hdigit := not_isAsciiDigit_of_start hstart
    simp only [opensLiteral, hdigit, Bool.or_false, Bool.or_eq_true, beq_iff_eq] at h
    rcases h with ((rfl | rfl) | rfl) | rfl <;> exact absurd hstart Bool.false_ne_true
  · simp only [List.mem_cons, List.not_mem_nil, or_false] at hc
    rcases hc with rfl | rfl | rfl <;> exact absurd h (by decide)

theorem bars_opensLiteral {text : String} (h : OpensLiteral text.toList) : guard.Bars text := by
  obtain ⟨c, rest, htext, hc⟩ := h
  obtain ⟨hstart, hsign⟩ := sign_of_opensLiteral hc
  exact bars_sign (htext ▸ rfl) hstart hsign

theorem opensLiteral_of_mem_toDigits {n : Nat} (h : c ∈ Nat.toDigits 10 n) :
    opensLiteral c = true := by
  have hdigit : c.isDigit = true := Nat.isDigit_of_mem_toDigits (by decide) (by decide) h
  have hascii : isAsciiDigit c = true := hdigit
  simp [opensLiteral, hascii]

theorem opensLiteral_of_mem_shortest {tie : Tie} {significand : Nat} {exponent : Int}
    (h : c ∈ (shortest tie significand exponent).digits) : opensLiteral c = true := by
  have hsearch : ∀ (value : Nat) (interval : RoundingInterval) (unit : Nat × Nat) (fuel : Nat)
      (k : Int), ∃ n k', searchDigits tie value interval unit fuel k = significantOf n k' := by
    intro value interval unit fuel
    induction fuel with
    | zero => exact fun k => ⟨_, _, rfl⟩
    | succ fuel ih =>
      intro k
      unfold searchDigits
      split
      · exact ⟨_, _, rfl⟩
      · exact ih _
  obtain ⟨n, k, hfound⟩ : ∃ n k, shortest tie significand exponent = significantOf n k :=
    hsearch _ _ _ _ _
  rw [hfound] at h
  have hmem := (List.dropWhile_sublist _).subset (List.mem_reverse.mp h)
  exact opensLiteral_of_mem_toDigits (List.mem_reverse.mp hmem)

/-- The text is empty or opens a literal. -/
def HeadOpens (text : List Char) : Prop := ∀ d, text.head? = some d → opensLiteral d = true

theorem headOpens_cons (hc : opensLiteral c = true) (text : List Char) : HeadOpens (c :: text) := by
  rintro _ ⟨⟩
  exact hc

theorem headOpens_append {digits others : List Char} (hdigits : ∀ d ∈ digits, opensLiteral d = true)
    (hothers : HeadOpens others) : HeadOpens (digits ++ others) := by
  cases digits with
  | nil => exact hothers
  | cons d digits => exact headOpens_cons (hdigits d List.mem_cons_self) _

variable {s : Significant}

theorem headOpens_positional (h : ∀ d ∈ s.digits, opensLiteral d = true) :
    HeadOpens s.positional := by
  unfold Significant.positional
  split
  · exact headOpens_cons rfl _
  · dsimp only
    split
    · refine headOpens_append h fun d hd => ?_
      obtain rfl := List.eq_of_mem_replicate (List.mem_of_mem_head? hd)
      rfl
    · exact headOpens_append (fun d hd => h d (List.mem_of_mem_take hd)) (headOpens_cons rfl _)

theorem headOpens_mantissa (h : ∀ d ∈ s.digits, opensLiteral d = true) (power : List Char) :
    HeadOpens (s.mantissa ++ power) := by
  unfold Significant.mantissa
  split
  · exact headOpens_cons rfl _
  · rename_i d heq
    exact headOpens_cons (h d (heq ▸ List.mem_cons_self)) _
  · rename_i d more _ heq
    exact headOpens_cons (h d (heq ▸ List.mem_cons_self)) _

theorem headOpens_number (value : Binary64) : HeadOpens (numberText value).toList := by
  unfold numberText
  split
  · exact headOpens_cons rfl _
  · rename_i significand exponent
    have hdigits : ∀ d ∈ (shortest .up significand exponent).digits, opensLiteral d = true :=
      fun d hd => opensLiteral_of_mem_shortest hd
    split
    · exact headOpens_cons rfl _
    · dsimp only
      split
      · rw [String.toList_ofList]
        exact headOpens_positional hdigits
      · rw [String.toList_ofList]
        exact headOpens_mantissa hdigits _

/-- A number starts with a digit. -/
theorem shields_number (value : Binary64) : guard.Shields (numberText value) :=
  shields_head fun c hc => sign_of_opensLiteral (headOpens_number value c hc)

theorem shields_literal {lit : Literal} (h : lit.IsSpelled) : guard.Shields (literalText lit) := by
  have hkeyword : ∀ text ∈ ["true", "false", "null"], guard.Shields text := by
    simp only [List.mem_cons, List.not_mem_nil, or_false]
    rintro _ (rfl | rfl | rfl)
    · exact shields_keyword .trueKeyword (by decide)
    · exact shields_keyword .falseKeyword (by decide)
    · exact shields_keyword .nullKeyword (by decide)
  unfold literalText
  split
  · rename_i raw hraw
    rcases h.raw raw hraw with hopens | hmem
    · exact (bars_opensLiteral hopens).shields
    · exact hkeyword raw hmem
  · split
    · rename_i value _
      have hquote : (quoted value).toList.head? = some '"' := by simp [quoted]
      exact (bars_sign hquote rfl (by decide)).shields
    · exact shields_number _
    · exact hkeyword _ (by decide)
    · exact hkeyword _ (by decide)
    · exact hkeyword _ (by decide)
    · exact (bars_sign (c := '/') (by simp) (by rfl) (by decide)).shields
    · rename_i digits hvalue
      exact ((bars_opensLiteral (h.digits digits hvalue)).append _).shields

end Literals

end

end EcmaSyntax.Print
