import Minilang.Proofs.Parsing.MirroredPrograms

/-!
# Renamed programs

What a program means depends on its tokens only, and on names only as far as it matters which of them are the
same. So two texts whose tokens are the same but for names are compiled to the same module but for names, or
are rejected for the same fault at the same token.
-/

namespace Minilang

/-- Whether two errors are the same but for names, at tokens with the same index. -/
inductive Diagnostic.Renamed (rename : String → String) (tokens others : List Token) :
    Diagnostic → Diagnostic → Prop
  | unexpected {index : Nat} {token other : Token} (expected : Expectation) (found : TokenKind) :
      tokens[index]? = some token → others[index]? = some other →
      Renamed rename tokens others (.unexpected token.location expected found)
        (.unexpected other.location expected (found.rename rename))
  | semantic {index : Nat} {token other : Token} (error : SemanticError) :
      tokens[index]? = some token → others[index]? = some other →
      Renamed rename tokens others (.semantic token.location error)
        (.semantic other.location (error.rename rename))

/-- The names among tokens. -/
def Token.names (tokens : List Token) : Set String :=
  {name | .identifier name ∈ tokens.map Token.kind}

/-- A program in which things are called otherwise and stand elsewhere. -/
def Correspondence.ofTokens {rename : String → String} {tokens : List Token}
    (injective : (Token.names tokens).InjOn rename) (others : List Token) : Correspondence where
  rename := rename
  names := Token.names tokens
  injective _ _ member otherMember same := injective member otherMember same
  places location otherLocation := ∃ pair ∈ tokens.zip others,
    pair.1.location = location ∧ pair.2.location = otherLocation
  fault? := none
  base := .empty
  bound := []

variable {source other : Source} {rename : String → String} {tokens others : List Token}

/-- Lists of tokens that are the same but for names are streams that belong together. -/
theorem TokenStream.Ended.streams (ended : Ended tokens) {all allOthers : List Token}
    (injective : (Token.names all).InjOn rename)
    (kinds_eq : others.map Token.kind = (tokens.map Token.kind).map (TokenKind.rename rename))
    (named : ∀ token ∈ tokens, token ∈ all)
    (among : ∀ pair ∈ tokens.zip others, pair ∈ all.zip allOthers) :
    (Correspondence.ofTokens injective allOthers).Streams (ofTokens tokens) (ofTokens others) := by
  have belong {token other : Token} (kind_eq : other.kind = token.kind.rename rename)
      (member : token ∈ all) (pair : (token, other) ∈ all.zip allOthers) :
      (Correspondence.ofTokens injective allOthers).Tokens token other := by
    refine ⟨⟨fun name isName => ?_, kind_eq⟩, _, pair, rfl, rfl⟩
    exact List.mem_map.2 ⟨token, member, isName⟩
  induction ended generalizing others with
  | @last last end_reached =>
      obtain ⟨other, rfl, kind_eq⟩ : ∃ other, others = [other] ∧
          other.kind = last.kind.rename rename := by
        simpa [List.map_eq_singleton_iff] using kinds_eq
      exact .finished rfl (belong kind_eq (named last List.mem_cons_self)
        (among _ List.mem_cons_self))
  | @more first rest more ended induction =>
      cases others with
      | nil => cases kinds_eq
      | cons other others =>
          rw [List.map_cons, List.map_cons, List.map_cons, List.cons.injEq] at kinds_eq
          rw [List.forall_mem_cons] at named
          rw [List.zip_cons_cons, List.forall_mem_cons] at among
          have others_ne : others ≠ [] := by
            rintro rfl
            exact ended.ne_nil (List.map_eq_nil_iff.1 (List.map_eq_nil_iff.1 kinds_eq.2.symm))
          rw [ofTokens_cons ended.ne_nil, ofTokens_cons others_ne]
          exact .token (belong kinds_eq.1 named.1 among.1) more
            (induction kinds_eq.2 named.2 among.2)

/-- Texts whose tokens are the same but for names are compiled to modules that are the same but for names, or
are both rejected, for the same fault at the tokens with the same index. -/
theorem compile_renamed (tokenized : tokenize source = .ok tokens)
    (otherTokenized : tokenize other = .ok others)
    (injective : (Token.names tokens).InjOn rename)
    (kinds_eq : others.map Token.kind = (tokens.map Token.kind).map (TokenKind.rename rename)) :
    (∃ module otherModule, compile source = .ok module ∧ compile other = .ok otherModule ∧
      otherModule = { module.rename rename with name := otherModule.name }) ∨
    ∃ error otherError, compile source = .error error ∧ compile other = .error otherError ∧
      error.Renamed rename tokens others otherError := by
  have streams := (TokenStream.ofSource_eq_ofTokens tokenized).2.streams injective kinds_eq
    (fun _ member => member) fun _ member => member
  have renamed {error otherError : Diagnostic}
      (diagnostics : (Correspondence.ofTokens injective others).Diagnostics error otherError)
      (rejected : compile source = .error error) : error.Renamed rename tokens others otherError := by
    have at_index {location otherLocation : Location}
        (places : (Correspondence.ofTokens injective others).places location otherLocation) :
        ∃ (index : Nat) (token otherToken : Token), tokens[index]? = some token ∧
          others[index]? = some otherToken ∧ token.location = location ∧
          otherToken.location = otherLocation := by
      obtain ⟨⟨token, otherToken⟩, member, location_eq, otherLocation_eq⟩ := places
      obtain ⟨index, found⟩ := List.mem_iff_getElem?.1 member
      rw [List.getElem?_zip_eq_some] at found
      exact ⟨index, token, otherToken, found.1, found.2, location_eq, otherLocation_eq⟩
    cases diagnostics with
    | unexpected places kinds =>
        obtain ⟨index, token, otherToken, found, otherFound, rfl, rfl⟩ := at_index places
        rw [kinds.2]
        exact .unexpected _ _ found otherFound
    | semantic places _ =>
        obtain ⟨index, token, otherToken, found, otherFound, rfl, rfl⟩ := at_index places
        exact .semantic _ found otherFound
    | fault both => cases both
    | internal cause =>
        have faults := compile_faults source
        rw [rejected] at faults
        simp at faults
  have parsed := parseStream_mirrored ⟨rfl, rfl⟩ streams source.name other.name
  rw [← (TokenStream.ofSource_eq_ofTokens tokenized).1,
    ← (TokenStream.ofSource_eq_ofTokens otherTokenized).1, ← parse, ← parse] at parsed
  cases own : parse source with
  | error error =>
      rw [own] at parsed
      obtain ⟨otherError, otherParsed, diagnostics⟩ := parsed
      have rejected : compile source = .error error := by rw [compile, own]; rfl
      refine .inr ⟨error, otherError, rejected, ?_, renamed diagnostics rejected⟩
      rw [compile, otherParsed]
      rfl
  | ok program =>
      rw [own] at parsed
      obtain ⟨-, otherProgram, otherParsed, programs, declarations_eq⟩ := parsed
      have compile_eq : compile source = lower program := by rw [compile, own]; rfl
      have otherCompile_eq : compile other = lower otherProgram := by rw [compile, otherParsed]; rfl
      have lowered := lower_mirrored programs (parse_coherent own) (parse_coherent otherParsed)
        declarations_eq
      rw [← compile_eq, ← otherCompile_eq] at lowered
      cases compiled : compile source with
      | ok module =>
          rw [compiled] at lowered
          obtain ⟨otherModule, otherCompiled, same⟩ := lowered
          exact .inl ⟨module, otherModule, rfl, otherCompiled, same⟩
      | error error =>
          rw [compiled] at lowered
          obtain ⟨otherError, otherRejected, diagnostics⟩ := lowered
          exact .inr ⟨error, otherError, rfl, otherRejected, renamed diagnostics compiled⟩

/-- A program in which a parameter and a global variable are used side by side. -/
def sumUp : Source :=
  ⟨"t", "var total: int = 1; def add(x: int) -> int { total = total + x; return add(x) + total; }"⟩

/-- The same program in which the parameter and the global variable have changed their names. -/
def sumUpSwapped : Source :=
  ⟨"u", "var x: int = 1; # so far
def add(total: int)->int { x=x+total; return add(total)+x; }"⟩

theorem compile_renamed_of_sumUp :
    ∃ module otherModule, compile sumUp = .ok module ∧ compile sumUpSwapped = .ok otherModule ∧
      module.functions.length = 1 ∧ otherModule =
        { module.rename (Equiv.swap "x" "total") with name := otherModule.name } := by
  have reads : (tokenize sumUp).toOption.isSome = true ∧
      (tokenize sumUpSwapped).map (List.map Token.kind) = (tokenize sumUp).map fun tokens =>
        (tokens.map Token.kind).map (TokenKind.rename (Equiv.swap "x" "total")) := by
    decide +kernel
  have compiles :
      (compile sumUp).toOption.any (fun module => module.functions.length = 1) = true := by
    decide +kernel
  cases tokenized : tokenize sumUp with
  | error error =>
      rw [tokenized] at reads
      cases reads.1
  | ok tokens =>
      cases otherTokenized : tokenize sumUpSwapped with
      | error error =>
          rw [tokenized, otherTokenized] at reads
          cases reads.2
      | ok others =>
          rw [tokenized, otherTokenized] at reads
          obtain ⟨module, otherModule, compiled, otherCompiled, same⟩ | ⟨error, -, failed, -⟩ :=
            compile_renamed tokenized otherTokenized (Equiv.swap "x" "total").injective.injOn
              (Except.ok.inj reads.2)
          · rw [compiled] at compiles
            exact ⟨module, otherModule, compiled, otherCompiled, of_decide_eq_true compiles, same⟩
          · rw [failed] at compiles
            cases compiles

end Minilang
