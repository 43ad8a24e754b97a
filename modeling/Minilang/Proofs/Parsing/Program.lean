import Minilang.Parsing.Program
import Minilang.Proofs.Analysis.Coherence
import Minilang.Proofs.Parsing.Statements

/-!
# Parsing programs

A text is parsed into a coherent program, or the program in it is at fault.
-/

namespace Minilang

namespace Parser

open Analysis (AtTop DeclaresParameters DeclaresObject)

variable {before : ParserState} {fuel : Nat} {globals : List DeclId}

/-- A parameter is declared behind the others. -/
theorem parameter_parses {start : Analysis} {done : List DeclId} (within : before.Within fuel)
    (declares : DeclaresParameters start done before.analysis) :
    Parses (parameter fuel) before fun id after =>
      before.NotBefore after ∧ DeclaresParameters start (done ++ [id]) after.analysis := by
  rw [parameter, parses_bind]
  refine (expectIdentifier_parses within).mono ?_
  rintro token behindName ⟨⟨name, spelled⟩, behind, same⟩
  rw [parses_bind]
  refine (expectSign_parses (behind.notBefore.within within) .colon).mono ?_
  rintro _ behindColon ⟨colon_behind, colon_same⟩
  have behind := behind.trans colon_behind
  rw [parses_bind]
  refine (typeWithin_parses fuel behindColon (behind.notBefore.within within)).mono ?_
  rintro type behindType ⟨later, type_same⟩
  have behind := behind.trans_notBefore later
  rw [parses_check, type_same, colon_same, same]
  refine (Analysis.declareParameter_ensures token type).mono ?_
    fun _ _ rejects => rejects.2 ⟨name, spelled⟩
  rintro id after ⟨name', scopes, -, rfl, bound, after_eq⟩
  exact ⟨behind.notBefore, declares.append bound after_eq⟩

/-- The parameters of a function are declared one after another. -/
theorem parameters_parses {start : Analysis} (within : before.Within fuel)
    (declares : DeclaresParameters start [] before.analysis) :
    Parses (parameters fuel) before fun ids after =>
      before.NotBefore after ∧ DeclaresParameters start ids after.analysis := by
  rw [parameters, parses_bind]
  refine (peek_parses within).mono ?_
  rintro kind _ ⟨-, rfl⟩
  split
  · exact ⟨within.notBefore, declares⟩
  · exact sepByComma_parses (DeclaresParameters start) [] le_rfl
      (fun done state state_within held => parameter_parses state_within held) within declares

/-- A function is declared and defined at the top. -/
theorem function_parses (within : before.Within fuel) (atTop : AtTop globals before.analysis) :
    Parses (function fuel) before fun id after =>
      before.Behind after ∧ AtTop (globals ++ [id]) after.analysis := by
  rw [function, parses_bind]
  refine (expectWord_parses within .defWord).mono ?_
  rintro _ behindWord ⟨behind, word_same⟩
  rw [parses_bind]
  refine (expectIdentifier_parses (behind.notBefore.within within)).mono ?_
  rintro token behindName ⟨⟨name, spelled⟩, name_behind, name_same⟩
  have behind := behind.trans name_behind
  rw [parses_bind]
  refine (expectSign_parses (behind.notBefore.within within) .leftParen).mono ?_
  rintro _ behindParen ⟨paren_behind, paren_same⟩
  have behind := behind.trans paren_behind
  rw [parses_bind, parses_check, paren_same, name_same, word_same]
  refine Analysis.enterParameterScope_ensures.mono ?_ fun _ _ external => external
  rintro _ entered entered_eq
  have entered_behind : before.Behind (behindParen.withAnalysis entered) := behind
  have nil : DeclaresParameters before.analysis [] entered := entered_eq ▸ .nil before.analysis
  rw [parses_bind]
  refine (parameters_parses (entered_behind.notBefore.within within) nil).mono ?_
  rintro parameters behindParameters ⟨later, declares⟩
  have behind := entered_behind.trans_notBefore later
  rw [parses_bind]
  refine (expectSign_parses (behind.notBefore.within within) .rightParen).mono ?_
  rintro _ behindClose ⟨close_behind, close_same⟩
  have behind := behind.trans close_behind
  rw [parses_bind]
  refine (expectSign_parses (behind.notBefore.within within) .arrow).mono ?_
  rintro _ behindArrow ⟨arrow_behind, arrow_same⟩
  have behind := behind.trans arrow_behind
  rw [parses_bind]
  refine (typeWithin_parses fuel behindArrow (behind.notBefore.within within)).mono ?_
  rintro result behindResult ⟨result_later, result_same⟩
  have behind := behind.trans_notBefore result_later
  have popped : ∃ frame, behindParameters.analysis.scopes.pop? =
      some (frame, before.analysis.scopes) := by
    have outer_eq := declares.outer_eq
    cases frames : behindParameters.analysis.scopes.frames with
    | nil => exact absurd frames declares.frames_ne
    | cons frame outer =>
        rw [frames, List.tail_cons] at outer_eq
        exact ⟨frame, by rw [ScopeChain.pop?, frames, outer_eq]⟩
  obtain ⟨frame, popped⟩ := popped
  rw [parses_bind, parses_check, result_same, arrow_same, close_same]
  refine Analysis.leaveScope_ensures.mono ?_ fun _ _ rejects => rejects.2 ⟨_, _, popped⟩
  rintro _ left ⟨frame', outer, popped', rfl⟩
  cases popped.symm.trans popped'
  rw [parses_bind, parses_check]
  refine (Analysis.declareFunction_ensures token parameters result).mono ?_
    fun _ _ rejects => rejects.2 ⟨name, spelled⟩
  rintro id opened ⟨name', scopes, -, -, id_eq, bound, opened_eq⟩
  have inBody := atTop.inBody declares id_eq bound opened_eq
  have opened_behind : before.Behind (behindResult.withAnalysis opened) := behind
  rw [parses_bind]
  refine (block_parses (statementWithin_parses _ fuel)
    ((opened_behind.notBefore.within within).mono (Nat.le_succ fuel)) inBody).mono ?_
  rintro body behindBody ⟨body_behind, advances, scopes_eq⟩
  rw [parses_check]
  refine (Analysis.defineFunction_ensures id body).mono ?_ fun _ _ rejects => rejects.2 ?_
  · rintro id after ⟨type, parameters', -, kind_eq, rfl, rfl⟩
    exact ⟨opened_behind.trans body_behind,
      atTop.defines declares id_eq bound opened_eq advances scopes_eq kind_eq⟩
  · refine ⟨advances.inBody.inside, ?_⟩
    obtain ⟨result', types, kind_eq⟩ := advances.inBody.opened
    exact ⟨_, _, kind_eq⟩

/-- A declaration at the top is completed. -/
theorem declaration_parses (within : before.Within fuel) (atTop : AtTop globals before.analysis) :
    Parses (declaration fuel) before fun id after =>
      before.Behind after ∧ AtTop (globals ++ [id]) after.analysis := by
  have declares (kind : ObjectKind) :
      Parses (object kind fuel) before fun id after =>
        before.Behind after ∧ AtTop (globals ++ [id]) after.analysis :=
    (object_parses kind within atTop.namesTyped).mono
      fun _ _ parsed => ⟨parsed.1, atTop.declares parsed.2⟩
  rw [declaration, parses_bind]
  refine (peek_parses within).mono ?_
  rintro kind state ⟨⟨token, found, spelled⟩, rfl⟩
  split
  · exact declares .var
  · exact declares .const
  · rw [parses_bind]
    refine (lookahead_parses within 2).mono ?_
    rintro third _ ⟨-, rfl⟩
    split
    · exact declares .value
    · exact function_parses within atTop
    · exact misplacedDefinition_parses within found (by simp [spelled]) _
  · exact unexpected_parses within _

/-- Declarations up to the end of input are completed one after another. -/
theorem declarations_parses {limit : Nat} (fuel_le : fuel ≤ limit) (within : before.Within fuel)
    (atTop : AtTop globals before.analysis) :
    Parses (declarations (declaration limit) fuel) before fun ids after =>
      AtTop (globals ++ ids) after.analysis := by
  induction fuel generalizing before globals with
  | zero => exact absurd within.2 (Nat.not_lt_zero _)
  | succ fuel induction =>
      rw [declarations, parses_bind]
      refine (peek_parses within).mono ?_
      rintro kind state ⟨-, rfl⟩
      split
      · rw [parses_pure, List.append_nil]
        exact atTop
      · rw [parses_bind]
        refine (declaration_parses (within.mono fuel_le) atTop).mono ?_
        rintro id middle ⟨behind, atTop⟩
        rw [parses_bind]
        refine (induction (Nat.le_of_succ_le fuel_le) (behind.within within) atTop).mono ?_
        intro ids after atTop
        rw [parses_pure]
        rw [List.append_assoc] at atTop
        exact atTop

/-- A whole program is coherent. -/
theorem program_parses (name : String) (within : before.Within fuel)
    (initial : before.analysis = .initial) :
    Parses (program name fuel) before fun root after =>
      (after.analysis.program root).Coherent := by
  rw [program, parses_bind, parses_check, initial]
  refine Analysis.enterGlobalScope_ensures.mono ?_ fun _ _ rejects => rejects.2 rfl
  rintro _ entered ⟨-, entered_eq⟩
  have entered_atTop : AtTop [] entered := by
    rw [entered_eq]
    exact ⟨.empty, rfl, rfl, List.nodup_nil, by simp⟩
  have entered_within : (before.withAnalysis entered).Within fuel := within
  rw [parses_bind]
  refine (declarations_parses le_rfl entered_within entered_atTop).mono ?_
  intro globals middle atTop
  rw [List.nil_append] at atTop
  rw [parses_bind, parses_check]
  have popped : ∃ frame, middle.analysis.scopes.pop? = some (frame, ⟨[]⟩) := by
    rw [ScopeChain.pop?, atTop.frames_eq]
    exact ⟨_, rfl⟩
  obtain ⟨frame, popped⟩ := popped
  refine Analysis.leaveScope_ensures.mono ?_ fun _ _ rejects => rejects.2 ⟨_, _, popped⟩
  rintro _ left ⟨frame', outer, -, rfl⟩
  rw [parses_check]
  refine (Analysis.addProgram_ensures name globals).mono ?_ fun _ _ external => external
  rintro root after ⟨rfl, rfl⟩
  exact atTop.coherent name rfl

end Parser

/-- The whole of a text is parsed into a coherent program, or the text is at fault. -/
theorem parse_parses (source : Source) :
    Parser.Parses (Parser.program source.name ((TokenStream.ofSource source).length + 1))
      ⟨.ofSource source, .initial⟩ fun root after => (after.analysis.program root).Coherent :=
  Parser.program_parses source.name
    ⟨TokenStream.ofSource_clean source, Nat.lt_succ_self _⟩ rfl

/-- What is parsed from a text is a coherent program. -/
theorem parse_coherent {source : Source} {program : Program}
    (parsed : parse source = .ok program) : program.Coherent := by
  have parses := parse_parses source
  rw [Parser.Parses] at parses
  rw [parse, parseStream] at parsed
  split at parses
  · next run =>
    rw [run] at parsed
    cases parsed
    exact parses
  · next run =>
    rw [run] at parsed
    cases parsed

/-- What is not parsed from a text is a fault of the text. -/
theorem parse_faults {source : Source} {error : Diagnostic}
    (failed : parse source = .error error) : error.isFault = true := by
  have parses := parse_parses source
  rw [Parser.Parses] at parses
  rw [parse, parseStream] at failed
  split at parses
  · next run =>
    rw [run] at failed
    cases failed
  · next run =>
    rw [run] at failed
    cases failed
    exact parses

end Minilang
