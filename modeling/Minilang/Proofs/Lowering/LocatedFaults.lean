import Minilang.Proofs.Lowering.Programs
import Minilang.Proofs.Parsing.LazyReading
import Minilang.Proofs.Token.Places

/-!
# Located faults

A text that is not compiled is rejected at a place in it: where one of its tokens starts, at its end, or
where the first lexeme starts that cannot be read. Whatever is built on the way is located at a token that
has been read, and a program is found again in itself at the places of its own tokens, so nothing else can
be blamed.
-/

namespace Minilang

open Lexeme

/-! ## Streams -/

namespace TokenStream

/-- The tokens of a stream, with the end of input behind them if it is reached. -/
def tokens : TokenStream → List Token
  | token first rest => first :: rest.tokens
  | finished last => [last]
  | failed _ => []

variable {scanner : Scanner} {stream whole : TokenStream}

/-- Tokens stand where lexemes start, or at the end of the text. -/
theorem ReadBy.reaches_of_mem (readBy : ReadBy scanner stream) {token : Token}
    (member : token ∈ stream.tokens) :
    ∃ rest, scanner.Reaches token.location rest ∧ (StartsToken rest ∨ rest = []) := by
  induction readBy with
  | token scanned more _ induction =>
      rcases List.mem_cons.1 member with rfl | member
      · exact Scanner.reaches_of_scan_ok scanned
      · obtain ⟨rest, reaches, stands⟩ := induction member
        exact ⟨rest, reaches.of_scan scanned more, stands⟩
  | finished scanned =>
      obtain rfl := List.mem_singleton.1 member
      exact Scanner.reaches_of_scan_ok scanned
  | failed => cases member

/-- The fault at the end of a stream stands where the lexeme starts that is none. -/
theorem ReadBy.reaches_of_fault (readBy : ReadBy scanner stream) {error : Diagnostic}
    (failed : stream.fault? = some error) :
    ∃ location fault rest, error = .lexical location fault ∧ scanner.Reaches location rest ∧
      rest ≠ [] ∧ ¬ StartsToken rest := by
  induction readBy with
  | token scanned more _ induction =>
      obtain ⟨location, fault, rest, error_eq, reaches, unread⟩ := induction failed
      exact ⟨location, fault, rest, error_eq, reaches.of_scan scanned more, unread⟩
  | finished => cases failed
  | failed scanned =>
      cases failed
      exact Scanner.reaches_of_scan_error scanned

/-- A stream that is the same in itself, at the places of its own tokens. -/
def reflected (stream : TokenStream) : Correspondence where
  rename name := name
  names _ := True
  injective _ _ _ _ same := same
  places location other := other = location ∧ ∃ token ∈ stream.tokens, token.location = location
  fault? := stream.fault?.map fun error => (error, error)
  base := .empty
  bound := []

theorem ReadBy.reflected_streams (readBy : ReadBy scanner stream)
    (among : ∀ token ∈ stream.tokens, token ∈ whole.tokens)
    (fault_eq : whole.fault? = stream.fault?) : whole.reflected.Streams stream stream := by
  have belongs {token : Token} (member : token ∈ whole.tokens) :
      whole.reflected.Tokens token token := by
    refine ⟨⟨fun _ _ => trivial, ?_⟩, rfl, token, member, rfl⟩
    cases token.kind <;> rfl
  induction readBy with
  | token scanned more _ induction =>
      rw [tokens, List.forall_mem_cons] at among
      exact .token (belongs among.1) more (induction among.2 fault_eq)
  | finished =>
      apply Correspondence.Streams.finished
      · simp [reflected, fault_eq, fault?]
      · exact belongs (among _ (List.mem_singleton_self _))
  | failed =>
      apply Correspondence.Streams.failed
      simp [reflected, fault_eq, fault?]

end TokenStream

/-! ## Programs -/

variable {source : Source} {error : Diagnostic}

/-- The error of a text that is rejected is found again in the text itself. -/
theorem diagnostics_of_rejected (rejected : compile source = .error error) :
    ∃ other, (TokenStream.ofSource source).reflected.Diagnostics error other := by
  have streams := (TokenStream.readBy_ofSource source).reflected_streams
    (fun _ member => member) rfl
  have parsed := parseStream_mirrored ⟨rfl, rfl⟩ streams source.name source.name
  rw [← parse] at parsed
  rw [compile] at rejected
  cases own : parse source with
  | error cause =>
      rw [own] at parsed rejected
      cases rejected
      obtain ⟨other, -, diagnostics⟩ := parsed
      exact ⟨other, diagnostics⟩
  | ok program =>
      rw [own] at parsed rejected
      obtain ⟨-, other, same, programs, declarations_eq⟩ := parsed
      cases same
      have lowered := lower_mirrored programs (parse_coherent own) (parse_coherent own)
        declarations_eq
      have failed : lower program = .error error := rejected
      rw [failed] at lowered
      obtain ⟨other, -, diagnostics⟩ := lowered
      exact ⟨other, diagnostics⟩

/-- The error of a text that is rejected is the fault at which its tokens end, or stands at a token. -/
theorem fault_or_located (rejected : compile source = .error error) :
    (TokenStream.ofSource source).fault? = some error ∨
      ((∀ location fault, error ≠ .lexical location fault) ∧
        ∃ token ∈ (TokenStream.ofSource source).tokens, error.location? = some token.location) := by
  obtain ⟨other, diagnostics⟩ := diagnostics_of_rejected rejected
  cases diagnostics with
  | unexpected places _ =>
      obtain ⟨-, token, member, located⟩ := places
      exact .inr ⟨nofun, token, member, congrArg some located.symm⟩
  | semantic places _ =>
      obtain ⟨-, token, member, located⟩ := places
      exact .inr ⟨nofun, token, member, congrArg some located.symm⟩
  | fault both =>
      obtain ⟨cause, failed, both_eq⟩ := Option.map_eq_some_iff.1 both
      cases both_eq
      exact .inl failed
  | internal cause other =>
      have faults := compile_faults source
      rw [rejected] at faults
      simp at faults

/-- A text that is rejected is rejected at a place in it that gaps and longest lexemes lead to: where a
token starts or the text ends or, if the text cannot be read from there on, where the lexeme starts that
is none. -/
theorem compile_located (rejected : compile source = .error error) :
    ∃ before rest, source.text.toList = before ++ rest ∧ LeadsTo before rest ∧
      error.location? = some (.inFile source.name (Position.start.afterText before)) ∧
      match error with
      | .lexical _ _ => rest ≠ [] ∧ ¬ StartsToken rest
      | _ => StartsToken rest ∨ rest = [] := by
  obtain failed | ⟨not_lexical, token, member, located⟩ := fault_or_located rejected
  · obtain ⟨location, fault, rest, rfl, ⟨before, text_eq, leads, rfl⟩, unread⟩ :=
      (TokenStream.readBy_ofSource source).reaches_of_fault failed
    exact ⟨before, rest, text_eq, leads, rfl, unread⟩
  · obtain ⟨rest, ⟨before, text_eq, leads, location_eq⟩, stands⟩ :=
      (TokenStream.readBy_ofSource source).reaches_of_mem member
    refine ⟨before, rest, text_eq, leads, located.trans (congrArg some location_eq), ?_⟩
    cases error with
    | lexical location fault => exact absurd rfl (not_lexical location fault)
    | unexpected | semantic | internal | unreadable => exact stands

/-- A program that leaves a loop where there is none, which nobody notices before it is lowered. -/
def strayBreak : Source := ⟨"t", "def f() -> int { # far from here
  while (true) { break; }
  break; return 0; }"⟩

theorem compile_located_of_strayBreak :
    compile strayBreak = .error (.semantic (.inFile "t" ⟨3, 3⟩) .breakOutsideLoop) ∧
      ∃ before rest, strayBreak.text.toList = before ++ rest ∧ LeadsTo before rest ∧
        some (Location.inFile "t" ⟨3, 3⟩) =
          some (.inFile strayBreak.name (Position.start.afterText before)) ∧
        (StartsToken rest ∨ rest = []) := by
  have rejected : compile strayBreak =
      .error (.semantic (.inFile "t" ⟨3, 3⟩) .breakOutsideLoop) := by
    decide +kernel
  exact ⟨rejected, compile_located rejected⟩

end Minilang
