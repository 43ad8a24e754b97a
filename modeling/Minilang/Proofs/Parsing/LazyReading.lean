import Minilang.Proofs.Parsing.MirroredPrograms
import Minilang.Proofs.Parsing.Program
import Minilang.Proofs.Parsing.ReadingAhead

/-!
# Lazy reading

A parser that reads tokens only when it needs them agrees with one that is given all of them. Where a text
cannot be read to its end, it is rejected: for the fault in it, or for what stands in front of that fault.
-/

namespace Minilang

namespace Position

/-- Whether a place stands in front of another one. -/
def Before (position later : Position) : Prop :=
  position.line < later.line ∨ position.line = later.line ∧ position.column < later.column

variable {position middle later : Position}

theorem Before.trans (first : position.Before middle) (second : middle.Before later) :
    position.Before later := by
  unfold Before at *
  omega

theorem before_after (position : Position) (character : Char) :
    position.Before (position.after character) := by
  rw [after]
  split
  · exact .inl (Nat.lt_succ_self _)
  · exact .inr ⟨rfl, Nat.lt_succ_self _⟩

/-- What stands behind a text stands behind its start. -/
theorem before_afterText (position : Position) {text : List Char} (solid : text ≠ []) :
    position.Before (position.afterText text) := by
  induction text generalizing position with
  | nil => exact absurd rfl solid
  | cons character text induction =>
      rw [afterText_cons]
      cases text with
      | nil => exact position.before_after character
      | cons next rest =>
          exact (position.before_after character).trans (induction _ (List.cons_ne_nil _ _))

end Position

/-- Whether a location stands in front of another one in the same file. -/
def Location.Before (location later : Location) : Prop :=
  ∃ file position laterPosition, location = .inFile file position ∧
    later = .inFile file laterPosition ∧ position.Before laterPosition

namespace TokenStream

/-- The tokens in front of the end of a stream. -/
def toList : TokenStream → List Token
  | token first rest => first :: rest.toList
  | finished _ | failed _ => []

/-- The fault at which a stream ends, if it does not go on to the end of the text. -/
def fault? : TokenStream → Option Diagnostic
  | token _ rest => rest.fault?
  | finished _ => none
  | failed error => some error

end TokenStream

namespace Scanner

variable {scanner after : Scanner}

/-- Moving over characters leads on. -/
theorem advance_position (scanner : Scanner) (count : Nat) :
    (scanner.advance count).position = scanner.position ∨
      scanner.position.Before (scanner.advance count).position := by
  rw [advance]
  by_cases empty : scanner.rest.take count = []
  · rw [empty]
    exact .inl rfl
  · exact .inr (scanner.position.before_afterText empty)

/-- A gap leads on. -/
theorem skipGap_position (scanner : Scanner) :
    scanner.skipGap.position = scanner.position ∨
      scanner.position.Before scanner.skipGap.position :=
  scanner.advance_position _

/-- A token takes up the place in front of what is left. -/
theorem before_of_scan {token : Token} (scanned : scanner.scan = (.ok token, after))
    (more : token.kind ≠ .endOfInput) :
    token.location = .inFile scanner.file scanner.skipGap.position ∧ after.file = scanner.file ∧
      scanner.skipGap.position.Before after.position := by
  rw [scan, Prod.mk.injEq] at scanned
  obtain ⟨outcome, rfl⟩ := scanned
  split at outcome
  · next kind succeeded =>
    cases outcome
    refine ⟨rfl, rfl, scanner.skipGap.position.before_afterText ?_⟩
    cases rest_eq : scanner.skipGap.rest with
    | nil =>
        rw [rest_eq, Lexeme.read] at succeeded
        cases succeeded
        exact absurd rfl more
    | cons first rest =>
        rw [rest_eq] at succeeded
        obtain ⟨length, length_eq⟩ := Nat.exists_eq_add_of_lt (Lexeme.read_length_pos succeeded)
        rw [length_eq, Nat.zero_add, List.take_succ_cons]
        exact List.cons_ne_nil _ _
  · cases outcome

/-- A fault is located where its lexeme starts. -/
theorem location_of_scan_error {error : Diagnostic} (scanned : scanner.scan = (.error error, after)) :
    ∃ cause, error = .lexical (.inFile scanner.file scanner.skipGap.position) cause := by
  rw [scan, Prod.mk.injEq] at scanned
  obtain ⟨outcome, -⟩ := scanned
  split at outcome
  · cases outcome
  · next cause _ =>
    cases outcome
    exact ⟨cause, rfl⟩

/-- Where reading all tokens fails, their stream ends at the same fault. -/
theorem fault?_of_tokensWithin {fuel : Nat} {scanner : Scanner} {error : Diagnostic}
    (failed : scanner.tokensWithin fuel = .error error) :
    (TokenStream.readWithin fuel scanner).fault? = some error := by
  induction fuel generalizing scanner with
  | zero =>
      cases failed
      rfl
  | succ fuel induction =>
      rw [tokensWithin] at failed
      rw [TokenStream.readWithin]
      generalize scanner.scan = scanned at failed ⊢
      obtain ⟨outcome, rest⟩ := scanned
      cases outcome with
      | error fault =>
          cases failed
          rfl
      | ok token =>
          dsimp only at failed ⊢
          by_cases end_reached : token.kind = .endOfInput
          · rw [if_pos end_reached] at failed
            cases failed
          · rw [if_neg end_reached] at failed ⊢
            cases others : rest.tokensWithin fuel with
            | error fault =>
                rw [others] at failed
                cases failed
                exact induction others
            | ok following =>
                rw [others] at failed
                cases failed

end Scanner

namespace TokenStream

variable {tokens : TokenStream} {error : Diagnostic}

/-- All tokens that are read stand in front of the fault behind them. -/
theorem ReadBy.before_fault {scanner : Scanner} (readBy : ReadBy scanner tokens)
    (fault : tokens.fault? = some error) :
    ∃ position cause, error = .lexical (.inFile scanner.file position) cause ∧
      (∀ token ∈ tokens.toList, token.location.Before (.inFile scanner.file position)) ∧
      (scanner.skipGap.position = position ∨ scanner.skipGap.position.Before position) := by
  induction readBy with
  | @token scanner after first rest scanned more _ induction =>
      obtain ⟨position, cause, error_eq, all, reached⟩ := induction fault
      obtain ⟨location_eq, file_eq, consumed⟩ := Scanner.before_of_scan scanned more
      rw [file_eq] at error_eq all
      have gapped : scanner.skipGap.position.Before after.skipGap.position := by
        obtain same | later := after.skipGap_position
        · rwa [same]
        · exact consumed.trans later
      have before : scanner.skipGap.position.Before position := by
        obtain rfl | later := reached
        · exact gapped
        · exact gapped.trans later
      refine ⟨position, cause, error_eq, ?_, .inr before⟩
      rw [toList, List.forall_mem_cons]
      exact ⟨⟨scanner.file, _, _, location_eq, rfl, before⟩, all⟩
  | finished => cases fault
  | @failed scanner after error scanned =>
      cases fault
      obtain ⟨cause, error_eq⟩ := Scanner.location_of_scan_error scanned
      exact ⟨_, cause, error_eq, List.forall_mem_nil _, .inl rfl⟩

/-- A stream that ends at a fault and is the same in itself, at the places of its own tokens. -/
def itself (tokens : TokenStream) (error : Diagnostic) : Correspondence where
  rename name := name
  names _ := True
  injective _ _ _ _ same := same
  places location other := other = location ∧ ∃ token ∈ tokens.toList, token.location = location
  fault? := some (error, error)
  base := .empty
  bound := []

theorem ReadBy.streams {scanner : Scanner} (readBy : ReadBy scanner tokens)
    (fault : tokens.fault? = some error) {all : TokenStream}
    (among : ∀ token ∈ tokens.toList, token ∈ all.toList) :
    (all.itself error).Streams tokens tokens := by
  induction readBy with
  | @token scanner after first rest scanned more _ induction =>
      rw [toList, List.forall_mem_cons] at among
      refine .token ⟨⟨fun _ _ => trivial, ?_⟩, rfl, first, among.1, rfl⟩ more
        (induction fault among.2)
      cases first.kind <;> rfl
  | finished => cases fault
  | failed =>
      cases fault
      exact .failed rfl

end TokenStream

/-- The parser reads tokens only when it needs them, and gives what it gives if all of them are read before.
Where the text has a fault, it is rejected for this fault or for what a token in front of it does wrong. -/
theorem parse_reads_lazily (source : Source) :
    (∀ requests, TokenRequest.answers TokenBuffer.answer requests (.ofSource source) =
      (TokenRequest.answers TokenStream.answer requests (.ofSource source)).map (List.map some)) ∧
    (∀ tokens, tokenize source = .ok tokens → parse source = parseTokens source.name tokens) ∧
    ∀ error, tokenize source = .error error →
      ∃ location cause, error = .lexical location cause ∧ ∃ reported, parse source = .error reported ∧
        (reported = error ∨ ∃ token ∈ (TokenStream.ofSource source).toList,
          token.location.Before location ∧
          ((∃ expected found, reported = .unexpected token.location expected found) ∨
            ∃ cause, reported = .semantic token.location cause)) := by
  refine ⟨TokenBuffer.answers_eq (TokenBuffer.shows_ofSource source), fun tokens tokenized => ?_,
    fun error failed => ?_⟩
  · rw [parse, parseTokens, (TokenStream.ofSource_eq_ofTokens tokenized).1]
  · have fault : (TokenStream.ofSource source).fault? = some error :=
      Scanner.fault?_of_tokensWithin failed
    have readBy := TokenStream.readBy_ofSource source
    obtain ⟨position, cause, error_eq, before, -⟩ := readBy.before_fault fault
    have mirrored := parseStream_mirrored ⟨rfl, rfl⟩
      (readBy.streams fault fun _ member => member) source.name source.name
    rw [← parse] at mirrored
    cases parsed : parse source with
    | ok program =>
        rw [parsed] at mirrored
        cases mirrored.1
    | error reported =>
        rw [parsed] at mirrored
        obtain ⟨other, same, diagnostics⟩ := mirrored
        refine ⟨_, cause, error_eq, reported, rfl, ?_⟩
        cases diagnostics with
        | unexpected places _ =>
            obtain ⟨-, token, member, rfl⟩ := places
            exact .inr ⟨token, member, before token member, .inl ⟨_, _, rfl⟩⟩
        | semantic places _ =>
            obtain ⟨-, token, member, rfl⟩ := places
            exact .inr ⟨token, member, before token member, .inr ⟨_, rfl⟩⟩
        | fault both =>
            cases both
            exact .inl rfl
        | internal cause => cases parse_faults parsed

/-- A program that uses a name nobody has declared, in front of a sign that cannot be read. -/
def faultBehindUse : Source := ⟨"t", "def f() -> int { return x; } $"⟩

theorem parse_reads_lazily_of_faultBehindUse :
    tokenize faultBehindUse =
        .error (.lexical (.inFile "t" ⟨1, 30⟩) (.invalidCharacter '$')) ∧
      ∃ token ∈ (TokenStream.ofSource faultBehindUse).toList,
        token.location.Before (.inFile "t" ⟨1, 30⟩) ∧
          parse faultBehindUse = .error (.semantic token.location (.undeclared "x")) := by
  have failed : tokenize faultBehindUse =
      .error (.lexical (.inFile "t" ⟨1, 30⟩) (.invalidCharacter '$')) := by
    decide +kernel
  have parsed : parse faultBehindUse =
      .error (.semantic (.inFile "t" ⟨1, 25⟩) (.undeclared "x")) := by
    decide +kernel
  obtain ⟨location, cause, error_eq, reported, rejected, outcome⟩ :=
    (parse_reads_lazily faultBehindUse).2.2 _ failed
  cases error_eq
  cases parsed.symm.trans rejected
  refine ⟨failed, ?_⟩
  obtain same | ⟨token, member, before, ⟨expected, found, same⟩ | ⟨fault, same⟩⟩ := outcome
  · cases same
  · cases same
  · rw [Diagnostic.semantic.injEq] at same
    rw [same.1] at parsed
    exact ⟨token, member, before, parsed⟩

end Minilang
