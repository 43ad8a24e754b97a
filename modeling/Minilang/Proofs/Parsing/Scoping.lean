import Minilang.Proofs.Parsing.CutTexts
import Minilang.Proofs.Parsing.JoinedPrograms
import Minilang.Proofs.Parsing.LazyReading
import Minilang.Proofs.Parsing.Program
import Minilang.Proofs.Parsing.ScopedPrograms

/-!
# Names have lexical scopes

In a program that is parsed, every use of a name means what the tokens in front of it make of the name. A
text is rejected for a name where its tokens cannot be read any further. If they cannot, then the text is
rejected for that, or for something else that the same tokens show, so that it does not matter what
follows them.
-/

namespace Minilang

open LexicalScopes (start)

namespace TokenStream

variable {stream rest whole : TokenStream} {tokens seen : List Token} {fault : Diagnostic}

theorem toList_behind (tokens : List Token) (rest : TokenStream) :
    (rest.behind tokens).toList = tokens ++ rest.toList := by
  induction tokens with
  | nil => rfl
  | cons token tokens induction => exact congrArg (token :: ·) induction

theorem fault?_behind (tokens : List Token) (rest : TokenStream) :
    (rest.behind tokens).fault? = rest.fault? := by
  induction tokens with
  | nil => rfl
  | cons token tokens induction => exact induction

theorem length_toList (stream : TokenStream) : stream.toList.length = stream.length := by
  induction stream with
  | token first rest induction => exact congrArg Nat.succ induction
  | finished | failed => rfl

/-- Nothing is left of a stream at the end of input. -/
theorem Proper.finished_of_lookahead (proper : stream.Proper) {last : Token}
    (found : stream.lookahead 0 = .ok last) (end_reached : last.kind = .endOfInput) :
    stream = .finished last := by
  cases stream with
  | token first rest =>
      cases found
      exact absurd end_reached proper.1
  | finished => cases found; rfl
  | failed => cases found

/-- The end of input is no token in front of the end. -/
theorem Proper.more_of_mem (proper : stream.Proper) {token : Token} (member : token ∈ stream.toList) :
    token.kind ≠ .endOfInput := by
  induction stream with
  | token first rest induction =>
      obtain rfl | later := List.mem_cons.1 member
      · exact proper.1
      · exact induction proper.2 later
  | finished | failed => cases member

/-- The first tokens of a stream, with a fault behind them. -/
theorem cutFrom_of_isPrefix (first : seen <+: whole.toList) :
    ((failed fault).behind seen).CutFrom fault whole := by
  induction seen generalizing whole with
  | nil => exact .failed whole
  | cons token seen induction =>
      cases whole with
      | token other rest =>
          obtain ⟨rfl, others⟩ := List.cons_prefix_cons.1 first
          exact .token token (induction others)
      | finished | failed => cases List.prefix_nil.1 first

theorem proper_behind_failed (more : ∀ token ∈ seen, token.kind ≠ .endOfInput) :
    ((failed fault).behind seen).Proper := by
  induction seen with
  | nil => trivial
  | cons token seen induction =>
      obtain ⟨first, others⟩ := List.forall_mem_cons.1 more
      exact ⟨first, induction others⟩

theorem clean_behind_failed (isFault : fault.isFault = true) (seen : List Token) :
    ((failed fault).behind seen).Clean := by
  induction seen with
  | nil => exact isFault
  | cons token seen induction => exact induction

end TokenStream

namespace LexicalScopes

variable {scopes later : LexicalScopes} {stream rest : TokenStream}

/-- A token that cannot be read shows that the tokens of a stream cannot. -/
theorem Advances.readAll_fault {token : Token} {error : Diagnostic}
    (advances : scopes.Advances stream later (.token token rest))
    (failed : later.read token = .error error) : scopes.readAll stream.toList = .error error := by
  obtain ⟨tokens, rfl, read⟩ := advances
  rw [TokenStream.toList_behind, readAll_append, read, TokenStream.toList]
  change later.readAll (token :: rest.toList) = .error error
  rw [readAll_cons, failed]
  rfl

end LexicalScopes

/-- If the first tokens of a text cannot be read, then all texts that start with them are rejected alike,
for this reason or for another one that is about neither names nor characters. -/
theorem rejected_of_readAll (name : String) {seen : List Token} {fault : Diagnostic}
    (more : ∀ token ∈ seen, token.kind ≠ .endOfInput) (failed : start.readAll seen = .error fault) :
    ∃ reported, (reported = fault ∨ reported.IsOther) ∧ ∀ text,
      seen <+: (TokenStream.ofSource ⟨name, text⟩).toList → parse ⟨name, text⟩ = .error reported := by
  -- The tokens stand in front of a fault in the characters, which is not what is reported.
  let cutOff : Diagnostic := .lexical .unknown (.invalidCharacter ' ')
  let cut := (TokenStream.failed cutOff).behind seen
  have tokens_eq : cut.toList = seen := by
    rw [TokenStream.toList_behind, TokenStream.toList, List.append_nil]
  have faults : cut.fault? = some cutOff := TokenStream.fault?_behind seen _
  have within : ParserState.Within (cut.length + 1) ⟨cut, .initial⟩ :=
    ⟨TokenStream.clean_behind_failed rfl seen, Nat.lt_succ_self _⟩
  have parses := Parser.program_parses name within rfl
  have proper : cut.Proper := TokenStream.proper_behind_failed more
  have tracks := Parser.program_tracks name (cut.length + 1) cut proper
  rw [Parser.Parses] at parses
  cases run : (Parser.program name (cut.length + 1)).run ⟨cut, .initial⟩ with
  | ok outcome =>
      rw [run] at tracks
      obtain ⟨later, rest, advances, ⟨last, found, end_reached⟩, -⟩ := tracks
      have rest_eq := (advances.proper proper).finished_of_lookahead found end_reached
      obtain ⟨tokens, cut_eq, -⟩ := advances
      rw [cut_eq, TokenStream.fault?_behind, rest_eq] at faults
      cases faults
  | error reported =>
      rw [run] at tracks parses
      have cause : reported = fault ∨ reported.IsOther := by
        cases tracks with
        | other other => exact .inr other
        | characters advances =>
            obtain ⟨tokens, cut_eq, read⟩ := advances
            rw [cut_eq, TokenStream.toList_behind, TokenStream.toList, List.append_nil] at tokens_eq
            rw [← tokens_eq, read] at failed
            cases failed
        | scoping advances unread =>
            have stuck := advances.readAll_fault unread
            rw [tokens_eq, failed] at stuck
            cases stuck
            exact .inl rfl
      refine ⟨reported, cause, fun text first => ?_⟩
      have fuel_le : cut.length + 1 ≤ (TokenStream.ofSource ⟨name, text⟩).length + 1 := by
        rw [← TokenStream.length_toList, ← TokenStream.length_toList, tokens_eq]
        exact Nat.succ_le_succ first.length_le
      have told := Parser.Foretells.program fuel_le name ⟨cut, .initial⟩ _
        (TokenStream.cutFrom_of_isPrefix first)
      rw [run] at told
      obtain rfl | rfl | otherRun := told
      · obtain rfl | other := cause
        · cases LexicalScopes.isScoping_of_readAll failed
        · cases other.2
      · cases parses
      · rw [parse, parseStream, otherRun]

/-- The tokens of a text that is parsed can be read, and the nodes of its program are those that they
introduce, and the program. -/
theorem readAll_of_parsed {source : Source} {program : Program} (parsed : parse source = .ok program) :
    ∃ scopes, start.readAll (TokenStream.ofSource source).toList = .ok scopes ∧
      ∃ ast decl, scopes.Records ast ∧ program.ast = (ast.addDecl decl).2 := by
  have proper := (TokenStream.readBy_ofSource source).proper
  have tracks := Parser.program_tracks source.name ((TokenStream.ofSource source).length + 1) _ proper
  rw [parse, parseStream] at parsed
  split at parsed
  · next root state run =>
    cases parsed
    rw [run] at tracks
    obtain ⟨scopes, rest, advances, ⟨last, found, end_reached⟩, nodes⟩ := tracks
    have rest_eq := (advances.proper proper).finished_of_lookahead found end_reached
    obtain ⟨tokens, stream_eq, read⟩ := advances
    refine ⟨scopes, ?_, nodes⟩
    rw [stream_eq, rest_eq, TokenStream.toList_behind, TokenStream.toList, List.append_nil]
    exact read
  · cases parsed

/-- Where a text is rejected for a name, its tokens cannot be read for the same reason. -/
theorem readAll_of_rejected {source : Source} {error : Diagnostic}
    (rejected : parse source = .error error) (scoping : error.isScoping = true) :
    start.readAll (TokenStream.ofSource source).toList = .error error := by
  have readBy := TokenStream.readBy_ofSource source
  have tracks := Parser.program_tracks source.name ((TokenStream.ofSource source).length + 1) _
    readBy.proper
  rw [parse, parseStream] at rejected
  split at rejected
  · cases rejected
  · next run =>
    cases rejected
    rw [run] at tracks
    cases tracks with
    | other other => exact absurd (scoping.symm.trans other.1) (by simp)
    | characters advances =>
        obtain ⟨tokens, stream_eq, -⟩ := advances
        have faulty : (TokenStream.ofSource source).fault? = some error := by
          rw [stream_eq, TokenStream.fault?_behind, TokenStream.fault?]
        obtain ⟨position, cause, rfl, -⟩ := readBy.before_fault faulty
        cases scoping
    | scoping advances unread => exact advances.readAll_fault unread

/-- A program in which the parameter of a function and a variable in a block reuse a name. -/
def reusedName : Source := ⟨"t", "var n: int = 1; def f(n: int) -> int { { var n: int = n; } return n; }"⟩

/-- The beginning of a program in which a constant is used in its own initializer. -/
def ownUse : Source := ⟨"t", "def f() -> int \x7b let c: int = c"⟩

end Minilang
