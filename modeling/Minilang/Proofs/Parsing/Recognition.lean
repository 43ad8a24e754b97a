import Minilang.Parsing.Basic
import Minilang.Proofs.Analysis.Blame
import Minilang.Proofs.Parsing.GrammarWords

/-!
# Recognition

`Recognizes parser before form barred` compares a parser with a form of the grammar, where a token that is
barred does not follow the form. If the parser succeeds, it has read a word of the form, and together with
the next token what it has read begins no other word. If it stops at a token, what it has read begins a
word, and together with that token it begins none. So one token decides, and it is the right one.
-/

namespace Minilang

namespace TokenStream

/-- Whether a stream goes on to the end of its text. -/
def Complete : TokenStream → Prop
  | token _ rest => rest.Complete
  | finished _ => True
  | failed _ => False

theorem Complete.exists_lookahead {tokens : TokenStream} (complete : tokens.Complete)
    (distance : Nat) : ∃ token, tokens.lookahead distance = .ok token := by
  induction tokens generalizing distance with
  | token first rest induction =>
      cases distance with
      | zero => exact ⟨first, rfl⟩
      | succ distance => exact induction complete distance
  | finished last => exact ⟨last, by simp [lookahead]⟩
  | failed error => exact complete.elim

theorem Complete.rest {tokens : TokenStream} (complete : tokens.Complete) :
    tokens.rest.Complete := by
  cases tokens <;> exact complete

theorem lookahead_rest (tokens : TokenStream) (distance : Nat) :
    tokens.rest.lookahead distance = tokens.lookahead (distance + 1) := by
  cases tokens <;> simp [TokenStream.rest, lookahead]

/-- What is left of a stream behind tokens of the given kinds. -/
inductive Reads : TokenStream → List TokenKind → TokenStream → Prop
  | refl (tokens : TokenStream) : Reads tokens [] tokens
  | token {tokens after : TokenStream} {first : Token} {kinds : List TokenKind}
      (found : tokens.lookahead 0 = .ok first) (others : Reads tokens.rest kinds after) :
      Reads tokens (first.kind :: kinds) after

namespace Reads

variable {before middle after : TokenStream} {seen more : List TokenKind}

theorem trans (first : Reads before seen middle) (second : Reads middle more after) :
    Reads before (seen ++ more) after := by
  induction first with
  | refl => exact second
  | token found _ induction => exact .token found (induction second)

theorem complete (reads : Reads before seen after) (complete : before.Complete) :
    after.Complete := by
  induction reads with
  | refl => exact complete
  | token _ _ induction => exact induction complete.rest

/-- The next token is the first of those that are read, or else the one behind them. -/
theorem exists_head (reads : Reads before seen after) {token : Token}
    (found : after.lookahead 0 = .ok token) :
    ∃ head, before.lookahead 0 = .ok head ∧ [head.kind] <+: seen ++ [token.kind] := by
  cases reads with
  | refl => exact ⟨token, found, List.prefix_rfl⟩
  | @token _ _ head kinds first_found _ =>
      exact ⟨head, first_found, kinds ++ [token.kind], rfl⟩

end Reads

end TokenStream

namespace Grammar

open Form

/-! ## What may follow -/

/-- Whether no kind of token is among those of both terminals. -/
def Terminal.disjoint : Terminal → Terminal → Bool
  | oneOf first others, other => (first :: others).all fun kind => !other.admits kind
  | other, oneOf first others => (first :: others).all fun kind => !other.admits kind
  | left, right => left ≠ right

theorem Terminal.admits_eq_false {left right : Terminal} (disjoint : left.disjoint right = true)
    {kind : TokenKind} (admitted : left.admits kind = true) : right.admits kind = false := by
  cases left with
  | oneOf first others =>
      have member : kind ∈ first :: others := of_decide_eq_true admitted
      have rejected := List.all_eq_true.1 disjoint kind member
      exact (Bool.not_eq_true' _).mp rejected
  | _ =>
      cases right with
      | oneOf first others =>
          rw [admits, decide_eq_false_iff_not]
          intro member
          have rejected := List.all_eq_true.1 disjoint kind member
          rw [admitted] at rejected
          cases rejected
      | _ => cases kind <;> first
        | rfl
        | exact absurd disjoint (by decide)
        | cases admitted

/-- Whether a kind of token is among those of some of the terminals. -/
def bars (barred : List Terminal) (kind : TokenKind) : Bool := barred.any (·.admits kind)

/-- Whether kinds of tokens do not begin with a barred one. -/
def Follows (barred : List Terminal) (rest : List TokenKind) : Prop :=
  ∀ kind others, rest = kind :: others → bars barred kind = false

/-- Whether what follows a form may follow a part of it that stands in front of the given form: nothing
that the given form begins with is barred behind the part. -/
def Form.mayFollow (form : Form) (inner outer : List Terminal) : Bool :=
  (form.first.all fun terminal => inner.all terminal.disjoint) &&
    (!form.nullable || decide (inner ⊆ outer))

theorem Follows.append {form : Form} {inner outer : List Terminal}
    (may_follow : form.mayFollow inner outer = true) {word rest : List TokenKind}
    (member : word ∈ language form) (follows : Follows outer rest) : Follows inner (word ++ rest) := by
  obtain ⟨firsts, ends⟩ := (Bool.and_eq_true _ _).mp may_follow
  intro kind others begins
  cases word with
  | nil =>
      have solid := Derives.nullable member rfl
      rw [solid, Bool.not_true, Bool.false_or, decide_eq_true_iff] at ends
      have free := follows kind others begins
      rw [bars, List.any_eq_false] at free ⊢
      exact fun terminal barred => free terminal (ends barred)
  | cons head tail =>
      cases begins
      obtain ⟨terminal, first, admitted⟩ := Derives.first member rfl
      rw [bars, List.any_eq_false]
      intro other barred
      have disjoint := List.all_eq_true.1 (List.all_eq_true.1 firsts terminal first) other barred
      rw [Terminal.admits_eq_false disjoint admitted]
      exact Bool.false_ne_true

/-- The words of a form that, with what may follow them, begin as has been seen. -/
def candidates (form : Form) (barred : List Terminal) (seen : List TokenKind) :
    Language TokenKind :=
  {word | word ∈ language form ∧ ∃ rest, Follows barred rest ∧ seen <+: word ++ rest}

section Candidates

variable {form first second : Form} {barred inner : List Terminal} {seen more word : List TokenKind}
  {kind : TokenKind}

theorem candidates_of_shorter (shorter : seen <+: more) (candidate : word ∈ candidates form barred more) :
    word ∈ candidates form barred seen := by
  obtain ⟨member, rest, follows, begins⟩ := candidate
  exact ⟨member, rest, follows, shorter.trans begins⟩

/-- What has been seen tells how a word begins, or that the word is empty and may be. -/
theorem begins_of_candidate (candidate : word ∈ candidates form barred [kind]) :
    (∃ others, word = kind :: others) ∨ (word = [] ∧ bars barred kind = false) := by
  obtain ⟨-, rest, follows, others, begins⟩ := candidate
  cases word with
  | nil => exact .inr ⟨rfl, follows kind others begins.symm⟩
  | cons head tail =>
      cases begins
      exact .inl ⟨tail, rfl⟩

/-- No word begins with a kind that the form does not start with. -/
theorem notMem_candidates (solid : form.nullable = false) (unstarted : form.starts kind = false) :
    word ∉ candidates form barred [kind] := by
  intro candidate
  obtain ⟨others, rfl⟩ | ⟨rfl, -⟩ := begins_of_candidate candidate
  · rw [starts_of_mem_language candidate.1] at unstarted
    cases unstarted
  · exact nil_notMem_language solid candidate.1

/-- If what has been seen of a sequence settles its first part, the rest settles its second part. -/
theorem exists_candidate_of_seq (may_follow : second.mayFollow inner barred = true)
    (settled : ∀ other ∈ candidates first inner (seen ++ [kind]), other = seen)
    (begins : [kind] <+: more) (candidate : word ∈ candidates (.seq first second) barred (seen ++ more)) :
    ∃ other ∈ candidates second barred more, word = seen ++ other := by
  obtain ⟨member, rest, follows, agrees⟩ := candidate
  rw [language_seq, Language.mem_mul] at member
  obtain ⟨left, left_member, right, right_member, rfl⟩ := member
  rw [List.append_assoc] at agrees
  have behind : Follows inner (right ++ rest) := .append may_follow right_member follows
  have left_candidate : left ∈ candidates first inner (seen ++ [kind]) :=
    ⟨left_member, right ++ rest, behind, ((List.prefix_append_right_inj seen).2 begins).trans agrees⟩
  cases settled left left_candidate
  exact ⟨right, ⟨right_member, rest, follows, (List.prefix_append_right_inj _).1 agrees⟩, rfl⟩

end Candidates

/-! ## Reading words -/

/-- A word of a form has been read, and the next token shows that no other word could have been. -/
def ReadsWord (form : Form) (barred : List Terminal) (before after : TokenStream) : Prop :=
  ∃ word ∈ language form, before.Reads word after ∧ ∀ token, after.lookahead 0 = .ok token →
    ∀ other ∈ candidates form barred (word ++ [token.kind]), other = word

/-- The tokens in front of the given one begin a word of a form, and with that token they begin none. -/
def StopsAt (form : Form) (barred : List Terminal) (before : TokenStream) (token : Token) : Prop :=
  ∃ seen after, before.Reads seen after ∧ after.lookahead 0 = .ok token ∧
    (∃ word ∈ language form, seen <+: word) ∧
    ∀ other, other ∉ candidates form barred (seen ++ [token.kind])

section Words

variable {form first second narrow wide : Form} {barred inner : List Terminal}
  {before middle after : TokenStream} {token : Token}

theorem ReadsWord.seq (may_follow : second.mayFollow inner barred = true)
    (left : ReadsWord first inner before middle) (right : ReadsWord second barred middle after) :
    ReadsWord (.seq first second) barred before after := by
  obtain ⟨word, member, reads, settled⟩ := left
  obtain ⟨other, other_member, other_reads, other_settled⟩ := right
  refine ⟨word ++ other, .seq member other_member, reads.trans other_reads, ?_⟩
  intro token found candidate is_candidate
  obtain ⟨head, head_found, begins⟩ := other_reads.exists_head found
  rw [List.append_assoc] at is_candidate
  obtain ⟨tail, tail_candidate, rfl⟩ := exists_candidate_of_seq may_follow
    (settled head head_found) begins is_candidate
  rw [other_settled token found tail tail_candidate]

theorem StopsAt.seq_left (may_follow : second.mayFollow inner barred = true)
    (stops : StopsAt first inner before token) : StopsAt (.seq first second) barred before token := by
  obtain ⟨seen, after, reads, found, ⟨word, member, begins⟩, excluded⟩ := stops
  obtain ⟨other, other_member⟩ := exists_mem_language second
  refine ⟨seen, after, reads, found, ⟨word ++ other, .seq member other_member,
    begins.trans (List.prefix_append _ _)⟩, ?_⟩
  rintro candidate ⟨candidate_member, rest, follows, agrees⟩
  rw [language_seq, Language.mem_mul] at candidate_member
  obtain ⟨left, left_member, right, right_member, rfl⟩ := candidate_member
  rw [List.append_assoc] at agrees
  exact excluded left ⟨left_member, right ++ rest, .append may_follow right_member follows, agrees⟩

theorem StopsAt.seq_right (may_follow : second.mayFollow inner barred = true)
    (left : ReadsWord first inner before middle) (stops : StopsAt second barred middle token) :
    StopsAt (.seq first second) barred before token := by
  obtain ⟨word, member, reads, settled⟩ := left
  obtain ⟨seen, after, seen_reads, found, ⟨other, other_member, begins⟩, excluded⟩ := stops
  refine ⟨word ++ seen, after, reads.trans seen_reads, found, ⟨word ++ other,
    .seq member other_member, (List.prefix_append_right_inj _).2 begins⟩, ?_⟩
  intro candidate is_candidate
  obtain ⟨head, head_found, head_begins⟩ := seen_reads.exists_head found
  rw [List.append_assoc] at is_candidate
  obtain ⟨tail, tail_candidate, -⟩ := exists_candidate_of_seq may_follow
    (settled head head_found) head_begins is_candidate
  exact excluded tail tail_candidate

/-- More words are ruled out by the next token if those that it begins are few. -/
theorem ReadsWord.widen (matched : ReadsWord narrow barred before after)
    (le : ∀ word ∈ language narrow, word ∈ language wide)
    (found : before.lookahead 0 = .ok token)
    (only : ∀ word ∈ candidates wide barred [token.kind], word ∈ language narrow) :
    ReadsWord wide barred before after := by
  obtain ⟨word, member, reads, settled⟩ := matched
  refine ⟨word, le word member, reads, fun last last_found candidate is_candidate => ?_⟩
  obtain ⟨head, head_found, begins⟩ := reads.exists_head last_found
  cases found.symm.trans head_found
  have narrow_member := only candidate (candidates_of_shorter begins is_candidate)
  exact settled last last_found candidate ⟨narrow_member, is_candidate.2⟩

theorem StopsAt.widen {last : Token} (stops : StopsAt narrow barred before last)
    (le : ∀ word ∈ language narrow, word ∈ language wide)
    (found : before.lookahead 0 = .ok token)
    (only : ∀ word ∈ candidates wide barred [token.kind], word ∈ language narrow) :
    StopsAt wide barred before last := by
  obtain ⟨seen, after, reads, last_found, ⟨word, member, begins⟩, excluded⟩ := stops
  refine ⟨seen, after, reads, last_found, ⟨word, le word member, begins⟩, ?_⟩
  intro candidate is_candidate
  obtain ⟨head, head_found, head_begins⟩ := reads.exists_head last_found
  cases found.symm.trans head_found
  have narrow_member := only candidate (candidates_of_shorter head_begins is_candidate)
  exact excluded candidate ⟨narrow_member, is_candidate.2⟩

end Words

end Grammar

open Grammar Form

namespace ParserState

/-- The state behind the next token. -/
def advanced (state : ParserState) : ParserState := { state with tokens := state.tokens.rest }

end ParserState

namespace Parser

variable {α β : Type}

/-! ## Runs -/

section Runs

variable {before after : ParserState} {token : Token}

theorem run_bind (first : Parser β) (next : β → Parser α) (before : ParserState) :
    (first >>= next).run before =
      match first.run before with
      | .ok (result, after) => (next result).run after
      | .error error => .error error := by
  rw [StateT.run_bind]
  cases first.run before <;> rfl

theorem run_lookahead {distance : Nat} (found : before.tokens.lookahead distance = .ok token) :
    (lookahead distance).run before = .ok (token, before) := by
  simp only [lookahead, StateT.run_bind, StateT.run_get, pure_bind, found]
  rfl

theorem run_lookahead_of_error {distance : Nat} {error : Diagnostic}
    (failed : before.tokens.lookahead distance = .error error) :
    (lookahead distance).run before = .error error := by
  simp only [lookahead, StateT.run_bind, StateT.run_get, pure_bind, failed]
  rfl

/-- Where two parsers succeed one after the other, each of them does. -/
theorem run_bind_ok {first : Parser β} {next : β → Parser α} {result : α}
    (run : (first >>= next).run before = .ok (result, after)) :
    ∃ given middle, first.run before = .ok (given, middle) ∧
      (next given).run middle = .ok (result, after) := by
  rw [run_bind] at run
  cases parsed : first.run before with
  | error error =>
      rw [parsed] at run
      cases run
  | ok outcome =>
      obtain ⟨given, middle⟩ := outcome
      rw [parsed] at run
      exact ⟨given, middle, rfl, run⟩

theorem run_bind_of_ok {first : Parser β} {next : β → Parser α} {given : β}
    (run : first.run before = .ok (given, after)) :
    (first >>= next).run before = (next given).run after := by
  rw [run_bind, run]

/-- A step of analysis that succeeds leaves the tokens alone. -/
theorem run_check_of_ok {step : Check α} {result : α} {analysis : Analysis}
    (run : step.run before.analysis = (.ok result, analysis)) :
    (check step).run before = .ok (result, ⟨before.tokens, analysis⟩) := by
  simp only [StateT.run, check]
  rw [ExceptT.run] at run
  simp only [ExceptT.run, run]

theorem run_check_of_error {step : Check α} {error : Diagnostic} {analysis : Analysis}
    (run : step.run before.analysis = (.error error, analysis)) :
    (check step).run before = .error error := by
  simp only [StateT.run, check]
  rw [ExceptT.run] at run
  simp only [ExceptT.run, run]

/-- Where taking a step of analysis succeeds, the step does. -/
theorem check_ok {step : Check α} {result : α}
    (run : (check step).run before = .ok (result, after)) :
    step.run before.analysis = (.ok result, after.analysis) ∧ after.tokens = before.tokens := by
  cases own : step.run before.analysis with
  | mk outcome analysis =>
      cases outcome with
      | ok given =>
          cases (run_check_of_ok own).symm.trans run
          exact ⟨rfl, rfl⟩
      | error error => cases (run_check_of_error own).symm.trans run

/-- Where looking ahead succeeds, there is a token, and nothing has happened. -/
theorem lookahead_ok {distance : Nat}
    (run : (lookahead distance).run before = .ok (token, after)) :
    before.tokens.lookahead distance = .ok token ∧ before = after := by
  simp only [lookahead, StateT.run_bind, StateT.run_get, pure_bind] at run
  split at run
  · next found found_eq =>
    cases run
    exact ⟨found_eq, rfl⟩
  · cases run

theorem peek_ok {kind : TokenKind} (run : peek.run before = .ok (kind, after)) :
    before = after := by
  obtain ⟨token, _, looked, same⟩ := run_bind_ok run
  obtain ⟨-, rfl⟩ := lookahead_ok looked
  obtain ⟨-, rfl⟩ := same
  rfl

theorem run_next (found : before.tokens.lookahead 0 = .ok token) :
    Parser.next.run before = .ok (token, before.advanced) := by
  rw [Parser.next, run_bind, run_lookahead found]
  rfl

theorem run_unexpected (found : before.tokens.lookahead 0 = .ok token) (expected : Expectation) :
    (Parser.unexpected expected : Parser α).run before =
      .error (.unexpected token.location expected token.kind) := by
  rw [Parser.unexpected, run_bind, run_lookahead found]
  rfl

theorem run_consumeIf (found : before.tokens.lookahead 0 = .ok token) (accepts : TokenKind → Bool) :
    (consumeIf accepts).run before =
      .ok (if accepts token.kind = true then (some token, before.advanced) else (none, before)) := by
  rw [consumeIf, run_bind, run_lookahead found]
  dsimp only
  split
  · rw [run_bind, run_next found]
    rfl
  · rfl

/-- Where consuming a token if it is accepted succeeds, it has been consumed if it is. -/
theorem consumeIf_ok {accepts : TokenKind → Bool} {found : Option Token}
    (run : (consumeIf accepts).run before = .ok (found, after)) :
    ∃ token, before.tokens.lookahead 0 = .ok token ∧
      (found, after) = if accepts token.kind = true then (some token, before.advanced)
        else (none, before) := by
  obtain ⟨token, _, looked, -⟩ := run_bind_ok run
  obtain ⟨token_eq, rfl⟩ := lookahead_ok looked
  rw [run_consumeIf token_eq] at run
  exact ⟨token, token_eq, (Except.ok.inj run).symm⟩

/-- Behind a token that was asked for stands what stood behind it before. -/
theorem expect_ok {kind : TokenKind} (run : (expect kind).run before = .ok ((), after)) :
    after = before.advanced := by
  obtain ⟨fits, middle, consumed, concluded⟩ := run_bind_ok run
  obtain ⟨found, _, consumed, same⟩ := run_bind_ok consumed
  obtain ⟨token, token_eq, outcome⟩ := consumeIf_ok consumed
  obtain ⟨rfl, rfl⟩ := same
  by_cases accepted : (token.kind == kind) = true
  · rw [if_pos accepted, Prod.mk.injEq] at outcome
    obtain ⟨rfl, rfl⟩ := outcome
    obtain ⟨-, rfl⟩ := concluded
    rfl
  · rw [if_neg accepted, Prod.mk.injEq] at outcome
    obtain ⟨rfl, rfl⟩ := outcome
    exact absurd (concluded.symm.trans (run_unexpected token_eq _)) (by simp)

/-- A name that was asked for is the next token. -/
theorem expectIdentifier_ok (run : expectIdentifier.run before = .ok (token, after)) :
    before.tokens.lookahead 0 = .ok token := by
  obtain ⟨found, _, consumed, concluded⟩ := run_bind_ok run
  obtain ⟨next, next_eq, outcome⟩ := consumeIf_ok consumed
  split at outcome
  · obtain ⟨rfl, rfl⟩ := Prod.mk.inj outcome
    obtain ⟨rfl, -⟩ := concluded
    exact next_eq
  · obtain ⟨rfl, rfl⟩ := Prod.mk.inj outcome
    exact absurd (concluded.symm.trans (run_unexpected next_eq _)) (by simp)

end Runs

/-! ## Recognizing parsers -/

/-- Whether an outcome is the right one: success behind a word of a form, or failure at the first token
that fits into none. -/
def Fits (form : Form) (barred : List Terminal) (before : TokenStream) :
    Except Diagnostic (α × ParserState) → Prop
  | .ok (_, after) => ReadsWord form barred before after.tokens
  | .error (.unexpected location _ found) => StopsAt form barred before ⟨found, location⟩
  | .error _ => True

/-- Whether a parser reads words of a form, and stops at the first token that fits into none. -/
def Recognizes (parser : Parser α) (before : ParserState) (form : Form) (barred : List Terminal) :
    Prop :=
  before.tokens.Complete → Fits form barred before.tokens (parser.run before)

section Fits

variable {form first second narrow wide : Form} {barred inner : List Terminal}
  {before middle : TokenStream} {outcome : Except Diagnostic (α × ParserState)}

theorem Fits.seq (may_follow : second.mayFollow inner barred = true)
    (left : ReadsWord first inner before middle) (right : Fits second barred middle outcome) :
    Fits (.seq first second) barred before outcome := by
  cases outcome with
  | ok result => exact left.seq may_follow right
  | error error =>
      cases error with
      | unexpected location expected found => exact StopsAt.seq_right may_follow left right
      | _ => trivial

theorem Fits.widen {token : Token} (fits : Fits narrow barred before outcome)
    (le : ∀ word ∈ language narrow, word ∈ language wide)
    (found : before.lookahead 0 = .ok token)
    (only : ∀ word ∈ candidates wide barred [token.kind], word ∈ language narrow) :
    Fits wide barred before outcome := by
  cases outcome with
  | ok result => exact ReadsWord.widen fits le found only
  | error error =>
      cases error with
      | unexpected location expected kind => exact StopsAt.widen fits le found only
      | _ => trivial

end Fits

namespace Recognizes

variable {parser : Parser α} {before : ParserState} {form first second narrow wide item : Form}
  {barred inner : List Terminal} {token : Token}

/-- Parsers that do the same recognize the same. -/
theorem of_run_eq {other : Parser α} (same : parser.run before = other.run before)
    (recognizes : Recognizes other before form barred) : Recognizes parser before form barred := by
  rw [Recognizes, same]
  exact recognizes

/-- The next token may be looked at first. -/
theorem of_found (recognizes : ∀ token, before.tokens.lookahead 0 = .ok token →
    Recognizes parser before form barred) : Recognizes parser before form barred := fun complete =>
  have ⟨token, found⟩ := complete.exists_lookahead 0
  recognizes token found complete

/-! ### Sequences -/

theorem bind {leading : Parser β} {next : β → Parser α}
    (may_follow : second.mayFollow inner barred = true)
    (left : Recognizes leading before first inner)
    (right : ∀ result after, Recognizes (next result) after second barred) :
    Recognizes (leading >>= next) before (.seq first second) barred := by
  intro complete
  have left_run := left complete
  rw [run_bind]
  cases run : leading.run before with
  | error error =>
      rw [run] at left_run
      cases error with
      | unexpected location expected found => exact StopsAt.seq_left may_follow left_run
      | _ => trivial
  | ok outcome =>
      obtain ⟨result, middle⟩ := outcome
      rw [run] at left_run
      have left_read : ReadsWord first inner before.tokens middle.tokens := left_run
      have middle_complete : middle.tokens.Complete := by
        obtain ⟨word, -, reads, -⟩ := left_read
        exact reads.complete complete
      exact Fits.seq may_follow left_read (right result middle middle_complete)

/-- A result is given without reading anything. -/
theorem pure (result : α) : Recognizes (pure result) before .empty barred := by
  refine fun _ => ⟨[], .empty, .refl _, fun token _ other candidate => ?_⟩
  exact (Language.mem_one other).1 (language_empty ▸ candidate.1)

/-- A step of analysis reads nothing and stops at no token. -/
theorem check_bind {step : Check β} (blames : Analysis.BlamesMeaning step) {next : β → Parser α}
    (rest : ∀ result after, Recognizes (next result) after form barred) :
    Recognizes (check step >>= next) before form barred := by
  intro complete
  have step_blames := blames.ensures before.analysis
  rw [Analysis.Ensures] at step_blames
  rw [run_bind]
  unfold Parser.check
  simp only [StateT.run]
  generalize step.run before.analysis = stepped at step_blames ⊢
  obtain ⟨outcome, analysis⟩ := stepped
  cases outcome with
  | ok result => exact rest result ⟨before.tokens, analysis⟩ complete
  | error error =>
      cases error with
      | unexpected location expected found => exact absurd rfl (step_blames location expected found)
      | _ => trivial

theorem check {step : Check α} (blames : Analysis.BlamesMeaning step) :
    Recognizes (check step) before .empty barred := by
  rw [← bind_pure (Parser.check step)]
  exact check_bind blames fun result after => .pure result

theorem exhausted : Recognizes (exhausted : Parser α) before form barred := fun _ => trivial

/-! ### Looking at tokens -/

theorem lookahead_bind {distance : Nat} {next : Token → Parser α}
    (rest : ∀ token, before.tokens.lookahead distance = .ok token →
      Recognizes (next token) before form barred) :
    Recognizes (lookahead distance >>= next) before form barred := by
  intro complete
  obtain ⟨token, found⟩ := complete.exists_lookahead distance
  refine of_run_eq ?_ (rest token found) complete
  rw [run_bind, run_lookahead found]

theorem peek_bind {next : TokenKind → Parser α}
    (rest : ∀ token, before.tokens.lookahead 0 = .ok token →
      Recognizes (next token.kind) before form barred) :
    Recognizes (peek >>= next) before form barred := by
  rw [peek, bind_assoc]
  exact lookahead_bind fun token found => by simpa using rest token found

/-- Consuming the next token, which a terminal admits. -/
theorem next_bind {terminal : Terminal} {next : Token → Parser α}
    (found : before.tokens.lookahead 0 = .ok token) (admitted : terminal.admits token.kind = true)
    (rest : Recognizes (next token) before.advanced form barred) :
    Recognizes (Parser.next >>= next) before (.seq terminal form) barred := by
  have consumes : ReadsWord terminal [] before.tokens before.tokens.rest := by
    refine ⟨[token.kind], .terminal admitted, .token found (.refl _), ?_⟩
    rintro last last_found other ⟨member, others, -, tail, begins⟩
    obtain ⟨kind, -, rfl⟩ := mem_language_terminal.1 member
    cases begins
    rfl
  have may_follow : form.mayFollow [] barred = true := by simp [Form.mayFollow]
  intro complete
  rw [run_bind, run_next found]
  exact Fits.seq may_follow consumes (rest complete.rest)

/-- Stopping at a token that no word begins with. -/
theorem unexpected {expected : Expectation} (found : before.tokens.lookahead 0 = .ok token)
    (solid : form.nullable = false) (unstarted : form.starts token.kind = false) :
    Recognizes (unexpected expected : Parser α) before form barred := by
  intro complete
  obtain ⟨word, member⟩ := exists_mem_language form
  rw [run_unexpected found]
  exact ⟨[], _, .refl _, found, ⟨word, member, List.nil_prefix⟩, fun other =>
    notMem_candidates solid unstarted⟩

/-- Consuming an accepted token is consuming the next one. -/
theorem consumeIf_bind_of_accepted {accepts : TokenKind → Bool} {next : Option Token → Parser α}
    (found : before.tokens.lookahead 0 = .ok token) (accepted : accepts token.kind = true)
    (rest : Recognizes (Parser.next >>= fun token => next (some token)) before form barred) :
    Recognizes (consumeIf accepts >>= next) before form barred := by
  refine of_run_eq ?_ rest
  rw [run_bind, run_bind, run_consumeIf found, run_next found, if_pos accepted]

theorem consumeIf_bind_of_rejected {accepts : TokenKind → Bool} {next : Option Token → Parser α}
    (found : before.tokens.lookahead 0 = .ok token) (rejected : accepts token.kind = false)
    (rest : Recognizes (next none) before form barred) :
    Recognizes (consumeIf accepts >>= next) before form barred := by
  refine of_run_eq ?_ rest
  rw [run_bind, run_consumeIf found, if_neg (Bool.eq_false_iff.1 rejected)]

end Recognizes

end Parser

end Minilang
