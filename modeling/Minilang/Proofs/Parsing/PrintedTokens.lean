import Minilang.Proofs.Parsing.ExpressionTrees
import Minilang.Proofs.Parsing.Recognition

/-!
# Reading printed tokens

A stream shows printed tokens if it begins with tokens like them. In front of such a stream, a parser acts
like another one that stands behind the tokens: one that only consumes tokens acts like its result, and
one that reads an expression acts like a step of analysis. Printed types are read in this sense, and so are
items with commas between them.
-/

namespace Minilang

open Analysis (OperatorLevel)

/-! ## Printed tokens -/

theorem Piece.Shows.kind_eq {piece : Piece} {found : Token} (shows : piece.Shows found) :
    found.kind = piece.tokenKind := by
  cases piece with
  | exactly token => exact congrArg Token.kind shows
  | ofKind kind => exact shows

namespace Piece

/-- Whether printed tokens begin with one of some kinds. -/
def Begin (holds : TokenKind → Prop) (pieces : List Piece) : Prop :=
  ∃ piece others, pieces = piece :: others ∧ holds piece.tokenKind

theorem Begin.mono {holds weaker : TokenKind → Prop} {pieces : List Piece}
    (begins : Begin holds pieces) (weaken : ∀ kind, holds kind → weaker kind) :
    Begin weaker pieces := by
  obtain ⟨piece, others, rfl, held⟩ := begins
  exact ⟨piece, others, rfl, weaken _ held⟩

theorem Begin.append {holds : TokenKind → Prop} {pieces : List Piece} (begins : Begin holds pieces)
    (more : List Piece) : Begin holds (pieces ++ more) := by
  obtain ⟨piece, others, rfl, held⟩ := begins
  exact ⟨piece, others ++ more, rfl, held⟩

theorem Begin.separated {holds : TokenKind → Prop} {first : List Piece} (begins : Begin holds first)
    (others : List (List Piece)) : Begin holds (separated (first :: others)) := by
  cases others with
  | nil => exact begins
  | cons second others => exact begins.append _

theorem separated_cons (first second : List Piece) (others : List (List Piece)) :
    separated (first :: second :: others) =
      first ++ .sign .comma :: separated (second :: others) := rfl

theorem length_le_separated {parts : List (List Piece)} {part : List Piece} (member : part ∈ parts) :
    part.length ≤ (separated parts).length := by
  induction parts with
  | nil => cases member
  | cons first others induction =>
      cases others with
      | nil => rw [List.mem_singleton.1 member, separated]
      | cons second others =>
          rw [separated_cons, List.length_append, List.length_cons]
          rcases List.mem_cons.1 member with rfl | member
          · omega
          · have := induction member
            omega

theorem length_le_length_separated (parts : List (List Piece)) :
    parts.length ≤ (separated parts).length + 1 := by
  induction parts with
  | nil => exact Nat.zero_le _
  | cons first others induction =>
      cases others with
      | nil => simp
      | cons second others =>
          rw [separated_cons, List.length_append, List.length_cons]
          simp only [List.length_cons] at induction ⊢
          omega

end Piece

namespace TokenStream

variable {before middle after : TokenStream} {piece : Piece} {first second : List Piece}

theorem shows_append : before.Shows (first ++ second) after ↔
    ∃ middle, before.Shows first middle ∧ middle.Shows second after := by
  induction first generalizing before with
  | nil => simp [Shows]
  | cons piece pieces induction =>
      simp only [List.cons_append, Shows, induction]
      constructor
      · rintro ⟨found, found_eq, shown, middle, left, right⟩
        exact ⟨middle, ⟨found, found_eq, shown, left⟩, right⟩
      · rintro ⟨middle, ⟨found, found_eq, shown, left⟩, right⟩
        exact ⟨found, found_eq, shown, middle, left, right⟩

/-- The next token is the first one of those that are printed. -/
theorem Shows.exists_head {holds : TokenKind → Prop} (shows : before.Shows first after)
    (begins : Piece.Begin holds first) : ∃ token, before.lookahead 0 = .ok token ∧ holds token.kind := by
  obtain ⟨piece, others, rfl, held⟩ := begins
  obtain ⟨token, found, shown, -⟩ := shows
  exact ⟨token, found, shown.kind_eq ▸ held⟩

end TokenStream

namespace Parser

variable {α β : Type} {before middle after : TokenStream} {token : Token}

/-! ## Parsers that act alike -/

/-- Taking a step of analysis, by its outcome. -/
theorem run_check (step : Check α) (state : ParserState) : (check step).run state =
    match step.run state.analysis with
    | (.ok result, analysis) => .ok (result, ⟨state.tokens, analysis⟩)
    | (.error error, _) => .error error := rfl

/-- Steps of analysis may be taken one after another or at once. -/
theorem check_bind (step : Check β) (next : β → Check α) :
    check (step >>= next) = check step >>= fun result => check (next result) := by
  have run_step (analysis : Analysis) : (step >>= next).run analysis =
      match step.run analysis with
      | (.ok result, analysis) => (next result).run analysis
      | (.error error, analysis) => (.error error, analysis) := by
    rw [ExceptT.run_bind]
    change StateT.bind (ExceptT.run step) _ analysis = _
    rw [StateT.bind]
    change (match step.run analysis with | _ => _) = _
    cases step.run analysis with
    | mk outcome analysis => cases outcome <;> rfl
  funext state
  change (check (step >>= next)).run state =
    (check step >>= fun result => check (next result)).run state
  rw [run_bind, run_check, run_step, run_check]
  cases step.run state.analysis with
  | mk outcome analysis => cases outcome <;> rfl

/-- Whether a parser does in front of some tokens what another one does in front of others, whatever
has been analyzed. -/
def Acts (parser : Parser α) (before : TokenStream) (other : Parser α) (after : TokenStream) : Prop :=
  ∀ analysis, parser.run ⟨before, analysis⟩ = other.run ⟨after, analysis⟩

namespace Acts

theorem refl (parser : Parser α) (tokens : TokenStream) : Acts parser tokens parser tokens :=
  fun _ => rfl

theorem trans {first second third : Parser α} (left : Acts first before second middle)
    (right : Acts second middle third after) : Acts first before third after := fun analysis =>
  (left analysis).trans (right analysis)

/-- Where a parser takes a step of analysis, what follows it comes behind the step. -/
theorem bind_check {first : Parser β} {step : Check β} {next other : β → Parser α}
    (left : Acts first before (check step) middle)
    (right : ∀ result, Acts (next result) middle (other result) after) :
    Acts (first >>= next) before (check step >>= other) after := by
  intro analysis
  rw [run_bind, run_bind, left analysis, run_check, run_check]
  cases step.run analysis with
  | mk outcome analysis =>
      cases outcome with
      | ok result => exact right result analysis
      | error error => rfl

/-- Steps that are taken one after another are taken as one. -/
theorem bind_steps {first : Parser β} {step : Check β} {next : β → Parser α} {others : β → Check α}
    (left : Acts first before (check step) middle)
    (right : ∀ result, Acts (next result) middle (check (others result)) after) :
    Acts (first >>= next) before (check (step >>= others)) after := by
  rw [check_bind]
  exact left.bind_check right

/-- Where a parser only consumes tokens, what follows it comes behind them. -/
theorem bind_pure {first : Parser β} {result : β} {next : β → Parser α} {other : Parser α}
    (left : Acts first before (pure result) middle) (right : Acts (next result) middle other after) :
    Acts (first >>= next) before other after := by
  intro analysis
  rw [run_bind, left analysis]
  exact right analysis

theorem lookahead {distance : Nat} (found : before.lookahead distance = .ok token) :
    Acts (lookahead distance) before (pure token) before := fun _ => run_lookahead found

theorem peek (found : before.lookahead 0 = .ok token) :
    Acts peek before (pure token.kind) before :=
  (lookahead found).bind_pure fun _ => rfl

theorem next (found : before.lookahead 0 = .ok token) :
    Acts Parser.next before (pure token) before.rest := fun _ => run_next found

theorem consumeIf {accepts : TokenKind → Bool} (found : before.lookahead 0 = .ok token)
    (accepted : accepts token.kind = true) :
    Acts (consumeIf accepts) before (pure (some token)) before.rest := fun _ => by
  rw [run_consumeIf found, if_pos accepted]
  rfl

theorem consumeIf_none {accepts : TokenKind → Bool} (found : before.lookahead 0 = .ok token)
    (rejected : accepts token.kind = false) :
    Acts (Parser.consumeIf accepts) before (pure none) before := fun _ => by
  rw [run_consumeIf found, if_neg (Bool.eq_false_iff.1 rejected)]
  rfl

theorem consume {kind : TokenKind} (found : before.lookahead 0 = .ok token)
    (fits : token.kind = kind) : Acts (consume kind) before (pure true) before.rest :=
  have consumed : Acts (Parser.consumeIf (· == kind)) before (pure (some token)) before.rest :=
    consumeIf found (beq_iff_eq.2 fits)
  consumed.bind_pure fun _ => rfl

theorem consume_false {kind : TokenKind} (found : before.lookahead 0 = .ok token)
    (differs : token.kind ≠ kind) : Acts (Parser.consume kind) before (pure false) before :=
  have kept : Acts (Parser.consumeIf (· == kind)) before (pure none) before :=
    consumeIf_none found (beq_eq_false_iff_ne.2 differs)
  kept.bind_pure fun _ => rfl

theorem expectSign {sign : Punctuation} (found : before.lookahead 0 = .ok token)
    (fits : token.kind = .punctuation sign) :
    Acts (expectSign sign) before (pure ()) before.rest :=
  (consume found fits).bind_pure fun _ => rfl

/-- Items with commas between them, in front of a token that closes them. -/
theorem sepByComma {γ : Type} {item : Parser α} {closing : TokenKind}
    (closes : closing ≠ .punctuation .comma) (text : γ → List Piece) (step : γ → Check α)
    {items : List γ} {fuel : Nat} (some_item : items ≠ [])
    (each : ∀ part ∈ items, ∀ before after next, before.Shows (text part) after →
      after.lookahead 0 = .ok next → next.kind = .punctuation .comma ∨ next.kind = closing →
      Acts item before (check (step part)) after)
    (enough : items.length ≤ fuel) (shows : before.Shows (Piece.separated (items.map text)) after)
    (found : after.lookahead 0 = .ok token) (fits : token.kind = closing) :
    Acts (Parser.sepByComma item fuel) before (check (items.mapM step)) after := by
  induction items generalizing before fuel with
  | nil => exact absurd rfl some_item
  | cons first others induction =>
      obtain ⟨fuel, rfl⟩ : ∃ less, fuel = less + 1 :=
        ⟨fuel - 1, (Nat.sub_add_cancel (Nat.one_le_of_lt enough)).symm⟩
      rw [Parser.sepByComma, List.mapM_cons]
      have reads := each first List.mem_cons_self
      cases others with
      | nil =>
          refine (reads _ _ token shows found (.inr fits)).bind_steps fun result => ?_
          exact (consume_false found (fits ▸ closes)).bind_pure fun _ => rfl
      | cons second others =>
          obtain ⟨middle, first_shows, comma, comma_found, comma_shows, others_show⟩ :=
            TokenStream.shows_append.1 shows
          refine (reads _ _ comma first_shows comma_found (.inl comma_shows)).bind_steps
            fun result => ?_
          refine (consume comma_found comma_shows).bind_pure ?_
          have rest := induction (List.cons_ne_nil _ _)
            (fun part member => each part (List.mem_cons_of_mem _ member))
            (Nat.le_of_succ_le_succ enough) others_show
          exact rest.bind_steps fun results => fun _ => rfl

end Acts

end Parser

/-! ## Types -/

namespace Ty

/-- A printed type begins with no closing parenthesis. -/
theorem begin_pieces {type : Ty} (plain : type.isPlain = true) :
    Piece.Begin (· ≠ .punctuation .rightParen) type.pieces := by
  cases type with
  | reference object => rw [isPlain] at plain; cases plain
  | _ =>
      rw [pieces]
      exact ⟨_, _, rfl, by simp [Piece.tokenKind, Piece.sign]⟩

/-- A type is read as it is printed. -/
theorem acts_typeWithin (type : Ty) (plain : type.isPlain = true) {fuel : Nat}
    {before after : TokenStream} (shows : before.Shows type.pieces after)
    (enough : type.pieces.length ≤ fuel) :
    Parser.Acts (Parser.typeWithin fuel) before (pure type) after := by
  obtain ⟨fuel, rfl⟩ : ∃ less, fuel = less + 1 := by
    obtain ⟨_, _, pieces_eq, -⟩ := begin_pieces plain
    rw [pieces_eq] at enough
    exact ⟨fuel - 1, (Nat.sub_add_cancel (Nat.one_le_of_lt enough)).symm⟩
  rw [Parser.typeWithin]
  cases type with
  | bool | char | int | float =>
      obtain ⟨word, word_found, word_shows, rfl⟩ := shows
      refine (Parser.Acts.peek word_found).bind_pure ?_
      rw [word_shows.kind_eq]
      exact (Parser.Acts.next word_found).bind_pure fun _ => rfl
  | pointer target =>
      obtain ⟨star, star_found, star_shows, shows⟩ := shows
      have inner := acts_typeWithin target plain shows (Nat.le_of_succ_le_succ enough)
      refine (Parser.Acts.peek star_found).bind_pure ?_
      rw [star_shows.kind_eq]
      refine (Parser.Acts.next star_found).bind_pure ?_
      exact inner.bind_pure fun _ => rfl
  | reference object => rw [isPlain] at plain; cases plain
  | function result parameters =>
      obtain ⟨result_plain, parameters_plain⟩ := isPlain_function.1 plain
      obtain ⟨opening, opening_found, opening_shows, shows⟩ := shows
      obtain ⟨middle, parameters_show, closing, closing_found, closing_shows, arrow, arrow_found,
        arrow_shows, result_shows⟩ := TokenStream.shows_append.1 shows
      have lengths : (Piece.separated (allPieces parameters)).length + result.pieces.length + 2 ≤
          fuel := by
        simp [pieces] at enough
        omega
      have result_acts := acts_typeWithin result result_plain result_shows (by omega : _ ≤ fuel)
      have each : ∀ parameter ∈ parameters, ∀ before after, before.Shows parameter.pieces after →
          Parser.Acts (Parser.typeWithin fuel) before (pure parameter) after := by
        intro parameter member before after parameter_shows
        have part := Piece.length_le_separated (List.mem_map_of_mem (f := pieces) member)
        rw [← allPieces_eq] at part
        exact acts_typeWithin parameter (parameters_plain parameter member) parameter_shows
          (by omega)
      refine (Parser.Acts.peek opening_found).bind_pure ?_
      rw [opening_shows.kind_eq]
      refine (Parser.Acts.next opening_found).bind_pure ?_
      rw [Parser.functionType]
      have concludes : Parser.Acts (do
          Parser.expectSign .arrow
          return Ty.function (← Parser.typeWithin fuel) parameters) middle.rest
          (pure (.function result parameters)) after := by
        refine (Parser.Acts.expectSign arrow_found arrow_shows).bind_pure ?_
        exact result_acts.bind_pure fun _ => rfl
      cases parameters with
      | nil =>
          obtain rfl := parameters_show
          exact (Parser.Acts.consume closing_found closing_shows).bind_pure concludes
      | cons first others =>
          have begins := (begin_pieces (parameters_plain first List.mem_cons_self)).separated
            (allPieces others)
          obtain ⟨token, found, differs⟩ := parameters_show.exists_head begins
          refine (Parser.Acts.consume_false found differs).bind_pure ?_
          have counted := Piece.length_le_length_separated (allPieces (first :: others))
          rw [allPieces_eq] at counted parameters_show lengths
          rw [List.length_map] at counted
          have reads : Parser.Acts (Parser.sepByComma (Parser.typeWithin fuel) fuel) before.rest
              (Parser.check ((first :: others).mapM pure)) middle :=
            Parser.Acts.sepByComma (by simp) pieces pure (List.cons_ne_nil _ _)
              (fun type member _ _ _ shows _ _ => each type member _ _ shows) (by omega)
              parameters_show closing_found closing_shows
          rw [List.mapM_pure, List.map_id'] at reads
          refine Parser.Acts.bind_pure reads ?_
          refine (Parser.Acts.expectSign closing_found closing_shows).bind_pure ?_
          exact concludes
termination_by type

end Ty

end Minilang
