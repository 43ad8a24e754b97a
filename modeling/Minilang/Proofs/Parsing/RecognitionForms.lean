import Minilang.Proofs.Parsing.Recognition

/-!
# Recognition of choices and repetitions

The next token tells which alternative of a choice is read, whether an option is taken, and whether a
repetition goes on.
-/

namespace Minilang

namespace Grammar

open Form

theorem mem_language_choice {first : Form} {others : List Form} {word : List TokenKind} :
    word ∈ language (choice first others) ↔ ∃ form ∈ first :: others, word ∈ language form := by
  induction others generalizing first with
  | nil => simp [choice]
  | cons second others induction =>
      rw [choice, language_either, Language.mem_add, induction, List.exists_mem_cons_iff _ first]

/-- A choice in front of a form is a choice between sequences. -/
theorem language_choice_seq (first : Form) (others : List Form) (rest : Form) :
    language (choice (.seq first rest) (others.map fun form => .seq form rest)) =
      language (.seq (choice first others) rest) := by
  induction others generalizing first with
  | nil => rfl
  | cons second others induction =>
      rw [List.map_cons, choice, language_either, induction, choice, language_seq, language_seq,
        language_seq, language_either, add_mul]

/-- Whether a kind of token belongs to one alternative only. -/
def distinguishes (kind : TokenKind) (chosen : Form) (alternatives : List Form) : Bool :=
  alternatives.all fun other => other == chosen || (!other.nullable && !other.starts kind)

theorem language_list (item : Form) :
    language (list item) = language item * language (many (sequence [sign .comma, item])) := by
  rw [list, language_sequence_cons, language_sequence_cons, language_sequence_nil, mul_one]

theorem language_many_comma (item : Form) :
    language (many (sequence [sign .comma, item])) =
      1 + language (sign .comma) * language (list item) := by
  rw [language_many, language_sequence_cons, language_sequence_cons, language_sequence_nil, mul_one,
    mul_assoc, language_list]

end Grammar

open Grammar Form

namespace Parser

variable {α β : Type}

namespace Recognizes

variable {parser : Parser α} {before : ParserState} {form first second narrow wide item : Form}
  {barred inner : List Terminal} {token : Token}

/-- Forms with the same words are recognized alike. -/
theorem congr (same : language narrow = language wide)
    (recognizes : Recognizes parser before narrow barred) : Recognizes parser before wide barred := by
  intro complete
  have fits := recognizes complete
  unfold Fits at fits ⊢
  simpa only [ReadsWord, StopsAt, candidates, same] using fits

theorem nonterminal {name : Nonterminal} (recognizes : Recognizes parser before (rule name) barred) :
    Recognizes parser before name barred :=
  recognizes.congr (language_nonterminal name).symm

theorem seq_empty (recognizes : Recognizes parser before form barred) :
    Recognizes parser before (.seq form .empty) barred :=
  recognizes.congr (by rw [language_seq, language_empty, mul_one])

theorem of_seq_empty (recognizes : Recognizes parser before (.seq form .empty) barred) :
    Recognizes parser before form barred :=
  recognizes.congr (by rw [language_seq, language_empty, mul_one])

/-- What is made of the result does not matter. -/
theorem bind_pure {leading : Parser β} (function : β → α)
    (recognizes : Recognizes leading before form barred) :
    Recognizes (leading >>= fun result => Pure.pure (function result)) before form barred := by
  have may_follow : empty.mayFollow barred barred = true := by
    simp [Form.mayFollow, Form.first, Form.nullable]
  exact of_seq_empty (bind may_follow recognizes fun result after => .pure _)

/-- More words are recognized if the next token rules all of them out. -/
theorem widen (found : before.tokens.lookahead 0 = .ok token)
    (recognizes : Recognizes parser before narrow barred)
    (le : ∀ word ∈ language narrow, word ∈ language wide)
    (only : ∀ word ∈ candidates wide barred [token.kind], word ∈ language narrow) :
    Recognizes parser before wide barred := by
  exact fun complete => (recognizes complete).widen le found only

/-- One alternative is recognized if the next token rules out the others. -/
theorem choice (index : Nat) {chosen : Form} {others : List Form} {kind : TokenKind}
    (chosen_eq : (first :: others)[index]? = some chosen)
    (found : before.tokens.lookahead 0 = .ok token) (is_kind : token.kind = kind)
    (distinguished : distinguishes kind chosen (first :: others) = true)
    (recognizes : Recognizes parser before chosen barred) :
    Recognizes parser before (Form.choice first others) barred := by
  subst is_kind
  have member := List.mem_of_getElem? chosen_eq
  refine recognizes.widen found (fun word word_member =>
    mem_language_choice.2 ⟨chosen, member, word_member⟩) fun word candidate => ?_
  obtain ⟨other, other_member, word_member⟩ := mem_language_choice.1 candidate.1
  have apart := List.all_eq_true.1 distinguished other other_member
  rw [Bool.or_eq_true, beq_iff_eq, Bool.and_eq_true, Bool.not_eq_true', Bool.not_eq_true'] at apart
  obtain rfl | ⟨solid, unstarted⟩ := apart
  · exact word_member
  · exact absurd ⟨word_member, candidate.2⟩ (notMem_candidates solid unstarted)

/-- An option is left out if the next token does not start it. -/
theorem optional_none (found : before.tokens.lookahead 0 = .ok token) (solid : item.nullable = false)
    (unstarted : item.starts token.kind = false)
    (recognizes : Recognizes parser before .empty barred) :
    Recognizes parser before (optional item) barred := by
  refine recognizes.widen found (fun word member => .left member) fun word candidate => ?_
  have member := candidate.1
  rw [language_optional, Language.mem_add] at member
  obtain is_empty | word_member := member
  · rwa [language_empty]
  · exact absurd ⟨word_member, candidate.2⟩ (notMem_candidates solid unstarted)

/-- An option is taken if the next token cannot follow it. -/
theorem optional_some (found : before.tokens.lookahead 0 = .ok token)
    (stopped : bars barred token.kind = true) (recognizes : Recognizes parser before item barred) :
    Recognizes parser before (optional item) barred := by
  refine recognizes.widen found (fun word member => .right member) fun word candidate => ?_
  have member := candidate.1
  rw [language_optional, Language.mem_add] at member
  obtain is_empty | word_member := member
  · obtain rfl := (Language.mem_one _).1 is_empty
    obtain ⟨others, ⟨⟩⟩ | ⟨-, free⟩ := begins_of_candidate candidate
    rw [free] at stopped
    cases stopped
  · exact word_member

/-- A repetition ends if the next token does not start an item. -/
theorem many_none (found : before.tokens.lookahead 0 = .ok token)
    (unstarted : item.starts token.kind = false)
    (recognizes : Recognizes parser before .empty barred) :
    Recognizes parser before (many item) barred := by
  refine recognizes.widen found (fun word member => ?_) fun word candidate => ?_
  · obtain ⟨⟩ := member
    exact .none
  · obtain ⟨others, rfl⟩ | ⟨rfl, -⟩ := begins_of_candidate candidate
    · have started : (many item).starts token.kind = true := starts_of_mem_language candidate.1
      rw [starts, Form.first] at started
      rw [starts, started] at unstarted
      cases unstarted
    · exact .empty

/-- A repetition goes on if the next token cannot follow it. -/
theorem many_more (found : before.tokens.lookahead 0 = .ok token)
    (stopped : bars barred token.kind = true)
    (recognizes : Recognizes parser before (.seq item (many item)) barred) :
    Recognizes parser before (many item) barred := by
  have same : language (many item) = language (optional (.seq item (many item))) := by
    rw [language_optional, language_seq, ← language_many]
  exact (optional_some found stopped recognizes).congr same.symm

theorem nullable_seq_token (kind : TokenKind) (form : Form) :
    (Form.seq (Form.token kind) form).nullable = false := rfl

theorem starts_seq_token {kind other : TokenKind} (different : other ≠ kind) (form : Form) :
    (Form.seq (Form.token kind) form).starts other = false := by
  simp [starts, Form.token, Form.first, Form.nullable, Terminal.admits, different]

theorem language_optional_seq (item rest : Form) :
    language (Form.choice rest [.seq item rest]) = language (.seq (optional item) rest) := by
  rw [Form.choice, Form.choice, language_either, language_seq, language_seq, language_optional,
    add_mul, one_mul]

/-- An option in front of a closing token is left out if that token is next. -/
theorem optional_seq_none {closing : TokenKind} (found : before.tokens.lookahead 0 = .ok token)
    (closed : token.kind = closing) (solid : item.nullable = false)
    (unstarted : item.starts closing = false)
    (recognizes : Recognizes parser before (.seq (Form.token closing) form) barred) :
    Recognizes parser before (.seq (optional item) (.seq (Form.token closing) form)) barred := by
  have apart : (Form.seq item (.seq (Form.token closing) form)).starts token.kind = false := by
    rwa [closed, starts, Form.first, solid, if_neg Bool.false_ne_true, List.append_nil]
  refine (choice 0 rfl found rfl ?_ recognizes).congr (language_optional_seq _ _)
  simp [distinguishes, apart, Form.nullable, solid]

/-- An option in front of a closing token is taken if another token is next. -/
theorem optional_seq_some {closing : TokenKind} (found : before.tokens.lookahead 0 = .ok token)
    (opened : token.kind ≠ closing)
    (recognizes : Recognizes parser before (.seq item (.seq (Form.token closing) form)) barred) :
    Recognizes parser before (.seq (optional item) (.seq (Form.token closing) form)) barred := by
  refine (choice 1 rfl found rfl ?_ recognizes).congr (language_optional_seq _ _)
  simp [distinguishes, starts_seq_token opened, nullable_seq_token]

/-! ### Single tokens -/

theorem unexpected_bind {expected : Expectation} {next : β → Parser α}
    (found : before.tokens.lookahead 0 = .ok token)
    (solid : form.nullable = false) (unstarted : form.starts token.kind = false) :
    Recognizes (Parser.unexpected expected >>= next) before form barred := by
  have stops : Recognizes (Parser.unexpected expected : Parser α) before form barred :=
    unexpected found solid unstarted
  refine of_run_eq ?_ stops
  rw [run_bind, run_unexpected found, run_unexpected found]

/-- A kind of token that is there is consumed. -/
theorem consume_bind_of_eq {kind : TokenKind} {next : Bool → Parser α}
    (found : before.tokens.lookahead 0 = .ok token) (is_kind : token.kind = kind)
    (rest : Recognizes (next true) before.advanced form barred) :
    Recognizes (consume kind >>= next) before (.seq (Form.token kind) form) barred := by
  rw [consume, bind_assoc]
  refine consumeIf_bind_of_accepted found (beq_iff_eq.2 is_kind) ?_
  refine next_bind found (by simp [Terminal.admits, is_kind]) ?_
  rwa [pure_bind]

/-- A kind of token that is not there is not consumed. -/
theorem consume_bind_of_ne {kind : TokenKind} {next : Bool → Parser α}
    (found : before.tokens.lookahead 0 = .ok token) (other : token.kind ≠ kind)
    (rest : Recognizes (next false) before form barred) :
    Recognizes (consume kind >>= next) before form barred := by
  rw [consume, bind_assoc]
  refine consumeIf_bind_of_rejected found (beq_eq_false_iff_ne.2 other) ?_
  rwa [pure_bind]

/-- An expected kind of token is consumed, and any other one is where the parser stops. -/
theorem expect_bind {kind : TokenKind} {next : Unit → Parser α}
    (rest : Recognizes (next ()) before.advanced form barred) :
    Recognizes (expect kind >>= next) before (.seq (Form.token kind) form) barred := by
  refine of_found fun token found => ?_
  rw [expect, bind_assoc]
  by_cases is_kind : token.kind = kind
  · refine consume_bind_of_eq found is_kind ?_
    rwa [if_pos rfl, pure_bind]
  · refine consume_bind_of_ne found is_kind ?_
    rw [if_neg Bool.false_ne_true]
    exact unexpected_bind found rfl (starts_seq_token is_kind form)

theorem expectIdentifier_bind {next : Token → Parser α}
    (rest : ∀ token, Recognizes (next token) before.advanced form barred) :
    Recognizes (expectIdentifier >>= next) before (.seq Terminal.identifier form) barred := by
  refine of_found fun token found => ?_
  rw [expectIdentifier, bind_assoc]
  cases named : Terminal.identifier.admits token.kind with
  | true =>
      refine consumeIf_bind_of_accepted found ?_ (next_bind found named ?_)
      · rw [← named]
        cases token.kind <;> rfl
      rw [pure_bind]
      exact rest token
  | false =>
      refine consumeIf_bind_of_rejected found ?_ (unexpected_bind found rfl ?_)
      · rw [← named]
        cases token.kind <;> rfl
      simpa [starts, Form.first, Form.nullable] using named

/-! ### Repetitions -/

/-- Items with commas between them are recognized if a comma does not follow the whole list. -/
theorem sepByComma {reader : Parser α} (fuel : Nat)
    (may_follow : (many (sequence [sign .comma, item])).mayFollow inner barred = true)
    (stopped : bars barred (.punctuation .comma) = true)
    (items : ∀ state, Recognizes reader state item inner) (before : ParserState) :
    Recognizes (sepByComma reader fuel) before (list item) barred := by
  induction fuel generalizing before with
  | zero => exact exhausted
  | succ fuel induction =>
      rw [Parser.sepByComma]
      have words : language (.seq item (many (sequence [sign .comma, item]))) =
          language (list item) := by
        rw [language_seq, language_list]
      refine (bind may_follow (items before) fun first after => ?_).congr words
      refine of_found fun token found => ?_
      by_cases comma : token.kind = .punctuation .comma
      · have more : language (optional (.seq (sign .comma) (.seq (list item) .empty))) =
            language (many (sequence [sign .comma, item])) := by
          rw [language_many_comma, language_optional, language_seq, language_seq, language_empty,
            mul_one]
        refine (optional_some found (comma ▸ stopped) ?_).congr more
        refine consume_bind_of_eq found comma ?_
        rw [if_pos rfl]
        exact ((induction after.advanced).bind_pure _).seq_empty
      · refine consume_bind_of_ne found comma ?_
        rw [if_neg Bool.false_ne_true]
        exact many_none found (starts_seq_token comma _) (.pure _)

/-- Items up to a closing sign are recognized if no item starts with that sign. -/
theorem manyUntil {reader : Parser α} (closing : Punctuation) (fuel : Nat)
    (may_follow : (sequence [many item, sign closing]).mayFollow inner barred = true)
    (solid : item.nullable = false) (unstarted : item.starts (.punctuation closing) = false)
    (items : ∀ state, Recognizes reader state item inner) (before : ParserState) :
    Recognizes (manyUntil closing reader fuel) before (sequence [many item, sign closing])
      barred := by
  have unfolded : language (Form.choice (.seq (sign closing) .empty)
        [.seq item (sequence [many item, sign closing])]) =
      language (sequence [many item, sign closing]) := by
    rw [Form.choice, Form.choice, language_either, language_seq, language_seq, language_empty,
      language_sequence_cons, language_sequence_cons, language_sequence_nil, ← mul_assoc]
    nth_rewrite 1 [← one_mul (language (sign closing) * 1)]
    rw [← add_mul, ← language_many]
  induction fuel generalizing before with
  | zero => exact exhausted
  | succ fuel induction =>
      rw [Parser.manyUntil]
      refine of_found fun token found => congr unfolded ?_
      by_cases closed : token.kind = .punctuation closing
      · have distinguished : distinguishes token.kind (.seq (sign closing) .empty)
            [.seq (sign closing) .empty, .seq item (sequence [many item, sign closing])] = true := by
          have apart : (Form.seq item (sequence [many item, sign closing])).starts
              (.punctuation closing) = false := by
            rwa [starts, Form.first, solid, if_neg Bool.false_ne_true, List.append_nil]
          simp [distinguishes, Form.nullable, solid, closed, apart]
        refine choice 0 rfl found rfl distinguished ?_
        refine consume_bind_of_eq found closed ?_
        rw [if_pos rfl]
        exact .pure _
      · have distinguished : distinguishes token.kind
            (.seq item (sequence [many item, sign closing]))
            [.seq (sign closing) .empty, .seq item (sequence [many item, sign closing])] = true := by
          have apart : (Form.seq (sign closing) .empty).starts token.kind = false :=
            starts_seq_token closed _
          simp [distinguishes, apart, show (Form.seq (sign closing) .empty).nullable = false from rfl]
        refine choice 1 rfl found rfl distinguished ?_
        refine consume_bind_of_ne found closed ?_
        rw [if_neg Bool.false_ne_true]
        exact bind may_follow (items before) fun first after => (induction after).bind_pure _

end Recognizes

end Parser

end Minilang
