import Minilang.Proofs.Parsing.Grammar

/-!
# Words of the grammar

Which words a form derives is told by what the words begin with. Every form derives a word, no rule derives
the empty one, and only a program contains the end of input.
-/

namespace Minilang.Grammar

open Analysis (OperatorLevel)
open Form Nonterminal

/-! ## Empty words -/

namespace Form

/-- Whether the empty word can be derived from a form. -/
def nullable : Form → Bool
  | terminal _ | nonterminal _ => false
  | empty | many _ => true
  | seq first second => first.nullable && second.nullable
  | either left right => left.nullable || right.nullable

end Form

/-- No rule derives the empty word. -/
theorem nullable_rule (nonterminal : Nonterminal) : (rule nonterminal).nullable = false := by
  cases nonterminal <;> rfl

theorem Derives.nullable {form : Form} {word : List TokenKind} (derives : Derives form word)
    (is_empty : word = []) : form.nullable = true := by
  induction derives with
  | terminal admitted => cases is_empty
  | nonterminal derives induction =>
      have rule_nullable := induction is_empty
      rw [nullable_rule] at rule_nullable
      cases rule_nullable
  | empty => rfl
  | seq left right first second =>
      obtain ⟨before_nil, after_nil⟩ := List.append_eq_nil_iff.1 is_empty
      rw [Form.nullable, first before_nil, second after_nil]
      rfl
  | left derives induction => rw [Form.nullable, induction is_empty, Bool.true_or]
  | right derives induction => rw [Form.nullable, induction is_empty, Bool.or_true]
  | none => rfl
  | more first others => rfl

theorem nil_notMem_language {form : Form} (solid : form.nullable = false) :
    [] ∉ language form := fun derives =>
  Bool.false_ne_true (solid.symm.trans (Derives.nullable derives rfl))

/-! ## First kinds of tokens -/

/-- What expressions begin with that are no operators on two values. -/
def Nonterminal.primaryFirst : List Terminal :=
  [.integer, .float, truthWords, .character, .string, .identifier,
    .oneOf (.punctuation .leftParen) []]

/-- What expressions begin with. -/
def Nonterminal.expressionFirst : List Terminal :=
  .oneOf (.arithmetic .sub) [] :: unarySigns :: primaryFirst

/-- What declarations begin with. -/
def Nonterminal.declarationFirst : List Terminal :=
  [.oneOf (.keyword .varWord) [], .oneOf (.keyword .letWord) [], .oneOf (.keyword .defWord) []]

/-- What statements begin with that neither declare nor compute anything. -/
def Nonterminal.statementFirst : List Terminal :=
  [.oneOf (.punctuation .leftBrace) [], .oneOf (.keyword .ifWord) [],
    .oneOf (.keyword .whenWord) [], .oneOf (.keyword .whileWord) [],
    .oneOf (.keyword .breakWord) [], .oneOf (.keyword .continueWord) [],
    .oneOf (.keyword .returnWord) []]

/-- What the words of a rule begin with. -/
def Nonterminal.first : Nonterminal → List Terminal
  | .program => declarationFirst ++ [.oneOf .endOfInput []]
  | .declaration | .localDeclaration => declarationFirst
  | .variableDefinition => [.oneOf (.keyword .varWord) []]
  | .constantDefinition => [.oneOf (.keyword .letWord) []]
  | .valueDefinition | .functionDefinition => [.oneOf (.keyword .defWord) []]
  | .parameterList | .parameter => [.identifier]
  | .type =>
    [typeWords, .oneOf (.arithmetic .mul) [], .oneOf (.punctuation .leftParen) []]
  | .statement => statementFirst ++ declarationFirst ++ expressionFirst
  | .blockStatement => [.oneOf (.punctuation .leftBrace) []]
  | .expression | .assignment | .conditional | .operators _ | .cast | .unary | .arguments =>
    expressionFirst
  | .postfixed | .primary => primaryFirst

namespace Form

/-- What the words of a form begin with. -/
def first : Form → List Terminal
  | terminal kinds => [kinds]
  | nonterminal name => name.first
  | empty => []
  | seq left right => left.first ++ if left.nullable then right.first else []
  | either left right => left.first ++ right.first
  | many item => item.first

/-- Whether a word of a form may begin with a kind of token. -/
def starts (form : Form) (kind : TokenKind) : Bool := form.first.any (·.admits kind)

end Form

theorem first_rule_subset (nonterminal : Nonterminal) :
    (rule nonterminal).first ⊆ nonterminal.first := by
  cases nonterminal with
  | operators level => cases level <;> decide
  | _ => decide

/-- The first kind of a word is one of those that the form may begin with. -/
theorem Derives.first {form : Form} {word : List TokenKind} (derives : Derives form word)
    {kind : TokenKind} {others : List TokenKind} (begins : word = kind :: others) :
    ∃ terminal ∈ form.first, terminal.admits kind = true := by
  induction derives generalizing others with
  | terminal admitted =>
      cases begins
      exact ⟨_, List.mem_singleton_self _, admitted⟩
  | nonterminal derives induction =>
      obtain ⟨terminal, member, admitted⟩ := induction begins
      exact ⟨terminal, first_rule_subset _ member, admitted⟩
  | empty => cases begins
  | @seq left_form right_form before after left right first second =>
      cases before with
      | nil =>
          obtain ⟨terminal, member, admitted⟩ := second begins
          rw [Form.first, left.nullable rfl]
          exact ⟨terminal, List.mem_append_right _ member, admitted⟩
      | cons head tail =>
          cases begins
          obtain ⟨terminal, member, admitted⟩ := first rfl
          exact ⟨terminal, List.mem_append_left _ member, admitted⟩
  | left derives induction =>
      obtain ⟨terminal, member, admitted⟩ := induction begins
      exact ⟨terminal, List.mem_append_left _ member, admitted⟩
  | right derives induction =>
      obtain ⟨terminal, member, admitted⟩ := induction begins
      exact ⟨terminal, List.mem_append_right _ member, admitted⟩
  | none => cases begins
  | @more item before after first_item others first more =>
      cases before with
      | nil => exact more begins
      | cons head tail =>
          cases begins
          exact first rfl

theorem starts_of_mem_language {form : Form} {kind : TokenKind} {others : List TokenKind}
    (derives : kind :: others ∈ language form) : form.starts kind = true := by
  obtain ⟨terminal, member, admitted⟩ := Derives.first derives rfl
  exact List.any_eq_true.2 ⟨terminal, member, admitted⟩

/-! ## A word of every form -/

/-- How far a rule is from rules whose first alternative needs no other rule. -/
def Nonterminal.height : Nonterminal → Nat
  | .unary | .blockStatement => 0
  | .cast | .statement => 1
  | .operators .multiplicative => 2
  | .operators .additive => 3
  | .operators .shift => 4
  | .operators .relational => 5
  | .operators .equality => 6
  | .operators .bitwiseAnd => 7
  | .operators .bitwiseXor => 8
  | .operators .bitwiseOr => 9
  | .operators .logicalAnd => 10
  | .operators .logicalOr => 11
  | .conditional => 12
  | .assignment => 13
  | .expression => 14
  | .arguments | .variableDefinition | .constantDefinition | .valueDefinition => 15
  | .declaration | .localDeclaration => 16
  | .type | .primary => 0
  | .postfixed | .parameter => 1
  | .parameterList => 2
  | .functionDefinition => 3
  | .program => 0

namespace Form

/-- The rules that a form needs when it is derived by first alternatives. -/
def leading : Form → List Nonterminal
  | terminal _ | empty | many _ => []
  | nonterminal name => [name]
  | seq first second => first.leading ++ second.leading
  | either left _ => left.leading

end Form

theorem height_lt_of_mem_leading (nonterminal : Nonterminal) :
    ∀ name ∈ (rule nonterminal).leading, name.height < nonterminal.height := by
  cases nonterminal with
  | operators level => cases level <;> decide
  | _ => decide

/-- Every terminal admits a kind. -/
theorem Terminal.exists_admits (terminal : Terminal) : ∃ kind, terminal.admits kind = true := by
  cases terminal with
  | oneOf first others => exact ⟨first, by simp [admits]⟩
  | identifier => exact ⟨.identifier "", rfl⟩
  | integer => exact ⟨.integer 0 .decimal, rfl⟩
  | float => exact ⟨.float .zero, rfl⟩
  | character => exact ⟨.character 'a', rfl⟩
  | string => exact ⟨.string "", rfl⟩

theorem exists_derives_of_leading {form : Form}
    (leading : ∀ name ∈ form.leading, ∃ word, Derives (.nonterminal name) word) :
    ∃ word, Derives form word := by
  induction form with
  | terminal terminal =>
      obtain ⟨kind, admitted⟩ := terminal.exists_admits
      exact ⟨[kind], .terminal admitted⟩
  | nonterminal name => exact leading name (List.mem_singleton_self _)
  | empty => exact ⟨[], .empty⟩
  | seq first second first_exists second_exists =>
      obtain ⟨before, left⟩ := first_exists fun name member =>
        leading name (List.mem_append_left _ member)
      obtain ⟨after, right⟩ := second_exists fun name member =>
        leading name (List.mem_append_right _ member)
      exact ⟨before ++ after, .seq left right⟩
  | either left right left_exists _ =>
      obtain ⟨word, derives⟩ := left_exists leading
      exact ⟨word, .left derives⟩
  | many item _ => exact ⟨[], .none⟩

theorem exists_derives_of_height_lt {height : Nat} (nonterminal : Nonterminal)
    (low : nonterminal.height < height) : ∃ word, Derives nonterminal word := by
  induction height generalizing nonterminal with
  | zero => exact absurd low (Nat.not_lt_zero _)
  | succ height induction =>
      obtain ⟨word, derives⟩ := exists_derives_of_leading fun lower member =>
        induction lower ((height_lt_of_mem_leading nonterminal lower member).trans_le
          (Nat.le_of_lt_succ low))
      exact ⟨word, .nonterminal derives⟩

/-- Every form derives a word. -/
theorem exists_mem_language (form : Form) : ∃ word, word ∈ language form :=
  exists_derives_of_leading fun name _ => exists_derives_of_height_lt name (Nat.lt_succ_self _)

/-! ## The end of input -/

namespace Form

/-- Whether a form mentions neither the end of input nor whole programs. -/
def endless : Form → Bool
  | terminal kinds => !kinds.admits .endOfInput
  | nonterminal name => name ≠ .program
  | empty => true
  | seq first second => first.endless && second.endless
  | either left right => left.endless && right.endless
  | many item => item.endless

end Form

theorem rule_endless {nonterminal : Nonterminal} (part : nonterminal ≠ .program) :
    (rule nonterminal).endless = true := by
  cases nonterminal with
  | program => exact absurd rfl part
  | operators level => cases level <;> rfl
  | _ => rfl

/-- The end of input stands in no part of a program. -/
theorem Derives.endOfInput_notMem {form : Form} {word : List TokenKind}
    (derives : Derives form word) (endless : form.endless = true) :
    TokenKind.endOfInput ∉ word := by
  induction derives with
  | terminal admitted =>
      intro member
      rw [← List.mem_singleton.1 member] at admitted
      rw [Form.endless, admitted] at endless
      cases endless
  | nonterminal derives induction =>
      exact induction (rule_endless (of_decide_eq_true endless))
  | empty => exact List.not_mem_nil
  | seq left right first second =>
      obtain ⟨first_endless, second_endless⟩ := (Bool.and_eq_true _ _).mp endless
      rw [List.mem_append, not_or]
      exact ⟨first first_endless, second second_endless⟩
  | left derives induction => exact induction ((Bool.and_eq_true _ _).mp endless).1
  | right derives induction => exact induction ((Bool.and_eq_true _ _).mp endless).2
  | none => exact List.not_mem_nil
  | more first others first_item more_items =>
      rw [List.mem_append, not_or]
      exact ⟨first_item endless, more_items endless⟩

end Minilang.Grammar
