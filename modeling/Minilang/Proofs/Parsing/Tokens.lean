import Mathlib.Order.Basic
import Mathlib.Tactic.Common
import Minilang.Proofs.Analysis.Steps
import Minilang.Token.Stream

/-!
# Reading all of a text

Every lexeme but the end of input takes at least one character. So the characters of a text are fuel enough
for reading it, and what stops reading is the end of input or a fault in the text.
-/

namespace Minilang

namespace Lexeme

/-- A run of characters that starts with a fitting one is not empty. -/
private theorem length_takeWhile_pos {accepts : Char → Bool} {first : Char} (rest : List Char)
    (accepted : accepts first = true) : 0 < ((first :: rest).takeWhile accepts).length := by
  rw [List.takeWhile_cons_of_pos accepted]
  exact Nat.succ_pos _

theorem decimal_length_pos {first : Char} (rest : List Char) (digit : first.isDigit = true) :
    0 < (decimal (first :: rest)).length := by
  have digits_pos := length_takeWhile_pos rest digit
  rw [decimal]
  split
  · split
    · exact digits_pos
    · exact Nat.lt_add_right _ (Nat.succ_pos _)
  · split
    · exact digits_pos
    · exact Nat.lt_add_right _ (Nat.succ_pos _)

theorem marked_length_pos (radix : Radix) (text : List Char) :
    0 < (marked radix text).length := by
  rw [marked]
  split
  · exact Nat.two_pos
  · exact Nat.lt_add_right _ Nat.two_pos

theorem number_length_pos {first : Char} (rest : List Char) (digit : first.isDigit = true) :
    0 < (number (first :: rest)).length := by
  rw [number.eq_def]
  split
  · exact marked_length_pos _ _
  · exact marked_length_pos _ _
  · exact marked_length_pos _ _
  · exact marked_length_pos _ _
  · exact decimal_length_pos rest digit

theorem isWordPart_of_isWordStart {character : Char} (start : isWordStart character = true) :
    isWordPart character = true := by
  rw [isWordStart, Bool.or_eq_true] at start
  rw [isWordPart, Bool.or_eq_true, Char.isAlphanum, Bool.or_eq_true]
  obtain letter | underscore := start
  · exact .inl (.inl letter)
  · exact .inr underscore

/-- Reading takes a character, unless no lexeme starts with the first one. -/
theorem read_length_pos_or (first : Char) (rest : List Char) :
    0 < (read (first :: rest)).length ∨
      read (first :: rest) = ⟨.error (.invalidCharacter first), 0⟩ := by
  rw [read]
  by_cases digit : first.isDigit = true
  · rw [if_pos digit]
    exact .inl (number_length_pos rest digit)
  rw [if_neg digit]
  by_cases letter : isWordStart first = true
  · rw [if_pos letter]
    exact .inl (length_takeWhile_pos rest (isWordPart_of_isWordStart letter))
  rw [if_neg letter]
  by_cases quote : first = '\''
  · rw [if_pos quote]
    exact .inl (Nat.succ_pos _)
  rw [if_neg quote]
  by_cases doubleQuote : first = '"'
  · rw [if_pos doubleQuote]
    exact .inl (Nat.succ_pos _)
  rw [if_neg doubleQuote, sign]
  split
  · exact .inl Nat.two_pos
  · split
    · exact .inl Nat.one_pos
    · exact .inr rfl

/-- A lexeme that is read takes a character. -/
theorem read_length_pos {first : Char} {rest : List Char} {kind : TokenKind}
    (succeeded : (read (first :: rest)).outcome = .ok kind) :
    0 < (read (first :: rest)).length := by
  obtain takes | refused := read_length_pos_or first rest
  · exact takes
  · rw [refused] at succeeded
    cases succeeded

end Lexeme

namespace Scanner

/-- A lexeme that takes a character shortens what is left, whatever becomes of it. -/
theorem length_rest_scan_lt_of_takes {scanner : Scanner}
    (takes : 0 < (Lexeme.read scanner.skipGap.rest).length) :
    scanner.scan.2.rest.length < scanner.rest.length := by
  have gap_le : scanner.skipGap.rest.length ≤ scanner.rest.length := by
    rw [skipGap, advance, List.length_drop]
    exact Nat.sub_le _ _
  refine lt_of_lt_of_le ?_ gap_le
  have solid : 0 < scanner.skipGap.rest.length := by
    cases text : scanner.skipGap.rest with
    | nil => rw [text] at takes; cases takes
    | cons first rest => exact Nat.succ_pos _
  rw [scan, advance, List.length_drop]
  exact Nat.sub_lt solid takes

/-- A token that is not the end of input shortens what is left. -/
theorem length_rest_scan_lt {scanner after : Scanner} {token : Token}
    (read : scanner.scan = (.ok token, after)) (more : token.kind ≠ .endOfInput) :
    after.rest.length < scanner.rest.length := by
  have takes : 0 < (Lexeme.read scanner.skipGap.rest).length := by
    rw [scan, Prod.mk.injEq] at read
    obtain ⟨outcome, -⟩ := read
    split at outcome
    · next kind succeeded =>
      cases outcome
      cases text : scanner.skipGap.rest with
      | nil =>
          rw [text, Lexeme.read] at succeeded
          cases succeeded
          exact absurd rfl more
      | cons first rest =>
          rw [text] at succeeded
          exact Lexeme.read_length_pos succeeded
    · cases outcome
  have shorter := length_rest_scan_lt_of_takes takes
  rwa [read] at shorter

theorem scan_error_external {scanner after : Scanner} {error : Diagnostic}
    (read : scanner.scan = (.error error, after)) : error.isFault = true := by
  rw [scan, Prod.mk.injEq] at read
  obtain ⟨outcome, -⟩ := read
  split at outcome
  · cases outcome
  · cases outcome
    rfl

end Scanner

namespace TokenStream

/-- Whether a stream ends at the end of input or at a fault in the text. -/
def Clean : TokenStream → Prop
  | token _ rest => rest.Clean
  | finished last => last.kind = .endOfInput
  | failed error => error.isFault = true

theorem readWithin_clean {fuel : Nat} {scanner : Scanner} (enough : scanner.rest.length < fuel) :
    (readWithin fuel scanner).Clean := by
  induction fuel generalizing scanner with
  | zero => exact absurd enough (Nat.not_lt_zero _)
  | succ fuel induction =>
      rw [readWithin]
      split
      · next error after read => exact Scanner.scan_error_external read
      · next token after read =>
        split
        · next last => exact last
        · next more =>
          have shorter := Scanner.length_rest_scan_lt read more
          exact induction (by omega)

/-- What can be read from a text ends at its end or at a fault in it. -/
theorem ofSource_clean (source : Source) : (ofSource source).Clean :=
  readWithin_clean (Nat.lt_succ_self _)

end TokenStream

end Minilang
