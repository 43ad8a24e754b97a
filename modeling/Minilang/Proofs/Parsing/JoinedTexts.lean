import Minilang.Proofs.Parsing.Continuations
import Minilang.Proofs.Parsing.ReadingAhead

/-!
# Joined texts

The tokens of two texts with a newline between them are the tokens of the one and then those of the other, where
the latter stand as many lines further down as the former has. No lexeme goes over a newline, and a comment
ends there.
-/

namespace Minilang

namespace Lexeme

variable {gap lexeme text rest more : List Char} {meaning : Option TokenKind}

theorem Spells.no_newline {quote : Char} {value : Char} (spells : Spells quote text value) :
    '\n' ∉ text := by
  cases spells with
  | plain _ _ inline => simpa using inline.symm
  | @escape behind _ escaped =>
      have inline : behind ≠ '\n' := by
        rintro rfl
        cases escaped
      simpa using inline.symm

theorem SpellsAll.no_newline {quote : Char} {value : List Char} (spells : SpellsAll quote text value) :
    '\n' ∉ text := by
  induction spells with
  | nil => exact List.not_mem_nil
  | cons first _ induction => exact List.not_mem_append first.no_newline induction

/-- No lexeme goes over a newline. -/
theorem Denotes.no_newline (denotes : Denotes lexeme meaning) : '\n' ∉ lexeme := by
  have spelled_inline {kinds : List TokenKind}
      (inline : ∀ kind ∈ kinds, kind.spelling?.all (fun text => '\n' ∉ text.toList) = true)
      {kind : TokenKind} (member : kind ∈ kinds) {text : List Char}
      (spelled : kind.spelling? = some (String.ofList text)) : '\n' ∉ text := by
    have fits := inline kind member
    rw [spelled] at fits
    simpa using fits
  have run_inline {accepts : Char → Bool} (rejected : accepts '\n' = false) {text : List Char}
      (all : ∀ character ∈ text, accepts character = true) : '\n' ∉ text := by
    intro member
    rw [all _ member] at rejected
    cases rejected
  have digits_inline {digits : List Char} (all : ∀ digit ∈ digits, digit.isDigit = true) :
      '\n' ∉ digits := run_inline (by decide) all
  cases denotes with
  | reserved member spelled => exact spelled_inline (by decide) member spelled
  | operator member spelled => exact spelled_inline (by decide) member spelled
  | @name first rest start parts =>
      have inline : first ≠ '\n' := by
        rintro rfl
        exact absurd start (by decide)
      exact List.not_mem_cons_of_ne_of_not_mem inline.symm (run_inline (by decide) parts)
  | decimal _ all => exact digits_inline all
  | @marked radix letter digits marker _ all =>
      have letter_inline : ∀ pair ∈ markers, pair.2 ≠ '\n' := by decide
      have digits_inline : isDigitOf radix '\n' = false := by cases radix <;> decide
      refine List.not_mem_cons_of_ne_of_not_mem (by decide) ?_
      exact List.not_mem_cons_of_ne_of_not_mem (letter_inline _ marker).symm
        (run_inline digits_inline all)
  | float _ _ whole fraction =>
      refine List.not_mem_append (digits_inline whole) ?_
      exact List.not_mem_cons_of_ne_of_not_mem (by decide) (digits_inline fraction)
  | character spells =>
      refine List.not_mem_cons_of_ne_of_not_mem (by decide) ?_
      exact List.not_mem_append spells.no_newline (by decide)
  | string spells =>
      refine List.not_mem_cons_of_ne_of_not_mem (by decide) ?_
      exact List.not_mem_append spells.no_newline (by decide)

/-- A lexeme is still the longest one when a newline and more follow the text. -/
theorem Longest.append (longest : Longest lexeme text) :
    Longest lexeme (text ++ '\n' :: more) := by
  intro longer meaning denotes longer_begins
  obtain long | short := Nat.lt_or_ge text.length longer.length
  · have reaches : text ++ ['\n'] <+: longer := by
      refine List.prefix_of_prefix_length_le ⟨more, by simp⟩ longer_begins ?_
      rw [List.length_append]
      exact long
    exact absurd (reaches.subset (by simp)) denotes.no_newline
  · exact longest longer meaning denotes
      (List.prefix_of_prefix_length_le longer_begins (List.prefix_append _ _) short)

/-- No marker of a base becomes bare when a newline and more follow the text. -/
theorem not_bareMarker_append (solid : text ≠ []) (unbare : ¬BareMarker text) :
    ¬BareMarker (text ++ '\n' :: more) := by
  rintro ⟨radix, letter, behind, marker, text_eq, bare⟩
  have letter_inline : ∀ pair ∈ markers, pair.2 ≠ '\n' := by decide
  cases text with
  | nil => exact solid rfl
  | cons zero others =>
      cases others with
      | nil =>
          simp only [List.cons_append, List.nil_append, List.cons.injEq] at text_eq
          exact letter_inline _ marker text_eq.2.1.symm
      | cons second others =>
          simp only [List.cons_append, List.cons.injEq] at text_eq
          obtain ⟨rfl, rfl, rfl⟩ := text_eq
          refine unbare ⟨radix, second, others, marker, rfl, ?_⟩
          cases others with
          | nil => rfl
          | cons => exact bare

/-- A gap stays one when more follows the text behind it. -/
theorem IsGap.append (is_gap : IsGap gap rest) (solid : rest ≠ []) :
    IsGap gap (rest ++ more) := by
  induction is_gap with
  | nil => exact .nil
  | blank is_blank _ induction => exact .blank is_blank (induction solid)
  | @comment body gap rest inline stopped _ induction =>
      refine .comment inline ?_ (induction solid)
      rw [← List.append_assoc, List.head?_append_of_ne_nil]
      · exact stopped
      · exact List.append_ne_nil_of_right_ne_nil _ solid

/-- A gap at the end of a text goes on behind a newline. -/
theorem IsGap.append_newline {behind : List Char} (is_gap : IsGap gap [])
    (behind_is : IsGap behind rest) : IsGap (gap ++ '\n' :: behind) rest := by
  generalize rest_eq : ([] : List Char) = empty at is_gap
  induction is_gap with
  | nil => exact .blank (by decide) behind_is
  | blank is_blank _ induction => exact .blank is_blank (induction rest_eq)
  | @comment body gap empty inline stopped _ induction =>
      subst rest_eq
      rw [List.cons_append, List.append_assoc]
      refine .comment inline ?_ (induction rfl)
      cases gap with
      | nil => simp
      | cons => simpa using stopped

end Lexeme

namespace Position

/-- The place in the same column a number of lines further down. -/
def down (lines : Nat) (position : Position) : Position :=
  ⟨position.line + lines, position.column⟩

theorem afterText_down (lines : Nat) (position : Position) (text : List Char) :
    (position.down lines).afterText text = (position.afterText text).down lines := by
  induction text generalizing position with
  | nil => rfl
  | cons character text induction =>
      have step : (position.down lines).after character = (position.after character).down lines := by
        rw [after, after]
        split
        · rw [down, down, Nat.add_right_comm]
        · rfl
      rw [afterText_cons, afterText_cons, step, induction]

/-- Behind a text as many lines have been started as there are newlines. -/
theorem line_afterText (position : Position) (text : List Char) :
    (position.afterText text).line = position.line + text.count '\n' := by
  induction text generalizing position with
  | nil => rfl
  | cons character text induction =>
      rw [afterText_cons, induction, after, List.count_cons]
      split
      · next newline => simp [newline]; omega
      · next inline => simp [inline]

end Position

/-- The location in the same column a number of lines further down. -/
def Location.down (lines : Nat) : Location → Location
  | unknown => unknown
  | inFile file position => inFile file (position.down lines)

/-- The same token a number of lines further down. -/
def Token.down (lines : Nat) (token : Token) : Token :=
  { token with location := token.location.down lines }

/-- The same fault a number of lines further down. -/
def Diagnostic.down (lines : Nat) : Diagnostic → Diagnostic
  | lexical location error => lexical (location.down lines) error
  | unexpected location expected found => unexpected (location.down lines) expected found
  | semantic location error => semantic (location.down lines) error
  | internal error => internal error
  | unreadable path error => unreadable path error

/-- The same tokens a number of lines further down. -/
def TokenStream.down (lines : Nat) : TokenStream → TokenStream
  | token first rest => token (first.down lines) (rest.down lines)
  | finished last => finished (last.down lines)
  | failed error => failed error

namespace Scanner

open Lexeme

/-- The scanner of the same text a number of lines further down. -/
def down (lines : Nat) (scanner : Scanner) : Scanner :=
  { scanner with position := scanner.position.down lines }

theorem advance_down (lines : Nat) (scanner : Scanner) (count : Nat) :
    (scanner.down lines).advance count = (scanner.advance count).down lines := by
  rw [advance, advance, down, down, Position.afterText_down]

/-- What is read further down is the same, further down, and so is why nothing can be read. -/
theorem scan_down_eq (lines : Nat) (scanner : Scanner) :
    (scanner.down lines).scan =
      ((scanner.scan.1.map (Token.down lines)).mapError (Diagnostic.down lines),
        scanner.scan.2.down lines) := by
  have start_eq : (scanner.down lines).skipGap = scanner.skipGap.down lines := advance_down ..
  rw [scan, scan, start_eq, Prod.mk.injEq]
  refine ⟨?_, advance_down ..⟩
  have read_eq : Lexeme.read (scanner.skipGap.down lines).rest = Lexeme.read scanner.skipGap.rest := rfl
  simp only [read_eq]
  cases (Lexeme.read scanner.skipGap.rest).outcome <;> rfl

theorem scan_down (lines : Nat) {scanner after : Scanner} {token : Token}
    (scanned : scanner.scan = (.ok token, after)) :
    (scanner.down lines).scan = (.ok (token.down lines), after.down lines) := by
  rw [scan_down_eq, scanned]
  rfl

theorem advance_advance (scanner : Scanner) (first second : Nat) :
    (scanner.advance first).advance second = scanner.advance (first + second) := by
  rw [advance, advance, advance, List.drop_drop, List.take_add, Position.afterText_append]

/-- The scanner of the same text with a newline and more behind it. -/
def followedBy (more : List Char) (scanner : Scanner) : Scanner :=
  { scanner with rest := scanner.rest ++ '\n' :: more }

/-- The scanner at the newline behind a text. -/
def atNewline (more : List Char) (scanner : Scanner) : Scanner where
  file := scanner.file
  rest := '\n' :: more
  position := scanner.position.afterText scanner.rest

/-- A token is read alike when a newline and more follow the text. -/
theorem scan_followedBy (more : List Char) {scanner after : Scanner} {token : Token}
    (scanned : scanner.scan = (.ok token, after)) (more_left : token.kind ≠ .endOfInput) :
    (scanner.followedBy more).scan = (.ok token, after.followedBy more) ∧
      after.atNewline more = scanner.atNewline more := by
  obtain ⟨end_reached, -⟩ | ⟨gap, lexeme, text_eq, is_gap, denotes, longest, unbare⟩ :=
    exists_of_scan scanned
  · exact absurd end_reached more_left
  rw [scan_eq_of_longest text_eq is_gap denotes longest unbare, Prod.mk.injEq,
    Except.ok.injEq] at scanned
  obtain ⟨token_eq, after_eq⟩ := scanned
  obtain ⟨first, others, lexeme_eq, -⟩ := denotes.exists_first
  have solid : lexeme ++ after.rest ≠ [] := by
    rw [lexeme_eq]
    exact List.cons_ne_nil _ _
  have joined_eq : (scanner.followedBy more).rest =
      gap ++ (lexeme ++ (after.rest ++ '\n' :: more)) := by
    rw [followedBy, text_eq, List.append_assoc, List.append_assoc]
  have joined_scan := scan_eq_of_longest joined_eq (by simpa using is_gap.append solid) denotes
    (by simpa using longest.append) (by simpa using not_bareMarker_append solid unbare)
  refine ⟨joined_scan.trans (congrArg₂ Prod.mk (congrArg Except.ok token_eq) ?_), ?_⟩
  · rw [← after_eq]
    rfl
  · rw [atNewline, atNewline, text_eq, ← List.append_assoc, Position.afterText_append, ← after_eq]

/-- Behind a text there is the newline. -/
theorem advance_followedBy (more : List Char) (scanner : Scanner) :
    (scanner.followedBy more).advance scanner.rest.length = scanner.atNewline more := by
  rw [advance, followedBy, atNewline, List.drop_left, List.take_left]

/-- The end of a text is skipped like a gap in front of what stands behind a newline. -/
theorem skipGap_followedBy (more : List Char) {scanner : Scanner} (is_gap : IsGap scanner.rest []) :
    (scanner.followedBy more).skipGap = (scanner.atNewline more).skipGap := by
  obtain ⟨gap, rest, rfl, behind_is, solid⟩ := exists_gap_solid more
  have joined_length := (is_gap.append_newline behind_is).gapLength_eq solid
  have own_length := (IsGap.blank (by decide) behind_is : IsGap ('\n' :: gap) rest).gapLength_eq solid
  rw [List.append_assoc, List.cons_append, List.length_append] at joined_length
  rw [List.cons_append] at own_length
  calc (scanner.followedBy (gap ++ rest)).skipGap
      = (scanner.followedBy (gap ++ rest)).advance (scanner.rest.length + ('\n' :: gap).length) :=
        congrArg _ joined_length
    _ = (scanner.atNewline (gap ++ rest)).advance ('\n' :: gap).length := by
        rw [← advance_advance, advance_followedBy]
    _ = (scanner.atNewline (gap ++ rest)).skipGap := congrArg _ own_length.symm

/-- A newline is a gap. -/
theorem skipGap_advance_newline (more : List Char) (scanner : Scanner) :
    ((scanner.atNewline more).advance 1).skipGap = (scanner.atNewline more).skipGap := by
  rw [skipGap, skipGap, advance_advance]
  congr 1

/-- The newline behind a text leads to where another text starts further down. -/
theorem skipGap_atNewline_ofSource (name first second : String) :
    ((ofSource ⟨name, first⟩).atNewline second.toList).skipGap =
      ((ofSource ⟨name, second⟩).down (first.toList.count '\n' + 1)).skipGap := by
  have start_eq : ((ofSource ⟨name, first⟩).atNewline second.toList).advance 1 =
      (ofSource ⟨name, second⟩).down (first.toList.count '\n' + 1) := by
    have line_eq := Position.line_afterText .start first.toList
    have newline_eq (position : Position) : position.after '\n' = ⟨position.line + 1, 1⟩ := rfl
    rw [advance, atNewline, down, ofSource, ofSource]
    simp only [List.drop_succ_cons, List.drop_zero, List.take_succ_cons, List.take_zero,
      Position.afterText_cons, Position.afterText_nil, newline_eq, line_eq]
    rfl
  rw [← start_eq, skipGap_advance_newline]

theorem followedBy_ofSource (name first second : String) :
    (ofSource ⟨name, first⟩).followedBy second.toList =
      ofSource ⟨name, first ++ "\n" ++ second⟩ := by
  simp [followedBy, ofSource]

end Scanner

namespace TokenStream

theorem ReadBy.down {scanner : Scanner} {tokens : TokenStream} (readBy : ReadBy scanner tokens)
    (complete : tokens.Complete) (lines : Nat) :
    ReadBy (scanner.down lines) (tokens.down lines) := by
  induction readBy with
  | token scanned more _ induction => exact .token (Scanner.scan_down lines scanned) more (induction complete)
  | finished scanned end_reached => exact .finished (Scanner.scan_down lines scanned) end_reached
  | failed => exact complete.elim

/-- Two scanners that skip to the same place read the same. -/
theorem ReadBy.of_skipGap_eq {scanner other : Scanner} {tokens : TokenStream}
    (readBy : ReadBy scanner tokens) (same : other.skipGap = scanner.skipGap) :
    ReadBy other tokens := by
  have scan_eq : other.scan = scanner.scan := by rw [Scanner.scan, Scanner.scan, same]
  cases readBy with
  | token scanned more rest => exact .token (scan_eq.trans scanned) more rest
  | finished scanned end_reached => exact .finished (scan_eq.trans scanned) end_reached
  | failed scanned => exact .failed (scan_eq.trans scanned)

theorem ReadBy.unique {scanner : Scanner} {tokens other : TokenStream}
    (readBy : ReadBy scanner tokens) (otherReadBy : ReadBy scanner other) : tokens = other := by
  induction readBy generalizing other with
  | token scanned more _ induction =>
      cases otherReadBy with
      | token otherScanned _ otherRest =>
          cases scanned.symm.trans otherScanned
          rw [induction otherRest]
      | finished otherScanned end_reached =>
          cases scanned.symm.trans otherScanned
          exact absurd end_reached more
      | failed otherScanned => cases scanned.symm.trans otherScanned
  | finished scanned end_reached =>
      cases otherReadBy with
      | token otherScanned more =>
          cases scanned.symm.trans otherScanned
          exact absurd end_reached more
      | finished otherScanned =>
          cases scanned.symm.trans otherScanned
          rfl
      | failed otherScanned => cases scanned.symm.trans otherScanned
  | failed scanned => exact (otherReadBy.scan_error scanned).symm

/-- What is read from a text is read from its start when a newline and more follow. -/
theorem ReadBy.followedBy {scanner : Scanner} {tokens behind : TokenStream} {more : List Char}
    (readBy : ReadBy scanner tokens) (complete : tokens.Complete)
    (behindBy : ReadBy (scanner.atNewline more) behind) :
    ReadBy (scanner.followedBy more) (tokens.followedBy (some behind)) := by
  induction readBy with
  | token scanned more_left _ induction =>
      obtain ⟨joined, same⟩ := Scanner.scan_followedBy more scanned more_left
      exact .token joined more_left (induction complete (same ▸ behindBy))
  | finished scanned end_reached =>
      refine behindBy.of_skipGap_eq (Scanner.skipGap_followedBy more ?_)
      obtain ⟨-, is_gap⟩ | ⟨gap, lexeme, -, -, denotes, -⟩ := Scanner.exists_of_scan scanned
      · exact is_gap
      · exact absurd end_reached denotes.ne_endOfInput
  | failed => exact complete.elim

/-- The tokens of two texts with a newline between them are the tokens of the one and then, further down, those
of the other. -/
theorem ofSource_append {name first second : String}
    (firstComplete : (ofSource ⟨name, first⟩).Complete)
    (secondComplete : (ofSource ⟨name, second⟩).Complete) :
    ofSource ⟨name, first ++ "\n" ++ second⟩ = (ofSource ⟨name, first⟩).followedBy
      (some ((ofSource ⟨name, second⟩).down (first.toList.count '\n' + 1))) := by
  have behindBy : ReadBy ((Scanner.ofSource ⟨name, first⟩).atNewline second.toList)
      ((ofSource ⟨name, second⟩).down (first.toList.count '\n' + 1)) := by
    have own := (readBy_ofSource ⟨name, second⟩).down secondComplete (first.toList.count '\n' + 1)
    exact own.of_skipGap_eq (Scanner.skipGap_atNewline_ofSource name first second)
  have joined := (readBy_ofSource ⟨name, first⟩).followedBy firstComplete behindBy
  rw [Scanner.followedBy_ofSource] at joined
  exact (readBy_ofSource _).unique joined

end TokenStream

end Minilang
