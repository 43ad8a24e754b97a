import Mathlib.Data.List.Nodup
import Mathlib.Data.Nat.Digits.Defs
import Minilang.Proofs.Parsing.Tokens

/-!
# Lexemes as texts

Which texts are lexemes, and what they denote, is said here of a whole text and without reading it. What
`read` gives for a longer text is then compared with the lexemes that the text begins with.
-/

namespace Minilang.Lexeme

/-! ## What lexemes denote -/

/-- The integer that digits of a base denote. Above the greatest integer there is none. -/
def integer? (radix : Radix) (digits : List Char) : Option TokenKind :=
  let value := Nat.ofDigits radix.base (digits.reverse.map digitValue)
  if value < 2 ^ 63 then some (.integer (Int64.ofNat value) radix) else none

/-- The letters that mark the bases behind a zero. -/
def markers : List (Radix × Char) :=
  [(.binary, 'b'), (.binary, 'B'), (.hexadecimal, 'x'), (.hexadecimal, 'X')]

/-- How one character is spelled between quotes: as itself, or by an escape. -/
inductive Spells (quote : Char) : List Char → Char → Prop
  | plain {character : Char} (unquoted : character ≠ quote) (unescaped : character ≠ '\\')
      (inline : character ≠ '\n') : Spells quote [character] character
  | escape {behind character : Char} (escaped : escaped? behind = some character) :
      Spells quote ['\\', behind] character

/-- How characters are spelled between quotes, one after another. -/
inductive SpellsAll (quote : Char) : List Char → List Char → Prop
  | nil : SpellsAll quote [] []
  | cons {text rest characters : List Char} {character : Char} (first : Spells quote text character)
      (others : SpellsAll quote rest characters) :
      SpellsAll quote (text ++ rest) (character :: characters)

/-- At what a text between quotes breaks off, and the fault that this is. The end of the text is a fault of
its own for each kind of literal. -/
inductive BreaksOff (unclosed : LexicalError) : List Char → LexicalError → Prop
  | newline {rest : List Char} : BreaksOff unclosed ('\n' :: rest) .newlineInLiteral
  | escapedNewline {rest : List Char} :
      BreaksOff unclosed ('\\' :: '\n' :: rest) .newlineInLiteral
  | invalidEscape {behind : Char} {rest : List Char} (unescaped : escaped? behind = none)
      (inline : behind ≠ '\n') : BreaksOff unclosed ('\\' :: behind :: rest) (.invalidEscape behind)
  | unterminatedEscape : BreaksOff unclosed ['\\'] .unterminatedEscape
  | endOfText : BreaksOff unclosed [] unclosed

/-- A text is a lexeme that denotes a kind of token, or none because its integer is too large. -/
inductive Denotes : List Char → Option TokenKind → Prop
  | reserved {text : List Char} {kind : TokenKind} (member : kind ∈ TokenKind.reservedWords)
      (spelled : kind.spelling? = some (String.ofList text)) : Denotes text (some kind)
  | name {first : Char} {rest : List Char} (start : isWordStart first = true)
      (parts : ∀ character ∈ rest, isWordPart character = true)
      (free : ∀ kind ∈ TokenKind.reservedWords,
        kind.spelling? ≠ some (String.ofList (first :: rest))) :
      Denotes (first :: rest) (some (.identifier (String.ofList (first :: rest))))
  | decimal {digits : List Char} (solid : digits ≠ [])
      (all_digits : ∀ digit ∈ digits, digit.isDigit = true) :
      Denotes digits (integer? .decimal digits)
  | marked {radix : Radix} {letter : Char} {digits : List Char} (marker : (radix, letter) ∈ markers)
      (solid : digits ≠ []) (all_digits : ∀ digit ∈ digits, isDigitOf radix digit = true) :
      Denotes ('0' :: letter :: digits) (integer? radix digits)
  | float {whole fraction : List Char} (whole_solid : whole ≠ []) (fraction_solid : fraction ≠ [])
      (whole_digits : ∀ digit ∈ whole, digit.isDigit = true)
      (fraction_digits : ∀ digit ∈ fraction, digit.isDigit = true) :
      Denotes (whole ++ '.' :: fraction) (some (.float (Binary64.ofDigits false whole fraction)))
  | character {text : List Char} {value : Char} (spells : Spells '\'' text value) :
      Denotes ('\'' :: (text ++ ['\''])) (some (.character value))
  | string {text value : List Char} (spells : SpellsAll '"' text value) :
      Denotes ('"' :: (text ++ ['"'])) (some (.string (String.ofList value)))
  | operator {text : List Char} {kind : TokenKind}
      (member : kind ∈ TokenKind.longOperators ++ TokenKind.shortOperators)
      (spelled : kind.spelling? = some (String.ofList text)) : Denotes text (some kind)

/-- Whether a text starts with the marker of a base and no digit of that base behind it. -/
def BareMarker (text : List Char) : Prop :=
  ∃ radix letter rest, (radix, letter) ∈ markers ∧ text = '0' :: letter :: rest ∧
    rest.head?.all (fun digit => !isDigitOf radix digit) = true

/-- Whether reading gives what a lexeme denotes. -/
def Yields (reading : Reading TokenKind) : Option TokenKind → Prop
  | some kind => reading.outcome = .ok kind
  | none => ∃ literal, reading.outcome = .error (.integerOverflow literal)

theorem Yields.unique {reading : Reading TokenKind} {left right : Option TokenKind}
    (yields_left : Yields reading left) (yields_right : Yields reading right) : left = right := by
  cases left <;> cases right <;> simp_all [Yields]

/-! ## Integers -/

theorem digitsValue_eq (radix : Radix) (digits : List Char) :
    digitsValue radix digits = Nat.ofDigits radix.base (digits.reverse.map digitValue) := by
  rw [digitsValue, Nat.ofDigits_eq_foldr, List.foldl_eq_foldr_reverse, List.foldr_map]
  congr 1
  funext digit value
  exact Nat.add_comm _ _

/-- The integer of a run of digits is told by its value. -/
theorem integerOf_eq_ite (radix : Radix) (digits : List Char) :
    integerOf radix digits =
      if digitsValue radix digits < 2 ^ 63 then
        .ok (.integer (Int64.ofNat (digitsValue radix digits)) radix)
      else .error (.integerOverflow (radix.marker ++ String.ofList digits)) := by
  have fits (value : Nat) : (value : Int) ≤ Int64.maxValue.toInt ↔ value < 2 ^ 63 := by
    have : Int64.maxValue.toInt = 2 ^ 63 - 1 := by decide
    omega
  simp only [integerOf, fits]

theorem integerOf_yields (radix : Radix) (digits : List Char) (length : Nat) :
    Yields ⟨integerOf radix digits, length⟩ (integer? radix digits) := by
  rw [integerOf_eq_ite, integer?, ← digitsValue_eq]
  by_cases small : digitsValue radix digits < 2 ^ 63
  · rw [if_pos small, if_pos small]
    rfl
  · rw [if_neg small, if_neg small]
    exact ⟨_, rfl⟩

/-! ## Reserved words and operators -/

/-- If spellings differ, the kind that is found is the one that is spelled. -/
theorem spelledBy?_eq_some {kinds : List TokenKind}
    (apart : (kinds.map TokenKind.spelling?).Nodup) {text : List Char} {kind : TokenKind} :
    TokenKind.spelledBy? kinds text = some kind ↔
      kind ∈ kinds ∧ kind.spelling? = some (String.ofList text) := by
  have of_found {other : TokenKind} (found : TokenKind.spelledBy? kinds text = some other) :
      other ∈ kinds ∧ other.spelling? = some (String.ofList text) := by
    rw [TokenKind.spelledBy?] at found
    have fits := List.find?_some found
    exact ⟨List.mem_of_find?_eq_some found, beq_iff_eq.1 fits⟩
  refine ⟨of_found, fun ⟨member, spelled⟩ => ?_⟩
  cases found : TokenKind.spelledBy? kinds text with
  | none => exact absurd (beq_iff_eq.2 spelled) (List.find?_eq_none.1 found kind member)
  | some other =>
      obtain ⟨other_member, other_spelled⟩ := of_found found
      exact congrArg some (List.inj_on_of_nodup_map apart other_member member
        (other_spelled.trans spelled.symm))

theorem reservedWords_apart : (TokenKind.reservedWords.map TokenKind.spelling?).Nodup := by decide

theorem longOperators_apart : (TokenKind.longOperators.map TokenKind.spelling?).Nodup := by decide

theorem shortOperators_apart : (TokenKind.shortOperators.map TokenKind.spelling?).Nodup := by decide

/-- Whether a text is a word. -/
def isWord : List Char → Bool
  | [] => false
  | first :: rest => isWordStart first && rest.all isWordPart

/-- Whether a lexeme that starts with a character is no word, no number and no literal. -/
def isSignStart (first : Char) : Bool :=
  !first.isDigit && !isWordStart first && first != '\'' && first != '"' && !isBlank first &&
    first != '#'

theorem isWord_of_reserved {kind : TokenKind} {text : List Char}
    (member : kind ∈ TokenKind.reservedWords) (spelled : kind.spelling? = some (String.ofList text)) :
    isWord text = true := by
  have words : ∀ kind ∈ TokenKind.reservedWords,
      kind.spelling?.all (fun spelling => isWord spelling.toList) = true := by decide
  simpa [spelled] using words kind member

/-- The spelling of an operator is as long as those of its table, and starts with a sign. -/
theorem signs_of_spelled {kinds : List TokenKind} {length : Nat}
    (signs : ∀ kind ∈ kinds, kind.spelling?.all (fun spelling =>
      spelling.toList.length == length && spelling.toList.head?.all isSignStart) = true)
    {kind : TokenKind} {text : List Char} (member : kind ∈ kinds)
    (spelled : kind.spelling? = some (String.ofList text)) :
    text.length = length ∧ text.head?.all isSignStart = true := by
  have shape := signs kind member
  rwa [spelled, Option.all_some, String.toList_ofList, Bool.and_eq_true, beq_iff_eq] at shape

theorem long_of_spelled {kind : TokenKind} {text : List Char}
    (member : kind ∈ TokenKind.longOperators) (spelled : kind.spelling? = some (String.ofList text)) :
    ∃ first second, text = [first, second] ∧ isSignStart first = true := by
  have long_shape : ∀ kind ∈ TokenKind.longOperators, kind.spelling?.all (fun spelling =>
      spelling.toList.length == 2 && spelling.toList.head?.all isSignStart) = true := by decide
  obtain ⟨length_eq, start⟩ := signs_of_spelled long_shape member spelled
  obtain ⟨first, second, rfl⟩ := List.length_eq_two.1 length_eq
  exact ⟨first, second, rfl, start⟩

theorem short_of_spelled {kind : TokenKind} {text : List Char}
    (member : kind ∈ TokenKind.shortOperators) (spelled : kind.spelling? = some (String.ofList text)) :
    ∃ sign, text = [sign] ∧ isSignStart sign = true := by
  have short_shape : ∀ kind ∈ TokenKind.shortOperators, kind.spelling?.all (fun spelling =>
      spelling.toList.length == 1 && spelling.toList.head?.all isSignStart) = true := by decide
  obtain ⟨length_eq, start⟩ := signs_of_spelled short_shape member spelled
  obtain ⟨sign, rfl⟩ := List.length_eq_one_iff.1 length_eq
  exact ⟨sign, rfl, start⟩

/-! ## Which lexeme a character starts -/

theorem isWordStart_of_isDigit {character : Char} (digit : character.isDigit = true) :
    isWordStart character = false := by
  cases start : isWordStart character with
  | false => rfl
  | true =>
      rw [isWordStart, Bool.or_eq_true, beq_iff_eq] at start
      obtain letter | rfl := start
      · have atMost : character.val ≤ '9'.val :=
          of_decide_eq_true (Bool.and_eq_true_iff.1 digit).2
        obtain upper | lower := Bool.or_eq_true_iff.1 letter
        · have atLeast : 'A'.val ≤ character.val := (of_decide_eq_true upper).1
          exact absurd (UInt32.le_trans atLeast atMost) (by decide)
        · have atLeast : 'a'.val ≤ character.val :=
            of_decide_eq_true (Bool.and_eq_true_iff.1 lower).1
          exact absurd (UInt32.le_trans atLeast atMost) (by decide)
      · exact absurd digit (by decide)

theorem isDigit_of_isWordStart {character : Char} (start : isWordStart character = true) :
    character.isDigit = false := by
  cases digit : character.isDigit with
  | false => rfl
  | true => rw [isWordStart_of_isDigit digit] at start; cases start

theorem read_of_isDigit {first : Char} {rest : List Char} (digit : first.isDigit = true) :
    read (first :: rest) = number (first :: rest) := by
  rw [read, if_pos digit]

theorem read_of_isWordStart {first : Char} {rest : List Char} (start : isWordStart first = true) :
    read (first :: rest) = word (first :: rest) := by
  rw [read, if_neg (by simp [isDigit_of_isWordStart start]), if_pos start]

theorem read_of_isSignStart {first : Char} {rest : List Char} (start : isSignStart first = true) :
    read (first :: rest) = sign first rest := by
  simp only [isSignStart, Bool.and_eq_true, Bool.not_eq_true', bne_iff_ne, ne_eq] at start
  obtain ⟨⟨⟨⟨⟨digit, letter⟩, quote⟩, doubleQuote⟩, -⟩, -⟩ := start
  simp [read, digit, letter, quote, doubleQuote]

theorem not_bareMarker {first : Char} {rest : List Char} (nonzero : first ≠ '0') :
    ¬ BareMarker (first :: rest) := by
  rintro ⟨radix, letter, tail, -, begins, -⟩
  cases begins
  exact nonzero rfl

/-! ## What is read begins with every lexeme -/

/-- Whether a reading goes as far as a lexeme at least, and if it goes no further, gives what the lexeme
denotes. -/
def Covers (reading : Reading TokenKind) (length : Nat) (meaning : Option TokenKind) : Prop :=
  ∃ found, Yields reading found ∧ length ≤ reading.length ∧
    (reading.length = length → found = meaning)

/-- The kind of a word. -/
def wordKind (letters : List Char) : TokenKind :=
  (TokenKind.spelledBy? TokenKind.reservedWords letters).getD (.identifier (String.ofList letters))

theorem word_eq {letters : List Char} (parts : ∀ letter ∈ letters, isWordPart letter = true)
    (rest : List Char) :
    word (letters ++ rest) =
      ⟨.ok (wordKind (letters ++ rest.takeWhile isWordPart)),
        (letters ++ rest.takeWhile isWordPart).length⟩ := by
  rw [word, List.takeWhile_append_of_pos parts]
  rfl

/-- A reserved word is of its own kind. -/
theorem wordKind_of_reserved {kind : TokenKind} {text : List Char}
    (member : kind ∈ TokenKind.reservedWords) (spelled : kind.spelling? = some (String.ofList text)) :
    wordKind text = kind := by
  rw [wordKind, (spelledBy?_eq_some reservedWords_apart).2 ⟨member, spelled⟩, Option.getD_some]

/-- Any other word is a name. -/
theorem wordKind_of_free {text : List Char}
    (free : ∀ kind ∈ TokenKind.reservedWords, kind.spelling? ≠ some (String.ofList text)) :
    wordKind text = .identifier (String.ofList text) := by
  have found : TokenKind.spelledBy? TokenKind.reservedWords text = none :=
    List.find?_eq_none.2 fun kind member spelled => free kind member (beq_iff_eq.1 spelled)
  rw [wordKind, found, Option.getD_none]

/-- A word is read with all the letters behind it. -/
theorem read_word {text : List Char} (is_word : isWord text = true) (rest : List Char) :
    read (text ++ rest) = ⟨.ok (wordKind (text ++ rest.takeWhile isWordPart)),
      (text ++ rest.takeWhile isWordPart).length⟩ := by
  cases text with
  | nil => cases is_word
  | cons first letters =>
      obtain ⟨start, parts⟩ := (Bool.and_eq_true _ _).mp is_word
      have all_parts : ∀ letter ∈ first :: letters, isWordPart letter = true :=
        List.forall_mem_cons.2 ⟨isWordPart_of_isWordStart start, List.all_eq_true.1 parts⟩
      rw [List.cons_append, read_of_isWordStart start, ← List.cons_append, word_eq all_parts]

theorem read_word_covers {text : List Char} (is_word : isWord text = true) (rest : List Char) :
    Covers (read (text ++ rest)) text.length (some (wordKind text)) := by
  rw [read_word is_word]
  refine ⟨some _, rfl, by simp, fun same => ?_⟩
  rw [List.length_append, Nat.add_eq_left, List.length_eq_zero_iff] at same
  rw [same, List.append_nil]

/-- The characters of a number behind its sign that is read in a base of its own. -/
theorem number_of_marker {radix : Radix} {letter : Char} (marker : (radix, letter) ∈ markers)
    (rest : List Char) : number ('0' :: letter :: rest) = marked radix rest := by
  simp only [markers, List.mem_cons, Prod.mk.injEq, List.not_mem_nil, or_false] at marker
  obtain ⟨rfl, rfl⟩ | ⟨rfl, rfl⟩ | ⟨rfl, rfl⟩ | ⟨rfl, rfl⟩ := marker <;> rfl

theorem number_of_unmarked {text : List Char}
    (unmarked : ∀ radix letter rest, (radix, letter) ∈ markers → text ≠ '0' :: letter :: rest) :
    number text = decimal text := by
  rw [number.eq_def]
  split
  · next rest => exact absurd rfl (unmarked .binary 'b' rest (by decide))
  · next rest => exact absurd rfl (unmarked .binary 'B' rest (by decide))
  · next rest => exact absurd rfl (unmarked .hexadecimal 'x' rest (by decide))
  · next rest => exact absurd rfl (unmarked .hexadecimal 'X' rest (by decide))
  · rfl

theorem isDigit_marker {radix : Radix} {letter : Char} (marker : (radix, letter) ∈ markers) :
    letter.isDigit = false ∧ letter ≠ '.' := by
  have letters : ∀ marker ∈ markers, marker.2.isDigit = false ∧ marker.2 ≠ '.' := by decide
  exact letters _ marker

theorem marked_eq {radix : Radix} {digits : List Char} (solid : digits ≠ [])
    (all_digits : ∀ digit ∈ digits, isDigitOf radix digit = true) (rest : List Char) :
    marked radix (digits ++ rest) =
      ⟨integerOf radix (digits ++ rest.takeWhile (isDigitOf radix)),
        2 + (digits ++ rest.takeWhile (isDigitOf radix)).length⟩ := by
  rw [marked, List.takeWhile_append_of_pos all_digits]
  exact if_neg (by simp [solid])

/-- An integer behind a marker is read with all the digits behind it. -/
theorem read_marked {radix : Radix} {letter : Char} {digits : List Char}
    (marker : (radix, letter) ∈ markers) (solid : digits ≠ [])
    (all_digits : ∀ digit ∈ digits, isDigitOf radix digit = true) (rest : List Char) :
    read ('0' :: letter :: (digits ++ rest)) =
      ⟨integerOf radix (digits ++ rest.takeWhile (isDigitOf radix)),
        2 + (digits ++ rest.takeWhile (isDigitOf radix)).length⟩ := by
  rw [read_of_isDigit (by decide), number_of_marker marker, marked_eq solid all_digits]

theorem read_marked_covers {radix : Radix} {letter : Char} {digits : List Char}
    (marker : (radix, letter) ∈ markers) (solid : digits ≠ [])
    (all_digits : ∀ digit ∈ digits, isDigitOf radix digit = true) (rest : List Char) :
    Covers (read ('0' :: letter :: (digits ++ rest))) ('0' :: letter :: digits).length
      (integer? radix digits) := by
  rw [read_marked marker solid all_digits]
  refine ⟨_, integerOf_yields .., ?_, fun same => ?_⟩
  · simp only [List.length_cons, List.length_append]
    omega
  · have none_left : rest.takeWhile (isDigitOf radix) = [] := by
      simp only [List.length_cons, List.length_append] at same
      exact List.length_eq_zero_iff.1 (by omega)
    rw [none_left, List.append_nil]

/-- The digits behind the point at the start of a text. -/
def fractionOf : List Char → List Char
  | '.' :: rest => rest.takeWhile Char.isDigit
  | _ => []

theorem decimal_eq {digits : List Char} (all_digits : ∀ digit ∈ digits, digit.isDigit = true)
    {rest : List Char} (stopped : rest.takeWhile Char.isDigit = []) :
    decimal (digits ++ rest) =
      if fractionOf rest = [] then ⟨integerOf .decimal digits, digits.length⟩
      else ⟨.ok (.float (Binary64.ofDigits false digits (fractionOf rest))),
        digits.length + 1 + (fractionOf rest).length⟩ := by
  rw [decimal, List.takeWhile_append_of_pos all_digits, stopped, List.append_nil]
  simp only [List.drop_left, List.isEmpty_iff]
  rfl

/-- A run of fitting characters and what stops it. -/
theorem exists_run (accepts : Char → Bool) (text : List Char) :
    ∃ run rest, text = run ++ rest ∧ (∀ character ∈ run, accepts character = true) ∧
      rest.takeWhile accepts = [] := by
  induction text with
  | nil => exact ⟨[], [], rfl, by simp, rfl⟩
  | cons first rest induction =>
      by_cases accepted : accepts first = true
      · obtain ⟨run, behind, rfl, fits, stopped⟩ := induction
        exact ⟨first :: run, behind, rfl, List.forall_mem_cons.2 ⟨accepted, fits⟩, stopped⟩
      · exact ⟨[], first :: rest, rfl, by simp, List.takeWhile_cons_of_neg accepted⟩

/-- What goes further than a lexeme covers a shorter one, whatever that denotes. -/
theorem Covers.shorter {reading : Reading TokenKind} {length shorter : Nat}
    {meaning other : Option TokenKind} (covers : Covers reading length meaning)
    (lt : shorter < length) : Covers reading shorter other := by
  obtain ⟨found, yields, le, -⟩ := covers
  exact ⟨found, yields, by omega, fun same => by omega⟩

/-- A number that is marked starts with a single zero. -/
theorem eq_zero_of_marker {radix : Radix} {letter : Char} (marker : (radix, letter) ∈ markers)
    {digits rest tail : List Char} (solid : digits ≠ [])
    (all_digits : ∀ digit ∈ digits, digit.isDigit = true)
    (begins : digits ++ rest = '0' :: letter :: tail) : digits = ['0'] ∧ rest = letter :: tail := by
  match digits, solid with
  | [digit], _ => simpa using begins
  | first :: second :: others, _ =>
      obtain rfl : second = letter := (List.cons.inj (List.cons.inj begins).2).1
      have digit := all_digits second (by simp)
      rw [(isDigit_marker marker).1] at digit
      cases digit

/-- What starts with a run of digits and not with a marker is read as a decimal number. -/
theorem read_of_digits {digits rest : List Char} (solid : digits ≠ [])
    (all_digits : ∀ digit ∈ digits, digit.isDigit = true)
    (unmarked : ∀ radix letter tail, (radix, letter) ∈ markers →
      digits ++ rest ≠ '0' :: letter :: tail) : read (digits ++ rest) = decimal (digits ++ rest) := by
  rw [← number_of_unmarked unmarked]
  cases digits with
  | nil => exact absurd rfl solid
  | cons first others => exact read_of_isDigit (all_digits first List.mem_cons_self)

theorem read_decimal_covers {digits rest : List Char} (solid : digits ≠ [])
    (all_digits : ∀ digit ∈ digits, digit.isDigit = true)
    (unbare : ¬ BareMarker (digits ++ rest)) :
    Covers (read (digits ++ rest)) digits.length (integer? .decimal digits) := by
  by_cases marks : ∃ radix letter tail, (radix, letter) ∈ markers ∧
      digits ++ rest = '0' :: letter :: tail
  · obtain ⟨radix, letter, tail, marker, begins⟩ := marks
    obtain ⟨rfl, rfl⟩ := eq_zero_of_marker marker solid all_digits begins
    have started : ∃ digit others, tail = digit :: others ∧ isDigitOf radix digit = true := by
      by_contra none_behind
      refine unbare ⟨radix, letter, tail, marker, rfl, ?_⟩
      cases tail with
      | nil => rfl
      | cons digit others =>
          simp only [List.head?_cons, Option.all_some, Bool.not_eq_true']
          exact Bool.eq_false_iff.2 fun is_digit => none_behind ⟨digit, others, rfl, is_digit⟩
    obtain ⟨digit, others, rfl, is_digit⟩ := started
    have covers : Covers (read ('0' :: letter :: ([digit] ++ others))) ['0', letter, digit].length
        (integer? radix [digit]) :=
      read_marked_covers marker (List.cons_ne_nil _ _) (by simpa using is_digit) others
    exact covers.shorter (by simp)
  · have unmarked : ∀ radix letter tail, (radix, letter) ∈ markers →
        digits ++ rest ≠ '0' :: letter :: tail := fun radix letter tail marker begins =>
      marks ⟨radix, letter, tail, marker, begins⟩
    rw [read_of_digits solid all_digits unmarked]
    obtain ⟨more, behind, rfl, more_digits, stopped⟩ := exists_run Char.isDigit rest
    rw [← List.append_assoc, decimal_eq (List.forall_mem_append.2 ⟨all_digits, more_digits⟩) stopped]
    split
    · refine ⟨_, integerOf_yields .., by simp, fun same => ?_⟩
      rw [List.length_append, Nat.add_eq_left, List.length_eq_zero_iff] at same
      rw [same, List.append_nil]
    · refine ⟨some _, rfl, ?_, fun same => ?_⟩ <;> simp only [List.length_append] at * <;> omega

/-- A floating-point number is read with all the digits behind it. -/
theorem read_float {whole fraction : List Char} (whole_solid : whole ≠ [])
    (fraction_solid : fraction ≠ []) (whole_digits : ∀ digit ∈ whole, digit.isDigit = true)
    (fraction_digits : ∀ digit ∈ fraction, digit.isDigit = true) (rest : List Char) :
    read (whole ++ '.' :: (fraction ++ rest)) =
      ⟨.ok (.float (Binary64.ofDigits false whole (fraction ++ rest.takeWhile Char.isDigit))),
        (whole ++ '.' :: (fraction ++ rest.takeWhile Char.isDigit)).length⟩ := by
  have unmarked : ∀ radix letter tail, (radix, letter) ∈ markers →
      whole ++ '.' :: (fraction ++ rest) ≠ '0' :: letter :: tail := by
    intro radix letter tail marker begins
    obtain ⟨-, point⟩ := eq_zero_of_marker marker whole_solid whole_digits begins
    cases point
    exact (isDigit_marker marker).2 rfl
  have fraction_eq : fractionOf ('.' :: (fraction ++ rest)) =
      fraction ++ rest.takeWhile Char.isDigit := List.takeWhile_append_of_pos fraction_digits
  have length_eq (digits : List Char) :
      whole.length + 1 + digits.length = (whole ++ '.' :: digits).length := by
    rw [List.length_append, List.length_cons]
    omega
  rw [read_of_digits whole_solid whole_digits unmarked, decimal_eq whole_digits rfl, fraction_eq,
    if_neg (by simp [fraction_solid]), length_eq]

theorem read_float_covers {whole fraction : List Char} (whole_solid : whole ≠ [])
    (fraction_solid : fraction ≠ []) (whole_digits : ∀ digit ∈ whole, digit.isDigit = true)
    (fraction_digits : ∀ digit ∈ fraction, digit.isDigit = true) (rest : List Char) :
    Covers (read (whole ++ '.' :: (fraction ++ rest))) (whole ++ '.' :: fraction).length
      (some (.float (Binary64.ofDigits false whole fraction))) := by
  rw [read_float whole_solid fraction_solid whole_digits fraction_digits]
  refine ⟨some _, rfl, ?_, fun same => ?_⟩
  · simp only [List.length_append, List.length_cons]
    omega
  have none_left : rest.takeWhile Char.isDigit = [] := by
    simp only [List.length_append, List.length_cons] at same
    exact List.length_eq_zero_iff.1 (by omega)
  rw [none_left, List.append_nil]

theorem Spells.literalCharacter_eq {quote character : Char} {text : List Char}
    (spells : Spells quote text character) (rest : List Char) :
    literalCharacter (text ++ rest) = ⟨.ok character, text.length⟩ := by
  cases spells with
  | plain _ unescaped _ => cases rest <;> simp [literalCharacter, unescaped]
  | escape escaped => simp [literalCharacter, escaped]

/-- Behind one character between single quotes only the start of the rest is looked at. -/
theorem Spells.characterLiteral_eq {character : Char} {text : List Char}
    (spells : Spells '\'' text character) (rest : List Char) :
    characterLiteral (text ++ rest) = characterEnd character text.length rest := by
  have read_eq := spells.literalCharacter_eq rest
  rw [characterLiteral.eq_4, read_eq]
  · dsimp only
    rw [List.drop_left]
  · cases spells <;> simp
  · cases spells with
    | plain unquoted => simpa using unquoted
    | escape => simp
  · cases spells with
    | plain _ _ inline => simpa using inline
    | escape => simp

theorem read_character {text rest : List Char} {value : Char}
    (spells : Spells '\'' text value) :
    read ('\'' :: (text ++ '\'' :: rest)) = ⟨.ok (.character value), text.length + 2⟩ := by
  have quoted (behind : List Char) : read ('\'' :: behind) = behindQuote (characterLiteral behind) :=
    rfl
  rw [quoted, spells.characterLiteral_eq]
  rfl

/-- Characters that are spelled in front of a text are read in front of what is read of it. -/
theorem stringCharacters_append {text value : List Char} (spells : SpellsAll '"' text value)
    (rest : List Char) :
    stringCharacters (text ++ rest) = ⟨(stringCharacters rest).outcome.map (value ++ ·),
      text.length + (stringCharacters rest).length⟩ := by
  induction spells with
  | nil =>
      rw [List.nil_append, List.length_nil, Nat.zero_add]
      cases stringCharacters rest with
      | mk outcome length => cases outcome <;> rfl
  | @cons text others characters character first _ induction =>
      rw [List.append_assoc]
      generalize stringCharacters rest = behind at induction ⊢
      obtain ⟨outcome, length⟩ := behind
      cases first with
      | plain unquoted unescaped inline =>
          rw [List.singleton_append, stringCharacters.eq_def]
          split
          all_goals simp_all [consCharacter]
          cases outcome <;> simp [Except.map] <;> omega
      | escape escaped =>
          simp only [List.cons_append, List.nil_append, stringCharacters, escaped, induction,
            consCharacter]
          cases outcome <;> simp [Except.map] <;> omega

theorem stringCharacters_eq {text value : List Char} (spells : SpellsAll '"' text value)
    (rest : List Char) :
    stringCharacters (text ++ '"' :: rest) = ⟨.ok value, text.length + 1⟩ := by
  rw [stringCharacters_append spells, stringCharacters, Except.map, List.append_nil]

theorem read_string {text value : List Char} (spells : SpellsAll '"' text value)
    (rest : List Char) : read ('"' :: (text ++ '"' :: rest)) =
      ⟨.ok (.string (String.ofList value)), text.length + 2⟩ := by
  have quoted (behind : List Char) : read ('"' :: behind) = behindQuote (stringLiteral behind) :=
    rfl
  rw [quoted, stringLiteral, stringCharacters_eq spells]
  rfl

/-- An operator of two characters is read, whatever stands behind it. -/
theorem read_long {text : List Char} {kind : TokenKind} (member : kind ∈ TokenKind.longOperators)
    (spelled : kind.spelling? = some (String.ofList text)) (rest : List Char) :
    read (text ++ rest) = ⟨.ok kind, text.length⟩ := by
  obtain ⟨first, second, rfl, start⟩ := long_of_spelled member spelled
  have found := (spelledBy?_eq_some longOperators_apart).2 ⟨member, spelled⟩
  simp [read_of_isSignStart start, sign, found]

theorem read_operator_covers {text rest : List Char} {kind : TokenKind}
    (member : kind ∈ TokenKind.longOperators ++ TokenKind.shortOperators)
    (spelled : kind.spelling? = some (String.ofList text)) :
    Covers (read (text ++ rest)) text.length (some kind) := by
  obtain long | short := List.mem_append.1 member
  · rw [read_long long spelled]
    exact ⟨some kind, rfl, le_rfl, fun _ => rfl⟩
  · obtain ⟨first, rfl, start⟩ := short_of_spelled short spelled
    have found := (spelledBy?_eq_some shortOperators_apart).2 ⟨short, spelled⟩
    rw [List.singleton_append, read_of_isSignStart start, sign]
    split
    · next other _ => exact ⟨some other, rfl, by simp, by simp⟩
    · rw [found]
      exact ⟨some kind, rfl, le_rfl, fun _ => rfl⟩

/-- Where no marker is bare, a lexeme at the start of a text is covered by what is read there. -/
theorem Denotes.covers {text : List Char} {meaning : Option TokenKind}
    (denotes : Denotes text meaning) (rest : List Char) (unbare : ¬ BareMarker (text ++ rest)) :
    Covers (read (text ++ rest)) text.length meaning := by
  cases denotes with
  | reserved member spelled =>
      have covers := read_word_covers (isWord_of_reserved member spelled) rest
      rwa [wordKind_of_reserved member spelled] at covers
  | @name first others start parts free =>
      have is_word : isWord (first :: others) = true :=
        (Bool.and_eq_true _ _).mpr ⟨start, List.all_eq_true.2 parts⟩
      have covers := read_word_covers is_word rest
      rwa [wordKind_of_free free] at covers
  | decimal solid all_digits => exact read_decimal_covers solid all_digits unbare
  | marked marker solid all_digits => exact read_marked_covers marker solid all_digits rest
  | @float whole fraction whole_solid fraction_solid whole_digits fraction_digits =>
      have covers := read_float_covers whole_solid fraction_solid whole_digits fraction_digits rest
      rwa [← List.cons_append, ← List.append_assoc] at covers
  | @character inner value spells =>
      rw [List.cons_append, List.append_assoc, List.singleton_append, read_character spells]
      exact ⟨some _, rfl, by simp, fun _ => rfl⟩
  | @string inner value spells =>
      rw [List.cons_append, List.append_assoc, List.singleton_append, read_string spells]
      exact ⟨some _, rfl, by simp, fun _ => rfl⟩
  | operator member spelled => exact read_operator_covers member spelled

/-! ## What is read is a lexeme -/

/-- Whether a reading ends behind a lexeme and gives what it denotes. -/
def EndsBehindLexeme (text : List Char) (reading : Reading TokenKind) (meaning : Option TokenKind) :
    Prop :=
  ∃ lexeme rest, text = lexeme ++ rest ∧ reading.length = lexeme.length ∧ Denotes lexeme meaning

theorem denotes_wordKind {letters : List Char} (is_word : isWord letters = true) :
    Denotes letters (some (wordKind letters)) := by
  cases letters with
  | nil => cases is_word
  | cons first others =>
      obtain ⟨start, parts⟩ := (Bool.and_eq_true _ _).mp is_word
      rw [wordKind]
      cases found : TokenKind.spelledBy? TokenKind.reservedWords (first :: others) with
      | some kind =>
          obtain ⟨member, spelled⟩ := (spelledBy?_eq_some reservedWords_apart).1 found
          exact .reserved member spelled
      | none =>
          refine .name start (List.all_eq_true.1 parts) fun kind member spelled => ?_
          exact absurd (beq_iff_eq.2 spelled) (List.find?_eq_none.1 found kind member)

theorem word_ends {first : Char} {rest : List Char} (start : isWordStart first = true)
    {meaning : Option TokenKind} (yields : Yields (word (first :: rest)) meaning) :
    EndsBehindLexeme (first :: rest) (word (first :: rest)) meaning := by
  obtain ⟨more, behind, rfl, parts, stopped⟩ := exists_run isWordPart rest
  have all_parts : ∀ letter ∈ first :: more, isWordPart letter = true :=
    List.forall_mem_cons.2 ⟨isWordPart_of_isWordStart start, parts⟩
  rw [← List.cons_append, word_eq all_parts, stopped, List.append_nil] at yields ⊢
  obtain rfl : meaning = some (wordKind (first :: more)) := yields.unique rfl
  exact ⟨first :: more, behind, rfl, rfl, denotes_wordKind
    ((Bool.and_eq_true _ _).mpr ⟨start, List.all_eq_true.2 parts⟩)⟩

theorem radix_eq_of_markers {left right : Radix} {letter : Char}
    (marks_left : (left, letter) ∈ markers) (marks_right : (right, letter) ∈ markers) :
    left = right := by
  have apart : ∀ left ∈ markers, ∀ right ∈ markers, left.2 = right.2 → left.1 = right.1 := by decide
  exact apart _ marks_left _ marks_right rfl

theorem marked_ends {radix : Radix} {letter : Char} (marker : (radix, letter) ∈ markers)
    {text : List Char} {meaning : Option TokenKind} (yields : Yields (marked radix text) meaning) :
    EndsBehindLexeme ('0' :: letter :: text) (marked radix text) meaning ∧
      ¬ BareMarker ('0' :: letter :: text) := by
  obtain ⟨digits, behind, rfl, all_digits, stopped⟩ := exists_run (isDigitOf radix) text
  cases digits with
  | nil =>
      rw [List.nil_append, marked, stopped] at yields
      cases meaning with
      | none => obtain ⟨literal, ⟨⟩⟩ := yields
      | some kind => cases yields
  | cons digit digits =>
      rw [marked_eq (List.cons_ne_nil _ _) all_digits, stopped, List.append_nil] at yields ⊢
      obtain rfl := yields.unique (integerOf_yields ..)
      refine ⟨⟨'0' :: letter :: digit :: digits, behind, rfl, ?_, .marked marker
        (List.cons_ne_nil _ _) all_digits⟩, ?_⟩
      · simp only [List.length_cons]
        omega
      · rintro ⟨other, letter', rest, other_marker, begins, bare⟩
        cases begins
        obtain rfl := radix_eq_of_markers marker other_marker
        rw [List.cons_append, List.head?_cons, Option.all_some,
          all_digits digit List.mem_cons_self] at bare
        cases bare

theorem decimal_ends {text : List Char} (start : text.head?.any Char.isDigit = true)
    {meaning : Option TokenKind} (yields : Yields (decimal text) meaning) :
    EndsBehindLexeme text (decimal text) meaning := by
  obtain ⟨digits, behind, rfl, all_digits, stopped⟩ := exists_run Char.isDigit text
  have solid : digits ≠ [] := by
    rintro rfl
    cases behind with
    | nil => cases start
    | cons first others =>
        have digit : first.isDigit = true := start
        rw [List.takeWhile_cons_of_pos digit] at stopped
        cases stopped
  rw [decimal_eq all_digits stopped] at yields ⊢
  by_cases whole : fractionOf behind = []
  · rw [if_pos whole] at yields ⊢
    obtain rfl := yields.unique (integerOf_yields ..)
    exact ⟨digits, behind, rfl, rfl, .decimal solid all_digits⟩
  · rw [if_neg whole] at yields ⊢
    obtain rfl : meaning = some (.float (Binary64.ofDigits false digits (fractionOf behind))) :=
      yields.unique rfl
    obtain ⟨rest, rfl⟩ : ∃ rest, behind = '.' :: rest := by
      rw [fractionOf.eq_def] at whole
      split at whole
      · exact ⟨_, rfl⟩
      · exact absurd rfl whole
    obtain ⟨fraction, after, rfl, fraction_digits, fraction_stopped⟩ := exists_run Char.isDigit rest
    have fraction_eq : fractionOf ('.' :: (fraction ++ after)) = fraction := by
      rw [fractionOf, List.takeWhile_append_of_pos fraction_digits, fraction_stopped,
        List.append_nil]
    rw [fraction_eq] at whole ⊢
    refine ⟨digits ++ '.' :: fraction, after, by simp, ?_, .float solid whole all_digits
      fraction_digits⟩
    simp only [List.length_append, List.length_cons]
    omega

theorem number_ends {first : Char} {rest : List Char} (digit : first.isDigit = true)
    {meaning : Option TokenKind} (yields : Yields (number (first :: rest)) meaning) :
    EndsBehindLexeme (first :: rest) (number (first :: rest)) meaning ∧
      ¬ BareMarker (first :: rest) := by
  by_cases marks : ∃ radix letter tail, (radix, letter) ∈ markers ∧
      first :: rest = '0' :: letter :: tail
  · obtain ⟨radix, letter, tail, marker, begins⟩ := marks
    rw [begins, number_of_marker marker] at yields ⊢
    exact marked_ends marker yields
  · have unmarked : ∀ radix letter tail, (radix, letter) ∈ markers →
        first :: rest ≠ '0' :: letter :: tail := fun radix letter tail marker begins =>
      marks ⟨radix, letter, tail, marker, begins⟩
    rw [number_of_unmarked unmarked] at yields ⊢
    have start : (first :: rest).head?.any Char.isDigit = true := digit
    refine ⟨decimal_ends start yields, ?_⟩
    rintro ⟨radix, letter, tail, marker, begins, -⟩
    exact unmarked radix letter tail marker begins

theorem not_yields_error {error : LexicalError} {length : Nat} {meaning : Option TokenKind}
    (no_overflow : ∀ literal, error ≠ .integerOverflow literal) :
    ¬ Yields ⟨.error error, length⟩ meaning := by
  cases meaning with
  | none =>
      rintro ⟨literal, overflows⟩
      exact no_overflow literal (Except.error.inj overflows)
  | some kind => exact nofun

theorem breaksOff_escape {unclosed : LexicalError} {behind : Char} (rest : List Char)
    (unescaped : escaped? behind = none) :
    BreaksOff unclosed ('\\' :: behind :: rest) (escapeError behind) := by
  rw [escapeError]
  split
  · next newline => exact newline ▸ .escapedNewline
  · next inline => exact .invalidEscape unescaped inline

theorem BreaksOff.ne_integerOverflow {unclosed error : LexicalError} {text : List Char}
    (breaks : BreaksOff unclosed text error)
    (no_overflow : ∀ literal, unclosed ≠ .integerOverflow literal) (literal : String) :
    error ≠ .integerOverflow literal := by
  cases breaks with
  | endOfText => exact no_overflow literal
  | newline | escapedNewline | invalidEscape | unterminatedEscape => exact nofun

/-- One character between quotes, or what the text breaks off at. -/
theorem literalCharacter_ends {text : List Char} (unquoted : text.head? ≠ some '\'')
    (inline : text.head? ≠ some '\n') :
    (∃ spelling rest value, text = spelling ++ rest ∧ Spells '\'' spelling value ∧
      literalCharacter text = ⟨.ok value, spelling.length⟩) ∨
    ∃ error length, literalCharacter text = ⟨.error error, length⟩ ∧
      BreaksOff .unterminatedCharacter text error := by
  match text with
  | [] => exact .inr ⟨_, _, rfl, .endOfText⟩
  | [character] =>
      by_cases escapes : character = '\\'
      · exact .inr ⟨.unterminatedEscape, 1, by rw [escapes]; rfl, escapes ▸ .unterminatedEscape⟩
      · refine .inl ⟨[character], [], character, rfl, .plain ?_ escapes ?_, ?_⟩
        · simpa using unquoted
        · simpa using inline
        · simp [literalCharacter, escapes]
  | character :: behind :: rest =>
      by_cases escapes : character = '\\'
      · subst escapes
        cases escaped : escaped? behind with
        | some value =>
            exact .inl ⟨['\\', behind], rest, value, rfl, .escape escaped,
              by simp [literalCharacter, escaped]⟩
        | none =>
            exact .inr ⟨escapeError behind, 2, by simp [literalCharacter, escaped],
              breaksOff_escape rest escaped⟩
      · refine .inl ⟨[character], behind :: rest, character, rfl, .plain ?_ escapes ?_, ?_⟩
        · simpa using unquoted
        · simpa using inline
        · simp [literalCharacter, escapes]

theorem character_ends {rest : List Char} {meaning : Option TokenKind}
    (yields : Yields (behindQuote (characterLiteral rest)) meaning) :
    EndsBehindLexeme ('\'' :: rest) (behindQuote (characterLiteral rest)) meaning := by
  rw [characterLiteral.eq_def] at yields ⊢
  split at yields
  · exact absurd yields (not_yields_error nofun)
  · exact absurd yields (not_yields_error nofun)
  · exact absurd yields (not_yields_error nofun)
  · next not_empty unquoted inline =>
    have head_unquoted : rest.head? ≠ some '\'' := fun head =>
      unquoted _ (List.eq_cons_of_mem_head? head)
    have head_inline : rest.head? ≠ some '\n' := fun head =>
      inline _ (List.eq_cons_of_mem_head? head)
    obtain ⟨spelling, after, value, rfl, spells, read⟩ | ⟨error, length, failed, breaks⟩ :=
      literalCharacter_ends head_unquoted head_inline
    · dsimp only at yields ⊢
      rw [read] at yields ⊢
      dsimp only at yields ⊢
      rw [List.drop_left] at yields ⊢
      rw [characterEnd.eq_def] at yields ⊢
      split at yields
      · next others =>
        obtain rfl : meaning = some (.character value) := yields.unique rfl
        exact ⟨'\'' :: (spelling ++ ['\'']), others, by simp, by simp [behindQuote],
          .character spells⟩
      · exact absurd yields (not_yields_error nofun)
      · exact absurd yields (not_yields_error nofun)
      · exact absurd yields (not_yields_error nofun)
    · dsimp only at yields
      rw [failed] at yields
      exact absurd yields (not_yields_error (breaks.ne_integerOverflow nofun))

/-- The characters of a string. -/
theorem stringCharacters_ends (text : List Char) :
    (∃ spelling rest value, text = spelling ++ '"' :: rest ∧ SpellsAll '"' spelling value ∧
      stringCharacters text = ⟨.ok value, spelling.length + 1⟩) ∨
    ∃ spelling rest value error, text = spelling ++ rest ∧ SpellsAll '"' spelling value ∧
      BreaksOff .unterminatedString rest error ∧
      (stringCharacters text).outcome = .error error := by
  fun_induction stringCharacters text with
  | case1 => exact .inr ⟨[], [], [], _, rfl, .nil, .endOfText, rfl⟩
  | case2 rest => exact .inl ⟨[], rest, [], rfl, .nil, rfl⟩
  | case3 rest => exact .inr ⟨[], '\n' :: rest, [], _, rfl, .nil, .newline, rfl⟩
  | case4 => exact .inr ⟨[], ['\\'], [], _, rfl, .nil, .unterminatedEscape, rfl⟩
  | case5 behind rest character escaped induction =>
      obtain ⟨spelling, after, value, rfl, spells, read⟩ |
        ⟨spelling, after, value, error, rfl, spells, breaks, failed⟩ := induction
      · refine .inl ⟨['\\', behind] ++ spelling, after, character :: value, rfl,
          .cons (.escape escaped) spells, ?_⟩
        simp [consCharacter, read, Except.map]
        omega
      · exact .inr ⟨['\\', behind] ++ spelling, after, character :: value, error, rfl,
          .cons (.escape escaped) spells, breaks, by simp [consCharacter, failed, Except.map]⟩
  | case6 behind rest unescaped =>
      exact .inr ⟨[], '\\' :: behind :: rest, [], _, rfl, .nil, breaksOff_escape rest unescaped, rfl⟩
  | case7 character rest unquoted inline last inner induction =>
      have unescaped : character ≠ '\\' := by
        intro escapes
        cases rest with
        | nil => exact last escapes rfl
        | cons behind others => exact inner behind others escapes rfl
      obtain ⟨spelling, after, value, rfl, spells, read⟩ |
        ⟨spelling, after, value, error, rfl, spells, breaks, failed⟩ := induction
      · refine .inl ⟨[character] ++ spelling, after, character :: value, rfl,
          .cons (.plain unquoted unescaped inline) spells, ?_⟩
        simp [consCharacter, read, Except.map]
        omega
      · exact .inr ⟨[character] ++ spelling, after, character :: value, error, rfl,
          .cons (.plain unquoted unescaped inline) spells, breaks,
          by simp [consCharacter, failed, Except.map]⟩

theorem string_ends {rest : List Char} {meaning : Option TokenKind}
    (yields : Yields (behindQuote (stringLiteral rest)) meaning) :
    EndsBehindLexeme ('"' :: rest) (behindQuote (stringLiteral rest)) meaning := by
  obtain ⟨spelling, after, value, rfl, spells, read⟩ | ⟨_, _, _, error, -, -, breaks, failed⟩ :=
    stringCharacters_ends rest
  · have read_eq : behindQuote (stringLiteral (spelling ++ '"' :: after)) =
        ⟨.ok (.string (String.ofList value)), spelling.length + 2⟩ := by
      rw [stringLiteral, read]
      rfl
    rw [read_eq] at yields ⊢
    obtain rfl : meaning = some (.string (String.ofList value)) := yields.unique rfl
    exact ⟨'"' :: (spelling ++ ['"']), after, by simp, by simp, .string spells⟩
  · have failed_eq : behindQuote (stringLiteral rest) =
        ⟨.error error, (stringCharacters rest).length + 1⟩ := by
      rw [stringLiteral, failed]
      rfl
    rw [failed_eq] at yields
    exact absurd yields (not_yields_error (breaks.ne_integerOverflow nofun))

theorem sign_ends {first : Char} {rest : List Char} {meaning : Option TokenKind}
    (yields : Yields (sign first rest) meaning) :
    EndsBehindLexeme (first :: rest) (sign first rest) meaning := by
  rw [sign] at yields ⊢
  cases long : TokenKind.spelledBy? TokenKind.longOperators (first :: rest.take 1) with
  | some kind =>
      rw [long] at yields
      obtain rfl : meaning = some kind := yields.unique rfl
      obtain ⟨member, spelled⟩ := (spelledBy?_eq_some longOperators_apart).1 long
      obtain ⟨head, second, begins, -⟩ := long_of_spelled member spelled
      cases rest with
      | nil => cases begins
      | cons next others =>
          exact ⟨[first, next], others, rfl, rfl, .operator (List.mem_append_left _ member) spelled⟩
  | none =>
      rw [long] at yields
      cases short : TokenKind.spelledBy? TokenKind.shortOperators [first] with
      | some kind =>
          simp only [short] at yields ⊢
          obtain rfl : meaning = some kind := yields.unique rfl
          obtain ⟨member, spelled⟩ := (spelledBy?_eq_some shortOperators_apart).1 short
          exact ⟨[first], rest, rfl, rfl, .operator (List.mem_append_right _ member) spelled⟩
      | none =>
          simp only [short] at yields
          cases meaning with
          | none => obtain ⟨literal, ⟨⟩⟩ := yields
          | some kind => cases yields

/-- What is read from the front of a text is a lexeme there, and no marker is bare. -/
theorem read_ends {first : Char} {rest : List Char} {meaning : Option TokenKind}
    (yields : Yields (read (first :: rest)) meaning) :
    EndsBehindLexeme (first :: rest) (read (first :: rest)) meaning ∧
      ¬ BareMarker (first :: rest) := by
  by_cases digit : first.isDigit = true
  · rw [read_of_isDigit digit] at yields ⊢
    exact number_ends digit yields
  have unbare : ¬ BareMarker (first :: rest) := not_bareMarker fun zero => digit (zero ▸ rfl)
  refine ⟨?_, unbare⟩
  by_cases letter : isWordStart first = true
  · rw [read_of_isWordStart letter] at yields ⊢
    exact word_ends letter yields
  rw [read, if_neg digit, if_neg letter] at yields ⊢
  by_cases quote : first = '\''
  · subst quote
    exact character_ends yields
  rw [if_neg quote] at yields ⊢
  by_cases doubleQuote : first = '"'
  · subst doubleQuote
    exact string_ends yields
  rw [if_neg doubleQuote] at yields ⊢
  exact sign_ends yields

end Minilang.Lexeme
