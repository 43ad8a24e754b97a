import Minilang.Proofs.Binary64.Texts
import Minilang.Proofs.Token.LongestMatch

/-!
# Writing tokens

Every kind of token can be written as a text that is read as this kind. A space between two such texts keeps
them apart, so that a list of kinds that is written is read back.
-/

namespace Minilang

/-! ## Texts of kinds -/

/-- What stands between the first two backquotes of a text. -/
def betweenBackquotes (text : String) : List Char :=
  ((text.toList.dropWhile (· ≠ '\x60')).drop 1).takeWhile (· ≠ '\x60')

/-- A character between quotes. Only the quote, the backslash and the newline are escaped. -/
def escapedBetween (quote character : Char) : List Char :=
  if character = '\n' then ['\\', 'n']
  else if character = '\\' ∨ character = quote then ['\\', character]
  else [character]

/-- A literal that stands for characters. -/
def literalText (quote : Char) (characters : List Char) : List Char :=
  quote :: (characters.flatMap (escapedBetween quote) ++ [quote])

/-- How kinds are written: as messages show them where they show a spelling, as what they carry where that is
a text, and a number with a point as digits of which it is the value. -/
inductive Written : TokenKind → List Char → Prop
  | fixed {kind : TokenKind} (spelled : kind.spelling?.isSome = true) :
      Written kind (betweenBackquotes kind.description)
  | integer {value : Int64} (nonneg : 0 ≤ value) (radix : Radix) :
      Written (.integer value radix) (betweenBackquotes (TokenKind.integer value radix).description)
  | identifier {name : String} (is_word : Lexeme.isWord name.toList = true)
      (free : ∀ kind ∈ TokenKind.reservedWords, kind.spelling? ≠ some name) :
      Written (.identifier name) name.toList
  | float {whole fraction : List Char} {value : Binary64} (whole_solid : whole ≠ [])
      (fraction_solid : fraction ≠ []) (whole_digits : ∀ digit ∈ whole, digit.isDigit = true)
      (fraction_digits : ∀ digit ∈ fraction, digit.isDigit = true)
      (spells : Binary64.ofText? (String.ofList (whole ++ '.' :: fraction)) = some value) :
      Written (.float value) (whole ++ '.' :: fraction)
  | character (value : Char) : Written (.character value) (literalText '\'' [value])
  | string (value : String) : Written (.string value) (literalText '"' value.toList)

namespace Lexeme

/-! ## Digits -/

theorem toList_digitsIn (radix : Radix) (value : Nat) :
    (Text.digitsIn radix value).toList =
      if value < radix.base then [(Nat.digitChar value).toUpper]
      else (Text.digitsIn radix (value / radix.base)).toList ++
        [(Nat.digitChar (value % radix.base)).toUpper] := by
  have based : 1 < radix.base := by cases radix <;> decide
  rw [Text.digitsIn, Text.digitsIn, String.toList_ofList, String.toList_ofList, Nat.toDigits_eq_if based]
  split
  · rfl
  · rw [List.map_append, List.map_singleton]

/-- A digit stands for the number below the base that it was made of. -/
theorem digit_made (radix : Radix) : ∀ digit < radix.base,
    isDigitOf radix (Nat.digitChar digit).toUpper = true ∧
      digitValue (Nat.digitChar digit).toUpper = digit := by
  cases radix <;> decide

theorem digitsValue_append_singleton (radix : Radix) (digits : List Char) (digit : Char) :
    digitsValue radix (digits ++ [digit]) =
      radix.base * digitsValue radix digits + digitValue digit := by
  rw [digitsValue, List.foldl_append, List.foldl_cons, List.foldl_nil, digitsValue]

/-- The digits of a number are digits of its base, and stand for the number. -/
theorem digitsIn_reads (radix : Radix) (value : Nat) :
    (∀ digit ∈ (Text.digitsIn radix value).toList, isDigitOf radix digit = true) ∧
      digitsValue radix (Text.digitsIn radix value).toList = value := by
  have positive : 0 < radix.base := by cases radix <;> decide
  induction value using Nat.strongRecOn with
  | ind value induction =>
    rw [toList_digitsIn]
    split
    · next small =>
      obtain ⟨is_digit, value_eq⟩ := digit_made radix value small
      refine ⟨by simpa using is_digit, ?_⟩
      rw [← List.nil_append [_], digitsValue_append_singleton, value_eq]
      exact Nat.zero_add value
    · next large =>
      obtain ⟨is_digit, value_eq⟩ := digit_made radix _ (Nat.mod_lt value positive)
      have shrinks : value / radix.base < value := by
        refine Nat.div_lt_self (by omega) ?_
        cases radix <;> decide
      obtain ⟨all_digits, others_eq⟩ := induction _ shrinks
      refine ⟨List.forall_mem_append.2 ⟨all_digits, by simpa using is_digit⟩, ?_⟩
      rw [digitsValue_append_singleton, others_eq, value_eq, Nat.div_add_mod]

theorem digitsIn_solid (radix : Radix) (value : Nat) : (Text.digitsIn radix value).toList ≠ [] := by
  rw [toList_digitsIn]
  split <;> simp

/-- Digits of base ten have no case. -/
theorem map_toUpper_toDigits (value : Nat) :
    (Nat.toDigits 10 value).map Char.toUpper = Nat.toDigits 10 value := by
  refine (List.map_congr_left fun digit member => ?_).trans (List.map_id _)
  have is_digit := Nat.isDigit_of_mem_toDigits (by decide) (by decide) member
  have atMost : digit.val ≤ 57 := of_decide_eq_true (Bool.and_eq_true_iff.1 is_digit).2
  exact dif_neg fun lower => absurd (UInt32.le_trans lower.1 atMost) (by decide)

/-- An integer that is not negative is shown as the marker of its base and its digits. -/
theorem toList_integerText {value : Int64} (nonneg : 0 ≤ value) (radix : Radix) :
    (Text.integerText value radix).toList =
      radix.marker.toList ++ (Text.digitsIn radix value.toNatClampNeg).toList := by
  have marked_eq (text : String) :
      (text ++ Text.digitsIn radix value.toUInt64.toNat).toList =
        text.toList ++ (Text.digitsIn radix value.toNatClampNeg).toList := by
    rw [String.toList_append, Int64.toNat_toUInt64_of_le nonneg]
  cases radix with
  | binary => exact marked_eq _
  | hexadecimal => exact marked_eq _
  | decimal =>
      have toInt_eq : value.toInt = (value.toNatClampNeg : Int) :=
        (Int.toNat_of_nonneg (Int64.le_iff_toInt_le.1 nonneg)).symm
      have text_eq : Text.integerText value .decimal = value.toNatClampNeg.repr := by
        rw [Text.integerText, toInt_eq]
        rfl
      have digits_eq : (Text.digitsIn .decimal value.toNatClampNeg).toList =
          Nat.toDigits 10 value.toNatClampNeg := by
        rw [Text.digitsIn, String.toList_ofList]
        exact map_toUpper_toDigits _
      rw [text_eq, Nat.toList_repr, digits_eq]
      rfl

/-- An integer that is not negative is shown as a lexeme that denotes it. -/
theorem denotes_integerText {value : Int64} (nonneg : 0 ≤ value) (radix : Radix) :
    Denotes (Text.integerText value radix).toList (some (.integer value radix)) := by
  obtain ⟨all_digits, value_eq⟩ := digitsIn_reads radix value.toNatClampNeg
  have solid := digitsIn_solid radix value.toNatClampNeg
  have denoted : integer? radix (Text.digitsIn radix value.toNatClampNeg).toList =
      some (.integer value radix) := by
    rw [digitsValue_eq] at value_eq
    rw [integer?, value_eq, Int64.ofNat_toNatClampNeg value nonneg]
    exact if_pos value.toNatClampNeg_lt
  rw [toList_integerText nonneg, ← denoted]
  cases radix with
  | binary => exact .marked (by decide) solid all_digits
  | decimal =>
      have unmarked : Radix.decimal.marker.toList = [] := rfl
      rw [unmarked, List.nil_append]
      exact .decimal solid all_digits
  | hexadecimal => exact .marked (by decide) solid all_digits

/-! ## Words and literals -/

theorem escapedBetween_spells {quote : Char} (escaped : escaped? quote = some quote)
    (character : Char) : Spells quote (escapedBetween quote character) character := by
  rw [escapedBetween]
  split
  · next newline => exact newline ▸ .escape rfl
  · next inline =>
    split
    · next special =>
      obtain rfl | rfl := special
      · exact .escape rfl
      · exact .escape escaped
    · next plain =>
      obtain ⟨unescaped, unquoted⟩ := not_or.1 plain
      exact .plain unquoted unescaped inline

theorem flatMap_spells {quote : Char} (escaped : escaped? quote = some quote)
    (characters : List Char) :
    SpellsAll quote (characters.flatMap (escapedBetween quote)) characters := by
  induction characters with
  | nil => exact .nil
  | cons character characters induction =>
      rw [List.flatMap_cons]
      exact .cons (escapedBetween_spells escaped character) induction

/-- What has a spelling is a reserved word or an operator. -/
theorem mem_tables_of_spelled {kind : TokenKind} (spelled : kind.spelling?.isSome = true) :
    kind ∈ TokenKind.reservedWords ++ (TokenKind.longOperators ++ TokenKind.shortOperators) := by
  cases kind with
  | punctuation sign => cases sign <;> decide
  | relational operator => cases operator <;> decide
  | arithmetic operator => cases operator <;> decide
  | bitwise operator => cases operator <;> decide
  | logical operator => cases operator <;> decide
  | keyword word => cases word <;> decide
  | basicType type => cases type <;> decide
  | boolean value => cases value <;> decide
  | endOfInput | identifier | integer | float | character | string => cases spelled

end Lexeme

/-- Between backquotes there is what was put there. -/
theorem betweenBackquotes_append {front inside : String} (front_plain : '\x60' ∉ front.toList)
    (inside_plain : '\x60' ∉ inside.toList) :
    betweenBackquotes (front ++ TokenKind.inBackquotes inside) = inside.toList := by
  have text_eq : (front ++ TokenKind.inBackquotes inside).toList =
      front.toList ++ '\x60' :: (inside.toList ++ ['\x60']) := by
    have quoted_eq : TokenKind.inBackquotes inside = "`" ++ inside ++ "`" := rfl
    simp [quoted_eq]
  have others {text : List Char} (plain : '\x60' ∉ text) :
      ∀ character ∈ text, decide (character ≠ '\x60') = true := fun character member =>
    decide_eq_true (ne_of_mem_of_not_mem member plain)
  rw [betweenBackquotes, text_eq, List.dropWhile_append_of_pos (others front_plain),
    List.dropWhile_cons_of_neg (by simp), List.drop_one, List.tail_cons,
    List.takeWhile_append_of_pos (others inside_plain), List.takeWhile_cons_of_neg (by simp),
    List.append_nil]

namespace Written

open Lexeme

/-- A kind with a spelling is written as this spelling. -/
theorem fixed_eq {kind : TokenKind} {spelling : String} (spelled : kind.spelling? = some spelling) :
    betweenBackquotes kind.description = spelling.toList := by
  have plain : ∀ kind ∈ TokenKind.reservedWords ++ (TokenKind.longOperators ++
      TokenKind.shortOperators), kind.spelling?.all ('\x60' ∉ ·.toList) = true := by decide
  have shown : kind.description = "" ++ TokenKind.inBackquotes spelling := by
    rw [String.empty_append]
    cases kind <;> cases spelled <;> rfl
  have spelling_plain := plain kind (mem_tables_of_spelled (Option.isSome_of_eq_some spelled))
  rw [spelled, Option.all_some] at spelling_plain
  rw [shown]
  exact betweenBackquotes_append List.not_mem_nil (of_decide_eq_true spelling_plain)

/-- An integer is written as it is shown. -/
theorem integer_eq {value : Int64} (nonneg : 0 ≤ value) (radix : Radix) :
    betweenBackquotes (TokenKind.integer value radix).description =
      (Text.integerText value radix).toList := by
  have front_plain : '\x60' ∉ "integer ".toList := by decide
  have marker_plain : '\x60' ∉ radix.marker.toList := by cases radix <;> decide
  have no_digit : isDigitOf radix '\x60' = false := by cases radix <;> decide
  refine betweenBackquotes_append front_plain ?_
  rw [toList_integerText nonneg, List.mem_append]
  rintro (marker | digit)
  · exact marker_plain marker
  · have is_digit := (digitsIn_reads radix _).1 _ digit
    rw [no_digit] at is_digit
    cases is_digit

/-- What is written is a lexeme that denotes the kind. -/
theorem denotes {kind : TokenKind} {text : List Char} (written : Written kind text) :
    Denotes text (some kind) := by
  cases written with
  | fixed spelled =>
      obtain ⟨spelling, spelling_eq⟩ := Option.isSome_iff_exists.1 spelled
      have spelled_text : kind.spelling? = some (String.ofList spelling.toList) := by
        rw [String.ofList_toList, spelling_eq]
      rw [fixed_eq spelling_eq]
      obtain word | operator := List.mem_append.1 (mem_tables_of_spelled spelled)
      · exact .reserved word spelled_text
      · exact .operator operator spelled_text
  | integer nonneg radix =>
      rw [integer_eq nonneg]
      exact denotes_integerText nonneg radix
  | @identifier name is_word free =>
      cases letters_eq : name.toList with
      | nil =>
          rw [letters_eq] at is_word
          cases is_word
      | cons first letters =>
          rw [letters_eq] at is_word
          obtain ⟨start, parts⟩ := (Bool.and_eq_true _ _).mp is_word
          obtain rfl : String.ofList (first :: letters) = name := by
            rw [← letters_eq, String.ofList_toList]
          exact .name start (List.all_eq_true.1 parts) free
  | @float whole fraction value whole_solid fraction_solid whole_digits fraction_digits spells =>
      rw [Binary64.ofText?_point whole_solid (List.all_eq_true.2 whole_digits)
        (List.all_eq_true.2 fraction_digits), Option.some_inj] at spells
      rw [← spells]
      exact .float whole_solid fraction_solid whole_digits fraction_digits
  | character value =>
      rw [literalText, List.flatMap_singleton]
      exact .character (escapedBetween_spells rfl value)
  | string value =>
      have denotes := Denotes.string (flatMap_spells rfl value.toList)
      rwa [String.ofList_toList] at denotes

end Written

/-! ## Texts with spaces between them -/

namespace Lexeme

/-- Whether a text is at its end or goes on with a space. -/
def Spaced (text : List Char) : Prop := ∀ character ∈ text.head?, character = ' '

variable {text rest : List Char} {kind : TokenKind}

theorem Spaced.takeWhile_eq (spaced : Spaced rest) {accepts : Char → Bool}
    (rejects : accepts ' ' = false) : rest.takeWhile accepts = [] := by
  cases rest with
  | nil => rfl
  | cons first others =>
      obtain rfl := spaced first rfl
      exact List.takeWhile_cons_of_neg (by simp [rejects])

theorem Spaced.fractionOf_eq (spaced : Spaced rest) : fractionOf rest = [] := by
  rw [fractionOf.eq_def]
  split
  · next point => cases spaced '.' rfl
  · rfl

theorem isDigitOf_space (radix : Radix) : isDigitOf radix ' ' = false := by
  cases radix <;> decide

/-- Digits do not run on into a marker of a base, where there is a space behind them. -/
theorem Spaced.unmarked (spaced : Spaced rest) {digits : List Char} (solid : digits ≠ [])
    (all_digits : ∀ digit ∈ digits, digit.isDigit = true) (radix : Radix) (letter : Char)
    (tail : List Char) (marker : (radix, letter) ∈ markers) :
    digits ++ rest ≠ '0' :: letter :: tail := by
  intro begins
  obtain ⟨-, rfl⟩ := eq_zero_of_marker marker solid all_digits begins
  obtain rfl := spaced letter rfl
  exact absurd marker (by cases radix <;> decide)

/-- An operator of one character is read where no longer one starts. -/
theorem read_short_of_alone {first : Char} (member : kind ∈ TokenKind.shortOperators)
    (spelled : kind.spelling? = some (String.ofList [first]))
    (alone : ∀ other ∈ TokenKind.longOperators,
      other.spelling? ≠ some (String.ofList (first :: rest.take 1))) :
    read (first :: rest) = ⟨.ok kind, 1⟩ := by
  obtain ⟨_, ⟨⟩, start⟩ := short_of_spelled member spelled
  have none_long : TokenKind.spelledBy? TokenKind.longOperators (first :: rest.take 1) = none := by
    refine Option.eq_none_iff_forall_ne_some.2 fun other found => ?_
    obtain ⟨long, long_spelled⟩ := (spelledBy?_eq_some longOperators_apart).1 found
    exact alone other long long_spelled
  rw [read_of_isSignStart start, sign, none_long,
    (spelledBy?_eq_some shortOperators_apart).2 ⟨member, spelled⟩]

/-- An operator of one character is read where a space follows. -/
theorem read_short (member : kind ∈ TokenKind.shortOperators)
    (spelled : kind.spelling? = some (String.ofList text)) (spaced : Spaced rest) :
    read (text ++ rest) = ⟨.ok kind, text.length⟩ := by
  obtain ⟨first, rfl, start⟩ := short_of_spelled member spelled
  refine read_short_of_alone member spelled fun other long long_spelled => ?_
  obtain ⟨head, second, begins, -⟩ := long_of_spelled long long_spelled
  have no_space : ∀ kind ∈ TokenKind.longOperators,
      kind.spelling?.all (' ' ∉ ·.toList) = true := by decide
  have plain := no_space other long
  rw [long_spelled, Option.all_some, String.toList_ofList] at plain
  cases rest with
  | nil => cases begins
  | cons next others =>
      obtain rfl := spaced next rfl
      exact absurd (by simp) (of_decide_eq_true plain)

/-- An operator of one character that begins no longer one is read whatever follows. -/
theorem read_short_of_apart {first : Char} (member : kind ∈ TokenKind.shortOperators)
    (spelled : kind.spelling? = some (String.ofList [first]))
    (apart : ∀ other ∈ TokenKind.longOperators,
      other.spelling?.all (·.toList.head? ≠ some first) = true) (rest : List Char) :
    read (first :: rest) = ⟨.ok kind, 1⟩ := by
  refine read_short_of_alone member spelled fun other long long_spelled => ?_
  have begins := apart other long
  rw [long_spelled, Option.all_some, String.toList_ofList] at begins
  exact of_decide_eq_true begins rfl

/-- A word is read as it is where no letter follows. -/
theorem read_word_alone (is_word : isWord text = true) (no_letters : rest.takeWhile isWordPart = []) :
    read (text ++ rest) = ⟨.ok (wordKind text), text.length⟩ := by
  rw [read_word is_word, no_letters, List.append_nil]

/-- The digits of an integer that is not too large give it. -/
theorem integerOf_eq {radix : Radix} {digits : List Char} (denoted : integer? radix digits = some kind) :
    integerOf radix digits = .ok kind := by
  have yields := integerOf_yields radix digits 0
  rwa [denoted] at yields

/-- A lexeme is read as a whole where a space follows. -/
theorem Denotes.read_spaced (denotes : Denotes text (some kind)) (spaced : Spaced rest) :
    read (text ++ rest) = ⟨.ok kind, text.length⟩ := by
  have no_digits (radix : Radix) : rest.takeWhile (isDigitOf radix) = [] :=
    spaced.takeWhile_eq (isDigitOf_space radix)
  generalize meaning_eq : some kind = meaning at denotes
  cases denotes with
  | reserved member spelled =>
      cases meaning_eq
      rw [read_word_alone (isWord_of_reserved member spelled) (spaced.takeWhile_eq rfl),
        wordKind_of_reserved member spelled]
  | @name first others start parts free =>
      cases meaning_eq
      have is_word : isWord (first :: others) = true :=
        (Bool.and_eq_true _ _).mpr ⟨start, List.all_eq_true.2 parts⟩
      rw [read_word_alone is_word (spaced.takeWhile_eq rfl), wordKind_of_free free]
  | decimal solid all_digits =>
      -- Digits could go on as a marked integer or behind a point; a space allows neither.
      rw [read_of_digits solid all_digits (spaced.unmarked solid all_digits),
        decimal_eq all_digits (no_digits .decimal), if_pos spaced.fractionOf_eq,
        integerOf_eq meaning_eq.symm]
  | @marked radix letter digits marker solid all_digits =>
      rw [List.cons_append, List.cons_append, read_marked marker solid all_digits, no_digits radix,
        List.append_nil, integerOf_eq meaning_eq.symm, List.length_cons, List.length_cons, Nat.add_comm]
  | float whole_solid fraction_solid whole_digits fraction_digits =>
      cases meaning_eq
      have none_behind : rest.takeWhile Char.isDigit = [] := no_digits .decimal
      rw [List.append_assoc, List.cons_append,
        read_float whole_solid fraction_solid whole_digits fraction_digits, none_behind,
        List.append_nil]
  | character spells =>
      cases meaning_eq
      rw [List.cons_append, List.append_assoc, List.singleton_append, read_character spells]
      simp
  | string spells =>
      cases meaning_eq
      rw [List.cons_append, List.append_assoc, List.singleton_append, read_string spells]
      simp
  | operator member spelled =>
      cases meaning_eq
      obtain long | short := List.mem_append.1 member
      · exact read_long long spelled rest
      · exact read_short short spelled spaced

/-- Whether a text is made up of lexemes of some kinds. -/
def MadeUp (kinds : List TokenKind) (text : List Char) : Prop :=
  ∃ decomposition : Decomposition, decomposition.kinds = kinds ∧ decomposition.Of text

namespace MadeUp

variable {kinds : List TokenKind}

theorem nil : MadeUp [] [] := ⟨⟨[], []⟩, rfl, .last .nil⟩

/-- What is read from the front is the first lexeme. -/
theorem cons (others : MadeUp kinds rest) (solid : text ≠ [])
    (read_eq : read (text ++ rest) = ⟨.ok kind, text.length⟩) : MadeUp (kind :: kinds) (text ++ rest) := by
  obtain ⟨decomposition, rfl, decomposes⟩ := others
  obtain ⟨lexeme, after, whole_eq, length_eq, denotes, longest, unbare⟩ :=
    longest_of_read (List.append_ne_nil_of_left_ne_nil solid rest) (congrArg Reading.outcome read_eq)
  rw [read_eq] at length_eq
  obtain ⟨rfl, -⟩ := List.append_inj whole_eq length_eq
  exact ⟨.cons ⟨[], text, kind⟩ decomposition, rfl, .piece .nil denotes longest unbare decomposes⟩

/-- A space in front belongs to the first gap. -/
theorem space (others : MadeUp kinds text) : MadeUp kinds (' ' :: text) := by
  obtain ⟨decomposition, kinds_eq, decomposes⟩ := others
  cases decomposes with
  | last is_gap => exact ⟨⟨[], ' ' :: text⟩, kinds_eq, .last (.blank rfl is_gap)⟩
  | @piece piece others rest is_gap denotes longest unbare others_of =>
      exact ⟨.cons ⟨' ' :: piece.gap, piece.lexeme, piece.kind⟩ others, kinds_eq,
        .piece (.blank rfl is_gap) denotes longest unbare others_of⟩

/-- A lexeme is the first one where a space follows. -/
theorem spaced (others : MadeUp kinds rest) (spaced : Spaced rest) (denotes : Denotes text (some kind)) :
    MadeUp (kind :: kinds) (text ++ rest) := by
  obtain ⟨first, tail, text_eq, -⟩ := denotes.exists_first
  exact others.cons (by simp [text_eq]) (denotes.read_spaced spaced)

end MadeUp

theorem spaced_flatMap (texts : List (List Char)) : Spaced (texts.flatMap (' ' :: ·)) := by
  cases texts with
  | nil => simp [Spaced]
  | cons text texts => simp [Spaced]

/-- Lexemes with a space in front of each make up a text. -/
theorem madeUp_flatMap {kinds : List TokenKind} {texts : List (List Char)}
    (written : List.Forall₂ Written kinds texts) : MadeUp kinds (texts.flatMap (' ' :: ·)) := by
  induction written with
  | nil => exact .nil
  | @cons kind text kinds texts first _ induction =>
      exact (induction.spaced (spaced_flatMap texts) first.denotes).space

theorem intercalate_cons_eq (text : List Char) (texts : List (List Char)) :
    [' '].intercalate (text :: texts) = text ++ texts.flatMap (' ' :: ·) := by
  induction texts generalizing text with
  | nil => simp
  | cons next texts induction =>
      rw [List.intercalate_cons_cons, induction, List.append_assoc]
      rfl

/-- Lexemes with a space between any two make up a text. -/
theorem madeUp_intercalate {kinds : List TokenKind} {texts : List (List Char)}
    (written : List.Forall₂ Written kinds texts) : MadeUp kinds ([' '].intercalate texts) := by
  cases written with
  | nil => exact .nil
  | @cons kind text kinds texts first others =>
      rw [intercalate_cons_eq]
      exact (madeUp_flatMap others).spaced (spaced_flatMap texts) first.denotes

/-! ## What can be written -/

theorem exists_written_integer {radix : Radix} {digits : List Char}
    (denoted : integer? radix digits = some kind) : ∃ text, Written kind text := by
  rw [integer?] at denoted
  split at denoted
  · next small =>
    cases denoted
    refine ⟨_, .integer ?_ radix⟩
    rw [Int64.le_iff_toInt_le, Int64.toInt_ofNat_of_lt small]
    exact Int.natCast_nonneg _
  · cases denoted

/-- Whatever a lexeme denotes can be written. -/
theorem Denotes.exists_written (denotes : Denotes text (some kind)) : ∃ text, Written kind text := by
  generalize meaning_eq : some kind = meaning at denotes
  cases denotes with
  | reserved member spelled =>
      cases meaning_eq
      exact ⟨_, .fixed (Option.isSome_of_eq_some spelled)⟩
  | operator member spelled =>
      cases meaning_eq
      exact ⟨_, .fixed (Option.isSome_of_eq_some spelled)⟩
  | @name first others start parts free =>
      cases meaning_eq
      refine ⟨_, .identifier ?_ free⟩
      rw [String.toList_ofList]
      exact (Bool.and_eq_true _ _).mpr ⟨start, List.all_eq_true.2 parts⟩
  | decimal => exact exists_written_integer meaning_eq.symm
  | marked => exact exists_written_integer meaning_eq.symm
  | float whole_solid fraction_solid whole_digits fraction_digits =>
      cases meaning_eq
      exact ⟨_, .float whole_solid fraction_solid whole_digits fraction_digits
        (Binary64.ofText?_point whole_solid (List.all_eq_true.2 whole_digits)
          (List.all_eq_true.2 fraction_digits))⟩
  | character =>
      cases meaning_eq
      exact ⟨_, .character _⟩
  | string =>
      cases meaning_eq
      exact ⟨_, .string _⟩

theorem Decomposition.Of.exists_written {decomposition : Decomposition}
    (decomposes : decomposition.Of text) :
    ∃ texts, List.Forall₂ Written decomposition.kinds texts := by
  induction decomposes with
  | last => exact ⟨[], .nil⟩
  | piece _ denotes _ _ _ induction =>
      obtain ⟨first, written⟩ := denotes.exists_written
      obtain ⟨texts, others⟩ := induction
      exact ⟨first :: texts, .cons written others⟩

/-- A text with a decomposition is read. -/
theorem Decomposition.Of.tokenize_eq {source : Source} {decomposition : Decomposition}
    (decomposes : decomposition.Of source.text.toList) :
    ∃ tokens, tokenize source = .ok tokens ∧
      tokens.map Token.kind = decomposition.kinds ++ [.endOfInput] :=
  Scanner.tokensWithin_of_decomposition decomposes rfl (Nat.lt_succ_self _)

/-- A text that is made up of lexemes is read as their kinds, with the end of input behind them. -/
theorem MadeUp.exists_tokens {kinds : List TokenKind} {text : String} (made_up : MadeUp kinds text.toList)
    (name : String) : ∃ front last, tokenize ⟨name, text⟩ = .ok (front ++ [last]) ∧
      front.map Token.kind = kinds ∧ last.kind = .endOfInput := by
  obtain ⟨decomposition, rfl, decomposes⟩ := made_up
  have tokenized : ∃ tokens, tokenize ⟨name, text⟩ = .ok tokens ∧
      tokens.map Token.kind = decomposition.kinds ++ [.endOfInput] := decomposes.tokenize_eq
  obtain ⟨tokens, read, kinds_eq⟩ := tokenized
  obtain ⟨front, behind, rfl, front_eq, behind_eq⟩ := List.map_eq_append_iff.1 kinds_eq
  obtain ⟨last, rfl, last_eq⟩ := List.map_eq_singleton_iff.1 behind_eq
  exact ⟨front, last, read, front_eq, last_eq⟩

end Lexeme

open Lexeme

/-- Kinds that are written with a space between any two are read back, with the end of input behind them.
Whatever is read from any text can be written so. -/
theorem tokenize_written :
    (∀ name kinds texts, List.Forall₂ Written kinds texts →
      ∃ tokens, tokenize ⟨name, String.ofList ([' '].intercalate texts)⟩ = .ok tokens ∧
        tokens.map Token.kind = kinds ++ [.endOfInput]) ∧
    ∀ source tokens, tokenize source = .ok tokens →
      ∃ kinds texts, List.Forall₂ Written kinds texts ∧
        tokens.map Token.kind = kinds ++ [.endOfInput] := by
  refine ⟨fun name kinds texts written => ?_, fun source tokens read => ?_⟩
  · obtain ⟨decomposition, rfl, decomposes⟩ := madeUp_intercalate written
    have text_eq : (String.ofList ([' '].intercalate texts)).toList = [' '].intercalate texts :=
      String.toList_ofList
    exact Decomposition.Of.tokenize_eq (text_eq.symm ▸ decomposes)
  · obtain ⟨decomposition, decomposes⟩ := Scanner.exists_decomposition read
    obtain ⟨texts, written⟩ := decomposes.exists_written
    obtain ⟨same, read_again, kinds_eq⟩ := decomposes.tokenize_eq
    cases read.symm.trans read_again
    exact ⟨_, texts, written, kinds_eq⟩

/-- Signs, numbers and a name that would run into one another without spaces, and literals with escapes. -/
def closeKinds : List TokenKind :=
  [.relational .lt, .punctuation .assign, .integer 255 .hexadecimal,
    .float (.ofDigits false ['0'] ['5']), .identifier "x", .character '\'', .string "a\n"]

theorem tokenize_written_of_closeKinds : ∃ texts tokens, List.Forall₂ Written closeKinds texts ∧
    [' '].intercalate texts = "< = 0xFF 0.5 x '\\'' \"a\\n\"".toList ∧
    tokenize ⟨"t", String.ofList ([' '].intercalate texts)⟩ = .ok tokens ∧
    tokens.map Token.kind = closeKinds ++ [.endOfInput] := by
  have half : Written (.float (.ofDigits false ['0'] ['5'])) ['0', '.', '5'] :=
    .float (by decide) (by decide) (by simp) (by simp) (Binary64.ofText?_point (by decide) rfl rfl)
  have written : List.Forall₂ Written closeKinds _ :=
    .cons (.fixed rfl) (.cons (.fixed rfl) (.cons (.integer (by decide) .hexadecimal)
      (.cons half (.cons (.identifier (by decide) (by decide))
        (.cons (.character _) (.cons (.string _) .nil))))))
  obtain ⟨tokens, read, kinds_eq⟩ := tokenize_written.1 "t" closeKinds _ written
  exact ⟨_, tokens, written, by decide +kernel, read, kinds_eq⟩

end Minilang
