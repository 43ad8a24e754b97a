import Mathlib
import Minilang.Ir.Text
import Minilang.Proofs.Binary64.Texts
import Minilang.Proofs.Ir.Typing

/-!
# Words of lines

A line of the text of a module consists of words with blanks, commas and brackets between them. The words
tell what an instruction does and what it is applied to, because every constant stands behind its type and
addresses of global objects differ from those of functions.
-/

namespace Minilang.Ir

/-! ## Words -/

/-- Whether a character belongs to no word. -/
def isMark (character : Char) : Bool :=
  character ∈ [' ', ',', '(', ')', '[', ']', '\n', '\'']

/-- Whether a character belongs to names, numbers and labels. -/
def isLetter (character : Char) : Bool :=
  character.isAlphanum || character ∈ ['.', '-', '_']

theorem isMark_of_isLetter {character : Char} (letter : isLetter character = true) :
    isMark character = false := by
  by_contra mark
  have member := of_decide_eq_true (Bool.not_eq_false _ ▸ mark : isMark character = true)
  revert letter
  simp only [List.mem_cons, List.not_mem_nil, or_false] at member
  rcases member with rfl | rfl | rfl | rfl | rfl | rfl | rfl | rfl <;> decide

/-- The words of a text, which stand between marks. -/
def words (text : String) : List String :=
  ((text.toList.splitOnP isMark).filter fun word => word ≠ []).map String.ofList

/-- Whether a text is a word. -/
structure IsWord (text : String) : Prop where
  /-- It is not empty. -/
  ne_empty : text ≠ ""
  /-- It has no marks. -/
  unmarked : text.toList.any isMark = false

/-- Whether a text is made of letters. -/
def Lettered (text : String) : Prop := text.toList.all isLetter = true

instance (text : String) : Decidable (Lettered text) := inferInstanceAs (Decidable (_ = true))

theorem IsWord.isMark_eq {text : String} (isWord : IsWord text) :
    ∀ character ∈ text.toList, isMark character = false := by
  simpa [List.any_eq_false] using isWord.unmarked

/-- There are no marks among letters. -/
theorem Lettered.unmarked {text : String} (lettered : Lettered text) :
    text.toList.any isMark = false := by
  rw [List.any_eq_false]
  intro character member
  rw [isMark_of_isLetter (List.all_eq_true.1 lettered character member)]
  exact Bool.false_ne_true

/-- A sign may stand in front of the letters of a word. -/
theorem Lettered.isWord_append {text sign : String} (lettered : Lettered text)
    (isWord : IsWord sign) : IsWord (sign ++ text) := by
  constructor
  · simp [isWord.ne_empty]
  · rw [String.toList_append, List.any_append, isWord.unmarked, lettered.unmarked, Bool.false_or]

theorem Lettered.isWord {text : String} (lettered : Lettered text) (ne_empty : text ≠ "") :
    IsWord text := ⟨ne_empty, lettered.unmarked⟩

/-- A sign that is no letter begins no text of letters. -/
theorem Lettered.ne_append {text sign : String} (lettered : Lettered text)
    (signed : sign.toList.all isLetter = false) (rest : String) : text ≠ sign ++ rest := by
  rintro rfl
  rw [Lettered, String.toList_append, List.all_append, signed, Bool.false_and] at lettered
  cases lettered

theorem isWord_percent : IsWord "%" := ⟨by decide, by decide⟩

theorem isWord_at : IsWord "@" := ⟨by decide, by decide⟩

theorem IsWord.words_eq {text : String} (isWord : IsWord text) : words text = [text] := by
  have nonempty : text.toList ≠ [] := fun none => isWord.ne_empty (String.toList_inj.1 none)
  rw [words, List.splitOnP_eq_singleton isWord.isMark_eq]
  simp [nonempty]

theorem words_append_mark {front back : String} {mark : Char} {rest : List Char}
    (isMark : isMark mark = true) (begins : back.toList = mark :: rest) :
    words (front ++ back) = words front ++ words back := by
  have behind := List.splitOnP_append_cons [] rest isMark
  rw [words, words, words, String.toList_append, begins, List.splitOnP_append_cons _ _ isMark]
  rw [List.nil_append, List.splitOnP_nil] at behind
  simp [behind]

/-- Words come apart where a text begins with a mark. -/
theorem words_append_of_begins {back : String} (begins : back.toList.head?.any isMark = true)
    (front : String) : words (front ++ back) = words front ++ words back := by
  obtain ⟨mark, found, isMark⟩ := (Option.any_eq_true _ _).1 begins
  obtain ⟨rest, back_eq⟩ := List.head?_eq_some_iff.1 found
  exact words_append_mark isMark back_eq

/-- Words come apart where a text ends with a mark. -/
theorem words_append_of_ends {front : String} (ends : front.toList.getLast?.any isMark = true)
    (back : String) : words (front ++ back) = words front ++ words back := by
  obtain ⟨mark, found, isMark⟩ := (Option.any_eq_true _ _).1 ends
  obtain ⟨rest, front_eq⟩ := List.getLast?_eq_some_iff.1 found
  have before := List.splitOnP_append_cons rest [] isMark
  have whole := List.splitOnP_append_cons rest back.toList isMark
  rw [words, words, words, String.toList_append, front_eq, List.append_assoc, List.singleton_append,
    whole, before]
  simp

/-- Words come apart where a text has marks in front of it and behind it. -/
theorem words_append_append {separator : String}
    (begins : separator.toList.head?.any isMark = true)
    (ends : separator.toList.getLast?.any isMark = true) (front back : String) :
    words (front ++ separator ++ back) = words front ++ (words separator ++ words back) := by
  obtain ⟨mark, found, isMark⟩ := (Option.any_eq_true _ _).1 begins
  obtain ⟨rest, separator_eq⟩ := List.head?_eq_some_iff.1 found
  have behind_eq : (separator ++ back).toList = mark :: (rest ++ back.toList) := by
    rw [String.toList_append, separator_eq, List.cons_append]
  rw [String.append_assoc, words_append_mark isMark behind_eq, words_append_of_ends ends]

/-- Words of texts with commas between them. -/
theorem words_commaSeparated (texts : List String) :
    words (commaSeparated texts) = texts.flatMap words := by
  rw [commaSeparated]
  induction texts with
  | nil => rfl
  | cons first others induction =>
      cases others with
      | nil => simp
      | cons second others =>
          rw [String.intercalate_cons_cons, words_append_append (by rfl) (by rfl), induction]
          rfl

/-! ## Names -/

theorem ValueType.isWord_text (type : ValueType) : IsWord type.text := by
  cases type <;> exact ⟨by decide, by decide⟩

theorem ValueType.text_inj {type other : ValueType} (same : type.text = other.text) :
    type = other := by
  cases type <;> cases other <;> first | rfl | simp [text] at same

theorem Operator.isWord_text (operator : Operator) : IsWord operator.text := by
  cases operator <;> exact ⟨by decide, by decide⟩

theorem Operator.text_inj {operator other : Operator} (same : operator.text = other.text) :
    operator = other := by
  cases operator <;> cases other <;> first | rfl | simp [text] at same

theorem Predicate.isWord_text (predicate : Predicate) : IsWord predicate.text := by
  cases predicate <;> exact ⟨by decide, by decide⟩

theorem Predicate.isWord_instruction (predicate : Predicate) : IsWord predicate.instruction := by
  cases predicate <;> exact ⟨by decide, by decide⟩

theorem Predicate.text_inj {predicate other : Predicate} (same : predicate.text = other.text) :
    predicate = other := by
  cases predicate <;> cases other <;> first | rfl | simp [text] at same

theorem CastOperator.isWord_text (operator : CastOperator) : IsWord operator.text := by
  cases operator <;> exact ⟨by decide, by decide⟩

theorem CastOperator.text_inj {operator other : CastOperator} (same : operator.text = other.text) :
    operator = other := by
  cases operator <;> cases other <;> first | rfl | simp [text] at same

/-! ## Values -/

theorem lettered_repr (number : Nat) : Lettered number.repr := by
  rw [Lettered, Nat.toList_repr, List.all_eq_true]
  intro digit member
  have isDigit := Nat.isDigit_of_mem_toDigits (by decide) (by decide) member
  simp [isLetter, Char.isAlphanum, isDigit]

theorem lettered_int_repr (number : Int) : Lettered number.repr := by
  cases number with
  | ofNat number => exact lettered_repr number
  | negSucc number =>
      change Lettered ("-" ++ (number + 1).repr)
      rw [Lettered, String.toList_append, List.all_append]
      exact lettered_repr (number + 1)

theorem lettered_digits (number : Nat) : (Nat.toDigits 10 number).all isLetter = true := by
  rw [← Nat.toList_repr]
  exact lettered_repr number

theorem lettered_positionalText (style : Binary64.Style) {digits : List Char}
    (lettered : digits.all isLetter = true) (exponent : Int) :
    (Binary64.positionalText style digits exponent).all isLetter = true := by
  have zeros (count : Nat) : (Binary64.zeros count).all isLetter = true :=
    List.all_eq_true.2 fun digit member => by rw [List.eq_of_mem_replicate member]; rfl
  have whole : (if style.wholeFraction then ['.', '0'] else []).all isLetter = true := by
    split <;> rfl
  rw [Binary64.positionalText]
  split
  · rw [List.all_append, List.all_append, lettered, zeros, whole]
    rfl
  · split
    · rw [List.append_assoc, List.all_append, List.singleton_append, List.all_cons, Bool.and_left_comm,
        ← List.all_append, List.take_append_drop, lettered]
      rfl
    · rw [List.all_append, List.all_append, lettered, zeros]
      rfl

theorem lettered_scientificText {digits : List Char} (lettered : digits.all isLetter = true)
    (order : Int) : (Binary64.scientificText digits order).all isLetter = true := by
  have fraction : (if (digits.drop 1).isEmpty then [] else '.' :: digits.drop 1).all isLetter =
      (digits.drop 1).all isLetter := by
    split
    · next none => rw [List.isEmpty_iff.1 none]
    · rfl
  rw [Binary64.scientificText, List.all_append, List.all_append, fraction, ← List.all_append,
    List.take_append_drop, lettered, List.all_cons]
  exact lettered_int_repr order

theorem lettered_magnitudeText (style : Binary64.Style) (significand : Nat) (exponent : Int) :
    (Binary64.magnitudeText style significand exponent).all isLetter = true := by
  rw [Binary64.magnitudeText]
  split
  · exact lettered_positionalText style rfl 0
  · dsimp only
    split
    · exact lettered_positionalText style (lettered_digits _) _
    · exact lettered_scientificText (lettered_digits _) _

theorem magnitudeText_constant_ne_nil (significand : Nat) (exponent : Int) :
    Binary64.magnitudeText .constant significand exponent ≠ [] := by
  have positional (digits : List Char) (power : Int) :
      Binary64.positionalText .constant digits power ≠ [] := by
    rw [Binary64.positionalText]
    split
    · simp [Binary64.Style.constant]
    · split <;> simp
  rw [Binary64.magnitudeText]
  split
  · exact positional _ 0
  · dsimp only
    split
    · exact positional _ _
    · simp [Binary64.scientificText]

theorem lettered_float (number : Binary64) : Lettered (number.text .constant) := by
  rw [Binary64.text]
  split
  · decide
  · split <;> decide
  · next negative significand exponent _ =>
    have magnitude := lettered_magnitudeText .constant significand exponent
    rw [Lettered, String.toList_ofList]
    split
    · exact magnitude
    · exact magnitude

theorem float_ne_empty (number : Binary64) : number.text .constant ≠ "" := by
  rw [Binary64.text]
  split
  · decide
  · split <;> decide
  · next negative significand exponent _ =>
    rw [Ne, ← String.toList_inj, String.toList_ofList]
    split
    · exact List.cons_ne_nil _ _
    · exact magnitudeText_constant_ne_nil significand exponent

theorem Constant.lettered_text (constant : Constant) : Lettered constant.text := by
  cases constant with
  | bool value => cases value <;> decide
  | char value => exact lettered_repr _
  | int value => exact lettered_int_repr _
  | float value => exact lettered_float value
  | null => decide

theorem Constant.text_ne_empty (constant : Constant) : constant.text ≠ "" := by
  cases constant with
  | bool value => cases value <;> decide
  | char value => exact Nat.repr_ne_empty
  | int value =>
      change value.toInt.repr ≠ ""
      cases value.toInt with
      | ofNat number => exact Nat.repr_ne_empty
      | negSucc number => simp [Int.repr]
  | float value => exact float_ne_empty value
  | null => decide

/-- Constants of one type differ in their texts. -/
theorem Constant.text_inj {constant other : Constant} (type_eq : constant.type = other.type)
    (number : ∀ value, constant = .float value → value.IsNumber)
    (otherNumber : ∀ value, other = .float value → value.IsNumber)
    (same : constant.text = other.text) : constant = other := by
  cases constant with
  | bool value =>
      cases other with
      | bool other => cases value <;> cases other <;> first | rfl | simp [text] at same
      | _ => cases type_eq
  | char value =>
      cases other with
      | char other => rw [UInt8.toNat_inj.1 (Nat.repr_inj.1 same)]
      | _ => cases type_eq
  | int value =>
      cases other with
      | int other => rw [Int32.toInt_inj.1 (Int.repr_inj.1 same)]
      | _ => cases type_eq
  | float value =>
      cases other with
      | float other => rw [Binary64.text_inj (number _ rfl) (otherNumber _ rfl) same]
      | _ => cases type_eq
  | null =>
      cases other with
      | null => rfl
      | _ => cases type_eq

/-- Whether the text of a value tells it, when its type and the names of the global objects are known. -/
def Value.Told (globals : List String) (value : Value) (type : ValueType) : Prop :=
  match value with
  | const constant => constant.type = type ∧ ∀ number, constant = .float number → number.IsNumber
  | temp _ | arg _ => True
  | global name => name ∈ globals ∧ Lettered name
  | function name => name ∉ globals ∧ Lettered name

namespace Value

variable {globals : List String} {value other : Value} {type : ValueType}

theorem Told.isWord_text (told : value.Told globals type) : IsWord value.text := by
  cases value with
  | const constant => exact constant.lettered_text.isWord constant.text_ne_empty
  | temp index => exact (lettered_repr index).isWord_append ⟨by decide, by decide⟩
  | arg index => exact (lettered_repr index).isWord_append ⟨by decide, by decide⟩
  | global | function => exact told.2.isWord_append isWord_at

/-- Values of one type differ in their texts. -/
theorem text_inj (told : value.Told globals type) (otherTold : other.Told globals type)
    (same : value.text = other.text) : value = other := by
  have unlettered {constant : Constant} {sign rest : String}
      (signed : sign.toList.all isLetter = false) : constant.text ≠ sign ++ rest :=
    constant.lettered_text.ne_append signed rest
  cases value with
  | const constant =>
      cases other with
      | const constant' =>
          rw [Constant.text_inj (told.1.trans otherTold.1.symm) told.2 otherTold.2 same]
      | temp | arg | global | function => exact absurd same (unlettered (by decide))
  | temp index =>
      cases other with
      | const => exact absurd same.symm (unlettered (by decide))
      | temp other => rw [Nat.repr_inj.1 ((String.append_right_inj "%t").1 same)]
      | arg | global | function =>
          have chars := congrArg String.toList same
          simp [text, toString] at chars
  | arg index =>
      cases other with
      | const => exact absurd same.symm (unlettered (by decide))
      | arg other => rw [Nat.repr_inj.1 ((String.append_right_inj "%arg").1 same)]
      | temp | global | function =>
          have chars := congrArg String.toList same
          simp [text, toString] at chars
  | global name =>
      cases other with
      | const => exact absurd same.symm (unlettered (by decide))
      | global other => exact congrArg global ((String.append_right_inj "@").1 same)
      | function other =>
          obtain rfl : name = other := (String.append_right_inj "@").1 same
          exact absurd told.1 otherTold.1
      | temp | arg =>
          have chars := congrArg String.toList same
          simp [text, toString] at chars
  | function name =>
      cases other with
      | const => exact absurd same.symm (unlettered (by decide))
      | function other => exact congrArg function ((String.append_right_inj "@").1 same)
      | global other =>
          obtain rfl : name = other := (String.append_right_inj "@").1 same
          exact absurd otherTold.1 told.1
      | temp | arg =>
          have chars := congrArg String.toList same
          simp [text, toString] at chars

end Value

/-! ## Operations -/

namespace Operation

variable {label : Nat → String} {operation : Operation}

/-- The words that say what an operation does and what it is applied to. -/
def words (label : Nat → String) : Operation → List String
  | alloca type => ["alloca", type.text]
  | load type pointer => ["load", type.text, "ptr", pointer.text]
  | store type value pointer => ["store", type.text, value.text, "ptr", pointer.text]
  | binary operator type left right => [operator.text, type.text, left.text, right.text]
  | compare predicate type left right =>
    [predicate.instruction, predicate.text, type.text, left.text, right.text]
  | cast operator source target value =>
    [operator.text, source.text, value.text, "to", target.text]
  | call result callee arguments =>
    "call" :: result.text :: callee.text ::
      arguments.flatMap fun argument => [argument.1.text, argument.2.text]
  | phi type incoming =>
    "phi" :: type.text ::
      incoming.flatMap fun source => [source.1.text, "%" ++ label source.2]

/-- The words of the arguments of a call. -/
theorem words_arguments {arguments : List (ValueType × Value)}
    (values : ∀ argument ∈ arguments, IsWord argument.2.text) :
    Ir.words (commaSeparated (arguments.map fun argument =>
      argument.1.text ++ " " ++ argument.2.text)) =
        arguments.flatMap fun argument => [argument.1.text, argument.2.text] := by
  rw [words_commaSeparated, List.flatMap_map]
  apply List.flatMap_congr
  intro argument member
  rw [words_append_append (by rfl) (by rfl), argument.1.isWord_text.words_eq,
    (values argument member).words_eq]
  rfl

/-- The words of the values that meet in a `phi`. -/
theorem words_incoming {incoming : List (Value × Nat)}
    (values : ∀ source ∈ incoming, IsWord source.1.text)
    (labels : ∀ source ∈ incoming, Lettered (label source.2)) :
    Ir.words (commaSeparated (incoming.map fun source =>
      "[ " ++ source.1.text ++ ", %" ++ label source.2 ++ " ]")) =
        incoming.flatMap fun source => [source.1.text, "%" ++ label source.2] := by
  rw [words_commaSeparated, List.flatMap_map]
  apply List.flatMap_congr
  intro source member
  have label_word := (labels source member).isWord_append isWord_percent
  have text_eq : "[ " ++ source.1.text ++ ", %" ++ label source.2 ++ " ]" =
      "[ " ++ source.1.text ++ ", " ++ ("%" ++ label source.2) ++ " ]" := by
    simp [← String.toList_inj]
  rw [text_eq, words_append_of_begins (by rfl), words_append_append (by rfl) (by rfl),
    words_append_of_ends (by rfl), (values source member).words_eq, label_word.words_eq]
  rfl

/-- The words of an operation stand in its text. -/
theorem words_text (operands : ∀ value ∈ operation.operands, IsWord value.text)
    (labels : ∀ source ∈ operation.incoming, Lettered (label source.2)) :
    Ir.words (operation.text label) = operation.words label := by
  cases operation with
  | alloca type =>
      change Ir.words ("alloca " ++ type.text) = _
      rw [words_append_of_ends (by rfl), type.isWord_text.words_eq]
      rfl
  | load type pointer =>
      have pointer_word := operands pointer (by simp [Operation.operands])
      change Ir.words ("load " ++ type.text ++ ", ptr " ++ pointer.text) = _
      rw [words_append_append (by rfl) (by rfl), words_append_of_ends (by rfl),
        type.isWord_text.words_eq, pointer_word.words_eq]
      rfl
  | store type value pointer =>
      have value_word := operands value (by simp [Operation.operands])
      have pointer_word := operands pointer (by simp [Operation.operands])
      change Ir.words ("store " ++ type.text ++ " " ++ value.text ++ ", ptr " ++ pointer.text) = _
      rw [words_append_append (by rfl) (by rfl), words_append_append (by rfl) (by rfl),
        words_append_of_ends (by rfl), type.isWord_text.words_eq, value_word.words_eq,
        pointer_word.words_eq]
      rfl
  | binary operator type left right =>
      have left_word := operands left (by simp [Operation.operands])
      have right_word := operands right (by simp [Operation.operands])
      change Ir.words (operator.text ++ " " ++ type.text ++ " " ++ left.text ++ ", " ++ right.text) = _
      rw [words_append_append (by rfl) (by rfl), words_append_append (by rfl) (by rfl),
        words_append_append (by rfl) (by rfl), operator.isWord_text.words_eq,
        type.isWord_text.words_eq, left_word.words_eq, right_word.words_eq]
      rfl
  | compare predicate type left right =>
      have left_word := operands left (by simp [Operation.operands])
      have right_word := operands right (by simp [Operation.operands])
      change Ir.words (predicate.instruction ++ " " ++ predicate.text ++ " " ++ type.text ++ " " ++
        left.text ++ ", " ++ right.text) = _
      rw [words_append_append (by rfl) (by rfl), words_append_append (by rfl) (by rfl),
        words_append_append (by rfl) (by rfl), words_append_append (by rfl) (by rfl),
        predicate.isWord_instruction.words_eq, predicate.isWord_text.words_eq,
        type.isWord_text.words_eq, left_word.words_eq, right_word.words_eq]
      rfl
  | cast operator source target value =>
      have value_word := operands value (by simp [Operation.operands])
      change Ir.words (operator.text ++ " " ++ source.text ++ " " ++ value.text ++ " to " ++
        target.text) = _
      rw [words_append_append (by rfl) (by rfl), words_append_append (by rfl) (by rfl),
        words_append_append (by rfl) (by rfl), operator.isWord_text.words_eq,
        source.isWord_text.words_eq, value_word.words_eq, target.isWord_text.words_eq]
      rfl
  | call result callee arguments =>
      have callee_word := operands callee (by simp [Operation.operands])
      have values : ∀ argument ∈ arguments, IsWord argument.2.text := fun argument member =>
        operands argument.2 (List.mem_cons_of_mem _ (List.mem_map_of_mem member))
      change Ir.words ("call " ++ result.text ++ " " ++ callee.text ++ "(" ++
        commaSeparated (arguments.map fun argument => argument.1.text ++ " " ++ argument.2.text) ++
          ")") = _
      rw [words_append_of_begins (by rfl), words_append_append (by rfl) (by rfl),
        words_append_append (by rfl) (by rfl), words_append_of_ends (by rfl), words_arguments values,
        result.isWord_text.words_eq, callee_word.words_eq, show Ir.words ")" = [] from rfl,
        List.append_nil]
      rfl
  | phi type incoming =>
      have values : ∀ source ∈ incoming, IsWord source.1.text := fun source member =>
        operands source.1 (List.mem_map_of_mem member)
      change Ir.words ("phi " ++ type.text ++ " " ++ commaSeparated (incoming.map fun source =>
        "[ " ++ source.1.text ++ ", %" ++ label source.2 ++ " ]")) = _
      rw [words_append_append (by rfl) (by rfl), words_append_of_ends (by rfl),
        words_incoming values labels, type.isWord_text.words_eq]
      rfl

/-- The place of a constructor that the first word of an operation belongs to. -/
def rank (word : String) : Nat :=
  if word = "alloca" then 0 else if word = "load" then 1 else if word = "store" then 2
  else if word ∈ ["icmp", "fcmp"] then 4
  else if word ∈ ["trunc", "zext", "sext", "fptosi", "sitofp"] then 5
  else if word = "call" then 6 else if word = "phi" then 7 else 3

/-- The first word of an operation is made of letters and tells its constructor. -/
theorem exists_words_eq (label : Nat → String) (operation : Operation) :
    ∃ first rest, operation.words label = first :: rest ∧ Lettered first ∧
      rank first = operation.ctorIdx := by
  cases operation with
  | binary operator => cases operator <;> exact ⟨_, _, rfl, by decide, by rfl⟩
  | compare predicate => cases predicate <;> exact ⟨_, _, rfl, by decide, by rfl⟩
  | cast operator => cases operator <;> exact ⟨_, _, rfl, by decide, by rfl⟩
  | _ => exact ⟨_, _, rfl, by decide, by rfl⟩

theorem ctorIdx_eq {first second : Operation} (same : first.words label = second.words label) :
    first.ctorIdx = second.ctorIdx := by
  obtain ⟨firstWord, rest, first_eq, -, first_rank⟩ := exists_words_eq label first
  obtain ⟨secondWord, others, second_eq, -, second_rank⟩ := exists_words_eq label second
  rw [first_eq, second_eq, List.cons.injEq] at same
  rw [← first_rank, same.1, second_rank]

section Injectivity

variable {globals : List String} {calls more : String → Signature → Prop}
  {first second : Operation}

/-- Arguments of calls are told by their words. -/
theorem arguments_inj {arguments others : List (ValueType × Value)}
    (told : ∀ argument ∈ arguments, argument.2.Told globals argument.1)
    (otherTold : ∀ argument ∈ others, argument.2.Told globals argument.1)
    (same : (arguments.flatMap fun argument => [argument.1.text, argument.2.text]) =
      others.flatMap fun argument => [argument.1.text, argument.2.text]) : arguments = others := by
  induction arguments generalizing others with
  | nil =>
      cases others with
      | nil => rfl
      | cons => cases same
  | cons argument arguments induction =>
      cases others with
      | nil => cases same
      | cons other others =>
          simp only [List.flatMap_cons, List.cons_append, List.nil_append, List.cons.injEq] at same
          obtain ⟨type_eq, value_eq, rest_eq⟩ := same
          obtain ⟨type, value⟩ := argument
          obtain ⟨otherType, otherValue⟩ := other
          obtain rfl : type = otherType := ValueType.text_inj type_eq
          have head := told (type, value) List.mem_cons_self
          have otherHead := otherTold (type, otherValue) List.mem_cons_self
          obtain rfl : value = otherValue := Value.text_inj head otherHead value_eq
          rw [induction (fun argument member => told argument (List.mem_cons_of_mem _ member))
            (fun argument member => otherTold argument (List.mem_cons_of_mem _ member)) rest_eq]

/-- The values that meet in a `phi` and their blocks are told by their words. -/
theorem incoming_inj {type : ValueType} {incoming others : List (Value × Nat)}
    (told : ∀ source ∈ incoming, source.1.Told globals type)
    (otherTold : ∀ source ∈ others, source.1.Told globals type)
    (labels : ∀ source ∈ incoming, ∀ other ∈ others,
      label source.2 = label other.2 → source.2 = other.2)
    (same : (incoming.flatMap fun source => [source.1.text, "%" ++ label source.2]) =
      others.flatMap fun source => [source.1.text, "%" ++ label source.2]) : incoming = others := by
  induction incoming generalizing others with
  | nil =>
      cases others with
      | nil => rfl
      | cons => cases same
  | cons source incoming induction =>
      cases others with
      | nil => cases same
      | cons other others =>
          simp only [List.flatMap_cons, List.cons_append, List.nil_append, List.cons.injEq] at same
          obtain ⟨value_eq, label_eq, rest_eq⟩ := same
          have value_eq := Value.text_inj (told source List.mem_cons_self)
            (otherTold other List.mem_cons_self) value_eq
          have block_eq := labels source List.mem_cons_self other List.mem_cons_self
            ((String.append_right_inj "%").1 label_eq)
          have rest_eq := induction
            (fun source member => told source (List.mem_cons_of_mem _ member))
            (fun source member => otherTold source (List.mem_cons_of_mem _ member))
            (fun source member other otherMember => labels source (List.mem_cons_of_mem _ member)
              other (List.mem_cons_of_mem _ otherMember)) rest_eq
          rw [Prod.ext value_eq block_eq, rest_eq]

/-- Typed operations whose values are told by their texts are told by their words, as long as labels tell
blocks. -/
theorem words_inj (told : first.WellTyped (Value.Told globals) calls)
    (otherTold : second.WellTyped (Value.Told globals) more)
    (labels : ∀ source ∈ first.incoming, ∀ other ∈ second.incoming,
      label source.2 = label other.2 → source.2 = other.2)
    (same : first.words label = second.words label) : first = second := by
  have value_inj {value other : Value} {type otherType : ValueType}
      (told : value.Told globals type) (otherTold : other.Told globals otherType)
      (type_eq : type = otherType) (same : value.text = other.text) : value = other :=
    Value.text_inj told (type_eq ▸ otherTold) same
  have rank_eq := ctorIdx_eq same
  cases told with
  | alloca type =>
      cases otherTold with
      | alloca other =>
          simp only [words, List.cons.injEq, and_true, true_and] at same
          rw [ValueType.text_inj same]
      | _ => cases rank_eq
  | load pointer =>
      cases otherTold with
      | load otherPointer =>
          simp only [words, List.cons.injEq, and_true, true_and] at same
          rw [ValueType.text_inj same.1, value_inj pointer otherPointer rfl same.2]
      | _ => cases rank_eq
  | store value pointer =>
      cases otherTold with
      | store otherValue otherPointer =>
          simp only [words, List.cons.injEq, and_true, true_and] at same
          obtain ⟨type_eq, value_eq, pointer_eq⟩ := same
          have type_eq := ValueType.text_inj type_eq
          rw [type_eq, value_inj value otherValue type_eq value_eq,
            value_inj pointer otherPointer rfl pointer_eq]
      | _ => cases rank_eq
  | binary _ left right =>
      cases otherTold with
      | binary _ otherLeft otherRight =>
          simp only [words, List.cons.injEq, and_true] at same
          obtain ⟨operator_eq, type_eq, left_eq, right_eq⟩ := same
          have type_eq := ValueType.text_inj type_eq
          rw [Operator.text_inj operator_eq, type_eq, value_inj left otherLeft type_eq left_eq,
            value_inj right otherRight type_eq right_eq]
      | _ => cases rank_eq
  | compare _ left right =>
      cases otherTold with
      | compare _ otherLeft otherRight =>
          simp only [words, List.cons.injEq, and_true] at same
          obtain ⟨-, predicate_eq, type_eq, left_eq, right_eq⟩ := same
          have type_eq := ValueType.text_inj type_eq
          rw [Predicate.text_inj predicate_eq, type_eq, value_inj left otherLeft type_eq left_eq,
            value_inj right otherRight type_eq right_eq]
      | _ => cases rank_eq
  | cast _ value =>
      cases otherTold with
      | cast _ otherValue =>
          simp only [words, List.cons.injEq, and_true, true_and] at same
          obtain ⟨operator_eq, source_eq, value_eq, target_eq⟩ := same
          have source_eq := ValueType.text_inj source_eq
          rw [CastOperator.text_inj operator_eq, source_eq, ValueType.text_inj target_eq,
            value_inj value otherValue source_eq value_eq]
      | _ => cases rank_eq
  | @call result callee arguments calleeTold argumentsTold =>
      cases otherTold with
      | @call result' callee' arguments' otherCallee otherArguments =>
          simp only [words, List.cons.injEq, true_and] at same
          obtain ⟨result_eq, callee_eq, arguments_eq⟩ := same
          rw [ValueType.text_inj result_eq, value_inj calleeTold otherCallee rfl callee_eq]
          rw [arguments_inj argumentsTold otherArguments arguments_eq]
      | _ => cases rank_eq
  | @phi type incoming values =>
      cases otherTold with
      | @phi type' incoming' otherValues =>
          simp only [words, List.cons.injEq, true_and] at same
          obtain ⟨type_eq, incoming_eq⟩ := same
          have type_eq := ValueType.text_inj type_eq
          have values_told := List.forall_mem_map.1 values
          have others_told := List.forall_mem_map.1 (type_eq ▸ otherValues)
          rw [type_eq, incoming_inj values_told others_told labels incoming_eq]
      | _ => cases rank_eq

end Injectivity

end Operation

end Minilang.Ir
