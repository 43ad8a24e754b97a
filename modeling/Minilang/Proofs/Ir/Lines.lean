import Minilang.Proofs.Ir.Words

/-!
# Lines of modules

A line tells the instruction, the terminator, the global object or the head of the function that it is
about, as long as the labels of blocks tell them apart. Names of parameters do not appear in it.
-/

namespace Minilang.Ir

variable {label : Nat → String} {globals : List String}

/-! ## Instructions -/

namespace Instruction

variable {instruction first second : Instruction} {calls more : String → Signature → Prop}

/-- The words of an instruction. -/
def words (label : Nat → String) (instruction : Instruction) : List String :=
  match instruction.result with
  | some index => ("%t" ++ index.repr) :: "=" :: instruction.operation.words label
  | none => instruction.operation.words label

theorem words_text (operands : ∀ value ∈ instruction.operation.operands, IsWord value.text)
    (labels : ∀ source ∈ instruction.operation.incoming, Lettered (label source.2)) :
    Ir.words (instruction.text label) = instruction.words label := by
  have operation_words := Operation.words_text operands labels
  obtain ⟨result, operation⟩ := instruction
  cases result with
  | none => exact operation_words
  | some index =>
      have result_word : IsWord ("%t" ++ index.repr) :=
        (lettered_repr index).isWord_append ⟨by decide, by decide⟩
      change Ir.words ("%t" ++ index.repr ++ " = " ++ operation.text label) = _
      rw [words_append_append (by rfl) (by rfl), result_word.words_eq, operation_words]
      rfl

/-- Instructions are told by their words if their operations are. -/
theorem words_inj
    (told : first.operation.WellTyped (Value.Told globals) calls)
    (otherTold : second.operation.WellTyped (Value.Told globals) more)
    (labels : ∀ source ∈ first.operation.incoming, ∀ other ∈ second.operation.incoming,
      label source.2 = label other.2 → source.2 = other.2)
    (same : first.words label = second.words label) : first = second := by
  have operation_inj := Operation.words_inj told otherTold labels
  obtain ⟨result, operation⟩ := first
  obtain ⟨otherResult, otherOperation⟩ := second
  -- The first word of an operation is made of letters, so it is no temporary.
  have unlike (index : Nat) (rest : List String) (operation : Operation) :
      ("%t" ++ index.repr) :: rest ≠ operation.words label := by
    obtain ⟨word, others, words_eq, lettered, -⟩ := Operation.exists_words_eq label operation
    rw [words_eq]
    exact fun same => lettered.ne_append (by decide) _ (List.cons.inj same).1.symm
  cases result with
  | none =>
      cases otherResult with
      | none =>
          obtain rfl : operation = otherOperation := operation_inj same
          rfl
      | some => exact absurd same.symm (unlike _ _ _)
  | some index =>
      cases otherResult with
      | none => exact absurd same (unlike _ _ _)
      | some other =>
          obtain ⟨result_eq, rest_eq⟩ := List.cons.inj same
          obtain rfl : index = other :=
            Nat.repr_inj.1 ((String.append_right_inj "%t").1 result_eq)
          obtain rfl : operation = otherOperation := operation_inj (List.cons.inj rest_eq).2
          rfl

end Instruction

/-! ## Terminators -/

namespace Terminator

variable {terminator first second : Terminator} {result : ValueType}

/-- The words of a terminator. -/
def words (label : Nat → String) : Terminator → List String
  | branch target => ["br", "label", "%" ++ label target]
  | condBranch condition whenTrue whenFalse =>
    ["br", "i1", condition.text, "label", "%" ++ label whenTrue, "label", "%" ++ label whenFalse]
  | ret type value => ["ret", type.text, value.text]

theorem words_text (operands : ∀ value ∈ terminator.operands, IsWord value.text)
    (labels : ∀ target ∈ terminator.successors, Lettered (label target)) :
    Ir.words (terminator.text label) = terminator.words label := by
  cases terminator with
  | branch target =>
      have target_word := (labels target (by simp [successors])).isWord_append isWord_percent
      change Ir.words ("br label %" ++ label target) = _
      rw [show "br label %" = "br label " ++ "%" from rfl, String.append_assoc,
        words_append_of_ends (by rfl), target_word.words_eq]
      rfl
  | condBranch condition whenTrue whenFalse =>
      have condition_word := operands condition (by simp [Terminator.operands])
      have true_word := (labels whenTrue (by simp [successors])).isWord_append isWord_percent
      have false_word := (labels whenFalse (by simp [successors])).isWord_append isWord_percent
      have text_eq : (condBranch condition whenTrue whenFalse).text label =
          "br i1 " ++ condition.text ++ ", label " ++ ("%" ++ label whenTrue) ++ ", label " ++
            ("%" ++ label whenFalse) := by
        simp [← String.toList_inj, text, toString]
      rw [text_eq, words_append_append (by rfl) (by rfl), words_append_append (by rfl) (by rfl),
        words_append_of_ends (by rfl), condition_word.words_eq, true_word.words_eq,
        false_word.words_eq]
      rfl
  | ret type value =>
      have value_word := operands value (by simp [Terminator.operands])
      change Ir.words ("ret " ++ type.text ++ " " ++ value.text) = _
      rw [words_append_append (by rfl) (by rfl), words_append_of_ends (by rfl),
        type.isWord_text.words_eq, value_word.words_eq]
      rfl

/-- Terminators are told by their words if their values are. -/
theorem words_inj
    (told : first.WellTyped (Value.Told globals) result)
    (otherTold : second.WellTyped (Value.Told globals) result)
    (labels : ∀ target ∈ first.successors, ∀ other ∈ second.successors,
      label target = label other → target = other)
    (same : first.words label = second.words label) : first = second := by
  have target_inj {target other : Nat} (member : target ∈ first.successors)
      (otherMember : other ∈ second.successors) (same : "%" ++ label target = "%" ++ label other) :
      target = other :=
    labels target member other otherMember ((String.append_right_inj "%").1 same)
  cases told with
  | branch target =>
      cases otherTold with
      | branch other =>
          simp only [words, List.cons.injEq, true_and, and_true] at same
          rw [target_inj (by simp [successors]) (by simp [successors]) same]
      | condBranch | ret => simp [words] at same
  | condBranch whenTrue whenFalse condition =>
      cases otherTold with
      | condBranch otherTrue otherFalse otherCondition =>
          simp only [words, List.cons.injEq, true_and, and_true] at same
          obtain ⟨condition_eq, true_eq, false_eq⟩ := same
          rw [Value.text_inj condition otherCondition condition_eq,
            target_inj (by simp [successors]) (by simp [successors]) true_eq,
            target_inj (by simp [successors]) (by simp [successors]) false_eq]
      | branch | ret => simp [words] at same
  | ret value =>
      cases otherTold with
      | ret otherValue =>
          simp only [words, List.cons.injEq, true_and, and_true] at same
          rw [Value.text_inj value otherValue same]
      | branch | condBranch => simp [words] at same

end Terminator

/-! ## Global objects -/

namespace Global

variable {global first second : Global}

/-- Whether a global object has a name of letters and holds a value of its type. -/
structure Legible (global : Global) : Prop where
  /-- The name consists of letters. -/
  lettered_name : Lettered global.name
  /-- The object holds a value of its type. -/
  type_initial : global.initial.type = global.type
  /-- What it holds is a number if it is floating-point. -/
  number : ∀ number, global.initial = .float number → number.IsNumber

theorem Legible.words_text (legible : global.Legible) :
    words global.text =
      ["@" ++ global.name, "=", "global", global.type.text, global.initial.text] := by
  have name_word := legible.lettered_name.isWord_append isWord_at
  have initial_word := global.initial.lettered_text.isWord global.initial.text_ne_empty
  change words ("@" ++ global.name ++ " = global " ++ global.type.text ++ " " ++
    global.initial.text) = _
  rw [words_append_append (by rfl) (by rfl), words_append_append (by rfl) (by rfl),
    name_word.words_eq, global.type.isWord_text.words_eq, initial_word.words_eq]
  rfl

/-- Global objects are told by their lines. -/
theorem Legible.text_inj
    (legible : first.Legible) (otherLegible : second.Legible)
    (same : first.text = second.text) : first = second := by
  have words_eq := congrArg words same
  rw [legible.words_text, otherLegible.words_text] at words_eq
  simp only [List.cons.injEq, true_and, and_true] at words_eq
  obtain ⟨name_eq, type_eq, initial_eq⟩ := words_eq
  have type_eq := ValueType.text_inj type_eq
  have initial_type : first.initial.type = second.initial.type := by
    rw [legible.type_initial, otherLegible.type_initial, type_eq]
  have initial_eq := Constant.text_inj initial_type legible.number otherLegible.number
    initial_eq
  cases first
  cases second
  simp_all

end Global

/-! ## Heads of functions -/

namespace Function

variable {function first second : Function}

/-- The words of parameters, the first of which has the given place. -/
def parameterWords : (index : Nat) → List Parameter → List String
  | _, [] => []
  | index, parameter :: parameters =>
    parameter.type.text :: ("%arg" ++ index.repr) :: parameterWords (index + 1) parameters

theorem words_parameters (parameters : List Parameter) (index : Nat) :
    words (commaSeparated ((parameters.zipIdx index).map fun (parameter, index) =>
      s!"{parameter.type.text} %arg{index}")) = parameterWords index parameters := by
  rw [words_commaSeparated]
  induction parameters generalizing index with
  | nil => rfl
  | cons parameter parameters induction =>
      have argument_word : IsWord ("%arg" ++ index.repr) :=
        (lettered_repr index).isWord_append ⟨by decide, by decide⟩
      have text_eq : parameter.type.text ++ " %arg" ++ index.repr =
          parameter.type.text ++ " " ++ ("%arg" ++ index.repr) := by
        simp [← String.toList_inj]
      rw [List.zipIdx_cons, List.map_cons, List.flatMap_cons, induction]
      change words (parameter.type.text ++ " %arg" ++ index.repr) ++ _ = _
      rw [text_eq, words_append_append (by rfl) (by rfl), parameter.type.isWord_text.words_eq,
        argument_word.words_eq]
      rfl

theorem words_headLine (lettered : Lettered function.name) :
    words function.headLine = "define" :: function.result.text :: ("@" ++ function.name) ::
      (parameterWords 0 function.parameters ++ ["\x7b"]) := by
  have name_word := lettered.isWord_append isWord_at
  have line_eq : function.headLine = "define " ++ function.result.text ++ " " ++
      ("@" ++ function.name) ++ "(" ++ commaSeparated ((function.parameters.zipIdx 0).map
        fun (parameter, index) => s!"{parameter.type.text} %arg{index}") ++ ") \x7b" := by
    simp [← String.toList_inj, headLine, toString]
  rw [line_eq, words_append_of_begins (by rfl), words_append_append (by rfl) (by rfl),
    words_append_append (by rfl) (by rfl), words_append_of_ends (by rfl), words_parameters,
    function.result.isWord_text.words_eq, name_word.words_eq]
  rfl

theorem types_of_parameterWords {parameters others : List Parameter} {index : Nat}
    (same : parameterWords index parameters = parameterWords index others) :
    parameters.map Parameter.type = others.map Parameter.type := by
  induction parameters generalizing others index with
  | nil =>
      cases others with
      | nil => rfl
      | cons => cases same
  | cons parameter parameters induction =>
      cases others with
      | nil => cases same
      | cons other others =>
          simp only [parameterWords, List.cons.injEq, true_and] at same
          rw [List.map_cons, List.map_cons, ValueType.text_inj same.1, induction same.2]

/-- The line that opens a function tells its name, its result and the types of its parameters. -/
theorem headLine_inj (lettered : Lettered first.name) (otherLettered : Lettered second.name)
    (same : first.headLine = second.headLine) :
    first.name = second.name ∧ first.result = second.result ∧
      first.parameters.map Parameter.type = second.parameters.map Parameter.type := by
  have words_eq := congrArg words same
  rw [words_headLine lettered, words_headLine otherLettered] at words_eq
  simp only [List.cons.injEq, true_and] at words_eq
  obtain ⟨result_eq, name_eq, parameters_eq⟩ := words_eq
  exact ⟨(String.append_right_inj "@").1 name_eq, ValueType.text_inj result_eq,
    types_of_parameterWords (List.append_cancel_right parameters_eq)⟩

end Function

end Minilang.Ir
