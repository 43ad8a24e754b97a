import Minilang.Proofs.Ir.ControlFlow
import Minilang.Proofs.Ir.Lines

/-!
# Reading modules back

No line of a module has a newline or an apostrophe in it, blocks are parted by empty lines, and functions
end with a brace that stands alone. So the text of a module whose parts are legible tells the module,
except for the names of parameters.
-/

namespace Minilang.Ir

/-! ## Lists in pieces -/

section Pieces

variable {α β γ δ : Type} {mark : α}

/-- A list is told by what stands in front of the first mark and what stands behind it. -/
theorem cut_inj {first second rest others : List α} (unmarked : mark ∉ first)
    (otherUnmarked : mark ∉ second) (same : first ++ mark :: rest = second ++ mark :: others) :
    first = second ∧ rest = others := by
  rcases List.append_eq_append_iff.1 same with ⟨between, parts_eq, rest_eq⟩ | ⟨between, parts_eq, rest_eq⟩
  all_goals
    cases between with
    | nil => simp_all
    | cons head between =>
        have head_eq := (List.cons.inj rest_eq).1
        simp_all

/-- A list is told by what stands in front of the last mark and what stands behind it. -/
theorem last_cut_inj {first second rest others : List α} (unmarked : mark ∉ rest)
    (otherUnmarked : mark ∉ others) (same : first ++ mark :: rest = second ++ mark :: others) :
    first = second ∧ rest = others := by
  have reversed : rest.reverse ++ mark :: first.reverse = others.reverse ++ mark :: second.reverse := by
    simpa using congrArg List.reverse same
  have parts := cut_inj (mt List.mem_reverse.1 unmarked) (mt List.mem_reverse.1 otherUnmarked) reversed
  exact ⟨List.reverse_inj.1 parts.2, List.reverse_inj.1 parts.1⟩

/-- Pieces that each end at the first mark in them are told by all of them together. -/
theorem ended_inj {pieces others : List (List α)} (unmarked : ∀ piece ∈ pieces, mark ∉ piece)
    (otherUnmarked : ∀ piece ∈ others, mark ∉ piece)
    (same : (pieces.flatMap fun piece => piece ++ [mark]) = others.flatMap fun piece => piece ++ [mark]) :
    pieces = others := by
  induction pieces generalizing others with
  | nil =>
      cases others with
      | nil => rfl
      | cons => simp at same
  | cons piece pieces induction =>
      cases others with
      | nil => simp at same
      | cons other others =>
          rw [List.flatMap_cons, List.flatMap_cons, List.append_assoc, List.append_assoc] at same
          obtain ⟨piece_eq, rest_eq⟩ := cut_inj (unmarked piece List.mem_cons_self)
            (otherUnmarked other List.mem_cons_self) same
          rw [piece_eq, induction (fun piece member => unmarked piece (List.mem_cons_of_mem _ member))
            (fun piece member => otherUnmarked piece (List.mem_cons_of_mem _ member)) rest_eq]

/-- Pieces with marks between them and a mark at the end. -/
theorem intercalate_append {pieces : List (List α)} (nonempty : pieces ≠ []) :
    [mark].intercalate pieces ++ [mark] = pieces.flatMap fun piece => piece ++ [mark] := by
  induction pieces with
  | nil => exact absurd rfl nonempty
  | cons first others induction =>
      cases others with
      | nil => simp
      | cons second others =>
          rw [List.intercalate_cons_cons, List.append_assoc, induction (List.cons_ne_nil _ _)]
          rfl

/-- What images of members tell is told by the list of all images. -/
theorem map_eq_of_map_eq {list : List α} {others : List β} {image : α → γ} {otherImage : β → γ}
    {value : α → δ} {otherValue : β → δ}
    (tells : ∀ member ∈ list, ∀ other ∈ others, image member = otherImage other →
      value member = otherValue other)
    (same : list.map image = others.map otherImage) : list.map value = others.map otherValue := by
  induction list generalizing others with
  | nil =>
      cases others with
      | nil => rfl
      | cons => cases same
  | cons head list induction =>
      cases others with
      | nil => cases same
      | cons other others =>
          obtain ⟨head_eq, rest_eq⟩ := List.cons.inj same
          rw [List.map_cons, List.map_cons, tells head List.mem_cons_self other List.mem_cons_self head_eq,
            induction (fun member found other otherFound => tells member (List.mem_cons_of_mem _ found)
              other (List.mem_cons_of_mem _ otherFound)) rest_eq]

end Pieces

/-! ## Lines -/

/-- Whether a text has no newline and no apostrophe. -/
def Unbroken (text : String) : Prop :=
  (text.toList.any fun character => character == '\n' || character == '\'') = false

instance (text : String) : Decidable (Unbroken text) := inferInstanceAs (Decidable (_ = false))

@[simp]
theorem unbroken_append {front back : String} :
    Unbroken (front ++ back) ↔ Unbroken front ∧ Unbroken back := by
  rw [Unbroken, String.toList_append, List.any_append, Bool.or_eq_false_iff]
  rfl

theorem IsWord.unbroken {text : String} (isWord : IsWord text) : Unbroken text := by
  rw [Unbroken, List.any_eq_false]
  intro character member broken
  have unmarked := isWord.isMark_eq character member
  rcases Bool.or_eq_true_iff.1 broken with newline | apostrophe
  · rw [eq_of_beq newline] at unmarked
    cases unmarked
  · rw [eq_of_beq apostrophe] at unmarked
    cases unmarked

theorem Lettered.unbroken {text : String} (lettered : Lettered text) : Unbroken text := by
  have word : IsWord ("%" ++ text) := lettered.isWord_append isWord_percent
  exact (unbroken_append.1 word.unbroken).2

theorem unbroken_commaSeparated {texts : List String} (unbroken : ∀ text ∈ texts, Unbroken text) :
    Unbroken (commaSeparated texts) := by
  rw [commaSeparated]
  induction texts with
  | nil => rfl
  | cons first others induction =>
      cases others with
      | nil => simpa using unbroken
      | cons second others =>
          rw [String.intercalate_cons_cons, unbroken_append, unbroken_append]
          have rest := induction fun text member => unbroken text (List.mem_cons_of_mem _ member)
          exact ⟨⟨unbroken first List.mem_cons_self, rfl⟩, rest⟩

theorem toList_joinLines (lines : List String) :
    (joinLines lines).toList = (lines.map String.toList).flatMap fun line => line ++ ['\n'] := by
  rw [joinLines, String.toList_join, List.flatMap_map, List.flatMap_map]
  simp

/-- Unbroken lines are told by their text. -/
theorem joinLines_inj {lines others : List String} (unbroken : ∀ line ∈ lines, Unbroken line)
    (otherUnbroken : ∀ line ∈ others, Unbroken line) (same : joinLines lines = joinLines others) :
    lines = others := by
  have unmarked {lines : List String} (unbroken : ∀ line ∈ lines, Unbroken line) :
      ∀ piece ∈ lines.map String.toList, '\n' ∉ piece := by
    intro piece member newline
    obtain ⟨line, found, rfl⟩ := List.mem_map.1 member
    exact List.any_eq_false.1 (unbroken line found) '\n' newline rfl
  have chars := congrArg String.toList same
  rw [toList_joinLines, toList_joinLines] at chars
  have pieces_eq := ended_inj (unmarked unbroken) (unmarked otherUnbroken) chars
  exact List.map_injective_iff.2 (fun _ _ => String.toList_inj.1) pieces_eq

/-- There is no apostrophe in unbroken lines. -/
theorem apostrophe_notMem_joinLines {lines : List String}
    (unbroken : ∀ line ∈ lines, Unbroken line) : '\'' ∉ (joinLines lines).toList := by
  rw [toList_joinLines]
  intro member
  obtain ⟨piece, pieceFound, member⟩ := List.mem_flatMap.1 member
  obtain ⟨line, found, rfl⟩ := List.mem_map.1 pieceFound
  rcases List.mem_append.1 member with within | ending
  · exact List.any_eq_false.1 (unbroken line found) '\'' within rfl
  · exact absurd ending (by decide)

@[simp]
theorem ValueType.unbroken_text (type : ValueType) : Unbroken type.text := type.isWord_text.unbroken

/-- An operation is written without a break. -/
theorem Operation.unbroken_text {label : Nat → String} {operation : Operation}
    (operands : ∀ value ∈ operation.operands, IsWord value.text)
    (labels : ∀ source ∈ operation.incoming, Lettered (label source.2)) :
    Unbroken (operation.text label) := by
  have values := fun value member => (operands value member).unbroken
  cases operation with
  | alloca type => simp +decide [text, toString]
  | load type pointer =>
      have pointer_unbroken := values pointer (by simp [Operation.operands])
      simp +decide [text, toString, pointer_unbroken]
  | store type value pointer =>
      have value_unbroken := values value (by simp [Operation.operands])
      have pointer_unbroken := values pointer (by simp [Operation.operands])
      simp +decide [text, toString, value_unbroken, pointer_unbroken]
  | binary operator type left right =>
      have left_unbroken := values left (by simp [Operation.operands])
      have right_unbroken := values right (by simp [Operation.operands])
      simp +decide [text, toString, operator.isWord_text.unbroken, left_unbroken, right_unbroken]
  | compare predicate type left right =>
      have left_unbroken := values left (by simp [Operation.operands])
      have right_unbroken := values right (by simp [Operation.operands])
      simp +decide [text, toString, predicate.isWord_instruction.unbroken,
        predicate.isWord_text.unbroken, left_unbroken, right_unbroken]
  | cast operator source target value =>
      have value_unbroken := values value (by simp [Operation.operands])
      simp +decide [text, toString, operator.isWord_text.unbroken, value_unbroken]
  | call result callee arguments =>
      have callee_unbroken := values callee (by simp [Operation.operands])
      have arguments_unbroken : Unbroken (commaSeparated (arguments.map fun argument =>
          s!"{argument.1.text} {argument.2.text}")) := by
        apply unbroken_commaSeparated
        intro argument_text member
        obtain ⟨argument, found, rfl⟩ := List.mem_map.1 member
        have value_unbroken := values argument.2 (List.mem_cons_of_mem _ (List.mem_map_of_mem found))
        simp +decide [toString, value_unbroken]
      simpa +decide [text, toString, callee_unbroken] using arguments_unbroken
  | phi type incoming =>
      have incoming_unbroken : Unbroken (commaSeparated (incoming.map fun source =>
          s!"[ {source.1.text}, %{label source.2} ]")) := by
        apply unbroken_commaSeparated
        intro source_text member
        obtain ⟨source, found, rfl⟩ := List.mem_map.1 member
        have value_unbroken := values source.1 (List.mem_map_of_mem found)
        simp +decide [toString, value_unbroken, (labels source found).unbroken]
      simpa +decide [text, toString] using incoming_unbroken

/-- A terminator is written without a break. -/
theorem Terminator.unbroken_text {label : Nat → String} {terminator : Terminator}
    (operands : ∀ value ∈ terminator.operands, IsWord value.text)
    (labels : ∀ target ∈ terminator.successors, Lettered (label target)) :
    Unbroken (terminator.text label) := by
  cases terminator with
  | branch target =>
      have target_unbroken := (labels target (by simp [successors])).unbroken
      simp +decide [text, toString, target_unbroken]
  | condBranch condition whenTrue whenFalse =>
      have condition_unbroken := (operands condition (by simp [Terminator.operands])).unbroken
      have true_unbroken := (labels whenTrue (by simp [successors])).unbroken
      have false_unbroken := (labels whenFalse (by simp [successors])).unbroken
      simp +decide [text, toString, condition_unbroken, true_unbroken, false_unbroken]
  | ret type value =>
      have value_unbroken := (operands value (by simp [Terminator.operands])).unbroken
      simp +decide [text, toString, value_unbroken]

theorem Instruction.unbroken_text {label : Nat → String} {instruction : Instruction}
    (unbroken : Unbroken (instruction.operation.text label)) :
    Unbroken (instruction.text label) := by
  rw [text]
  cases instruction.result with
  | none => exact unbroken
  | some index =>
      have index_unbroken := (lettered_repr index).unbroken
      simp +decide [toString, index_unbroken, unbroken]

theorem Global.Legible.unbroken_text {global : Global}
    (legible : global.Legible) : Unbroken global.text := by
  have name_unbroken := legible.lettered_name.unbroken
  have initial_unbroken := global.initial.lettered_text.unbroken
  simp +decide [text, toString, name_unbroken, initial_unbroken]

theorem Function.unbroken_headLine {function : Function} (lettered : Lettered function.name) :
    Unbroken function.headLine := by
  simp +decide only [headLine, toString, unbroken_append, lettered.unbroken,
    ValueType.unbroken_text, and_true, true_and]
  apply unbroken_commaSeparated
  intro parameter_text member
  obtain ⟨⟨parameter, index⟩, -, rfl⟩ := List.mem_map.1 member
  have index_unbroken := (lettered_repr index).unbroken
  simp +decide [index_unbroken]

/-! ## Blocks -/

namespace Block

/-- Whether a block of a function with so many blocks is typed, refers to blocks of the function only and
has a label of letters. -/
structure Legible (globals : List String) (result : ValueType)
    (count : Nat) (block : Block) : Prop where
  /-- The label consists of letters. -/
  lettered_label : Lettered block.label
  /-- Instructions are typed. -/
  operation : ∀ instruction ∈ block.instructions,
    ∃ calls, instruction.operation.WellTyped (Value.Told globals) calls
  /-- The terminator is typed. -/
  terminator : block.terminator.WellTyped (Value.Told globals) result
  /-- Values come from blocks of the function. -/
  incoming_lt : ∀ instruction ∈ block.instructions, ∀ source ∈ instruction.operation.incoming,
    source.2 < count
  /-- The block leads to blocks of the function. -/
  target_lt : ∀ target ∈ block.terminator.successors, target < count

section Lines

variable {label : Nat → String} {globals : List String}
  {result : ValueType} {count : Nat} {block first second : Block}

theorem Legible.operands (legible : block.Legible globals result count)
    {instruction : Instruction} (member : instruction ∈ block.instructions) :
    ∀ value ∈ instruction.operation.operands, IsWord value.text := by
  intro value found
  obtain ⟨calls, typed⟩ := legible.operation instruction member
  obtain ⟨type, told⟩ := typed.operand value found
  exact told.isWord_text

theorem Legible.terminator_operands (legible : block.Legible globals result count) :
    ∀ value ∈ block.terminator.operands, IsWord value.text := by
  intro value found
  obtain ⟨type, told⟩ := legible.terminator.operand value found
  exact told.isWord_text

/-- The lines of a block are not empty, are not a lone brace and have no break. -/
theorem Legible.lines (legible : block.Legible globals result count)
    (lettered : ∀ index < count, Lettered (label index)) :
    ∀ line ∈ block.lines label, line ≠ "" ∧ line ≠ "\x7d" ∧ Unbroken line := by
  have indented (text : String) (unbroken : Unbroken text) :
      "  " ++ text ≠ "" ∧ "  " ++ text ≠ "\x7d" ∧ Unbroken ("  " ++ text) := by
    refine ⟨?_, ?_, unbroken_append.2 ⟨rfl, unbroken⟩⟩ <;>
      exact fun same => by simpa using congrArg String.toList same
  intro line member
  rw [Block.lines, List.append_assoc, List.mem_append, List.mem_append, List.mem_singleton,
    List.mem_singleton] at member
  rcases member with rfl | member | rfl
  · refine ⟨by simp, fun same => ?_, unbroken_append.2 ⟨legible.lettered_label.unbroken, rfl⟩⟩
    simpa using congrArg (fun text => text.toList.getLast?) same
  · obtain ⟨instruction, found, rfl⟩ := List.mem_map.1 member
    exact indented _ (Instruction.unbroken_text (Operation.unbroken_text (legible.operands found)
      fun source sourceFound => lettered _ (legible.incoming_lt _ found source sourceFound)))
  · exact indented _ (Terminator.unbroken_text legible.terminator_operands
      fun target found => lettered _ (legible.target_lt target found))

/-- Blocks are told by their lines, as long as labels tell the blocks of the function. -/
theorem Legible.lines_inj
    (lettered : ∀ index < count, Lettered (label index))
    (label_inj : ∀ index < count, ∀ other < count, label index = label other → index = other)
    (legible : first.Legible globals result count)
    (otherLegible : second.Legible globals result count)
    (same : first.lines label = second.lines label) : first = second := by
  rw [Block.lines, Block.lines, List.append_assoc, List.append_assoc, List.singleton_append,
    List.singleton_append, List.cons.injEq] at same
  obtain ⟨label_eq, lines_eq⟩ := same
  obtain ⟨instructions_eq, terminator_eq⟩ := List.append_inj' lines_eq rfl
  have label_eq := (String.append_left_inj ":").1 label_eq
  have terminator_eq : first.terminator = second.terminator := by
    have words_eq := congrArg words ((String.append_right_inj "  ").1 (List.cons.inj terminator_eq).1)
    rw [Terminator.words_text legible.terminator_operands fun target found =>
        lettered _ (legible.target_lt target found),
      Terminator.words_text otherLegible.terminator_operands fun target found =>
        lettered _ (otherLegible.target_lt target found)] at words_eq
    exact Terminator.words_inj legible.terminator otherLegible.terminator
      (fun target found other otherFound => label_inj target (legible.target_lt target found) other
        (otherLegible.target_lt other otherFound)) words_eq
  have instructions_eq : first.instructions.map id = second.instructions.map id := by
    refine map_eq_of_map_eq (fun instruction found other otherFound line_eq => ?_) instructions_eq
    have words_eq := congrArg words ((String.append_right_inj "  ").1 line_eq)
    rw [Instruction.words_text (legible.operands found) fun source sourceFound =>
        lettered _ (legible.incoming_lt _ found source sourceFound),
      Instruction.words_text (otherLegible.operands otherFound) fun source sourceFound =>
        lettered _ (otherLegible.incoming_lt _ otherFound source sourceFound)] at words_eq
    obtain ⟨calls, typed⟩ := legible.operation instruction found
    obtain ⟨more, otherTyped⟩ := otherLegible.operation other otherFound
    exact Instruction.words_inj typed otherTyped
      (fun source sourceFound otherSource otherSourceFound =>
        label_inj _ (legible.incoming_lt _ found source sourceFound) _
          (otherLegible.incoming_lt _ otherFound otherSource otherSourceFound)) words_eq
  rw [List.map_id, List.map_id] at instructions_eq
  cases first
  cases second
  simp_all

end Lines

end Block

/-! ## Functions -/

namespace Function

/-- A function without the names of its parameters. -/
def anonymous (function : Function) : Function :=
  { function with parameters := function.parameters.map fun parameter => ⟨"", parameter.type⟩ }

/-- The lines of a function in front of the brace at its end. -/
def front (function : Function) : List String :=
  function.headLine :: [""].intercalate (function.blocks.map (Block.lines function.label))

/-- Whether a function has a name of letters and legible blocks that are told apart by their labels. -/
structure Legible (globals : List String) (function : Function) : Prop where
  /-- The name consists of letters. -/
  lettered_name : Lettered function.name
  /-- Blocks are legible. -/
  block : ∀ block ∈ function.blocks, block.Legible globals function.result function.blocks.length
  /-- Labels differ. -/
  nodup_labels : (function.blocks.map Block.label).Nodup
  /-- There is a block. -/
  nonempty : function.blocks ≠ []

section Lines

variable {globals : List String} {function first second : Function}

theorem text_eq (function : Function) : function.text = joinLines (function.front ++ ["\x7d"]) := rfl

theorem label_eq (function : Function) (index : Nat) :
    function.label index = ((function.blocks.map Block.label)[index]?).getD "<invalid>" := by
  rw [label, List.getElem?_map]
  cases function.blocks[index]? <;> rfl

theorem label_eq_getElem {index : Nat} (lt : index < function.blocks.length) :
    function.label index = function.blocks[index].label := by
  rw [label, List.getElem?_eq_getElem lt]

theorem Legible.lettered_label (legible : function.Legible globals) :
    ∀ index < function.blocks.length, Lettered (function.label index) := by
  intro index lt
  rw [label_eq_getElem lt]
  exact (legible.block _ (List.getElem_mem lt)).lettered_label

theorem Legible.label_inj (legible : function.Legible globals) :
    ∀ index < function.blocks.length, ∀ other < function.blocks.length,
      function.label index = function.label other → index = other := by
  intro index lt other otherLt same
  have index_lt : index < (function.blocks.map Block.label).length := by simpa using lt
  have other_lt : other < (function.blocks.map Block.label).length := by simpa using otherLt
  have labels_eq : (function.blocks.map Block.label)[index] =
      (function.blocks.map Block.label)[other] := by
    simpa [label_eq_getElem lt, label_eq_getElem otherLt] using same
  exact (List.Nodup.getElem_inj_iff legible.nodup_labels).1 labels_eq

theorem lines_ne_nil (legible : function.Legible globals) :
    function.blocks.map (Block.lines function.label) ≠ [] :=
  mt List.map_eq_nil_iff.1 legible.nonempty

theorem headLine_ne (function : Function) : function.headLine ≠ "" ∧ function.headLine ≠ "\x7d" := by
  constructor <;>
    exact fun same => by simpa [headLine, toString] using congrArg (fun text => text.toList.head?) same

/-- No line of a function in front of its end is a lone brace or has a break. -/
theorem Legible.front (legible : function.Legible globals) :
    ∀ line ∈ function.front, line ≠ "\x7d" ∧ Unbroken line := by
  intro line member
  rcases List.mem_cons.1 member with rfl | member
  · exact ⟨function.headLine_ne.2, unbroken_headLine legible.lettered_name⟩
  · have within := List.mem_append_left [""] member
    rw [intercalate_append (lines_ne_nil legible)] at within
    obtain ⟨piece, found, member⟩ := List.mem_flatMap.1 within
    rcases List.mem_append.1 member with member | member
    · obtain ⟨block, blockFound, rfl⟩ := List.mem_map.1 found
      exact ((legible.block block blockFound).lines legible.lettered_label line member).2
    · obtain rfl := List.mem_singleton.1 member
      exact ⟨by decide, rfl⟩

/-- Blocks are told by the lines between the head and the end of a function. -/
theorem Legible.blocks_eq (legible : first.Legible globals) (otherLegible : second.Legible globals)
    (result_eq : first.result = second.result)
    (same : [""].intercalate (first.blocks.map (Block.lines first.label)) =
      [""].intercalate (second.blocks.map (Block.lines second.label))) :
    first.blocks = second.blocks := by
  have unmarked {function : Function} (legible : function.Legible globals) :
      ∀ piece ∈ function.blocks.map (Block.lines function.label), "" ∉ piece := by
    intro piece member empty
    obtain ⟨block, found, rfl⟩ := List.mem_map.1 member
    exact ((legible.block block found).lines legible.lettered_label "" empty).1 rfl
  have pieces_eq := congrArg (fun lines => lines ++ [""]) same
  rw [intercalate_append (lines_ne_nil legible), intercalate_append (lines_ne_nil otherLegible)]
    at pieces_eq
  have blocks_eq := ended_inj (unmarked legible) (unmarked otherLegible) pieces_eq
  -- The first line of a block is its label, so labels can be read before the blocks that they stand for.
  have labels_eq : first.blocks.map Block.label = second.blocks.map Block.label :=
    map_eq_of_map_eq (fun block _ other _ lines_eq =>
      (String.append_left_inj ":").1 (List.cons.inj lines_eq).1) blocks_eq
  have label_eq : first.label = second.label := by
    funext index
    rw [Function.label_eq, Function.label_eq, labels_eq]
  have length_eq : first.blocks.length = second.blocks.length := by
    simpa using congrArg List.length labels_eq
  have members_eq : first.blocks.map id = second.blocks.map id := by
    refine map_eq_of_map_eq (fun block found other otherFound lines_eq => ?_) blocks_eq
    have otherBlock := otherLegible.block other otherFound
    rw [← result_eq, ← length_eq] at otherBlock
    rw [← label_eq] at lines_eq
    exact (legible.block block found).lines_inj legible.lettered_label legible.label_inj otherBlock
      lines_eq
  simpa using members_eq

/-- A function is told by its lines, except for the names of its parameters. -/
theorem Legible.front_inj (legible : first.Legible globals) (otherLegible : second.Legible globals)
    (same : first.front = second.front) : first.anonymous = second.anonymous := by
  obtain ⟨head_eq, rest_eq⟩ := List.cons.inj same
  obtain ⟨name_eq, result_eq, types_eq⟩ :=
    headLine_inj legible.lettered_name otherLegible.lettered_name head_eq
  have parameters_eq : first.anonymous.parameters = second.anonymous.parameters :=
    map_eq_of_map_eq (fun _ _ _ _ type_eq => by rw [type_eq]) types_eq
  have blocks_eq := legible.blocks_eq otherLegible result_eq rest_eq
  exact (Function.mk.injEq ..).mpr ⟨name_eq, parameters_eq, result_eq, blocks_eq⟩

/-- Names of parameters are not written. -/
theorem text_anonymous (function : Function) : function.anonymous.text = function.text := by
  have headLine_eq : function.anonymous.headLine = function.headLine := by
    simp [headLine, anonymous, List.zipIdx_map, Function.comp_def]
  rw [text_eq, text_eq, Function.front, Function.front, headLine_eq]
  rfl

end Lines

end Function

/-! ## Modules -/

namespace Module

/-- A module without the names of parameters. -/
def anonymous (module : Module) : Module :=
  { module with functions := module.functions.map Function.anonymous }

/-- The lines of a module behind the first one. -/
def lines (module : Module) : List String :=
  module.globals.map Global.text ++
    module.functions.flatMap fun function => "" :: (function.front ++ ["\x7d"])

/-- Whether all parts of a module are legible. -/
structure Legible (module : Module) : Prop where
  /-- Global objects are legible. -/
  global : ∀ global ∈ module.globals, global.Legible
  /-- Functions are legible. -/
  function : ∀ function ∈ module.functions, function.Legible (module.globals.map Global.name)

variable {module first second : Module}

theorem joinLines_append (lines others : List String) :
    joinLines (lines ++ others) = joinLines lines ++ joinLines others := by
  rw [joinLines, List.map_append, String.join_append]
  rfl

theorem text_eq (module : Module) :
    module.text = "; ModuleID = '" ++ module.name ++ "'\n" ++ joinLines module.lines := by
  have globals_eq : String.join ((module.globals.map Part.global).map Part.text) =
      joinLines (module.globals.map Global.text) := by
    rw [joinLines, List.map_map, List.map_map]
    rfl
  have functions_eq : String.join ((module.functions.map Part.function).map Part.text) =
      joinLines (module.functions.flatMap fun function => "" :: (function.front ++ ["\x7d"])) := by
    induction module.functions with
    | nil => rfl
    | cons function functions induction =>
        rw [List.map_cons, List.map_cons, String.join_cons, induction, List.flatMap_cons,
          joinLines_append]
        congr 1
        change "\n" ++ joinLines _ = String.join ("\n" :: _)
        rw [String.join_cons]
        rfl
  rw [lines, joinLines_append, ← globals_eq, ← functions_eq, ← String.join_append, ← List.map_append]
  rfl

/-- No line of a legible module has a break. -/
theorem Legible.unbroken (legible : module.Legible) : ∀ line ∈ module.lines, Unbroken line := by
  intro line member
  rcases List.mem_append.1 member with member | member
  · obtain ⟨global, found, rfl⟩ := List.mem_map.1 member
    exact (legible.global global found).unbroken_text
  · obtain ⟨function, found, member⟩ := List.mem_flatMap.1 member
    rcases List.mem_cons.1 member with rfl | member
    · rfl
    · rcases List.mem_append.1 member with member | member
      · exact ((legible.function function found).front line member).2
      · obtain rfl := List.mem_singleton.1 member
        rfl

/-- Global objects are told by the lines of a module. -/
theorem Legible.globals_eq (legible : first.Legible) (otherLegible : second.Legible)
    (same : first.lines = second.lines) : first.globals = second.globals := by
  have unmarked (module : Module) : "" ∉ module.globals.map Global.text := by
    intro empty
    obtain ⟨global, -, text_eq⟩ := List.mem_map.1 empty
    simpa [Global.text, toString] using congrArg String.toList text_eq
  -- Behind the global objects stands an empty line, or there is nothing.
  have ended (module : Module) : module.lines ++ [""] = module.globals.map Global.text ++
      "" :: module.functions.flatMap fun function => function.front ++ ["\x7d", ""] := by
    rw [lines, List.append_assoc]
    congr 1
    induction module.functions with
    | nil => rfl
    | cons function functions induction =>
        rw [List.flatMap_cons, List.flatMap_cons, List.append_assoc, induction]
        simp
  have lines_eq := congrArg (fun lines => lines ++ [""]) same
  rw [ended, ended] at lines_eq
  have texts_eq := (cut_inj (unmarked first) (unmarked second) lines_eq).1
  have members_eq : first.globals.map id = second.globals.map id :=
    map_eq_of_map_eq (fun global found other otherFound text_eq =>
      (legible.global global found).text_inj (otherLegible.global other otherFound) text_eq) texts_eq
  simpa using members_eq

/-- A legible module is told by its lines, except for its name and the names of parameters. -/
theorem Legible.lines_inj (legible : first.Legible) (otherLegible : second.Legible)
    (same : first.lines = second.lines) :
    first.globals = second.globals ∧
      first.functions.map Function.anonymous = second.functions.map Function.anonymous := by
  have globals_eq := legible.globals_eq otherLegible same
  refine ⟨globals_eq, ?_⟩
  have unmarked {module : Module} (legible : module.Legible) :
      ∀ piece ∈ module.functions.map fun function => "" :: function.front, "\x7d" ∉ piece := by
    intro piece member brace
    obtain ⟨function, found, rfl⟩ := List.mem_map.1 member
    rcases List.mem_cons.1 brace with same | brace
    · exact absurd same (by decide)
    · exact ((legible.function function found).front _ brace).1 rfl
  rw [lines, lines, globals_eq] at same
  have functions_eq := List.append_cancel_left same
  have pieces_eq := ended_inj (unmarked legible) (unmarked otherLegible)
    (by rw [List.flatMap_map, List.flatMap_map]; exact functions_eq)
  refine map_eq_of_map_eq (fun function found other otherFound lines_eq => ?_) pieces_eq
  have otherFunction := otherLegible.function other otherFound
  rw [← globals_eq] at otherFunction
  exact (legible.function function found).front_inj otherFunction (List.cons.inj lines_eq).2

theorem text_anonymous (module : Module) : module.anonymous.text = module.text := by
  have parts_eq : module.anonymous.parts.map Part.text = module.parts.map Part.text := by
    rw [parts, parts, anonymous, List.map_append, List.map_append]
    congr 1
    rw [List.map_map, List.map_map, List.map_map]
    apply List.map_congr_left
    intro function _
    change "\n" ++ function.anonymous.text = "\n" ++ function.text
    rw [function.text_anonymous]
  rw [text, text, parts_eq]
  rfl

/-- Legible modules are told by their texts, except for the names of parameters. -/
theorem Legible.text_inj (legible : first.Legible) (otherLegible : second.Legible) :
    first.text = second.text ↔ first.anonymous = second.anonymous := by
  constructor
  · intro same
    have text_chars (module : Module) : module.text.toList =
        ("; ModuleID = '".toList ++ module.name.toList) ++
          '\'' :: ("\n".toList ++ (joinLines module.lines).toList) := by
      rw [text_eq, String.toList_append, String.toList_append, String.toList_append, List.append_assoc]
      rfl
    have unmarked {module : Module} (legible : module.Legible) :
        '\'' ∉ "\n".toList ++ (joinLines module.lines).toList := by
      intro member
      rcases List.mem_append.1 member with member | member
      · exact absurd member (by decide)
      · exact apostrophe_notMem_joinLines legible.unbroken member
    -- The name may hold any character, so it ends at the last apostrophe.
    have chars := congrArg String.toList same
    rw [text_chars, text_chars] at chars
    obtain ⟨front_eq, rest_eq⟩ := last_cut_inj (unmarked legible) (unmarked otherLegible) chars
    have name_eq := String.toList_inj.1 (List.append_cancel_left front_eq)
    have lines_eq := joinLines_inj legible.unbroken otherLegible.unbroken
      (String.toList_inj.1 (List.append_cancel_left rest_eq))
    obtain ⟨globals_eq, functions_eq⟩ := legible.lines_inj otherLegible lines_eq
    exact (Module.mk.injEq ..).mpr ⟨name_eq, globals_eq, functions_eq⟩
  · intro same
    rw [← text_anonymous first, same, text_anonymous]

end Module

end Minilang.Ir
