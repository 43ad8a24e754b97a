import Minilang.Proofs.Ir.Legibility

/-!
# References to blocks

In the text of a function, blocks are called by their labels: a branch names the blocks that it leads to, and
a `phi` names the blocks that its values come from. A reader who knows the text only looks a name up among the
headings of the blocks. If the labels of the function differ, that is the block meant.
-/

namespace Minilang.Ir

/-! ## Reading texts -/

/-- Words two by two. -/
def pairs : List String → List (String × String)
  | first :: second :: rest => (first, second) :: pairs rest
  | _ => []

/-- A word without the sign in front of it. -/
def unsigned (word : String) : String := String.ofList word.toList.tail

/-- The labels among the words of an operation or a terminator: the operands of a branch that have the type
of labels, and what stands behind each value that meets in a `phi`. -/
def labelsIn : List String → List String
  | [] => []
  | name :: operands =>
    if name = "br" then
      (pairs operands).filterMap fun operand =>
        if operand.1 = "label" then some (unsigned operand.2) else none
    else if name = "phi" then (pairs operands.tail).map fun source => unsigned source.2
    else []

/-- The labels that a line refers to. It may define a temporary in front of its operation. -/
def namesIn (line : String) : List String :=
  let words := words line
  labelsIn (if words[1]? = some "=" then words.drop 2 else words)

/-- The label that a line gives to the block whose lines follow, if it is a word with a colon. -/
def heading? (line : String) : Option String :=
  match words line with
  | [word] =>
    if word.toList.getLast? = some ':' then some (String.ofList word.toList.dropLast) else none
  | _ => none

/-- A block as its lines show it. -/
structure WrittenBlock where
  /-- The label in front of its lines. -/
  label : String
  /-- The labels that its lines refer to, in order. -/
  names : List String
deriving DecidableEq, Repr

/-- What is referred to in front of the first heading, and the blocks from there on. -/
def readBlocks : List String → List String × List WrittenBlock
  | [] => ([], [])
  | line :: lines =>
    let (names, blocks) := readBlocks lines
    match heading? line with
    | some label => ([], ⟨label, names⟩ :: blocks)
    | none => (namesIn line ++ names, blocks)

/-- The lines of a text. Behind the last newline stands an empty one. -/
def linesIn (text : String) : List String := (text.toList.splitOn '\n').map String.ofList

/-- The blocks that a text shows. -/
def writtenBlocks (text : String) : List WrittenBlock := (readBlocks (linesIn text)).2

/-- The labels of the blocks that a text shows. -/
def writtenLabels (text : String) : List String := (writtenBlocks text).map WrittenBlock.label

/-- For each block that a text shows, the places of the blocks that it refers to. Each of them is looked up by
its name among the headings in the text. -/
def links (text : String) : List (List (Option Nat)) :=
  (writtenBlocks text).map fun block => block.names.map fun name => (writtenLabels text).idxOf? name

/-! ## Lines -/

/-- Lines are found again in their text, and nothing stands behind the last newline. -/
theorem linesIn_joinLines {lines : List String} (unbroken : ∀ line ∈ lines, Unbroken line) :
    linesIn (joinLines lines) = lines ++ [""] := by
  rw [linesIn, toList_joinLines]
  induction lines with
  | nil => rfl
  | cons line lines induction =>
      rw [List.forall_mem_cons] at unbroken
      have whole : line.toList.splitOn '\n' = [line.toList] := by
        refine List.splitOnP_eq_singleton fun character member => ?_
        have kept := List.any_eq_false.1 unbroken.1 character member
        simp_all
      have parted (rest : List Char) : (line.toList ++ '\n' :: rest).splitOn '\n' =
          line.toList.splitOn '\n' ++ rest.splitOn '\n' :=
        List.splitOnP_append_cons _ _ (beq_self_eq_true _)
      rw [List.map_cons, List.flatMap_cons, List.append_assoc, List.singleton_append, parted, whole,
        List.map_append, induction unbroken.2]
      simp

/-- Words in pairs are read in pairs. -/
theorem pairs_flatMap {α : Type} (first second : α → String) (list : List α) :
    pairs (list.flatMap fun member => [first member, second member]) =
      list.map fun member => (first member, second member) := by
  induction list with
  | nil => rfl
  | cons member list induction =>
      rw [List.flatMap_cons, List.map_cons, ← induction]
      rfl

@[simp]
theorem unsigned_percent (label : String) : unsigned ("%" ++ label) = label := by
  simp [unsigned]

theorem heading?_label {label : String} (lettered : Lettered label) :
    heading? (label ++ ":") = some label := by
  have word : IsWord (label ++ ":") := by
    refine ⟨by simp, ?_⟩
    rw [String.toList_append, List.any_append, lettered.unmarked]
    rfl
  rw [heading?, word.words_eq]
  simp

theorem words_indented (text : String) : words ("  " ++ text) = words text := by
  rw [words_append_of_ends (by rfl)]
  rfl

/-- Whether a line belongs to a block and refers to certain labels. -/
structure Refers (line : String) (names : List String) : Prop where
  /-- The line is no heading. -/
  heading?_eq : heading? line = none
  /-- The labels are what the line refers to. -/
  namesIn_eq : namesIn line = names

/-- A line of two words or more is no heading, and it may be an operation. -/
theorem Refers.of_words {line first second : String} {rest : List String}
    (words_eq : words line = first :: second :: rest) (ne : second ≠ "=") :
    Refers line (labelsIn (first :: second :: rest)) := by
  constructor
  · rw [heading?, words_eq]
  · simp [namesIn, words_eq, ne]

/-- An operation may stand behind the temporary that it defines. -/
theorem Refers.of_result {line temporary : String} {rest : List String}
    (words_eq : words line = temporary :: "=" :: rest) : Refers line (labelsIn rest) := by
  constructor
  · rw [heading?, words_eq]
  · simp [namesIn, words_eq]

/-- A heading starts a block with what is referred to from there to the next heading. -/
theorem readBlocks_of_heading? {line label : String} (heading : heading? line = some label)
    (lines : List String) : readBlocks (line :: lines) =
      ([], ⟨label, (readBlocks lines).1⟩ :: (readBlocks lines).2) := by
  rw [readBlocks, heading]

theorem Refers.readBlocks_cons {line : String} {names : List String} (refers : Refers line names)
    (lines : List String) : readBlocks (line :: lines) =
      (names ++ (readBlocks lines).1, (readBlocks lines).2) := by
  rw [readBlocks, refers.heading?_eq, refers.namesIn_eq]

/-- Lines that are no headings are read together. -/
theorem readBlocks_append {α : Type} {line : α → String} {names : α → List String} {list : List α}
    (refers : ∀ member ∈ list, Refers (line member) (names member)) (more : List String) :
    readBlocks (list.map line ++ more) =
      (list.flatMap names ++ (readBlocks more).1, (readBlocks more).2) := by
  induction list with
  | nil => rfl
  | cons member list induction =>
      rw [List.forall_mem_cons] at refers
      rw [List.map_cons, List.cons_append, refers.1.readBlocks_cons, induction refers.2,
        List.flatMap_cons, List.append_assoc]

section Lines

variable {label : Nat → String}

/-- Only a `phi` refers to blocks. -/
theorem Operation.labelsIn_words (label : Nat → String) (operation : Operation) :
    labelsIn (operation.words label) = operation.incoming.map fun source => label source.2 := by
  cases operation with
  | binary operator => cases operator <;> rfl
  | compare predicate => cases predicate <;> rfl
  | cast operator => cases operator <;> rfl
  | phi type sources =>
      change (pairs (sources.flatMap fun source => [source.1.text, "%" ++ label source.2])).map
        (fun source => unsigned source.2) = _
      rw [pairs_flatMap, List.map_map]
      simp [Function.comp_def, incoming]
  | _ => rfl

/-- A branch refers to the blocks that it leads to. -/
theorem Terminator.labelsIn_words (label : Nat → String) (terminator : Terminator) :
    labelsIn (terminator.words label) = terminator.successors.map label := by
  cases terminator <;> simp [words, labelsIn, pairs, successors]

/-- The first two words of an operation define no temporary. -/
theorem Operation.exists_words_cons (label : Nat → String) (operation : Operation) :
    ∃ first second rest, operation.words label = first :: second :: rest ∧ second ≠ "=" := by
  have type_ne (type : ValueType) : type.text ≠ "=" := by cases type <;> decide
  cases operation with
  | compare predicate => exact ⟨_, _, _, rfl, by cases predicate <;> decide⟩
  | _ => exact ⟨_, _, _, rfl, type_ne _⟩

/-- The first two words of a terminator define no temporary. -/
theorem Terminator.exists_words_cons (label : Nat → String) (terminator : Terminator) :
    ∃ first second rest, terminator.words label = first :: second :: rest ∧ second ≠ "=" := by
  cases terminator with
  | ret type => exact ⟨_, _, _, rfl, by cases type <;> decide⟩
  | _ => exact ⟨_, _, _, rfl, by decide⟩

/-- The line of an instruction refers to the blocks that values come from. -/
theorem Instruction.refers {instruction : Instruction}
    (words_eq : Ir.words (instruction.text label) = instruction.words label) :
    Refers ("  " ++ instruction.text label)
      (instruction.operation.incoming.map fun source => label source.2) := by
  rw [← instruction.operation.labelsIn_words]
  rw [← words_indented] at words_eq
  obtain ⟨result, operation⟩ := instruction
  cases result with
  | none =>
      obtain ⟨first, second, rest, operation_eq, ne⟩ := operation.exists_words_cons label
      have line_eq := words_eq.trans operation_eq
      rw [operation_eq]
      exact .of_words line_eq ne
  | some index => exact .of_result words_eq

/-- The line of a terminator refers to the blocks that it leads to. -/
theorem Terminator.refers {terminator : Terminator}
    (words_eq : Ir.words (terminator.text label) = terminator.words label) :
    Refers ("  " ++ terminator.text label) (terminator.successors.map label) := by
  obtain ⟨first, second, rest, terminator_eq, ne⟩ := terminator.exists_words_cons label
  rw [← terminator.labelsIn_words, terminator_eq]
  exact .of_words ((words_indented _).trans (words_eq.trans terminator_eq)) ne

end Lines

/-! ## Blocks -/

namespace Block

/-- The blocks that a block refers to: those that values come from, and then those that it leads to. -/
def references (block : Block) : List Nat :=
  (block.instructions.flatMap fun instruction => instruction.operation.incoming.map Prod.snd) ++
    block.terminator.successors

/-- A block as its lines show it, if blocks are labelled like this. -/
def written (label : Nat → String) (block : Block) : WrittenBlock :=
  ⟨block.label, block.references.map label⟩

variable {label : Nat → String} {globals : List String} {result : ValueType} {count : Nat}
  {block : Block}

/-- A legible block refers to blocks of the function only. -/
theorem Legible.references_lt (legible : block.Legible globals result count) :
    ∀ target ∈ block.references, target < count := by
  intro target member
  rcases List.mem_append.1 member with incoming | leads
  · obtain ⟨instruction, instruction_mem, found⟩ := List.mem_flatMap.1 incoming
    obtain ⟨source, source_mem, rfl⟩ := List.mem_map.1 found
    exact legible.incoming_lt instruction instruction_mem source source_mem
  · exact legible.target_lt target leads

/-- The lines of a block show it, as long as nothing behind them belongs to it. -/
theorem Legible.readBlocks_lines (legible : block.Legible globals result count)
    (lettered : ∀ index < count, Lettered (label index)) {more : List String}
    (apart : (readBlocks more).1 = []) : readBlocks (block.lines label ++ more) =
      ([], block.written label :: (readBlocks more).2) := by
  have instructions_refer : ∀ instruction ∈ block.instructions, Refers ("  " ++ instruction.text label)
      (instruction.operation.incoming.map fun source => label source.2) := fun instruction member =>
    Instruction.refers (Instruction.words_text (legible.operands member) fun source found =>
      lettered _ (legible.incoming_lt instruction member source found))
  have terminator_refers : Refers ("  " ++ block.terminator.text label)
      (block.terminator.successors.map label) :=
    Terminator.refers (Terminator.words_text legible.terminator_operands fun target found =>
      lettered _ (legible.target_lt target found))
  rw [Block.lines, List.append_assoc, List.append_assoc, List.singleton_append,
    readBlocks_of_heading? (heading?_label legible.lettered_label),
    readBlocks_append instructions_refer, List.singleton_append, terminator_refers.readBlocks_cons,
    apart, List.append_nil, written, references, List.map_append, List.map_flatMap]
  simp [Function.comp_def]

/-- Blocks are shown one after another in front of the brace at the end. -/
theorem readBlocks_intercalate {blocks : List Block}
    (legible : ∀ block ∈ blocks, block.Legible globals result count)
    (lettered : ∀ index < count, Lettered (label index)) :
    readBlocks ([""].intercalate (blocks.map (Block.lines label)) ++ ["\x7d", ""]) =
      ([], blocks.map (written label)) := by
  have ending : readBlocks ["\x7d", ""] = ([], []) := by rfl
  induction blocks with
  | nil => exact ending
  | cons block blocks induction =>
      rw [List.forall_mem_cons] at legible
      have rest := induction legible.2
      cases blocks with
      | nil =>
          rw [List.map_singleton, List.intercalate_singleton,
            legible.1.readBlocks_lines lettered (by rw [ending]), ending]
          rfl
      | cons next blocks =>
          rw [List.map_cons, List.map_cons, List.intercalate_cons_cons, List.append_assoc,
            List.append_assoc, ← List.map_cons]
          have between : readBlocks ([""] ++ ([""].intercalate ((next :: blocks).map
              (Block.lines label)) ++ ["\x7d", ""])) = ([], (next :: blocks).map (written label)) := by
            have empty : Refers "" [] := ⟨rfl, rfl⟩
            rw [List.singleton_append, empty.readBlocks_cons, rest]
            rfl
          rw [legible.1.readBlocks_lines lettered (by rw [between]), between]
          rfl

end Block

/-! ## Functions -/

namespace Function

/-- Whether labels tell the blocks of a function, in the function and in its text. -/
structure WellLabelled (function : Function) : Prop where
  /-- Labels differ. -/
  nodup_labels : (function.blocks.map Block.label).Nodup
  /-- Each block is the one that is found by its label. -/
  block?_label : ∀ (index : Nat) (bound : index < function.blocks.length),
    function.block? (function.label index) = some function.blocks[index]
  /-- The headings in the text are the labels. -/
  writtenLabels_text : writtenLabels function.text = function.blocks.map Block.label
  /-- Looking up the names in the text, in branches and in every `phi`, finds the blocks meant. -/
  links_text : links function.text = function.blocks.map fun block => block.references.map some

variable {globals : List String} {function : Function}

/-- Among labels that differ, the label of a block stands at the place of the block. -/
theorem idxOf?_label (nodup : (function.blocks.map Block.label).Nodup) {index : Nat}
    (bound : index < function.blocks.length) :
    (function.blocks.map Block.label).idxOf? (function.label index) = some index := by
  have index_lt : index < (function.blocks.map Block.label).length := by simpa using bound
  have label_at : (function.blocks.map Block.label)[index] = function.label index := by
    simp [label_eq_getElem bound]
  rw [List.idxOf?_eq_some_iff]
  refine ⟨index_lt, label_at, fun other before same => ?_⟩
  exact before.ne ((List.Nodup.getElem_inj_iff nodup).1 (same.trans label_at.symm))

theorem block?_label_of_nodup (nodup : (function.blocks.map Block.label).Nodup) {index : Nat}
    (bound : index < function.blocks.length) :
    function.block? (function.label index) = some function.blocks[index] := by
  obtain ⟨_, _, first⟩ := List.idxOf?_eq_some_iff.1 (idxOf?_label nodup bound)
  rw [block?, List.find?_eq_some_iff_getElem]
  refine ⟨by rw [label_eq_getElem bound, beq_self_eq_true], index, bound, rfl, fun other before => ?_⟩
  simpa using first other before

/-- The text of a legible function shows its blocks. -/
theorem Legible.writtenBlocks_text (legible : function.Legible globals) :
    writtenBlocks function.text = function.blocks.map (Block.written function.label) := by
  have unbroken : ∀ line ∈ function.front ++ ["\x7d"], Unbroken line := by
    intro line member
    rcases List.mem_append.1 member with member | member
    · exact (legible.front line member).2
    · obtain rfl := List.mem_singleton.1 member
      rfl
  have head : Refers function.headLine (namesIn function.headLine) :=
    ⟨by rw [heading?, words_headLine legible.lettered_name], rfl⟩
  rw [writtenBlocks, text_eq, linesIn_joinLines unbroken, Function.front, List.cons_append,
    List.cons_append, List.append_assoc, head.readBlocks_cons]
  exact congrArg Prod.snd (Block.readBlocks_intercalate legible.block legible.lettered_label)

/-- Legible functions are well labelled. -/
theorem Legible.wellLabelled (legible : function.Legible globals) : function.WellLabelled := by
  have labels_eq : writtenLabels function.text = function.blocks.map Block.label := by
    rw [writtenLabels, legible.writtenBlocks_text, List.map_map]
    rfl
  refine ⟨legible.nodup_labels, fun index => block?_label_of_nodup legible.nodup_labels, labels_eq, ?_⟩
  rw [links, labels_eq, legible.writtenBlocks_text, List.map_map]
  refine List.map_congr_left fun block member => ?_
  have looked_up : ∀ target ∈ block.references,
      (function.blocks.map Block.label).idxOf? (function.label target) = some target :=
    fun target found =>
      idxOf?_label legible.nodup_labels ((legible.block block member).references_lt target found)
  change (block.references.map function.label).map _ = _
  rw [List.map_map]
  exact List.map_congr_left looked_up

end Function

end Minilang.Ir
