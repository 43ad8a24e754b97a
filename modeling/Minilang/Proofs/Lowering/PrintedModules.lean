import Minilang.Proofs.Analysis.Numbers
import Minilang.Proofs.Ir.References
import Minilang.Proofs.Lowering.ProgramControlFlow
import Minilang.Proofs.Lowering.ProgramEvents
import Minilang.Proofs.Lowering.ProgramTyping
import Minilang.Proofs.Lowering.Symbols

/-!
# Texts of compiled modules

A compiled module is legible: its names come from identifiers, its labels from the roles of blocks, and its
numbers from literals. So its text tells the whole module, except for the names of parameters, and the labels
in it name the blocks meant.
-/

namespace Minilang

/-! ## Operands -/

namespace Ir

/-- Whether the text of a value tells it among the values of its type. -/
def Value.Legible (globals : List String) : Value → Prop
  | const constant => ∀ number, constant = .float number → number.IsNumber
  | temp _ | arg _ => True
  | global name => name ∈ globals ∧ Lettered name
  | function name => name ∉ globals ∧ Lettered name

theorem Value.Legible.told {globals : List String} {value : Value} {type : ValueType}
    {function : Function} (legible : value.Legible globals) (holds : function.Holds value type) :
    value.Told globals type := by
  cases value with
  | const constant => exact ⟨Option.some.inj holds, legible⟩
  | temp | arg => trivial
  | global | function => exact legible

section Operands

variable {holds legible told : Value → ValueType → Prop} {calls : String → Signature → Prop}
  {admits : Value → Prop}
  (tells : ∀ value type, admits value → holds value type → told value type)
include tells

/-- What is true of operands can be added to their types. -/
theorem Operation.WellTyped.restrict {operation : Operation} (typed : operation.WellTyped holds calls)
    (admitted : ∀ value ∈ operation.operands, admits value) : operation.WellTyped told calls := by
  cases typed with
  | alloca type => exact .alloca type
  | load pointer => exact .load (tells _ _ (admitted _ (by simp [operands])) pointer)
  | store value pointer =>
      exact .store (tells _ _ (admitted _ (by simp [operands])) value)
        (tells _ _ (admitted _ (by simp [operands])) pointer)
  | binary accepts left right =>
      exact .binary accepts (tells _ _ (admitted _ (by simp [operands])) left)
        (tells _ _ (admitted _ (by simp [operands])) right)
  | compare same left right =>
      exact .compare same (tells _ _ (admitted _ (by simp [operands])) left)
        (tells _ _ (admitted _ (by simp [operands])) right)
  | cast leads value => exact .cast leads (tells _ _ (admitted _ (by simp [operands])) value)
  | call callee arguments called =>
      exact .call (tells _ _ (admitted _ List.mem_cons_self) callee) (fun argument member =>
        tells _ _ (admitted _ (List.mem_cons_of_mem _ (List.mem_map_of_mem member)))
          (arguments argument member)) called
  | phi incoming =>
      exact .phi fun value member => tells _ _ (admitted value member) (incoming value member)

theorem Terminator.WellTyped.restrict {terminator : Terminator} {result : ValueType}
    (typed : terminator.WellTyped holds result)
    (admitted : ∀ value ∈ terminator.operands, admits value) : terminator.WellTyped told result := by
  cases typed with
  | branch target => exact .branch target
  | condBranch whenTrue whenFalse condition =>
      exact .condBranch _ _ (tells _ _ (admitted _ (by simp [operands])) condition)
  | ret value => exact .ret (tells _ _ (admitted _ (by simp [operands])) value)

end Operands

end Ir

/-! ## Names -/

/-- What tokens introduce is called by one of them. -/
theorem identifier_mem_of_headings {depth : Nat} {kinds : List TokenKind} {entity : Entity} {name : String}
    (member : (entity, name) ∈ headings depth kinds) : TokenKind.identifier name ∈ kinds := by
  induction kinds generalizing depth with
  | nil => cases member
  | cons kind kinds induction =>
      rw [headings, List.mem_append] at member
      rcases member with first | others
      · split at first
        · have found := Option.mem_toList.1 first
          unfold heading? at found
          split at found <;> simp_all
        · cases first
      · exact List.mem_cons_of_mem _ (induction others)

/-- The names that tokens introduce consist of letters. -/
theorem lettered_of_headings {tokens : List Token} (plain : ∀ token ∈ tokens, token.kind.Plain)
    {entity : Entity} {name : String} (member : name ∈ namesOf entity (headings 0 (tokens.map Token.kind))) :
    Ir.Lettered name := by
  obtain ⟨⟨_, _⟩, found, rfl⟩ := List.mem_map.1 member
  have identifier := identifier_mem_of_headings (List.mem_filter.1 found).1
  obtain ⟨token, token_mem, kind_eq⟩ := List.mem_map.1 identifier
  have parts := plain token token_mem
  rw [kind_eq] at parts
  rw [Ir.Lettered, List.all_eq_true]
  intro character inside
  have part := List.all_eq_true.1 parts character inside
  rw [Lexeme.isWordPart, Bool.or_eq_true, beq_iff_eq] at part
  rw [Ir.isLetter, Bool.or_eq_true]
  rcases part with letter | rfl
  · exact Or.inl letter
  · exact Or.inr rfl

/-! ## Labels -/

theorem BlockRole.lettered_label (role : BlockRole) (earlier : Nat) :
    Ir.Lettered (role.label earlier) := by
  have text_lettered : Ir.Lettered role.text := by cases role <;> decide
  cases earlier with
  | zero => exact text_lettered
  | succ earlier =>
      rw [label_succ, Ir.Lettered, String.toList_append, List.all_append, text_lettered]
      exact Ir.lettered_repr (earlier + 1)

namespace Lowering

variable {program : Program} {id : DeclId}

/-- The labels of a function that has been built differ and consist of letters. -/
theorem Built.labels {builder : Builder} (built : Built program id builder) (result : Ir.ValueType) :
    ((builder.finish result).map Ir.Block.label).Nodup ∧
      ∀ label ∈ (builder.finish result).map Ir.Block.label, Ir.Lettered label := by
  obtain ⟨events, traces, -⟩ := built.records
  have places_nodup : builder.places.Nodup := by
    rw [List.nodup_iff_count_le_one]
    rintro ⟨role, earlier⟩
    rw [traces.count_places count_places_started]
    split <;> decide
  rw [Builder.labels_finish]
  constructor
  · apply places_nodup.map
    rintro ⟨role, earlier⟩ ⟨other, more⟩ same
    exact Prod.mk.injEq .. ▸ BlockRole.label_inj same
  · intro label member
    obtain ⟨place, -, rfl⟩ := List.mem_map.1 member
    exact place.1.lettered_label place.2

variable {module : Ir.Module}

/-- What is true of the right of all pairs is true of all members of the right list. -/
theorem forall_mem_of_forall₂ {α β : Type} {relates : α → β → Prop} {list : List α} {others : List β}
    {property : β → Prop} (paired : List.Forall₂ relates list others)
    (implies : ∀ member other, relates member other → property other) :
    ∀ other ∈ others, property other := by
  induction paired with
  | nil => exact List.forall_mem_nil _
  | cons first _ induction => exact List.forall_mem_cons.2 ⟨implies _ _ first, induction⟩

/-- The functions that a program is lowered to have blocks whose labels differ and consist of letters. -/
theorem labels_of_lower (coherent : program.Coherent) (lowered : lower program = .ok module) :
    ∀ function ∈ module.functions, function.blocks ≠ [] ∧
      (function.blocks.map Ir.Block.label).Nodup ∧
      ∀ label ∈ function.blocks.map Ir.Block.label, Ir.Lettered label := by
  refine forall_mem_of_forall₂ ((lower_performs coherent).1 module lowered) ?_
  rintro id _ ⟨name, parameters, result, builder, rfl, built⟩
  refine ⟨fun empty => built.nonempty ?_, built.labels result⟩
  have length_eq := congrArg List.length (builder.labels_finish result)
  rw [show builder.finish result = [] from empty, List.length_map, List.length_map,
    Builder.places_length] at length_eq
  exact length_eq.symm

/-- The values that a program can be lowered to are told by their texts. -/
theorem admits_legible (coherent : program.Coherent) (numbers : program.ast.HoldsNumbers)
    (lowered : lower program = .ok module)
    (lettered : ∀ name ∈ module.globals.map Ir.Global.name ++ module.functions.map Ir.Function.name,
      Ir.Lettered name) :
    program.Admits (Ir.Value.Legible (module.globals.map Ir.Global.name)) := by
  have closed := lower_closed coherent lowered
  have resolves := admits_resolves coherent lowered
  have disjoint := (List.nodup_append.1 closed.names_nodup).2.2
  have zero : Binary64.zero.IsNumber := by decide
  constructor
  · intro index
    trivial
  · intro index
    trivial
  · intro constant other number same
    exact absurd same (other number)
  · intro type number same
    cases type <;> cases same
    exact zero
  · intro id value kind_eq number same
    cases same
    exact numbers id value kind_eq
  · intro id value symbol
    have resolved := resolves.symbol id value symbol
    cases value with
    | global name =>
        obtain ⟨object, member, rfl⟩ := resolved
        have named : object.name ∈ module.globals.map Ir.Global.name := List.mem_map_of_mem member
        exact ⟨named, lettered _ (List.mem_append_left _ named)⟩
    | function name =>
        obtain ⟨body, member, rfl⟩ := resolved
        have named : body.name ∈ module.functions.map Ir.Function.name := List.mem_map_of_mem member
        exact ⟨fun global => disjoint _ global _ named rfl, lettered _ (List.mem_append_right _ named)⟩
    | const | temp | arg =>
        rw [Program.symbol?] at symbol
        split at symbol
        · dsimp only at symbol
          split at symbol <;> cases symbol
        · cases symbol

/-- A function is legible if its operands are and its labels tell its blocks. -/
theorem function_legible {globals : List String} {calls : String → Ir.Signature → Prop}
    {function : Ir.Function} (lettered : Ir.Lettered function.name)
    (typed : function.WellTyped calls) (connected : function.WellConnected)
    (uses : ∀ block ∈ function.blocks,
      (∀ instruction ∈ block.instructions, ∀ value ∈ instruction.operation.operands,
        value.Legible globals) ∧
      ∀ value ∈ block.terminator.operands, value.Legible globals)
    (nonempty : function.blocks ≠ []) (nodup : (function.blocks.map Ir.Block.label).Nodup)
    (labels : ∀ label ∈ function.blocks.map Ir.Block.label, Ir.Lettered label) :
    function.Legible globals := by
  have tells (value : Ir.Value) (type : Ir.ValueType) (legible : value.Legible globals)
      (holds : function.Holds value type) : value.Told globals type := legible.told holds
  refine ⟨lettered, fun block member => ?_, nodup, nonempty⟩
  obtain ⟨index, found⟩ := List.mem_iff_getElem?.1 member
  obtain ⟨operands, last_operands⟩ := uses block member
  constructor
  · exact labels _ (List.mem_map_of_mem member)
  · intro instruction instruction_mem
    exact ⟨calls, (typed.instruction block member instruction instruction_mem).restrict tells
      (operands instruction instruction_mem)⟩
  · exact (typed.terminator block member).restrict tells last_operands
  · intro instruction instruction_mem source source_mem
    have isPhi : instruction.operation.isPhi = true := by
      cases operation : instruction.operation with
      | phi => rfl
      | _ =>
          rw [operation] at source_mem
          cases source_mem
    obtain ⟨_, first, _, second, incoming_eq, -, first_lt, second_lt, -⟩ :=
      connected.phi_incoming index block found instruction instruction_mem isPhi
    rw [incoming_eq] at source_mem
    rcases List.mem_cons.1 source_mem with rfl | source_mem
    · exact first_lt
    · obtain rfl := List.mem_singleton.1 source_mem
      exact second_lt
  · intro target target_mem
    exact connected.target_lt index target ⟨block, found, target_mem⟩

/-- A coherent program with numbers and names of letters is lowered to a legible module. -/
theorem lower_legible (coherent : program.Coherent) (numbers : program.ast.HoldsNumbers)
    (lowered : lower program = .ok module)
    (lettered : ∀ name ∈ module.globals.map Ir.Global.name ++ module.functions.map Ir.Function.name,
      Ir.Lettered name) : module.Legible := by
  have admits := admits_legible coherent numbers lowered lettered
  obtain ⟨globals, run, -⟩ := lower_parts coherent lowered
  have zero : Binary64.zero.IsNumber := by decide
  constructor
  · intro global member
    have named := lettered _ (List.mem_append_left _ (List.mem_map_of_mem member))
    obtain ⟨type, initial_eq⟩ : ∃ type, global.type = type ∧ global.initial = .zero type := by
      apply forall_mem_of_forall₂ globals ?_ global member
      rintro id _ ⟨type, initializer, -, rfl⟩
      exact ⟨_, rfl, rfl⟩
    refine ⟨named, by rw [initial_eq.2, initial_eq.1, Ir.Constant.type_zero], fun number same => ?_⟩
    rw [initial_eq.2] at same
    cases type <;> cases same
    exact zero
  · intro function member
    have named := lettered _ (List.mem_append_right _ (List.mem_map_of_mem member))
    obtain ⟨id, id_mem, built_run⟩ := mem_of_lowerFunctions run member
    obtain ⟨nonempty, nodup, labels⟩ := labels_of_lower coherent lowered function member
    exact function_legible named (lower_wellTyped coherent lowered function member)
      (lowerFunction_wellConnected built_run) (lowerFunction_uses admits built_run) nonempty nodup labels

end Lowering

/-- Compiled modules are legible. -/
theorem compile_legible {source : Source} {module : Ir.Module}
    (compiled : compile source = .ok module) : module.Legible := by
  rw [compile] at compiled
  cases parsed : parse source with
  | error cause =>
      rw [parsed] at compiled
      cases compiled
  | ok program =>
      rw [parsed] at compiled
      replace compiled : lower program = .ok module := compiled
      have coherent := parse_coherent parsed
      obtain ⟨tokens, tokenized⟩ := exists_tokens_of_parse parsed
      have headings_eq := parse_headings parsed tokenized
      have plain := plain_of_tokenize tokenized
      obtain ⟨globals_eq, functions_eq⟩ := Lowering.names_of_lower coherent compiled
      rw [Program.names_entities headings_eq] at globals_eq functions_eq
      apply Lowering.lower_legible coherent (parse_holdsNumbers parsed tokenized) compiled
      intro name member
      rw [globals_eq, functions_eq] at member
      rcases List.mem_append.1 member with global | function
      · exact lettered_of_headings plain global
      · exact lettered_of_headings plain function

/-- The text of a compiled module determines the module. Two texts, whatever they are called, are compiled to
modules with the same text exactly if these modules are equal up to the names of parameters. -/
theorem compile_text_inj {source other : Source} {first second : Ir.Module}
    (compiled : compile source = .ok first) (otherCompiled : compile other = .ok second) :
    first.text = second.text ↔ first.anonymous = second.anonymous :=
  (compile_legible compiled).text_inj (compile_legible otherCompiled)

/-- A program whose name has an apostrophe in it, where a global variable and a function are used. -/
def quotedName : Source :=
  ⟨"it's", "var g: float = 2.5; def f(x: float, c: bool) -> float { return c ? g + x : f(x, !c); }"⟩

/-- The same program with other names of parameters. -/
def quotedRenamed : Source :=
  ⟨"it's", "var g: float = 2.5; def f(y: float, d: bool) -> float { return d ? g + y : f(y, !d); }"⟩

theorem compile_text_inj_of_quotedName :
    ∃ first second, compile quotedName = .ok first ∧ compile quotedRenamed = .ok second ∧
      first.text = second.text ∧ first ≠ second ∧ first.anonymous = second.anonymous := by
  have compiles : (compile quotedName).toOption.any (fun first =>
      (compile quotedRenamed).toOption.any fun second =>
        first.text = second.text ∧ first ≠ second) = true := by
    decide +kernel
  cases compiled : compile quotedName with
  | error cause =>
      rw [compiled] at compiles
      cases compiles
  | ok first =>
      cases otherCompiled : compile quotedRenamed with
      | error cause =>
          rw [compiled, otherCompiled] at compiles
          cases compiles
      | ok second =>
          rw [compiled, otherCompiled] at compiles
          obtain ⟨same, differ⟩ := of_decide_eq_true compiles
          exact ⟨first, second, rfl, rfl, same, differ,
            (compile_text_inj compiled otherCompiled).1 same⟩

/-- The labels of every compiled function differ, so the block that is found by the label of a block is that
block. In the text of the function, the labels in branches and in every `phi` name the blocks meant. -/
theorem compile_wellLabelled {source : Source} {module : Ir.Module}
    (compiled : compile source = .ok module) :
    ∀ function ∈ module.functions, function.WellLabelled :=
  fun function member => ((compile_legible compiled).function function member).wellLabelled

/-- A program with two loops, two operators and two choices of each kind, and code behind a jump. -/
def repeatedRoles : Source :=
  ⟨"t", "def f(x: int, c: bool) -> int {
  while (c && x < 1) { when (c && x < 2) break; continue; }
  while (c || x < 3) { if (c) { return x; c = x < 4; } else continue; x = (c ? x : 5); }
  when (c) return x;
  return x + 6;
}"⟩

theorem compile_wellLabelled_of_repeatedRoles :
    ∃ module, compile repeatedRoles = .ok module ∧
      (∃ function ∈ module.functions,
        ["while.cond", "and.rhs", "while.cond1", "and.rhs1", "when.end1", "unreachable"] ⊆
          function.blocks.map Ir.Block.label) ∧
      ∀ function ∈ module.functions, function.WellLabelled := by
  have compiles : (compile repeatedRoles).toOption.any (fun module =>
      ∃ function ∈ module.functions,
        ["while.cond", "and.rhs", "while.cond1", "and.rhs1", "when.end1", "unreachable"] ⊆
          function.blocks.map Ir.Block.label) = true := by
    decide +kernel
  cases compiled : compile repeatedRoles with
  | error cause =>
      rw [compiled] at compiles
      cases compiles
  | ok module =>
      rw [compiled] at compiles
      exact ⟨module, rfl, of_decide_eq_true compiles, compile_wellLabelled compiled⟩

end Minilang
