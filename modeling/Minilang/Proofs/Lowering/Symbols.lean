import Minilang.Proofs.Lowering.Operands
import Minilang.Proofs.Lowering.ProgramTyping
import Minilang.Proofs.Parsing.Headings

/-!
# Symbols

The global objects of a compiled module are the variables at the top of the program, and its functions are
the functions there, in the order in which the text declares them. No name is used twice, and every address
names a part of the module.
-/

namespace Minilang

namespace Ir

/-- Whether a value that is an address of the module leads to a part of it. -/
def Value.Resolves (module : Module) : Value → Prop
  | global name => ∃ object ∈ module.globals, object.name = name
  | function name => ∃ body ∈ module.functions, body.name = name
  | const _ | temp _ | arg _ => True

/-- Whether the names of a module are different and all its addresses lead to its parts. -/
structure Module.Closed (module : Module) : Prop where
  /-- No two parts have the same name. -/
  names_nodup : (module.globals.map Global.name ++ module.functions.map Function.name).Nodup
  /-- The operands of instructions lead to parts. -/
  instruction : ∀ function ∈ module.functions, ∀ block ∈ function.blocks,
    ∀ instruction ∈ block.instructions, ∀ value ∈ instruction.operation.operands,
      value.Resolves module
  /-- The operands of terminators lead to parts. -/
  terminator : ∀ function ∈ module.functions, ∀ block ∈ function.blocks,
    ∀ value ∈ block.terminator.operands, value.Resolves module

end Ir

/-- The names of the entities of one sort among headings. -/
def namesOf (entity : Entity) (headings : List (Entity × String)) : List String :=
  (headings.filter fun heading => heading.1 = entity).map Prod.snd

namespace Program

/-- Whether a global object is the one of a variable, which holds zero at first. -/
def LowersGlobal (program : Program) (id : DeclId) (global : Ir.Global) : Prop :=
  ∃ type initializer, program.ast.kindOf id = .object .var type (some initializer) ∧
    global = ⟨(program.ast.decl id).name, .ofTy type, .zero (.ofTy type)⟩

/-- Whether a function of a module is the one of a definition. -/
def LowersFunction (program : Program) (id : DeclId) (function : Ir.Function) : Prop :=
  ∃ result types parameters body,
    program.ast.kindOf id = .function (.function result types) parameters (some body) ∧
      function.name = (program.ast.decl id).name ∧
      function.signature = ⟨types.map .ofTy, .ofTy result⟩

/-- The declarations at the top of a program that introduce one sort of entities. -/
def entities (program : Program) (entity : Entity) : List DeclId :=
  program.declarations.filter fun id => (program.ast.kindOf id).entity? = some entity

theorem mem_entities {program : Program} {entity : Entity} {id : DeclId} :
    id ∈ program.entities entity ↔
      id ∈ program.declarations ∧ (program.ast.kindOf id).entity? = some entity := by
  simp [entities]

theorem functions_eq (program : Program) :
    (program.declarations.filter fun id => (program.ast.decl id).kind.isFunction) =
      program.entities .function := by
  apply List.filter_congr
  intro id _
  rw [← Ast.kindOf]
  cases program.ast.kindOf id with
  | object kind => cases kind <;> rfl
  | _ => rfl

end Program

namespace Lowering

variable {program : Program} (coherent : program.Coherent)

include coherent

theorem forall₂_lowerGlobal? {ids : List DeclId} (atTop : ∀ id ∈ ids, id ∈ program.declarations) :
    List.Forall₂ program.LowersGlobal
      (ids.filter fun id => (program.ast.kindOf id).entity? = some .variable)
      ((ids.map program.ast.decl).filterMap lowerGlobal?) := by
  induction ids with
  | nil => exact .nil
  | cons id ids induction =>
      rw [List.forall_mem_cons] at atTop
      have rest := induction atTop.2
      rw [List.map_cons, List.filterMap_cons, List.filter_cons, lowerGlobal?, ← Ast.kindOf]
      cases coherent.topLevel id atTop.1 with
      | function kind_eq => simpa [kind_eq, DeclKind.entity?] using rest
      | @object kind type initializer kind_eq =>
          cases kind with
          | var =>
              simp only [kind_eq, DeclKind.entity?, decide_true, if_true]
              exact .cons ⟨type, initializer, kind_eq, rfl⟩ rest
          | const | value => simpa [kind_eq, DeclKind.entity?] using rest

/-- A function at the top is lowered to a function with its name and its signature. -/
theorem lowersFunction {id : DeclId} (member : id ∈ program.entities .function)
    {function : Ir.Function} (lowered : lowerFunction program id = .ok function) :
    program.LowersFunction id function := by
  obtain ⟨atTop, entity_eq⟩ := Program.mem_entities.1 member
  cases coherent.topLevel id atTop with
  | @object kind type initializer kind_eq =>
      rw [kind_eq] at entity_eq
      cases kind <;> cases entity_eq
  | function kind_eq =>
      have isFunction : (program.ast.kindOf id).isFunction = true := by
        rw [kind_eq, DeclKind.isFunction]
      obtain ⟨-, name_eq, _, _, _, _, same, signature_eq⟩ :=
        lowerFunction_typed coherent atTop isFunction lowered
      cases kind_eq.symm.trans same
      exact ⟨_, _, _, _, kind_eq, name_eq, signature_eq⟩

/-- A coherent program is lowered to the variables and functions at its top. -/
theorem lower_parts {module : Ir.Module} (lowered : lower program = .ok module) :
    List.Forall₂ program.LowersGlobal (program.entities .variable) module.globals ∧
      lowerFunctions program (program.entities .function) = .ok module.functions ∧
      List.Forall₂ program.LowersFunction (program.entities .function) module.functions := by
  rw [lower_eq coherent, Program.functions_eq] at lowered
  cases run : lowerFunctions program (program.entities .function) with
  | error cause =>
      rw [run] at lowered
      cases lowered
  | ok functions =>
      rw [run] at lowered
      cases lowered
      refine ⟨forall₂_lowerGlobal? coherent fun _ member => member, rfl, ?_⟩
      have paired := forall₂_of_lowerFunctions run
      rw [List.forall₂_iff_get] at paired ⊢
      refine ⟨paired.1, fun index ids_lt functions_lt => ?_⟩
      exact lowersFunction coherent (List.get_mem _ _) (paired.2 index ids_lt functions_lt)

end Lowering

namespace Program

variable {program : Program}

/-- Entities have the names that the headings of the program give them, in the same order. -/
theorem names_entities {headings : List (Entity × String)}
    (headings_eq : program.declarations.map (fun id => (program.ast.decl id).heading?) =
      headings.map some) (entity : Entity) :
    (program.entities entity).map (fun id => (program.ast.decl id).name) =
      namesOf entity headings := by
  rw [entities]
  generalize program.declarations = ids at headings_eq
  induction ids generalizing headings with
  | nil =>
      obtain rfl := List.map_eq_nil_iff.1 headings_eq.symm
      rfl
  | cons id ids induction =>
      cases headings with
      | nil => cases headings_eq
      | cons heading headings =>
          rw [List.map_cons, List.map_cons, List.cons.injEq] at headings_eq
          obtain ⟨own, rest⟩ := headings_eq
          obtain ⟨introduced, entity_eq, rfl⟩ := Option.map_eq_some_iff.1 own
          have rest := induction rest
          rw [← Ast.kindOf] at entity_eq
          by_cases same : introduced = entity
          · simp_all [namesOf]
          · simp_all [namesOf]

/-- No two entities have the same name. -/
theorem names_entities_nodup (coherent : program.Coherent) :
    ((program.entities .variable ++ program.entities .function).map
      fun id => (program.ast.decl id).name).Nodup := by
  rw [List.map_append, List.nodup_append]
  refine ⟨coherent.names_nodup.sublist (List.filter_sublist.map _),
    coherent.names_nodup.sublist (List.filter_sublist.map _), ?_⟩
  rintro name variable_mem other function_mem rfl
  obtain ⟨id, id_mem, rfl⟩ := List.mem_map.1 variable_mem
  obtain ⟨function, function_mem, same⟩ := List.mem_map.1 function_mem
  obtain ⟨id_top, id_eq⟩ := mem_entities.1 id_mem
  obtain ⟨function_top, function_eq⟩ := mem_entities.1 function_mem
  obtain rfl := List.inj_on_of_nodup_map coherent.names_nodup function_top id_top same
  cases id_eq.symm.trans function_eq

end Program

namespace Lowering

variable {program : Program} {module : Ir.Module}

theorem names_of_parts {ids : List DeclId} {α : Type} {parts : List α} {relates : DeclId → α → Prop}
    {nameOf : α → String}
    (named : ∀ id part, relates id part → nameOf part = (program.ast.decl id).name)
    (paired : List.Forall₂ relates ids parts) :
    parts.map nameOf = ids.map fun id => (program.ast.decl id).name := by
  induction paired with
  | nil => rfl
  | cons first _ induction => rw [List.map_cons, List.map_cons, induction, named _ _ first]

theorem names_of_lower (coherent : program.Coherent) (lowered : lower program = .ok module) :
    module.globals.map Ir.Global.name =
        (program.entities .variable).map (fun id => (program.ast.decl id).name) ∧
      module.functions.map Ir.Function.name =
        (program.entities .function).map fun id => (program.ast.decl id).name := by
  obtain ⟨globals, -, functions⟩ := lower_parts coherent lowered
  constructor
  · apply names_of_parts ?_ globals
    rintro id _ ⟨type, initializer, -, rfl⟩
    rfl
  · apply names_of_parts ?_ functions
    rintro id function ⟨_, _, _, _, -, name_eq, -⟩
    exact name_eq

/-- Addresses that a coherent program is lowered to lead to its variables and functions. -/
theorem admits_resolves (coherent : program.Coherent) (lowered : lower program = .ok module) :
    program.Admits (Ir.Value.Resolves module) := by
  obtain ⟨globals_eq, functions_eq⟩ := names_of_lower coherent lowered
  refine ⟨fun _ => trivial, fun _ => trivial, fun _ _ => trivial, fun _ => trivial,
    fun _ _ _ => trivial, fun id value symbol => ?_⟩
  rw [Program.symbol?] at symbol
  split at symbol
  · next atTop =>
    dsimp only at symbol
    rw [← Ast.kindOf] at symbol
    split at symbol
    · next kind_eq =>
      cases symbol
      apply List.mem_map.1
      rw [globals_eq]
      exact List.mem_map.2 ⟨id, Program.mem_entities.2 ⟨atTop, by rw [kind_eq]; rfl⟩, rfl⟩
    · next kind_eq =>
      cases symbol
      apply List.mem_map.1
      rw [functions_eq]
      exact List.mem_map.2 ⟨id, Program.mem_entities.2 ⟨atTop, by rw [kind_eq]; rfl⟩, rfl⟩
    · cases symbol
  · cases symbol

/-- A coherent program is lowered to a module whose addresses all lead to its parts. -/
theorem lower_closed (coherent : program.Coherent) (lowered : lower program = .ok module) :
    module.Closed := by
  have uses (function : Ir.Function) (member : function ∈ module.functions) :
      ∃ id, lowerFunction program id = .ok function := by
    obtain ⟨id, -, run⟩ := mem_of_lowerFunctions (lower_parts coherent lowered).2.1 member
    exact ⟨id, run⟩
  have admitted := admits_resolves coherent lowered
  obtain ⟨globals_eq, functions_eq⟩ := names_of_lower coherent lowered
  constructor
  · rw [globals_eq, functions_eq, ← List.map_append]
    exact Program.names_entities_nodup coherent
  · intro function member block block_mem
    obtain ⟨id, run⟩ := uses function member
    exact (lowerFunction_uses admitted run block block_mem).1
  · intro function member block block_mem
    obtain ⟨id, run⟩ := uses function member
    exact (lowerFunction_uses admitted run block block_mem).2

end Lowering

/-- The symbols of a compiled module are complete, different and closed. Its global objects are the variables
that the text declares outside all braces and its functions are the functions there, each with the type that
it is declared with, in the same order; no two of them have the same name, and every address in a function
leads to one of them. -/
theorem compile_symbols {source : Source} {module : Ir.Module}
    (compiled : compile source = .ok module) :
    ∃ tokens program, tokenize source = .ok tokens ∧ parse source = .ok program ∧
      program.declarations.map (fun id => (program.ast.decl id).heading?) =
        (headings 0 (tokens.map Token.kind)).map some ∧
      List.Forall₂ program.LowersGlobal (program.entities .variable) module.globals ∧
      List.Forall₂ program.LowersFunction (program.entities .function) module.functions ∧
      module.globals.map Ir.Global.name =
        namesOf .variable (headings 0 (tokens.map Token.kind)) ∧
      module.functions.map Ir.Function.name =
        namesOf .function (headings 0 (tokens.map Token.kind)) ∧
      module.Closed := by
  rw [compile] at compiled
  cases parsed : parse source with
  | error cause =>
      rw [parsed] at compiled
      cases compiled
  | ok program =>
      rw [parsed] at compiled
      replace compiled : lower program = .ok module := compiled
      have coherent := parse_coherent parsed
      obtain ⟨tokens, tokenized⟩ := exists_tokens_of_parse parsed
      have headings_eq := parse_headings parsed tokenized
      obtain ⟨globals, -, functions⟩ := Lowering.lower_parts coherent compiled
      obtain ⟨globals_eq, functions_eq⟩ := Lowering.names_of_lower coherent compiled
      rw [Program.names_entities headings_eq] at globals_eq functions_eq
      exact ⟨tokens, program, tokenized, rfl, headings_eq, globals, functions, globals_eq,
        functions_eq, Lowering.lower_closed coherent compiled⟩

/-- A program in which a local variable and a parameter are called like global ones. -/
def shadowedNames : Source :=
  ⟨"t", "var g: int = 3; let c: int = 4; def twice(c: int) -> int { var g: int = c; return g + g; }
def main() -> int { g = twice(c); return g; }"⟩

theorem compile_symbols_of_shadowedNames :
    ∃ module, compile shadowedNames = .ok module ∧ module.globals.map Ir.Global.name = ["g"] ∧
      module.functions.map Ir.Function.name = ["twice", "main"] ∧ module.Closed := by
  have compiles : (compile shadowedNames).toOption.isSome = true := by decide +kernel
  have introduced : (tokenize shadowedNames).toOption.all (fun tokens =>
      headings 0 (tokens.map Token.kind) = [(.variable, "g"), (.constant, "c"), (.function, "twice"),
        (.function, "main")]) = true := by
    decide +kernel
  cases compiled : compile shadowedNames with
  | error cause =>
      rw [compiled] at compiles
      cases compiles
  | ok module =>
      obtain ⟨tokens, program, tokenized, -, -, -, -, globals_eq, functions_eq, closed⟩ :=
        compile_symbols compiled
      rw [tokenized] at introduced
      rw [of_decide_eq_true introduced] at globals_eq functions_eq
      exact ⟨module, rfl, globals_eq, functions_eq, closed⟩

end Minilang
