import Minilang.Compile
import Minilang.Proofs.Lowering.Dominance
import Minilang.Proofs.Lowering.StatementControlFlow

/-!
# Control flow in compiled programs

The graph of every compiled function is well connected: nothing leads to its entry and to what stands behind
a terminator, and where two ways meet, the `phi` in front names both of them.
-/

namespace Minilang

/-- Only labels of blocks behind a terminator begin like theirs. -/
theorem BlockRole.eq_unreachable_of_label {role : BlockRole} {earlier : Nat}
    (begins : "unreachable".toList <+: (role.label earlier).toList) : role = .unreachable := by
  have label_eq : ∃ more, (role.label earlier).toList = role.text.toList ++ more := by
    cases earlier with
    | zero => exact ⟨[], (List.append_nil _).symm⟩
    | succ earlier => exact ⟨_, String.toList_append⟩
  obtain ⟨more, label_eq⟩ := label_eq
  obtain ⟨rest, same⟩ := label_eq ▸ begins
  cases role <;> simp [text] at same ⊢

namespace Builder

variable {builder : Builder} {name : String} {parameters : List Ir.Parameter}
  {result : Ir.ValueType}

@[simp]
theorem finish_length (builder : Builder) (result : Ir.ValueType) :
    (builder.finish result).length = builder.blocks.size := by
  rw [finish, ← Array.length_toList]
  cases builder.blocks.toList with
  | nil => rfl
  | cons entry others => simp

/-- A block leads where it was closed to lead; blocks without an end lead nowhere. -/
theorem leads_finish {source target : Nat} :
    Ir.Function.Leads ⟨name, parameters, result, builder.finish result⟩ source target ↔
      builder.Leads source target := by
  rw [Ir.Function.Leads]
  dsimp only
  rw [finish_getElem?]
  constructor
  · rintro ⟨body, found, member⟩
    obtain ⟨block, block_found, rfl⟩ := Option.map_eq_some_iff.1 found
    cases closed : block.terminator with
    | none =>
        rw [finished, closed] at member
        cases member
    | some terminator =>
        rw [finished, closed] at member
        exact ⟨block, terminator, block_found, closed, member⟩
  · rintro ⟨block, terminator, found, closed, member⟩
    refine ⟨_, by rw [found]; rfl, ?_⟩
    rw [finished, closed]
    exact member

theorem HasRole.unique {index : Nat} {first second : BlockRole}
    (left : builder.HasRole index first) (right : builder.HasRole index second) : first = second := by
  obtain ⟨block, found, rfl⟩ := left
  obtain ⟨other, other_found, rfl⟩ := right
  rw [found] at other_found
  cases other_found
  rfl

namespace Connected

variable (connected : builder.Connected) {index : Nat} {block : OpenBlock}

include connected

/-- Room is made in front of the first block, and nothing else is done there. -/
theorem isAlloca_of_mem_lead {instruction : Ir.Instruction}
    (member : instruction ∈ builder.lead index) : instruction.operation.isAlloca = true ∧ index = 0 := by
  rw [lead] at member
  split at member
  · next isEntry => exact ⟨connected.room instruction member, isEntry⟩
  · cases member

/-- In a block, what makes room stands in front of all that has been built. -/
theorem room_of_split (found : builder.blocks[index]? = some block) {first rest : List Ir.Instruction}
    {instruction : Ir.Instruction}
    (split : builder.lead index ++ block.instructions.toList = first ++ instruction :: rest)
    (isAlloca : instruction.operation.isAlloca = true) :
    index = 0 ∧ ∀ earlier ∈ first, earlier.operation.isAlloca = true := by
  have notBuilt : instruction ∉ block.instructions.toList := by
    intro member
    rw [connected.noRoom index block found instruction member] at isAlloca
    cases isAlloca
  rcases List.append_eq_append_iff.1 split with ⟨more, -, rest_eq⟩ | ⟨more, lead_eq, rest_eq⟩
  · refine absurd ?_ notBuilt
    rw [rest_eq]
    simp
  · have inLead {other : Ir.Instruction} (member : other ∈ first) : other ∈ builder.lead index := by
      rw [lead_eq]
      exact List.mem_append_left _ member
    cases more with
    | nil =>
        refine absurd ?_ notBuilt
        rw [List.nil_append] at rest_eq
        rw [← rest_eq]
        exact List.mem_cons_self
    | cons other more =>
        rw [List.cons_append, List.cons.injEq] at rest_eq
        have member : instruction ∈ builder.lead index := by
          rw [lead_eq, rest_eq.1]
          simp
        exact ⟨(connected.isAlloca_of_mem_lead member).2,
          fun earlier before => (connected.isAlloca_of_mem_lead (inLead before)).1⟩

/-- A `phi` comes first in its block, which is not the entry, and is the only one there. -/
theorem phi_of_split (entry : builder.HasRole 0 .entry)
    (found : builder.blocks[index]? = some block) {first rest : List Ir.Instruction}
    {instruction : Ir.Instruction}
    (split : builder.lead index ++ block.instructions.toList = first ++ instruction :: rest)
    (isPhi : instruction.operation.isPhi = true) :
    first = [] ∧ (∀ later ∈ rest, later.operation.isPhi = false) ∧
      builder.Joins index instruction.operation := by
  have notLead : instruction ∉ builder.lead index := by
    intro member
    have isAlloca := (connected.isAlloca_of_mem_lead member).1
    cases operation_eq : instruction.operation with
    | alloca type =>
        rw [operation_eq] at isPhi
        cases isPhi
    | _ =>
        rw [operation_eq] at isAlloca
        cases isAlloca
  obtain ⟨earlier, rfl, own_split⟩ := split_of_notMem_lead split notLead
  obtain ⟨rfl, isJoin, joins⟩ := connected.phi index block found _ _ _ own_split isPhi
  have notEntry : index ≠ 0 := by
    rintro rfl
    have role_eq : block.role = .entry := HasRole.unique ⟨block, found, rfl⟩ entry
    rw [role_eq] at isJoin
    cases isJoin
  refine ⟨by rw [lead, if_neg notEntry]; rfl, fun later member => ?_, joins⟩
  by_contra laterPhi
  obtain ⟨between, behind, rest_eq⟩ := List.append_of_mem member
  rw [rest_eq] at own_split
  have atStart := (connected.phi index block found (instruction :: between) later behind own_split
    (Bool.eq_true_of_not_eq_false laterPhi)).1
  cases atStart

/-- A connected function is well connected once it is finished. -/
theorem finish (entry : builder.HasRole 0 .entry) :
    Ir.Function.WellConnected ⟨name, parameters, result, builder.finish result⟩ := by
  have found_block {index : Nat} {body : Ir.Block}
      (found : (builder.finish result)[index]? = some body) :
      ∃ block, builder.blocks[index]? = some block ∧ body = builder.finished result index block := by
    rw [finish_getElem?] at found
    obtain ⟨block, block_found, rfl⟩ := Option.map_eq_some_iff.1 found
    exact ⟨block, block_found, rfl⟩
  -- A block of a role that is no target is led to by none.
  have unled {source target : Nat} {role : BlockRole} (hasRole : builder.HasRole target role)
      (noTarget : role.isTarget = false) : ¬ builder.Leads source target := by
    intro leads
    obtain ⟨other, other_role, isTarget⟩ := connected.target source target leads
    rw [other_role.unique hasRole, noTarget] at isTarget
    cases isTarget
  refine ⟨?_, ?_, ?_, ?_, ?_, ?_⟩
  · intro source target leads
    obtain ⟨role, hasRole, -⟩ := connected.target source target (leads_finish.1 leads)
    rw [finish_length]
    exact hasRole.lt_size
  · exact fun source leads => unled entry rfl (leads_finish.1 leads)
  · rintro source target ⟨body, found, begins⟩ leads
    obtain ⟨block, block_found, rfl⟩ := found_block found
    have role_eq : block.role = .unreachable := BlockRole.eq_unreachable_of_label begins
    exact unled ⟨block, block_found, role_eq⟩ rfl (leads_finish.1 leads)
  · intro index body first instruction rest found split isAlloca
    obtain ⟨block, block_found, rfl⟩ := found_block found
    exact connected.room_of_split block_found split isAlloca
  · intro index body first instruction rest found split isPhi
    obtain ⟨block, block_found, rfl⟩ := found_block found
    obtain ⟨atStart, only, -⟩ := connected.phi_of_split entry block_found split isPhi
    exact ⟨atStart, only⟩
  · intro index body found instruction member isPhi
    obtain ⟨block, block_found, rfl⟩ := found_block found
    obtain ⟨first, rest, split⟩ := List.append_of_mem member
    obtain ⟨-, -, firstValue, firstBlock, secondValue, secondBlock, incoming, apart, ways⟩ :=
      connected.phi_of_split entry block_found split isPhi
    refine ⟨firstValue, firstBlock, secondValue, secondBlock, incoming, apart, ?_, ?_,
      fun source => leads_finish.trans (ways source)⟩
    · rw [finish_length]
      exact ((ways firstBlock).2 (.inl rfl)).source_lt
    · rw [finish_length]
      exact ((ways secondBlock).2 (.inr rfl)).source_lt

end Connected

end Builder

namespace Lowering

variable {program : Program} {before : Builder}

theorem lowerParameters_connects (parameters : List DeclId) (index : Nat)
    (connected : before.Connected) : Connecting (fun _ => False)
      (lowerParameters program index parameters) before := by
  induction parameters generalizing index before with
  | nil => exact .refl
  | cons id ids induction =>
      have first : Connecting (fun _ => False) (lowerParameter program index id) before := by
        cases typed : (program.ast.kindOf id).type? with
        | some type =>
            rw [Connecting, builds_lowerParameter typed]
            exact .bind _ _ ((Builder.Connects.addAlloca _ .refl).performed connected rfl rfl)
        | none =>
            rw [Ast.kindOf] at typed
            rw [Connecting, lowerParameter, typed]
            exact trivial
      rw [Connecting, lowerParameters, builds_bind]
      refine first.mono ?_ fun _ _ => trivial
      intro parameter middle connects
      rw [builds_bind]
      exact (induction (index + 1) (connects.connected connected)).behind connects
        (fun _ never => never.elim) fun rest after _ all => all

/-- Building begins in the entry, and nothing is built there yet. -/
theorem started_connected : started.Connected := by
  have found_eq {index : Nat} {block : OpenBlock} (found : started.blocks[index]? = some block) :
      index = 0 ∧ block = ⟨.entry, 0, #[], none⟩ := by
    cases index with
    | zero =>
        cases found
        exact ⟨rfl, rfl⟩
    | succ index => cases found
  have noInstruction {index : Nat} {block : OpenBlock} {instruction : Ir.Instruction}
      (found : started.blocks[index]? = some block) : instruction ∉ block.instructions.toList := by
    obtain ⟨rfl, rfl⟩ := found_eq found
    exact List.not_mem_nil
  refine ⟨started_valid.wellFormed, ?_, ?_, ?_, ?_⟩
  · rintro source target ⟨block, terminator, found, closed, -⟩
    obtain ⟨rfl, rfl⟩ := found_eq found
    cases closed
  · intro instruction member
    cases member
  · exact fun index block found instruction member => absurd member (noInstruction found)
  · intro index block found first instruction rest split
    refine absurd ?_ (noInstruction found : instruction ∉ block.instructions.toList)
    rw [split]
    simp

/-- A function is built from its entry, in front of which nothing is put. -/
theorem buildFunction_connected (result : Ir.ValueType) (decl : Decl) :
    Builds (buildFunction program result decl) .empty
      (fun _ after => after.Connected ∧ after.HasRole 0 .entry) fun _ => True := by
  have starts : Builds (buildFunction program result decl) .empty
      (fun _ after => started.Connects (fun _ => False) after) fun _ => True := by
    rw [buildFunction, builds_bind, builds_newBlock, builds_bind, builds_switchTo, builds_bind]
    refine (lowerParameters_connects decl.kind.parameters 0 started_connected).mono ?_
      fun _ _ => trivial
    intro lowered before connects
    rw [builds_bind]
    have body : Builds (functionBody decl) before (fun _ after => after = before) fun _ => True := by
      rw [functionBody]
      split
      · rfl
      · trivial
      · trivial
    refine body.mono ?_ fun _ _ => trivial
    rintro id _ rfl
    rw [builds_bind]
    have outside {target : Nat} : ¬ Jumps none target := by
      rintro ⟨targets, inLoop, -⟩
      cases inLoop
    refine (lowerStmtWithin_connects program result _ none id _
      (connects.connected started_connected) fun target jumps => absurd jumps outside).behind
      connects (fun target jumps => absurd jumps outside) ?_
    exact fun _ after _ all => all
  refine starts.mono ?_ fun _ _ => trivial
  intro parameters after connects
  have entry : started.HasRole 0 .entry := ⟨_, rfl, rfl⟩
  exact ⟨connects.connected started_connected,
    entry.of_includes (connects.includes started_connected)⟩

/-- A lowered function is well connected. -/
theorem lowerFunction_wellConnected {id : DeclId} {function : Ir.Function}
    (lowered : lowerFunction program id = .ok function) : function.WellConnected := by
  rw [lowerFunction] at lowered
  dsimp only at lowered
  split at lowered
  · next result types _ =>
    cases run : (buildFunction program (.ofTy result) (program.ast.decl id)).run .empty with
    | error cause =>
        rw [run] at lowered
        cases lowered
    | ok built =>
        rw [run] at lowered
        cases lowered
        obtain ⟨connected, entry⟩ :=
          (buildFunction_connected (.ofTy result) (program.ast.decl id)).result run
        exact connected.finish entry
  · cases lowered

end Lowering

/-- The blocks of every compiled function are well connected: branches lead to blocks of the function, but
neither to its entry nor to code behind a terminator, room for objects is made at the start of the entry only,
and a `phi` comes first in its block and names the two blocks that lead there, and no others. -/
theorem compile_wellConnected {source : Source} {module : Ir.Module}
    (compiled : compile source = .ok module) :
    ∀ function ∈ module.functions, function.WellConnected := by
  intro function member
  rw [compile] at compiled
  cases parsed : parse source with
  | error cause =>
      rw [parsed] at compiled
      cases compiled
  | ok program =>
      rw [parsed] at compiled
      replace compiled : lower program = .ok module := compiled
      rw [Lowering.lower_eq (parse_coherent parsed)] at compiled
      cases run : Lowering.lowerFunctions program (program.declarations.filter fun id =>
          (program.ast.decl id).kind.isFunction) with
      | error cause =>
          rw [run] at compiled
          cases compiled
      | ok functions =>
          rw [run] at compiled
          cases compiled
          obtain ⟨id, -, lowered⟩ := Lowering.mem_of_lowerFunctions run member
          exact Lowering.lowerFunction_wellConnected lowered

/-- A program with choices within choices behind a jump, in a loop that is left early. -/
def nestedChoices : Source :=
  ⟨"t", "var g: int = 1;
def f(x: int, c: bool) -> int {
  while (c || x < g) { when (c) break; continue; x = (c && x < 1 ? (c ? x : g) : f(x, c)); }
  return x;
}"⟩

theorem compile_wellConnected_of_nestedChoices :
    ∃ module, compile nestedChoices = .ok module ∧
      (∃ function ∈ module.functions,
        (∃ body ∈ function.blocks, body.label = "unreachable") ∧
        ∃ body ∈ function.blocks, ∃ instruction ∈ body.instructions,
          instruction.operation.isPhi = true) ∧
      ∀ function ∈ module.functions, function.WellConnected := by
  have compiles : (compile nestedChoices).toOption.any (fun module =>
      ∃ function ∈ module.functions,
        (∃ body ∈ function.blocks, body.label = "unreachable") ∧
        ∃ body ∈ function.blocks, ∃ instruction ∈ body.instructions,
          instruction.operation.isPhi = true) = true := by
    decide +kernel
  cases compiled : compile nestedChoices with
  | error cause =>
      rw [compiled] at compiles
      cases compiles
  | ok module =>
      rw [compiled] at compiles
      exact ⟨module, rfl, of_decide_eq_true compiles, compile_wellConnected compiled⟩

end Minilang
