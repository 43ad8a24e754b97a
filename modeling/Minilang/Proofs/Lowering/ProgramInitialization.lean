import Minilang.Proofs.Lowering.Dominance
import Minilang.Proofs.Lowering.ProgramAddresses
import Minilang.Proofs.Lowering.StatementInitialization

/-!
# Compiled functions write before they read

The parameters of a function are written where it begins. If its statements name variables only where they
are written on every way, then every walk through the finished function to a load from the room of an object
passes a store to that room.
-/

namespace Minilang

namespace Builder

variable {builder : Builder} {name : String} {parameters : List Ir.Parameter}
  {result : Ir.ValueType} {slot : Nat} {given : Nat → Prop}

/-- Room is made in the lead of the function only. -/
theorem Ranked.spares (ranked : builder.Ranked) (numbered : builder.Numbered) {type : Ir.ValueType}
    (isRoom : ⟨some slot, .alloca type⟩ ∈
      Ir.Function.instructions ⟨name, parameters, result, builder.finish result⟩) :
    builder.Spares slot := by
  have inLead : slot ∈ Ir.results builder.allocas.toList := by
    obtain ⟨body, body_mem, member⟩ := List.mem_flatMap.1 isRoom
    obtain ⟨index, found⟩ := List.mem_iff_getElem?.1 body_mem
    rw [finish_getElem?] at found
    obtain ⟨block, block_found, rfl⟩ := Option.map_eq_some_iff.1 found
    rcases List.mem_append.1 member with member | member
    · rw [lead] at member
      split at member
      · exact List.mem_filterMap.2 ⟨_, member, rfl⟩
      · cases member
    · exact (ranked.instruction index block block_found _ member).elim
  intro index block found instruction member defined
  have nodup : builder.results.Nodup := numbered.results_perm.nodup_iff.2 List.nodup_range
  refine List.disjoint_of_nodup_append nodup inLead (List.mem_flatMap.2 ⟨block, ?_, ?_⟩)
  · exact List.mem_iff_getElem?.2 ⟨index, by rwa [Array.getElem?_toList]⟩
  · exact List.mem_filterMap.2 ⟨instruction, member, defined⟩

/-- What has been written in a block is written in the finished block. -/
theorem Stores.finish {block : Nat} (stores : builder.Stores slot block) :
    ∃ earlier, (builder.finish result)[block]? = some earlier ∧
      Ir.Writes slot earlier.instructions := by
  obtain ⟨open', found, writes⟩ := stores
  refine ⟨_, by rw [finish_getElem?, found]; rfl, writes.mono ?_⟩
  exact List.subset_append_right _ _

/-- Every walk to a block that is given room written has passed a block that writes to it. -/
theorem Guards.given_written (guards : builder.Guards slot given) (nothing : ¬given 0)
    {passed : List Nat} {block : Nat}
    (walk : Ir.Function.Walk ⟨name, parameters, result, builder.finish result⟩ passed block)
    (isGiven : given block) : ∃ other ∈ passed, ∃ earlier,
      (builder.finish result)[other]? = some earlier ∧ Ir.Writes slot earlier.instructions := by
  induction walk with
  | entry => exact absurd isGiven nothing
  | @step passed block next body walk found successor induction =>
      rw [finish_getElem?] at found
      obtain ⟨open', open_found, rfl⟩ := Option.map_eq_some_iff.1 found
      cases closed : open'.terminator with
      | none =>
          rw [finished, closed] at successor
          cases successor
      | some terminator =>
          rw [finished, closed] at successor
          rcases guards.edge block open' open_found terminator closed next successor isGiven with
            isGiven | stores
          · obtain ⟨other, member, written⟩ := induction isGiven
            exact ⟨other, List.mem_cons_of_mem _ member, written⟩
          · exact ⟨block, List.mem_cons_self, stores.finish⟩

/-- Where the room of every object is guarded, the finished function writes before it reads. -/
theorem readsWritten_of_guards (numbered : builder.Numbered)
    (guards : ∀ slot type, ⟨some slot, .alloca type⟩ ∈
      Ir.Function.instructions ⟨name, parameters, result, builder.finish result⟩ →
      ∃ given, ¬given 0 ∧ builder.Guards slot given) :
    Ir.Function.ReadsWritten ⟨name, parameters, result, builder.finish result⟩ := by
  intro slot type isRoom passed block walk body found first instruction rest split reads
  obtain ⟨given, nothing, guards⟩ := guards slot type isRoom
  rw [finish_getElem?] at found
  obtain ⟨open', open_found, rfl⟩ := Option.map_eq_some_iff.1 found
  have notLead : instruction ∉ builder.lead block := by
    intro member
    obtain ⟨type, alloca⟩ := numbered.lead_eq member
    rw [alloca] at reads
    cases reads
  obtain ⟨earlier, rfl, own_split⟩ := split_of_notMem_lead split notLead
  rcases guards.read block open' open_found earlier instruction rest own_split reads with
    isGiven | writes
  · exact .inr (guards.given_written nothing walk isGiven)
  · exact .inl (writes.mono (List.subset_append_right _ _))

end Builder

namespace Lowering

variable {program : Program} {before : Builder} {slot : Nat}

/-- A parameter is written as it gets its room. -/
theorem ParameterTurn.guards {function parameter : DeclId} {done : List DeclId} {type : Ty}
    (turn : ParameterTurn program function started done parameter type before) {given : Nat → Prop}
    (guards : before.Guards slot given) (tracks : Tracks (.reachable done) slot before given) :
    (withParameter before done.length parameter (.ofTy type)).Guards slot given ∧
      Tracks (.reachable (done ++ [parameter])) slot
        (withParameter before done.length parameter (.ofTy type)) given := by
  have valid := started_valid.of_grows turn.grows
  have room : (before.addAlloca (.ofTy type)).Guards slot given := guards.of_blocks_eq rfl
  have stored : ((before.addAlloca (.ofTy type)).perform
      (.store (.ofTy type) (.arg done.length) (.temp before.temporaries))).Guards slot given :=
    room.resume.push nofun
  refine ⟨stored.of_blocks_eq rfl, ?_⟩
  rintro ⟨declaration, member, found⟩
  rcases List.mem_append.1 member with member | member
  · have promises : Promises (.reachable done) slot before :=
      Promises.of_grows ⟨declaration, member, found⟩ turn.settles.grows turn.binds fun _ => .inl
    exact (turn.settles.grows.guards guards (tracks promises)).2
  · cases List.mem_singleton.1 member
    rw [withParameter, Builder.local?, Builder.bind_locals, List.lookup_cons_self] at found
    cases found
    exact Builder.written_perform_store (valid.of_grows (.addAlloca (.ofTy type) .refl)) given
      (.ofTy type) (.arg done.length) before.temporaries

/-- An empty function reads nothing. Only its first block is there, which is given nothing. -/
theorem started_guards (slot : Nat) : started.Guards slot (· ≠ 0) := by
  have only {index : Nat} {block : OpenBlock} (found : started.blocks[index]? = some block) :
      block = ⟨.entry, 0, #[], none⟩ := by
    cases index with
    | zero => exact (Option.some.inj found).symm
    | succ index => simp [started, Builder.addBlock, Builder.goTo, Builder.empty] at found
  refine ⟨fun index block found first instruction rest split => ?_,
    fun index block found terminator closed => ?_, fun index bound => Nat.ne_zero_of_lt bound⟩
  · rw [only found] at split
    simp at split
  · rw [only found] at closed
    cases closed

namespace CompleteFunction

variable {id : DeclId} {result : Ty} {parameters : List DeclId} {body : StmtId} {next : Nat}

/-- Once the parameters have got their room they are written. -/
theorem parameters_guards (complete : CompleteFunction program id result parameters body next)
    (slot : Nat) :
    Builds (lowerParameters program 0 parameters) started
      (fun _ after => after.Guards slot (· ≠ 0) ∧ Tracks (.reachable parameters) slot after (· ≠ 0))
      fun _ => False := by
  refine (complete.parameters_keep (fun done _ before => before.Guards slot (· ≠ 0) ∧
      Tracks (.reachable done) slot before (· ≠ 0)) ?_
    ⟨started_guards slot, by rintro ⟨_, member, _⟩; cases member⟩).mono
    (fun _ _ keeps => keeps.2.2) fun _ => False.elim
  rintro done parameter rest type before turn ⟨guards, tracks⟩
  exact turn.guards guards tracks

/-- In a complete function room is guarded, if the function names its variables only where they are
written. -/
theorem guards (complete : CompleteFunction program id result parameters body next)
    (storing : Storing program) {flow : Flow}
    (flows : program.flowStmtBy program.usesWritten (program.ast.stmts.size + 1)
      (.reachable parameters) body = some flow) (slot : Nat) :
    Builds (buildFunction program (.ofTy result) (program.ast.decl id)) .empty
      (fun _ after => after.Spares slot → ∃ given, ¬given 0 ∧ after.Guards slot given)
      fun _ => True := by
  have followable : Followable program ⟨program.declarations, parameters, id⟩ next :=
    ⟨⟨complete.lowerable storing.coherent, complete.apart⟩, storing.plain⟩
  obtain ⟨-, initializes⟩ := (followsForms_initializesStmt followable (.ofTy result) slot).holds
    storing.coherent.sound complete.inScope (program.ast.stmts.size + 1) complete.enough none
    (Nat.lt_succ_self _) le_rfl (program.ast.stmts.size + 1) (.reachable parameters) flow
    (fun _ => .inl) ((Program.flowSequence_singleton _ _ _).trans flows)
  rw [lowerSequence_singleton] at initializes
  rw [builds_buildFunction complete.kind_eq]
  refine (complete.parameters_ranked.and (complete.parameters_guards slot)).mono ?_
    fun _ _ => trivial
  rintro lowered before ⟨⟨settles, ranked⟩, guards, tracks⟩
  have numbered := settles.grows.numbered started_valid.wellFormed started_numbered
  refine (initializes.preserves before ranked numbered settles.binds nofun).mono ?_
    fun _ _ => trivial
  intro _ after preserves spares
  obtain ⟨later, kept, afterGuards, -⟩ := preserves spares (· ≠ 0) guards nofun tracks
  refine ⟨later, ?_, afterGuards⟩
  rw [kept 0 (Nat.lt_of_lt_of_le (by simp [started]) settles.grows.size_le)]
  exact not_not_intro rfl

end CompleteFunction

/-- A lowered function writes before it reads, if it names its variables only where they are written. -/
theorem lowerFunction_readsWritten (storing : Storing program) {id : DeclId}
    (atTop : id ∈ program.declarations) (isFunction : (program.ast.kindOf id).isFunction = true)
    {function : Ir.Function} (lowered : lowerFunction program id = .ok function) :
    (program.ast.decl id).name = function.name ∧
      (program.writesDefinitely id = true → function.ReadsWritten) := by
  obtain ⟨result, parameters, body, next, complete⟩ :=
    exists_completeFunction storing.coherent atTop isFunction
  obtain ⟨given, built, run, grows, rfl⟩ := complete.exists_built storing.coherent lowered
  refine ⟨rfl, fun definitely => ?_⟩
  rw [Program.writesDefinitely, complete.kind_eq] at definitely
  obtain ⟨flow, flows⟩ := Option.isSome_iff_exists.1 definitely
  have numbered := grows.numbered started_valid.wellFormed started_numbered
  have ranked := (complete.ranked storing).result run
  refine Builder.readsWritten_of_guards numbered fun slot type isRoom => ?_
  exact (complete.guards storing flows slot).result run (ranked.spares numbered isRoom)

end Lowering

/-- A program with a variable that is declared anew in every round of a loop, and one that is declared behind
a guarded end of the function. -/
def countedRounds : Source :=
  ⟨"t", "def f(n: int) -> int {
  var s: int = 0;
  while (s < n) { var t: int = s + 1; s = t; }
  when (n < 0) return s;
  var u: int = s + n;
  return u;
}"⟩

/-- A variable that a guard leaves out, and that is read behind the guarded declaration. -/
def guardedVariable : Source :=
  ⟨"t", "def f(c: bool) -> int { when (c) var x: int = 1; return x; }"⟩

end Minilang
