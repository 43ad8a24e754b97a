import Minilang.Proofs.Analysis.Effects
import Minilang.Proofs.Lowering.Branches
import Minilang.Proofs.Lowering.Numbering

/-!
# Events of building

Building a function is a sequence of events: blocks and room for objects are made, instructions are added,
and blocks are closed. The events are kept in the order in which they take place, and nothing else changes
the blocks of a function: what it holds in the end is what it held before and one thing for each event.
-/

namespace Minilang

/-- What a small step of building leaves in a function for good. -/
inductive Event where
  /-- A block is made. -/
  | block (role : BlockRole)
  /-- An instruction is added to the open block. -/
  | instruction (operation : Ir.Operation)
  /-- Room for an object is made. -/
  | room (type : Ir.ValueType)
  /-- The open block goes on with a block. -/
  | jump (role : BlockRole) (earlier : Nat)
  /-- The open block goes on with one of two blocks. -/
  | fork (condition : Ir.Value)
  /-- The open block leaves the function. -/
  | leave (value : Ir.Value)
deriving DecidableEq, Repr

/-- Whether blocks of a role belong to a loop. -/
def BlockRole.isLoop : BlockRole → Bool
  | whileCond | whileBody | whileEnd => true
  | _ => false

/-- What an operation does besides computing a value. -/
def Ir.Operation.effect? : Ir.Operation → Option Effect
  | call _ _ _ => some .call
  | load _ _ => some .load
  | store _ _ _ => some .store
  | _ => none

/-- The block that a block goes on with, whatever happens. -/
def Ir.Terminator.target? : Ir.Terminator → Option Nat
  | branch target => some target
  | condBranch _ _ _ | ret _ _ => none

namespace Event

/-- What the added instruction does. -/
def operation? : Event → Option Ir.Operation
  | instruction operation => some operation
  | _ => none

/-- What the added instruction does besides computing a value. -/
def effect? (event : Event) : Option Effect := event.operation?.bind Ir.Operation.effect?

/-- The type of the object that room is made for. -/
def room? : Event → Option Ir.ValueType
  | room type => some type
  | _ => none

/-- What the block was made for that the open one goes on with, and how many such blocks there were. -/
def jump? : Event → Option (BlockRole × Nat)
  | jump role earlier => some (role, earlier)
  | _ => none

/-- What the new block is made for. -/
def role? : Event → Option BlockRole
  | block role => some role
  | _ => none

end Event

namespace Builder

/-- Whether building goes on in a block, which is there and open. -/
def OpenAt (builder : Builder) (index : Nat) : Prop :=
  builder.current = some index ∧
    ∃ block, builder.blocks[index]? = some block ∧ block.terminator = none

/-- What the blocks were made for, each with the number of such blocks before it. -/
def places (builder : Builder) : List (BlockRole × Nat) :=
  builder.blocks.toList.map fun block => (block.role, block.earlier)

/-- The operations in the blocks. -/
def operations (builder : Builder) : List Ir.Operation :=
  builder.blocks.toList.flatMap fun block => block.instructions.toList.map Ir.Instruction.operation

/-- The blocks that other ones go on with, whatever happens. -/
def targets (builder : Builder) : List Nat :=
  builder.blocks.toList.flatMap fun block =>
    (block.terminator.bind Ir.Terminator.target?).toList

/-- What a function becomes by a sequence of events. -/
inductive Traces (before : Builder) : List Event → Builder → Prop
  | refl : Traces before [] before
  | addBlock {events : List Event} {after : Builder} (role : BlockRole) :
      Traces before events after → Traces before (events ++ [.block role]) (after.addBlock role)
  | goTo {events : List Event} {after : Builder} (index : Nat) :
      Traces before events after → Traces before events (after.goTo index)
  | push {events : List Event} {after : Builder} {index : Nat} (instruction : Ir.Instruction) :
      Traces before events after → after.OpenAt index →
      Traces before (events ++ [.instruction instruction.operation]) (after.push index instruction)
  | jump {events : List Event} {after : Builder} {index target : Nat} {role : BlockRole}
      {earlier : Nat} :
      Traces before events after → after.OpenAt index → after.places[target]? = some (role, earlier) →
      Traces before (events ++ [.jump role earlier]) (after.close index (.branch target))
  | fork {events : List Event} {after : Builder} {index : Nat} (condition : Ir.Value)
      (whenTrue whenFalse : Nat) :
      Traces before events after → after.OpenAt index →
      Traces before (events ++ [.fork condition])
        (after.close index (.condBranch condition whenTrue whenFalse))
  | leave {events : List Event} {after : Builder} {index : Nat} (type : Ir.ValueType)
      (value : Ir.Value) :
      Traces before events after → after.OpenAt index →
      Traces before (events ++ [.leave value]) (after.close index (.ret type value))
  | countTemporary {events : List Event} {after : Builder} :
      Traces before events after → Traces before events after.countTemporary
  | addAlloca {events : List Event} {after : Builder} (type : Ir.ValueType) :
      Traces before events after → Traces before (events ++ [.room type]) (after.addAlloca type)
  | bind {events : List Event} {after : Builder} (declaration : DeclId) (value : Ir.Value) :
      Traces before events after → Traces before events (after.bind declaration value)

theorem Valid.openAt {builder : Builder} (valid : builder.Valid) {index : Nat}
    (current : builder.current = some index) : builder.OpenAt index :=
  ⟨current, valid.wellFormed index current⟩

theorem OpenAt.lt_size {builder : Builder} {index : Nat} (isOpen : builder.OpenAt index) :
    index < builder.blocks.size := by
  obtain ⟨-, block, found, -⟩ := isOpen
  exact (Array.getElem?_eq_some_iff.1 found).1

section Ledgers

variable {α β : Type} {change : α → α} {elements : List α} {index : Nat}

/-- A change that does not show leaves no trace. -/
theorem map_modify_eq {view : α → β} (same : ∀ element, view (change element) = view element) :
    (elements.modify index change).map view = elements.map view := by
  induction elements generalizing index with
  | nil => rw [List.modify_nil]
  | cons element elements induction =>
      cases index with
      | zero => rw [List.modify_zero_cons, List.map_cons, List.map_cons, same]
      | succ index => rw [List.modify_succ_cons, List.map_cons, List.map_cons, induction]

variable (builder : Builder)

theorem countRole_eq (role : BlockRole) :
    builder.countRole role = (builder.places.map Prod.fst).count role := by
  rw [countRole, places, List.map_map, List.count, List.countP_map, Array.countP_toList]
  rfl

@[simp] theorem places_addBlock (role : BlockRole) :
    (builder.addBlock role).places = builder.places ++ [(role, builder.countRole role)] := by
  simp [places, addBlock]

@[simp] theorem operations_addBlock (role : BlockRole) :
    (builder.addBlock role).operations = builder.operations := by
  simp [operations, addBlock]

@[simp] theorem targets_addBlock (role : BlockRole) :
    (builder.addBlock role).targets = builder.targets := by
  simp [targets, addBlock]

@[simp] theorem places_goTo (index : Nat) : (builder.goTo index).places = builder.places := rfl

@[simp] theorem places_push (index : Nat) (instruction : Ir.Instruction) :
    (builder.push index instruction).places = builder.places := by
  rw [places, push, Array.toList_modify]
  exact map_modify_eq fun _ => rfl

@[simp] theorem places_close (index : Nat) (terminator : Ir.Terminator) :
    (builder.close index terminator).places = builder.places := by
  rw [places, close, Array.toList_modify]
  exact map_modify_eq fun _ => rfl

/-- Closing a block adds no instruction. -/
@[simp] theorem operations_close (index : Nat) (terminator : Ir.Terminator) :
    (builder.close index terminator).operations = builder.operations := by
  rw [operations, operations, close, Array.toList_modify, List.flatMap_def, List.flatMap_def]
  exact congrArg List.flatten (map_modify_eq fun _ => rfl)

/-- An instruction closes no block. -/
@[simp] theorem targets_push (index : Nat) (instruction : Ir.Instruction) :
    (builder.push index instruction).targets = builder.targets := by
  rw [targets, targets, push, Array.toList_modify, List.flatMap_def, List.flatMap_def]
  exact congrArg List.flatten (map_modify_eq fun _ => rfl)

theorem operations_push {index : Nat} (bound : index < builder.blocks.size)
    (instruction : Ir.Instruction) : (builder.push index instruction).operations.Perm
      (builder.operations ++ [instruction.operation]) := by
  rw [operations, push, Array.toList_modify]
  have found : builder.blocks.toList[index]? = some builder.blocks[index] := by simp [bound]
  exact flatMap_modify_perm found (by simp)

/-- The open block goes on with the block that it is closed by, if that is known. -/
theorem targets_close {index : Nat} (isOpen : builder.OpenAt index) (terminator : Ir.Terminator) :
    (builder.close index terminator).targets.Perm
      (builder.targets ++ terminator.target?.toList) := by
  obtain ⟨-, block, found, isOpen⟩ := isOpen
  rw [targets, close, Array.toList_modify]
  exact flatMap_modify_perm (by simpa using found) (by rw [isOpen]; rfl)

@[simp] theorem places_countTemporary : builder.countTemporary.places = builder.places := rfl

@[simp] theorem places_addAlloca (type : Ir.ValueType) :
    (builder.addAlloca type).places = builder.places := rfl

@[simp] theorem operations_addAlloca (type : Ir.ValueType) :
    (builder.addAlloca type).operations = builder.operations := rfl

@[simp] theorem targets_addAlloca (type : Ir.ValueType) :
    (builder.addAlloca type).targets = builder.targets := rfl

@[simp] theorem places_bind (declaration : DeclId) (value : Ir.Value) :
    (builder.bind declaration value).places = builder.places := rfl

end Ledgers

namespace Traces

variable {before middle after : Builder} {events more : List Event}

theorem trans (first : before.Traces events middle) (second : middle.Traces more after) :
    before.Traces (events ++ more) after := by
  induction second with
  | refl => rwa [List.append_nil]
  | addBlock role _ induction => exact List.append_assoc .. ▸ induction.addBlock role
  | goTo index _ induction => exact induction.goTo index
  | push instruction _ isOpen induction =>
      exact List.append_assoc .. ▸ induction.push instruction isOpen
  | jump _ isOpen found induction => exact List.append_assoc .. ▸ induction.jump isOpen found
  | fork condition whenTrue whenFalse _ isOpen induction =>
      exact List.append_assoc .. ▸ induction.fork condition whenTrue whenFalse isOpen
  | leave type value _ isOpen induction =>
      exact List.append_assoc .. ▸ induction.leave type value isOpen
  | countTemporary _ induction => exact induction.countTemporary
  | addAlloca type _ induction => exact List.append_assoc .. ▸ induction.addAlloca type
  | bind declaration value _ induction => exact induction.bind declaration value

/-- Blocks are only ever added. -/
theorem places_le (traces : before.Traces events after) : before.places <+: after.places := by
  induction traces with
  | refl => exact List.prefix_rfl
  | addBlock role _ induction => exact induction.trans (by simp)
  | goTo _ _ induction | countTemporary _ induction | addAlloca _ _ induction
  | bind _ _ _ induction => exact induction
  | push _ _ _ induction | jump _ _ _ induction | fork _ _ _ _ _ induction
  | leave _ _ _ _ induction => simpa using induction

/-- A block stays what it was made for. -/
theorem place_eq (traces : before.Traces events after) {index : Nat} {place : BlockRole × Nat}
    (found : before.places[index]? = some place) : after.places[index]? = some place := by
  obtain ⟨added, eq⟩ := traces.places_le
  rw [← eq, List.getElem?_append_left (List.getElem?_eq_some_iff.1 found).1, found]

/-- There is one new block for each event that makes one. -/
theorem roles_eq (traces : before.Traces events after) :
    after.places.map Prod.fst = before.places.map Prod.fst ++ events.filterMap Event.role? := by
  induction traces with
  | refl => simp
  | _ => simp_all [List.filterMap_cons, Event.role?]

/-- Blocks of a role are counted by the events that make them. -/
theorem countRole_eq (traces : before.Traces events after) (role : BlockRole) :
    after.countRole role = before.countRole role + (events.filterMap Event.role?).count role := by
  rw [Builder.countRole_eq, Builder.countRole_eq, traces.roles_eq, List.count_append]

/-- There is one new room for each event that makes one. -/
theorem allocas_eq (traces : before.Traces events after) :
    after.allocas.toList.map Ir.Instruction.operation =
      before.allocas.toList.map Ir.Instruction.operation ++
        (events.filterMap Event.room?).map Ir.Operation.alloca := by
  induction traces with
  | refl => simp
  | addAlloca => simp_all [Builder.addAlloca, Event.room?]
  | _ => simp_all [List.filterMap_cons, Event.room?]

/-- There is one new instruction for each event that adds one. -/
theorem operations_perm (traces : before.Traces events after) :
    after.operations.Perm (before.operations ++ events.filterMap Event.operation?) := by
  induction traces with
  | refl => simp
  | goTo _ _ induction | countTemporary _ induction | bind _ _ _ induction => exact induction
  | addBlock _ _ induction | addAlloca _ _ induction | jump _ _ _ induction
  | fork _ _ _ _ _ induction | leave _ _ _ _ induction =>
      rw [List.filterMap_append]
      simpa [List.filterMap_cons, Event.operation?] using induction
  | push instruction _ isOpen induction =>
      rw [List.filterMap_append, ← List.append_assoc]
      exact (operations_push _ isOpen.lt_size instruction).trans (induction.append_right _)

/-- There is one new branch for each event that makes one, and it leads to the block of the event. -/
theorem targets_perm (traces : before.Traces events after) :
    ∃ added : List Nat, after.targets.Perm (before.targets ++ added) ∧
      List.Forall₂ (fun target place => after.places[target]? = some place) added
        (events.filterMap Event.jump?) := by
  induction traces with
  | refl => exact ⟨[], by simp, by simp⟩
  | goTo _ _ induction | countTemporary _ induction | bind _ _ _ induction => exact induction
  | addBlock role _ induction =>
      obtain ⟨added, perm, lead⟩ := induction
      refine ⟨added, by simpa using perm, ?_⟩
      rw [List.filterMap_append]
      simpa [List.filterMap_cons, Event.jump?] using
        lead.imp fun target place => (Traces.addBlock role .refl).place_eq
  | addAlloca _ _ induction | push _ _ _ induction =>
      rw [List.filterMap_append]
      simpa [List.filterMap_cons, Event.jump?] using induction
  | fork condition whenTrue whenFalse _ isOpen induction =>
      obtain ⟨added, perm, lead⟩ := induction
      refine ⟨added, (targets_close _ isOpen _).trans (by simpa [Ir.Terminator.target?] using perm), ?_⟩
      rw [List.filterMap_append]
      simpa [List.filterMap_cons, Event.jump?] using lead
  | leave type value _ isOpen induction =>
      obtain ⟨added, perm, lead⟩ := induction
      refine ⟨added, (targets_close _ isOpen _).trans (by simpa [Ir.Terminator.target?] using perm), ?_⟩
      rw [List.filterMap_append]
      simpa [List.filterMap_cons, Event.jump?] using lead
  | @jump _ _ _ target role earlier _ isOpen found induction =>
      obtain ⟨added, perm, lead⟩ := induction
      refine ⟨added ++ [target], (targets_close _ isOpen _).trans ?_, ?_⟩
      · rw [← List.append_assoc]
        exact perm.append_right _
      · rw [List.filterMap_append]
        refine List.rel_append (by simpa using lead) (.cons ?_ .nil)
        simpa using found

end Traces

theorem places_length (builder : Builder) : builder.places.length = builder.blocks.size := by
  simp [places]

theorem place_added (builder : Builder) (role : BlockRole) :
    (builder.addBlock role).places[builder.blocks.size]? =
      some (role, builder.countRole role) := by
  rw [places_addBlock, ← places_length, List.getElem?_concat_length]

/-- A function has grown by certain effects, rooms, jumps to the start and the end of loops, and blocks of
loops, and all that took place was allowed. -/
def Records (allowed : Event → Prop) (effects : List Effect) (rooms : List Ir.ValueType)
    (jumps : List (BlockRole × Nat)) (loops : List BlockRole) (before after : Builder) : Prop :=
  ∃ events, before.Traces events after ∧ (∀ event ∈ events, allowed event) ∧
    events.filterMap Event.effect? = effects ∧ events.filterMap Event.room? = rooms ∧
    (events.filterMap Event.jump?).filter (fun place => place.1.isLoop) = jumps ∧
    (events.filterMap Event.role?).filter BlockRole.isLoop = loops

namespace Records

variable {allowed : Event → Prop} {effects moreEffects : List Effect}
  {rooms moreRooms : List Ir.ValueType} {jumps moreJumps : List (BlockRole × Nat)}
  {loops moreLoops : List BlockRole} {before middle after : Builder}

theorem refl (allowed : Event → Prop) (before : Builder) :
    Records allowed [] [] [] [] before before :=
  ⟨[], .refl, fun _ member => absurd member List.not_mem_nil, rfl, rfl, rfl, rfl⟩

theorem trans (first : Records allowed effects rooms jumps loops before middle)
    (second : Records allowed moreEffects moreRooms moreJumps moreLoops middle after) :
    Records allowed (effects ++ moreEffects) (rooms ++ moreRooms) (jumps ++ moreJumps)
      (loops ++ moreLoops) before after := by
  obtain ⟨events, traces, all, rfl, rfl, rfl, rfl⟩ := first
  obtain ⟨others, later, others_all, rfl, rfl, rfl, rfl⟩ := second
  exact ⟨events ++ others, traces.trans later, List.forall_mem_append.2 ⟨all, others_all⟩,
    by simp, by simp, by simp, by simp⟩

/-- What follows may have left nothing but plain blocks and instructions. -/
theorem andThen (first : Records allowed effects rooms jumps loops before middle)
    (second : Records allowed [] [] [] [] middle after) :
    Records allowed effects rooms jumps loops before after := by
  simpa using first.trans second

/-- More may be allowed. -/
theorem mono {larger : Event → Prop} (records : Records allowed effects rooms jumps loops before after)
    (weaker : ∀ event, allowed event → larger event) :
    Records larger effects rooms jumps loops before after := by
  obtain ⟨events, traces, all, rest⟩ := records
  exact ⟨events, traces, fun event member => weaker event (all event member), rest⟩

/-- One event that is allowed takes place. -/
theorem of_event {event : Event} (traces : before.Traces [event] after) (all : allowed event) :
    Records allowed event.effect?.toList event.room?.toList
      (event.jump?.toList.filter fun place => place.1.isLoop)
      (event.role?.toList.filter BlockRole.isLoop) before after := by
  refine ⟨[event], traces, List.forall_mem_singleton.2 all, ?_, ?_, ?_, ?_⟩ <;>
    cases event <;> rfl

/-- A block stays what it was made for. -/
theorem place_eq (records : Records allowed effects rooms jumps loops before after) {index : Nat}
    {place : BlockRole × Nat} (found : before.places[index]? = some place) :
    after.places[index]? = some place := by
  obtain ⟨events, traces, -⟩ := records
  exact traces.place_eq found

/-- Blocks of loops are counted. -/
theorem countRole_eq (records : Records allowed effects rooms jumps loops before after)
    {role : BlockRole} (isLoop : role.isLoop = true) :
    after.countRole role = before.countRole role + loops.count role := by
  obtain ⟨events, traces, -, -, -, -, rfl⟩ := records
  rw [traces.countRole_eq, List.count_filter isLoop]

end Records

/-! ## The steps that forms are lowered by -/

section Steps

variable {allowed : Event → Prop} {builder : Builder} (valid : builder.Valid)
  (fresh : allowed (.block .unreachable))

theorem records_addBlock {role : BlockRole} (all : allowed (.block role)) :
    Records allowed [] [] [] ([role].filter BlockRole.isLoop) builder (builder.addBlock role) :=
  .of_event (.addBlock role .refl) all

/-- A block outside of every loop is made. -/
theorem records_addPlain {role : BlockRole} (plain : role.isLoop = false)
    (all : allowed (.block role)) :
    Records allowed [] [] [] [] builder (builder.addBlock role) := by
  have added : Records allowed [] [] [] ([role].filter BlockRole.isLoop) builder
      (builder.addBlock role) := records_addBlock all
  rwa [List.filter_cons_of_neg (by simp [plain])] at added

theorem records_goTo (index : Nat) : Records allowed [] [] [] [] builder (builder.goTo index) :=
  ⟨[], .goTo index .refl, fun _ member => absurd member List.not_mem_nil, rfl, rfl, rfl, rfl⟩

theorem records_addAlloca {type : Ir.ValueType} (all : allowed (.room type)) :
    Records allowed [] [type] [] [] builder (builder.addAlloca type) :=
  .of_event (.addAlloca type .refl) all

theorem records_bind (declaration : DeclId) (value : Ir.Value) :
    Records allowed [] [] [] [] builder (builder.bind declaration value) :=
  ⟨[], .bind declaration value .refl, fun _ member => absurd member List.not_mem_nil, rfl, rfl, rfl,
    rfl⟩

include fresh in
theorem records_resume : Records allowed [] [] [] [] builder builder.resume := by
  rw [Builder.resume]
  cases builder.current with
  | none => exact (records_addBlock fresh).trans (records_goTo _)
  | some index => exact .refl allowed builder

include valid

/-- The open block, if there is one, goes on with the block that it is left for. -/
theorem records_leave {target : Nat} {place : BlockRole × Nat}
    (found : builder.places[target]? = some place) (all : allowed (.jump place.1 place.2))
    (next : Nat) :
    Records allowed [] [] (if builder.current.isSome = true ∧ place.1.isLoop = true then [place] else [])
      [] builder (builder.leave target next) := by
  rw [leave, branchTo]
  cases current : builder.current with
  | none => exact records_goTo next
  | some index =>
      have jumped : Records allowed [] [] ([place].filter fun place => place.1.isLoop) [] builder
          (builder.close index (.branch target)) :=
        .of_event (.jump .refl (valid.openAt current) found) all
      have filtered : [place].filter (fun place => place.1.isLoop) =
          if (some index).isSome = true ∧ place.1.isLoop = true then [place] else [] := by
        simp [List.filter_cons]
      rw [← filtered]
      simpa using jumped.trans (records_goTo next)

/-- The open block, if there is one, is left for one outside of every loop. -/
theorem records_leavePlain {target : Nat} {place : BlockRole × Nat}
    (found : builder.places[target]? = some place) (plain : place.1.isLoop = false)
    (all : allowed (.jump place.1 place.2)) (next : Nat) :
    Records allowed [] [] [] [] builder (builder.leave target next) := by
  simpa [plain] using records_leave valid found all next

include fresh

theorem records_emit {operation : Ir.Operation} (all : allowed (.instruction operation)) :
    Records allowed operation.effect?.toList [] [] [] builder (builder.emit operation) :=
  (records_resume fresh).trans (.of_event
    (.push ⟨some builder.temporaries, operation⟩ (.countTemporary .refl)
      (valid.resume.openAt builder.resume_current)) all)

theorem records_perform {operation : Ir.Operation} (all : allowed (.instruction operation)) :
    Records allowed operation.effect?.toList [] [] [] builder (builder.perform operation) :=
  (records_resume fresh).trans (.of_event
    (.push ⟨none, operation⟩ .refl (valid.resume.openAt builder.resume_current)) all)

theorem records_fork {condition : Ir.Value} (all : allowed (.fork condition))
    (whenTrue whenFalse : Nat) : Records allowed [] [] [] [] builder
      (builder.endWith (.condBranch condition whenTrue whenFalse)) :=
  (records_resume fresh).trans (.of_event
    (.fork condition whenTrue whenFalse .refl (valid.resume.openAt builder.resume_current)) all)

theorem records_return {value : Ir.Value} (all : allowed (.leave value)) (type : Ir.ValueType) :
    Records allowed [] [] [] [] builder (builder.endWith (.ret type value)) :=
  (records_resume fresh).trans (.of_event
    (.leave type value .refl (valid.resume.openAt builder.resume_current)) all)

theorem records_jump {target : Nat} {place : BlockRole × Nat}
    (found : builder.places[target]? = some place) (all : allowed (.jump place.1 place.2)) :
    Records allowed [] [] ([place].filter fun place => place.1.isLoop) [] builder
      (builder.endWith (.branch target)) := by
  have resumed : Records allowed [] [] [] [] builder builder.resume := records_resume fresh
  exact resumed.trans (.of_event
    (.jump .refl (valid.resume.openAt builder.resume_current) (resumed.place_eq found)) all)

end Steps

section Splits

variable {allowed : Event → Prop} {builder : Builder} (valid : builder.Valid)
  (fresh : allowed (.block .unreachable))

/-- Going on behind a terminator does not change what blocks were made for. -/
theorem place_resume {index : Nat} {place : BlockRole × Nat}
    (found : builder.places[index]? = some place) : builder.resume.places[index]? = some place := by
  have resumed : Records (fun _ => True) [] [] [] [] builder builder.resume := records_resume trivial
  exact resumed.place_eq found

/-- Leaving a block does not change what blocks were made for. -/
theorem place_leave {index : Nat} {place : BlockRole × Nat}
    (found : builder.places[index]? = some place) (target next : Nat) :
    (builder.leave target next).places[index]? = some place := by
  rw [leave, branchTo]
  cases builder.current with
  | none => exact found
  | some block => rwa [places_goTo, places_close]

/-- Closing a block does not change what blocks were made for. -/
theorem place_endWith {index : Nat} {place : BlockRole × Nat}
    (found : builder.places[index]? = some place) (terminator : Ir.Terminator) :
    (builder.endWith terminator).places[index]? = some place := by
  rw [endWith, places_close]
  exact place_resume found

/-- A block stays what it was made for when another one is added. -/
theorem place_addBlock {index : Nat} {place : BlockRole × Nat}
    (found : builder.places[index]? = some place) (role : BlockRole) :
    (builder.addBlock role).places[index]? = some place :=
  (Traces.addBlock role .refl).place_eq found

/-- The values of a logical operator meet in the second of the new blocks. -/
theorem place_splitLogical (isOr : Bool) (left : Ir.Value) :
    (builder.splitLogical isOr left).places[builder.resume.blocks.size + 1]? =
      some (if isOr then .orEnd else .andEnd,
        (builder.resume.addBlock (if isOr then .orRhs else .andRhs)).countRole
          (if isOr then .orEnd else .andEnd)) := by
  refine place_endWith ?_ _
  have added := place_added (builder.resume.addBlock (if isOr then .orRhs else .andRhs))
    (if isOr then .orEnd else .andEnd)
  rwa [addBlock_size] at added

theorem place_splitTwo (first second : BlockRole) (condition : Ir.Value) :
    (builder.splitTwo first second condition).places[builder.blocks.size + 1]? =
      some (second, (builder.addBlock first).countRole second) := by
  refine place_endWith ?_ _
  have added := place_added (builder.addBlock first) second
  rwa [addBlock_size] at added

theorem place_splitThree (first second third : BlockRole) (condition : Ir.Value) :
    (builder.splitThree first second third condition).places[builder.blocks.size + 2]? =
      some (third, ((builder.addBlock first).addBlock second).countRole third) := by
  refine place_endWith ?_ _
  have added := place_added ((builder.addBlock first).addBlock second) third
  rwa [addBlock_size, addBlock_size] at added

/-- The blocks that continue and end a loop have the number of the loop. -/
theorem places_startLoop (builder : Builder) :
    builder.startLoop.places[builder.blocks.size]? =
        some (.whileCond, builder.countRole .whileCond) ∧
      builder.startLoop.places[builder.blocks.size + 2]? =
        some (.whileEnd, builder.countRole .whileEnd) := by
  have continues := place_added builder .whileCond
  have ends := place_added ((builder.addBlock .whileCond).addBlock .whileBody) .whileEnd
  rw [addBlock_size, addBlock_size] at ends
  constructor
  · exact place_endWith (place_addBlock (place_addBlock continues _) _) _
  · refine (place_endWith ends _).trans ?_
    simp [Builder.countRole_eq]

include valid in
/-- A loop is made and entered. -/
theorem records_startLoop :
    Records (fun _ => True) [] [] [(.whileCond, builder.countRole .whileCond)]
      [.whileCond, .whileBody, .whileEnd] builder builder.startLoop := by
  have add (builder : Builder) (role : BlockRole) : Records (fun _ => True) [] [] []
      ([role].filter BlockRole.isLoop) builder (builder.addBlock role) := records_addBlock trivial
  have prepared := ((add builder .whileCond).trans (add _ .whileBody)).trans (add _ .whileEnd)
  have entered := prepared.trans (records_jump
    (((valid.addBlock .whileCond).addBlock .whileBody).addBlock .whileEnd) trivial
    (place_addBlock (place_addBlock (place_added builder .whileCond) _) _) trivial)
  exact entered.trans (records_goTo _)

include valid fresh

theorem records_splitLogical (isOr : Bool) {left : Ir.Value}
    (start : allowed (.block (if isOr then .orRhs else .andRhs)))
    (last : allowed (.block (if isOr then .orEnd else .andEnd))) (all : allowed (.fork left)) :
    Records allowed [] [] [] [] builder (builder.splitLogical isOr left) := by
  have resumed : Records allowed [] [] [] [] builder builder.resume := records_resume fresh
  have started := resumed.trans (records_addPlain (by cases isOr <;> rfl) start)
  have prepared := started.trans (records_addPlain (by cases isOr <;> rfl) last)
  have forked (whenTrue whenFalse : Nat) := prepared.trans
    (records_fork ((valid.resume.addBlock _).addBlock _) fresh all whenTrue whenFalse)
  cases isOr with
  | false => exact (forked _ _).trans (records_goTo _)
  | true => exact (forked _ _).trans (records_goTo _)

theorem records_splitTwo {first second : BlockRole} {condition : Ir.Value}
    (first_plain : first.isLoop = false) (second_plain : second.isLoop = false)
    (first_allowed : allowed (.block first)) (second_allowed : allowed (.block second))
    (all : allowed (.fork condition)) :
    Records allowed [] [] [] [] builder (builder.splitTwo first second condition) := by
  have started : Records allowed [] [] [] [] builder (builder.addBlock first) :=
    records_addPlain first_plain first_allowed
  have prepared := started.trans (records_addPlain second_plain second_allowed)
  have forked := prepared.trans
    (records_fork ((valid.addBlock _).addBlock _) fresh all builder.blocks.size
      (builder.blocks.size + 1))
  exact forked.trans (records_goTo _)

theorem records_splitThree {first second third : BlockRole} {condition : Ir.Value}
    (first_plain : first.isLoop = false) (second_plain : second.isLoop = false)
    (third_plain : third.isLoop = false) (first_allowed : allowed (.block first))
    (second_allowed : allowed (.block second)) (third_allowed : allowed (.block third))
    (all : allowed (.fork condition)) :
    Records allowed [] [] [] [] builder (builder.splitThree first second third condition) := by
  have started : Records allowed [] [] [] [] builder (builder.addBlock first) :=
    records_addPlain first_plain first_allowed
  have prepared := (started.trans (records_addPlain second_plain second_allowed)).trans
    (records_addPlain third_plain third_allowed)
  have forked := prepared.trans
    (records_fork (((valid.addBlock _).addBlock _).addBlock _) fresh all builder.blocks.size
      (builder.blocks.size + 1))
  exact forked.trans (records_goTo _)

end Splits

end Builder

end Minilang
