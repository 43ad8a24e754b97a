import Mathlib.Data.List.Nodup
import Minilang.Proofs.Ir.Machine
import Minilang.Proofs.Lowering.Outcome
import Minilang.Proofs.Semantics.Evaluation
import Minilang.Lowering.Expression

/-!
# Agreement of programs and machines

A layout says at which addresses a machine stores the objects of a program. Data of the program and words of
the machine match if they are the same up to the layout, and the world of the program agrees with the memory
of the machine if what has been written to the places is found at their addresses.
-/

namespace Minilang

open Evaluation (Result World)
open Ir (Word Memory)

/-- At which addresses objects are stored. -/
abbrev Layout : Type := Place → Option Ir.Address

/-- Whether one layout places all objects like another one, and maybe more. -/
def Layout.Extends (before after : Layout) : Prop :=
  ∀ place address, before place = some address → after place = some address

theorem Layout.Extends.refl (layout : Layout) : layout.Extends layout := fun _ _ found => found

theorem Layout.Extends.trans {before middle after : Layout} (first : before.Extends middle)
    (second : middle.Extends after) : before.Extends after :=
  fun place address found => second place address (first place address found)

/-- Whether a datum of a program and a word of a machine are the same up to a layout. -/
inductive Matches (program : Program) (layout : Layout) : Result → Word → Prop
  | bool (value : Bool) : Matches program layout (.bool value) (.bool value)
  | char (value : UInt8) : Matches program layout (.char value) (.char value)
  | int (value : Int32) : Matches program layout (.int value) (.int value)
  | float (value : Binary64) : Matches program layout (.float value) (.float value)
  | null : Matches program layout .null .null
  | place {place : Place} {address : Ir.Address} :
      layout place = some address → Matches program layout (.place place) (.place address)
  | code {declaration : DeclId} :
      declaration ∈ program.declarations → (program.ast.kindOf declaration).isFunction = true →
      Matches program layout (.code declaration) (.code (program.ast.decl declaration).name)

variable {program : Program} {layout later : Layout}

namespace Matches

theorem mono {value : Result} {word : Word} (same : Matches program layout value word)
    (extends' : layout.Extends later) : Matches program later value word := by
  cases same with
  | bool value => exact .bool value
  | char value => exact .char value
  | int value => exact .int value
  | float value => exact .float value
  | null => exact .null
  | place found => exact .place (extends' _ _ found)
  | code atTop isFunction => exact .code atTop isFunction

/-- Zeros match. -/
theorem zero (type : Ty) :
    Matches program layout type.zero (.ofConstant (.zero (.ofTy type))) := by
  cases type <;> constructor

theorem of_place {place : Place} {word : Word} (same : Matches program layout (.place place) word) :
    ∃ address, word = .place address ∧ layout place = some address := by
  cases same with
  | place found => exact ⟨_, rfl, found⟩

theorem of_code {id : DeclId} {word : Word} (same : Matches program layout (.code id) word) :
    word = .code (program.ast.decl id).name ∧ id ∈ program.declarations ∧
      (program.ast.kindOf id).isFunction = true := by
  cases same with
  | code atTop isFunction => exact ⟨rfl, atTop, isFunction⟩

theorem truth?_eq {value : Result} {word : Word} (same : Matches program layout value word) :
    word.truth? = value.truth? := by
  cases same <;> rfl

end Matches

/-- Whether the memory of a machine holds what the world of a program holds. -/
structure Agrees (program : Program) (layout : Layout) (world : World) (memory : Memory) : Prop where
  /-- Variables at the top are stored in the global objects of their names. -/
  static_eq : ∀ declaration ∈ program.declarations, ∀ type initializer,
    program.ast.kindOf declaration = .object .var type initializer →
    layout (.static declaration) = some (.global (program.ast.decl declaration).name)
  /-- Different places are stored at different addresses. -/
  injective : ∀ first second address, layout first = some address → layout second = some address →
    first = second
  /-- There is storage for all places. -/
  isSome : ∀ place address, layout place = some address → (memory.cells address).isSome = true
  /-- Room that has not been made yet is not used. -/
  slot_lt : ∀ place slot, layout place = some (.slot slot) → slot < memory.slots
  /-- Only the objects of activations so far are placed. -/
  activation_lt : ∀ activation declaration address,
    layout (.automatic activation declaration) = some address → activation < world.activations
  /-- What has been written is found. -/
  written : ∀ place value, world.memory place = some value →
    ∃ address word, layout place = some address ∧ memory.read address = some word ∧
      Matches program layout value word

namespace Agrees

variable {world : World} {memory : Memory} {place : Place} {address : Ir.Address}
  {value : Result} {word : Word}

/-- What is read at an address matches what is read at the place. -/
theorem read (agrees : Agrees program layout world memory) (placed : layout place = some address)
    (found : world.memory place = some value) :
    ∃ word, memory.read address = some word ∧ Matches program layout value word := by
  obtain ⟨other, word, other_placed, word_found, same⟩ := agrees.written place value found
  rw [placed] at other_placed
  cases other_placed
  exact ⟨word, word_found, same⟩

/-- Writing matching data keeps the agreement. -/
theorem write (agrees : Agrees program layout world memory) (placed : layout place = some address)
    (same : Matches program layout value word) :
    memory.write address word = some (memory.set address word) ∧
      Agrees program layout (world.write place value) (memory.set address word) := by
  refine ⟨if_pos (agrees.isSome place address placed), agrees.static_eq, agrees.injective, ?_,
    agrees.slot_lt, agrees.activation_lt, ?_⟩
  · intro other otherAddress other_placed
    rw [Memory.set_cells]
    split
    · rfl
    · exact agrees.isSome other otherAddress other_placed
  · intro other otherValue found
    rw [World.write_memory] at found
    by_cases isWritten : other = place
    · rw [if_pos isWritten] at found
      cases found
      refine ⟨address, word, isWritten ▸ placed, ?_, same⟩
      rw [Memory.read, Memory.set_cells, if_pos rfl, Option.join_some]
    · rw [if_neg isWritten] at found
      obtain ⟨otherAddress, otherWord, other_placed, word_found, other_same⟩ :=
        agrees.written other otherValue found
      have different : otherAddress ≠ address := by
        rintro rfl
        exact isWritten (agrees.injective other place otherAddress other_placed placed)
      refine ⟨otherAddress, otherWord, other_placed, ?_, other_same⟩
      rw [Memory.read, Memory.set_cells, if_neg different]
      exact word_found

/-- Data that match are the same where the words are. -/
theorem same?_eq (agrees : Agrees program layout world memory)
    (names_nodup : (program.declarations.map fun id => (program.ast.decl id).name).Nodup)
    {left right : Result} {leftWord rightWord : Word}
    (leftSame : Matches program layout left leftWord)
    (rightSame : Matches program layout right rightWord) :
    leftWord.same? rightWord = left.same? right := by
  cases leftSame with
  | bool | char | int | float | null => cases rightSame <;> rfl
  | @place first firstAddress first_placed =>
      cases rightSame with
      | bool | char | int | float | null | code => rfl
      | @place second secondAddress second_placed =>
          have same_iff : firstAddress = secondAddress ↔ first = second := by
            constructor
            · rintro rfl
              exact agrees.injective first second _ first_placed second_placed
            · rintro rfl
              exact Option.some.inj (first_placed.symm.trans second_placed)
          simp [Datum.same?, Datum.isAddress, same_iff]
  | @code first firstTop _ =>
      cases rightSame with
      | bool | char | int | float | null | place => rfl
      | @code second secondTop _ =>
          have same_iff :
              (program.ast.decl first).name = (program.ast.decl second).name ↔ first = second :=
            ⟨List.inj_on_of_nodup_map names_nodup firstTop secondTop, fun same => same ▸ rfl⟩
          simp [Datum.same?, Datum.isAddress, same_iff]

end Agrees

/-- The layout before anything has been called: only variables at the top are stored. -/
def Program.initialLayout (program : Program) : Layout
  | .static declaration =>
    if declaration ∈ program.declarations then
      match program.ast.kindOf declaration with
      | .object .var _ _ => some (.global (program.ast.decl declaration).name)
      | _ => none
    else none
  | .automatic _ _ => none

end Minilang
