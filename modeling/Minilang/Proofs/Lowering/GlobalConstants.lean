import Minilang.Proofs.Analysis.PlainTypes
import Minilang.Proofs.Lowering.ExpressionEvents
import Minilang.Proofs.Parsing.GlobalObjects

/-!
# Constants at the top

A constant at the top has no storage, and its initializer is computed anew wherever it is named. That cannot
be noticed: the initializer is pure, whatever other constants it names, so that a use adds nothing but
computations with constants and functions.
-/

namespace Minilang

/-- Whether an operation only computes a value from its operands. -/
def Ir.Operation.isComputation : Ir.Operation → Bool
  | binary _ _ _ _ | compare _ _ _ _ | cast _ _ _ _ | phi _ _ => true
  | alloca _ | load _ _ | store _ _ _ | call _ _ _ => false

/-- Whether a value is the same wherever it is needed, or the result of an instruction from a number on. -/
def Ir.Value.isSettled (fresh : Nat) : Ir.Value → Bool
  | const _ | function _ => true
  | temp index => fresh ≤ index
  | arg _ | global _ => false

/-- Whether an event only computes with settled values, or leads from block to block on the way. -/
def Event.isComputation (fresh : Nat) : Event → Bool
  | block role => !role.isLoop
  | instruction operation => operation.isComputation && operation.operands.all (·.isSettled fresh)
  | jump role _ => !role.isLoop
  | fork condition => condition.isSettled fresh
  | room _ | leave _ => false

theorem Event.isComputation_of_isWithin {event : Event} {serves : Ir.Value → Prop} {fresh : Nat}
    (within : event.IsWithin serves) (effectless : event.effect? = none)
    (settled : ∀ value, serves value → value.isSettled fresh = true) :
    event.isComputation fresh = true := by
  cases event with
  | block role | jump role =>
      rw [isComputation, within]
      rfl
  | instruction operation =>
      obtain ⟨notRoom, operands⟩ := within
      rw [isComputation, Bool.and_eq_true, List.all_eq_true]
      refine ⟨?_, fun value member => settled value (operands value member)⟩
      cases operation with
      | alloca type => exact absurd rfl (notRoom type)
      | load | store | call => cases effectless
      | binary | compare | cast | phi => rfl
  | fork condition => exact settled condition within
  | room | leave => exact within.elim

namespace Lowering

variable {program : Program} {before : Builder} {id : ExprId}

/-- The values that a pure expression is computed from are constants and functions. -/
theorem Serves.isSettled (coherent : program.Coherent) (pure : program.ast.Pure id)
    (names : program.ast.Names (· ∈ program.declarations) id)
    (clear : ∀ declaration ∈ program.declarations, before.local? declaration = none)
    {value : Ir.Value} (serves : Serves program before id value) :
    value.isSettled before.temporaries = true := by
  cases serves with
  | const => rfl
  | new later => exact decide_eq_true later
  | @named inner declaration value inside named found =>
      obtain ⟨inner_pure, inner_names⟩ := coherent.unfolded_pure pure names inside
      have atTop := inner_names.visible_of_name named
      have stable := inner_pure.isVariable_eq_false named
      rw [Builder.valueOf?, clear declaration atTop, Option.none_or, Program.symbol?,
        if_pos atTop] at found
      rw [Ast.kindOf] at stable
      dsimp only at found
      split at found
      · next kind_eq =>
        rw [kind_eq] at stable
        cases stable
      · cases found
        rfl
      · cases found

/-- Wherever a pure expression is lowered in a function, it is only computed. -/
theorem lowerExpr_onlyComputes (coherent : program.Coherent) (pure : program.ast.Pure id)
    (names : program.ast.Names (· ∈ program.declarations) id) (valid : before.Valid)
    (clear : ∀ declaration ∈ program.declarations, before.local? declaration = none) :
    Builds (lowerExpr program id) before
      (fun value after => value.isSettled before.temporaries = true ∧
        ∃ events, before.Traces events after ∧
          ∀ event ∈ events, event.isComputation before.temporaries = true) fun _ => False := by
  refine (lowerExprWithin_evaluates coherent (Nat.lt_succ_of_lt pure.index_lt) before valid
    (names.mono fun _ atTop => .inr atTop) clear).mono ?_ fun _ => False.elim
  rintro value after ⟨-, evaluated⟩
  have settled (value : Ir.Value) (serves : Serves program before id value) :
      value.isSettled before.temporaries = true := serves.isSettled coherent pure names clear
  obtain ⟨events, traces, within, effects_eq, -⟩ := evaluated.records
  rw [pure.effects_eq_nil coherent.sound, List.filterMap_eq_nil_iff] at effects_eq
  exact ⟨settled value evaluated.serves, events, traces, fun event member =>
    Event.isComputation_of_isWithin (within event member) (effects_eq event member) settled⟩

end Lowering

namespace Analysis

variable {before middle : Analysis} {id : DeclId} {kind : ObjectKind} {type : Ty}
  {initializer value : ExprId}

/-- A step whose outcome is known ensures what holds of it. -/
theorem Ensures.of_run {α : Type} {step : Check α} {result : α} {after : Analysis}
    (run : step.run before = (.ok result, after)) {onResult : α → Analysis → Prop}
    {onError : Diagnostic → Analysis → Prop} (holds : onResult result after) :
    Ensures step before onResult onError := by
  rw [Ensures, run]
  exact holds

/-- A step has the outcome that it ensures. -/
theorem Ensures.run_eq {α : Type} {step : Check α} {outcome : Except Diagnostic α × Analysis}
    (ensures : Ensures step before (fun result after => outcome = (.ok result, after))
      (fun error after => outcome = (.error error, after))) : step.run before = outcome := by
  rw [Ensures] at ensures
  split at ensures
  · next run => exact run.trans ensures.symm
  · next run => exact run.trans ensures.symm

/-- A constant at the top whose initializer has the declared type is accepted if its initializer is
pure, and rejected where that serves otherwise. -/
theorem defineObject_run (held : initializer.index < before.ast.exprs.size)
    (atTop : before.scopes.currentKind? = some .global)
    (kind_eq : before.ast.kindOf id = .object kind type none) (isConstant : kind ≠ .var)
    (loaded : (load initializer).run before = (.ok value, middle))
    (same : middle.ast.typeOf value = type) :
    (defineObject id initializer).run before = if middle.ast.isConstant value = true then
        (.ok id, middle.withKind id (.object kind type (some value)))
      else (.error (.semantic (middle.ast.expr value).location
        (.nonConstantInitializer (before.ast.decl id).name)), middle) := by
  obtain ⟨gives, -⟩ := (load_ensures ⟨Nat.zero_le _, held⟩).result loaded
  have decl_eq : middle.ast.decl id = before.ast.decl id := by
    rw [Ast.decl, gives.1.decls_eq, Ast.decl]
  have introduced : (before.ast.decl id).kind = .object kind type none := kind_eq
  have constantKind : (DeclKind.object kind type none).isConstant = true := by
    cases kind with
    | var => exact absurd rfl isConstant
    | const | value => rfl
  have passes : Ensures (requireSame type value) middle (fun _ after => after = middle)
      fun _ _ => False := by
    rw [requireSame, ensures_bind, ensures_expr, if_pos (show type = (middle.ast.expr value).type from
      same.symm)]
    rfl
  refine Ensures.run_eq ?_
  rw [defineObject, ensures_bind]
  refine .of_run loaded ?_
  rw [ensures_bind, ensures_decl, decl_eq, introduced]
  dsimp only [DeclKind.type?]
  rw [ensures_bind]
  refine passes.mono ?_ fun _ _ => False.elim
  intro _ after after_eq
  rw [after_eq, ensures_bind, ensures_get]
  have globally : middle.scopes.currentKind? = some .global := by rw [gives.1.scopes_eq, atTop]
  by_cases accepted : middle.ast.isConstant value = true
  · rw [if_neg (by simp [accepted]), if_pos accepted]
    rfl
  · rw [if_pos ⟨constantKind, globally, Bool.eq_false_iff.2 accepted⟩, if_neg accepted]
    rfl

end Analysis

namespace Parser

variable {source : Source} {ids : List DeclId} {before opened : ParserState} {loaded : Analysis}
  {kind : ObjectKind} {id : DeclId} {type : Ty} {initializer value : ExprId}

/-- A constant at the top whose initializer has the declared type is accepted if nothing in the initializer
has an effect. Otherwise the text is rejected. -/
theorem ComesTo.constant (comesTo : ComesTo source ids before) (isConstant : kind ≠ .var)
    (opens : (openObject kind ((TokenStream.ofSource source).length + 1)).run before =
      .ok ((id, initializer), opened))
    (loads : (Analysis.load initializer).run opened.analysis = (.ok value, loaded))
    (kind_eq : opened.analysis.ast.kindOf id = .object kind type none)
    (same : loaded.ast.typeOf value = type) :
    if ∀ inner ∈ loaded.ast.nodes value, (loaded.ast.expr inner).kind.effect? = none then
      (declaration ((TokenStream.ofSource source).length + 1)).run before =
        .ok (id, ⟨opened.tokens, loaded.withKind id (.object kind type (some value))⟩)
    else parse source = .error (.semantic (loaded.ast.expr value).location
      (.nonConstantInitializer (opened.analysis.ast.decl id).name)) := by
  obtain ⟨atTop, plain, rounds, rounds_le, within, -⟩ := comesTo.rejects
  have parses := openObject_parses kind (within.mono rounds_le) atTop.namesTyped
  rw [Parses, opens] at parses
  obtain ⟨-, name, location, declared_type, scopes, declared, id_eq, bound, declared_eq, gives⟩ := parses
  have stays := StaysPlain.openObject kind ((TokenStream.ofSource source).length + 1) before plain
  rw [opens] at stays
  have globally : opened.analysis.scopes.currentKind? = some .global := by
    have scopes_eq : opened.analysis.scopes = scopes := by
      rw [gives.1.scopes_eq, declared_eq]
      rfl
    rw [scopes_eq, ScopeChain.currentKind?, ScopeChain.current?, (atTop.frames_of_declare bound).1]
    rfl
  have declared_sound : declared.ast.Sound :=
    declared_eq ▸ ((Analysis.grows_withDecl before.analysis rfl).trans
      (Analysis.grows_withScopes _ scopes)).sound atTop.sound
  obtain ⟨⟨adds, -, loaded_bound⟩, -⟩ := (Analysis.load_ensures gives.2).result loads
  have sound : loaded.ast.Sound := adds.sound (gives.1.sound declared_sound)
  have isValue : (loaded.ast.typeOf value).isReference = false := by
    rw [same]
    exact Ty.isReference_of_isPlain (stays.2 id type (by rw [kind_eq, DeclKind.type?]))
  have accepted_iff : loaded.ast.isConstant value = true ↔
      ∀ inner ∈ loaded.ast.nodes value, (loaded.ast.expr inner).kind.effect? = none := by
    rw [Ast.isConstant_iff sound loaded_bound, ← Ast.effects_eq_nil_iff]
    exact ⟨fun pure => pure.effects_eq_nil sound,
      fun effectless => .of_effects sound loaded_bound effectless isValue⟩
  have defines := Analysis.defineObject_run gives.2.2 globally kind_eq isConstant loads same
  have declares := declaration_eq_object opens
  split_ifs with effectless
  · rw [if_pos (accepted_iff.2 effectless)] at defines
    rw [declares, run_check_of_ok defines]
  · rw [if_neg fun accepted => effectless (accepted_iff.1 accepted)] at defines
    rw [run_check_of_error defines] at declares
    obtain ⟨⟨token, found, spelled⟩, -⟩ := openObject_tokens opens
    exact comesTo.parse_eq_error found (by simp [spelled]) declares

end Parser

section Constants

variable {program : Program} {constant : DeclId} (coherent : program.Coherent)
  (atTop : constant ∈ program.declarations)
  (isConstant : (program.ast.kindOf constant).isConstant = true)

include coherent atTop isConstant

/-- A constant at the top has an initializer. -/
theorem Program.Coherent.exists_initializer :
    ∃ initializer, (program.ast.kindOf constant).initializer? = some initializer := by
  cases coherent.topLevel constant atTop with
  | object kind_eq => exact ⟨_, by rw [kind_eq, DeclKind.initializer?]⟩
  | function kind_eq =>
      rw [kind_eq] at isConstant
      cases isConstant

/-- A name of a constant at the top is pure. -/
theorem Program.Coherent.use_pure {use : ExprId} (bound : use.index < program.ast.exprs.size)
    (named : (program.ast.expr use).kind = .name constant) :
    program.ast.Pure use ∧ program.ast.Names (· ∈ program.declarations) use := by
  obtain ⟨type, typed⟩ := (coherent.topLevel constant atTop).typed
  have stable := (Ast.isVariable_eq_false_iff typed).2 (by rw [isConstant, Bool.true_or])
  have operands : ∀ operand ∈ (program.ast.expr use).kind.operands, False := by
    rw [named]
    simp [ExprKind.operands]
  constructor
  · refine .expr bound (by rw [named]; rfl) ?_ fun operand member => (operands operand member).elim
    intro other same
    cases named.symm.trans same
    exact ⟨Ast.index_lt_of_type? typed, stable⟩
  · refine .expr bound ?_ fun operand member => (operands operand member).elim
    intro other same
    cases named.symm.trans same
    exact atTop

end Constants

open Lowering (Builds lowerExpr)

/-- Constants at the top are pure: however deep they name each other, their initializers have no effects and
name only constants and functions at the top, and wherever they are used there is only something to compute.
Conversely a constant at the top whose initializer has the declared type is accepted, or its text rejected,
by whether nothing in the initializer has an effect. -/
theorem globals_pure (source : Source) :
    (∀ program, parse source = .ok program →
      ∀ constant ∈ program.declarations, (program.ast.kindOf constant).isConstant = true →
        ∃ initializer, (program.ast.kindOf constant).initializer? = some initializer ∧
          (∀ inner ∈ program.unfolded initializer,
            (program.ast.expr inner).kind.effect? = none ∧
              ∀ named, (program.ast.expr inner).kind = .name named →
                named ∈ program.declarations ∧ (program.ast.kindOf named).isVariable = false) ∧
          ∀ (use : ExprId) (before : Builder), use.index < program.ast.exprs.size →
            (program.ast.expr use).kind = .name constant → before.Valid →
            (∀ other ∈ program.declarations, before.local? other = none) →
            Builds (lowerExpr program use) before
              (fun value after => value.isSettled before.temporaries = true ∧
                ∃ events, before.Traces events after ∧
                  ∀ event ∈ events, event.isComputation before.temporaries = true)
              fun _ => False) ∧
    ∀ ids before kind id initializer opened value loaded type,
      Parser.ComesTo source ids before → kind ≠ .var →
      (Parser.openObject kind ((TokenStream.ofSource source).length + 1)).run before =
        .ok ((id, initializer), opened) →
      opened.analysis.ast.kindOf id = .object kind type none →
      (Analysis.load initializer).run opened.analysis = (.ok value, loaded) →
      loaded.ast.typeOf value = type →
      if ∀ inner ∈ loaded.ast.nodes value, (loaded.ast.expr inner).kind.effect? = none then
        (Parser.declaration ((TokenStream.ofSource source).length + 1)).run before =
          .ok (id, ⟨opened.tokens, loaded.withKind id (.object kind type (some value))⟩)
      else parse source = .error (.semantic (loaded.ast.expr value).location
        (.nonConstantInitializer (opened.analysis.ast.decl id).name)) := by
  refine ⟨fun program parsed constant atTop isConstant => ?_, ?_⟩
  · have coherent := parse_coherent parsed
    obtain ⟨initializer, initialized⟩ := coherent.exists_initializer atTop isConstant
    obtain ⟨pure, names⟩ := coherent.initializer_pure atTop isConstant initialized
    refine ⟨initializer, initialized, fun inner inside => ?_, fun use before bound named valid clear => ?_⟩
    · obtain ⟨inner_pure, inner_names⟩ := coherent.unfolded_pure pure names inside
      exact ⟨inner_pure.effect?_eq_none, fun other spelled =>
        ⟨inner_names.visible_of_name spelled, inner_pure.isVariable_eq_false spelled⟩⟩
    · obtain ⟨use_pure, use_names⟩ := coherent.use_pure atTop isConstant bound named
      exact Lowering.lowerExpr_onlyComputes coherent use_pure use_names valid clear
  · intro ids before kind id initializer opened value loaded type comesTo isConstant opens kind_eq loads
    exact comesTo.constant isConstant opens loads kind_eq

/-- A program with constants that are made of each other and of functions. -/
def chainedConstants : Source :=
  ⟨"t", "let a: int = 2 * 3;
def f(x: int) -> int { return x; }
let h: (int) -> int = f;
def b: int = a < 7 ? a + 1 : -1;
def g(y: int) -> int { return b + h(y); }"⟩

theorem globals_pure_of_chainedConstants :
    (∃ program, parse chainedConstants = .ok program ∧
      (program.unfolded ⟨13⟩).length = 14 ∧
      (∀ inner ∈ program.unfolded ⟨13⟩, (program.ast.expr inner).kind.effect? = none) ∧
      (program.ast.expr ⟨14⟩).kind = .name ⟨4⟩ ∧
      ∃ value after, (lowerExpr program ⟨14⟩).run Lowering.started = .ok (value, after) ∧
        value.isSettled Lowering.started.temporaries = true) ∧
    ∃ after, (Parser.declaration ((TokenStream.ofSource chainedConstants).length + 1)).run
      ⟨.ofSource chainedConstants, .opened⟩ = .ok (⟨0⟩, after) := by
  have parses : (parse chainedConstants).toOption.any (fun program =>
      ⟨4⟩ ∈ program.declarations ∧ (program.ast.kindOf ⟨4⟩).isConstant = true ∧
        (program.ast.kindOf ⟨4⟩).initializer? = some ⟨13⟩ ∧
        (program.unfolded ⟨13⟩).length = 14 ∧ 14 < program.ast.exprs.size ∧
        (program.ast.expr ⟨14⟩).kind = .name ⟨4⟩) = true := by
    decide +kernel
  have opens : ((Parser.openObject .const ((TokenStream.ofSource chainedConstants).length + 1)).run
      ⟨.ofSource chainedConstants, .opened⟩).toOption.any (fun outcome =>
        decide (outcome.1.1 = ⟨0⟩ ∧
          outcome.2.analysis.ast.kindOf ⟨0⟩ = .object .const .int none) &&
        ((Analysis.load outcome.1.2).run outcome.2.analysis).1.toOption.any fun value =>
          let loaded := ((Analysis.load outcome.1.2).run outcome.2.analysis).2
          decide (loaded.ast.typeOf value = .int ∧
            ∀ inner ∈ loaded.ast.nodes value, (loaded.ast.expr inner).kind.effect? = none)) = true := by
    decide +kernel
  obtain ⟨pure, accepted⟩ := globals_pure chainedConstants
  constructor
  · cases parsed : parse chainedConstants with
    | error cause =>
        rw [parsed] at parses
        cases parses
    | ok program =>
        rw [parsed] at parses
        obtain ⟨atTop, isConstant, initialized, length_eq, bound, named⟩ := of_decide_eq_true parses
        obtain ⟨initializer, initialized', effectless, computed⟩ :=
          pure program parsed ⟨4⟩ atTop isConstant
        cases initialized.symm.trans initialized'
        have builds := computed ⟨14⟩ Lowering.started bound named Lowering.started_valid fun _ _ => rfl
        refine ⟨program, rfl, length_eq, fun inner inside => (effectless inner inside).1, named, ?_⟩
        cases run : (lowerExpr program ⟨14⟩).run Lowering.started with
        | error cause => exact (builds.error run).elim
        | ok outcome => exact ⟨_, _, rfl, (builds.result run).1⟩
  · cases run : (Parser.openObject .const ((TokenStream.ofSource chainedConstants).length + 1)).run
        ⟨.ofSource chainedConstants, .opened⟩ with
    | error cause =>
        rw [run] at opens
        cases opens
    | ok outcome =>
        obtain ⟨⟨id, initializer⟩, opened⟩ := outcome
        rw [run] at opens
        rw [Except.toOption, Option.any_some, Bool.and_eq_true, decide_eq_true_iff] at opens
        obtain ⟨⟨rfl, kind_eq⟩, loads⟩ := opens
        cases loads_eq : (Analysis.load initializer).run opened.analysis with
        | mk loaded_outcome loaded =>
            dsimp only at loads
            rw [loads_eq] at loads
            cases loaded_outcome with
            | error cause => cases loads
            | ok value =>
                obtain ⟨same, effectless⟩ := of_decide_eq_true loads
                have decided := accepted [] _ .const ⟨0⟩ initializer opened value loaded .int .start
                  (by simp) run kind_eq loads_eq same
                rw [if_pos effectless] at decided
                exact ⟨_, decided⟩

end Minilang
