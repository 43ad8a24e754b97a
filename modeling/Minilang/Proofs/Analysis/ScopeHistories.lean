import Mathlib.Data.List.Basic
import Mathlib.Data.List.Forall2
import Mathlib.Data.List.Induction
import Mathlib.Data.List.Infix
import Mathlib.Tactic.Common
import Minilang.Scope

/-!
# Histories of scopes

What a name means can be told from the calls that a chain of scopes has been given, without looking at the
chain. A frame is told by the calls since it was opened: it is still there if all that was opened since then
was closed first, and a declaration is made in it where nothing opened since then is left.
-/

namespace Minilang.ScopeChain

/-- A call that may change a chain of scopes. -/
inductive Call where
  /-- Open a new innermost frame. -/
  | push (kind : ScopeKind)
  /-- Close the innermost frame. -/
  | pop
  /-- Bind a name in the innermost frame. -/
  | declare (name : String) (declaration : DeclId)
deriving DecidableEq, Repr

namespace Call

/-- Whether a frame is opened. -/
def isPush : Call → Bool
  | push _ => true
  | _ => false

/-- Whether a frame is closed. -/
def isPop : Call → Bool
  | pop => true
  | _ => false

end Call

/-- The chain behind a call. Where there is no frame to close, and where a name cannot be declared, it stays
what it was. -/
def perform (chain : ScopeChain) : Call → ScopeChain
  | .push kind => chain.push kind
  | .pop =>
    match chain.pop? with
    | some (_, outer) => outer
    | none => chain
  | .declare name declaration =>
    match chain.declare name declaration with
    | .ok after => after
    | .error _ => chain

/-- The chain behind calls that are made one after another. -/
def run (chain : ScopeChain) (calls : List Call) : ScopeChain := calls.foldl perform chain

/-! ## Histories -/

/-- The number of frames that calls open. -/
def pushes (calls : List Call) : Nat := calls.countP Call.isPush

/-- The number of frames that calls close. -/
def pops (calls : List Call) : Nat := calls.countP Call.isPop

/-- Whether calls close no frame but those that they have opened. -/
def Contained (calls : List Call) : Prop := ∀ front, front <+: calls → pops front ≤ pushes front

/-- Whether calls close the frames that they have opened, and no others. -/
def Balanced (calls : List Call) : Prop := Contained calls ∧ pops calls = pushes calls

theorem contained_iff_inits {calls : List Call} :
    Contained calls ↔ ∀ front ∈ calls.inits, pops front ≤ pushes front := by
  simp only [Contained, List.mem_inits]

instance (calls : List Call) : Decidable (Contained calls) :=
  decidable_of_iff _ contained_iff_inits.symm

instance (calls : List Call) : Decidable (Balanced calls) :=
  inferInstanceAs (Decidable (_ ∧ _))

/-- Whether a frame of which the calls since it was opened are given is still there. -/
def StillOpen (history inside : List Call) : Prop :=
  ∃ before kind, history = before ++ .push kind :: inside ∧ Contained inside

/-- Whether a declaration of a name was among the calls while the frame in which they began was the
innermost one. -/
def Given (inside : List Call) (name : String) (declaration : DeclId) : Prop :=
  ∃ left right, inside = left ++ .declare name declaration :: right ∧ Balanced left

/-- Whether a declaration was the first one of its name among the calls while the frame in which they began
was the innermost one. -/
def FirstGiven (inside : List Call) (name : String) (declaration : DeclId) : Prop :=
  ∃ left right, inside = left ++ .declare name declaration :: right ∧ Balanced left ∧
    ∀ earlier, ¬ Given left name earlier

section Calls

variable {calls inside history : List Call} {call : Call} {name : String} {declaration : DeclId}

theorem pushes_append_singleton :
    pushes (calls ++ [call]) = pushes calls + call.isPush.toNat := by
  cases opens : call.isPush <;> simp [pushes, opens]

theorem pops_append_singleton :
    pops (calls ++ [call]) = pops calls + call.isPop.toNat := by
  cases closes : call.isPop <;> simp [pops, closes]

theorem Contained.pops_le (contained : Contained calls) : pops calls ≤ pushes calls :=
  contained calls List.prefix_rfl

theorem contained_nil : Contained [] := by
  intro front first
  rw [List.prefix_nil.1 first]
  exact Nat.le_refl _

theorem contained_append_singleton_iff :
    Contained (calls ++ [call]) ↔
      Contained calls ∧ pops (calls ++ [call]) ≤ pushes (calls ++ [call]) := by
  constructor
  · intro contained
    exact ⟨fun front first => contained front (first.trans (List.prefix_append _ _)),
      contained.pops_le⟩
  · rintro ⟨contained, pops_le⟩ front first
    obtain rfl | first := List.prefix_concat_iff.1 first
    · exact pops_le
    · exact contained front first

theorem StillOpen.contained (isOpen : StillOpen history inside) : Contained inside := by
  obtain ⟨-, -, -, contained⟩ := isOpen
  exact contained

/-- A frame is still there behind one more call if that opens it, or if it was there and is not closed. -/
theorem stillOpen_append_singleton_iff :
    StillOpen (history ++ [call]) inside ↔
      (inside = [] ∧ call.isPush = true) ∨
        ∃ inner, inside = inner ++ [call] ∧ StillOpen history inner ∧
          pops (inner ++ [call]) ≤ pushes (inner ++ [call]) := by
  constructor
  · rintro ⟨before, kind, history_eq, contained⟩
    obtain rfl | ⟨inner, last, rfl⟩ := List.eq_nil_or_concat' inside
    · obtain ⟨-, call_eq⟩ := List.append_inj' history_eq rfl
      cases call_eq
      exact .inl ⟨rfl, rfl⟩
    · rw [← List.cons_append, ← List.append_assoc] at history_eq
      obtain ⟨rfl, call_eq⟩ := List.append_inj' history_eq rfl
      cases call_eq
      rw [contained_append_singleton_iff] at contained
      exact .inr ⟨inner, rfl, ⟨before, kind, rfl, contained.1⟩, contained.2⟩
  · rintro (⟨rfl, opens⟩ | ⟨inner, rfl, ⟨before, kind, rfl, contained⟩, pops_le⟩)
    · cases call with
      | push kind => exact ⟨history, kind, rfl, contained_nil⟩
      | pop | declare => cases opens
    · refine ⟨before, kind, ?_, contained_append_singleton_iff.2 ⟨contained, pops_le⟩⟩
      rw [List.append_assoc, List.cons_append]

theorem FirstGiven.given (first : FirstGiven inside name declaration) :
    Given inside name declaration := by
  obtain ⟨left, right, inside_eq, balanced, -⟩ := first
  exact ⟨left, right, inside_eq, balanced⟩

/-- A call adds a declaration to a frame if it is one and the frame is the innermost one. -/
theorem given_append_singleton_iff :
    Given (inside ++ [call]) name declaration ↔
      Given inside name declaration ∨ (call = .declare name declaration ∧ Balanced inside) := by
  constructor
  · rintro ⟨left, right, inside_eq, balanced⟩
    obtain rfl | ⟨more, last, rfl⟩ := List.eq_nil_or_concat' right
    · obtain ⟨rfl, call_eq⟩ := List.append_inj' inside_eq rfl
      cases call_eq
      exact .inr ⟨rfl, balanced⟩
    · rw [← List.cons_append, ← List.append_assoc] at inside_eq
      obtain ⟨rfl, -⟩ := List.append_inj' inside_eq rfl
      exact .inl ⟨left, more, rfl, balanced⟩
  · rintro (⟨left, right, rfl, balanced⟩ | ⟨rfl, balanced⟩)
    · exact ⟨left, right ++ [call], by rw [List.append_assoc, List.cons_append], balanced⟩
    · exact ⟨inside, [], rfl, balanced⟩

theorem firstGiven_append_singleton_iff :
    FirstGiven (inside ++ [call]) name declaration ↔
      FirstGiven inside name declaration ∨
        (call = .declare name declaration ∧ Balanced inside ∧
          ∀ earlier, ¬ Given inside name earlier) := by
  constructor
  · rintro ⟨left, right, inside_eq, balanced, first⟩
    obtain rfl | ⟨more, last, rfl⟩ := List.eq_nil_or_concat' right
    · obtain ⟨rfl, call_eq⟩ := List.append_inj' inside_eq rfl
      cases call_eq
      exact .inr ⟨rfl, balanced, first⟩
    · rw [← List.cons_append, ← List.append_assoc] at inside_eq
      obtain ⟨rfl, -⟩ := List.append_inj' inside_eq rfl
      exact .inl ⟨left, more, rfl, balanced, first⟩
  · rintro (⟨left, right, rfl, balanced, first⟩ | ⟨rfl, balanced, first⟩)
    · exact ⟨left, right ++ [call], by rw [List.append_assoc, List.cons_append], balanced, first⟩
    · exact ⟨inside, [], rfl, balanced, first⟩

end Calls

/-! ## Frames -/

/-- The frames behind a history, each by the calls since it was opened, the innermost one first. -/
def spans (history : List Call) : List (List Call) :=
  history.foldl (fun spans call =>
    match call with
    | .push _ => [] :: spans.map (· ++ [call])
    | .pop => spans.tail.map (· ++ [call])
    | .declare _ _ => spans.map (· ++ [call])) []

/-- Whether a frame binds what the calls since it was opened have declared in it. -/
structure Records (inside : List Call) (frame : Scope) : Prop where
  /-- A name is bound to the first declaration that it was given. -/
  get?_eq_some (name : String) (declaration : DeclId) :
    frame.get? name = some declaration ↔ FirstGiven inside name declaration
  /-- A name that was given none is not bound. -/
  get?_eq_none (name : String) :
    frame.get? name = none ↔ ∀ declaration, ¬ Given inside name declaration

namespace Records

variable {inside : List Call} {frame : Scope} {call : Call}

/-- A frame starts without any name. -/
theorem ofKind (kind : ScopeKind) : Records [] (Scope.ofKind kind) where
  get?_eq_some name declaration := by
    simp [FirstGiven]
  get?_eq_none name := by
    simp [Given]

/-- Calls that declare nothing in a frame leave it what it was. -/
theorem other (records : Records inside frame)
    (elsewhere : ∀ name declaration, call = .declare name declaration → ¬ Balanced inside) :
    Records (inside ++ [call]) frame where
  get?_eq_some name declaration := by
    rw [records.get?_eq_some, firstGiven_append_singleton_iff]
    refine ⟨.inl, fun given => given.resolve_right ?_⟩
    exact fun ⟨call_eq, balanced, _⟩ => elsewhere name declaration call_eq balanced
  get?_eq_none name := by
    rw [records.get?_eq_none]
    refine forall_congr' fun declaration => not_congr ?_
    rw [given_append_singleton_iff]
    refine ⟨.inl, fun given => given.resolve_right ?_⟩
    exact fun ⟨call_eq, balanced⟩ => elsewhere name declaration call_eq balanced

/-- A name that is bound already stays what it was. -/
theorem redeclare {name : String} (records : Records inside frame)
    (bound : frame.get? name ≠ none) (declaration : DeclId) :
    Records (inside ++ [.declare name declaration]) frame := by
  obtain ⟨existing, found⟩ := Option.ne_none_iff_exists'.1 bound
  have given := (records.get?_eq_some name existing).1 found
  constructor
  · intro other otherDeclaration
    rw [records.get?_eq_some, firstGiven_append_singleton_iff]
    refine ⟨.inl, fun either => either.resolve_right ?_⟩
    rintro ⟨⟨rfl, -⟩, -, first⟩
    exact first existing given.given
  · intro other
    rw [records.get?_eq_none]
    refine ⟨fun unbound declaration either => ?_, fun unbound declaration given => ?_⟩
    · obtain given | ⟨⟨rfl, -⟩, -⟩ := given_append_singleton_iff.1 either
      · exact unbound declaration given
      · exact unbound existing given.given
    · exact unbound declaration (given_append_singleton_iff.2 (.inl given))

/-- A name that is not bound yet is bound. -/
theorem bind {name : String} (records : Records inside frame) (balanced : Balanced inside)
    (unbound : frame.get? name = none) (declaration : DeclId) :
    Records (inside ++ [.declare name declaration]) (frame.bind name declaration) := by
  have nothing := (records.get?_eq_none name).1 unbound
  constructor
  · intro other otherDeclaration
    rw [Scope.get?_bind, firstGiven_append_singleton_iff]
    by_cases same : other = name
    · subst same
      rw [if_pos rfl, Option.some_inj]
      refine ⟨?_, ?_⟩
      · rintro rfl
        exact .inr ⟨rfl, balanced, nothing⟩
      · rintro (first | ⟨call_eq, -⟩)
        · exact absurd first.given (nothing otherDeclaration)
        · cases call_eq
          rfl
    · rw [if_neg same, records.get?_eq_some]
      refine ⟨.inl, fun either => either.resolve_right ?_⟩
      rintro ⟨⟨rfl, -⟩, -⟩
      exact same rfl
  · intro other
    rw [Scope.get?_bind]
    by_cases same : other = name
    · subst same
      rw [if_pos rfl]
      refine ⟨nofun, fun none => absurd ?_ (none declaration)⟩
      exact given_append_singleton_iff.2 (.inr ⟨rfl, balanced⟩)
    · rw [if_neg same, records.get?_eq_none]
      refine forall_congr' fun otherDeclaration => not_congr ?_
      rw [given_append_singleton_iff]
      refine ⟨.inl, fun either => either.resolve_right ?_⟩
      rintro ⟨⟨rfl, -⟩, -⟩
      exact same rfl

end Records

section Runs

variable {calls history inside : List Call} {chain : ScopeChain}

@[simp] theorem run_nil (chain : ScopeChain) : chain.run [] = chain := rfl

theorem run_append (chain : ScopeChain) (left right : List Call) :
    chain.run (left ++ right) = (chain.run left).run right :=
  List.foldl_append

theorem run_append_singleton (chain : ScopeChain) (calls : List Call) (call : Call) :
    chain.run (calls ++ [call]) = (chain.run calls).perform call :=
  run_append chain calls [call]

theorem spans_append_singleton (history : List Call) (call : Call) :
    spans (history ++ [call]) =
      match call with
      | .push _ => [] :: (spans history).map (· ++ [call])
      | .pop => (spans history).tail.map (· ++ [call])
      | .declare _ _ => (spans history).map (· ++ [call]) :=
  List.foldl_append

/-- The frames that are still there are counted by the frames that have been opened and not closed since
they were. -/
theorem spans_getElem?_iff {index : Nat} :
    (spans history)[index]? = some inside ↔
      StillOpen history inside ∧ pushes inside = pops inside + index := by
  induction history using List.reverseRecOn generalizing index inside with
  | nil => simp [spans, StillOpen]
  | append_singleton history call induction =>
      have behind (place later : Nat)
          (counted : ∀ inner, pushes inner = pops inner + place ↔
            pushes inner + call.isPush.toNat = pops inner + call.isPop.toNat + later) :
          (((spans history)[place]?).map (· ++ [call])) = some inside ↔
            (∃ inner, inside = inner ++ [call] ∧ StillOpen history inner ∧
              pops (inner ++ [call]) ≤ pushes (inner ++ [call])) ∧
            pushes inside = pops inside + later := by
        rw [Option.map_eq_some_iff]
        constructor
        · rintro ⟨inner, found, rfl⟩
          obtain ⟨isOpen, count⟩ := induction.1 found
          have count' := (counted inner).1 count
          rw [← pushes_append_singleton, ← pops_append_singleton] at count'
          exact ⟨⟨inner, rfl, isOpen, count' ▸ Nat.le_add_right _ _⟩, count'⟩
        · rintro ⟨⟨inner, rfl, isOpen, -⟩, count⟩
          rw [pushes_append_singleton, pops_append_singleton] at count
          exact ⟨inner, induction.2 ⟨isOpen, (counted inner).2 count⟩, rfl⟩
      rw [spans_append_singleton, stillOpen_append_singleton_iff]
      cases call with
      | push kind =>
          cases index with
          | zero =>
              rw [List.getElem?_cons_zero, Option.some_inj]
              constructor
              · rintro rfl
                exact ⟨.inl ⟨rfl, rfl⟩, rfl⟩
              · rintro ⟨⟨rfl, -⟩ | ⟨inner, rfl, isOpen, -⟩, count⟩
                · rfl
                · rw [pushes_append_singleton, pops_append_singleton] at count
                  have opened := isOpen.contained.pops_le
                  simp only [Call.isPush, Call.isPop, Bool.toNat_true, Bool.toNat_false] at count
                  omega
          | succ index =>
              rw [List.getElem?_cons_succ, List.getElem?_map, behind index (index + 1)]
              · constructor
                · exact fun ⟨isOpen, count⟩ => ⟨.inr isOpen, count⟩
                · rintro ⟨⟨rfl, -⟩ | isOpen, count⟩
                  · simp [pushes, pops] at count
                  · exact ⟨isOpen, count⟩
              · intro inner
                simp only [Call.isPush, Call.isPop, Bool.toNat_true, Bool.toNat_false]
                omega
      | pop =>
          rw [List.getElem?_map, List.getElem?_tail, behind (index + 1) index]
          · simp [Call.isPush]
          · intro inner
            simp only [Call.isPush, Call.isPop, Bool.toNat_true, Bool.toNat_false]
            omega
      | declare name declaration =>
          rw [List.getElem?_map, behind index index]
          · simp [Call.isPush]
          · intro inner
            simp only [Call.isPush, Call.isPop, Bool.toNat_false]
            omega

theorem mem_spans_iff : inside ∈ spans history ↔ StillOpen history inside := by
  rw [List.mem_iff_getElem?]
  constructor
  · rintro ⟨index, found⟩
    exact (spans_getElem?_iff.1 found).1
  · intro isOpen
    refine ⟨pushes inside - pops inside, spans_getElem?_iff.2 ⟨isOpen, ?_⟩⟩
    exact (Nat.add_sub_of_le isOpen.contained.pops_le).symm

/-- A frame is the innermost one if all that was opened since it was is closed. -/
theorem spans_head?_iff : (spans history).head? = some inside ↔
    StillOpen history inside ∧ Balanced inside := by
  rw [List.head?_eq_getElem?, spans_getElem?_iff, Nat.add_zero]
  refine and_congr_right fun isOpen => ?_
  exact ⟨fun count => ⟨isOpen.contained, count.symm⟩, fun balanced => balanced.2.symm⟩

/-- Further out there are the frames that were opened earlier. -/
theorem pairwise_spans (history : List Call) :
    (spans history).Pairwise fun inner outer => inner.length < outer.length := by
  induction history using List.reverseRecOn with
  | nil => exact .nil
  | append_singleton history call induction =>
      have longer {spans : List (List Call)}
          (ordered : spans.Pairwise fun inner outer => inner.length < outer.length) :
          (spans.map (· ++ [call])).Pairwise fun inner outer => inner.length < outer.length := by
        rw [List.pairwise_map]
        exact ordered.imp fun less => by simpa using less
      rw [spans_append_singleton]
      cases call with
      | push kind =>
          refine List.pairwise_cons.2 ⟨fun outer member => ?_, longer induction⟩
          obtain ⟨inner, -, rfl⟩ := List.mem_map.1 member
          simp
      | pop => exact longer (induction.sublist (List.tail_sublist _))
      | declare => exact longer induction

/-- The frames that are not innermost have something open inside. -/
theorem not_balanced_of_mem_tail (member : inside ∈ (spans history).tail) : ¬ Balanced inside := by
  obtain ⟨index, found⟩ := List.mem_iff_getElem?.1 member
  rw [List.getElem?_tail] at found
  have count := (spans_getElem?_iff.1 found).2
  intro balanced
  have same := balanced.2
  omega

/-- The frames of a chain bind what a history has declared in them. -/
theorem run_records (history : List Call) :
    List.Forall₂ Records (spans history) (empty.run history).frames := by
  induction history using List.reverseRecOn with
  | nil => exact .nil
  | append_singleton history call induction =>
      have others {spans : List (List Call)} {frames : List Scope}
          (records : List.Forall₂ Records spans frames)
          (elsewhere : ∀ inside ∈ spans, ∀ name declaration,
            call = .declare name declaration → ¬ Balanced inside) :
          List.Forall₂ Records (spans.map (· ++ [call])) frames := by
        rw [List.forall₂_map_left_iff]
        exact ((List.forall₂_and_left _ _).2 ⟨elsewhere, records⟩).imp fun _ _ both => both.2.other both.1
      rw [run_append_singleton, spans_append_singleton]
      cases call with
      | push kind => exact .cons (.ofKind kind) (others induction nofun)
      | pop =>
          rw [perform, pop?]
          generalize frames_eq : (empty.run history).frames = frames at induction ⊢
          generalize spans history = opened at induction ⊢
          cases induction with
          | nil =>
              change List.Forall₂ Records [] (empty.run history).frames
              rw [frames_eq]
              exact .nil
          | cons _ outer => exact others outer nofun
      | declare name declaration =>
          have innermost {inside : List Call} (first : (spans history).head? = some inside) :
              Balanced inside := (spans_head?_iff.1 first).2
          have further {inside : List Call} (member : inside ∈ (spans history).tail) :
              ¬ Balanced inside := not_balanced_of_mem_tail member
          rw [perform, ScopeChain.declare]
          generalize frames_eq : (empty.run history).frames = frames at induction ⊢
          generalize spans history = opened at induction innermost further ⊢
          cases induction with
          | nil =>
              change List.Forall₂ Records [] (empty.run history).frames
              rw [frames_eq]
              exact .nil
          | @cons inside frame _ outer records below =>
              have kept := others below fun _ member _ _ _ => further member
              dsimp only
              cases bound : frame.get? name with
              | some existing =>
                  dsimp only
                  rw [frames_eq]
                  exact .cons (records.redeclare (by simp [bound]) declaration) kept
              | none => exact .cons (records.bind (innermost rfl) bound declaration) kept

/-- A name means what is bound in the innermost frame that binds it. -/
theorem findSome?_iff {spans : List (List Call)} {frames : List Scope} {name : String}
    {declaration : DeclId} (records : List.Forall₂ Records spans frames) :
    (frames.findSome? fun frame => frame.get? name) = some declaration ↔
      ∃ above inside below, spans = above ++ inside :: below ∧ FirstGiven inside name declaration ∧
        ∀ inner ∈ above, ∀ other, ¬ Given inner name other := by
  induction records with
  | nil => simp
  | @cons first frame spans frames bound _ induction =>
      rw [List.findSome?_cons]
      cases found : frame.get? name with
      | some existing =>
          have given := (bound.get?_eq_some name existing).1 found
          dsimp only
          rw [← found, bound.get?_eq_some]
          constructor
          · exact fun own => ⟨[], first, spans, rfl, own, nofun⟩
          · rintro ⟨above, inside, below, spans_eq, own, nothing⟩
            cases above with
            | nil =>
                cases spans_eq
                exact own
            | cons inner above =>
                cases spans_eq
                exact absurd given.given (nothing first List.mem_cons_self existing)
      | none =>
          have nothing := (bound.get?_eq_none name).1 found
          dsimp only
          rw [induction]
          constructor
          · rintro ⟨above, inside, below, rfl, own, others⟩
            exact ⟨first :: above, inside, below, rfl, own, List.forall_mem_cons.2 ⟨nothing, others⟩⟩
          · rintro ⟨above, inside, below, spans_eq, own, others⟩
            cases above with
            | nil =>
                cases spans_eq
                exact absurd own.given (nothing declaration)
            | cons inner above =>
                cases spans_eq
                exact ⟨above, inside, below, rfl, own, (List.forall_mem_cons.1 others).2⟩

/-- A name means the first declaration that was made of it in a frame that is still there, if none was made
of it in the frames that were opened later and are still there. -/
theorem lookup_run_iff {name : String} {declaration : DeclId} :
    (empty.run history).lookup name = some declaration ↔
      ∃ inside, StillOpen history inside ∧ FirstGiven inside name declaration ∧
        ∀ inner, StillOpen history inner → inner.length < inside.length →
          ∀ other, ¬ Given inner name other := by
  have ordered := pairwise_spans history
  rw [lookup, findSome?_iff (run_records history)]
  constructor
  · rintro ⟨above, inside, below, spans_eq, own, others⟩
    rw [spans_eq, List.pairwise_append, List.pairwise_cons] at ordered
    refine ⟨inside, mem_spans_iff.1 (by simp [spans_eq]), own, fun inner isOpen shorter => ?_⟩
    have member := mem_spans_iff.2 isOpen
    rw [spans_eq, List.mem_append, List.mem_cons] at member
    obtain member | rfl | member := member
    · exact others inner member
    · exact absurd shorter (Nat.lt_irrefl _)
    · exact absurd shorter (Nat.not_lt_of_lt (ordered.2.1.1 inner member))
  · rintro ⟨inside, isOpen, own, others⟩
    obtain ⟨above, below, spans_eq⟩ := List.append_of_mem (mem_spans_iff.2 isOpen)
    rw [spans_eq, List.pairwise_append] at ordered
    refine ⟨above, inside, below, spans_eq, own, fun inner member => ?_⟩
    exact others inner (mem_spans_iff.1 (by simp [spans_eq, member]))
      (ordered.2.2 inner member inside List.mem_cons_self)

/-- A declaration fails where there is no frame, and where the innermost one was given one of its name. -/
theorem declare_run_eq_error_iff {name : String} {declaration existing : DeclId} :
    (empty.run history).declare name declaration = .error existing ↔
      ((∀ inside, ¬ StillOpen history inside) ∧ existing = declaration) ∨
        ∃ inside, StillOpen history inside ∧ Balanced inside ∧ FirstGiven inside name existing := by
  have records := run_records history
  simp only [← and_assoc, ← spans_head?_iff]
  simp only [← mem_spans_iff]
  rw [ScopeChain.declare]
  generalize (empty.run history).frames = frames at records ⊢
  generalize spans history = opened at records ⊢
  cases records with
  | nil => simp [eq_comm]
  | @cons inside frame others _ bound _ =>
      have some_frame : ¬ ∀ span, span ∉ inside :: others :=
        fun none => none inside List.mem_cons_self
      simp only [some_frame, false_and, false_or, List.head?_cons, Option.some_inj, exists_eq_left',
        ← bound.get?_eq_some]
      cases frame.get? name <;> simp

/-- Frames are only opened above those that were there, if calls close none of these and declare nothing in
them. -/
theorem frames_run_of_contained (contained : Contained calls)
    (nothing : ∀ name declaration, ¬ Given calls name declaration) :
    ∃ above, (chain.run calls).frames = above ++ chain.frames ∧
      pushes calls = pops calls + above.length := by
  induction calls using List.reverseRecOn with
  | nil => exact ⟨[], rfl, rfl⟩
  | append_singleton calls call induction =>
      rw [contained_append_singleton_iff, pushes_append_singleton, pops_append_singleton] at contained
      obtain ⟨above, frames_eq, count⟩ := induction contained.1 fun name declaration given =>
        nothing name declaration (given_append_singleton_iff.2 (.inl given))
      rw [run_append_singleton, pushes_append_singleton, pops_append_singleton]
      cases call with
      | push kind =>
          refine ⟨Scope.ofKind kind :: above, congrArg (Scope.ofKind kind :: ·) frames_eq, ?_⟩
          simp only [Call.isPush, Call.isPop, Bool.toNat_true, Bool.toNat_false, List.length_cons]
          omega
      | pop =>
          simp only [Call.isPush, Call.isPop, Bool.toNat_true, Bool.toNat_false] at contained ⊢
          cases above with
          | nil => simp at count; omega
          | cons frame above =>
              refine ⟨above, by rw [perform, pop?, frames_eq]; rfl, ?_⟩
              rw [List.length_cons] at count
              omega
      | declare name declaration =>
          simp only [Call.isPush, Call.isPop, Bool.toNat_false]
          cases above with
          | nil =>
              refine absurd (given_append_singleton_iff.2 (.inr ⟨rfl, contained.1, ?_⟩))
                (nothing name declaration)
              exact count.symm
          | cons frame above =>
              rw [perform, ScopeChain.declare, frames_eq]
              dsimp only [List.cons_append]
              cases frame.get? name with
              | some existing => exact ⟨frame :: above, frames_eq, count⟩
              | none => exact ⟨frame.bind name declaration :: above, rfl, count⟩

/-- Calls that close what they open and declare nothing in the frame in which they begin change nothing. -/
theorem run_balanced (balanced : Balanced calls)
    (nothing : ∀ name declaration, ¬ Given calls name declaration) : chain.run calls = chain := by
  obtain ⟨above, frames_eq, count⟩ := frames_run_of_contained balanced.1 nothing
  have none_above : above = [] := List.eq_nil_of_length_eq_zero (by have same := balanced.2; omega)
  rw [none_above] at frames_eq
  exact congrArg ScopeChain.mk frames_eq

/-- A declaration that fails changes nothing. -/
theorem perform_declare_of_error {name : String} {declaration existing : DeclId}
    (failed : chain.declare name declaration = .error existing) :
    chain.perform (.declare name declaration) = chain := by
  rw [perform, failed]

/-- What a history says about the chain behind it. A name means the first declaration that was made of it in
a frame that is still there, if none was made of it in the frames that were opened later and are still
there. A declaration fails, and then changes nothing, exactly where no frame is there, which gives it back,
and where one of its name was made in the innermost frame, the first of which is given out. Calls that close
what they open and make no declaration in the frame in which they begin leave all names as they were. -/
theorem history_determines (history : List Call) :
    (∀ name declaration, (empty.run history).lookup name = some declaration ↔
      ∃ inside, StillOpen history inside ∧ FirstGiven inside name declaration ∧
        ∀ inner, StillOpen history inner → inner.length < inside.length →
          ∀ other, ¬ Given inner name other) ∧
    (∀ name declaration existing, (empty.run history).declare name declaration = .error existing ↔
      ((∀ inside, ¬ StillOpen history inside) ∧ existing = declaration) ∨
        ∃ inside, StillOpen history inside ∧ Balanced inside ∧ FirstGiven inside name existing) ∧
    (∀ name declaration existing, (empty.run history).declare name declaration = .error existing →
      empty.run (history ++ [.declare name declaration]) = empty.run history) ∧
    ∀ calls, Balanced calls → (∀ name declaration, ¬ Given calls name declaration) →
      ∀ name, (empty.run (history ++ calls)).lookup name = (empty.run history).lookup name := by
  refine ⟨fun name declaration => lookup_run_iff,
    fun name declaration existing => declare_run_eq_error_iff, ?_, ?_⟩
  · intro name declaration existing failed
    rw [run_append_singleton, perform_declare_of_error failed]
  · intro calls balanced nothing name
    rw [run_append, run_balanced balanced nothing]

/-- A name that is shadowed in an inner frame means again what it meant once that frame is closed. -/
theorem history_determines_shadowed :
    let outer := [.push .global, .declare "a" ⟨0⟩]
    let inner := [.push .block, .declare "a" ⟨1⟩, .pop]
    Balanced inner ∧ (∀ name declaration, ¬ Given inner name declaration) ∧
      (empty.run outer).declare "a" ⟨2⟩ = .error ⟨0⟩ ∧
      empty.run (outer ++ [.declare "a" ⟨2⟩]) = empty.run outer ∧
      (empty.run outer).lookup "a" = some ⟨0⟩ ∧
      (empty.run (outer ++ inner.take 2)).lookup "a" = some ⟨1⟩ ∧
      (empty.run (outer ++ inner)).lookup "a" = (empty.run outer).lookup "a" := by
  intro outer inner
  have balanced : Balanced inner := by decide
  have nothing : ∀ name declaration, ¬ Given inner name declaration := by
    rintro name declaration ⟨left, right, inner_eq, -, closed⟩
    have left_eq : left = [.push .block] := by
      simp only [inner, List.cons_eq_append_iff] at inner_eq
      simp_all
    rw [left_eq] at closed
    exact absurd closed (by decide)
  have failed : (empty.run outer).declare "a" ⟨2⟩ = .error ⟨0⟩ := by decide
  exact ⟨balanced, nothing, failed, (history_determines outer).2.2.1 "a" ⟨2⟩ ⟨0⟩ failed,
    by decide, by decide, (history_determines outer).2.2.2 inner balanced nothing "a"⟩

end Runs

end Minilang.ScopeChain
