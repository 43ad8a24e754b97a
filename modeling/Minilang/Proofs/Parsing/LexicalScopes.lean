import Minilang.Ast
import Minilang.Diagnostic.Basic
import Minilang.Token.Stream

/-!
# Lexical scopes

What a name means, told from the tokens of a text alone. The text is read once from left to right. The whole
text, the body of each function with its parameters, and every other pair of braces is a frame. A name
belongs to the innermost frame around its declaration, and it can be used from the end of its declared type,
or from the body if it names a function, to the end of that frame. A use means the innermost declaration of
its name that can be used there.
-/

namespace Minilang

namespace SemanticError

/-- Whether an error is about which declaration a name means. -/
def isScoping : SemanticError → Bool
  | undeclared _ | redeclaration _ | selfInitializer _ => true
  | _ => false

end SemanticError

namespace Diagnostic

/-- Whether a failure is about which declaration a name means. -/
def isScoping : Diagnostic → Bool
  | semantic _ error => error.isScoping
  | _ => false

/-- Whether a failure is about the characters of a text. -/
def isLexical : Diagnostic → Bool
  | lexical _ _ => true
  | _ => false

end Diagnostic

/-- The name that a token spells, if it is one. -/
def Token.name (token : Token) : String :=
  match token.kind with
  | .identifier name => name
  | _ => ""

/-- The names that are declared in a frame so far, the latest one first. -/
abbrev LexicalFrame : Type := List (String × DeclId)

namespace LexicalScopes

/-- What has a declared type. -/
inductive Declared where
  /-- An object. -/
  | object (kind : ObjectKind) (name : Token)
  /-- A parameter of a function, behind the parameters found before. -/
  | parameter (function : Token) (found : LexicalFrame) (name : Token)
  /-- A function with its parameters, in front of its body. -/
  | function (name : Token) (parameters : LexicalFrame)
deriving DecidableEq, Repr

/-- Where in a text a token stands. -/
inductive TokenPlace where
  /-- Outside of what introduces a declaration. -/
  | code
  /-- Behind the word that introduces a declaration. -/
  | word (kind : ObjectKind)
  /-- Behind the declared name. -/
  | name (kind : ObjectKind) (name : Token)
  /-- Among the parameters of a function, outside of their types. -/
  | parameters (function : Token) (found : LexicalFrame)
  /-- In a declared type, within a number of open parentheses. -/
  | type (declared : Declared) (depth : Nat)
  /-- In front of the body of a function. -/
  | body (parameters : LexicalFrame)
deriving DecidableEq, Repr

end LexicalScopes

open LexicalScopes (Declared TokenPlace)

/-- What is known of the scopes at some token of a text. -/
structure LexicalScopes where
  /-- Where the token stands. -/
  place : TokenPlace
  /-- The frames around it, the innermost one first. -/
  frames : List LexicalFrame
  /-- The names of all declarations so far, where they are declared. -/
  declared : List Token
  /-- The constant in whose initializer the token stands. -/
  own : Option DeclId
  /-- The uses of names so far, each with the declaration it means. -/
  uses : List (Token × DeclId)
deriving DecidableEq, Repr

namespace LexicalScopes

/-- In front of the first token. -/
def start : LexicalScopes := ⟨.code, [[]], [], none, []⟩

/-- The declaration that a name means: the one in the innermost frame that has one. -/
def meaning (scopes : LexicalScopes) (name : String) : Option DeclId :=
  scopes.frames.findSome? fun frame => frame.lookup name

/-- The innermost frame. -/
def innermost (scopes : LexicalScopes) : LexicalFrame := scopes.frames.headD []

/-- The next declaration: they are counted. -/
def next (scopes : LexicalScopes) : DeclId := ⟨scopes.declared.length⟩

/-- Declare a name in the innermost frame, which may not have it yet. -/
def declare (scopes : LexicalScopes) (name : Token) : Except Diagnostic LexicalScopes :=
  if (scopes.innermost.lookup name.name).isSome then
    .error (.semantic name.location (.redeclaration name.name))
  else
    .ok { scopes with
      frames := ((name.name, scopes.next) :: scopes.innermost) :: scopes.frames.tail
      declared := scopes.declared ++ [name] }

/-- At the end of a declared type: an object can be used from here on, though a constant not yet by itself;
a parameter joins those found before; a function can be used in its body. -/
def complete (scopes : LexicalScopes) : Declared → Except Diagnostic LexicalScopes
  | .object kind name => do
    let after ← scopes.declare name
    return { after with place := .code, own := if kind = .var then none else some scopes.next }
  | .parameter function found name =>
    if (found.lookup name.name).isSome then
      .error (.semantic name.location (.redeclaration name.name))
    else
      .ok { scopes with
        place := .parameters function ((name.name, scopes.next) :: found)
        declared := scopes.declared ++ [name] }
  | .function name parameters => do
    let after ← scopes.declare name
    return { after with place := .body parameters }

/-- Use a name. -/
def use (scopes : LexicalScopes) (token : Token) : Except Diagnostic LexicalScopes :=
  match scopes.meaning token.name with
  | none => .error (.semantic token.location (.undeclared token.name))
  | some id =>
    if scopes.own = some id then .error (.semantic token.location (.selfInitializer token.name))
    else .ok { scopes with uses := (token, id) :: scopes.uses }

/-- Read a token outside of what introduces a declaration. -/
def readCode (scopes : LexicalScopes) (token : Token) : Except Diagnostic LexicalScopes :=
  match token.kind with
  | .keyword .varWord => .ok { scopes with place := .word .var }
  | .keyword .letWord => .ok { scopes with place := .word .const }
  | .keyword .defWord => .ok { scopes with place := .word .value }
  | .punctuation .leftBrace => .ok { scopes with frames := [] :: scopes.frames }
  | .punctuation .rightBrace => .ok { scopes with frames := scopes.frames.tail }
  | .punctuation .semicolon => .ok { scopes with own := none }
  | .identifier _ => scopes.use token
  | _ => .ok scopes

/-- Read a token in a declared type. The type ends with the first type word outside of parentheses. -/
def readType (scopes : LexicalScopes) (declared : Declared) (depth : Nat) (token : Token) :
    Except Diagnostic LexicalScopes :=
  match token.kind, depth with
  | .basicType _, 0 => scopes.complete declared
  | .punctuation .leftParen, depth => .ok { scopes with place := .type declared (depth + 1) }
  | .punctuation .rightParen, depth => .ok { scopes with place := .type declared (depth - 1) }
  | _, _ => .ok scopes

/-- Read a token. Where the scopes do not admit it, the fault is given instead. -/
def read (scopes : LexicalScopes) (token : Token) : Except Diagnostic LexicalScopes :=
  match scopes.place, token.kind with
  | .code, _ => scopes.readCode token
  | .word kind, _ => .ok { scopes with place := .name kind token }
  | .name .value name, .punctuation .leftParen =>
    .ok { scopes with place := .parameters name [] }
  | .name kind name, _ => .ok { scopes with place := .type (.object kind name) 0 }
  | .parameters function found, .identifier _ =>
    .ok { scopes with place := .type (.parameter function found token) 0 }
  | .parameters function found, .punctuation .rightParen =>
    .ok { scopes with place := .type (.function function found) 0 }
  | .parameters _ _, _ => .ok scopes
  | .type declared depth, _ => scopes.readType declared depth token
  | .body parameters, _ =>
    .ok { scopes with place := .code, frames := parameters :: scopes.frames }

/-- Read tokens from left to right, up to the first one that the scopes do not admit. -/
def readAll (scopes : LexicalScopes) (tokens : List Token) : Except Diagnostic LexicalScopes :=
  tokens.foldlM read scopes

variable {scopes later : LexicalScopes} {token : Token} {error : Diagnostic}

theorem readAll_append (first second : List Token) :
    scopes.readAll (first ++ second) = scopes.readAll first >>= fun middle => middle.readAll second :=
  List.foldlM_append

theorem readAll_cons (token : Token) (tokens : List Token) :
    scopes.readAll (token :: tokens) = scopes.read token >>= fun middle => middle.readAll tokens :=
  List.foldlM_cons

/-- The first one of tokens that can be read is read in front of the others. -/
theorem readAll_cons_ok {tokens : List Token} (read : scopes.readAll (token :: tokens) = .ok later) :
    ∃ middle, scopes.read token = .ok middle ∧ middle.readAll tokens = .ok later := by
  rw [readAll_cons] at read
  cases first : scopes.read token with
  | error error =>
      rw [first] at read
      cases read
  | ok middle =>
      rw [first] at read
      exact ⟨middle, rfl, read⟩

/-! ## Faults -/

theorem isScoping_of_declare (failed : scopes.declare token = .error error) :
    error.isScoping = true := by
  rw [declare] at failed
  split at failed
  · cases failed
    rfl
  · cases failed

theorem isScoping_of_complete {declared : Declared} (failed : scopes.complete declared = .error error) :
    error.isScoping = true := by
  cases declared with
  | object kind name | function name parameters =>
      rw [complete] at failed
      cases declares : scopes.declare name with
      | error fault =>
          rw [declares] at failed
          cases failed
          exact isScoping_of_declare declares
      | ok after =>
          rw [declares] at failed
          cases failed
  | parameter function found name =>
      rw [complete] at failed
      split at failed
      · cases failed
        rfl
      · cases failed

theorem isScoping_of_use (failed : scopes.use token = .error error) : error.isScoping = true := by
  rw [use] at failed
  split at failed
  · cases failed
    rfl
  · split at failed
    · cases failed
      rfl
    · cases failed

/-- A token that cannot be read is at fault for a name. -/
theorem isScoping_of_read (failed : scopes.read token = .error error) : error.isScoping = true := by
  unfold read at failed
  split at failed
  case h_1 =>
    unfold readCode at failed
    split at failed <;> first | exact isScoping_of_use failed | cases failed
  case h_8 =>
    unfold readType at failed
    split at failed <;> first | exact isScoping_of_complete failed | cases failed
  all_goals cases failed

theorem isScoping_of_readAll {tokens : List Token} (failed : scopes.readAll tokens = .error error) :
    error.isScoping = true := by
  induction tokens generalizing scopes with
  | nil => cases failed
  | cons token tokens induction =>
      rw [readAll_cons] at failed
      cases read : scopes.read token with
      | error fault =>
          rw [read] at failed
          cases failed
          exact isScoping_of_read read
      | ok after =>
          rw [read] at failed
          exact induction failed

/-! ## Names -/

/-- The parameters that are found in front of a token and are in no frame yet. -/
def TokenPlace.listed : TokenPlace → LexicalFrame
  | parameters _ found | type (.parameter _ found _) _ | type (.function _ found) _ | body found => found
  | _ => []

/-- All that is known of declarations by name. -/
def bindings (scopes : LexicalScopes) : LexicalFrame :=
  scopes.place.listed ++ (scopes.frames.flatten ++ scopes.uses.map fun use => (use.1.name, use.2))

/-- Whether a declaration has a name. -/
def Names (scopes : LexicalScopes) (entry : String × DeclId) : Prop :=
  ∃ token, scopes.declared[entry.2.index]? = some token ∧ token.name = entry.1

/-- Whether names are bound to declarations that have these names. -/
def Sound (scopes : LexicalScopes) : Prop := ∀ entry ∈ scopes.bindings, scopes.Names entry

theorem flatten_frames (scopes : LexicalScopes) :
    scopes.frames.flatten = scopes.innermost ++ scopes.frames.tail.flatten := by
  rw [innermost]
  cases scopes.frames <;> rfl

/-- What a name means is bound to it in some frame. -/
theorem mem_flatten_of_meaning {name : String} {id : DeclId} (found : scopes.meaning name = some id) :
    (name, id) ∈ scopes.frames.flatten := by
  obtain ⟨frame, member, bound⟩ := List.exists_of_findSome?_eq_some found
  obtain ⟨before, after, rfl, -⟩ := List.lookup_eq_some_iff.1 bound
  exact List.mem_flatten.2 ⟨_, member, by simp⟩

namespace Sound

theorem start : start.Sound := by
  intro entry member
  cases member

/-- Bindings stay sound as long as no other ones are added. -/
theorem of_subset (sound : scopes.Sound) (declared_eq : later.declared = scopes.declared)
    (known : later.bindings ⊆ scopes.bindings) : later.Sound := by
  intro entry member
  rw [Names, declared_eq]
  exact sound entry (known member)

/-- What is declared has its name. -/
theorem of_declared (sound : scopes.Sound) (declared_eq : later.declared = scopes.declared ++ [token])
    (known : later.bindings ⊆ (token.name, scopes.next) :: scopes.bindings) : later.Sound := by
  intro entry member
  obtain rfl | earlier := List.mem_cons.1 (known member)
  · refine ⟨token, ?_, rfl⟩
    rw [declared_eq]
    exact List.getElem?_concat_length
  · obtain ⟨token, found, name_eq⟩ := sound entry earlier
    refine ⟨token, ?_, name_eq⟩
    rw [declared_eq, List.getElem?_append_left (List.getElem?_eq_some_iff.1 found).1, found]

theorem declare (sound : scopes.Sound) (declared : scopes.declare token = .ok later)
    (place : TokenPlace) (listed : place.listed ⊆ scopes.place.listed) (own : Option DeclId) :
    Sound { later with place, own } := by
  rw [LexicalScopes.declare] at declared
  split at declared
  · cases declared
  · cases declared
    refine sound.of_declared rfl fun entry member => ?_
    simp only [bindings, flatten_frames scopes, List.flatten_cons, List.cons_append,
      List.mem_append, List.mem_cons] at member ⊢
    obtain placed | rfl | framed | used := member
    · exact .inr (.inl (listed placed))
    · exact .inl rfl
    · exact .inr (.inr (.inl framed))
    · exact .inr (.inr (.inr used))

theorem complete (sound : scopes.Sound) {declared : Declared} {depth : Nat}
    (place_eq : scopes.place = .type declared depth)
    (completed : scopes.complete declared = .ok later) : later.Sound := by
  cases declared with
  | object kind name =>
      rw [LexicalScopes.complete] at completed
      cases declares : scopes.declare name with
      | error fault =>
          rw [declares] at completed
          cases completed
      | ok after =>
          rw [declares] at completed
          cases completed
          exact sound.declare declares .code (List.nil_subset _) _
  | parameter function found name =>
      rw [LexicalScopes.complete] at completed
      split at completed
      · cases completed
      · cases completed
        refine sound.of_declared rfl fun entry member => ?_
        rw [bindings, place_eq]
        exact member
  | function name parameters =>
      rw [LexicalScopes.complete] at completed
      cases declares : scopes.declare name with
      | error fault =>
          rw [declares] at completed
          cases completed
      | ok after =>
          rw [declares] at completed
          cases completed
          refine sound.declare declares (.body parameters) ?_ after.own
          rw [place_eq]
          exact List.Subset.refl _

theorem use (sound : scopes.Sound) (used : scopes.use token = .ok later) : later.Sound := by
  rw [LexicalScopes.use] at used
  split at used
  · cases used
  · next id found =>
    split at used
    · cases used
    · cases used
      refine sound.of_subset rfl fun entry member => ?_
      have bound := mem_flatten_of_meaning found
      simp only [bindings, List.map_cons, List.mem_append, List.mem_cons] at member ⊢
      obtain listed | framed | rfl | used := member
      · exact .inl listed
      · exact .inr (.inl framed)
      · exact .inr (.inl bound)
      · exact .inr (.inr used)

/-- Bindings do not depend on where a token stands, up to the parameters found in front of it. -/
theorem moved (sound : scopes.Sound) {place : TokenPlace} (listed : place.listed ⊆ scopes.place.listed) :
    Sound { scopes with place } := by
  refine sound.of_subset rfl fun entry member => ?_
  simp only [bindings, List.mem_append] at member ⊢
  exact member.imp_left fun placed => listed placed

theorem readCode (sound : scopes.Sound) (read : scopes.readCode token = .ok later) : later.Sound := by
  unfold LexicalScopes.readCode at read
  split at read
  case h_5 =>
    -- The innermost frame ends.
    cases read
    refine sound.of_subset rfl fun entry member => ?_
    simp only [bindings, flatten_frames scopes, List.mem_append] at member ⊢
    exact member.imp_right fun known => known.imp_left .inr
  case h_7 => exact sound.use read
  all_goals
    cases read
    first | exact sound.moved (List.nil_subset _) | exact sound

theorem readType (sound : scopes.Sound) {declared : Declared} {depth : Nat}
    (place_eq : scopes.place = .type declared depth)
    (read : scopes.readType declared depth token = .ok later) : later.Sound := by
  have inside (depth : Nat) : Sound { scopes with place := .type declared depth } := by
    refine sound.moved ?_
    rw [place_eq]
    cases declared <;> exact List.Subset.refl _
  unfold LexicalScopes.readType at read
  split at read
  · exact sound.complete place_eq read
  · cases read
    exact inside _
  · cases read
    exact inside _
  · cases read
    exact sound

/-- Reading a token keeps names bound to declarations that have these names. -/
theorem read (sound : scopes.Sound) (read : scopes.read token = .ok later) : later.Sound := by
  unfold LexicalScopes.read at read
  split at read
  case h_1 => exact sound.readCode read
  case h_8 declared depth place_eq => exact sound.readType place_eq read
  case h_9 parameters place_eq =>
    cases read
    refine sound.of_subset rfl fun entry member => ?_
    simpa [bindings, place_eq, TokenPlace.listed] using member
  all_goals
    cases read
    first | exact sound | exact sound.moved (by simp [*, TokenPlace.listed])

theorem readAll {tokens : List Token} (sound : scopes.Sound) (read : scopes.readAll tokens = .ok later) :
    later.Sound := by
  induction tokens generalizing scopes with
  | nil =>
      cases read
      exact sound
  | cons token tokens induction =>
      obtain ⟨middle, first, others⟩ := readAll_cons_ok read
      exact induction (sound.read first) others

end Sound

/-! ## Uses -/

/-- Whether a token, outside of what introduces a declaration, uses a name that means a declaration, other
than the constant that is just introduced. -/
structure Uses (scopes : LexicalScopes) (token : Token) (id : DeclId) : Prop where
  /-- The token stands there. -/
  place_eq : scopes.place = .code
  /-- It is a name. -/
  kind_eq : token.kind = .identifier token.name
  /-- The name has this meaning. -/
  meaning_eq : scopes.meaning token.name = some id
  /-- The meaning is not what is just introduced. -/
  own_ne : scopes.own ≠ some id

theorem declare_uses (declared : scopes.declare token = .ok later) : later.uses = scopes.uses := by
  rw [declare] at declared
  split at declared <;> cases declared
  rfl

theorem complete_uses {declared : Declared} (completed : scopes.complete declared = .ok later) :
    later.uses = scopes.uses := by
  cases declared with
  | object kind name | function name parameters =>
      rw [complete] at completed
      cases declares : scopes.declare name with
      | error fault =>
          rw [declares] at completed
          cases completed
      | ok after =>
          rw [declares] at completed
          cases completed
          have uses_eq := declare_uses declares
          exact uses_eq
  | parameter function found name =>
      rw [complete] at completed
      split at completed <;> cases completed
      rfl

/-- A use that is added is one of the token that has been read. -/
theorem uses_of_read (read : scopes.read token = .ok later) {use : Token × DeclId}
    (member : use ∈ later.uses) :
    use ∈ scopes.uses ∨ use.1 = token ∧ scopes.Uses token use.2 := by
  unfold LexicalScopes.read at read
  split at read
  case h_1 _ _ place_eq =>
    unfold readCode at read
    split at read
    case h_7 _ name kind_eq =>
      rw [LexicalScopes.use] at read
      split at read
      · cases read
      · next id meaning_eq =>
        split at read
        · cases read
        · next own_ne =>
          cases read
          obtain rfl | earlier := List.mem_cons.1 member
          · refine .inr ⟨rfl, place_eq, ?_, meaning_eq, own_ne⟩
            rw [Token.name, kind_eq]
          · exact .inl earlier
    all_goals
      cases read
      exact .inl member
  case h_8 =>
    unfold readType at read
    split at read
    case h_1 => exact .inl (complete_uses read ▸ member)
    all_goals
      cases read
      exact .inl member
  all_goals
    cases read
    exact .inl member

/-- A use that is added has been read behind tokens that give the name its meaning. -/
theorem uses_of_readAll {tokens : List Token} (read : scopes.readAll tokens = .ok later) {token : Token}
    {id : DeclId} (member : (token, id) ∈ later.uses) :
    (token, id) ∈ scopes.uses ∨ ∃ before rest middle, tokens = before ++ token :: rest ∧
      scopes.readAll before = .ok middle ∧ middle.Uses token id := by
  induction tokens generalizing scopes with
  | nil =>
      cases read
      exact .inl member
  | cons first tokens induction =>
      obtain ⟨after, readFirst, readOthers⟩ := readAll_cons_ok read
      obtain earlier | ⟨before, rest, middle, rfl, readBefore, uses⟩ := induction readOthers
      · obtain earlier | ⟨rfl, uses⟩ := uses_of_read readFirst earlier
        · exact .inl earlier
        · exact .inr ⟨[], tokens, scopes, rfl, rfl, uses⟩
      · refine .inr ⟨first :: before, rest, middle, rfl, ?_, uses⟩
        rw [readAll_cons, readFirst]
        exact readBefore

end LexicalScopes

end Minilang
