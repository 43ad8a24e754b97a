import Minilang.Proofs.Parsing.Streams
import Minilang.Proofs.Token.LongestMatch

/-!
# Reading ahead

A buffer keeps the tokens that have been read ahead and not been consumed, and reads further ones only when
they are asked for. However looking ahead and consuming take turns, it answers what the stream of the text
answers, so no token is lost or read twice, and a fault in the text shows when the reading comes to it.
-/

namespace Minilang

/-- What can be asked of what has not been consumed. -/
inductive TokenRequest where
  /-- Look at the token at a distance. -/
  | lookahead (distance : Nat)
  /-- Consume the next token. -/
  | next

/-- The answers to requests one after another, up to the first fault. -/
def TokenRequest.answers {σ α : Type} (answer : TokenRequest → σ → Except Diagnostic (α × σ)) :
    List TokenRequest → σ → Except Diagnostic (List α)
  | [], _ => return []
  | request :: requests, state => do
    let (first, after) ← answer request state
    return first :: (← answers answer requests after)

/-- What a stream answers. -/
def TokenStream.answer : TokenRequest → TokenStream → Except Diagnostic (Token × TokenStream)
  | .lookahead distance, tokens => return (← tokens.lookahead distance, tokens)
  | .next, tokens => return (← tokens.lookahead 0, tokens.rest)

/-- Tokens that have been read ahead, and what reads the tokens behind them. -/
structure TokenBuffer where
  /-- What reads further tokens. -/
  scanner : Scanner
  /-- The tokens that have been read and not been consumed. -/
  pending : List Token

namespace TokenBuffer

/-- The buffer at the start of a text, into which nothing has been read. -/
def ofSource (source : Source) : TokenBuffer := ⟨.ofSource source, []⟩

/-- Read a number of tokens. -/
def fill : Nat → TokenBuffer → Except Diagnostic TokenBuffer
  | 0, buffer => return buffer
  | missing + 1, ⟨scanner, pending⟩ =>
    match scanner.scan with
    | (.ok token, after) => fill missing ⟨after, pending ++ [token]⟩
    | (.error error, _) => throw error

/-- What a buffer answers: tokens are read until there are enough, and then the one that is asked for is
taken from them, if it is there. -/
def answer : TokenRequest → TokenBuffer → Except Diagnostic (Option Token × TokenBuffer)
  | .lookahead distance, buffer => do
    let filled ← buffer.fill (distance + 1 - buffer.pending.length)
    return (filled.pending[distance]?, filled)
  | .next, buffer => do
    let filled ← buffer.fill (1 - buffer.pending.length)
    return (filled.pending.head?, { filled with pending := filled.pending.tail })

end TokenBuffer

namespace Scanner

/-- Whether a scan takes no character behind the next gap. -/
def Idle (scanner : Scanner) : Prop := (Lexeme.read scanner.skipGap.rest).length = 0

theorem advance_zero (scanner : Scanner) : scanner.advance 0 = scanner := rfl

/-- Behind a gap there is no other gap. -/
theorem skipGap_skipGap (scanner : Scanner) : scanner.skipGap.skipGap = scanner.skipGap := by
  obtain ⟨-, -, -, solid, -, -⟩ := scanner.scan_finds
  have no_gap : Lexeme.gapLength false scanner.skipGap.rest = 0 :=
    Lexeme.IsGap.gapLength_eq .nil solid
  rw [skipGap, no_gap, advance_zero]

/-- A scan that takes no character only skips the gap. -/
theorem Idle.scan_snd_eq {scanner : Scanner} (idle : scanner.Idle) :
    scanner.scan.2 = scanner.skipGap := by
  rw [scan, idle, advance_zero]

/-- What is found without taking a character is found again. -/
theorem Idle.scan_again {scanner : Scanner} (idle : scanner.Idle) :
    scanner.scan.2.scan = scanner.scan := by
  rw [idle.scan_snd_eq, scan, skipGap_skipGap]
  rfl

/-- Behind the end of input there is nothing but the end of input. -/
theorem scan_of_endOfInput {scanner after : Scanner} {last : Token}
    (scanned : scanner.scan = (.ok last, after)) (end_reached : last.kind = .endOfInput) :
    after.scan = (.ok last, after) := by
  have idle : scanner.Idle := by
    obtain ⟨-, is_gap⟩ | ⟨gap, lexeme, -, -, denotes, -⟩ := exists_of_scan scanned
    · rw [Idle, rest_skipGap_of_gap is_gap]
      rfl
    · exact absurd end_reached denotes.ne_endOfInput
  have again := idle.scan_again
  rwa [scanned] at again

end Scanner

namespace TokenStream

/-- Whether a stream is what a scanner reads. -/
inductive ReadBy : Scanner → TokenStream → Prop
  | token {scanner after : Scanner} {first : Token} {rest : TokenStream} :
      scanner.scan = (.ok first, after) → first.kind ≠ .endOfInput → ReadBy after rest →
      ReadBy scanner (.token first rest)
  | finished {scanner after : Scanner} {last : Token} :
      scanner.scan = (.ok last, after) → last.kind = .endOfInput → ReadBy scanner (.finished last)
  | failed {scanner after : Scanner} {error : Diagnostic} :
      scanner.scan = (.error error, after) → ReadBy scanner (.failed error)

namespace ReadBy

variable {scanner after : Scanner} {tokens : TokenStream}

/-- A token that is read is the next one, and what is read behind it is the rest. -/
theorem scan_ok (readBy : ReadBy scanner tokens) {token : Token}
    (scanned : scanner.scan = (.ok token, after)) :
    tokens.lookahead 0 = .ok token ∧ ReadBy after tokens.rest := by
  cases readBy with
  | token first _ rest =>
      cases first.symm.trans scanned
      exact ⟨rfl, rest⟩
  | finished last end_reached =>
      cases last.symm.trans scanned
      exact ⟨rfl, .finished (Scanner.scan_of_endOfInput scanned end_reached) end_reached⟩
  | failed failed => cases failed.symm.trans scanned

/-- A fault is all that is left to be read. -/
theorem scan_error (readBy : ReadBy scanner tokens) {error : Diagnostic}
    (scanned : scanner.scan = (.error error, after)) : tokens = .failed error := by
  cases readBy with
  | token first => cases first.symm.trans scanned
  | finished last => cases last.symm.trans scanned
  | failed failed =>
      cases failed.symm.trans scanned
      rfl

end ReadBy

/-- With enough fuel all that a scanner reads is read. -/
theorem readBy_readWithin {fuel : Nat} {scanner : Scanner} (enough : scanner.rest.length < fuel) :
    ReadBy scanner (readWithin fuel scanner) := by
  induction fuel generalizing scanner with
  | zero => exact absurd enough (Nat.not_lt_zero _)
  | succ fuel induction =>
      rw [readWithin]
      split
      · next error after scanned => exact .failed scanned
      · next token after scanned =>
        split
        · next end_reached => exact .finished scanned end_reached
        · next more =>
          have shorter := Scanner.length_rest_scan_lt scanned more
          exact .token scanned more (induction (by omega))

theorem readBy_ofSource (source : Source) : ReadBy (.ofSource source) (ofSource source) :=
  readBy_readWithin (Nat.lt_succ_self _)

end TokenStream

namespace TokenBuffer

open TokenStream (ReadBy)

/-- Whether a stream is what is pending and what will be read behind it. -/
inductive Shows : TokenBuffer → TokenStream → Prop
  | read {scanner : Scanner} {tokens : TokenStream} :
      ReadBy scanner tokens → Shows ⟨scanner, []⟩ tokens
  | pending {scanner : Scanner} {first : Token} {pending : List Token} {tokens : TokenStream} :
      tokens.lookahead 0 = .ok first → Shows ⟨scanner, pending⟩ tokens.rest →
      Shows ⟨scanner, first :: pending⟩ tokens

variable {scanner after : Scanner} {pending : List Token} {tokens : TokenStream}

namespace Shows

/-- Tokens are put behind those that are pending. -/
theorem scan_ok {token : Token} (shows' : Shows ⟨scanner, pending⟩ tokens)
    (scanned : scanner.scan = (.ok token, after)) :
    Shows ⟨after, pending ++ [token]⟩ tokens := by
  induction pending generalizing tokens with
  | nil =>
      cases shows' with
      | read readBy =>
          obtain ⟨found, rest⟩ := readBy.scan_ok scanned
          exact .pending found (.read rest)
  | cons first pending induction =>
      cases shows' with
      | pending found rest => exact .pending found (induction rest)

/-- A fault stands behind the tokens that are pending. -/
theorem scan_error {error : Diagnostic} (shows' : Shows ⟨scanner, pending⟩ tokens)
    (scanned : scanner.scan = (.error error, after)) {distance : Nat}
    (beyond : pending.length ≤ distance) : tokens.lookahead distance = .error error := by
  induction pending generalizing tokens distance with
  | nil =>
      cases shows' with
      | read readBy =>
          rw [readBy.scan_error scanned]
          rfl
  | cons first pending induction =>
      cases shows' with
      | pending found rest =>
          cases distance with
          | zero => exact absurd beyond (Nat.not_succ_le_zero _)
          | succ distance =>
              rw [← TokenStream.lookahead_rest]
              exact induction rest (Nat.le_of_succ_le_succ beyond)

/-- The tokens that are pending are the next ones. -/
theorem lookahead_eq (shows' : Shows ⟨scanner, pending⟩ tokens) {distance : Nat}
    (bound : distance < pending.length) : tokens.lookahead distance = .ok pending[distance] := by
  induction pending generalizing tokens distance with
  | nil => exact absurd bound (Nat.not_lt_zero _)
  | cons first pending induction =>
      cases shows' with
      | pending found rest =>
          cases distance with
          | zero => exact found
          | succ distance =>
              rw [← TokenStream.lookahead_rest]
              exact induction rest (Nat.lt_of_succ_lt_succ bound)

end Shows

/-- Filling a buffer does not change what it shows. It fails where a token is asked for in front of which
there is a fault. -/
theorem fill_shows {buffer : TokenBuffer} (shows' : buffer.Shows tokens) (missing : Nat) :
    match buffer.fill missing with
    | .ok filled => filled.Shows tokens ∧
        filled.pending.length = buffer.pending.length + missing
    | .error error => 0 < missing ∧ ∀ distance, buffer.pending.length + missing = distance + 1 →
        tokens.lookahead distance = .error error := by
  induction missing generalizing buffer with
  | zero => exact ⟨shows', rfl⟩
  | succ missing induction =>
      obtain ⟨scanner, pending⟩ := buffer
      rw [fill]
      cases scanned : scanner.scan with
      | mk outcome after =>
          cases outcome with
          | ok token =>
              have filled := induction (shows'.scan_ok scanned)
              rw [List.length_append, List.length_singleton, Nat.add_assoc, Nat.add_comm 1] at filled
              dsimp only
              split at filled
              · exact filled
              · exact ⟨Nat.succ_pos _, filled.2⟩
          | error error =>
              refine ⟨Nat.succ_pos _, fun distance distance_eq => shows'.scan_error scanned ?_⟩
              change pending.length + (missing + 1) = distance + 1 at distance_eq
              omega

/-- A buffer is filled up to the token at a distance, if that can be read. -/
theorem fill_upTo {buffer : TokenBuffer} (shows' : buffer.Shows tokens) (distance : Nat) :
    match buffer.fill (distance + 1 - buffer.pending.length) with
    | .ok filled => filled.Shows tokens ∧ ∃ token, filled.pending[distance]? = some token ∧
        tokens.lookahead distance = .ok token
    | .error error => tokens.lookahead distance = .error error := by
  have filled := fill_shows shows' (distance + 1 - buffer.pending.length)
  split at filled
  · next later _ =>
    obtain ⟨shows_later, length_eq⟩ := filled
    have bound : distance < later.pending.length := by omega
    exact ⟨shows_later, _, List.getElem?_eq_getElem bound, shows_later.lookahead_eq bound⟩
  · obtain ⟨missing, failed⟩ := filled
    exact failed distance (by omega)

/-- A buffer answers what the stream answers, and then shows what is left of the stream. -/
theorem answer_shows {buffer : TokenBuffer} (shows' : buffer.Shows tokens)
    (request : TokenRequest) :
    match tokens.answer request with
    | .ok (token, rest) => ∃ later, buffer.answer request = .ok (some token, later) ∧
        later.Shows rest
    | .error error => buffer.answer request = .error error := by
  cases request with
  | lookahead distance =>
      have filled := fill_upTo shows' distance
      rw [TokenStream.answer, answer]
      split at filled
      · next later run =>
        obtain ⟨shows_later, token, pending_eq, found⟩ := filled
        rw [found, run]
        exact ⟨later, congrArg (fun token => Except.ok (token, later)) pending_eq, shows_later⟩
      · next error run =>
        rw [filled, run]
        rfl
  | next =>
      have filled := fill_upTo shows' 0
      rw [TokenStream.answer, answer]
      split at filled
      · next later run =>
        obtain ⟨shows_later, token, pending_eq, found⟩ := filled
        rw [Nat.zero_add] at run
        rw [found, run]
        obtain ⟨scanner, pending⟩ := later
        cases shows_later with
        | read => cases pending_eq
        | pending found_first rest =>
            cases pending_eq
            exact ⟨_, rfl, rest⟩
      · next error run =>
        rw [Nat.zero_add] at run
        rw [filled, run]
        rfl

/-- However looking ahead and consuming take turns, a buffer answers what the stream of the text
answers. -/
theorem answers_eq {buffer : TokenBuffer} (shows' : buffer.Shows tokens)
    (requests : List TokenRequest) :
    TokenRequest.answers answer requests buffer =
      (TokenRequest.answers TokenStream.answer requests tokens).map (List.map some) := by
  induction requests generalizing buffer tokens with
  | nil => rfl
  | cons request requests induction =>
      have answered := answer_shows shows' request
      rw [TokenRequest.answers, TokenRequest.answers]
      cases found : tokens.answer request with
      | error error =>
          rw [found] at answered
          dsimp only at answered
          rw [answered]
          rfl
      | ok outcome =>
          obtain ⟨token, rest⟩ := outcome
          rw [found] at answered
          obtain ⟨later, answered, shows_rest⟩ := answered
          rw [answered]
          change (TokenRequest.answers answer requests later).map (some token :: ·) =
            ((TokenRequest.answers TokenStream.answer requests rest).map (token :: ·)).map _
          rw [induction shows_rest]
          cases TokenRequest.answers TokenStream.answer requests rest <;> rfl

theorem shows_ofSource (source : Source) : (ofSource source).Shows (.ofSource source) :=
  .read (TokenStream.readBy_ofSource source)

end TokenBuffer

end Minilang
