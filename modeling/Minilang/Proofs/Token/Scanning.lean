import Minilang.Proofs.Parsing.LazyReading
import Minilang.Proofs.Token.Places

/-!
# Scanning on and on

A scanner can be asked for tokens again and again, also behind a fault and behind the end of input. Whatever
it has been through, it stands where the text that it has taken ends, and what it finds next is located where
the next lexeme starts.
-/

namespace Minilang

namespace Position

/-- The place behind a text, counted on the text: a line for each newline, and a column for each character
behind the last of them. -/
def behind (text : List Char) : Position :=
  ⟨1 + text.count '\n', 1 + (text.reverse.takeWhile (· ≠ '\n')).length⟩

/-- Going through a text character by character leads to the place behind it. -/
theorem start_afterText (text : List Char) : start.afterText text = behind text := by
  induction text using List.reverseRecOn with
  | nil => rfl
  | append_singleton text character induction =>
      rw [afterText_append, induction, afterText_cons, afterText_nil, after, behind, behind]
      by_cases newline : character = '\n'
      · subst newline
        simp [Nat.add_assoc]
      · simp [newline, Nat.add_comm]

end Position

/-- Where an outcome of scanning is located. -/
def foundAt? : Except Diagnostic Token → Option Location
  | .ok token => some token.location
  | .error error => error.location?

namespace Scanner

open Lexeme

variable {source : Source} {scanner : Scanner} {consumed : List Char}

/-! ## Scanning a number of times -/

/-- What a scanner is after a number of scans, whatever they found. -/
def afterScans (scanner : Scanner) : Nat → Scanner
  | 0 => scanner
  | count + 1 => (scanner.afterScans count).scan.2

/-- What a scanner finds after a number of scans. -/
def found (scanner : Scanner) (count : Nat) : Except Diagnostic Token :=
  (scanner.afterScans count).scan.1

/-- Whether a scanner stands in a text behind the characters that have been consumed. -/
structure StandsBehind (scanner : Scanner) (source : Source) (consumed : List Char) : Prop where
  /-- The locations are in the file of the text. -/
  file_eq : scanner.file = source.name
  /-- What is left is the rest of the text. -/
  text_eq : source.text.toList = consumed ++ scanner.rest
  /-- The place is the one behind what has been consumed. -/
  position_eq : scanner.position = .behind consumed

theorem standsBehind_ofSource (source : Source) : (ofSource source).StandsBehind source [] :=
  ⟨rfl, rfl, rfl⟩

theorem StandsBehind.advance (stands : scanner.StandsBehind source consumed) (count : Nat) :
    (scanner.advance count).StandsBehind source (consumed ++ scanner.rest.take count) where
  file_eq := stands.file_eq
  text_eq := by
    rw [Scanner.advance, stands.text_eq, List.append_assoc, List.take_append_drop]
  position_eq := by
    rw [Scanner.advance, stands.position_eq, ← Position.start_afterText, ← Position.start_afterText,
      Position.afterText_append]

/-- A scan consumes characters and nothing else, whether it finds a token or a fault. -/
theorem StandsBehind.scan (stands : scanner.StandsBehind source consumed) :
    ∃ more, scanner.scan.2.StandsBehind source (consumed ++ more) := by
  have behind_gap := stands.advance (gapLength false scanner.rest)
  have behind_lexeme := behind_gap.advance (read scanner.skipGap.rest).length
  rw [List.append_assoc] at behind_lexeme
  exact ⟨_, behind_lexeme⟩

/-- After any number of scans a scanner stands somewhere in its text. -/
theorem exists_standsBehind (source : Source) (count : Nat) :
    ∃ consumed, ((ofSource source).afterScans count).StandsBehind source consumed := by
  -- The invariant does not say what the scans found, so that faults are no case of their own.
  induction count with
  | zero => exact ⟨[], standsBehind_ofSource source⟩
  | succ count induction =>
      obtain ⟨consumed, stands⟩ := induction
      obtain ⟨more, stands⟩ := stands.scan
      exact ⟨consumed ++ more, stands⟩

/-! ## What is found, in order -/

theorem Finds.foundAt?_eq {location : Location} {rest : List Char}
    {scanned : Except Diagnostic Token × Scanner} (finds : Finds location rest scanned) :
    foundAt? scanned.1 = some location := by
  cases finds <;> rfl

/-- What is found is located behind the gap in front of it. -/
theorem foundAt?_found (scanner : Scanner) (count : Nat) :
    foundAt? (scanner.found count) = some (scanner.afterScans count).skipGap.location := by
  obtain ⟨-, -, -, -, -, finds⟩ := (scanner.afterScans count).scan_finds
  exact finds.foundAt?_eq

/-- Whether a scanner reads the file of another one from the same place or from one behind it. -/
def GoesOn (scanner later : Scanner) : Prop :=
  later.file = scanner.file ∧
    (later.position = scanner.position ∨ scanner.position.Before later.position)

theorem GoesOn.trans {middle later : Scanner} (first : scanner.GoesOn middle)
    (second : middle.GoesOn later) : scanner.GoesOn later := by
  obtain ⟨file_eq, reached⟩ := first
  obtain ⟨later_file_eq, later_reached⟩ := second
  refine ⟨later_file_eq.trans file_eq, ?_⟩
  obtain same | before := later_reached
  · rwa [same]
  · obtain same | earlier := reached
    · exact .inr (same ▸ before)
    · exact .inr (earlier.trans before)

theorem GoesOn.before {middle later : Scanner} (goes_on : middle.GoesOn later)
    (file_eq : middle.file = scanner.file) (before : scanner.position.Before middle.position) :
    scanner.location.Before later.location := by
  refine ⟨scanner.file, _, _, rfl, by rw [location, goes_on.1, file_eq], ?_⟩
  obtain same | further := goes_on.2
  · rwa [same]
  · exact before.trans further

theorem goesOn_advance (scanner : Scanner) (count : Nat) : scanner.GoesOn (scanner.advance count) :=
  ⟨rfl, scanner.advance_position count⟩

theorem goesOn_skipGap (scanner : Scanner) : scanner.GoesOn scanner.skipGap :=
  scanner.goesOn_advance _

theorem skipGap_goesOn_scan (scanner : Scanner) : scanner.skipGap.GoesOn scanner.scan.2 :=
  scanner.skipGap.goesOn_advance _

/-- Scanning leads on, from where one lexeme starts to where a later one does. -/
theorem scan_goesOn_afterScans (scanner : Scanner) (earlier more : Nat) :
    (scanner.afterScans earlier).scan.2.GoesOn (scanner.afterScans (earlier + 1 + more)).skipGap := by
  induction more with
  | zero => exact goesOn_skipGap _
  | succ more induction =>
      exact (induction.trans (skipGap_goesOn_scan _)).trans (goesOn_skipGap _)

end Scanner

open Lexeme Scanner

/-- After any number of scans, also where some of them found faults, what is found is located where the next
lexeme starts, counted on the text in front of it, or at the end of the text. The places never go back, and
what is found behind a token stands behind the place of this token. -/
theorem scans_located (source : Source) :
    (∀ count, ∃ consumed gap rest, source.text.toList = consumed ++ (gap ++ rest) ∧
      ((ofSource source).afterScans count).rest = gap ++ rest ∧ IsGap gap rest ∧ Solid rest ∧
      Finds (.inFile source.name (.behind (consumed ++ gap))) rest
        ((ofSource source).afterScans count).scan) ∧
    ∀ earlier later, earlier < later → ∃ place laterPlace,
      foundAt? ((ofSource source).found earlier) = some place ∧
      foundAt? ((ofSource source).found later) = some laterPlace ∧
      (laterPlace = place ∨ place.Before laterPlace) ∧
      ∀ token, (ofSource source).found earlier = .ok token → token.kind ≠ .endOfInput →
        place.Before laterPlace := by
  refine ⟨fun count => ?_, fun earlier later lt => ?_⟩
  · obtain ⟨consumed, stands⟩ := exists_standsBehind source count
    obtain ⟨gap, rest_eq, is_gap, solid, position_eq, finds⟩ :=
      ((ofSource source).afterScans count).scan_finds
    refine ⟨consumed, gap, _, by rw [stands.text_eq, rest_eq], rest_eq, is_gap, solid, ?_⟩
    rwa [location, position_eq, stands.position_eq, ← Position.start_afterText,
      ← Position.afterText_append, Position.start_afterText,
      show ((ofSource source).afterScans count).skipGap.file = source.name from stands.file_eq]
      at finds
  · obtain ⟨more, rfl⟩ := Nat.exists_eq_add_of_lt lt
    rw [Nat.add_right_comm]
    have goes_on := (ofSource source).scan_goesOn_afterScans earlier more
    refine ⟨_, _, foundAt?_found _ _, foundAt?_found _ _, ?_, fun token scanned solid => ?_⟩
    · obtain ⟨file_eq, same | before⟩ := (skipGap_goesOn_scan _).trans goes_on
      · exact .inl (by rw [location, location, file_eq, same])
      · exact .inr ⟨_, _, _, rfl, by rw [location, file_eq], before⟩
    · obtain ⟨-, file_eq, before⟩ := before_of_scan (Prod.ext scanned rfl) solid
      exact goes_on.before file_eq before

/-- A character that is broken off at a newline behind its backslash, and a name in the next line. -/
def brokenEscape : Source := ⟨"t", "'\\\n x"⟩

theorem scans_located_of_brokenEscape :
    (ofSource brokenEscape).found 0 = .error (.lexical (.inFile "t" ⟨1, 1⟩) .newlineInLiteral) ∧
      (ofSource brokenEscape).found 1 = .ok ⟨.identifier "x", .inFile "t" ⟨2, 2⟩⟩ ∧
      foundAt? ((ofSource brokenEscape).found 2) = some (.inFile "t" ⟨2, 3⟩) ∧
      (Location.inFile "t" ⟨2, 2⟩).Before (.inFile "t" ⟨2, 3⟩) := by
  have broken : (ofSource brokenEscape).found 0 =
      .error (.lexical (.inFile "t" ⟨1, 1⟩) .newlineInLiteral) := by decide +kernel
  have named : (ofSource brokenEscape).found 1 = .ok ⟨.identifier "x", .inFile "t" ⟨2, 2⟩⟩ := by
    decide +kernel
  have ended : (ofSource brokenEscape).found 2 = .ok ⟨.endOfInput, .inFile "t" ⟨2, 3⟩⟩ := by
    decide +kernel
  obtain ⟨place, laterPlace, found_place, found_later, -, before⟩ :=
    (scans_located brokenEscape).2 1 2 (by decide)
  rw [named] at found_place
  rw [ended] at found_later
  cases found_place
  cases found_later
  exact ⟨broken, named, by rw [ended]; rfl, before _ named (by decide)⟩

end Minilang
