import Minilang.Proofs.Token.Scanning

/-!
# Progress of scanning

Every scan takes a character of the text, until one finds the end of input or a character that no token
starts with. That is found again in the same place however often it is asked for, so that scanning comes to
rest after as many scans as there are characters, faults among them or not.
-/

namespace Minilang

/-- Whether an outcome of scanning is the end of input or a character that no token starts with. -/
inductive Settles : Except Diagnostic Token → Prop
  | endOfInput (location : Location) : Settles (.ok ⟨.endOfInput, location⟩)
  | invalidCharacter (location : Location) (character : Char) :
      Settles (.error (.lexical location (.invalidCharacter character)))

namespace Scanner

open Lexeme

variable {scanner : Scanner} {count : Nat}

/-! ## Scans that take no character -/

theorem Idle.settles (idle : scanner.Idle) : Settles scanner.scan.1 := by
  rw [scan]
  rw [Idle] at idle
  cases rest_eq : scanner.skipGap.rest with
  | nil => exact .endOfInput _
  | cons first rest =>
      obtain takes | refused := read_length_pos_or first rest
      · rw [rest_eq] at idle
        exact absurd idle (Nat.ne_of_gt takes)
      · rw [refused]
        exact .invalidCharacter _ _

theorem Idle.next (idle : scanner.Idle) : scanner.scan.2.Idle := by
  rwa [idle.scan_snd_eq, Idle, skipGap_skipGap]

/-- From a scan that takes no character on, all scans are alike. -/
theorem Idle.scan_afterScans (idle : (scanner.afterScans count).Idle) (more : Nat) :
    (scanner.afterScans (count + more)).Idle ∧
      (scanner.afterScans (count + more)).scan = (scanner.afterScans count).scan := by
  induction more with
  | zero => exact ⟨idle, rfl⟩
  | succ more induction =>
      obtain ⟨still_idle, same⟩ := induction
      exact ⟨still_idle.next, still_idle.scan_again.trans same⟩

/-! ## Scans that take characters -/

theorem length_afterScans_succ_lt (takes : ¬ (scanner.afterScans count).Idle) :
    (scanner.afterScans (count + 1)).rest.length < (scanner.afterScans count).rest.length :=
  length_rest_scan_lt_of_takes (Nat.pos_of_ne_zero takes)

/-- A text has as many characters at least as there are scans that take some. -/
theorem length_afterScans_add_le (takes : ∀ earlier < count, ¬ (scanner.afterScans earlier).Idle) :
    (scanner.afterScans count).rest.length + count ≤ scanner.rest.length := by
  induction count with
  | zero => exact Nat.le_refl _
  | succ count induction =>
      have shorter := length_afterScans_succ_lt (takes count (Nat.lt_succ_self _))
      have before := induction fun earlier lt => takes earlier (Nat.lt_succ_of_lt lt)
      omega

/-- Scanning comes to rest after as many scans as there are characters. -/
theorem exists_idle (scanner : Scanner) :
    ∃ settled ≤ scanner.rest.length, (scanner.afterScans settled).Idle ∧
      ∀ earlier < settled, ¬ (scanner.afterScans earlier).Idle := by
  classical
  have some_idle : ∃ count, (scanner.afterScans count).Idle := by
    by_contra none_idle
    have endless := not_exists.1 none_idle
    have taken : (scanner.afterScans (scanner.rest.length + 1)).rest.length +
        (scanner.rest.length + 1) ≤ scanner.rest.length :=
      length_afterScans_add_le fun earlier _ => endless earlier
    omega
  have takes : ∀ earlier < Nat.find some_idle, ¬ (scanner.afterScans earlier).Idle :=
    fun earlier lt => Nat.find_min some_idle lt
  have taken := length_afterScans_add_le takes
  exact ⟨Nat.find some_idle, by omega, Nat.find_spec some_idle, takes⟩

/-- A scan that shortens what is left has gone over characters of the text. -/
theorem StandsBehind.ne_nil {source : Source} {later : Scanner} {consumed more : List Char}
    (stands : scanner.StandsBehind source consumed)
    (later_stands : later.StandsBehind source (consumed ++ more))
    (shorter : later.rest.length < scanner.rest.length) : more ≠ [] := by
  rintro rfl
  have same := stands.text_eq.symm.trans later_stands.text_eq
  rw [List.append_nil, List.append_cancel_left_eq] at same
  exact absurd (congrArg List.length same) (Nat.ne_of_gt shorter)

end Scanner

open Scanner

/-- No scan goes back behind what has been taken, whatever it finds. Up to some scan, before which there are no
more scans than characters, each one takes a character at least. That scan finds the end of input or a
character that no token starts with, and all scans behind it find the same in the same place. -/
theorem scans_settle (source : Source) :
    ∃ settled ≤ source.text.length,
      (∀ count, ∃ consumed more,
        ((ofSource source).afterScans count).StandsBehind source consumed ∧
        ((ofSource source).afterScans (count + 1)).StandsBehind source (consumed ++ more) ∧
        (count < settled → more ≠ [])) ∧
      Settles ((ofSource source).found settled) ∧
      ∀ later, settled ≤ later →
        (ofSource source).found later = (ofSource source).found settled := by
  -- The scan that comes to rest is the first one that takes no character.
  obtain ⟨settled, settled_le, idle, takes⟩ := (ofSource source).exists_idle
  refine ⟨settled, ?_, fun count => ?_, idle.settles, fun later le => ?_⟩
  · rwa [← String.length_toList]
  · obtain ⟨consumed, stands⟩ := exists_standsBehind source count
    obtain ⟨more, later_stands⟩ := stands.scan
    refine ⟨consumed, more, stands, later_stands, fun lt => ?_⟩
    exact stands.ne_nil later_stands (length_afterScans_succ_lt (takes count lt))
  · obtain ⟨more, rfl⟩ := Nat.exists_eq_add_of_le le
    exact congrArg Prod.fst (idle.scan_afterScans more).2

/-- A number and a character that break off, and a sign that no token starts with, in front of a name. -/
def brokenLexemes : Source := ⟨"t", "0x '\\q $ a"⟩

/-- The name behind the sign is never found. -/
theorem scans_settle_of_brokenLexemes :
    (ofSource brokenLexemes).found 0 =
        .error (.lexical (.inFile "t" ⟨1, 1⟩) (.missingDigits .hexadecimal)) ∧
      (ofSource brokenLexemes).found 1 =
        .error (.lexical (.inFile "t" ⟨1, 4⟩) (.invalidEscape 'q')) ∧
      ∀ later, 10 ≤ later → (ofSource brokenLexemes).found later =
        .error (.lexical (.inFile "t" ⟨1, 8⟩) (.invalidCharacter '$')) := by
  have refused : (ofSource brokenLexemes).found 10 =
      .error (.lexical (.inFile "t" ⟨1, 8⟩) (.invalidCharacter '$')) := by
    decide +kernel
  obtain ⟨settled, settled_le, -, -, same⟩ := scans_settle brokenLexemes
  have within : settled ≤ 10 := settled_le.trans (by decide +kernel)
  refine ⟨by decide +kernel, by decide +kernel, fun later le => ?_⟩
  rw [same later (within.trans le), ← same 10 within, refused]

end Minilang
