import Mathlib.Data.List.Induction
import Mathlib.Data.Nat.Digits.Defs
import TableMigration.Proofs.Stores
import TableMigration.RowCount

/-!
# Counts in what a script prints

The last line that is not blank decides, and it must be a number of at most 64 bits, written in decimal.
Nothing that is printed before a line that is not blank makes a difference.
-/

namespace TableMigration

namespace Text

/-! ## Numbers in decimal -/

/-- Digits write a number, perhaps after a plus sign; any number of zeros may come first. -/
def WritesNumber (cs : List Char) (n : Nat) : Prop :=
  ∃ ds : List Nat, ds ≠ [] ∧ (∀ d ∈ ds, d < 10) ∧
    (cs = ds.map Nat.digitChar ∨ cs = '+' :: ds.map Nat.digitChar) ∧ n = Nat.ofDigits 10 ds.reverse

theorem digitChar_digit : ∀ d < 10, (Nat.digitChar d).isDigit = true ∧
    (Nat.digitChar d).toNat - '0'.toNat = d := by
  decide

theorem isDigit_iff {c : Char} : c.isDigit = true ↔ ∃ d < 10, c = Nat.digitChar d := by
  constructor
  · intro h
    have bounds : 48 ≤ c.toNat ∧ c.toNat ≤ 57 := by
      unfold Char.isDigit at h
      rw [Bool.and_eq_true, decide_eq_true_iff, decide_eq_true_iff] at h
      exact h
    have chars : ∀ d < 10, Char.ofNat (48 + d) = Nat.digitChar d := by decide
    refine ⟨c.toNat - 48, by omega, ?_⟩
    rw [← chars _ (by omega), Nat.add_sub_cancel' bounds.1, Char.ofNat_toNat]
  · rintro ⟨d, hd, rfl⟩
    exact (digitChar_digit d hd).1

theorem all_isDigit_iff {cs : List Char} :
    cs.all Char.isDigit = true ↔ ∃ ds : List Nat, (∀ d ∈ ds, d < 10) ∧ cs = ds.map Nat.digitChar := by
  induction cs with
  | nil => exact ⟨fun _ => ⟨[], by simp⟩, fun _ => rfl⟩
  | cons c cs ih =>
    rw [List.all_cons, Bool.and_eq_true, isDigit_iff, ih]
    constructor
    · rintro ⟨⟨d, hd, rfl⟩, ds, hds, rfl⟩
      exact ⟨d :: ds, List.forall_mem_cons.mpr ⟨hd, hds⟩, rfl⟩
    · rintro ⟨_ | ⟨d, ds⟩, hds, same⟩
      · cases same
      · obtain ⟨rfl, rfl⟩ := List.cons.inj same
        obtain ⟨hd, hds⟩ := List.forall_mem_cons.mp hds
        exact ⟨⟨d, hd, rfl⟩, ds, hds, rfl⟩

theorem digitsValue_map (ds : List Nat) : ∀ v, (∀ d ∈ ds, d < 10) →
    digitsValue v (ds.map Nat.digitChar) = v * 10 ^ ds.length + Nat.ofDigits 10 ds.reverse := by
  induction ds with
  | nil => intro v _; simp [digitsValue]
  | cons d ds ih =>
    intro v h
    obtain ⟨hd, hds⟩ := List.forall_mem_cons.mp h
    have step : digitsValue v ((d :: ds).map Nat.digitChar) =
        digitsValue (v * 10 + d) (ds.map Nat.digitChar) := by
      simp only [digitsValue, List.map_cons, List.foldl_cons, (digitChar_digit d hd).2]
    rw [step, ih _ hds, List.reverse_cons, Nat.ofDigits_append, List.length_reverse, Nat.ofDigits_singleton,
      List.length_cons]
    ring

theorem dropPlus_digits {ds : List Nat} (h : ∀ d ∈ ds, d < 10) :
    dropPlus (ds.map Nat.digitChar) = ds.map Nat.digitChar := by
  cases ds with
  | nil => rfl
  | cons d ds =>
    have digit := (digitChar_digit d (h d (by simp))).1
    have other : Nat.digitChar d ≠ '+' := fun plus => by simp [plus] at digit
    simp [dropPlus, other]

theorem dropPlus_eq (cs : List Char) : cs = dropPlus cs ∨ cs = '+' :: dropPlus cs := by
  cases cs with
  | nil => exact .inl rfl
  | cons c cs =>
    by_cases plus : c = '+'
    · exact .inr (by simp [dropPlus, plus])
    · exact .inl (by simp [dropPlus, plus])

theorem readUnsigned_of_digits {cs : List Char} {ds : List Nat} (ne : ds ≠ []) (h : ∀ d ∈ ds, d < 10)
    (same : dropPlus cs = ds.map Nat.digitChar) : readUnsigned cs =
      if Nat.ofDigits 10 ds.reverse < 2 ^ 64 then some (Nat.ofDigits 10 ds.reverse) else none := by
  have value := digitsValue_map ds 0 h
  rw [Nat.zero_mul, Nat.zero_add] at value
  have all : (ds.map Nat.digitChar).all Char.isDigit = true := all_isDigit_iff.mpr ⟨ds, h, rfl⟩
  simp only [readUnsigned, same, value, all, List.map_eq_nil_iff, ne, UInt64.size]
  rfl

theorem readUnsigned_eq_some_iff {cs : List Char} {n : Nat} :
    readUnsigned cs = some n ↔ WritesNumber cs n ∧ n < 2 ^ 64 := by
  constructor
  · intro h
    by_cases digits : dropPlus cs ≠ [] ∧ (dropPlus cs).all Char.isDigit = true
    · obtain ⟨ne, all⟩ := digits
      obtain ⟨ds, lt, same⟩ := all_isDigit_iff.mp all
      have ne' : ds ≠ [] := by
        rintro rfl
        exact ne same
      rw [readUnsigned_of_digits ne' lt same, Option.ite_none_right_eq_some, Option.some.injEq] at h
      obtain ⟨small, rfl⟩ := h
      exact ⟨⟨ds, ne', lt, same ▸ dropPlus_eq cs, rfl⟩, small⟩
    · have refused : readUnsigned cs = none := by
        unfold readUnsigned
        rw [if_pos]
        rw [not_and_or, not_not, Bool.not_eq_true] at digits
        rcases digits with empty | other
        · simp [empty]
        · simp [other]
      rw [refused] at h
      cases h
  · rintro ⟨⟨ds, ne, lt, written, rfl⟩, small⟩
    have same : dropPlus cs = ds.map Nat.digitChar := by
      rcases written with rfl | rfl
      · exact dropPlus_digits lt
      · rfl
    rw [readUnsigned_of_digits ne lt same, if_pos small]

/-! ## The last line -/

def LastLine (text line : String) : Prop :=
  ∃ before after, lines text = before ++ line :: after ∧ trim line ≠ "" ∧ ∀ l ∈ after, trim l = ""

theorem lines_break (x y : String) : ∃ before, lines (x ++ "\n" ++ y) = before ++ lines y := by
  have chars : (x ++ "\n" ++ y).toList = x.toList ++ '\n' :: y.toList := by simp
  refine ⟨(linesFrom [] (x.toList ++ ['\n'])).map String.ofList, ?_⟩
  unfold lines lineChars
  rw [chars, linesFrom_break, List.map_append]

theorem lastLine_or_blank (text : String) :
    (∃ line, LastLine text line) ∨ ∀ line ∈ lines text, trim line = "" := by
  suffices split : ∀ ls : List String, (∃ line before after, ls = before ++ line :: after ∧
      trim line ≠ "" ∧ ∀ l ∈ after, trim l = "") ∨ ∀ line ∈ ls, trim line = "" from split (lines text)
  intro ls
  induction ls using List.reverseRecOn with
  | nil => exact .inr (List.forall_mem_nil _)
  | append_singleton ls l ih =>
    by_cases blank : trim l = ""
    · rcases ih with ⟨line, before, after, rfl, filled, rest⟩ | all
      · refine .inl ⟨line, before, after ++ [l], by simp, filled, ?_⟩
        exact List.forall_mem_append.mpr ⟨rest, List.forall_mem_singleton.mpr blank⟩
      · exact .inr (List.forall_mem_append.mpr ⟨all, List.forall_mem_singleton.mpr blank⟩)
    · exact .inl ⟨l, ls, [], rfl, blank, List.forall_mem_nil _⟩

end Text

/-! ## Reading a count -/

section
open Text

theorem readRowCount_of_blank {output : String} (blank : ∀ line ∈ lines output, trim line = "") :
    readRowCount output = .error .noOutput := by
  have none : ((lines output).map trim).reverse.find? (· ≠ "") = none := by simpa using blank
  rw [readRowCount, none]

theorem readRowCount_of_lastLine {output line : String} (last : LastLine output line) :
    readRowCount output = (readUnsigned (trim line).toList).elim (.error (.notACount (trim line))) .ok := by
  obtain ⟨before, after, split, filled, blank⟩ := last
  have found : ((lines output).map trim).reverse.find? (· ≠ "") = some (trim line) := by
    have skipped : (after.map trim).reverse.find? (· ≠ "") = none := by simpa using blank
    rw [split, List.map_append, List.map_cons, List.reverse_append, List.reverse_cons, List.append_assoc,
      List.find?_append, skipped, Option.none_or]
    simp [filled]
  simp only [readRowCount, found]
  cases readUnsigned (trim line).toList <;> rfl

theorem readRowCount_eq_ok_iff {output : String} {n : Nat} : readRowCount output = .ok n ↔
    ∃ line, LastLine output line ∧ WritesNumber (trim line).toList n ∧ n < 2 ^ 64 := by
  constructor
  · intro read
    rcases lastLine_or_blank output with ⟨line, last⟩ | blank
    · refine ⟨line, last, readUnsigned_eq_some_iff.mp ?_⟩
      rw [readRowCount_of_lastLine last] at read
      cases number : readUnsigned (trim line).toList with
      | none => simp [number] at read
      | some m => simpa [number] using read
    · rw [readRowCount_of_blank blank] at read
      cases read
  · rintro ⟨line, last, number⟩
    rw [readRowCount_of_lastLine last, readUnsigned_eq_some_iff.mpr number, Option.elim_some]

theorem readRowCount_eq_noOutput_iff {output : String} :
    readRowCount output = .error .noOutput ↔ ∀ line ∈ lines output, trim line = "" := by
  refine ⟨fun read => ?_, readRowCount_of_blank⟩
  rcases lastLine_or_blank output with ⟨line, last⟩ | blank
  · rw [readRowCount_of_lastLine last] at read
    cases number : readUnsigned (trim line).toList <;> simp [number] at read
  · exact blank

theorem readRowCount_eq_notACount_iff {output text : String} :
    readRowCount output = .error (.notACount text) ↔
      ∃ line, LastLine output line ∧ text = trim line ∧ ∀ n, WritesNumber text.toList n → 2 ^ 64 ≤ n := by
  have unread : ∀ cs, readUnsigned cs = none ↔ ∀ n, WritesNumber cs n → 2 ^ 64 ≤ n := by
    intro cs
    rw [Option.eq_none_iff_forall_ne_some]
    refine forall_congr' fun n => ?_
    rw [ne_eq, readUnsigned_eq_some_iff, not_and, not_lt]
  constructor
  · intro read
    rcases lastLine_or_blank output with ⟨line, last⟩ | blank
    · refine ⟨line, last, ?_⟩
      rw [readRowCount_of_lastLine last] at read
      cases number : readUnsigned (trim line).toList with
      | some m => simp [number] at read
      | none =>
        obtain rfl : trim line = text := by simpa [number] using read
        exact ⟨rfl, (unread _).mp number⟩
    · rw [readRowCount_of_blank blank] at read
      cases read
  · rintro ⟨line, last, rfl, large⟩
    rw [readRowCount_of_lastLine last, (unread _).mpr large, Option.elim_none]

theorem readRowCount_break {y : String} (filled : ∃ line ∈ lines y, trim line ≠ "") (x : String) :
    readRowCount (x ++ "\n" ++ y) = readRowCount y := by
  rcases lastLine_or_blank y with ⟨line, last⟩ | blank
  · have later : LastLine (x ++ "\n" ++ y) line := by
      obtain ⟨before, after, split, rest⟩ := last
      obtain ⟨earlier, joined⟩ := lines_break x y
      exact ⟨earlier ++ before, after, by rw [joined, split, List.append_assoc], rest⟩
    rw [readRowCount_of_lastLine later, readRowCount_of_lastLine last]
  · obtain ⟨line, hl, filled⟩ := filled
    exact absurd (blank line hl) filled

/-- A count is read just if the last line that is not blank, trimmed, writes a number of at most 64 bits.
Else the text has no such line or the line is no count, and which of the two is told. -/
theorem count_on_last_line :
    (∀ output n, readRowCount output = .ok n ↔
      ∃ line, LastLine output line ∧ WritesNumber (trim line).toList n ∧ n < 2 ^ 64) ∧
    (∀ output, readRowCount output = .error .noOutput ↔ ∀ line ∈ lines output, trim line = "") ∧
    (∀ output text, readRowCount output = .error (.notACount text) ↔
      ∃ line, LastLine output line ∧ text = trim line ∧ ∀ n, WritesNumber text.toList n → 2 ^ 64 ≤ n) ∧
    ∀ x y, (∃ line ∈ lines y, trim line ≠ "") → readRowCount (x ++ "\n" ++ y) = readRowCount y := by
  refine ⟨?_, ?_, ?_, ?_⟩
  · intro output n
    exact readRowCount_eq_ok_iff
  · intro output
    exact readRowCount_eq_noOutput_iff
  · intro output text
    exact readRowCount_eq_notACount_iff
  · intro x y filled
    exact readRowCount_break filled x

theorem padded_count :
    (∃ line ∈ lines " +007\t\r\n \r\n", trim line ≠ "") ∧
      readRowCount ("OK\n8\r" ++ "\n" ++ " +007\t\r\n \r\n") = .ok 7 := by
  have filled : ∃ line ∈ lines " +007\t\r\n \r\n", trim line ≠ "" := by decide +kernel
  have seven : readRowCount " +007\t\r\n \r\n" = .ok 7 := by decide +kernel
  exact ⟨filled, (count_on_last_line.2.2.2 "OK\n8\r" _ filled).trans seven⟩

example : readRowCount "7\n0018446744073709551616\n" = .error (.notACount "0018446744073709551616") := by
  decide +kernel

end

end TableMigration
