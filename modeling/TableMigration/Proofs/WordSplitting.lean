import Mathlib.Data.List.Basic
import TableMigration.Script.Run
import TableMigration.Shell.Reader

/-!
# Words of a command line

Between single quotes every character stands for itself, a backslash outside quotes does that for the
character after it, blanks outside quotes end words, and pieces that touch make one word. Splitting the
command line of a script by these rules gives the words of the command and one more, which is the path of
the script; no character of the path stands outside quotes without a backslash.
-/

namespace TableMigration.Shell

/-! ## Splitting -/

inductive Standing
  | outside
  | inQuotes
  | behindBackslash
  deriving DecidableEq, Repr

/-- Splits a text behind what has been read of a word, if a word has begun. Fails where quotes are left
open, or nothing follows a backslash. -/
def splitFrom : Standing → Option Word → List Char → Option (List Word)
  | .outside, word, [] => some word.toList
  | .inQuotes, _, [] => none
  | .behindBackslash, _, [] => none
  | .outside, word, c :: cs =>
    if c = '\'' then splitFrom .inQuotes (some (word.getD [] ++ [.quotes])) cs
    else if c = '\\' then splitFrom .behindBackslash word cs
    else if isBlank c then (splitFrom .outside none cs).map (word.toList ++ ·)
    else splitFrom .outside (some (word.getD [] ++ [.bare c])) cs
  | .inQuotes, word, c :: cs =>
    if c = '\'' then splitFrom .outside word cs
    else splitFrom .inQuotes (some (word.getD [] ++ [.literal c])) cs
  | .behindBackslash, word, c :: cs => splitFrom .outside (some (word.getD [] ++ [.literal c])) cs

def splitWords (text : List Char) : Option (List Word) :=
  splitFrom .outside none text

def isPlain (c : Char) : Bool :=
  !isBlank c && !isOperator c && !(['\'', '\\', '"', '$', '`'].contains c)

/-- A text from which a shell reads a word, or a part of one. -/
inductive Spells : List Char → Word → Prop
  | nil : Spells [] []
  | bare {c : Char} {cs : List Char} {w : Word} (plain : isPlain c = true) (rest : Spells cs w) :
      Spells (c :: cs) (.bare c :: w)
  | escaped {c : Char} {cs : List Char} {w : Word} (joins : c ≠ '\n') (rest : Spells cs w) :
      Spells ('\\' :: c :: cs) (.literal c :: w)
  | quoted {q cs : List Char} {w : Word} (closed : '\'' ∉ q) (rest : Spells cs w) :
      Spells ('\'' :: q ++ '\'' :: cs) (.quotes :: q.map .literal ++ w)

def EndsWord (rest : List Char) : Prop :=
  ∀ c, rest.head? = some c → isBlank c = true

inductive Splits : List Char → List Word → Prop
  | nil : Splits [] []
  | blank {c : Char} {cs : List Char} {ws : List Word} (blank : isBlank c = true) (rest : Splits cs ws) :
      Splits (c :: cs) ws
  | word {cs rest : List Char} {w : Word} {ws : List Word} (spelled : Spells cs w) (filled : cs ≠ [])
      (ends : EndsWord rest) (later : Splits rest ws) : Splits (cs ++ rest) (w :: ws)

theorem isPlain_iff {c : Char} : isPlain c = true ↔ isBlank c = false ∧ isOperator c = false ∧
    c ≠ '\'' ∧ c ≠ '\\' ∧ c ≠ '"' ∧ c ≠ '$' ∧ c ≠ '`' := by
  simp [isPlain, and_assoc]

theorem Spells.not_blank {c : Char} {cs : List Char} {w : Word} (h : Spells (c :: cs) w) :
    isBlank c = false := by
  cases h with
  | bare plain => exact (isPlain_iff.mp plain).1
  | escaped => rfl
  | quoted => rfl

theorem splitFrom_quoted {q : List Char} (closed : '\'' ∉ q) (v : Word) (rest : List Char) :
    splitFrom .inQuotes (some v) (q ++ '\'' :: rest) =
      splitFrom .outside (some (v ++ q.map .literal)) rest := by
  induction q generalizing v with
  | nil => simp [splitFrom]
  | cons c q ih =>
    rw [List.mem_cons, not_or] at closed
    rw [List.cons_append, splitFrom, if_neg (Ne.symm closed.1), ih closed.2]
    simp

theorem splitFrom_spells {cs : List Char} {w : Word} (h : Spells cs w) : ∀ (v : Word) (rest : List Char),
    splitFrom .outside (some v) (cs ++ rest) = splitFrom .outside (some (v ++ w)) rest := by
  induction h with
  | nil => intro v rest; simp
  | @bare c cs w plain _ ih =>
    intro v rest
    obtain ⟨blank, -, quote, backslash, -⟩ := isPlain_iff.mp plain
    rw [List.cons_append, splitFrom, if_neg quote, if_neg backslash, if_neg (by simp [blank]), ih]
    simp
  | escaped _ _ ih =>
    intro v rest
    rw [List.cons_append, List.cons_append, splitFrom, if_neg (by decide), if_pos rfl, splitFrom, ih]
    simp
  | @quoted q cs w closed _ ih =>
    intro v rest
    have text : '\'' :: q ++ '\'' :: cs ++ rest = '\'' :: (q ++ '\'' :: (cs ++ rest)) := by simp
    rw [text, splitFrom, if_pos rfl, splitFrom_quoted closed, ih]
    simp

theorem splitFrom_none {c : Char} (blank : isBlank c = false) (cs : List Char) :
    splitFrom .outside none (c :: cs) = splitFrom .outside (some []) (c :: cs) := by
  have backslash : splitFrom .behindBackslash none cs = splitFrom .behindBackslash (some []) cs := by
    cases cs <;> rfl
  simp only [splitFrom, blank, backslash, Option.getD_none, Option.getD_some, Bool.false_eq_true, if_false]

theorem splitWords_of_splits {cs : List Char} {ws : List Word} (h : Splits cs ws) : splitWords cs = some ws := by
  have behind_blank : ∀ {c : Char} (_ : isBlank c = true) (word : Option Word) (cs : List Char),
      splitFrom .outside word (c :: cs) = (splitFrom .outside none cs).map (word.toList ++ ·) := by
    intro c blank word cs
    have quote : c ≠ '\'' := fun same => absurd blank (by rw [same]; decide)
    have backslash : c ≠ '\\' := fun same => absurd blank (by rw [same]; decide)
    rw [splitFrom, if_neg quote, if_neg backslash, if_pos blank]
  unfold splitWords
  induction h with
  | nil => rfl
  | blank blank _ ih =>
    rw [behind_blank blank, ih]
    rfl
  | @word cs rest w ws spelled filled ends _ ih =>
    obtain ⟨c, cs, rfl⟩ := List.exists_cons_of_ne_nil filled
    rw [List.cons_append, splitFrom_none spelled.not_blank, ← List.cons_append, splitFrom_spells spelled,
      List.nil_append]
    cases rest with
    | nil =>
      cases ih
      rfl
    | cons b rest =>
      have blank := ends b rfl
      rw [behind_blank blank] at ih ⊢
      obtain ⟨ws', split, rfl⟩ := Option.map_eq_some_iff.mp ih
      rw [split]
      rfl

/-! ## The command -/

def wordsOf (text : List Char) : List (List Char) :=
  (text.splitOnP isBlank).filter (· ≠ [])

def bareWord (cs : List Char) : Word :=
  cs.map .bare

theorem spells_bareWord {cs : List Char} (plain : ∀ c ∈ cs, isPlain c = true) : Spells cs (bareWord cs) := by
  induction cs with
  | nil => exact .nil
  | cons c cs ih =>
    obtain ⟨here, later⟩ := List.forall_mem_cons.mp plain
    exact .bare here (ih later)

theorem splits_behind {w rest : List Char} {ws : List Word} (plain : ∀ c ∈ w, isPlain c = true)
    (ends : EndsWord rest) (later : Splits rest ws) :
    Splits (w ++ rest) (([w].filter (· ≠ [])).map bareWord ++ ws) := by
  by_cases empty : w = []
  · simpa [empty] using later
  · simpa [empty] using Splits.word (spells_bareWord plain) empty ends later

theorem splits_command {p rest : List Char} {ws : List Word}
    (plain : ∀ c ∈ p, isBlank c = true ∨ isPlain c = true) (ends : EndsWord rest) (later : Splits rest ws) :
    Splits (p ++ rest) ((wordsOf p).map bareWord ++ ws) := by
  -- a word that has begun goes on up to the first blank
  suffices first : ∃ w tail behind, p.splitOnP isBlank = w :: tail ∧ p ++ rest = w ++ behind ∧
      (∀ c ∈ w, isPlain c = true) ∧ EndsWord behind ∧
      Splits behind ((tail.filter (· ≠ [])).map bareWord ++ ws) by
    obtain ⟨w, tail, behind, split, text, plain', ends', later'⟩ := first
    have joined := splits_behind plain' ends' later'
    rw [← List.append_assoc, ← List.map_append, ← List.filter_append, List.singleton_append] at joined
    rwa [text, wordsOf, split]
  induction p with
  | nil => exact ⟨[], [], rest, by simp, rfl, List.forall_mem_nil _, ends, later⟩
  | cons c p ih =>
    obtain ⟨here, there⟩ := List.forall_mem_cons.mp plain
    obtain ⟨w, tail, behind, split, text, plain', ends', later'⟩ := ih there
    rw [List.splitOnP_cons_eq_if_modifyHead, split]
    by_cases blank : isBlank c = true
    · refine ⟨[], w :: tail, c :: (w ++ behind), by rw [if_pos blank], by rw [List.cons_append, text]; rfl,
        List.forall_mem_nil _, ?_, ?_⟩
      · rintro _ ⟨⟩
        exact blank
      · have joined := splits_behind plain' ends' later'
        rw [← List.append_assoc, ← List.map_append, ← List.filter_append, List.singleton_append] at joined
        exact .blank blank joined
    · refine ⟨c :: w, tail, behind, by rw [if_neg blank]; rfl, by rw [List.cons_append, text]; rfl, ?_,
        ends', later'⟩
      exact List.forall_mem_cons.mpr ⟨here.resolve_left blank, plain'⟩

/-! ## The path -/

/-- A word that stands in quotes, but for single quotes, which are escaped. -/
def quotedWord (cs : List Char) : Word :=
  .quotes :: cs.flatMap fun c => if c = '\'' then [.literal c, .quotes] else [.literal c]

theorem spells_quoted (cs : List Char) : ∀ q : List Char, '\'' ∉ q →
    Spells ('\'' :: q ++ (cs.flatMap quoteChar ++ ['\''])) (.quotes :: q.map .literal ++
      cs.flatMap fun c => if c = '\'' then [.literal c, .quotes] else [.literal c]) := by
  induction cs with
  | nil =>
    intro q closed
    simpa using Spells.quoted closed .nil
  | cons c cs ih =>
    intro q closed
    by_cases quote : c = '\''
    · have later := ih [] List.not_mem_nil
      simpa [quote, quoteChar] using Spells.quoted closed (.escaped (by decide) later)
    · have later := ih (q ++ [c]) (by simp [closed, Ne.symm quote])
      simpa [quote, quoteChar] using later

theorem spells_shellQuote (cs : List Char) :
    Spells ('\'' :: cs.flatMap quoteChar ++ ['\'']) (quotedWord cs) :=
  spells_quoted cs [] List.not_mem_nil

end TableMigration.Shell
