import TableMigration.Proofs.Encoding
import TableMigration.Proofs.ShellReading
import TableMigration.Shell.Expansion

/-!
# The path of a script as the last word of its command line

Quotes and blanks are bytes of their own, and no byte of a longer character is below 128, so a command line
reads alike by characters and by bytes. A word all of which stands in quotes or behind backslashes expands
to one argument, which is what is quoted.
-/

namespace TableMigration.Shell

/-! ## Bytes -/

/-- The bytes of a character, each as the character with that code. -/
def bytesOf (c : Char) : List Char :=
  (String.utf8EncodeChar c).map fun b => Char.ofNat b.toNat

theorem ofText_toList (s : String) : (ofText s).toList = s.toList.flatMap bytesOf := by
  rw [ofText, ofRaw, Text.encode, String.toList_ofList]
  exact List.map_flatMap

theorem toNat_byte (b : UInt8) : (Char.ofNat b.toNat).toNat = b.toNat := by
  have small := b.toNat_lt
  have valid : b.toNat.isValidChar := .inl (by omega)
  rw [Char.ofNat, dif_pos valid]
  rfl

theorem bytesOf_ascii {c : Char} (ascii : c.toNat < 128) : bytesOf c = [c] := by
  have single : c.val.toNat ≤ 127 := Nat.le_of_lt_succ ascii
  have code : (UInt8.ofNat c.val.toNat).toNat = c.toNat := Nat.mod_eq_of_lt (by omega)
  unfold bytesOf String.utf8EncodeChar
  simp only [single, if_true]
  rw [List.map_singleton, code, Char.ofNat_toNat]

theorem bytesOf_not_ascii {c : Char} (wide : 128 ≤ c.toNat) : ∀ b ∈ bytesOf c, 128 ≤ b.toNat := by
  have long : ¬c.val.toNat ≤ 127 := Nat.not_le_of_lt wide
  intro b
  rw [bytesOf, List.mem_map]
  rintro ⟨byte, mem, rfl⟩
  rw [toNat_byte]
  unfold String.utf8EncodeChar at mem
  simp only [long, if_false] at mem
  split_ifs at mem <;> simp only [List.mem_cons, List.not_mem_nil, or_false] at mem <;>
    rcases mem with rfl | rfl | rfl | rfl <;> rw [UInt8.toNat_ofNat'] <;> omega

theorem isPlain_of_wide {c : Char} (wide : 128 ≤ c.toNat) : isPlain c = true := by
  have narrow : ∀ d : Char, d.toNat < 128 → c ≠ d := by
    rintro d small rfl
    omega
  rw [isPlain_iff]
  refine ⟨?_, ?_, narrow _ (by decide), narrow _ (by decide), narrow _ (by decide), narrow _ (by decide),
    narrow _ (by decide)⟩
  · simp [isBlank, narrow]
  · simp [isOperator, narrow]

theorem plain_bytes {p : List Char} (plain : ∀ c ∈ p, isBlank c = true ∨ isPlain c = true) :
    ∀ b ∈ p.flatMap bytesOf, isBlank b = true ∨ isPlain b = true := by
  intro b mem
  obtain ⟨c, here, byte⟩ := List.mem_flatMap.mp mem
  by_cases ascii : c.toNat < 128
  · rw [bytesOf_ascii ascii, List.mem_singleton] at byte
    exact byte ▸ plain c here
  · exact .inr (isPlain_of_wide (bytesOf_not_ascii (Nat.not_lt.mp ascii) b byte))

theorem quoted_bytes (cs : List Char) :
    (cs.flatMap quoteChar).flatMap bytesOf = (cs.flatMap bytesOf).flatMap quoteChar := by
  rw [List.flatMap_assoc, List.flatMap_assoc]
  congr 1
  funext c
  by_cases ascii : c.toNat < 128
  · rw [bytesOf_ascii ascii, List.flatMap_singleton]
    by_cases quote : c = '\''
    · subst quote
      decide
    · simp [quoteChar, quote, bytesOf_ascii ascii]
  · have wide := Nat.not_lt.mp ascii
    have unquoted : ∀ d : Char, 128 ≤ d.toNat → quoteChar d = [d] := by
      intro d wide
      refine if_neg ?_
      rintro rfl
      exact absurd wide (by decide)
    rw [unquoted c wide, List.flatMap_singleton]
    have same : ∀ d ∈ bytesOf c, quoteChar d = [d] := fun d mem => unquoted d (bytesOf_not_ascii wide d mem)
    rw [List.flatMap_congr same, List.flatMap_singleton']

/-! ## The line -/

theorem commandLine_toList (runners : Runners) (side : Warehouse) (script : Path) :
    (runners.commandLine side script).toList = (runners.command side).toList ++
      ' ' :: ('\'' :: script.text.toList.flatMap quoteChar ++ ['\'']) := by
  simp [Runners.commandLine, shellQuote]

theorem commandLine_bytes (runners : Runners) (side : Warehouse) (script : Path) :
    (ofText (runners.commandLine side script)).toList = (ofText (runners.command side)).toList ++
      ' ' :: ('\'' :: (ofText script.text).toList.flatMap quoteChar ++ ['\'']) := by
  have blank : bytesOf ' ' = [' '] := by decide
  have quote : bytesOf '\'' = ['\''] := by decide
  rw [ofText_toList, commandLine_toList]
  simp [ofText_toList, quoted_bytes, blank, quote]

theorem splits_line {p : List Char} (plain : ∀ c ∈ p, isBlank c = true ∨ isPlain c = true) (cs : List Char) :
    Splits (p ++ ' ' :: ('\'' :: cs.flatMap quoteChar ++ ['\'']))
      ((wordsOf p).map bareWord ++ [quotedWord cs]) := by
  have ends : EndsWord [] := by simp [EndsWord]
  have last := Splits.word (spells_shellQuote cs) (by simp) ends .nil
  rw [List.append_nil] at last
  exact splits_command plain (by simp [EndsWord]; rfl) (.blank rfl last)

/-- The word stands for this text, none of which is outside quotes without a backslash. -/
structure StandsFor (w : Word) (text : List Char) : Prop where
  letters : w.letters = text
  sheltered : ∀ g ∈ w, g = .quotes ∨ ∃ c, g = .literal c

theorem quotedWord_standsFor (cs : List Char) : StandsFor (quotedWord cs) cs := by
  constructor
  · unfold quotedWord
    induction cs with
    | nil => rfl
    | cons c cs ih =>
      by_cases quote : c = '\'' <;> simpa [Word.letters, quote] using ih
  · intro g mem
    obtain rfl | mem := List.mem_cons.mp mem
    · exact .inl rfl
    · obtain ⟨c, -, here⟩ := List.mem_flatMap.mp mem
      split_ifs at here <;> simp at here <;> tauto

/-! ## Expansion -/

def shelteredMark : Glyph → Mark
  | .literal c => .letter ⟨c, true⟩ false
  | _ => .quotes

section
variable {w : Word} (sheltered : ∀ g ∈ w, g = .quotes ∨ ∃ c, g = .literal c)

include sheltered in
theorem expandGlyphs_sheltered (capture : Capture) (manner : Manner) :
    expandGlyphs capture manner w = pure (w.map shelteredMark) := by
  induction w with
  | nil => rw [expandGlyphs]; rfl
  | cons g w ih =>
    obtain ⟨here, later⟩ := List.forall_mem_cons.mp sheltered
    rw [expandGlyphs, ih later]
    obtain rfl | ⟨c, rfl⟩ := here <;> simp [expandGlyph, shelteredMark]

include sheltered in
theorem splitFields_sheltered (separators : List Char) (before : Before) (field : List Letter) :
    splitFields separators before (some field) (w.map shelteredMark) =
      [field.reverse ++ w.letters.map fun c => ⟨c, true⟩] := by
  induction w generalizing before field with
  | nil => simp [splitFields, Word.letters]
  | cons g w ih =>
    obtain ⟨here, later⟩ := List.forall_mem_cons.mp sheltered
    obtain rfl | ⟨c, rfl⟩ := here
    · simpa [shelteredMark, splitFields, Word.letters] using ih later before field
    · simpa [shelteredMark, splitFields, Word.letters] using ih later .text (⟨c, true⟩ :: field)

end

theorem expandPattern_plain (s : Session) (cs : List Char) :
    expandPattern s (cs.map fun c => ⟨c, true⟩) = [String.ofList cs] := by
  have plain : isPattern (cs.map fun c => ⟨c, true⟩) = false := by simp [isPattern]
  simp [expandPattern, plain, textOf, Function.comp_def]

/-- Whatever the session, the word is one argument, which is the text, and nothing is done to expand it. -/
theorem expandFields_standsFor {w : Word} {text : List Char} (stands : StandsFor w text) (filled : w ≠ [])
    (capture : Capture) (s : Session) :
    (expandFields capture w).run.run s = (.ok [String.ofList text], s) := by
  have untouched : replaceTilde s false w = w := by
    unfold replaceTilde
    split
    next rest =>
      obtain same | ⟨c, same⟩ := stands.sheltered _ (List.mem_cons_self ..) <;> cases same
    next => rfl
  have begun : splitFields s.separators .text none (w.map shelteredMark) =
      splitFields s.separators .text (some []) (w.map shelteredMark) := by
    obtain ⟨g, w, rfl⟩ := List.exists_cons_of_ne_nil filled
    obtain rfl | ⟨c, rfl⟩ := stands.sheltered g (List.mem_cons_self ..) <;> rfl
  have fields := splitFields_sheltered stands.sheltered s.separators .text []
  have glyphs := expandGlyphs_sheltered stands.sheltered capture ⟨true, false⟩
  rw [← untouched] at glyphs
  have run : (expandFields capture w).run.run s =
      (.ok ((splitFields s.separators .text none (w.map shelteredMark)).flatMap (expandPattern s)), s) := by
    unfold expandFields
    show (expandGlyphs capture ⟨true, false⟩ (replaceTilde s false w) >>= _ : Act (List String)).run.run s = _
    rw [glyphs, untouched]
    rfl
  rw [run, begun, fields, stands.letters, List.reverse_nil, List.nil_append, List.flatMap_singleton,
    expandPattern_plain]

/-! ## The command line -/

/-- None of the words begins a comment, and the first one is a name that a command may have. -/
structure BeginsPlainly (words : List (List Char)) : Prop where
  uncommented : ∀ v ∈ words, v.head? ≠ some '#'
  named : ∀ v, words.head? = some v → NamesCommand (bareWord v)

theorem next_line {p : List Char} (plain : ∀ c ∈ p, isBlank c = true ∨ isPlain c = true)
    (begins : BeginsPlainly (wordsOf p)) (cs : List Char) {r : Reader} (ahead : r.ahead = none)
    (pending : r.pending = []) (aliases : r.aliases = [])
    (rest : r.rest = p ++ ' ' :: ('\'' :: cs.flatMap quoteChar ++ ['\''])) :
    ∃ line after, r.next =
        .read (some (.simple line [] ((wordsOf p).map bareWord ++ [quotedWord cs]) [])) after ∧
      after.ahead = some .finish := by
  have splits := splits_line plain cs
  rw [← rest] at splits
  have uncommented : Uncommented ((wordsOf p).map bareWord ++ [quotedWord cs]) := by
    intro w mem
    obtain mem | mem := List.mem_append.mp mem
    · obtain ⟨v, here, same⟩ := List.mem_map.mp mem
      refine begins.uncommented v here ?_
      cases v with
      | nil => cases same
      | cons c v =>
        cases same
        rfl
    · cases List.mem_singleton.mp mem
  cases words : wordsOf p with
  | nil =>
    rw [words] at splits uncommented
    exact next_run ⟨ahead, pending, aliases, splits⟩ uncommented ⟨rfl, rfl⟩
  | cons v vs =>
    rw [words] at splits uncommented
    exact next_run ⟨ahead, pending, aliases, splits⟩ uncommented (begins.named v (by rw [words]; rfl))

/-- A command line of plain words and a script is split into these words and one more, which is the path.
A shell that reads it by its own rules, byte by byte, runs one command with these words; whatever it has
set, the last one is one argument, the path. -/
theorem script_path_is_last_word (runners : Runners) (side : Warehouse) (script : Path)
    (plain : ∀ c ∈ (runners.command side).toList, isBlank c = true ∨ isPlain c = true) :
    (∃ last, StandsFor last script.text.toList ∧ splitWords (runners.commandLine side script).toList =
        some ((wordsOf (runners.command side).toList).map bareWord ++ [last])) ∧
      ∃ last, StandsFor last (ofText script.text).toList ∧
        (∀ (capture : Capture) (s : Session),
          (expandFields capture last).run.run s = (.ok [ofText script.text], s)) ∧
        (BeginsPlainly (wordsOf (ofText (runners.command side)).toList) → ∀ number, ∃ line after,
          ({ Reader.ofText (ofText (runners.commandLine side script)) with nextDocument := number } : Reader).next =
            .read (some (.simple line []
              ((wordsOf (ofText (runners.command side)).toList).map bareWord ++ [last]) [])) after ∧
          ∀ aliases documents, ({ after with aliases, documents } : Reader).next = .finished) := by
  refine ⟨⟨_, quotedWord_standsFor _, ?_⟩, _, quotedWord_standsFor _, ?_, ?_⟩
  · rw [commandLine_toList]
    exact splitWords_of_splits (splits_line plain _)
  · intro capture s
    rw [expandFields_standsFor (quotedWord_standsFor _) (by simp [quotedWord]), String.ofList_toList]
  · intro begins number
    have bytes : ∀ b ∈ (ofText (runners.command side)).toList, isBlank b = true ∨ isPlain b = true := by
      rw [ofText_toList]
      exact plain_bytes plain
    have rest := commandLine_bytes runners side script
    generalize ofText (runners.commandLine side script) = text at rest ⊢
    obtain ⟨line, after, read, ahead⟩ := next_line bytes begins (ofText script.text).toList
      (r := { Reader.ofText text with nextDocument := number }) rfl rfl rfl rest
    exact ⟨line, after, read, fun aliases documents => next_finished ahead⟩

def awkward : String := "it's $x;\n\\'"

theorem awkward_path_is_last_word :
    (∀ c ∈ "hive -f".toList, isBlank c = true ∨ isPlain c = true) ∧
      (∃ last, StandsFor last awkward.toList ∧
        splitWords (Runners.commandLine ⟨"hive -f", "odps"⟩ .source ⟨awkward⟩).toList =
          some [bareWord "hive".toList, bareWord "-f".toList, last]) ∧
      ∃ last, StandsFor last (ofText awkward).toList ∧ ∃ line after,
        (Reader.ofText (ofText (Runners.commandLine ⟨"hive -f", "odps"⟩ .source ⟨awkward⟩))).next =
          .read (some (.simple line [] [bareWord "hive".toList, bareWord "-f".toList, last] [])) after := by
  have plain : ∀ c ∈ "hive -f".toList, isBlank c = true ∨ isPlain c = true := by
    simp [isPlain_iff, isBlank, isOperator]
  obtain ⟨⟨word, text, split⟩, last, bytes, -, read⟩ :=
    script_path_is_last_word ⟨"hive -f", "odps"⟩ .source ⟨awkward⟩ plain
  have words : wordsOf "hive -f".toList = ["hive".toList, "-f".toList] := by decide
  have words' : wordsOf (ofText "hive -f").toList = ["hive".toList, "-f".toList] := by
    rw [ofText_toList]
    decide
  have begins : BeginsPlainly ["hive".toList, "-f".toList] := by
    refine ⟨by decide, ?_⟩
    rintro _ ⟨⟩
    exact ⟨by decide, by decide⟩
  have shown : (⟨awkward⟩ : Path).text = awkward := Text.readLossy_encode awkward
  rw [shown] at text bytes
  simp only [Runners.command, words] at split
  simp only [Runners.command, words'] at read
  obtain ⟨line, after, next, -⟩ := read begins 0
  exact ⟨plain, ⟨word, text, split⟩, last, bytes, line, after, next⟩

end TableMigration.Shell
