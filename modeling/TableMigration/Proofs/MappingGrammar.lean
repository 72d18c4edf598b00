import TableMigration.Error
import TableMigration.Proofs.Layout

/-!
# The grammar of a mapping

What a line says about tables can be told without reading it: around its first colon stand two parts, and
each part, trimmed, is two names around a dot. A mapping is read just if every line that is neither blank nor
a comment is of this form and no two of them have one source. Otherwise the first line to break this rule is
the one that is reported, since up to there all lines have become entries.
-/

namespace TableMigration

namespace Ordered

theorem perm_insert {κ α : Type} [LT κ] [DecidableLT κ] [DecidableEq κ] {k : κ} (v : α)
    {xs : List (κ × α)} (new : k ∉ xs.map (·.1)) : (insert k v xs).Perm ((k, v) :: xs) := by
  unfold insert
  induction xs with
  | nil => exact List.Perm.refl _
  | cons x xs ih =>
    obtain ⟨other, rest⟩ := not_or.mp (mt List.mem_cons.mpr new)
    unfold alter
    by_cases before : k < x.1
    · rw [if_pos before]
    · rw [if_neg before, if_neg other]
      exact ((ih rest).cons x).trans (List.Perm.swap _ _ _)

theorem find?_isSome_iff {κ α : Type} [DecidableEq κ] {k : κ} {xs : List (κ × α)} :
    (find? k xs).isSome = true ↔ k ∈ xs.map (·.1) := by
  induction xs with
  | nil => simp [find?]
  | cons x xs ih =>
    unfold find?
    by_cases same : k = x.1
    · simp [same]
    · simp [same, ih]

end Ordered

theorem Text.splitOnce_eq_none_iff {sep : Char} {cs : List Char} :
    splitOnce sep cs = none ↔ sep ∉ cs := by
  induction cs with
  | nil => simp [splitOnce]
  | cons c cs ih =>
    unfold splitOnce
    by_cases same : c = sep
    · simp [same]
    · simp [same, Ne.symm same, ih]

/-! ## Lines -/

def tableKey (names : String × String) : String :=
  Text.lowercase names.1 ++ "." ++ Text.lowercase names.2

/-- A part of a line, trimmed, is a database and a table around the only dot. -/
structure Qualifies (part : List Char) (names : String × String) : Prop where
  text : Text.trimChars part = names.1.toList ++ '.' :: names.2.toList
  database : names.1 ≠ "" ∧ '.' ∉ names.1.toList
  table : names.2 ≠ "" ∧ '.' ∉ names.2.toList

structure CutAtColon (line before after : List Char) : Prop where
  text : Text.trimChars line = before ++ ':' :: after
  first : ':' ∉ before

structure MapsTable (line : List Char) (source destination : String × String) : Prop where
  significant : TableMapping.isSignificant (Text.trimChars line) = true
  parts : ∃ before after, CutAtColon line before after ∧ Qualifies before source ∧
    Qualifies after destination

inductive Malformed (number : Nat) (line : List Char) : MappingError → Prop
  | noColon : ':' ∉ Text.trimChars line →
    Malformed number line (.noColon number (.ofList (Text.trimChars line)))
  | source {before after : List Char} : CutAtColon line before after →
    (∀ names, ¬ Qualifies before names) →
    Malformed number line (.unqualified number (.ofList (Text.trimChars before)))
  | destination {before after : List Char} {names : String × String} : CutAtColon line before after →
    Qualifies before names → (∀ names, ¬ Qualifies after names) →
    Malformed number line (.unqualified number (.ofList (Text.trimChars after)))

/-- A line, which comes behind `earlier` ones, is neither blank nor a comment and maps no table, or one that
an earlier line maps. -/
inductive Refused (earlier : List (List Char)) (line : List Char) : MappingError → Prop
  | malformed {e : MappingError} : TableMapping.isSignificant (Text.trimChars line) = true →
    Malformed (earlier.length + 1) line e → Refused earlier line e
  | repeated {source destination source' destination' : String × String} {line' : List Char} :
    MapsTable line source destination → line' ∈ earlier → MapsTable line' source' destination' →
    tableKey source' = tableKey source →
    Refused earlier line (.repeated (earlier.length + 1) (tableKey source))

/-- Every line that is neither blank nor a comment maps a table, each another one. -/
structure Grammatical (lines : List (List Char)) : Prop where
  formed : ∀ line ∈ lines, TableMapping.isSignificant (Text.trimChars line) = true →
    ∃ source destination, MapsTable line source destination
  distinct : lines.Pairwise fun line line' => ∀ source destination source' destination',
    MapsTable line source destination → MapsTable line' source' destination' →
    tableKey source ≠ tableKey source'

def IsEntry (line : List Char) (entry : String × String) : Prop :=
  ∃ source destination, MapsTable line source destination ∧
    entry = (tableKey source, tableKey destination)

namespace TableMapping

/-! ## Reading a line -/

theorem qualified?_eq_some {part : List Char} {names : String × String} (h : Qualifies part names) :
    qualified? (Text.trimChars part) = some (tableKey names) := by
  have cut : Text.splitOnce '.' (Text.trimChars part) = some (names.1.toList, names.2.toList) :=
    Text.splitOnce_eq_some_iff.mpr ⟨h.text, h.database.2⟩
  have both : names.1.toList ≠ [] ∧ names.2.toList ≠ [] ∧ '.' ∉ names.2.toList := by
    simpa using ⟨h.database.1, h.table⟩
  unfold qualified?
  rw [cut]
  simp only [if_pos both, Option.some.injEq]
  rw [← String.toList_inj]
  simp [tableKey, Text.lowercase]

theorem qualifies_of_qualified? {part : List Char} {key : String}
    (h : qualified? (Text.trimChars part) = some key) : ∃ names, Qualifies part names := by
  unfold qualified? at h
  split at h
  next database table cut =>
    obtain ⟨text, no_dot⟩ := Text.splitOnce_eq_some_iff.mp cut
    split at h
    next both =>
      refine ⟨(String.ofList database, String.ofList table), ?_, ?_, ?_⟩
      · simpa using text
      · simpa using ⟨both.1, no_dot⟩
      · simpa using both.2
    next => cases h
  next => cases h

theorem readPart_of_qualifies {part : List Char} {names : String × String} (h : Qualifies part names)
    (number : Nat) : readPart number part = .ok (tableKey names) := by
  unfold readPart
  simp only [qualified?_eq_some h]

theorem readPart_of_not {part : List Char} (h : ∀ names, ¬ Qualifies part names) (number : Nat) :
    readPart number part = .error (.unqualified number (.ofList (Text.trimChars part))) := by
  unfold readPart
  cases read : qualified? (Text.trimChars part) with
  | none => simp only [read]
  | some key =>
    obtain ⟨names, qualifies⟩ := qualifies_of_qualified? read
    exact absurd qualifies (h names)

section
variable {line before after : List Char}

theorem readEntry_of_cut (cut : CutAtColon line before after) (number : Nat) :
    readEntry number (Text.trimChars line) = (do
      let source ← readPart number before
      let destination ← readPart number after
      return (source, destination)) := by
  have split : Text.splitOnce ':' (Text.trimChars line) = some (before, after) :=
    Text.splitOnce_eq_some_iff.mpr ⟨cut.text, cut.first⟩
  unfold readEntry
  rw [split]

theorem readEntry_of_maps {source destination : String × String} (h : MapsTable line source destination)
    (number : Nat) :
    readEntry number (Text.trimChars line) = .ok (tableKey source, tableKey destination) := by
  obtain ⟨before, after, cut, first, second⟩ := h.parts
  rw [readEntry_of_cut cut, readPart_of_qualifies first, readPart_of_qualifies second]
  rfl

theorem tableKey_eq_of_maps {source destination source' destination' : String × String}
    (h : MapsTable line source destination) (h' : MapsTable line source' destination') :
    tableKey source = tableKey source' ∧ tableKey destination = tableKey destination' := by
  have same := (readEntry_of_maps h 0).symm.trans (readEntry_of_maps h' 0)
  exact Prod.mk.inj (Except.ok.inj same)

theorem readEntry_of_malformed {number : Nat} {e : MappingError} (h : Malformed number line e) :
    readEntry number (Text.trimChars line) = .error e := by
  cases h with
  | noColon no_colon =>
    unfold readEntry
    rw [Text.splitOnce_eq_none_iff.mpr no_colon]
  | source cut not =>
    rw [readEntry_of_cut cut, readPart_of_not not]
    rfl
  | destination cut first not =>
    rw [readEntry_of_cut cut, readPart_of_qualifies first, readPart_of_not not]
    rfl

theorem maps_or_malformed (significant : isSignificant (Text.trimChars line) = true) (number : Nat) :
    (∃ source destination, MapsTable line source destination) ∨ ∃ e, Malformed number line e := by
  cases split : Text.splitOnce ':' (Text.trimChars line) with
  | none => exact Or.inr ⟨_, .noColon (Text.splitOnce_eq_none_iff.mp split)⟩
  | some parts =>
    obtain ⟨text, first⟩ := Text.splitOnce_eq_some_iff.mp split
    have cut : CutAtColon line parts.1 parts.2 := ⟨text, first⟩
    by_cases source : ∃ names, Qualifies parts.1 names
    · obtain ⟨source, first⟩ := source
      by_cases destination : ∃ names, Qualifies parts.2 names
      · obtain ⟨destination, second⟩ := destination
        exact Or.inl ⟨source, destination, significant, _, _, cut, first, second⟩
      · exact Or.inr ⟨_, .destination cut first (not_exists.mp destination)⟩
    · exact Or.inr ⟨_, .source cut (not_exists.mp source)⟩

end

/-! ## Reading lines -/

section
variable {lines : List (List Char)} {line : List Char} {entries : List (String × String)}

theorem readLines_append (number : Nat) (entries : List (String × String)) (lines lines' : List (List Char)) :
    readLines number entries (lines ++ lines') =
      (readLines number entries lines).bind fun read => readLines (number + lines.length) read lines' := by
  induction lines generalizing number entries with
  | nil => rfl
  | cons line lines ih =>
    have next : number + (line :: lines).length = number + 1 + lines.length := by simp; omega
    rw [List.cons_append, readLines, readLines, next]
    by_cases significant : isSignificant (Text.trimChars line) = true
    · simp only [significant, Bool.not_true, Bool.false_eq_true, if_false]
      cases readEntry number (Text.trimChars line) with
      | error e => rfl
      | ok entry =>
        simp only
        split
        · rfl
        · exact ih _ _
    · simp only [significant, Bool.not_false, if_true]
      exact ih _ _

theorem grammatical_concat (h : Grammatical lines)
    (formed : isSignificant (Text.trimChars line) = true →
      ∃ source destination, MapsTable line source destination)
    (new : ∀ line' ∈ lines, ∀ source destination source' destination',
      MapsTable line' source destination → MapsTable line source' destination' →
      tableKey source ≠ tableKey source') : Grammatical (lines ++ [line]) := by
  constructor
  · intro line' hl
    obtain hl | hl := List.mem_append.mp hl
    · exact h.formed line' hl
    · rw [List.mem_singleton.mp hl]
      exact formed
  · refine List.pairwise_append.mpr ⟨h.distinct, List.pairwise_singleton _ _, ?_⟩
    intro line' hl last hlast
    rw [List.mem_singleton.mp hlast]
    exact new line' hl

/-- The lines are in order, and the entries are theirs, by ascending keys. -/
structure Tabled (lines : List (List Char)) (entries : List (String × String)) : Prop where
  grammatical : Grammatical lines
  listed : ∃ made, List.Forall₂ IsEntry
    (lines.filter fun line => isSignificant (Text.trimChars line)) made ∧ entries.Perm made
  ascending : (entries.map (·.1)).Pairwise (· < ·)

theorem Tabled.mem_iff (h : Tabled lines entries) {entry : String × String} :
    entry ∈ entries ↔ ∃ line ∈ lines, IsEntry line entry := by
  obtain ⟨made, each, perm⟩ := h.listed
  rw [perm.mem_iff]
  constructor
  · intro mem
    obtain ⟨line, hl, own⟩ := exists_related_of_mem each mem
    exact ⟨line, List.mem_of_mem_filter hl, own⟩
  · rintro ⟨line, hl, source, destination, maps, rfl⟩
    have hl : line ∈ lines.filter fun line => isSignificant (Text.trimChars line) :=
      List.mem_filter.mpr ⟨hl, maps.significant⟩
    obtain ⟨entry, mem, source', destination', maps', rfl⟩ :=
      exists_related_of_mem (List.Forall₂.flip (R := flip IsEntry) each) hl
    obtain ⟨key, value⟩ := tableKey_eq_of_maps maps maps'
    rwa [key, value]

theorem Tabled.mem_keys_iff (h : Tabled lines entries) {key : String} :
    key ∈ entries.map (·.1) ↔ ∃ line ∈ lines, ∃ source destination,
      MapsTable line source destination ∧ tableKey source = key := by
  rw [List.mem_map]
  constructor
  · rintro ⟨entry, mem, rfl⟩
    obtain ⟨line, hl, source, destination, maps, rfl⟩ := h.mem_iff.mp mem
    exact ⟨line, hl, source, destination, maps, rfl⟩
  · rintro ⟨line, hl, source, destination, maps, rfl⟩
    exact ⟨_, h.mem_iff.mpr ⟨line, hl, source, destination, maps, rfl⟩, rfl⟩

theorem Tabled.skip (h : Tabled lines entries) (not : isSignificant (Text.trimChars line) = false) :
    Tabled (lines ++ [line]) entries := by
  obtain ⟨made, each, perm⟩ := h.listed
  refine ⟨?_, ⟨made, ?_, perm⟩, h.ascending⟩
  · apply grammatical_concat h.grammatical
    · simp [not]
    · intro line' _ source destination source' destination' _ maps
      have significant := maps.significant
      simp [not] at significant
  · rw [List.filter_append, List.filter_singleton, not]
    simpa using each

theorem Tabled.insert (h : Tabled lines entries) {source destination : String × String}
    (maps : MapsTable line source destination) (new : tableKey source ∉ entries.map (·.1)) :
    Tabled (lines ++ [line]) (Ordered.insert (tableKey source) (tableKey destination) entries) := by
  obtain ⟨made, each, perm⟩ := h.listed
  refine ⟨?_, ⟨made ++ [(tableKey source, tableKey destination)], ?_, ?_⟩, ?_⟩
  · apply grammatical_concat h.grammatical fun _ => ⟨source, destination, maps⟩
    intro line' hl first _ second _ earlier here same
    have key := same.trans (tableKey_eq_of_maps here maps).1
    exact new (h.mem_keys_iff.mpr ⟨line', hl, _, _, earlier, key⟩)
  · rw [List.filter_append, List.filter_singleton, maps.significant]
    exact List.rel_append each (.cons ⟨source, destination, maps, rfl⟩ .nil)
  · apply (Ordered.perm_insert (tableKey destination) new).trans
    exact (perm.cons _).trans (List.perm_append_singleton _ _).symm
  · rw [Ordered.insert, Ordered.keys_alter]
    exact Ordered.pairwise_insertKey h.ascending

theorem readLines_refused (h : Tabled lines entries) {e : MappingError} (refused : Refused lines line e) :
    readLines (lines.length + 1) entries [line] = .error e := by
  cases refused with
  | malformed significant malformed =>
    simp only [readLines, significant, Bool.not_true, Bool.false_eq_true, if_false,
      readEntry_of_malformed malformed]
  | repeated maps earlier maps' same =>
    have known := Ordered.find?_isSome_iff.mpr (h.mem_keys_iff.mpr ⟨_, earlier, _, _, maps', same⟩)
    simp only [readLines, maps.significant, Bool.not_true, Bool.false_eq_true, if_false,
      readEntry_of_maps maps, known, if_true]

theorem readLines_step (h : Tabled lines entries) (line : List Char) :
    (∃ read, readLines (lines.length + 1) entries [line] = .ok read ∧ Tabled (lines ++ [line]) read) ∨
      ∃ e, Refused lines line e := by
  by_cases significant : isSignificant (Text.trimChars line) = true
  · obtain ⟨source, destination, maps⟩ | ⟨e, malformed⟩ := maps_or_malformed significant (lines.length + 1)
    · by_cases known : tableKey source ∈ entries.map (·.1)
      · obtain ⟨line', hl, source', destination', maps', same⟩ := h.mem_keys_iff.mp known
        exact Or.inr ⟨_, .repeated maps hl maps' same⟩
      · refine Or.inl ⟨_, ?_, h.insert maps known⟩
        rw [← Ordered.find?_isSome_iff] at known
        simp only [readLines, significant, Bool.not_true, Bool.false_eq_true, if_false,
          readEntry_of_maps maps, known]
    · exact Or.inr ⟨e, .malformed significant malformed⟩
  · rw [Bool.not_eq_true] at significant
    refine Or.inl ⟨entries, ?_, h.skip significant⟩
    simp only [readLines, significant, Bool.not_false, if_true]

theorem readLines_cases (lines : List (List Char)) :
    (∃ read, readLines 1 [] lines = .ok read ∧ Tabled lines read) ∨
      ∃ before line after e read, lines = before ++ line :: after ∧ Tabled before read ∧
        Refused before line e ∧ readLines 1 [] lines = .error e := by
  -- from the last line, since `Tabled` and `Refused` are about the lines before
  induction lines using List.reverseRecOn with
  | nil => exact Or.inl ⟨[], rfl, ⟨List.forall_mem_nil _, .nil⟩, ⟨[], .nil, .nil⟩, .nil⟩
  | append_singleton lines line ih =>
    rw [readLines_append, Nat.add_comm 1]
    obtain ⟨read, ok, tabled⟩ | ⟨before, line', after, e, read, rfl, tabled, refused, failed⟩ := ih
    · rw [ok]
      obtain ⟨read', ok', tabled'⟩ | ⟨e, refused⟩ := readLines_step tabled line
      · exact Or.inl ⟨read', ok', tabled'⟩
      · exact Or.inr ⟨lines, line, [], e, read, rfl, tabled, refused, readLines_refused tabled refused⟩
    · rw [failed]
      exact Or.inr ⟨before, line', after ++ [line], e, read, by simp, tabled, refused, rfl⟩

/-! ## The grammar -/

theorem not_grammatical_of_refused {before after : List (List Char)} {e : MappingError}
    (refused : Refused before line e) : ¬ Grammatical (before ++ line :: after) := by
  intro h
  cases refused with
  | malformed significant malformed =>
    obtain ⟨source, destination, maps⟩ := h.formed line (by simp) significant
    have read := readEntry_of_maps maps (before.length + 1)
    rw [readEntry_of_malformed malformed] at read
    cases read
  | repeated maps earlier maps' same =>
    obtain ⟨-, -, apart⟩ := List.pairwise_append.mp h.distinct
    exact apart _ earlier line (List.mem_cons_self ..) _ _ _ _ maps' maps same

theorem readLines_eq_error_iff {e : MappingError} :
    readLines 1 [] lines = .error e ↔
      ∃ before line after, lines = before ++ line :: after ∧ Grammatical before ∧ Refused before line e := by
  constructor
  · intro failed
    obtain ⟨read, ok, -⟩ | ⟨before, line, after, e', read, split, tabled, refused, failed'⟩ :=
      readLines_cases lines
    · rw [ok] at failed
      cases failed
    · rw [failed'] at failed
      exact ⟨before, line, after, split, tabled.grammatical, Except.error.inj failed ▸ refused⟩
  · rintro ⟨before, line, after, rfl, grammatical, refused⟩
    obtain ⟨read, ok, tabled⟩ | ⟨before', line', after', e', -, rfl, -, refused', -⟩ :=
      readLines_cases before
    · have stop := readLines_refused tabled refused
      rw [List.append_cons, readLines_append, readLines_append, ok]
      simp only [Except.bind, Nat.add_comm 1, stop]
    · exact absurd grammatical (not_grammatical_of_refused refused')

theorem tabled_of_parse {contents : String} {m : TableMapping} (h : parse contents = .ok m) :
    Tabled (Text.lineChars contents.toList) m.entries := by
  unfold parse at h
  obtain ⟨read, ok, tabled⟩ | ⟨-, -, -, e, -, -, -, -, failed⟩ :=
    readLines_cases (Text.lineChars contents.toList)
  · rw [ok] at h
    cases h
    exact tabled
  · rw [failed] at h
    cases h

theorem destination?_eq_some_iff {contents : String} {m : TableMapping} (h : parse contents = .ok m)
    {key value : String} : m.destination? key = some value ↔
      ∃ line ∈ Text.lineChars contents.toList, IsEntry line (key, value) := by
  have tabled := tabled_of_parse h
  rw [← tabled.mem_iff]
  exact Ordered.find?_eq_some_iff (tabled.ascending.imp String.ne_of_lt)

theorem message_of_refused {e : MappingError} (h : Refused lines line e) :
    (Error.mapping e).category = .settings ∧ (Error.mapping e).message =
      "Configuration error: table mapping line " ++ toString (lines.length + 1) ++ ": " ++ e.detail.2 := by
  have number : e.detail.1 = lines.length + 1 := by
    cases h with
    | malformed _ malformed => cases malformed <;> rfl
    | repeated => rfl
  have text : (Error.mapping e).message = "Configuration error: " ++
      ("table mapping line " ++ toString e.detail.1 ++ ": " ++ e.detail.2) := rfl
  have start : "Configuration error: table mapping line " =
      "Configuration error: " ++ "table mapping line " := by decide
  refine ⟨rfl, ?_⟩
  rw [← number, text, start]
  simp only [String.append_assoc]

/-- A text is read just if its lines follow the grammar. Then there is one entry for each line that is
neither blank nor a comment, its source and its destination in lower case, and there are no others. If not,
then the error is about the first line that does not follow it, be it malformed or a repetition, by its
number among all lines. -/
theorem parse_by_grammar (contents : String) :
    let lines := Text.lineChars contents.toList
    ((∃ m, parse contents = .ok m) ↔ Grammatical lines) ∧
    (∀ m, parse contents = .ok m → (m.entries.map (·.1)).Pairwise (· < ·) ∧
      ∃ made, List.Forall₂ IsEntry
        (lines.filter fun line => isSignificant (Text.trimChars line)) made ∧ m.entries.Perm made) ∧
    ∀ e, (parse contents = .error e ↔
        ∃ before line after, lines = before ++ line :: after ∧ Grammatical before ∧ Refused before line e) ∧
      ∀ before line, Refused before line e → (Error.mapping e).category = .settings ∧
        (Error.mapping e).message =
          "Configuration error: table mapping line " ++ toString (before.length + 1) ++ ": " ++ e.detail.2 := by
  intro lines
  refine ⟨⟨?_, ?_⟩, ?_, ?_⟩
  · rintro ⟨m, ok⟩
    exact (tabled_of_parse ok).grammatical
  · intro grammatical
    obtain ⟨read, ok, -⟩ | ⟨before, line, after, e, -, split, -, refused, -⟩ := readLines_cases lines
    · exact ⟨⟨read⟩, congrArg (Except.map TableMapping.mk) ok⟩
    · exact absurd (split ▸ grammatical) (not_grammatical_of_refused refused)
  · intro m ok
    exact ⟨(tabled_of_parse ok).ascending, (tabled_of_parse ok).listed⟩
  · intro e
    refine ⟨?_, fun before line refused => message_of_refused refused⟩
    rw [← readLines_eq_error_iff, parse]
    cases readLines 1 [] lines with
    | error e' => simp [Except.map]
    | ok read => simp [Except.map]

example : parse "a.b:c.d\n\n# e.f\n A.b : e.f\nnone" = .error (.repeated 4 "a.b") := by
  decide +kernel

end

end TableMapping

end TableMigration
