import TableMigration.Proofs.WordSplitting
import TableMigration.Shell.Reading

/-!
# Reading a line of words

The reader of commands goes over a line of words as splitting it does: it reads one simple command, whose
words these are, and finds nothing behind it.
-/

namespace TableMigration.Shell

/-! ## Steps of the reader -/

/-- No line goes on after a backslash at its end. -/
def Whole (cs : List Char) : Prop :=
  ∀ r, cs ≠ '\\' :: '\n' :: r

abbrev outside : Surroundings := ⟨.nothing, false, false⟩

theorem whole_of_head {c : Char} (cs : List Char) (h : c ≠ '\\') : Whole (c :: cs) := by
  intro r same
  exact h (List.cons.inj same).1

theorem whole_of_blank {c : Char} (cs : List Char) (blank : isBlank c = true) : Whole (c :: cs) := by
  apply whole_of_head
  rintro rfl
  exact absurd blank (by decide)

theorem EndsWord.whole {rest : List Char} (ends : EndsWord rest) : Whole rest := by
  cases rest with
  | nil => simp [Whole]
  | cons c cs => exact whole_of_blank cs (ends c rfl)

theorem peek_run {r : Reader} (h : Whole r.rest) : peek.run r = some (r.rest.head?, r) := by
  have join : joinLines r.rest = (0, r.rest) := by
    unfold joinLines
    split
    next cs same => exact absurd same (h cs)
    next => rfl
  simp [peek, join]

theorem take_run {r : Reader} {c : Char} {cs : List Char} (h : r.rest = c :: cs) : take.run r =
    some (some c, { r with rest := cs, line := if c = '\n' then r.line + 1 else r.line }) := by
  simp [take, h]

theorem bind_run {α β : Type} {m : Reading α} {f : α → Reading β} {a : α} {r r' : Reader}
    (read : m.run r = some (a, r')) : (m >>= f).run r = (f a).run r' := by
  simp [read]

theorem get_run {β : Type} (f : Reader → Reading β) (r : Reader) : (get >>= f).run r = (f r).run r := rfl

theorem discard_run {α : Type} (m : Reading α) (r : Reader) :
    (discard m).run r = (m.run r).map fun p => ((), p.2) := by
  show StateT.map (Function.const α ()) m r = (m r).map fun p => ((), p.2)
  unfold StateT.map
  cases m r <;> simp

theorem singleQuoted_closed {q : List Char} (closed : '\'' ∉ q) (rest : List Char) :
    singleQuoted (q ++ '\'' :: rest) = some (q, rest) := by
  induction q with
  | nil => rfl
  | cons c q ih =>
    rw [List.mem_cons, not_or] at closed
    rw [List.cons_append, singleQuoted, ih closed.2]
    · rfl
    · exact Ne.symm closed.1

/-! ## Words -/

section
variable (nested : Nested) (n : Nat) {r : Reader}

theorem readWord_ends (ends : EndsWord r.rest) : (readWord nested (n + 1) outside).run r = some ([], r) := by
  unfold readWord
  cases text : r.rest with
  | nil => simp [peek_run ends.whole, text, outside]
  | cons c cs =>
    have blank : isBlank c = true := ends c (by rw [text]; rfl)
    simp [peek_run ends.whole, text, outside, Surroundings.endsAt, blank]

theorem readWord_glyph {c : Char} {cs : List Char} (text : r.rest = c :: cs) (whole : Whole r.rest)
    (line : c ≠ '\n') (here : outside.endsAt c = false) : (readWord nested (n + 1) outside).run r =
      ((readGlyph nested (readWord nested n) outside c).run { r with rest := cs }).bind fun p =>
        ((readWord nested n outside).run p.2).map fun q => (p.1 ++ q.1, q.2) := by
  rw [readWord]
  simp [peek_run whole, text, discard_run, take_run text, line, here]

theorem readWord_quoted {q cs : List Char} (closed : '\'' ∉ q) (text : r.rest = '\'' :: q ++ '\'' :: cs) :
    (readWord nested (n + 1) outside).run r =
      ((readWord nested n outside).run { r with rest := cs, line := r.line + q.count '\n' }).map
        fun p => (.quotes :: q.map .literal ++ p.1, p.2) := by
  have whole : Whole r.rest := by
    rw [text]
    exact whole_of_head _ (by decide)
  rw [readWord_glyph nested n text whole (by decide) (by decide)]
  simp [readGlyph, readSingleQuoted, singleQuoted_closed closed]

theorem readWord_escaped {c : Char} {cs : List Char} (joins : c ≠ '\n') (text : r.rest = '\\' :: c :: cs) :
    (readWord nested (n + 1) outside).run r =
      ((readWord nested n outside).run { r with rest := cs }).map fun p => (.literal c :: p.1, p.2) := by
  have whole : Whole r.rest := by
    intro cs' same
    rw [text] at same
    exact joins (List.cons.inj (List.cons.inj same).2).1
  rw [readWord_glyph nested n text whole (by decide) (by decide)]
  simp [readGlyph, readEscape, take, joins, Surroundings.escapes]

theorem readWord_bare {c : Char} {cs : List Char} (plain : isPlain c = true) (text : r.rest = c :: cs) :
    (readWord nested (n + 1) outside).run r =
      ((readWord nested n outside).run { r with rest := cs }).map fun p => (.bare c :: p.1, p.2) := by
  obtain ⟨blank, operator, quote, backslash, double, dollar, back⟩ := isPlain_iff.mp plain
  have whole : Whole r.rest := by
    rw [text]
    exact whole_of_head _ backslash
  have line : c ≠ '\n' := by
    rintro rfl
    exact absurd operator (by decide)
  rw [readWord_glyph nested n text whole line (by simp [Surroundings.endsAt, blank, operator])]
  simp [readGlyph, Surroundings.glyph]

end

theorem readWord_spells (nested : Nested) {cs : List Char} {w : Word} (h : Spells cs w) :
    ∀ {r : Reader} {rest : List Char} {n : Nat}, r.rest = cs ++ rest → EndsWord rest → cs.length < n →
      ∃ line, (readWord nested n outside).run r = some (w, { r with rest, line }) := by
  induction h with
  | nil =>
    intro r rest n text ends fuel
    obtain ⟨n, rfl⟩ := Nat.exists_eq_add_one.mpr fuel
    rw [List.nil_append] at text
    exact ⟨r.line, by rw [readWord_ends nested n (text ▸ ends), ← text]⟩
  | @bare c cs w plain _ ih =>
    intro r rest n text ends fuel
    obtain ⟨n, rfl⟩ := Nat.exists_eq_add_one.mpr (Nat.zero_lt_of_lt fuel)
    have text' : r.rest = c :: (cs ++ rest) := text
    obtain ⟨line, read⟩ := ih (r := { r with rest := cs ++ rest }) rfl ends (Nat.lt_of_succ_lt_succ fuel)
    exact ⟨line, by rw [readWord_bare nested n plain text', read]; rfl⟩
  | @escaped c cs w joins _ ih =>
    intro r rest n text ends fuel
    obtain ⟨n, rfl⟩ := Nat.exists_eq_add_one.mpr (Nat.zero_lt_of_lt fuel)
    have fuel' : cs.length < n := Nat.lt_of_succ_lt (Nat.lt_of_succ_lt_succ fuel)
    have text' : r.rest = '\\' :: c :: (cs ++ rest) := text
    obtain ⟨line, read⟩ := ih (r := { r with rest := cs ++ rest }) rfl ends fuel'
    exact ⟨line, by rw [readWord_escaped nested n joins text', read]; rfl⟩
  | @quoted q cs w closed _ ih =>
    intro r rest n text ends fuel
    obtain ⟨n, rfl⟩ := Nat.exists_eq_add_one.mpr (Nat.zero_lt_of_lt fuel)
    have fuel' : cs.length < n := by
      simp at fuel
      omega
    have text' : r.rest = '\'' :: q ++ '\'' :: (cs ++ rest) := by simpa using text
    obtain ⟨line, read⟩ := ih (r := { r with rest := cs ++ rest, line := r.line + q.count '\n' }) rfl ends fuel'
    exact ⟨line, by rw [readWord_quoted nested n closed text', read]; rfl⟩

/-! ## Tokens -/

theorem Splits.first {cs : List Char} {ws : List Word} (h : Splits cs ws) :
    ∃ blanks rest, cs = blanks ++ rest ∧ (∀ c ∈ blanks, isBlank c = true) ∧
      (rest = [] ∧ ws = [] ∨ ∃ c text behind w later, rest = c :: text ++ behind ∧ ws = w :: later ∧
        Spells (c :: text) w ∧ EndsWord behind ∧ Splits behind later) := by
  induction h with
  | nil => exact ⟨[], [], rfl, List.forall_mem_nil _, .inl ⟨rfl, rfl⟩⟩
  | blank blank _ ih =>
    obtain ⟨blanks, rest, rfl, all, first⟩ := ih
    exact ⟨_ :: blanks, rest, rfl, List.forall_mem_cons.mpr ⟨blank, all⟩, first⟩
  | word spelled filled ends later =>
    obtain ⟨c, text, rfl⟩ := List.exists_cons_of_ne_nil filled
    exact ⟨[], _, rfl, List.forall_mem_nil _, .inr ⟨c, text, _, _, _, rfl, rfl, spelled, ends, later⟩⟩

theorem Spells.whole {c : Char} {cs : List Char} {w : Word} (h : Spells (c :: cs) w) (rest : List Char) :
    Whole (c :: cs ++ rest) := by
  cases h with
  | bare plain => exact whole_of_head _ (isPlain_iff.mp plain).2.2.2.1
  | escaped joins =>
    intro r same
    exact joins (List.cons.inj (List.cons.inj same).2).1
  | quoted => exact whole_of_head _ (by decide)

theorem Spells.not_operator {c : Char} {cs : List Char} {w : Word} (h : Spells (c :: cs) w) :
    isOperator c = false := by
  cases h with
  | bare plain => exact (isPlain_iff.mp plain).2.1
  | escaped => rfl
  | quoted => rfl

def Uncommented (ws : List Word) : Prop :=
  ∀ w, .bare '#' :: w ∉ ws

theorem uncommented_cons {w : Word} {ws : List Word} :
    Uncommented (w :: ws) ↔ (∀ w', w ≠ .bare '#' :: w') ∧ Uncommented ws := by
  simp only [Uncommented, List.mem_cons, not_or, forall_and, ne_comm (b := w)]

theorem takeWhile_blanks {blanks rest : List Char} (all : ∀ c ∈ blanks, isBlank c = true) (whole : Whole rest)
    (stops : ∀ c, rest.head? = some c → isBlank c = false) : ∀ {r : Reader} {n : Nat},
      r.rest = blanks ++ rest → blanks.length < n →
        (takeWhile.go isBlank n).run r = some (blanks, { r with rest }) := by
  induction blanks with
  | nil =>
    intro r n text fuel
    obtain ⟨n, rfl⟩ := Nat.exists_eq_add_one.mpr fuel
    obtain rfl : r.rest = rest := text
    rw [takeWhile.go]
    cases head : r.rest.head? with
    | none => simp [peek_run whole, head]
    | some c => simp [peek_run whole, head, stops c head]
  | cons c blanks ih =>
    intro r n text fuel
    obtain ⟨n, rfl⟩ := Nat.exists_eq_add_one.mpr (Nat.zero_lt_of_lt fuel)
    obtain ⟨blank, all⟩ := List.forall_mem_cons.mp all
    have text' : r.rest = c :: (blanks ++ rest) := text
    have line : c ≠ '\n' := by
      rintro rfl
      exact absurd blank (by decide)
    have whole' : Whole r.rest := text' ▸ whole_of_blank _ blank
    have read := ih all (r := { r with rest := blanks ++ rest }) rfl (Nat.lt_of_succ_lt_succ fuel)
    rw [takeWhile.go]
    simp [peek_run whole', text', blank, discard_run, take_run text', line, read]

theorem skipBlanks_run {r : Reader} {blanks rest : List Char} (text : r.rest = blanks ++ rest)
    (all : ∀ c ∈ blanks, isBlank c = true) (whole : Whole rest)
    (stops : ∀ c, rest.head? = some c → isBlank c = false) (comment : rest.head? ≠ some '#') :
    skipBlanks.run r = some ((), { r with rest }) := by
  have fuel : blanks.length < r.rest.length + 1 := by
    rw [text, List.length_append]
    omega
  have read := takeWhile_blanks all whole stops text fuel
  have whole' : Whole { r with rest }.rest := whole
  unfold skipBlanks takeWhile
  simp [discard_run, read, peek_run whole', comment]

/-- A reader of one line of words, nothing of which has been read ahead. -/
structure Reads (r : Reader) (ws : List Word) : Prop where
  ahead : r.ahead = none
  pending : r.pending = []
  aliases : r.aliases = []
  splits : Splits r.rest ws

theorem readDocuments_run (nested : Nested) {r : Reader} (pending : r.pending = []) :
    (readDocuments nested).run r = some ((), r) := by
  have same : ({ r with pending := [] } : Reader) = r := by rw [← pending]
  simp [readDocuments, pending, same]

theorem readToken_finish (nested : Nested) {r : Reader} (reads : Reads r []) :
    ∃ r', (readToken nested false).run r = some (.finish, r') ∧ Reads r' [] := by
  obtain ⟨blanks, rest, text, all, first⟩ := reads.splits.first
  obtain ⟨rfl, -⟩ | ⟨_, _, _, _, _, _, none, _⟩ := first
  · have skip := skipBlanks_run text all (by simp [Whole]) (by simp) (by simp)
    have peeked := peek_run (r := { r with rest := [] }) (by simp [Whole])
    have documents := readDocuments_run nested (r := { r with rest := [] }) reads.pending
    refine ⟨{ r with rest := [] }, ?_, reads.ahead, reads.pending, reads.aliases, .nil⟩
    unfold readToken
    rw [bind_run skip, bind_run peeked]
    exact bind_run documents
  · cases none

theorem readToken_begun (nested : Nested) {r r₁ r₂ : Reader} {c : Char} {w : Word}
    (skip : skipBlanks.run r = some ((), r₁)) (first : peek.run r₁ = some (some c, r₁))
    (operator : isOperator c = false)
    (read : (readWord nested (r₁.rest.length + 1) outside).run r₁ = some (w, r₂)) (ends : EndsWord r₂.rest) :
    (readToken nested false).run r = some (.word w, r₂) := by
  simp only [isOperator, Bool.or_eq_false_iff, beq_eq_false_iff_ne] at operator
  unfold readToken
  rw [bind_run skip, bind_run first]
  simp only
  split <;> rename_i head <;> try (cases head <;> simp at operator; done)
  rw [get_run]
  refine (bind_run read).trans ?_
  refine (bind_run (peek_run ends.whole)).trans ?_
  split
  next c =>
    -- a digit only names a stream right before a redirection
    have sign : ¬(r₂.rest.head? = some '<' ∨ r₂.rest.head? = some '>') := by
      rintro (head | head) <;> exact absurd (ends _ head) (by decide)
    simp only [Bool.and_eq_true, Bool.or_eq_true, decide_eq_true_eq, sign, and_false, if_false]
    rfl
  next => rfl

theorem readToken_word (nested : Nested) {r : Reader} {w : Word} {ws : List Word} (reads : Reads r (w :: ws))
    (uncommented : ∀ w', w ≠ .bare '#' :: w') :
    ∃ r', (readToken nested false).run r = some (.word w, r') ∧ Reads r' ws := by
  obtain ⟨blanks, rest, text, all, first⟩ := reads.splits.first
  obtain ⟨-, none⟩ | ⟨c, cs, behind, w', later, rfl, same, spelled, ends, splits⟩ := first
  · cases none
  obtain ⟨rfl, rfl⟩ := List.cons.inj same
  have comment : c ≠ '#' := by
    rintro rfl
    cases spelled with
    | bare => exact uncommented _ rfl
  have skip := skipBlanks_run text all (spelled.whole behind)
    (by rintro _ ⟨⟩; exact spelled.not_blank) (by simpa using comment)
  have fuel : (c :: cs).length < (c :: cs ++ behind).length + 1 := by
    rw [List.length_append]
    omega
  obtain ⟨line, read⟩ := readWord_spells nested spelled (r := { r with rest := c :: cs ++ behind }) rfl ends fuel
  exact ⟨{ r with rest := behind, line },
    readToken_begun nested skip (peek_run (spelled.whole behind)) spelled.not_operator read ends,
    reads.ahead, reads.pending, reads.aliases, splits⟩

/-! ## Commands -/

theorem Splits.length_le {cs : List Char} {ws : List Word} (h : Splits cs ws) : ws.length ≤ cs.length := by
  induction h with
  | nil => exact Nat.le_refl 0
  | blank _ _ ih => exact Nat.le_succ_of_le ih
  | word _ filled _ _ ih =>
    rw [List.length_cons, List.length_append]
    have := List.length_pos_of_ne_nil filled
    omega

def Reader.holding (r : Reader) (t : Token) : Reader :=
  { r with ahead := some t }

@[simp] theorem Reader.holding_rest (r : Reader) (t : Token) : (r.holding t).rest = r.rest := rfl

theorem putBack_run (t : Token) (r : Reader) : (putBack t).run r = some ((), r.holding t) := rfl

/-- Reading from `r` comes to the end of the line with this result. -/
def Completes {α : Type} (m : Reading α) (r : Reader) (a : α) : Prop :=
  ∃ r', m.run r = some (a, r'.holding .finish) ∧ Reads r' []

structure NamesCommand (w : Word) : Prop where
  keyword : (Token.word w).text?.any keywords.contains = false
  assignment : assignment? w = none

section
variable (again : Goal → Reading (Option Command)) {r : Reader} {w : Word} {ws : List Word}

theorem next_holding (ahead : r.ahead = none) (t : Token) : (next again).run (r.holding t) = some (t, r) := by
  have same : { r with ahead := none } = r := by rw [← ahead]
  simp [next, nextToken, Reader.holding, same]

theorem next_fresh (ahead : r.ahead = none) :
    (next again).run r = (readToken (nested again) false).run r := by
  simp [next, nextToken, ahead]

theorem useAlias_none (aliases : r.aliases = []) (t : Token) : (useAlias t).run r = some (false, r) := by
  unfold useAlias
  cases text : t.text? <;> simp [aliases]

theorem nextOfCommand_holding (ahead : r.ahead = none) (aliases : r.aliases = []) (t : Token)
    (keywordsCount : Bool) : (nextOfCommand again keywordsCount false).run (r.holding t) = some (t, r) := by
  unfold nextOfCommand nextOfCommand.go
  simp only [Bool.false_eq_true, if_false]
  rw [bind_run (next_holding again ahead t)]
  split
  · rfl
  · rw [bind_run (useAlias_none aliases t)]
    rfl

theorem readSimple_go (line n : Nat) {d : Draft} (begun : d.words ≠ []) (reads : Reads r ws)
    (uncommented : Uncommented ws) (fuel : ws.length < n) : Completes (readSimple.go again line n d) r
      (.simple line d.assignments (d.words ++ ws) d.redirections) := by
  induction ws generalizing r d n with
  | nil =>
    obtain ⟨n, rfl⟩ := Nat.exists_eq_add_one.mpr fuel
    obtain ⟨r', read, reads'⟩ := readToken_finish (nested again) reads
    refine ⟨r', ?_, reads'⟩
    rw [← next_fresh again reads.ahead] at read
    rw [readSimple.go]
    simp only [begun, List.isEmpty_iff, if_false]
    rw [bind_run read, List.append_nil]
    rfl
  | cons w ws ih =>
    obtain ⟨n, rfl⟩ := Nat.exists_eq_add_one.mpr (Nat.zero_lt_of_lt fuel)
    obtain ⟨here, later⟩ := uncommented_cons.mp uncommented
    obtain ⟨r₁, read, reads₁⟩ := readToken_word (nested again) reads here
    rw [← next_fresh again reads.ahead] at read
    obtain ⟨r', rest, reads'⟩ := ih n (d := { d with words := d.words ++ [w] }) (by simp) reads₁ later
      (Nat.lt_of_succ_lt_succ fuel)
    refine ⟨r', ?_, reads'⟩
    rw [readSimple.go]
    simp only [begun, List.isEmpty_iff, if_false]
    rw [bind_run read]
    simpa using rest

variable (reads : Reads r ws) (uncommented : Uncommented ws)

include reads uncommented in
theorem readSimple_completes (line : Nat) (assignment : assignment? w = none) :
    Completes (readSimple again line) (r.holding (.word w)) (.simple line [] (w :: ws) []) := by
  obtain ⟨r', rest, reads'⟩ := readSimple_go again line (r.rest.length + 1) (d := ⟨[], [w], []⟩) (by simp) reads
    uncommented (Nat.lt_succ_of_le reads.splits.length_le)
  refine ⟨r', ?_, reads'⟩
  rw [readSimple, get_run, readSimple.go]
  simp only [List.isEmpty_nil, if_true]
  rw [bind_run (nextOfCommand_holding again reads.ahead reads.aliases (.word w) false)]
  simpa [assignment] using rest

include reads uncommented in
theorem readCommand_completes (named : NamesCommand w) :
    Completes (readCommand again) (r.holding (.word w)) (.simple r.line [] (w :: ws) []) := by
  obtain ⟨r', rest, reads'⟩ := readSimple_completes again reads uncommented r.line named.assignment
  refine ⟨r', ?_, reads'⟩
  rw [readCommand, get_run]
  rw [bind_run (nextOfCommand_holding again reads.ahead reads.aliases (.word w) true)]
  have keyword := named.keyword
  simp only
  split <;> rename_i text <;> try (rw [text] at keyword; exact absurd keyword (by decide))
  rw [if_neg (by simp [keyword])]
  exact rest

theorem readPiped_holding (reads : Reads r []) (n : Nat) (c : Command) :
    (readPiped again (n + 1) c).run (r.holding .finish) = some ([c], r.holding .finish) := by
  rw [readPiped, bind_run (next_holding again reads.ahead .finish)]
  rfl

theorem readJoined_holding (reads : Reads r []) (n : Nat) (c : Command) :
    (readJoined again (n + 1) c).run (r.holding .finish) = some (c, r.holding .finish) := by
  rw [readJoined, bind_run (next_holding again reads.ahead .finish)]
  rfl

include reads uncommented in
theorem readPipeline_completes (named : NamesCommand w) :
    Completes (readPipeline again) (r.holding (.word w)) (.simple r.line [] (w :: ws) []) := by
  obtain ⟨r', read, reads'⟩ := readCommand_completes again reads uncommented named
  refine ⟨r', ?_, reads'⟩
  have negated : (Token.word w).isKeyword "!" = false := by
    have keyword := named.keyword
    rw [Token.isKeyword, beq_eq_false_iff_ne]
    intro text
    rw [text] at keyword
    exact absurd keyword (by decide)
  rw [readPipeline, bind_run (nextOfCommand_holding again reads.ahead reads.aliases (.word w) true)]
  simp only [negated, Bool.false_eq_true, if_false]
  rw [bind_run (putBack_run (.word w) r), bind_run read]
  rw [get_run, bind_run (readPiped_holding again reads' _ _)]
  rfl

include reads uncommented in
theorem readList_completes (named : NamesCommand w) (n : Nat) :
    Completes (readList again .line (n + 1) []) (r.holding (.word w)) [.simple r.line [] (w :: ws) []] := by
  obtain ⟨r', read, reads'⟩ := readPipeline_completes again reads uncommented named
  refine ⟨r', ?_, reads'⟩
  rw [readList]
  simp only [if_true]
  rw [bind_run (next_holding again reads.ahead (.word w))]
  simp only [ne_eq, not_true, decide_false, Bool.false_and]
  rw [bind_run (putBack_run (.word w) r)]
  simp only [Bool.false_eq_true, if_false]
  rw [bind_run read, get_run, bind_run (readJoined_holding again reads' _ _)]
  rw [bind_run (next_holding again reads'.ahead .finish)]
  rfl

end

theorem read_completes {r : Reader} {w : Word} {ws : List Word} (reads : Reads r ws)
    (uncommented : Uncommented ws) (named : NamesCommand w) (n : Nat) :
    Completes (read (n + 1) .line) (r.holding (.word w)) (some (.simple r.line [] (w :: ws) [])) := by
  obtain ⟨r', list, reads'⟩ := readList_completes (read n) reads uncommented named (r.rest.length + 1)
  refine ⟨r', ?_, reads'⟩
  unfold read readGoal
  rw [get_run, Reader.holding_rest, bind_run list]
  rfl

/-- A line of words is read as one simple command, and nothing follows it. -/
theorem next_run {r : Reader} {w : Word} {ws : List Word} (reads : Reads r (w :: ws))
    (uncommented : Uncommented (w :: ws)) (named : NamesCommand w) :
    ∃ line after, r.next = .read (some (.simple line [] (w :: ws) [])) after ∧ after.ahead = some .finish := by
  obtain ⟨here, later⟩ := uncommented_cons.mp uncommented
  obtain ⟨r₁, first, reads₁⟩ := readToken_word (nested (read (r.rest.length + 2))) reads here
  obtain ⟨r', command, -⟩ := read_completes reads₁ later named (r.rest.length + 1)
  refine ⟨r₁.line, r'.holding .finish, ?_, rfl⟩
  have token := (next_fresh (read (r.rest.length + 2)) reads.ahead).trans first
  rw [next] at token
  rw [Reader.next, token]
  simp only
  rw [bind_run (putBack_run _ _), command]

theorem next_finished {r : Reader} (ahead : r.ahead = some .finish) : r.next = .finished := by
  simp [Reader.next, nextToken, ahead]

end TableMigration.Shell
