import TableMigration.Proofs.Counting

/-!
# How units end

A unit runs its scripts in order up to the first that fails. Its end is decided by the results of these
scripts and by what the last of them printed, and settles this one unit. A count is kept for a validate
unit that succeeds, under its own key, and nothing else is kept.
-/

namespace TableMigration

/-! ## Runs of scripts -/

def ScriptResult.Succeeds (result : ScriptResult) : Prop :=
  ∃ output, result = .exited 0 output

def lastPrinted (trace : List (String × ScriptResult)) : String :=
  match trace.getLast? with
  | some (_, .exited _ output) => Text.decodeLossy output
  | _ => ""

section
variable {ω : Type} (execute : ω → String → ω × ScriptResult)

/-- From one world to another these command lines have been run, each with the result that it had in the
world that the one before it left behind. -/
inductive Executed : ω → List (String × ScriptResult) → ω → Prop
  | nil (world : ω) : Executed world [] world
  | cons {world next last : ω} {command : String} {result : ScriptResult}
      {trace : List (String × ScriptResult)} (ran : execute world command = (next, result))
      (rest : Executed next trace last) : Executed world ((command, result) :: trace) last

/-- The command lines were run in order, and just up to the first that failed. -/
structure RanUpToFailure (commands : List String) (world : ω) (trace : List (String × ScriptResult))
    (after : ω) : Prop where
  executed : Executed execute world trace after
  inOrder : trace.map (·.1) <+: commands
  noneAfter : ∀ x ∈ trace.dropLast, x.2.Succeeds
  stopped : trace.map (·.1) ≠ commands → ∃ x, trace.getLast? = some x ∧ ¬x.2.Succeeds

def AllSucceed (commands : List String) (trace : List (String × ScriptResult)) : Prop :=
  trace.map (·.1) = commands ∧ ∀ x ∈ trace, x.2.Succeeds

end

section
variable {ω : Type} {execute : ω → String → ω × ScriptResult}

theorem lastPrinted_cons {command : String} {output : ByteArray} (trace : List (String × ScriptResult)) :
    lastPrinted ((command, .exited 0 output) :: trace) =
      if trace = [] then Text.decodeLossy output else lastPrinted trace := by
  cases trace with
  | nil => rfl
  | cons x trace => simp [lastPrinted, List.getLast?_cons_cons]

theorem RanUpToFailure.cons {command : String} {rest : List String} {world next after : ω}
    {output : ByteArray} {trace : List (String × ScriptResult)}
    (ran : execute world command = (next, .exited 0 output))
    (later : RanUpToFailure execute rest next trace after) :
    RanUpToFailure execute (command :: rest) world ((command, .exited 0 output) :: trace) after where
  executed := .cons ran later.executed
  inOrder := by simpa using later.inOrder
  noneAfter := by
    cases trace with
    | nil => simp
    | cons x trace =>
      intro y hy
      rcases List.mem_cons.mp hy with rfl | hy
      · exact ⟨output, rfl⟩
      · exact later.noneAfter y hy
  stopped := by
    intro less
    have less' : trace.map (·.1) ≠ rest := by
      intro same
      exact less (by rw [List.map_cons, same])
    obtain ⟨x, last, failed⟩ := later.stopped less'
    exact ⟨x, by rw [List.getLast?_cons, last]; rfl, failed⟩

theorem RanUpToFailure.failed {command : String} {world next : ω} {result : ScriptResult}
    (ran : execute world command = (next, result)) (failed : ¬result.Succeeds) (rest : List String) :
    RanUpToFailure execute (command :: rest) world [(command, result)] next where
  executed := .cons ran (.nil next)
  inOrder := by simp
  noneAfter := List.forall_mem_nil _
  stopped _ := ⟨_, rfl, failed⟩

theorem allSucceed_cons {command : String} {rest : List String} {output : ByteArray}
    {trace : List (String × ScriptResult)} :
    AllSucceed (command :: rest) ((command, .exited 0 output) :: trace) ↔ AllSucceed rest trace := by
  have exits : ScriptResult.Succeeds (.exited 0 output) := ⟨output, rfl⟩
  simp [AllSucceed, exits]

variable (execute) in
theorem runCommands_ranUpToFailure (world : ω) (commands : List String) (printed : String) :
    ∃ trace, RanUpToFailure execute commands world trace (runCommands execute world printed commands).1 ∧
      ((AllSucceed commands trace ∧ (runCommands execute world printed commands).2 =
        some (if trace = [] then printed else lastPrinted trace)) ∨
      (¬AllSucceed commands trace ∧ (runCommands execute world printed commands).2 = none)) := by
  induction commands generalizing world printed with
  | nil =>
    refine ⟨[], ⟨.nil world, List.prefix_rfl, List.forall_mem_nil _, fun less => absurd rfl less⟩, .inl ?_⟩
    exact ⟨⟨rfl, List.forall_mem_nil _⟩, rfl⟩
  | cons command rest ih =>
    cases ran : execute world command with
    | mk next result =>
      by_cases exits : result.Succeeds
      · obtain ⟨output, rfl⟩ := exits
        have step : runCommands execute world printed (command :: rest) =
            runCommands execute next (Text.decodeLossy output) rest := by
          simp only [runCommands, ran]
        obtain ⟨trace, later, ended⟩ := ih next (Text.decodeLossy output)
        rw [step]
        refine ⟨_, later.cons ran, ?_⟩
        rw [allSucceed_cons, lastPrinted_cons, if_neg (List.cons_ne_nil _ _)]
        exact ended
      · have stop : runCommands execute world printed (command :: rest) = (next, none) := by
          simp only [runCommands, ran]
          split
          next same =>
            obtain ⟨-, rfl⟩ := Prod.mk.inj same
            exact absurd ⟨_, rfl⟩ exits
          next same => rw [(Prod.mk.inj same).1]
        rw [stop]
        refine ⟨_, .failed ran exits rest, .inr ⟨?_, rfl⟩⟩
        intro all
        exact exits (all.2 _ (List.mem_singleton_self _))

end

/-! ## The result of a unit -/

/-- All scripts of a unit of `a` exit well, and if its rows are counted the last one prints their number. -/
def UnitPasses (a : Action) (commands : List String) (trace : List (String × ScriptResult)) : Prop :=
  AllSucceed commands trace ∧ (a.measures? ≠ none → ∃ n, readRowCount (lastPrinted trace) = .ok n)

namespace JobResult

theorem outcome_of_iff {a : Action} {printed : Option String} : (JobResult.of a printed).outcome = .succeeded ↔
    ∃ text, printed = some text ∧ (a.measures? ≠ none → ∃ n, readRowCount text = .ok n) := by
  unfold JobResult.of
  cases printed with
  | none => simp
  | some text =>
    cases a.measures? with
    | none => simp
    | some side => cases read : readRowCount text <;> simp [read]

theorem count_of_iff {a : Action} {printed : Option String} {n : Nat} : (JobResult.of a printed).count = some n ↔
    ∃ text, printed = some text ∧ a.measures? ≠ none ∧ readRowCount text = .ok n := by
  unfold JobResult.of
  cases printed with
  | none => simp
  | some text =>
    cases a.measures? with
    | none => simp
    | some side => cases read : readRowCount text <;> simp [read]

theorem outcome_of_count {a : Action} {printed : Option String} {n : Nat}
    (counted : (JobResult.of a printed).count = some n) : (JobResult.of a printed).outcome = .succeeded := by
  obtain ⟨text, prints, -, read⟩ := count_of_iff.mp counted
  exact outcome_of_iff.mpr ⟨text, prints, fun _ => ⟨n, read⟩⟩

theorem succeeds_iff_unitPasses {ω : Type} (execute : ω → String → ω × ScriptResult) (world : ω)
    (commands : List String) (a : Action) :
    ∃ trace, RanUpToFailure execute commands world trace (runCommands execute world "" commands).1 ∧
      ((JobResult.of a (runCommands execute world "" commands).2).outcome = .succeeded ↔
        UnitPasses a commands trace) ∧
      (UnitPasses a commands trace →
        (runCommands execute world "" commands).2 = some (lastPrinted trace)) := by
  obtain ⟨trace, ran, ended⟩ := runCommands_ranUpToFailure execute world commands ""
  have blank : (if trace = [] then "" else lastPrinted trace) = lastPrinted trace := by
    cases trace <;> rfl
  rw [blank] at ended
  refine ⟨trace, ran, ?_, fun pass => (ended.resolve_right fun less => less.1 pass.1).2⟩
  rw [outcome_of_iff, UnitPasses]
  obtain ⟨all, text⟩ | ⟨less, none⟩ := ended
  · simp [text, all]
  · simp [none, less]

end JobResult

/-! ## Settling the unit -/

namespace Scheduler

variable {σ δ ν : Type}

theorem countsAfter_of_uncounted (counts : RowCounts) {h : Handle} {result : JobResult}
    (uncounted : h.action.measures? = none ∨ result.count = none) : countsAfter counts h result = counts := by
  unfold countsAfter
  split
  next side n measures counted =>
    rcases uncounted with none | none
    · cases none.symm.trans measures
    · cases none.symm.trans counted
  next => rfl

theorem get?_countsAfter (counts : RowCounts) {h : Handle} {result : JobResult} {side : Warehouse} {n : Nat}
    (measures : h.action.measures? = some side) (counted : result.count = some n) (key : CountKey) :
    (countsAfter counts h result).get? key =
      if key = ⟨h.task, side, h.unit⟩ then some n else counts.get? key := by
  unfold countsAfter
  simp only [measures, counted]
  exact RowCounts.get?_record ..

/-- A running unit ends as its scripts say: they run in order up to the first that fails, it succeeds just
if all exit well and a count, if one is asked for, can be read, and nothing but that count is kept. -/
theorem unit_ends_by_scripts {ω : Type} (execute : ω → String → ω × ScriptResult) (world : ω)
    (s : Scheduler σ δ ν) (runners : Runners) (kind : Warehouse) (scripts : List Path) {h : Handle}
    (running : s.progressAt? h.cell = some .running) :
    let commands := scripts.map (runners.commandLine kind)
    let after := s.runJob execute world ⟨h, commands⟩
    ∃ trace, RanUpToFailure execute commands world trace after.1 ∧
      (after.2.progressAt? h.cell = some .succeeded ↔ UnitPasses h.action commands trace) ∧
      (after.2.progressAt? h.cell = some .failed ↔ ¬UnitPasses h.action commands trace) ∧
      (∀ c ≠ h.cell, after.2.progressAt? c = s.progressAt? c) ∧
      (¬UnitPasses h.action commands trace ∨ h.action.measures? = none → after.2.counts = s.counts) ∧
      ∀ side n, UnitPasses h.action commands trace → h.action.measures? = some side →
        readRowCount (lastPrinted trace) = .ok n → ∀ key, after.2.counts.get? key =
          if key = ⟨h.task, side, h.unit⟩ then some n else s.counts.get? key := by
  intro commands after
  obtain ⟨trace, ran, passes, prints⟩ :=
    JobResult.succeeds_iff_unitPasses execute world commands h.action
  set printed := (runCommands execute world "" commands).2
  have progress : ∀ c, after.2.progressAt? c =
      if h.cell = c ∧ s.progressAt? c = some .running then
        some (JobResult.of h.action printed).outcome.progress
      else s.progressAt? c :=
    s.complete_progressAt? h _
  have counts : after.2.counts = countsAfter s.counts h (.of h.action printed) :=
    congrArg Scheduler.counts (s.complete_eq h (.of h.action printed))
  refine ⟨trace, ran, ?_, ?_, ?_, ?_, ?_⟩
  · rw [progress, if_pos ⟨rfl, running⟩, ← passes]
    cases (JobResult.of h.action printed).outcome <;> simp [Outcome.progress]
  · rw [progress, if_pos ⟨rfl, running⟩, ← passes]
    cases (JobResult.of h.action printed).outcome <;> simp [Outcome.progress]
  · intro c other
    rw [progress, if_neg fun both => other both.1.symm]
  · intro kept
    rw [counts]
    apply countsAfter_of_uncounted
    rcases kept with failed | unmeasured
    · exact .inr (Option.eq_none_iff_forall_ne_some.mpr fun n counted =>
        failed (passes.mp (JobResult.outcome_of_count counted)))
    · exact .inl unmeasured
  · intro side n pass measures read key
    have counted : (JobResult.of h.action printed).count = some n :=
      JobResult.count_of_iff.mpr ⟨_, prints pass, by simp [measures], read⟩
    rw [counts, get?_countsAfter s.counts measures counted key]

end Scheduler

/-! ## A validate unit of two scripts -/

namespace CountedUnit

def running : Scheduler MemoryStore Unit Unit where
  plan := .standard .hive
  tasks := [⟨"db.t", none, [⟨.validateSource, .running, [⟨"all", .running⟩]⟩], .running⟩]
  gate := .uniform (.standard .hive) 1
  log := .openOn ⟨[]⟩
  dispatcher := ()
  validator := ()
  counts := .empty
  handles := []
  resumed := 0

def handle : Handle := ⟨⟨"db.t", .validateSource, "all"⟩, 0⟩

/-- Prints how many scripts have been run by now; the third one and all after it fail. -/
def script (ran : Nat) (_ : String) : Nat × ScriptResult :=
  (ran + 1, .exited (if ran < 2 then 0 else 3) (toString (ran + 1)).toUTF8)

def ended (scripts : List Path) : Nat × Scheduler MemoryStore Unit Unit :=
  running.runJob script 0 ⟨handle, scripts.map (Runners.commandLine ⟨"hive", "odps"⟩ .source)⟩

theorem counted_or_stopped : running.progressAt? handle.cell = some .running ∧
    (∃ commands trace, RanUpToFailure script commands 0 trace (ended [⟨"a"⟩, ⟨"b"⟩]).1 ∧
      UnitPasses .validateSource commands trace ∧
      (ended [⟨"a"⟩, ⟨"b"⟩]).2.counts.get? ⟨"db.t", .source, "all"⟩ = some 2) ∧
    ∃ commands trace, RanUpToFailure script commands 0 trace 3 ∧ ¬UnitPasses .validateSource commands trace ∧
      (ended [⟨"a"⟩, ⟨"b"⟩, ⟨"c"⟩, ⟨"d"⟩]).2.counts = .empty := by
  have runs : running.progressAt? handle.cell = some .running := by decide
  refine ⟨runs, ?_, ?_⟩
  · obtain ⟨trace, ran, succeeded, -⟩ :=
      Scheduler.unit_ends_by_scripts script 0 running ⟨"hive", "odps"⟩ .source [⟨"a"⟩, ⟨"b"⟩] runs
    exact ⟨_, trace, ran, succeeded.mp (by decide +kernel), by decide +kernel⟩
  · obtain ⟨trace, ran, -, failed, -, kept, -⟩ := Scheduler.unit_ends_by_scripts script 0 running
      ⟨"hive", "odps"⟩ .source [⟨"a"⟩, ⟨"b"⟩, ⟨"c"⟩, ⟨"d"⟩] runs
    have fails := failed.mp (by decide +kernel)
    exact ⟨_, trace, ran, fails, kept (.inl fails)⟩

end CountedUnit

end TableMigration
