import TableMigration.Proofs.Handles
import TableMigration.Proofs.Stores
import TableMigration.Script.Run

/-!
# Usable settings

The rules for settings stand in a fixed order, and checking finds the first that is broken. Settings
that break none give every gated action of any plan a ceiling of at least one, so that the gate can hold
an action back only while units of it run.
-/

namespace TableMigration

theorem Text.isAllBlank_iff {s : String} : isAllBlank s = true ↔ trim s = "" := by
  rw [isAllBlank, List.all_eq_true, ← trimChars_eq_nil_iff, trim]
  constructor
  · intro none
    rw [none]
  · intro empty
    simpa using congrArg String.toList empty

/-! ## The rules in their order -/

/-- Every rule by its error, in the order in which they are looked at. -/
def SettingError.rules : List SettingError :=
  [.zeroInterval, .blankFailoverFile, .zeroStandard] ++
    (Action.catalog.flatMap fun a => [.throttledCompare a, .zeroCeiling a]) ++
    [.blankRunner .source, .blankRunner .destination]

theorem SettingError.mem_rules (e : SettingError) : e ∈ rules := by
  cases e with
  | zeroInterval | blankFailoverFile | zeroStandard => decide
  | throttledCompare a | zeroCeiling a => cases a <;> decide
  | blankRunner side => cases side <;> decide

theorem SettingError.message_injective {e e' : SettingError} (h : e.message = e'.message) : e = e' := by
  have distinct : (rules.map message).Nodup := by decide +kernel
  exact List.inj_on_of_nodup_map distinct e.mem_rules e'.mem_rules h

namespace Settings

def Breaks (s : Settings) : SettingError → Prop
  | .zeroInterval => s.scheduler.interval = 0
  | .blankFailoverFile => Text.trim s.scheduler.failoverFile = ""
  | .zeroStandard => s.concurrency.standard = 0
  | .throttledCompare a => a = .compareResults ∧ s.concurrency.overrides a ≠ none
  | .zeroCeiling a => s.concurrency.overrides a = some 0
  | .blankRunner side => Text.trim (s.runners.command side) = ""

instance (s : Settings) (e : SettingError) : Decidable (s.Breaks e) :=
  match e with
  | .zeroInterval => inferInstanceAs (Decidable (_ = _))
  | .blankFailoverFile => inferInstanceAs (Decidable (_ = _))
  | .zeroStandard => inferInstanceAs (Decidable (_ = _))
  | .throttledCompare _ => inferInstanceAs (Decidable (_ ∧ _))
  | .zeroCeiling _ => inferInstanceAs (Decidable (_ = _))
  | .blankRunner _ => inferInstanceAs (Decidable (_ = _))

structure Usable (s : Settings) : Prop where
  interval : 1 ≤ s.scheduler.interval
  failoverFile : Text.trim s.scheduler.failoverFile ≠ ""
  standard : 1 ≤ s.concurrency.standard
  compare : s.concurrency.overrides .compareResults = none
  overrides : ∀ a n, s.concurrency.overrides a = some n → 1 ≤ n
  source : Text.trim s.runners.source ≠ ""
  destination : Text.trim s.runners.destination ≠ ""

theorem usable_iff {s : Settings} : s.Usable ↔ ∀ e, ¬s.Breaks e := by
  constructor
  · intro usable e breaks
    cases e with
    | zeroInterval => exact absurd breaks (Nat.ne_of_gt usable.interval)
    | blankFailoverFile => exact usable.failoverFile breaks
    | zeroStandard => exact absurd breaks (Nat.ne_of_gt usable.standard)
    | throttledCompare a =>
      obtain ⟨rfl, given⟩ := breaks
      exact given usable.compare
    | zeroCeiling a => exact absurd (usable.overrides a 0 breaks) (Nat.not_succ_le_zero 0)
    | blankRunner side =>
      cases side with
      | source => exact usable.source breaks
      | destination => exact usable.destination breaks
  · intro keeps
    constructor
    · exact Nat.one_le_iff_ne_zero.mpr (keeps .zeroInterval)
    · exact keeps .blankFailoverFile
    · exact Nat.one_le_iff_ne_zero.mpr (keeps .zeroStandard)
    · by_contra given
      exact keeps (.throttledCompare .compareResults) ⟨rfl, given⟩
    · intro a n given
      rw [Nat.one_le_iff_ne_zero]
      rintro rfl
      exact keeps (.zeroCeiling a) given
    · exact keeps (.blankRunner .source)
    · exact keeps (.blankRunner .destination)

/-! ## Checking -/

theorem find?_breaks_cons (s : Settings) (e : SettingError) (es : List SettingError) :
    (e :: es).find? (s.Breaks ·) = if s.Breaks e then some e else es.find? (s.Breaks ·) := by
  rw [List.find?_cons]
  by_cases breaks : s.Breaks e
  · simp [breaks]
  · simp [breaks]

theorem overrideError?_eq (s : Settings) (a : Action) :
    ((s.concurrency.overrides a).map (a, ·)).bind overrideError? =
      [.throttledCompare a, .zeroCeiling a].find? (s.Breaks ·) := by
  rw [find?_breaks_cons, find?_breaks_cons, List.find?_nil]
  cases given : s.concurrency.overrides a with
  | none => simp [Breaks, given]
  | some n =>
    by_cases compare : a = .compareResults
    · simp [overrideError?, Action.isCompare, Breaks, compare, compare ▸ given]
    · simp [overrideError?, Action.isCompare, Breaks, compare, given]

theorem findSome?_entries (s : Settings) :
    s.concurrency.overrides.entries.findSome? overrideError? =
      (Action.catalog.flatMap fun a => [.throttledCompare a, .zeroCeiling a]).find? (s.Breaks ·) := by
  rw [List.find?_flatMap, PerAction.entries]
  induction Action.catalog with
  | nil => rfl
  | cons a rest ih =>
    rw [List.findSome?_cons, ← overrideError?_eq, ← ih, List.filterMap_cons]
    cases s.concurrency.overrides a with
    | none => rfl
    | some n => rfl

theorem error?_eq (s : Settings) : s.error? = SettingError.rules.find? (s.Breaks ·) := by
  unfold error? SettingError.rules
  simp only [Text.isAllBlank_iff, findSome?_entries, List.cons_append, List.nil_append,
    find?_breaks_cons, List.find?_append, List.find?_nil]
  cases (Action.catalog.flatMap fun a => [.throttledCompare a, .zeroCeiling a]).find? (s.Breaks ·) with
  | none => rfl
  | some e => rfl

theorem check_eq_error_iff {s : Settings} {e : SettingError} : s.check = .error e ↔
    ∃ pre post, SettingError.rules = pre ++ e :: post ∧ s.Breaks e ∧ ∀ e' ∈ pre, ¬s.Breaks e' := by
  have found : s.check = .error e ↔ s.error? = some e := by
    unfold check
    cases s.error? with
    | none => simp
    | some e' => simp
  rw [found, error?_eq, List.find?_eq_some_iff_append]
  simp only [decide_eq_true_eq, Bool.not_eq_true', decide_eq_false_iff_not]
  constructor
  · rintro ⟨breaks, pre, post, split, keeps⟩
    exact ⟨pre, post, split, breaks, keeps⟩
  · rintro ⟨pre, post, split, breaks, keeps⟩
    exact ⟨breaks, pre, post, split, keeps⟩

theorem check_eq_ok_iff {s s' : Settings} : s.check = .ok s' ↔ s.Usable ∧ s' = s := by
  have keeps : s.error? = none ↔ s.Usable := by
    rw [error?_eq, usable_iff, List.find?_eq_none]
    simp only [decide_eq_true_eq]
    exact ⟨fun h e => h e e.mem_rules, fun h e _ => h e⟩
  rw [← keeps]
  unfold check
  cases s.error? with
  | none => simp [eq_comm]
  | some e => simp

end Settings

/-! ## Gates of usable settings -/

namespace Gate

theorem ceiling_ofSettings {c : ConcurrencySettings} {plan : Plan} {a : Action} {n : Nat} :
    (ofSettings c plan).ceiling a = some n ↔ a ∈ plan.gated ∧ c.ceiling a = n := by
  simp [ofSettings]

theorem inFlight_of_still {a : Action} {ts : List Task} (still : ∀ t ∈ ts, t.Still) :
    inFlight a ts = 0 := by
  induction ts with
  | nil => rfl
  | cons t ts ih =>
    obtain ⟨here, rest⟩ := List.forall_mem_cons.mp still
    rw [inFlight, ih rest]
    cases found : t.stage? a with
    | none => rfl
    | some s =>
      have idle : s.runningCount = 0 := by
        rw [Stage.runningCount, List.countP_eq_zero]
        intro u hu running
        exact here s (Task.mem_of_stage? found).1 u hu (beq_iff_eq.mp running)
      rw [Option.map_some, idle, Option.getD_some]

theorem admission_of_ceiling {g : Gate} {a : Action} {c : Nat} (gated : a ≠ .compareResults)
    (given : g.ceiling a = some c) (ts : List Task) : g.admission a ts =
      if c ≤ inFlight a ts then .saturated (inFlight a ts) c else .opened (inFlight a ts) c := by
  simp [admission, Action.isCompare, gated, given]

end Gate

theorem Settings.Usable.one_le_ceiling {s : Settings} (usable : s.Usable) (a : Action) :
    1 ≤ s.concurrency.ceiling a := by
  unfold ConcurrencySettings.ceiling
  cases given : s.concurrency.overrides a with
  | none => exact usable.standard
  | some n => exact usable.overrides a n given

/-- Settings are accepted exactly if no rule forbids them, and are kept as they are; otherwise the first
rule that is broken is reported, and its text is that of no other rule. The gate of accepted settings has
ceilings of at least one for the gated actions of the plan and no others, so that no action of the plan is
ever without a ceiling, and while no unit runs all its gated actions are open. -/
theorem Settings.check_opens_gate (s : Settings) :
    (∀ s', s.check = .ok s' ↔ s.Usable ∧ s' = s) ∧
    (∀ e, s.check = .error e ↔ ∃ pre post, SettingError.rules = pre ++ e :: post ∧ s.Breaks e ∧
      ∀ e' ∈ pre, ¬s.Breaks e') ∧
    (∀ e e' : SettingError, e.message = e'.message → e = e') ∧
    ∀ s', s.check = .ok s' → ∀ (plan : Plan) (a : Action),
      ((Gate.ofSettings s'.concurrency plan).ceiling a ≠ none ↔
        a ∈ plan.actions ∧ a ≠ .compareResults) ∧
      (∀ c, (Gate.ofSettings s'.concurrency plan).ceiling a = some c →
        1 ≤ c ∧ c = (s.concurrency.overrides a).getD s.concurrency.standard) ∧
      (a ∈ plan.actions → ∀ tasks,
        (Gate.ofSettings s'.concurrency plan).admission a tasks ≠ .unconfigured) ∧
      (a ∈ plan.actions → a ≠ .compareResults → ∀ tasks, (∀ t ∈ tasks, t.Still) →
        ∃ c, (Gate.ofSettings s'.concurrency plan).admission a tasks = .opened 0 c) := by
  refine ⟨fun s' => check_eq_ok_iff, fun e => check_eq_error_iff,
    fun e e' => SettingError.message_injective, ?_⟩
  intro s' accepted plan a
  obtain ⟨usable, rfl⟩ := check_eq_ok_iff.mp accepted
  have positive := usable.one_le_ceiling a
  have given : a ∈ plan.actions → a ≠ .compareResults →
      (Gate.ofSettings s'.concurrency plan).ceiling a = some (s'.concurrency.ceiling a) := by
    intro planned gated
    exact Gate.ceiling_ofSettings.mpr ⟨Plan.mem_gated.mpr ⟨planned, gated⟩, rfl⟩
  refine ⟨?_, ?_, ?_, ?_⟩
  · rw [Option.ne_none_iff_exists', ← Plan.mem_gated]
    simp only [Gate.ceiling_ofSettings, exists_and_left, exists_eq', and_true]
  · intro c given
    obtain ⟨-, rfl⟩ := Gate.ceiling_ofSettings.mp given
    exact ⟨positive, rfl⟩
  · intro planned tasks
    by_cases compare : a = .compareResults
    · rw [compare]
      exact nofun
    · rw [Gate.admission_of_ceiling compare (given planned compare)]
      split <;> simp
  · intro planned gated tasks still
    refine ⟨s'.concurrency.ceiling a, ?_⟩
    rw [Gate.admission_of_ceiling gated (given planned gated), Gate.inFlight_of_still still, if_neg (by omega)]

namespace OneTable

def settings : Settings :=
  { Settings.standard with concurrency := ⟨10, PerAction.empty.insert .loadData 4⟩ }

theorem settings_open : settings.check = .ok settings ∧
    ∃ c, (Gate.ofSettings settings.concurrency (.standard .hive)).admission .loadData [task] =
      .opened 0 c := by
  have accepted : settings.check = .ok settings := by rfl
  have opens := (settings.check_opens_gate.2.2.2 settings accepted (.standard .hive) .loadData).2.2.2
  exact ⟨accepted, opens (by decide) (by decide) [task] (by decide)⟩

end OneTable

end TableMigration
