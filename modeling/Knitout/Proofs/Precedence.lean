import Knitout.Options.Parser
import Knitout.Settings

/-!
The command line goes before the environment: where an option speaks, it does not matter what the
variable in its place says (`options_override`). It matters whether the variable can be read: one
that cannot is refused although it has no say (`unreadable_not_overridden`).
-/

namespace Knitout

/-! ## Variables -/

/-- The variables that the tools look at. -/
inductive Variable where
  | quiet
  | format
  | errorFile
  | noWarn
  | warnError

namespace Environment

/-- What a variable holds. -/
def value (env : Environment) : Variable → Option Text
  | .quiet => env.quiet
  | .format => env.format
  | .errorFile => env.errorFile
  | .noWarn => env.noWarn
  | .warnError => env.warnError

/-- Two environments that differ in one variable at most. -/
def SameBut (v : Variable) (env env' : Environment) : Prop :=
  ∀ other, other ≠ v → env'.value other = env.value other

/-- A variable is unset or blank, or holds one of the words that it may hold; any text may name a
file. -/
def Readable (env : Environment) : Variable → Prop
  | .quiet => ∃ answer, readBoolean "FNITOUT_QUIET" env.quiet = .ok answer
  | .format => ∃ format, readFormat env.format = .ok format
  | .errorFile => True
  | .noWarn => ∃ answer, readBoolean "FNITOUT_NO_WARN" env.noWarn = .ok answer
  | .warnError => ∃ answer, readBoolean "FNITOUT_WERROR" env.warnError = .ok answer

theorem SameBut.quiet (env : Environment) (word : Option Text) :
    env.SameBut .quiet { env with quiet := word } := by
  intro other apart
  cases other <;> first | rfl | exact absurd rfl apart

theorem SameBut.noWarn (env : Environment) (word : Option Text) :
    env.SameBut .noWarn { env with noWarn := word } := by
  intro other apart
  cases other <;> first | rfl | exact absurd rfl apart

end Environment

/-- The variable has no say in how to report: an option speaks in its place, or it is about
something else. -/
def ReportOptions.Overrides (options : ReportOptions) : Variable → Prop
  | .quiet => options.quiet = true
  | .format => options.format.isSome = true
  | .errorFile => options.errorFile.isSome = true
  | .noWarn | .warnError => True

/-- The variable has no say in how the converter runs. Each option about warnings speaks in the place
of both variables about them. -/
def ConverterOptions.Overrides (options : ConverterOptions) : Variable → Prop
  | .noWarn | .warnError => options.noWarn = true ∨ options.warnError = true
  | v => options.report.Overrides v

/-! ## Settings -/

section
variable {v : Variable} {env env' : Environment}

theorem ReportSettings.resolve_sameBut {options : ReportOptions} (alike : env.SameBut v env')
    (readable : env.Readable v) (readable' : env'.Readable v) (overridden : options.Overrides v) :
    resolve options env' = resolve options env := by
  have quiet (apart : .quiet ≠ v) : env'.quiet = env.quiet := alike .quiet apart
  have format (apart : .format ≠ v) : env'.format = env.format := alike .format apart
  have errorFile (apart : .errorFile ≠ v) : env'.errorFile = env.errorFile := alike .errorFile apart
  unfold resolve
  cases v with
  | quiet =>
    obtain ⟨answer, read⟩ := readable
    obtain ⟨answer', read'⟩ := readable'
    have given : options.quiet = true := overridden
    rw [read, read', format nofun, errorFile nofun, given]
    rfl
  | format =>
    obtain ⟨answer, read⟩ := readable
    obtain ⟨answer', read'⟩ := readable'
    obtain ⟨chosen, given⟩ := Option.isSome_iff_exists.1 overridden
    rw [read, read', quiet nofun, errorFile nofun, given]
    rfl
  | errorFile =>
    obtain ⟨path, given⟩ := Option.isSome_iff_exists.1 overridden
    rw [quiet nofun, format nofun, given]
    rfl
  | noWarn | warnError => rw [quiet nofun, format nofun, errorFile nofun]

theorem ConverterOptions.Overrides.report {options : ConverterOptions}
    (overridden : options.Overrides v) : options.report.Overrides v := by
  cases v with
  | quiet | format | errorFile => exact overridden
  | noWarn | warnError => trivial

theorem ConverterSettings.resolve_sameBut {options : ConverterOptions} (alike : env.SameBut v env')
    (readable : env.Readable v) (readable' : env'.Readable v) (overridden : options.Overrides v) :
    resolve options env' = resolve options env := by
  have report := ReportSettings.resolve_sameBut alike readable readable' overridden.report
  have noWarn (apart : .noWarn ≠ v) : env'.noWarn = env.noWarn := alike .noWarn apart
  have warnError (apart : .warnError ≠ v) : env'.warnError = env.warnError :=
    alike .warnError apart
  unfold resolve
  rw [report]
  cases v with
  | quiet | format | errorFile => rw [noWarn nofun, warnError nofun]
  | noWarn =>
    obtain ⟨answer, read⟩ := readable
    obtain ⟨answer', read'⟩ := readable'
    rw [read, read', warnError nofun]
    rcases overridden with given | given <;> simp [given, bind, Except.bind]
  | warnError =>
    obtain ⟨answer, read⟩ := readable
    obtain ⟨answer', read'⟩ := readable'
    rw [read, read', noWarn nofun]
    rcases overridden with given | given <;> simp [given, bind, Except.bind]

end

/-- What is said on the command line goes: in two environments that differ only in a variable that
has no say, a tool runs in the same way or is refused for the same reason, as long as the variable
can be read in both. -/
theorem options_override (v : Variable) (env env' : Environment) (alike : env.SameBut v env')
    (readable : env.Readable v) (readable' : env'.Readable v) :
    (∀ options : CheckerOptions, options.report.Overrides v →
      CheckerSettings.resolve options env' = CheckerSettings.resolve options env) ∧
    ∀ options : ConverterOptions, options.Overrides v →
      ConverterSettings.resolve options env' = ConverterSettings.resolve options env := by
  constructor
  · intro options overridden
    unfold CheckerSettings.resolve
    rw [ReportSettings.resolve_sameBut alike readable readable' overridden]
  · intro options overridden
    exact ConverterSettings.resolve_sameBut alike readable readable' overridden

/-- A checker that is told to be quiet is quiet where the environment asks for the opposite, and a
converter that is told to take warnings for errors does so where the environment asks for none. -/
theorem options_override_words :
    CheckerSettings.resolve ⟨['a'], { quiet := true }, false, 0⟩ { quiet := some "off".toList } =
        CheckerSettings.resolve ⟨['a'], { quiet := true }, false, 0⟩ {} ∧
      ConverterSettings.resolve ⟨['a'], ['b'], {}, false, true, false⟩
          { noWarn := some " Yes ".toList } =
        ConverterSettings.resolve ⟨['a'], ['b'], {}, false, true, false⟩ {} :=
  ⟨(options_override .quiet _ _ (.quiet {} _) ⟨none, rfl⟩ ⟨some false, rfl⟩).1 _ rfl,
    (options_override .noWarn _ _ (.noWarn {} _) ⟨none, rfl⟩ ⟨some true, rfl⟩).2 _
      (.inr rfl)⟩

/-- A word that is neither yes nor no stops a checker that is told to be quiet, and a converter that
is told to take warnings for errors, although the variable that holds it has no say. -/
theorem unreadable_not_overridden :
    (∃ options settings, CheckerOptions.ofArguments ["a".toList, "-q".toList] = .ok options ∧
      options.report.Overrides .quiet ∧
      Environment.SameBut .quiet {} { quiet := some "maybe".toList } ∧
      CheckerSettings.resolve options {} = .ok settings ∧
      CheckerSettings.resolve options { quiet := some "maybe".toList } =
        .error (.badBoolean "FNITOUT_QUIET" "maybe".toList)) ∧
    ∃ options settings,
      ConverterOptions.ofArguments ["a".toList, "b".toList, "--Werror".toList] = .ok options ∧
      options.Overrides .noWarn ∧
      Environment.SameBut .noWarn {} { noWarn := some "maybe".toList } ∧
      ConverterSettings.resolve options {} = .ok settings ∧
      ConverterSettings.resolve options { noWarn := some "maybe".toList } =
        .error (.badBoolean "FNITOUT_NO_WARN" "maybe".toList) :=
  ⟨⟨_, _, rfl, rfl, .quiet {} _, rfl, rfl⟩,
    ⟨_, _, rfl, .inr rfl, .noWarn {} _, rfl, rfl⟩⟩

end Knitout
