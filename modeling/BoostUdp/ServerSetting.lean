import BoostUdp.Cli

/-!
# What the options of the server set

One turn of the loop of `parse_server_options` sets what its option says,
whatever was set before; only `--loop` looks at the options before it.
-/

namespace BoostUdp

open CommandLine

inductive ServerKey where
  | bind
  | port
  | count
  | verbose
  | uro
  | loop
  deriving DecidableEq, Repr

def ServerKey.text : ServerKey → String
  | .bind => "--bind"
  | .port => "--port"
  | .count => "--count"
  | .verbose => "-v"
  | .uro => "--uro"
  | .loop => "--loop"

def serverKey (text : String) : Option ServerKey :=
  [.bind, .port, .count, .verbose, .uro, .loop].find?
    (fun key : ServerKey => key.text = text)

/-- What one option of the server sets. -/
inductive ServerSetting where
  | bind (address : String)
  | port (port : BitVec 16)
  | count (count : Nat)
  | verbose
  | uro
  | loop (count : Option Nat)
  deriving DecidableEq, Repr

namespace ServerSetting

def key : ServerSetting → ServerKey
  | .bind _ => .bind
  | .port _ => .port
  | .count _ => .count
  | .verbose => .verbose
  | .uro => .uro
  | .loop _ => .loop

/-- A `--loop` without a number leaves the number that was given before. -/
def set (out : ServerOptions) : ServerSetting → ServerOptions
  | .bind address => { out with bindAddress := address }
  | .port number => { out with port := number }
  | .count number => { out with batchCount := some number }
  | .verbose => { out with verbose := true }
  | .uro => { out with uro := true }
  | .loop number =>
      { out with loop := true, loopCount := number.or out.loopCount }

def givenPort : ServerSetting → Option (BitVec 16)
  | .port number => some number
  | _ => none

end ServerSetting

namespace ServerKey

/-- What an option with this key sets when it has a value. -/
def read (platform : Platform) (value : String) :
    ServerKey → Except CliError ServerSetting
  | .bind => .ok (.bind value)
  | .port => (parsePort platform value).map .port
  | .count => (parseCount value).map .count
  | .verbose => .ok .verbose
  | .uro => .ok .uro
  | .loop => (parseCount value).map fun count => .loop (some count)

/-- What an option with this key sets when it has none. -/
def bare : ServerKey → Option ServerSetting
  | .bind | .port | .count => none
  | .verbose => some .verbose
  | .uro => some .uro
  | .loop => some (.loop none)

def setting (platform : Platform) (value : Option String) (key : ServerKey) :
    Option ServerSetting :=
  match value with
  | some value => (key.read platform value).toOption
  | none => key.bare

end ServerKey

/-- Whether the argument behind an option is its value. -/
def takesNext (option next : String) : Bool :=
  (inlineValue option).isNone &&
    match serverKey (optionKey option) with
    | some .bind | some .port | some .count => true
    | some .loop => !startsOption next && startsWithDigit next
    | _ => false

/-- What the option of a group sets; nothing is set when the argument behind
the option is not its value. -/
def groupSetting (platform : Platform) (group : OptionGroup) :
    Option ServerSetting :=
  match serverKey (optionKey group.option), group.value with
  | none, _ => none
  | some key, none => key.setting platform (inlineValue group.option)
  | some key, some value =>
      if takesNext group.option value then
        key.setting platform (some value)
      else
        none

theorem serverKey_eq_some {text : String} {key : ServerKey} :
    serverKey text = some key ↔ text = key.text := by
  constructor
  · intro found
    have same := List.find?_some found
    exact (of_decide_eq_true same).symm
  · intro same
    subst same
    cases key <;> decide

theorem startsOption_of_key {option : String} {key : ServerKey}
    (found : serverKey (optionKey option) = some key) :
    startsOption option = true := by
  have same : option.toList.takeWhile (· ≠ '=') = key.text.toList := by
    rw [← serverKey_eq_some.mp found, optionKey, String.toList_ofList]
  have first : (option.toList.takeWhile (· ≠ '=')).head? = some '-' := by
    rw [same]
    cases key <;> decide
  rw [List.head?_takeWhile, Option.filter_eq_some_iff] at first
  exact decide_eq_true first.1

theorem not_isHelpFlag_of_key {option : String} {key : ServerKey}
    (found : serverKey (optionKey option) = some key) :
    isHelpFlag option = false := by
  apply decide_eq_false
  rintro (rfl | rfl)
  · have none : serverKey (optionKey "--help") = none := by decide
    rw [none] at found
    contradiction
  · have none : serverKey (optionKey "-h") = none := by decide
    rw [none] at found
    contradiction

section Reader

variable (platform : Platform) {option : String} {key : ServerKey}

theorem serverOption_unknown (unknown : serverKey (optionKey option) = none)
    (next : Option String) (out : ServerOptions) :
    serverOption platform option next out =
      if isHelpFlag option then
        .ok (out, false)
      else if !startsOption option then
        .error (.invalidArgument ("unexpected argument: " ++ option))
      else
        .error (.invalidArgument
          ("unknown option: " ++ optionKey option)) := by
  have other (key : ServerKey) : ¬optionKey option = key.text := by
    intro same
    rw [serverKey_eq_some.mpr same] at unknown
    contradiction
  have bind := other .bind
  have port := other .port
  have count := other .count
  have verbose := other .verbose
  have uro := other .uro
  have loop := other .loop
  simp only [ServerKey.text] at bind port count verbose uro loop
  simp only [serverOption, bind, port, count, verbose, uro, loop, if_false]

/-- `--loop` is refused behind a `--count`. -/
def Refused (key : ServerKey) (out : ServerOptions) : Prop :=
  key = .loop ∧ out.batchCount.isSome = true

instance (key : ServerKey) (out : ServerOptions) :
    Decidable (Refused key out) :=
  inferInstanceAs (Decidable (_ ∧ _))

theorem serverOption_alone (platform : Platform) {option next : String}
    (alone : takesNext option next = false) (out : ServerOptions) :
    serverOption platform option (some next) out =
      serverOption platform option none out := by
  cases found : serverKey (optionKey option) with
  | none =>
      rw [serverOption_unknown platform found,
        serverOption_unknown platform found]
  | some key =>
      have text := serverKey_eq_some.mp found
      cases inline : inlineValue option with
      | some value => simp only [serverOption, optionValue, inline]
      | none =>
          simp only [takesNext, inline, found] at alone
          cases key with
          | bind => contradiction
          | port => contradiction
          | count => contradiction
          | verbose => simp [serverOption, text, ServerKey.text]
          | uro => simp [serverOption, text, ServerKey.text]
          | loop =>
              have skipped : (!startsOption next &&
                  startsWithDigit next) = false := alone
              simp [serverOption, text, ServerKey.text, inline, skipped]

/-- The value of an option before this argument, and whether it is the
argument. -/
inductive Resolves (option : String) :
    Option String → Option String → Bool → Prop where
  | inline {value : String} (next : Option String) :
      inlineValue option = some value →
      Resolves option next (some value) false
  | next {value : String} :
      takesNext option value = true →
      Resolves option (some value) (some value) true
  | bare : inlineValue option = none → Resolves option none none false

theorem takesNext_inline {option next : String}
    (takes : takesNext option next = true) : inlineValue option = none :=
  Option.isNone_iff_eq_none.mp (Bool.and_eq_true_iff.mp takes).1

theorem optionValue_toOption {next value : Option String} {taken : Bool}
    (resolves : Resolves option next value taken) :
    (optionValue option next).toOption =
      value.map fun value => (value, taken) := by
  cases resolves with
  | inline next inline => simp only [optionValue, inline]; rfl
  | next takes => simp only [optionValue, takesNext_inline takes]; rfl
  | bare inline => simp only [optionValue, inline]; rfl

theorem parsed_set {α : Type} (parsed : Option α)
    (make : α → ServerSetting) (out : ServerOptions) (taken : Bool) :
    (parsed.bind fun value =>
        (Except.ok ((make value).set out, taken) :
          Except CliError (ServerOptions × Bool)).toOption) =
      (parsed.map make).map fun setting => (setting.set out, taken) := by
  cases parsed with
  | none => rfl
  | some value => rfl

/-- A flag never uses up the argument behind it. -/
theorem Resolves.not_taken (found : serverKey (optionKey option) = some key)
    (flag : key = .verbose ∨ key = .uro)
    {next value : Option String} {taken : Bool}
    (resolves : Resolves option next value taken) : taken = false := by
  cases resolves with
  | inline next inline => rfl
  | next takes =>
      rcases flag with rfl | rfl
      · simp only [takesNext, found, Bool.and_false] at takes
        contradiction
      · simp only [takesNext, found, Bool.and_false] at takes
        contradiction
  | bare inline => rfl

/-- `--loop` reads its count from its own text or from a digit behind it, or
goes without. -/
theorem serverOption_loop_toOption
    (found : serverKey (optionKey option) = some .loop)
    {next value : Option String} {taken : Bool}
    (resolves : Resolves option next value taken) (out : ServerOptions) :
    (serverOption platform option next out).toOption =
      if Refused .loop out then
        none
      else
        (ServerKey.loop.setting platform value).map fun setting =>
          (setting.set out, taken) := by
  have notHelp := not_isHelpFlag_of_key found
  have starts := startsOption_of_key found
  have text := serverKey_eq_some.mp found
  simp only [serverOption, notHelp, starts, text, ServerKey.text,
    Refused, Bool.false_eq_true, Bool.not_true, String.reduceEq,
    Bool.and_eq_true, Bool.not_eq_eq_eq_not, true_and, if_false,
    if_true]
  by_cases counted : out.batchCount.isSome = true
  · rw [if_pos counted, if_pos counted]
    rfl
  · rw [if_neg counted, if_neg counted]
    cases resolves with
    | inline next inline =>
        simp only [inline, toOption_bind, ServerKey.setting,
          ServerKey.read, toOption_map]
        exact parsed_set _ (fun count => .loop (some count)) out false
    | next takes =>
        have inline := takesNext_inline takes
        simp only [takesNext, inline, found] at takes
        have digit := Bool.and_eq_true_iff.mp
          (Bool.and_eq_true_iff.mp takes).2
        rw [Bool.not_eq_eq_eq_not, Bool.not_true] at digit
        simp only [inline, if_pos digit, toOption_bind,
          ServerKey.setting, ServerKey.read, toOption_map]
        exact parsed_set _ (fun count => .loop (some count)) out true
    | bare inline =>
        simp only [inline]
        rfl

/-- What one option does depends on the options before it only through the
check of `--loop`. -/
theorem serverOption_toOption
    (found : serverKey (optionKey option) = some key)
    {next value : Option String} {taken : Bool}
    (resolves : Resolves option next value taken) (out : ServerOptions) :
    (serverOption platform option next out).toOption =
      if Refused key out then
        none
      else
        (key.setting platform value).map fun setting =>
          (setting.set out, taken) := by
  have notHelp := not_isHelpFlag_of_key found
  have starts := startsOption_of_key found
  have text := serverKey_eq_some.mp found
  have given := optionValue_toOption resolves
  cases key with
  | bind =>
      simp only [serverOption, notHelp, starts, text, ServerKey.text,
        toOption_bind, given, Refused, Bool.false_eq_true, Bool.not_true,
        String.reduceEq, reduceCtorEq, false_and, if_false, if_true]
      cases value with
      | none => rfl
      | some value => rfl
  | port =>
      simp only [serverOption, notHelp, starts, text, ServerKey.text,
        toOption_bind, given, Refused, Bool.false_eq_true, Bool.not_true,
        String.reduceEq, reduceCtorEq, false_and, if_false, if_true]
      cases value with
      | none => rfl
      | some value =>
          simp only [ServerKey.setting, ServerKey.read, toOption_map]
          exact parsed_set _ .port out taken
  | count =>
      simp only [serverOption, notHelp, starts, text, ServerKey.text,
        toOption_bind, given, Refused, Bool.false_eq_true, Bool.not_true,
        String.reduceEq, reduceCtorEq, false_and, if_false, if_true]
      cases value with
      | none => rfl
      | some value =>
          simp only [ServerKey.setting, ServerKey.read, toOption_map]
          exact parsed_set _ .count out taken
  | verbose =>
      have alone : taken = false := resolves.not_taken found (Or.inl rfl)
      simp only [serverOption, notHelp, starts, text, ServerKey.text,
        Refused, Bool.false_eq_true, Bool.not_true, String.reduceEq,
        reduceCtorEq, false_and, if_false, if_true]
      subst alone
      cases value with
      | none => rfl
      | some value => rfl
  | uro =>
      have alone : taken = false := resolves.not_taken found (Or.inr rfl)
      simp only [serverOption, notHelp, starts, text, ServerKey.text,
        Refused, Bool.false_eq_true, Bool.not_true, String.reduceEq,
        reduceCtorEq, false_and, if_false, if_true]
      subst alone
      cases value with
      | none => rfl
      | some value => rfl
  | loop =>
      exact serverOption_loop_toOption platform found resolves out

theorem taken_of_toOption {step : Except CliError (ServerOptions × Bool)}
    {settings : Option ServerSetting} {refused : Prop} [Decidable refused]
    {out : ServerOptions} {taken : Bool}
    (outcome : step.toOption =
      if refused then
        none
      else
        settings.map fun setting => (setting.set out, taken))
    {result : ServerOptions × Bool} (read : step = .ok result) :
    result.2 = taken := by
  rw [read] at outcome
  split at outcome
  · contradiction
  · obtain ⟨setting, _, same⟩ := Option.map_eq_some_iff.mp outcome.symm
    rw [← same]

theorem not_ok_of_unknown (unknown : serverKey (optionKey option) = none)
    {next : Option String} {out : ServerOptions}
    {result : ServerOptions × Bool}
    (read : serverOption platform option next out = .ok result) :
    isHelpFlag option = true ∧ result = (out, false) := by
  rw [serverOption_unknown platform unknown] at read
  by_cases help : isHelpFlag option = true
  · rw [if_pos help] at read
    cases read
    exact ⟨help, rfl⟩
  · rw [if_neg help] at read
    split at read
    · contradiction
    · contradiction

/-- The loop of `parse_server_options` goes over the groups. -/
theorem serverOption_follows : Follows (serverOption platform) takesNext :=
  { taken := by
      intro option next out result takes read
      cases found : serverKey (optionKey option) with
      | none =>
          simp only [takesNext, found, Bool.and_false] at takes
          contradiction
      | some key =>
          exact taken_of_toOption
            (serverOption_toOption platform found (.next takes) out) read
    alone := by
      intro option next alone out
      exact serverOption_alone platform alone out
    untaken := by
      intro option out result read
      cases found : serverKey (optionKey option) with
      | none =>
          obtain ⟨_, same⟩ := not_ok_of_unknown platform found read
          rw [same]
      | some key =>
          cases inline : inlineValue option with
          | none =>
              exact taken_of_toOption
                (serverOption_toOption platform found (.bare inline) out)
                read
          | some value =>
              exact taken_of_toOption
                (serverOption_toOption platform found
                  (.inline none inline) out)
                read }

theorem key_of_setting {value : Option String} {setting : ServerSetting}
    (set : key.setting platform value = some setting) :
    setting.key = key := by
  cases value with
  | none =>
      cases key with
      | bind => contradiction
      | port => contradiction
      | count => contradiction
      | verbose => cases set; rfl
      | uro => cases set; rfl
      | loop => cases set; rfl
  | some value =>
      simp only [ServerKey.setting] at set
      cases key with
      | bind => cases set; rfl
      | verbose => cases set; rfl
      | uro => cases set; rfl
      | port =>
          rw [ServerKey.read, toOption_map] at set
          obtain ⟨_, _, rfl⟩ := Option.map_eq_some_iff.mp set
          rfl
      | count =>
          rw [ServerKey.read, toOption_map] at set
          obtain ⟨_, _, rfl⟩ := Option.map_eq_some_iff.mp set
          rfl
      | loop =>
          rw [ServerKey.read, toOption_map] at set
          obtain ⟨_, _, rfl⟩ := Option.map_eq_some_iff.mp set
          rfl

end Reader

end BoostUdp
