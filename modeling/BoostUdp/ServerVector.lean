import BoostUdp.ServerSetting

/-!
# Accepted vectors of the server

The loop of `parse_server_options` is a fold of what the groups of its vector
set.  A vector is accepted when each of its groups sets something, no `--loop`
stands behind a `--count`, and the checks behind the loop pass.
-/

namespace BoostUdp

open CommandLine

def groupKey (group : OptionGroup) : String := optionKey group.option

def groupKeys (groups : List OptionGroup) : List String :=
  groups.map groupKey

def groupSettings (platform : Platform) (groups : List OptionGroup) :
    List ServerSetting :=
  groups.filterMap (groupSetting platform)

theorem groupSettings_cons {platform : Platform} {group : OptionGroup}
    {setting : ServerSetting}
    (set : groupSetting platform group = some setting)
    (groups : List OptionGroup) :
    groupSettings platform (group :: groups) =
      setting :: groupSettings platform groups :=
  List.filterMap_cons_some set

section Groups

variable (platform : Platform)

theorem groupKey_of_setting {group : OptionGroup} {setting : ServerSetting}
    (set : groupSetting platform group = some setting) :
    serverKey (groupKey group) = some setting.key := by
  unfold groupSetting at set
  unfold groupKey
  cases found : serverKey (optionKey group.option) with
  | none =>
      rw [found] at set
      contradiction
  | some key =>
      cases given : group.value with
      | none =>
          rw [found, given] at set
          rw [key_of_setting platform set]
      | some value =>
          rw [found, given] at set
          dsimp only at set
          split at set
          · rw [key_of_setting platform set]
          · contradiction

/-- The value of an option is what stands in its group. -/
theorem resolves_group {group : OptionGroup} {key : ServerKey}
    (found : serverKey (optionKey group.option) = some key)
    (cut : ∀ value ∈ group.value, takesNext group.option value = true) :
    ∃ value taken, Resolves group.option group.value value taken ∧
      groupSetting platform group = key.setting platform value := by
  unfold groupSetting
  rw [found]
  cases given : group.value with
  | none =>
      cases inline : inlineValue group.option with
      | none => exact ⟨none, false, .bare inline, rfl⟩
      | some value => exact ⟨some value, false, .inline none inline, rfl⟩
  | some value =>
      have takes := cut value given
      exact ⟨some value, true, .next takes, if_pos takes⟩

theorem readGroup_toOption {group : OptionGroup}
    (notHelp : isHelpFlag group.option = false)
    (cut : ∀ value ∈ group.value, takesNext group.option value = true)
    (out : ServerOptions) :
    (readGroup (serverOption platform) out group).toOption =
      (groupSetting platform group).bind fun setting =>
        if Refused setting.key out then none else some (setting.set out) := by
  rw [readGroup, toOption_map]
  cases found : serverKey (optionKey group.option) with
  | none =>
      have unset : groupSetting platform group = none := by
        simp only [groupSetting, found]
      rw [unset, serverOption_unknown platform found, notHelp]
      cases startsOption group.option with
      | false => rfl
      | true => rfl
  | some key =>
      obtain ⟨value, taken, resolves, resolved⟩ :=
        resolves_group platform found cut
      rw [serverOption_toOption platform found resolves, resolved]
      cases set : key.setting platform value with
      | none =>
          split
          · rfl
          · rfl
      | some setting =>
          rw [Option.bind_some, key_of_setting platform set]
          split
          · rfl
          · rfl

/-- What a group does on its own. -/
theorem readGroup_eq_ok {group : OptionGroup}
    (notHelp : isHelpFlag group.option = false)
    (cut : ∀ value ∈ group.value, takesNext group.option value = true)
    {out result : ServerOptions} :
    readGroup (serverOption platform) out group = .ok result ↔
      ∃ setting, groupSetting platform group = some setting ∧
        ¬Refused setting.key out ∧ result = setting.set out := by
  have outcome := readGroup_toOption platform notHelp cut out
  constructor
  · intro read
    rw [read] at outcome
    obtain ⟨setting, set, accepted⟩ :=
      Option.bind_eq_some_iff.mp outcome.symm
    by_cases refused : Refused setting.key out
    · rw [if_pos refused] at accepted
      contradiction
    · rw [if_neg refused] at accepted
      cases accepted
      exact ⟨setting, set, refused, rfl⟩
  · rintro ⟨setting, set, allowed, rfl⟩
    rw [set, Option.bind_some, if_neg allowed] at outcome
    cases read : readGroup (serverOption platform) out group with
    | error error =>
        rw [read] at outcome
        contradiction
    | ok result =>
        rw [read] at outcome
        cases outcome
        rfl

theorem set_batchCount_isSome (setting : ServerSetting)
    (out : ServerOptions) :
    (setting.set out).batchCount.isSome =
      (out.batchCount.isSome || setting.key = .count) := by
  cases setting <;> simp [ServerSetting.set, ServerSetting.key]

theorem text_injective : Function.Injective ServerKey.text := by
  intro first second same
  have found := serverKey_eq_some.mpr same
  rw [serverKey_eq_some.mpr rfl] at found
  exact Option.some.inj found

/-- No `--loop` stands behind a `--count`. -/
def LoopAllowed (out : ServerOptions) (keys : List String) : Prop :=
  ¬Precedes "--count" "--loop" keys ∧
    ¬(out.batchCount.isSome = true ∧ "--loop" ∈ keys)

theorem loopAllowed_cons (setting : ServerSetting) (out : ServerOptions)
    (keys : List String) :
    LoopAllowed out (setting.key.text :: keys) ↔
      ¬Refused setting.key out ∧ LoopAllowed (setting.set out) keys := by
  have same (key : ServerKey) : key.text = setting.key.text ↔
      setting.key = key :=
    eq_comm.trans text_injective.eq_iff
  have isCount : "--count" = setting.key.text ↔ setting.key = .count :=
    same .count
  have isLoop : "--loop" = setting.key.text ↔ setting.key = .loop :=
    same .loop
  simp only [LoopAllowed, Refused, precedes_cons, List.mem_cons, isCount,
    isLoop, set_batchCount_isSome, Bool.or_eq_true, decide_eq_true_eq]
  grind

/-- The loop accepts a vector when every group sets something and no `--loop`
stands behind a `--count`. -/
theorem foldlM_readGroup_eq_ok {groups : List OptionGroup}
    (notHelp : ∀ group ∈ groups, isHelpFlag group.option = false)
    (cut : ∀ group ∈ groups, ∀ value ∈ group.value,
      takesNext group.option value = true)
    {out result : ServerOptions} :
    groups.foldlM (readGroup (serverOption platform)) out = .ok result ↔
      (∀ group ∈ groups, (groupSetting platform group).isSome = true) ∧
        LoopAllowed out (groupKeys groups) ∧
        result = (groupSettings platform groups).foldl ServerSetting.set
          out := by
  induction groups generalizing out with
  | nil =>
      constructor
      · intro read
        cases read
        refine ⟨by simp, ⟨?_, by simp [groupKeys]⟩, rfl⟩
        intro precedes
        exact List.not_mem_nil precedes.mem.1
      · rintro ⟨_, _, rfl⟩
        rfl
  | cons group groups induction =>
      have later := @induction
        (fun other member => notHelp other (List.mem_cons_of_mem _ member))
        (fun other member => cut other (List.mem_cons_of_mem _ member))
      rw [List.foldlM_cons, bind_eq_ok]
      constructor
      · rintro ⟨next, read, rest⟩
        obtain ⟨setting, set, allowed, rfl⟩ :=
          (readGroup_eq_ok platform (notHelp group List.mem_cons_self)
            (cut group List.mem_cons_self)).mp read
        obtain ⟨setAll, allowedLater, rfl⟩ := later.mp rest
        have text := serverKey_eq_some.mp (groupKey_of_setting platform set)
        refine ⟨?_, ?_, ?_⟩
        · intro other member
          rcases List.mem_cons.mp member with rfl | member
          · exact Option.isSome_iff_exists.mpr ⟨setting, set⟩
          · exact setAll other member
        · rw [groupKeys, List.map_cons, text]
          exact (loopAllowed_cons setting out _).mpr ⟨allowed, allowedLater⟩
        · rw [groupSettings_cons set, List.foldl_cons]
      · rintro ⟨setAll, allowed, rfl⟩
        obtain ⟨setting, set⟩ :=
          Option.isSome_iff_exists.mp (setAll group List.mem_cons_self)
        have text := serverKey_eq_some.mp (groupKey_of_setting platform set)
        rw [groupKeys, List.map_cons, text, loopAllowed_cons] at allowed
        refine ⟨setting.set out, ?_, ?_⟩
        · exact (readGroup_eq_ok platform
            (notHelp group List.mem_cons_self)
            (cut group List.mem_cons_self)).mpr
              ⟨setting, set, allowed.1, rfl⟩
        · apply later.mpr
          refine ⟨?_, allowed.2, ?_⟩
          · intro other member
            exact setAll other (List.mem_cons_of_mem _ member)
          · rw [groupSettings_cons set, List.foldl_cons]

/-- A flag that only the option with this key sets. -/
structure SetBy (key : ServerKey) (flag : ServerOptions → Bool) : Prop where
  start : flag {} = false
  step : ∀ setting out,
    flag (ServerSetting.set out setting) = (flag out || setting.key = key)

theorem loop_setBy : SetBy .loop ServerOptions.loop :=
  { start := rfl
    step := by
      intro setting out
      cases setting <;> simp [ServerSetting.set, ServerSetting.key] }

theorem uro_setBy : SetBy .uro ServerOptions.uro :=
  { start := rfl
    step := by
      intro setting out
      cases setting <;> simp [ServerSetting.set, ServerSetting.key] }

theorem count_setBy : SetBy .count (fun out => out.batchCount.isSome) :=
  { start := rfl
    step := set_batchCount_isSome }

theorem foldl_flag {key : ServerKey} {flag : ServerOptions → Bool}
    (setBy : SetBy key flag) (settings : List ServerSetting)
    (out : ServerOptions) :
    flag (settings.foldl ServerSetting.set out) = true ↔
      flag out = true ∨ key ∈ settings.map ServerSetting.key := by
  induction settings generalizing out with
  | nil => simp
  | cons setting settings induction =>
      rw [List.foldl_cons, induction, setBy.step, List.map_cons,
        List.mem_cons, Bool.or_eq_true, decide_eq_true_eq, or_assoc,
        @eq_comm _ key]

theorem groupKeys_eq {groups : List OptionGroup}
    (setAll : ∀ group ∈ groups, (groupSetting platform group).isSome = true) :
    groupKeys groups =
      ((groupSettings platform groups).map ServerSetting.key).map
        ServerKey.text := by
  induction groups with
  | nil => rfl
  | cons group groups induction =>
      obtain ⟨setting, set⟩ :=
        Option.isSome_iff_exists.mp (setAll group List.mem_cons_self)
      have text := serverKey_eq_some.mp (groupKey_of_setting platform set)
      have later := induction fun other member =>
        setAll other (List.mem_cons_of_mem _ member)
      rw [groupSettings_cons set, List.map_cons, List.map_cons, ← later,
        ← text]
      rfl

/-- What the groups set together. -/
def groupOptions (groups : List OptionGroup) : ServerOptions :=
  (groupSettings platform groups).foldl ServerSetting.set {}

/-- A flag is set if and only if its option is given. -/
theorem groupOptions_flag {key : ServerKey} {flag : ServerOptions → Bool}
    (setBy : SetBy key flag) {groups : List OptionGroup}
    (setAll : ∀ group ∈ groups,
      (groupSetting platform group).isSome = true) :
    flag (groupOptions platform groups) = true ↔
      key.text ∈ groupKeys groups := by
  rw [groupOptions, foldl_flag setBy, setBy.start, groupKeys_eq platform
    setAll, List.mem_map_of_injective text_injective]
  simp

theorem foldl_port (settings : List ServerSetting) (out : ServerOptions) :
    (settings.foldl ServerSetting.set out).port =
      (settings.filterMap ServerSetting.givenPort).getLast?.getD
        out.port := by
  induction settings generalizing out with
  | nil => rfl
  | cons setting settings induction =>
      rw [List.foldl_cons, induction]
      cases setting with
      | port number =>
          have given : (ServerSetting.port number).givenPort = some number :=
            rfl
          rw [List.filterMap_cons_some given, List.getLast?_cons]
          rfl
      | bind => rfl
      | count => rfl
      | verbose => rfl
      | uro => rfl
      | loop => rfl

/-- The vector would be accepted if `--loop` and `--count` did not exclude
each other. -/
structure Admissible (groups : List OptionGroup) : Prop where
  notHelp : ∀ group ∈ groups, ∀ argument ∈ group.arguments,
    isHelpFlag argument = false
  set : ∀ group ∈ groups, (groupSetting platform group).isSome = true
  port : ∃ port,
    ((groupSettings platform groups).filterMap
      ServerSetting.givenPort).getLast? = some port ∧ port ≠ 0
  uro : "--uro" ∈ groupKeys groups → platform = .windows

theorem port_ne_zero_iff (groups : List OptionGroup) :
    (groupOptions platform groups).port ≠ 0 ↔
      ∃ port,
        ((groupSettings platform groups).filterMap
          ServerSetting.givenPort).getLast? = some port ∧ port ≠ 0 := by
  rw [groupOptions, foldl_port]
  cases last : ((groupSettings platform groups).filterMap
      ServerSetting.givenPort).getLast? with
  | none => simp
  | some port => simp

/-- The parser returns `true`. -/
def Accepts (argv : List String) (options : ServerOptions) : Prop :=
  parseServerOptions platform argv {} = .ok (true, options)

/-- The groups of an argument vector. -/
def serverGroups (argv : List String) : List OptionGroup :=
  optionGroups takesNext (argv.drop 1)

/-- The vectors that are accepted, and the options that are read from them. -/
theorem accepts_iff {argv : List String} {options : ServerOptions} :
    Accepts platform argv options ↔
      Admissible platform (serverGroups argv) ∧
        ¬Precedes "--count" "--loop" (groupKeys (serverGroups argv)) ∧
        options = groupOptions platform (serverGroups argv) := by
  have whole : (serverGroups argv).flatMap OptionGroup.arguments =
      argv.drop 1 :=
    flatMap_optionGroups (argv.drop 1)
  have cut : ∀ group ∈ serverGroups argv, ∀ value ∈ group.value,
      takesNext group.option value = true := by
    intro group member
    exact takes_of_mem_optionGroups member
  unfold Accepts parseServerOptions
  dsimp only
  by_cases help : (argv.drop 1).any isHelpFlag = true
  · rw [if_pos help]
    constructor
    · intro accepted
      cases accepted
    · rintro ⟨admissible, _⟩
      obtain ⟨argument, member, flag⟩ := List.any_eq_true.mp help
      rw [← whole] at member
      obtain ⟨group, among, inside⟩ := List.mem_flatMap.mp member
      rw [admissible.notHelp group among argument inside] at flag
      contradiction
  · have notHelp : ∀ group ∈ serverGroups argv,
        ∀ argument ∈ group.arguments, isHelpFlag argument = false := by
      intro group member argument inside
      apply Bool.eq_false_iff.mpr
      intro flag
      apply help
      apply List.any_eq_true.mpr
      refine ⟨argument, ?_, flag⟩
      rw [← whole]
      exact List.mem_flatMap.mpr ⟨group, member, inside⟩
    have looped (result : ServerOptions) :=
      @foldlM_readGroup_eq_ok platform (serverGroups argv)
        (fun group member => notHelp group member _ List.mem_cons_self) cut
        {} result
    rw [if_neg help, readOptions_eq_foldlM (serverOption_follows platform),
      bind_eq_ok]
    constructor
    · rintro ⟨out, read, finished⟩
      obtain ⟨set, allowed, rfl⟩ := (looped out).mp read
      obtain ⟨port, uro, rfl⟩ :=
        (finishServerOptions_eq_ok platform).mp finished
      refine ⟨⟨notHelp, set, (port_ne_zero_iff platform _).mp port, ?_⟩,
        allowed.1, rfl⟩
      intro given
      exact uro ((groupOptions_flag platform uro_setBy set).mpr given)
    · rintro ⟨admissible, allowed, rfl⟩
      refine ⟨groupOptions platform (serverGroups argv), ?_, ?_⟩
      · apply (looped _).mpr
        refine ⟨admissible.set, ⟨allowed, ?_⟩, rfl⟩
        rintro ⟨counted, _⟩
        contradiction
      · apply (finishServerOptions_eq_ok platform).mpr
        refine ⟨(port_ne_zero_iff platform _).mpr admissible.port, ?_, rfl⟩
        intro given
        exact admissible.uro
          ((groupOptions_flag platform uro_setBy admissible.set).mp given)

end Groups

end BoostUdp
