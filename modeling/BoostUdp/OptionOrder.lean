import BoostUdp.ServerVector

/-!
# The order of the server's options

What single options set commutes, so that only the check that `--loop` makes
depends on the order of the options: it sees a `--count` that stands before it
and not one that stands behind it.
-/

namespace BoostUdp

open CommandLine

section Both

variable (platform : Platform)

/-- Both options are set in what is accepted if and only if `--count` is given
behind `--loop`, and never before one. -/
theorem accepts_both_iff (argv : List String) :
    (∀ options, Accepts platform argv options →
        ¬(options.loop = true ∧ options.batchCount.isSome = true)) ↔
      ¬(Admissible platform (serverGroups argv) ∧
        Precedes "--loop" "--count" (groupKeys (serverGroups argv)) ∧
        ¬Precedes "--count" "--loop" (groupKeys (serverGroups argv))) := by
  constructor
  · rintro exclusive ⟨admissible, loopFirst, allowed⟩
    obtain ⟨loop, count⟩ := loopFirst.mem
    apply exclusive (groupOptions platform (serverGroups argv))
      ((accepts_iff platform).mpr ⟨admissible, allowed, rfl⟩)
    constructor
    · exact (groupOptions_flag platform loop_setBy admissible.set).mpr loop
    · exact (groupOptions_flag platform count_setBy admissible.set).mpr count
  · rintro excluded options accepted ⟨loop, count⟩
    obtain ⟨admissible, allowed, rfl⟩ := (accepts_iff platform).mp accepted
    have loopGiven :=
      (groupOptions_flag platform loop_setBy admissible.set).mp loop
    have countGiven :=
      (groupOptions_flag platform count_setBy admissible.set).mp count
    have ordered := precedes_or_precedes (by decide) loopGiven countGiven
    exact excluded ⟨admissible, ordered.resolve_right allowed, allowed⟩

end Both

/-- An option that needs the next argument. -/
def needsValue (option : String) : Bool :=
  (inlineValue option).isNone &&
    match serverKey (optionKey option) with
    | some .bind | some .port | some .count => true
    | _ => false

/-- An option kept together with its value: one that needs a value has it, and
what stands behind another is no option. -/
def KeptTogether (group : OptionGroup) : Prop :=
  startsOption group.option = true ∧
    (group.value = none → needsValue group.option = false) ∧
    ∀ value ∈ group.value,
      takesNext group.option value = true ∨ startsOption value = false

instance : DecidablePred KeptTogether := fun _ =>
  inferInstanceAs (Decidable (_ ∧ _ ∧ _))

theorem takesNext_eq_false_of_option {option next : String}
    (needless : needsValue option = false) (opens : startsOption next = true) :
    takesNext option next = false := by
  unfold needsValue at needless
  unfold takesNext
  cases inline : (inlineValue option).isNone with
  | false => rfl
  | true =>
      rw [inline] at needless
      cases found : serverKey (optionKey option) with
      | none => rfl
      | some key =>
          rw [found] at needless
          cases key with
          | bind => contradiction
          | port => contradiction
          | count => contradiction
          | verbose => rfl
          | uro => rfl
          | loop => simp [opens]

theorem takesNext_eq_false_of_not_option {option : String}
    (closed : startsOption option = false) (next : String) :
    takesNext option next = false := by
  cases found : serverKey (optionKey option) with
  | none => simp only [takesNext, found, Bool.and_false]
  | some key =>
      rw [startsOption_of_key found] at closed
      contradiction

theorem KeptTogether.delimited {group : OptionGroup}
    (together : KeptTogether group) (rest : List String)
    (goesOn : ∀ next ∈ rest.head?, startsOption next = true) :
    optionGroups takesNext (group.arguments ++ rest) =
      optionGroups takesNext group.arguments ++
        optionGroups takesNext rest := by
  obtain ⟨option, value⟩ := group
  obtain ⟨_, needless, taken⟩ := together
  cases value with
  | none =>
      have alone : ∀ next ∈ rest.head?, takesNext option next = false := by
        intro next first
        exact takesNext_eq_false_of_option (needless rfl) (goesOn next first)
      exact optionGroups_alone alone
  | some value =>
      by_cases takes : takesNext option value = true
      · have whole : optionGroups takesNext (option :: value :: rest) =
            ⟨option, some value⟩ :: optionGroups takesNext rest :=
          optionGroups_taken takes
        have single : optionGroups takesNext [option, value] =
            [⟨option, some value⟩] :=
          optionGroups_taken takes
        change optionGroups takesNext (option :: value :: rest) =
          optionGroups takesNext [option, value] ++ _
        rw [whole, single]
        rfl
      · have closed := (taken value rfl).resolve_left takes
        have first (rest : List String) :
            optionGroups takesNext (option :: value :: rest) =
              ⟨option, none⟩ :: optionGroups takesNext (value :: rest) := by
          rw [optionGroups, if_neg takes]
        have second (rest : List String) :
            optionGroups takesNext (value :: rest) =
              ⟨value, none⟩ :: optionGroups takesNext rest :=
          optionGroups_alone fun next _ =>
            takesNext_eq_false_of_not_option closed next
        change optionGroups takesNext (option :: value :: rest) =
          optionGroups takesNext [option, value] ++ _
        rw [first, first, second, second]
        rfl

section Permutations

variable (platform : Platform)

/-- A group is cut out as it stands, unless it is refused anyway. -/
theorem KeptTogether.cut {group : OptionGroup} (together : KeptTogether group) :
    optionGroups takesNext group.arguments = [group] ∨
      groupSetting platform group = none ∧
        ∃ other ∈ optionGroups takesNext group.arguments,
          groupSetting platform other = none := by
  obtain ⟨option, value⟩ := group
  obtain ⟨_, _, taken⟩ := together
  cases value with
  | none => exact Or.inl rfl
  | some value =>
      by_cases takes : takesNext option value = true
      · exact Or.inl (optionGroups_taken takes)
      · have closed := (taken value rfl).resolve_left takes
        right
        constructor
        · unfold groupSetting
          cases serverKey (optionKey option) with
          | none => rfl
          | some key => exact if_neg takes
        · refine ⟨⟨value, none⟩, ?_, ?_⟩
          · change _ ∈ optionGroups takesNext [option, value]
            rw [optionGroups, if_neg takes]
            exact List.mem_cons_of_mem _ List.mem_cons_self
          · cases found : serverKey (optionKey value) with
            | none => simp only [groupSetting, found]
            | some key =>
                rw [startsOption_of_key found] at closed
                contradiction

/-- The vectors made of these groups that are accepted. -/
theorem accepts_groups_iff {groups : List OptionGroup}
    (together : ∀ group ∈ groups, KeptTogether group) (program : String)
    {options : ServerOptions} :
    Accepts platform (program :: groups.flatMap OptionGroup.arguments)
        options ↔
      Admissible platform groups ∧
        ¬Precedes "--count" "--loop" (groupKeys groups) ∧
        options = groupOptions platform groups := by
  have cut : serverGroups
      (program :: groups.flatMap OptionGroup.arguments) =
        groups.flatMap fun group =>
          optionGroups takesNext group.arguments :=
    optionGroups_flatMap (fun group member => (together group member).1)
      (fun group member => (together group member).delimited)
  rw [accepts_iff, cut]
  by_cases whole : ∀ group ∈ groups,
      optionGroups takesNext group.arguments = [group]
  · rw [List.flatMap_congr whole, List.flatMap_singleton']
  · obtain ⟨group, member, broken⟩ : ∃ group ∈ groups,
        optionGroups takesNext group.arguments ≠ [group] := by
      simpa using whole
    obtain ⟨unset, other, inside, otherUnset⟩ :=
      ((together group member).cut platform).resolve_left broken
    constructor
    · rintro ⟨admissible, _⟩
      have set := admissible.set other
        (List.mem_flatMap.mpr ⟨group, member, inside⟩)
      rw [otherUnset] at set
      contradiction
    · rintro ⟨admissible, _⟩
      have set := admissible.set group member
      rw [unset] at set
      contradiction

/-- Settings of different options commute. -/
theorem set_comm {first second : ServerSetting}
    (different : first.key ≠ second.key) (out : ServerOptions) :
    second.set (first.set out) = first.set (second.set out) := by
  cases first <;> cases second <;>
    first | rfl | exact absurd rfl different

/-- A permutation of groups with different options sets the same. -/
theorem groupOptions_perm {first second : List OptionGroup}
    (permutation : first.Perm second) (once : (groupKeys first).Nodup)
    (setAll : ∀ group ∈ first, (groupSetting platform group).isSome = true) :
    groupOptions platform first = groupOptions platform second := by
  rw [groupKeys_eq platform setAll] at once
  have distinct := List.inj_on_of_nodup_map (List.Nodup.of_map _ once)
  apply List.Perm.foldl_eq' (permutation.filterMap (groupSetting platform))
  intro left memLeft right memRight out
  by_cases different : left.key = right.key
  · rw [distinct memLeft memRight different]
  · exact set_comm different out

theorem Admissible.perm {first second : List OptionGroup}
    (permutation : first.Perm second) (once : (groupKeys first).Nodup)
    (admissible : Admissible platform first) :
    Admissible platform second :=
  { notHelp := by
      intro group member
      exact admissible.notHelp group (permutation.mem_iff.mpr member)
    set := by
      intro group member
      exact admissible.set group (permutation.mem_iff.mpr member)
    port := by
      rw [← port_ne_zero_iff, ← groupOptions_perm platform permutation once
        admissible.set, port_ne_zero_iff]
      exact admissible.port
    uro := by
      intro given
      exact admissible.uro
        ((permutation.map groupKey).mem_iff.mpr given) }

/-- The same groups in two orders are accepted alike if and only if they are
refused on another ground or `--count` stands before `--loop` in both or in
none. -/
theorem accepts_alike_iff {first second : List OptionGroup}
    (together : ∀ group ∈ first, KeptTogether group)
    (permutation : first.Perm second) (once : (groupKeys first).Nodup)
    (program : String) :
    (∀ options,
        Accepts platform (program :: first.flatMap OptionGroup.arguments)
            options ↔
          Accepts platform (program :: second.flatMap OptionGroup.arguments)
            options) ↔
      (Admissible platform first →
        (Precedes "--count" "--loop" (groupKeys first) ↔
          Precedes "--count" "--loop" (groupKeys second))) := by
  have togetherSecond : ∀ group ∈ second, KeptTogether group := by
    intro group member
    exact together group (permutation.mem_iff.mpr member)
  have onceSecond : (groupKeys second).Nodup :=
    (permutation.map groupKey).nodup once
  have admissible : Admissible platform first ↔ Admissible platform second :=
    ⟨Admissible.perm platform permutation once,
      Admissible.perm platform permutation.symm onceSecond⟩
  simp only [accepts_groups_iff platform together,
    accepts_groups_iff platform togetherSecond]
  constructor
  · intro alike admissibleFirst
    have same := groupOptions_perm platform permutation once
      admissibleFirst.set
    have outcome := alike (groupOptions platform first)
    rw [← admissible] at outcome
    apply not_iff_not.mp
    simpa [admissibleFirst, same] using outcome
  · intro alike options
    constructor
    · rintro ⟨admissibleFirst, allowed, rfl⟩
      refine ⟨admissible.mp admissibleFirst, ?_, ?_⟩
      · intro refused
        exact allowed ((alike admissibleFirst).mpr refused)
      · exact groupOptions_perm platform permutation once admissibleFirst.set
    · rintro ⟨admissibleSecond, allowed, rfl⟩
      have admissibleFirst := admissible.mpr admissibleSecond
      refine ⟨admissibleFirst, ?_, ?_⟩
      · intro refused
        exact allowed ((alike admissibleFirst).mp refused)
      · exact (groupOptions_perm platform permutation once
          admissibleFirst.set).symm

end Permutations

/-- `--loop` and `--count` exclude each other as long as no accepted vector
has a `--count` behind its `--loop`; the order of the options matters for
vectors that differ in which of the two comes first. -/
theorem loop_count_exclusive_iff (platform : Platform) :
    (∀ argv,
      (∀ options, Accepts platform argv options →
          ¬(options.loop = true ∧ options.batchCount.isSome = true)) ↔
        ¬(Admissible platform (serverGroups argv) ∧
          Precedes "--loop" "--count" (groupKeys (serverGroups argv)) ∧
          ¬Precedes "--count" "--loop" (groupKeys (serverGroups argv)))) ∧
    ∀ program first second,
      (∀ group ∈ first, KeptTogether group) → first.Perm second →
      (groupKeys first).Nodup →
      ((∀ options,
          Accepts platform (program :: first.flatMap OptionGroup.arguments)
              options ↔
            Accepts platform
              (program :: second.flatMap OptionGroup.arguments) options) ↔
        (Admissible platform first →
          (Precedes "--count" "--loop" (groupKeys first) ↔
            Precedes "--count" "--loop" (groupKeys second)))) := by
  constructor
  · intro argv
    exact accepts_both_iff platform argv
  · intro program first second together permutation once
    exact accepts_alike_iff platform together permutation once program

theorem loop_count_exclusive_iff_loop_first :
    Accepts .posix
        ["boostudp_server", "--port=5000", "--loop", "3", "--count", "5"]
        { port := 5000, loop := true, loopCount := some 3,
          batchCount := some 5 } := by
  have alike := ((loop_count_exclusive_iff .posix).2 "boostudp_server"
    [⟨"--loop", some "3"⟩, ⟨"--port=5000", none⟩, ⟨"--count", some "5"⟩]
    [⟨"--port=5000", none⟩, ⟨"--loop", some "3"⟩, ⟨"--count", some "5"⟩]
    (by decide) (by decide) (by decide)).mpr
  apply (alike _ _).mp
  · unfold Accepts
    decide
  · intro _
    unfold Precedes
    decide

/-- `--loop` in front of `--count` is accepted and sets both; behind it, it is
refused. -/
theorem loop_before_count_accepted :
    Accepts .posix
        ["boostudp_server", "--port", "5000", "--loop", "--count", "5"]
        { port := 5000, loop := true, batchCount := some 5 } ∧
      parseServerOptions .posix
          ["boostudp_server", "--port", "5000", "--count", "5", "--loop"]
          {} =
        .error (.invalidArgument "--loop cannot be used with --count") := by
  unfold Accepts
  decide

end BoostUdp
