import Mathlib.Tactic

/-!
# Option vectors read from left to right

An argument vector is read option by option; a reader sees the argument after
the option and says whether it took it as the option's value.  When that
depends on the two arguments alone, the vector is cut into groups, each an
option with its own value, and the loop over the arguments is a fold over the
groups.
-/

namespace CommandLine

universe u

variable {σ ε : Type u}

/-- The arguments of a program are C strings: there is no NUL in them. -/
def NulFree (text : String) : Prop :=
  Char.ofNat 0 ∉ text.toList

instance (text : String) : Decidable (NulFree text) :=
  inferInstanceAs (Decidable (Char.ofNat 0 ∉ text.toList))

theorem NulFree.append {first second : String} (left : NulFree first)
    (right : NulFree second) : NulFree (first ++ second) := by
  unfold NulFree
  rw [String.toList_append, List.mem_append, not_or]
  exact ⟨left, right⟩

theorem NulFree.ofList {chars : List Char} {text : String}
    (free : NulFree text) (inside : ∀ char ∈ chars, char ∈ text.toList) :
    NulFree (String.ofList chars) := by
  unfold NulFree
  rw [String.toList_ofList]
  exact fun member => free (inside _ member)

theorem nulFree_toString (number : Nat) : NulFree (toString number) := by
  intro member
  have chars : (toString number).toList = Nat.toDigits 10 number :=
    Nat.toList_repr
  rw [chars] at member
  exact absurd (Nat.isDigit_of_mem_toDigits (by decide) (by decide) member)
    (by decide)

theorem bind_eq_ok {α β : Type u} {first : Except ε α}
    {next : α → Except ε β} {result : β} :
    (first >>= next) = .ok result ↔
      ∃ value, first = .ok value ∧ next value = .ok result := by
  cases first with
  | error error =>
      constructor
      · intro failed
        contradiction
      · rintro ⟨_, failed, _⟩
        contradiction
  | ok value =>
      constructor
      · intro read
        exact ⟨value, rfl, read⟩
      · rintro ⟨_, same, read⟩
        cases same
        exact read

/-- A check that throws when its condition holds. -/
theorem ite_error_eq_ok {α : Type u} {condition : Prop}
    [Decidable condition] {error : ε} {passed : Except ε α} {result : α} :
    (if condition then .error error else passed) = .ok result ↔
      ¬condition ∧ passed = .ok result := by
  by_cases holds : condition
  · rw [if_pos holds]
    constructor
    · intro failed
      contradiction
    · intro checked
      exact absurd holds checked.1
  · rw [if_neg holds]
    exact ⟨fun read => ⟨holds, read⟩, And.right⟩

theorem toOption_bind {α β : Type u} (first : Except ε α)
    (later : α → Except ε β) :
    (first >>= later).toOption =
      first.toOption.bind fun value => (later value).toOption := by
  cases first with
  | error error => rfl
  | ok value => rfl

theorem toOption_map {α β : Type u} (first : Except ε α)
    (image : α → β) :
    (first.map image).toOption = first.toOption.map image := by
  cases first with
  | error error => rfl
  | ok value => rfl

/-- What one option does to what was read before it, and whether it took the
next argument. -/
abbrev OptionReader (σ ε : Type u) :=
  String → Option String → σ → Except ε (σ × Bool)

/-- The loop over the arguments.  The flag says that the first of them was
taken as a value. -/
def readOptions (reader : OptionReader σ ε) :
    List String → Bool → σ → Except ε σ
  | [], _, out => .ok out
  | _ :: rest, true, out => readOptions reader rest false out
  | argument :: rest, false, out =>
      match reader argument rest.head? out with
      | .error error => .error error
      | .ok (out, taken) => readOptions reader rest taken out

section Runs

variable (reader : OptionReader σ ε)

theorem readOptions_error {argument : String} {rest : List String} {out : σ}
    {error : ε} (failed : reader argument rest.head? out = .error error) :
    readOptions reader (argument :: rest) false out = .error error := by
  simp only [readOptions, failed]

theorem readOptions_ok {argument : String} {rest : List String}
    {out next : σ} {taken : Bool}
    (read : reader argument rest.head? out = .ok (next, taken)) :
    readOptions reader (argument :: rest) false out =
      readOptions reader rest taken next := by
  simp only [readOptions, read]

/-- What is read keeps the invariant, if anything is. -/
def Keeps (Invariant : σ → Prop) (step : Except ε (σ × Bool)) : Prop :=
  ∀ result, step = .ok result → Invariant result.1

theorem keeps_error {Invariant : σ → Prop} {error : ε} :
    Keeps Invariant (.error error) := by
  intro result failed
  contradiction

theorem keeps_ok {Invariant : σ → Prop} {out : σ} {taken : Bool}
    (kept : Invariant out) :
    Keeps Invariant (Except.ok (out, taken) : Except ε (σ × Bool)) := by
  intro result read
  cases read
  exact kept

theorem keeps_bind {Invariant : σ → Prop} {α : Type u} {first : Except ε α}
    {next : α → Except ε (σ × Bool)}
    (later : ∀ value, first = .ok value → Keeps Invariant (next value)) :
    Keeps Invariant (first >>= next) := by
  intro result read
  obtain ⟨value, started, ended⟩ := bind_eq_ok.mp read
  exact later value started result ended

theorem keeps_ite {Invariant : σ → Prop} {condition : Prop}
    [Decidable condition] {first second : Except ε (σ × Bool)}
    (holds : Keeps Invariant first) (fails : Keeps Invariant second) :
    Keeps Invariant (if condition then first else second) := by
  split
  · exact holds
  · exact fails

/-- What every option of the given kind keeps holds of what is read. -/
theorem readOptions_keeps_given {Invariant : σ → Prop} {Given : String → Prop}
    (kept : ∀ argument next out, Given argument →
      (∀ value ∈ next, Given value) → Invariant out →
      Keeps Invariant (reader argument next out))
    {arguments : List String} (given : ∀ argument ∈ arguments, Given argument)
    {taken : Bool} {out result : σ} (start : Invariant out)
    (read : readOptions reader arguments taken out = .ok result) :
    Invariant result := by
  induction arguments generalizing taken out with
  | nil =>
      cases read
      exact start
  | cons argument rest induction =>
      have later : ∀ argument ∈ rest, Given argument :=
        fun other member => given other (List.mem_cons_of_mem _ member)
      cases taken with
      | true => exact induction later start read
      | false =>
          have next : ∀ value ∈ rest.head?, Given value :=
            fun value first => later value (List.mem_of_mem_head? first)
          cases step : reader argument rest.head? out with
          | error error =>
              rw [readOptions_error reader step] at read
              contradiction
          | ok result =>
              rw [readOptions_ok reader step] at read
              exact induction later
                (kept _ _ _ (given _ List.mem_cons_self) next start _ step) read

/-- What every option keeps holds of what is read. -/
theorem readOptions_keeps {Invariant : σ → Prop}
    (kept : ∀ argument next out, Invariant out →
      Keeps Invariant (reader argument next out))
    {arguments : List String} {taken : Bool} {out result : σ}
    (start : Invariant out)
    (read : readOptions reader arguments taken out = .ok result) :
    Invariant result :=
  readOptions_keeps_given reader
    (fun argument next out (_ : True) _ => kept argument next out)
    (fun _ _ => trivial) start read

end Runs

/-- An option with the argument that is its value, if it has one. -/
structure OptionGroup where
  option : String
  value : Option String
  deriving DecidableEq, Repr

namespace OptionGroup

def arguments (group : OptionGroup) : List String :=
  group.option :: group.value.toList

end OptionGroup

/-- A vector cut into groups: an option takes the next argument when `takes`
says so. -/
def optionGroups (takes : String → String → Bool) :
    List String → List OptionGroup
  | [] => []
  | [option] => [⟨option, none⟩]
  | option :: next :: rest =>
      if takes option next then
        ⟨option, some next⟩ :: optionGroups takes rest
      else
        ⟨option, none⟩ :: optionGroups takes (next :: rest)

section Groups

variable {takes : String → String → Bool}

theorem optionGroups_taken {option next : String} {rest : List String}
    (taken : takes option next = true) :
    optionGroups takes (option :: next :: rest) =
      ⟨option, some next⟩ :: optionGroups takes rest := by
  rw [optionGroups, if_pos taken]

theorem optionGroups_alone {option : String} {rest : List String}
    (alone : ∀ next ∈ rest.head?, takes option next = false) :
    optionGroups takes (option :: rest) =
      ⟨option, none⟩ :: optionGroups takes rest := by
  cases rest with
  | nil => rfl
  | cons next rest =>
      have untaken : ¬takes option next = true :=
        Bool.eq_false_iff.mp (alone next rfl)
      rw [optionGroups, if_neg untaken]

theorem flatMap_optionGroups (arguments : List String) :
    (optionGroups takes arguments).flatMap OptionGroup.arguments =
      arguments := by
  induction arguments using optionGroups.induct takes with
  | case1 => rfl
  | case2 option => rfl
  | case3 option next rest taken induction =>
      rw [optionGroups_taken taken, List.flatMap_cons, induction]
      rfl
  | case4 option next rest alone induction =>
      rw [optionGroups, if_neg alone, List.flatMap_cons, induction]
      rfl

/-- The cut leaves a value to an option only if the option takes it. -/
theorem takes_of_mem_optionGroups {arguments : List String}
    {group : OptionGroup} (member : group ∈ optionGroups takes arguments) :
    ∀ value ∈ group.value, takes group.option value = true := by
  induction arguments using optionGroups.induct takes with
  | case1 => contradiction
  | case2 option =>
      cases List.mem_singleton.mp member
      intro value given
      contradiction
  | case3 option next rest taken induction =>
      rw [optionGroups_taken taken] at member
      rcases List.mem_cons.mp member with rfl | later
      · intro value given
        cases given
        exact taken
      · exact induction later
  | case4 option next rest alone induction =>
      rw [optionGroups, if_neg alone] at member
      rcases List.mem_cons.mp member with rfl | later
      · intro value given
        contradiction
      · exact induction later

/-- The cut of a vector of groups, when each is cut alike whatever option
follows it. -/
theorem optionGroups_flatMap {opens : String → Prop}
    {groups : List OptionGroup}
    (options : ∀ group ∈ groups, opens group.option)
    (delimited : ∀ group ∈ groups, ∀ rest : List String,
      (∀ next ∈ rest.head?, opens next) →
        optionGroups takes (group.arguments ++ rest) =
          optionGroups takes group.arguments ++ optionGroups takes rest) :
    optionGroups takes (groups.flatMap OptionGroup.arguments) =
      groups.flatMap fun group => optionGroups takes group.arguments := by
  induction groups with
  | nil => rfl
  | cons group groups induction =>
      have later := induction
        (fun other member => options other (List.mem_cons_of_mem _ member))
        (fun other member => delimited other (List.mem_cons_of_mem _ member))
      have opened : ∀ next ∈ (groups.flatMap OptionGroup.arguments).head?,
          opens next := by
        intro next first
        cases groups with
        | nil => contradiction
        | cons other groups =>
            cases first
            exact options other (List.mem_cons_of_mem _ List.mem_cons_self)
      rw [List.flatMap_cons, List.flatMap_cons,
        delimited group List.mem_cons_self _ opened, later]

/-- The reader takes the next argument when `takes` says so, and reads an
option that does not as if it were the last. -/
structure Follows (reader : OptionReader σ ε)
    (takes : String → String → Bool) : Prop where
  taken : ∀ {option next out result}, takes option next = true →
    reader option (some next) out = .ok result → result.2 = true
  alone : ∀ {option next}, takes option next = false → ∀ out,
    reader option (some next) out = reader option none out
  untaken : ∀ {option out result},
    reader option none out = .ok result → result.2 = false

/-- What the option of a group does. -/
def readGroup (reader : OptionReader σ ε) (out : σ) (group : OptionGroup) :
    Except ε σ :=
  (reader group.option group.value out).map Prod.fst

/-- The loop goes over the groups. -/
theorem readOptions_eq_foldlM {reader : OptionReader σ ε}
    (follows : Follows reader takes) (arguments : List String) (out : σ) :
    readOptions reader arguments false out =
      (optionGroups takes arguments).foldlM (readGroup reader) out := by
  induction arguments using optionGroups.induct takes generalizing out with
  | case1 => rfl
  | case2 option =>
      rw [optionGroups, List.foldlM_cons, readGroup]
      cases step : reader option none out with
      | error error => exact readOptions_error reader step
      | ok result => exact readOptions_ok reader step
  | case3 option next rest taken induction =>
      rw [optionGroups_taken taken, List.foldlM_cons, readGroup]
      cases step : reader option (some next) out with
      | error error => exact readOptions_error reader step
      | ok result =>
          rw [readOptions_ok reader step, follows.taken taken step]
          exact induction result.1
  | case4 option next rest alone induction =>
      have last := follows.alone (Bool.eq_false_iff.mpr alone) out
      rw [optionGroups, if_neg alone, List.foldlM_cons, readGroup]
      cases step : reader option none out with
      | error error =>
          exact readOptions_error reader (last.trans step)
      | ok result =>
          rw [readOptions_ok reader (last.trans step),
            follows.untaken step]
          exact induction result.1

end Groups

section Order

variable {α : Type u} {first second : α}

/-- Some occurrence of `first` stands before one of `second`. -/
def Precedes (first second : α) (items : List α) : Prop :=
  [first, second].Sublist items

theorem precedes_cons {item : α} {items : List α} :
    Precedes first second (item :: items) ↔
      Precedes first second items ∨ first = item ∧ second ∈ items := by
  unfold Precedes
  rw [List.sublist_cons_iff]
  apply or_congr_right
  constructor
  · rintro ⟨rest, same, later⟩
    cases same
    exact ⟨rfl, List.singleton_sublist.mp later⟩
  · rintro ⟨rfl, member⟩
    exact ⟨[second], rfl, List.singleton_sublist.mpr member⟩

theorem Precedes.mem {items : List α} (precedes : Precedes first second items) :
    first ∈ items ∧ second ∈ items :=
  ⟨precedes.subset List.mem_cons_self,
    precedes.subset (List.mem_cons_of_mem _ List.mem_cons_self)⟩

/-- Of two different members one stands before the other. -/
theorem precedes_or_precedes {items : List α} (different : first ≠ second)
    (mem_first : first ∈ items) (mem_second : second ∈ items) :
    Precedes first second items ∨ Precedes second first items := by
  induction items with
  | nil => contradiction
  | cons item items induction =>
      rw [precedes_cons, precedes_cons]
      rcases List.mem_cons.mp mem_first with rfl | later_first
      · have later : second ∈ items :=
          (List.mem_cons.mp mem_second).resolve_left (Ne.symm different)
        exact Or.inl (Or.inr ⟨rfl, later⟩)
      · rcases List.mem_cons.mp mem_second with rfl | later_second
        · exact Or.inr (Or.inr ⟨rfl, later_first⟩)
        · exact (induction later_first later_second).imp Or.inl Or.inl

end Order

end CommandLine
