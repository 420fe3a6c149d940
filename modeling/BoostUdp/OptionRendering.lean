import BoostUdp.ServerVector

/-!
# Command lines for given options

The parsers accept what they check and nothing else restricts them: for all
options that pass the checks there is a command line that gives them.
-/

namespace BoostUdp

open StringConversion CommandLine

def inlineOption (key value : String) : String := key ++ "=" ++ value

/-- How the parsers take an argument apart that carries its value. -/
structure Inline (argument key value : String) : Prop where
  help : isHelpFlag argument = false
  starts : startsOption argument = true
  key : optionKey argument = key
  inline : inlineValue argument = some value

theorem inlineOption_inline {key : String} (value : String)
    (dash : key.toList.head? = some '-') (plain : '=' ∉ key.toList) :
    Inline (inlineOption key value) key value := by
  have chars : (inlineOption key value).toList =
      key.toList ++ '=' :: value.toList := by
    simp [inlineOption]
  have before : ∀ char ∈ key.toList, decide (char ≠ '=') = true := by
    intro char member
    rw [decide_eq_true_eq]
    rintro rfl
    exact plain member
  have sign : '=' ∈ (inlineOption key value).toList := by
    rw [chars]
    exact List.mem_append_right _ List.mem_cons_self
  refine
    { help := ?_
      starts := ?_
      key := ?_
      inline := ?_ }
  · rw [isHelpFlag, decide_eq_false_iff_not]
    rintro (help | help)
    · rw [help] at sign
      exact absurd sign (by decide)
    · rw [help] at sign
      exact absurd sign (by decide)
  · rw [startsOption, chars, List.head?_append, dash]
    rfl
  · rw [optionKey, chars, List.takeWhile_append_of_pos before,
      List.takeWhile_cons_of_neg (by decide), List.append_nil,
      String.ofList_toList]
  · rw [inlineValue, chars, List.dropWhile_append_of_pos before,
      List.dropWhile_cons_of_neg (by decide)]
    exact congrArg some String.ofList_toList

theorem Inline.optionValue {argument key value : String}
    (inline : Inline argument key value) (next : Option String) :
    BoostUdp.optionValue argument next = .ok (value, false) := by
  unfold BoostUdp.optionValue
  rw [inline.inline]

/-- What a step of a parser sets, and the argument that says so. -/
abbrev OptionStep (σ : Type) := String × (σ → σ)

/-- The argument of a flag, if it is given. -/
def flagStep {σ : Type} (given : Bool) (text : String) (set : σ → σ) :
    List (OptionStep σ) :=
  if given then [(text, set)] else []

/-- The reader does what the step says, whatever stands behind it. -/
structure Reads {σ ε : Type} (reader : OptionReader σ ε)
    (step : OptionStep σ) : Prop where
  help : isHelpFlag step.1 = false
  reads : ∀ next out, reader step.1 next out = .ok (step.2 out, false)

theorem readOptions_steps {σ ε : Type} {reader : OptionReader σ ε}
    {steps : List (OptionStep σ)} (reads : ∀ step ∈ steps, Reads reader step)
    (out : σ) :
    readOptions reader (steps.map Prod.fst) false out =
      .ok (steps.foldl (fun out step => step.2 out) out) := by
  induction steps generalizing out with
  | nil => rfl
  | cons step steps induction =>
      rw [List.map_cons, readOptions_ok reader
        ((reads step List.mem_cons_self).reads _ out)]
      exact induction
        (fun other member => reads other (List.mem_cons_of_mem _ member)) _

theorem any_isHelpFlag_steps {σ ε : Type} {reader : OptionReader σ ε}
    {steps : List (OptionStep σ)}
    (reads : ∀ step ∈ steps, Reads reader step) :
    (steps.map Prod.fst).any isHelpFlag = false := by
  rw [List.any_map, List.any_eq_false]
  intro step member
  rw [Function.comp_apply, (reads step member).help]
  exact Bool.false_ne_true

theorem forall_flagStep {σ : Type} {given : Bool} {text : String}
    {set : σ → σ} {P : OptionStep σ → Prop} (holds : P (text, set)) :
    ∀ step ∈ flagStep given text set, P step := by
  intro step member
  cases given with
  | false => contradiction
  | true =>
      cases List.mem_singleton.mp member
      exact holds

/-- The value of an option stands in one of the two arguments. -/
theorem nulFree_optionValue {argument : String} {next : Option String}
    (free : NulFree argument) (freeNext : ∀ value ∈ next, NulFree value)
    {result : String × Bool} (read : optionValue argument next = .ok result) :
    NulFree result.1 := by
  unfold optionValue at read
  cases inline : inlineValue argument with
  | some value =>
      rw [inline] at read
      cases read
      unfold inlineValue at inline
      have suffix := List.dropWhile_suffix (l := argument.toList) (· ≠ '=')
      cases behind : argument.toList.dropWhile (· ≠ '=') with
      | nil =>
          rw [behind] at inline
          contradiction
      | cons sign value =>
          rw [behind] at inline suffix
          cases inline
          exact free.ofList fun char member =>
            suffix.subset (List.mem_cons_of_mem _ member)
  | none =>
      rw [inline] at read
      cases next with
      | none => contradiction
      | some value =>
          cases read
          exact freeNext value rfl

theorem nulFree_inlineOption {key value : String} (plain : NulFree key)
    (free : NulFree value) : NulFree (inlineOption key value) :=
  (plain.append (by decide)).append free

section Numbers

variable {value : Nat}

theorem stoull_toString (fits : value < 2 ^ 64) :
    stoull (toString value) = .ok value := by
  rw [stoull, toUnsigned_toString fits]
  rfl

theorem parsePort_toString (platform : Platform) (port : BitVec 16) :
    parsePort platform (toString port.toNat) = .ok port := by
  have small := port.isLt
  have fits : port.toNat < 2 ^ platform.longBits := by
    cases platform with
    | windows => exact Nat.lt_trans small (by decide)
    | posix => exact Nat.lt_trans small (by decide)
  have same : BitVec.ofNat 16 port.toNat = port := by
    rw [BitVec.ofNat_toNat, BitVec.setWidth_eq]
  have read : stoul platform (toString port.toNat) = .ok port.toNat := by
    rw [stoul, toUnsigned_toString fits]
    rfl
  rw [parsePort, read]
  simp only [bind, Except.bind]
  rw [if_neg (by omega), same]

theorem parseBatchSize_toString (low : kPacketHeaderSize ≤ value)
    (high : value ≤ kMaxBatchSize) :
    parseBatchSize (toString value) = .ok value := by
  have fits : value < 2 ^ 64 := by
    unfold kMaxBatchSize at high
    omega
  rw [parseBatchSize, stoull_toString fits]
  exact if_neg (by omega)

theorem parseMss_toString (high : value ≤ kMaxBatchSize) :
    parseMss (toString value) = .ok value := by
  have fits : value < 2 ^ 64 := by
    unfold kMaxBatchSize at high
    omega
  rw [parseMss, stoull_toString fits]
  exact if_neg (by omega)

theorem parseCount_toString (low : 1 ≤ value) (high : value < 2 ^ 64) :
    parseCount (toString value) = .ok value := by
  rw [parseCount, stoull_toString high]
  exact if_neg (by omega)

end Numbers

/-- The arguments that set every option of the client. -/
def clientSteps (options : ClientOptions) : List (OptionStep ClientOptions) :=
  [(inlineOption "--source" options.sourceAddress,
      fun out => { out with sourceAddress := options.sourceAddress }),
    (inlineOption "--dest" options.destAddress,
      fun out => { out with destAddress := options.destAddress }),
    (inlineOption "--port" (toString options.destPort.toNat),
      fun out => { out with destPort := options.destPort }),
    (inlineOption "--size" (toString options.batchSize),
      fun out => { out with batchSize := options.batchSize }),
    (inlineOption "--count" (toString options.batchCount),
      fun out => { out with batchCount := options.batchCount }),
    (inlineOption "--mss" (toString options.mss),
      fun out => { out with mss := options.mss })] ++
  flagStep options.noPktinfo "--no-pktinfo"
    (fun out => { out with noPktinfo := true }) ++
  flagStep options.completionRoutine "--completion-routine"
    (fun out => { out with completionRoutine := true })

def clientArgv (options : ClientOptions) : List String :=
  "boostudp_client" :: (clientSteps options).map Prod.fst

theorem clientSteps_sets (options : ClientOptions) :
    (clientSteps options).foldl (fun out step => step.2 out) {} = options := by
  obtain ⟨source, dest, port, size, count, mss, noPktinfo, routine⟩ := options
  cases noPktinfo <;> cases routine <;> rfl

section Client

variable (platform : Platform) {options : ClientOptions}

theorem clientSteps_reads (sendable : options.Sendable) :
    ∀ step ∈ clientSteps options, Reads (clientOption platform) step := by
  have source := inlineOption_inline options.sourceAddress
    (by decide : "--source".toList.head? = some '-') (by decide)
  have dest := inlineOption_inline options.destAddress
    (by decide : "--dest".toList.head? = some '-') (by decide)
  have port := inlineOption_inline (toString options.destPort.toNat)
    (by decide : "--port".toList.head? = some '-') (by decide)
  have size := inlineOption_inline (toString options.batchSize)
    (by decide : "--size".toList.head? = some '-') (by decide)
  have count := inlineOption_inline (toString options.batchCount)
    (by decide : "--count".toList.head? = some '-') (by decide)
  have mss := inlineOption_inline (toString options.mss)
    (by decide : "--mss".toList.head? = some '-') (by decide)
  have segment : options.mss ≤ kMaxBatchSize :=
    Nat.le_trans sendable.mss (by decide)
  rw [clientSteps, List.forall_mem_append, List.forall_mem_append]
  refine ⟨⟨?_, forall_flagStep ?_⟩, forall_flagStep ?_⟩
  · simp only [List.forall_mem_cons, List.not_mem_nil]
    refine ⟨?_, ?_, ?_, ?_, ?_, ?_, by simp⟩
    · refine ⟨source.help, fun next out => ?_⟩
      simp only [clientOption, source.help, source.starts, source.key, source.optionValue,
        bind, Except.bind, Bool.not_true, Bool.false_eq_true, reduceIte,
        String.reduceEq]
    · refine ⟨dest.help, fun next out => ?_⟩
      simp only [clientOption, dest.help, dest.starts, dest.key, dest.optionValue,
        bind, Except.bind, Bool.not_true, Bool.false_eq_true, reduceIte,
        String.reduceEq]
    · refine ⟨port.help, fun next out => ?_⟩
      simp only [clientOption, port.help, port.starts, port.key, port.optionValue,
        bind, Except.bind, Bool.not_true, Bool.false_eq_true, reduceIte,
        String.reduceEq, parsePort_toString]
    · refine ⟨size.help, fun next out => ?_⟩
      simp only [clientOption, size.help, size.starts, size.key, size.optionValue,
        bind, Except.bind, Bool.not_true, Bool.false_eq_true, reduceIte,
        String.reduceEq,
        parseBatchSize_toString sendable.size_ge sendable.size_le]
    · refine ⟨count.help, fun next out => ?_⟩
      simp only [clientOption, count.help, count.starts, count.key, count.optionValue,
        bind, Except.bind, Bool.not_true, Bool.false_eq_true, reduceIte,
        String.reduceEq,
        parseCount_toString sendable.count.1 sendable.count.2]
    · refine ⟨mss.help, fun next out => ?_⟩
      simp only [clientOption, mss.help, mss.starts, mss.key, mss.optionValue,
        bind, Except.bind, Bool.not_true, Bool.false_eq_true, reduceIte,
        String.reduceEq, parseMss_toString segment]
  · exact ⟨by decide, fun _ _ => rfl⟩
  · exact ⟨by decide, fun _ _ => rfl⟩

theorem finishClientOptions_sendable (sendable : options.Sendable) :
    finishClientOptions options = .ok (true, options) := by
  have size : options.batchSize ≠ 0 :=
    Nat.ne_of_gt (Nat.lt_of_lt_of_le kPacketHeaderSize_pos sendable.size_ge)
  exact finishClientOptions_eq_ok.mpr ⟨sendable.dest, sendable.port, size,
    sendable.mss, sendable.size_le, rfl⟩

/-- What is read as an address is free of NUL. -/
theorem clientOption_nulFree (argument : String) (next : Option String)
    (free : NulFree argument) (freeNext : ∀ value ∈ next, NulFree value)
    {out : ClientOptions}
    (kept : NulFree out.sourceAddress ∧ NulFree out.destAddress) :
    Keeps (fun out : ClientOptions =>
        NulFree out.sourceAddress ∧ NulFree out.destAddress)
      (clientOption platform argument next out) := by
  unfold clientOption
  apply keeps_ite
  · exact keeps_ok kept
  · apply keeps_ite
    · exact keeps_error
    · apply keeps_ite
      · exact keeps_bind fun _ read =>
          keeps_ok ⟨nulFree_optionValue free freeNext read, kept.2⟩
      · apply keeps_ite
        · exact keeps_bind fun _ read =>
            keeps_ok ⟨kept.1, nulFree_optionValue free freeNext read⟩
        · -- The other options leave the addresses alone.
          apply keeps_ite
          · exact keeps_bind fun _ _ => keeps_bind fun _ _ => keeps_ok kept
          · apply keeps_ite
            · exact keeps_bind fun _ _ => keeps_bind fun _ _ => keeps_ok kept
            · apply keeps_ite
              · exact keeps_bind fun _ _ => keeps_bind fun _ _ => keeps_ok kept
              · apply keeps_ite
                · exact keeps_bind fun _ _ =>
                    keeps_bind fun _ _ => keeps_ok kept
                · apply keeps_ite
                  · exact keeps_ok kept
                  · apply keeps_ite
                    · exact keeps_ok kept
                    · exact keeps_error

theorem parseClientOptions_nulFree {argv : List String}
    (free : ∀ argument ∈ argv, NulFree argument)
    (accepted : parseClientOptions platform argv {} = .ok (true, options)) :
    NulFree options.sourceAddress ∧ NulFree options.destAddress := by
  have given : ∀ argument ∈ argv.drop 1, NulFree argument :=
    fun argument member => free argument (List.mem_of_mem_drop member)
  exact readOptions_keeps_given (clientOption platform)
    (fun argument next _ free freeNext kept =>
      clientOption_nulFree platform argument next free freeNext kept)
    given (by decide) (parseClientOptions_accepted accepted).1

theorem nulFree_clientArgv (source : NulFree options.sourceAddress)
    (dest : NulFree options.destAddress) :
    ∀ argument ∈ clientArgv options, NulFree argument := by
  have steps : ∀ step ∈ clientSteps options, NulFree step.1 := by
    rw [clientSteps, List.forall_mem_append, List.forall_mem_append]
    refine ⟨⟨?_, forall_flagStep (by decide)⟩, forall_flagStep (by decide)⟩
    simp only [List.forall_mem_cons, List.not_mem_nil]
    refine ⟨nulFree_inlineOption (by decide) source,
      nulFree_inlineOption (by decide) dest, ?_, ?_, ?_, ?_, by simp⟩
    · exact nulFree_inlineOption (by decide) (nulFree_toString _)
    · exact nulFree_inlineOption (by decide) (nulFree_toString _)
    · exact nulFree_inlineOption (by decide) (nulFree_toString _)
    · exact nulFree_inlineOption (by decide) (nulFree_toString _)
  rw [clientArgv, List.forall_mem_cons, List.forall_mem_map]
  exact ⟨by decide, steps⟩

/-- The client can be asked for exactly what it checks, up to addresses that
no argument can hold. -/
theorem parseClientOptions_reaches_iff (options : ClientOptions) :
    (∃ argv, (∀ argument ∈ argv, NulFree argument) ∧
        parseClientOptions platform argv {} = .ok (true, options)) ↔
      options.Sendable ∧ NulFree options.sourceAddress ∧
        NulFree options.destAddress := by
  constructor
  · rintro ⟨argv, free, accepted⟩
    exact ⟨parseClientOptions_sendable accepted,
      parseClientOptions_nulFree platform free accepted⟩
  · rintro ⟨sendable, source, dest⟩
    have reads := clientSteps_reads platform sendable
    refine ⟨clientArgv options, nulFree_clientArgv source dest, ?_⟩
    rw [parseClientOptions, clientArgv, List.drop_one, List.tail_cons,
      if_neg (Bool.eq_false_iff.mp (any_isHelpFlag_steps reads)),
      readOptions_steps reads, clientSteps_sets]
    exact finishClientOptions_sendable sendable

end Client

/-- What an accepted command line of the server asks for. -/
structure ServerOptions.Servable (platform : Platform)
    (options : ServerOptions) : Prop where
  port : options.port ≠ 0
  uro : options.uro = true → platform = .windows
  inRange : options.InRange

def countStep : Option Nat → List (OptionStep ServerOptions)
  | none => []
  | some count =>
      [(inlineOption "--count" (toString count),
        fun out => { out with batchCount := some count })]

/-- The arguments that set every option of the server but `--loop`. -/
def serverSteps (options : ServerOptions) : List (OptionStep ServerOptions) :=
  [(inlineOption "--bind" options.bindAddress,
      fun out => { out with bindAddress := options.bindAddress }),
    (inlineOption "--port" (toString options.port.toNat),
      fun out => { out with port := options.port })] ++
  flagStep options.verbose "-v" (fun out => { out with verbose := true }) ++
  flagStep options.uro "--uro" (fun out => { out with uro := true }) ++
  countStep options.batchCount

def loopArguments (options : ServerOptions) : List String :=
  match options.loopCount with
  | some count => [inlineOption "--loop" (toString count)]
  | none => if options.loop then ["--loop"] else []

/-- `--loop` comes first, where no `--count` has been seen. -/
def serverArgv (options : ServerOptions) : List String :=
  "boostudp_server" ::
    (loopArguments options ++ (serverSteps options).map Prod.fst)

section Server

variable {platform : Platform} {options : ServerOptions}

theorem serverSteps_sets (options : ServerOptions) :
    (serverSteps options).foldl (fun out step => step.2 out)
      { loop := options.loop, loopCount := options.loopCount } = options := by
  obtain ⟨bind, port, count, verbose, uro, loop, loopCount⟩ := options
  cases verbose <;> cases uro <;> cases count <;> rfl

theorem serverSteps_reads (servable : options.Servable platform) :
    ∀ step ∈ serverSteps options, Reads (serverOption platform) step := by
  have address := inlineOption_inline options.bindAddress
    (by decide : "--bind".toList.head? = some '-') (by decide)
  have port := inlineOption_inline (toString options.port.toNat)
    (by decide : "--port".toList.head? = some '-') (by decide)
  rw [serverSteps, List.forall_mem_append, List.forall_mem_append,
    List.forall_mem_append]
  refine ⟨⟨⟨?_, forall_flagStep ?_⟩, forall_flagStep ?_⟩, ?_⟩
  · simp only [List.forall_mem_cons, List.not_mem_nil]
    refine ⟨?_, ?_, by simp⟩
    · refine ⟨address.help, fun next out => ?_⟩
      simp only [serverOption, address.help, address.starts, address.key,
        address.optionValue, bind, Except.bind, Bool.not_true,
        Bool.false_eq_true, reduceIte]
    · refine ⟨port.help, fun next out => ?_⟩
      simp only [serverOption, port.help, port.starts, port.key,
        port.optionValue, bind, Except.bind, Bool.not_true,
        Bool.false_eq_true, reduceIte, String.reduceEq, parsePort_toString]
  · exact ⟨by decide, fun _ _ => rfl⟩
  · exact ⟨by decide, fun _ _ => rfl⟩
  · intro step member
    cases given : options.batchCount with
    | none =>
        rw [given] at member
        contradiction
    | some value =>
        rw [given] at member
        cases List.mem_singleton.mp member
        obtain ⟨low, high⟩ := servable.inRange.batchCount value given
        have count := inlineOption_inline (toString value)
          (by decide : "--count".toList.head? = some '-') (by decide)
        refine ⟨count.help, fun next out => ?_⟩
        simp only [serverOption, count.help, count.starts, count.key,
          count.optionValue, bind, Except.bind, Bool.not_true,
          Bool.false_eq_true, reduceIte, String.reduceEq,
          parseCount_toString low high]

theorem loopArguments_reads (servable : options.Servable platform)
    {argument : String} {rest : List String}
    (starts : startsOption argument = true) :
    readOptions (serverOption platform)
        (loopArguments options ++ argument :: rest) false {} =
      readOptions (serverOption platform) (argument :: rest) false
        { loop := options.loop, loopCount := options.loopCount } := by
  cases sessions : options.loopCount with
  | some value =>
      obtain ⟨low, high⟩ := servable.inRange.loopCount value sessions
      have loop := servable.inRange.loop (by rw [sessions]; rfl)
      have given := inlineOption_inline (toString value)
        (by decide : "--loop".toList.head? = some '-') (by decide)
      have step : ∀ next,
          serverOption platform (inlineOption "--loop" (toString value)) next
            {} = .ok ({ loop := true, loopCount := some value }, false) := by
        intro next
        simp only [serverOption, given.help, given.starts, given.key,
          given.inline, bind, Except.bind, Bool.not_true,
          Bool.false_eq_true, reduceIte, String.reduceEq,
          Option.isSome_none, parseCount_toString low high]
      rw [loopArguments, sessions]
      refine (readOptions_ok _ (step _)).trans ?_
      rw [loop]
      rfl
  | none =>
      cases loop : options.loop with
      | false =>
          rw [loopArguments, sessions, loop]
          rfl
      | true =>
          have step : serverOption platform "--loop" (some argument) {} =
              .ok ({ loop := true }, false) := by
            have help : isHelpFlag "--loop" = false := by decide
            have dash : startsOption "--loop" = true := by decide
            have key : optionKey "--loop" = "--loop" := by decide
            have bare : inlineValue "--loop" = none := by decide
            simp only [serverOption, help, dash, key, bare, starts,
              Bool.not_true, Bool.false_and, Bool.false_eq_true, reduceIte,
              String.reduceEq, Option.isSome_none]
          rw [loopArguments, sessions, loop]
          exact readOptions_ok _ step

theorem any_isHelpFlag_loopArguments (options : ServerOptions) :
    (loopArguments options).any isHelpFlag = false := by
  unfold loopArguments
  cases options.loopCount with
  | some value =>
      have given := inlineOption_inline (toString value)
        (by decide : "--loop".toList.head? = some '-') (by decide)
      rw [List.any_cons, given.help]
      rfl
  | none =>
      cases options.loop with
      | false => rfl
      | true => decide

theorem parseServerOptions_servable {argv : List String}
    (accepted : parseServerOptions platform argv {} = .ok (true, options)) :
    options.Servable platform :=
  have checked := (parseServerOptions_accepted accepted).2
  { port := checked.1
    uro := checked.2
    inRange := parseServerOptions_inRange accepted }

/-- What is read as an address is free of NUL. -/
theorem serverOption_nulFree (argument : String) (next : Option String)
    (free : NulFree argument) (freeNext : ∀ value ∈ next, NulFree value)
    {out : ServerOptions} (kept : NulFree out.bindAddress) :
    Keeps (fun out : ServerOptions => NulFree out.bindAddress)
      (serverOption platform argument next out) := by
  unfold serverOption
  apply keeps_ite
  · exact keeps_ok kept
  · apply keeps_ite
    · exact keeps_error
    · apply keeps_ite
      · exact keeps_bind fun _ read =>
          keeps_ok (nulFree_optionValue free freeNext read)
      · -- The other options leave the address alone.
        apply keeps_ite
        · exact keeps_bind fun _ _ => keeps_bind fun _ _ => keeps_ok kept
        · apply keeps_ite
          · exact keeps_bind fun _ _ => keeps_bind fun _ _ => keeps_ok kept
          · apply keeps_ite
            · exact keeps_ok kept
            · apply keeps_ite
              · exact keeps_ok kept
              · apply keeps_ite
                · apply keeps_ite
                  · exact keeps_error
                  · dsimp only
                    cases inlineValue argument with
                    | some value =>
                        exact keeps_bind fun _ _ => keeps_ok kept
                    | none =>
                        cases next with
                        | none => exact keeps_ok kept
                        | some value =>
                            apply keeps_ite
                            · exact keeps_bind fun _ _ => keeps_ok kept
                            · exact keeps_ok kept
                · exact keeps_error

theorem parseServerOptions_nulFree {argv : List String}
    (free : ∀ argument ∈ argv, NulFree argument)
    (accepted : parseServerOptions platform argv {} = .ok (true, options)) :
    NulFree options.bindAddress := by
  have given : ∀ argument ∈ argv.drop 1, NulFree argument :=
    fun argument member => free argument (List.mem_of_mem_drop member)
  exact readOptions_keeps_given (serverOption platform)
    (fun argument next _ free freeNext kept =>
      serverOption_nulFree argument next free freeNext kept)
    given (by decide) (parseServerOptions_accepted accepted).1

theorem nulFree_loopArguments (options : ServerOptions) :
    ∀ argument ∈ loopArguments options, NulFree argument := by
  intro argument member
  unfold loopArguments at member
  cases sessions : options.loopCount with
  | some value =>
      rw [sessions] at member
      cases List.mem_singleton.mp member
      exact nulFree_inlineOption (by decide) (nulFree_toString _)
  | none =>
      rw [sessions] at member
      cases loop : options.loop with
      | false =>
          rw [loop] at member
          contradiction
      | true =>
          rw [loop] at member
          cases List.mem_singleton.mp member
          decide

theorem nulFree_serverArgv (address : NulFree options.bindAddress) :
    ∀ argument ∈ serverArgv options, NulFree argument := by
  have steps : ∀ step ∈ serverSteps options, NulFree step.1 := by
    rw [serverSteps, List.forall_mem_append, List.forall_mem_append,
      List.forall_mem_append]
    refine ⟨⟨⟨?_, forall_flagStep (by decide)⟩, forall_flagStep (by decide)⟩,
      ?_⟩
    · simp only [List.forall_mem_cons, List.not_mem_nil]
      exact ⟨nulFree_inlineOption (by decide) address,
        nulFree_inlineOption (by decide) (nulFree_toString _), by simp⟩
    · intro step member
      cases given : options.batchCount with
      | none =>
          rw [given] at member
          contradiction
      | some value =>
          rw [given] at member
          cases List.mem_singleton.mp member
          exact nulFree_inlineOption (by decide) (nulFree_toString _)
  rw [serverArgv, List.forall_mem_cons, List.forall_mem_append,
    List.forall_mem_map]
  exact ⟨by decide, nulFree_loopArguments options, steps⟩

/-- The server can be asked for exactly what it checks, up to an address that
no argument can hold. -/
theorem parseServerOptions_reaches_iff (platform : Platform)
    (options : ServerOptions) :
    (∃ argv, (∀ argument ∈ argv, NulFree argument) ∧
        parseServerOptions platform argv {} = .ok (true, options)) ↔
      options.Servable platform ∧ NulFree options.bindAddress := by
  constructor
  · rintro ⟨argv, free, accepted⟩
    exact ⟨parseServerOptions_servable accepted,
      parseServerOptions_nulFree free accepted⟩
  · rintro ⟨servable, free⟩
    have reads := serverSteps_reads servable
    have quiet : ((serverArgv options).drop 1).any isHelpFlag = false := by
      rw [serverArgv, List.drop_one, List.tail_cons, List.any_append,
        any_isHelpFlag_loopArguments, any_isHelpFlag_steps reads]
      rfl
    have address := inlineOption_inline options.bindAddress
      (by decide : "--bind".toList.head? = some '-') (by decide)
    have read : readOptions (serverOption platform)
        ((serverArgv options).drop 1) false {} = .ok options := by
      refine (loopArguments_reads servable address.starts).trans ?_
      refine (readOptions_steps reads _).trans ?_
      rw [serverSteps_sets]
    have finished := (finishServerOptions_eq_ok platform).mpr
      ⟨servable.port, servable.uro, (rfl : options = options)⟩
    refine ⟨serverArgv options, nulFree_serverArgv free, ?_⟩
    rw [parseServerOptions, if_neg (Bool.eq_false_iff.mp quiet), read]
    exact finished

end Server

end BoostUdp
