import BoostUdp.CommandLine
import BoostUdp.Server.State
import BoostUdp.StringConversion

/-!
# The command line

The options of the server and of the client, with their defaults, and the
parsers that fill them in.  What the parsers print for `--help` is left out.
-/

namespace BoostUdp

open StringConversion CommandLine

/-- What the parsers throw: `std::invalid_argument` and `std::out_of_range`
with their texts, and what `std::stoul` and `std::stoull` throw. -/
inductive CliError where
  | invalidArgument (what : String)
  | outOfRange (what : String)
  | conversion (error : ConversionError)
  deriving DecidableEq, Repr

inductive Platform where
  | windows
  | posix
  deriving DecidableEq, Repr

/-- The width of `unsigned long`. -/
def Platform.longBits : Platform → Nat
  | .windows => 32
  | .posix => 64

def kDefaultMss : Nat := 1400
def kUsoMaxBytesPerBatch : Nat := 64 * 1024
def kUsoMaxSegmentSize : Nat := 1472

def stoul (platform : Platform) (text : String) : Except CliError Nat :=
  (toUnsigned platform.longBits text).mapError .conversion

def stoull (text : String) : Except CliError Nat :=
  (toUnsigned 64 text).mapError .conversion

def parsePort (platform : Platform) (text : String) :
    Except CliError (BitVec 16) := do
  let value ← stoul platform text
  if 65535 < value then
    .error (.outOfRange "port out of range")
  else
    .ok (BitVec.ofNat 16 value)

def parseBatchSize (text : String) : Except CliError Nat := do
  let value ← stoull text
  if value < kPacketHeaderSize ∨ kMaxBatchSize < value then
    .error (.outOfRange ("batch size must be " ++
      toString kPacketHeaderSize ++ ".." ++ toString kMaxBatchSize))
  else
    .ok value

def parseMss (text : String) : Except CliError Nat := do
  let value ← stoull text
  if kMaxBatchSize < value then
    .error (.outOfRange ("mss must be 0.." ++ toString kMaxBatchSize))
  else
    .ok value

def parseCount (text : String) : Except CliError Nat := do
  let value ← stoull text
  if value = 0 then
    .error (.outOfRange "count must be >= 1")
  else
    .ok value

theorem stoull_lt {text : String} {value : Nat}
    (converted : stoull text = .ok value) : value < 2 ^ 64 := by
  unfold stoull at converted
  cases number : toUnsigned 64 text with
  | error error =>
      rw [number] at converted
      contradiction
  | ok same =>
      rw [number] at converted
      cases converted
      exact toUnsigned_lt number

theorem parseBatchSize_range {text : String} {size : Nat}
    (parsed : parseBatchSize text = .ok size) :
    kPacketHeaderSize ≤ size ∧ size ≤ kMaxBatchSize := by
  obtain ⟨value, _, checked⟩ := bind_eq_ok.mp parsed
  obtain ⟨inRange, same⟩ := ite_error_eq_ok.mp checked
  cases same
  exact ⟨Nat.not_lt.mp fun low => inRange (Or.inl low),
    Nat.not_lt.mp fun high => inRange (Or.inr high)⟩

theorem parseMss_le {text : String} {mss : Nat}
    (parsed : parseMss text = .ok mss) : mss ≤ kMaxBatchSize := by
  obtain ⟨value, _, checked⟩ := bind_eq_ok.mp parsed
  obtain ⟨inRange, same⟩ := ite_error_eq_ok.mp checked
  cases same
  exact Nat.not_lt.mp inRange

theorem parseCount_range {text : String} {count : Nat}
    (parsed : parseCount text = .ok count) :
    1 ≤ count ∧ count < 2 ^ 64 := by
  obtain ⟨value, converted, checked⟩ := bind_eq_ok.mp parsed
  obtain ⟨nonzero, same⟩ := ite_error_eq_ok.mp checked
  cases same
  exact ⟨Nat.pos_of_ne_zero nonzero, stoull_lt converted⟩

structure ServerOptions where
  bindAddress : String := "0.0.0.0"
  port : BitVec 16 := 0
  batchCount : Option Nat := none
  verbose : Bool := false
  uro : Bool := false
  loop : Bool := false
  loopCount : Option Nat := none
  deriving DecidableEq, Repr

structure ClientOptions where
  sourceAddress : String := "0.0.0.0"
  destAddress : String := ""
  destPort : BitVec 16 := 0
  batchSize : Nat := 0
  batchCount : Nat := 10
  mss : Nat := kDefaultMss
  noPktinfo : Bool := false
  completionRoutine : Bool := false
  deriving DecidableEq, Repr

def isHelpFlag (argument : String) : Bool :=
  argument = "--help" ∨ argument = "-h"

def optionKey (argument : String) : String :=
  String.ofList (argument.toList.takeWhile (· ≠ '='))

/-- What stands behind the first `=`. -/
def inlineValue (argument : String) : Option String :=
  match argument.toList.dropWhile (· ≠ '=') with
  | [] => none
  | _ :: value => some (String.ofList value)

/-- The value of an option, and whether it is the next argument. -/
def optionValue (argument : String) (next : Option String) :
    Except CliError (String × Bool) :=
  match inlineValue argument with
  | some value => .ok (value, false)
  | none =>
      match next with
      | none =>
          .error (.invalidArgument
            ("option " ++ argument ++ " requires a value"))
      | some value => .ok (value, true)

/-- `argument[0] == '-'`. -/
def startsOption (argument : String) : Bool :=
  argument.toList.head? = some '-'

def startsWithDigit (argument : String) : Bool :=
  argument.toList.head?.any Char.isDigit

/-- One turn of the loop of `parse_server_options`. -/
def serverOption (platform : Platform) (argument : String)
    (next : Option String) (out : ServerOptions) :
    Except CliError (ServerOptions × Bool) :=
  if isHelpFlag argument then
    .ok (out, false)
  else if !startsOption argument then
    .error (.invalidArgument ("unexpected argument: " ++ argument))
  else
    let key := optionKey argument
    if key = "--bind" then do
      let (value, taken) ← optionValue argument next
      .ok ({ out with bindAddress := value }, taken)
    else if key = "--port" then do
      let (value, taken) ← optionValue argument next
      let port ← parsePort platform value
      .ok ({ out with port := port }, taken)
    else if key = "--count" then do
      let (value, taken) ← optionValue argument next
      let count ← parseCount value
      .ok ({ out with batchCount := some count }, taken)
    else if key = "-v" then
      .ok ({ out with verbose := true }, false)
    else if key = "--uro" then
      .ok ({ out with uro := true }, false)
    else if key = "--loop" then
      if out.batchCount.isSome then
        .error (.invalidArgument "--loop cannot be used with --count")
      else
        let out := { out with loop := true }
        match inlineValue argument with
        | some value => do
            let count ← parseCount value
            .ok ({ out with loopCount := some count }, false)
        | none =>
            match next with
            | none => .ok (out, false)
            | some value =>
                if !startsOption value && startsWithDigit value then do
                  let count ← parseCount value
                  .ok ({ out with loopCount := some count }, true)
                else
                  .ok (out, false)
    else
      .error (.invalidArgument ("unknown option: " ++ key))

/-- The checks behind the loop. -/
def finishServerOptions (platform : Platform) (out : ServerOptions) :
    Except CliError (Bool × ServerOptions) :=
  if out.port = 0 then
    .error (.invalidArgument "--port is required")
  else if platform ≠ .windows ∧ out.uro then
    .error (.invalidArgument "--uro is only supported on Windows")
  else
    .ok (true, out)

/-- `false` is returned after `--help`. -/
def parseServerOptions (platform : Platform) (argv : List String)
    (out : ServerOptions) : Except CliError (Bool × ServerOptions) :=
  let arguments := argv.drop 1
  if arguments.any isHelpFlag then
    .ok (false, out)
  else do
    let out ← readOptions (serverOption platform) arguments false out
    finishServerOptions platform out

/-- The ranges of the counts among the options; a number of sessions is only
read behind `--loop`. -/
structure ServerOptions.InRange (options : ServerOptions) : Prop where
  batchCount : ∀ count ∈ options.batchCount, 1 ≤ count ∧ count < 2 ^ 64
  loopCount : ∀ count ∈ options.loopCount, 1 ≤ count ∧ count < 2 ^ 64
  loop : options.loopCount.isSome = true → options.loop = true

theorem serverOptions_default_inRange : ServerOptions.InRange {} :=
  { batchCount := by
      intro count given
      contradiction
    loopCount := by
      intro count given
      contradiction
    loop := by
      intro given
      contradiction }

theorem mem_some_range {count : Nat} {text : String}
    (parsed : parseCount text = .ok count) :
    ∀ other ∈ some count, 1 ≤ other ∧ other < 2 ^ 64 := by
  intro other given
  cases given
  exact parseCount_range parsed

/-- Every option keeps the counts in their ranges. -/
theorem serverOption_inRange (platform : Platform) (argument : String)
    (next : Option String) {out : ServerOptions} (inRange : out.InRange) :
    Keeps ServerOptions.InRange (serverOption platform argument next out) := by
  obtain ⟨batchCount, loopCount, loop⟩ := inRange
  unfold serverOption
  apply keeps_ite
  · exact keeps_ok ⟨batchCount, loopCount, loop⟩
  · apply keeps_ite
    · exact keeps_error
    · apply keeps_ite
      · exact keeps_bind fun _ _ => keeps_ok ⟨batchCount, loopCount, loop⟩
      · apply keeps_ite
        · exact keeps_bind fun _ _ => keeps_bind fun _ _ =>
            keeps_ok ⟨batchCount, loopCount, loop⟩
        · apply keeps_ite
          · exact keeps_bind fun _ _ => keeps_bind fun _ parsed =>
              keeps_ok ⟨mem_some_range parsed, loopCount, loop⟩
          · apply keeps_ite
            · exact keeps_ok ⟨batchCount, loopCount, loop⟩
            · apply keeps_ite
              · exact keeps_ok ⟨batchCount, loopCount, loop⟩
              · apply keeps_ite
                · apply keeps_ite
                  · exact keeps_error
                  · dsimp only
                    cases inlineValue argument with
                    | some value =>
                        exact keeps_bind fun _ parsed =>
                          keeps_ok ⟨batchCount, mem_some_range parsed, fun _ => rfl⟩
                    | none =>
                        cases next with
                        | none => exact keeps_ok ⟨batchCount, loopCount, fun _ => rfl⟩
                        | some value =>
                            apply keeps_ite
                            · exact keeps_bind fun _ parsed =>
                                keeps_ok ⟨batchCount, mem_some_range parsed, fun _ => rfl⟩
                            · exact keeps_ok ⟨batchCount, loopCount, fun _ => rfl⟩
                · exact keeps_error

theorem finishServerOptions_eq_ok (platform : Platform)
    {out options : ServerOptions} :
    finishServerOptions platform out = .ok (true, options) ↔
      out.port ≠ 0 ∧ (out.uro = true → platform = .windows) ∧
        options = out := by
  simp only [finishServerOptions, ite_error_eq_ok]
  constructor
  · rintro ⟨port, uro, finished⟩
    cases finished
    refine ⟨port, ?_, rfl⟩
    intro given
    by_contra other
    exact uro ⟨other, given⟩
  · rintro ⟨port, uro, rfl⟩
    exact ⟨port, fun wrong => wrong.1 (uro wrong.2), rfl⟩

/-- An accepted vector has been read to its end and checked. -/
theorem parseServerOptions_accepted {platform : Platform}
    {argv : List String} {out options : ServerOptions}
    (accepted : parseServerOptions platform argv out = .ok (true, options)) :
    readOptions (serverOption platform) (argv.drop 1) false out =
        .ok options ∧
      options.port ≠ 0 ∧ (options.uro = true → platform = .windows) := by
  unfold parseServerOptions at accepted
  dsimp only at accepted
  by_cases help : (argv.drop 1).any isHelpFlag = true
  · rw [if_pos help] at accepted
    cases accepted
  · rw [if_neg help] at accepted
    obtain ⟨result, read, checked⟩ := bind_eq_ok.mp accepted
    obtain ⟨port, uro, rfl⟩ := (finishServerOptions_eq_ok platform).mp checked
    exact ⟨read, port, uro⟩

theorem parseServerOptions_inRange {platform : Platform}
    {argv : List String} {options : ServerOptions}
    (accepted : parseServerOptions platform argv {} = .ok (true, options)) :
    options.InRange :=
  readOptions_keeps (serverOption platform)
    (fun argument next _ => serverOption_inRange platform argument next)
    serverOptions_default_inRange (parseServerOptions_accepted accepted).1

/-- One turn of the loop of `parse_client_options`. -/
def clientOption (platform : Platform) (argument : String)
    (next : Option String) (out : ClientOptions) :
    Except CliError (ClientOptions × Bool) :=
  if isHelpFlag argument then
    .ok (out, false)
  else if !startsOption argument then
    .error (.invalidArgument ("unexpected argument: " ++ argument))
  else
    let key := optionKey argument
    if key = "--source" then do
      let (value, taken) ← optionValue argument next
      .ok ({ out with sourceAddress := value }, taken)
    else if key = "--dest" then do
      let (value, taken) ← optionValue argument next
      .ok ({ out with destAddress := value }, taken)
    else if key = "--port" then do
      let (value, taken) ← optionValue argument next
      let port ← parsePort platform value
      .ok ({ out with destPort := port }, taken)
    else if key = "--size" then do
      let (value, taken) ← optionValue argument next
      let size ← parseBatchSize value
      .ok ({ out with batchSize := size }, taken)
    else if key = "--count" then do
      let (value, taken) ← optionValue argument next
      let count ← parseCount value
      .ok ({ out with batchCount := count }, taken)
    else if key = "--mss" then do
      let (value, taken) ← optionValue argument next
      let mss ← parseMss value
      .ok ({ out with mss := mss }, taken)
    else if key = "--no-pktinfo" then
      .ok ({ out with noPktinfo := true }, false)
    else if key = "--completion-routine" then
      .ok ({ out with completionRoutine := true }, false)
    else
      .error (.invalidArgument ("unknown option: " ++ key))

/-- The ranges of the numbers among the options; a size of zero is a size that
is not given. -/
structure ClientOptions.InRange (options : ClientOptions) : Prop where
  size : options.batchSize = 0 ∨ kPacketHeaderSize ≤ options.batchSize ∧
    options.batchSize ≤ kMaxBatchSize
  count : 1 ≤ options.batchCount ∧ options.batchCount < 2 ^ 64
  mss : options.mss ≤ kMaxBatchSize

/-- The defaults are in range. -/
theorem clientOptions_default_inRange : ClientOptions.InRange {} :=
  { size := Or.inl rfl
    count := by decide
    mss := by decide }

/-- Every option keeps the numbers in their ranges. -/
theorem clientOption_inRange (platform : Platform) (argument : String)
    (next : Option String) {out : ClientOptions} (inRange : out.InRange) :
    Keeps ClientOptions.InRange
      (clientOption platform argument next out) := by
  obtain ⟨size, count, mss⟩ := inRange
  unfold clientOption
  apply keeps_ite
  · exact keeps_ok ⟨size, count, mss⟩
  · apply keeps_ite
    · exact keeps_error
    · apply keeps_ite
      · exact keeps_bind fun _ _ => keeps_ok ⟨size, count, mss⟩
      · apply keeps_ite
        · exact keeps_bind fun _ _ => keeps_ok ⟨size, count, mss⟩
        · apply keeps_ite
          · exact keeps_bind fun _ _ => keeps_bind fun _ _ =>
              keeps_ok ⟨size, count, mss⟩
          · apply keeps_ite
            · exact keeps_bind fun _ _ => keeps_bind fun _ parsed =>
                keeps_ok ⟨Or.inr (parseBatchSize_range parsed), count, mss⟩
            · apply keeps_ite
              · exact keeps_bind fun _ _ => keeps_bind fun _ parsed =>
                  keeps_ok ⟨size, parseCount_range parsed, mss⟩
              · apply keeps_ite
                · exact keeps_bind fun _ _ => keeps_bind fun _ parsed =>
                    keeps_ok ⟨size, count, parseMss_le parsed⟩
                · apply keeps_ite
                  · exact keeps_ok ⟨size, count, mss⟩
                  · apply keeps_ite
                    · exact keeps_ok ⟨size, count, mss⟩
                    · exact keeps_error

/-- The checks behind the loop. -/
def finishClientOptions (out : ClientOptions) :
    Except CliError (Bool × ClientOptions) :=
  if out.destAddress.isEmpty then
    .error (.invalidArgument "--dest is required")
  else if out.destPort = 0 then
    .error (.invalidArgument "--port is required")
  else if out.batchSize = 0 then
    .error (.invalidArgument "--size is required")
  else if out.mss ≠ 0 ∧ kUsoMaxSegmentSize < out.mss then
    .error (.invalidArgument
      ("--mss must be 0 or <= " ++ toString kUsoMaxSegmentSize))
  else if kUsoMaxBytesPerBatch < out.batchSize then
    .error (.invalidArgument
      ("--size must be <= " ++ toString kUsoMaxBytesPerBatch))
  else
    .ok (true, out)

def parseClientOptions (platform : Platform) (argv : List String)
    (out : ClientOptions) : Except CliError (Bool × ClientOptions) :=
  let arguments := argv.drop 1
  if arguments.any isHelpFlag then
    .ok (false, out)
  else do
    let out ← readOptions (clientOption platform) arguments false out
    finishClientOptions out

theorem finishClientOptions_eq_ok {out options : ClientOptions} :
    finishClientOptions out = .ok (true, options) ↔
      out.destAddress ≠ "" ∧ out.destPort ≠ 0 ∧ out.batchSize ≠ 0 ∧
        out.mss ≤ kUsoMaxSegmentSize ∧
        out.batchSize ≤ kUsoMaxBytesPerBatch ∧ options = out := by
  simp only [finishClientOptions, ite_error_eq_ok]
  constructor
  · rintro ⟨dest, port, size, mss, fits, finished⟩
    cases finished
    refine ⟨fun empty => dest (String.isEmpty_iff.mpr empty), port, size, ?_,
      Nat.not_lt.mp fits, rfl⟩
    by_contra large
    exact mss ⟨by omega, Nat.not_le.mp large⟩
  · rintro ⟨dest, port, size, mss, fits, rfl⟩
    exact ⟨fun empty => dest (String.isEmpty_iff.mp empty), port, size,
      fun large => Nat.not_le.mpr large.2 mss, Nat.not_lt.mpr fits, rfl⟩

/-- What an accepted command line of the client asks for. -/
structure ClientOptions.Sendable (options : ClientOptions) : Prop where
  dest : options.destAddress ≠ ""
  port : options.destPort ≠ 0
  size_ge : kPacketHeaderSize ≤ options.batchSize
  size_le : options.batchSize ≤ kMaxBatchSize
  count : 1 ≤ options.batchCount ∧ options.batchCount < 2 ^ 64
  mss : options.mss ≤ kUsoMaxSegmentSize

/-- An accepted vector has been read to its end and checked. -/
theorem parseClientOptions_accepted {platform : Platform}
    {argv : List String} {out options : ClientOptions}
    (accepted : parseClientOptions platform argv out = .ok (true, options)) :
    readOptions (clientOption platform) (argv.drop 1) false out =
        .ok options ∧
      finishClientOptions options = .ok (true, options) := by
  unfold parseClientOptions at accepted
  dsimp only at accepted
  by_cases help : (argv.drop 1).any isHelpFlag = true
  · rw [if_pos help] at accepted
    cases accepted
  · rw [if_neg help] at accepted
    obtain ⟨result, read, checked⟩ := bind_eq_ok.mp accepted
    obtain ⟨_, _, _, _, _, rfl⟩ := finishClientOptions_eq_ok.mp checked
    exact ⟨read, checked⟩

theorem parseClientOptions_sendable {platform : Platform}
    {argv : List String} {options : ClientOptions}
    (accepted : parseClientOptions platform argv {} = .ok (true, options)) :
    options.Sendable := by
  obtain ⟨read, checked⟩ := parseClientOptions_accepted accepted
  have inRange := readOptions_keeps (clientOption platform)
    (fun argument next _ => clientOption_inRange platform argument next)
    clientOptions_default_inRange read
  obtain ⟨dest, port, size, mss, _, _⟩ := finishClientOptions_eq_ok.mp checked
  obtain ⟨atLeast, atMost⟩ := inRange.size.resolve_left size
  exact
    { dest := dest
      port := port
      size_ge := atLeast
      size_le := atMost
      count := inRange.count
      mss := mss }

end BoostUdp
