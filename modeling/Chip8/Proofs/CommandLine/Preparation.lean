import Chip8.Proofs.CommandLine.Rate

/-!
# What a command line leads to

A command line can go wrong in three ways: there is no path, what stands behind it is no rate, or the
file cannot be read. Of several the first is reported, and no file is looked at unless the arguments
are right (`prepare_of_parse_error`). `Asks` says which arguments are right
and what they ask for. `prepare_follows_grammar` puts this together for every file system: a file is
read by any function of its path and the state that the files are in, and reading may change that
state.
-/

namespace Chip8.CommandLine

/-! ## What arguments ask for -/

/-- The number of cycles per second that the argument behind the path asks for, or the standard one if
there is no such argument. -/
def AsksRate : Option String → Nat → Prop
  | none, n => n = Options.standard.cyclesPerSecond
  | some text, n => IsRate text n

/-- The arguments are right, and this is what they ask for. -/
structure Asks (arguments : List String) (path : String) (options : Options) : Prop where
  path_eq : arguments[1]? = some path
  /-- All options but the rate are the standard ones. -/
  rate : ∃ n, AsksRate arguments[2]? n ∧ options = { Options.standard with cyclesPerSecond := n }

theorem asks_rated_iff {arguments : List String} {path text : String} {n : Nat}
    (hpath : arguments[1]? = some path) (htext : arguments[2]? = some text) :
    Asks arguments path { Options.standard with cyclesPerSecond := n } ↔ IsRate text n := by
  constructor
  · rintro ⟨-, n', hn', hoptions⟩
    rw [htext] at hn'
    have hn : n = n' := congrArg Options.cyclesPerSecond hoptions
    exact hn ▸ hn'
  · intro hn
    refine ⟨hpath, n, ?_, rfl⟩
    rw [htext]
    exact hn

theorem parse_eq_missing_iff {arguments : List String} {command : String} :
    parse arguments = .error (.missingProgram command) ↔
      arguments.length < 2 ∧ command = arguments.head?.getD "emulator_text_ui" := by
  match arguments with
  | [] => simp [parse, defaultName, eq_comm]
  | [_] => simp [parse, eq_comm]
  | [_, _] => simp [parse]
  | _ :: _ :: text :: later =>
    have hlength : ¬later.length + 1 + 1 + 1 < 2 := by omega
    cases hrate : parseRate text with
    | _ => simp [parse, hrate, hlength]

theorem parse_eq_invalid_iff {arguments : List String} {text : String} :
    parse arguments = .error (.invalidRate text) ↔
      arguments[2]? = some text ∧ ∀ n, ¬IsRate text n := by
  rw [← parseRate_eq_none_iff]
  match arguments with
  | [] => simp [parse]
  | [_] => simp [parse]
  | [_, _] => simp [parse]
  | _ :: _ :: text' :: _ =>
    cases hrate : parseRate text' with
    | none => simpa [parse, hrate] using fun heq => heq ▸ hrate
    | some n =>
      have hne : text' = text → parseRate text ≠ none := by
        rintro rfl
        exact hrate ▸ Option.some_ne_none n
      simpa [parse, hrate] using hne

theorem parse_eq_ok_iff {arguments : List String} {path : String} {options : Options} :
    parse arguments = .ok (path, options) ↔ Asks arguments path options := by
  match arguments with
  | [] => exact ⟨nofun, fun h => nomatch h.path_eq⟩
  | [_] => exact ⟨nofun, fun h => nomatch h.path_eq⟩
  | [_, path'] =>
    constructor
    · rintro ⟨⟩
      exact ⟨rfl, _, rfl, rfl⟩
    · rintro ⟨⟨⟩, n, rfl, rfl⟩
      rfl
  | _ :: path' :: text :: _ =>
    constructor
    · intro h
      cases hrate : parseRate text with
      | none => simp [parse, hrate] at h
      | some n =>
        obtain ⟨rfl, rfl⟩ : path' = path ∧ _ = options := by simpa [parse, hrate] using h
        exact ⟨rfl, n, parseRate_eq_some_iff.1 hrate, rfl⟩
    · rintro ⟨⟨⟩, n, hn, rfl⟩
      simp [parse, parseRate_eq_some_iff.2 hn]

/-- Nothing after the rate counts. -/
theorem parse_take (arguments : List String) : parse (arguments.take 3) = parse arguments := by
  match arguments with
  | [] => rfl
  | [_] => rfl
  | [_, _] => rfl
  | _ :: _ :: _ :: _ => rfl

/-- Arguments that are wrong in neither way ask for something. -/
theorem exists_asks {arguments : List String} (hpath : ¬arguments.length < 2)
    (hrate : ∀ text, arguments[2]? = some text → ∃ n, IsRate text n) :
    ∃ path options, Asks arguments path options := by
  match hparse : parse arguments with
  | .ok (path, options) => exact ⟨path, options, parse_eq_ok_iff.1 hparse⟩
  | .error (.missingProgram _) => exact absurd (parse_eq_missing_iff.1 hparse).1 hpath
  | .error (.invalidRate text) =>
    obtain ⟨htext, hnot⟩ := parse_eq_invalid_iff.1 hparse
    obtain ⟨n, hn⟩ := hrate text htext
    exact absurd hn (hnot n)

/-! ## Reading the file -/

/-- The answer to right arguments, after an attempt to read the file. -/
def answerTo (options : Options) : Except ReadError Bytes → Except LaunchError (Bytes × Options)
  | .error e => .error (.unreadable e)
  | .ok program => .ok (program, options)

theorem answerTo_ne_usage (options : Options) (file : Except ReadError Bytes) (e : UsageError) :
    answerTo options file ≠ .error (.usage e) := by
  cases file with
  | _ => exact nofun

theorem answerTo_eq_unreadable_iff {options : Options} {file : Except ReadError Bytes}
    {e : ReadError} : answerTo options file = .error (.unreadable e) ↔ file = .error e := by
  cases file with
  | _ => simp [answerTo]

theorem answerTo_eq_ok_iff {options options' : Options} {file : Except ReadError Bytes}
    {program : Bytes} :
    answerTo options file = .ok (program, options') ↔ file = .ok program ∧ options = options' := by
  cases file with
  | _ => simp [answerTo]

section

variable {m : Type → Type} [Monad m] (read : String → m (Except ReadError Bytes))
  {arguments : List String}

/-- Wrong arguments are refused without a look at any file. -/
theorem prepare_of_parse_error {e : UsageError} (h : parse arguments = .error e) :
    prepare read arguments = pure (.error (.usage e)) := by
  rw [prepare, h]

/-- Right arguments lead to a file, which is read once. -/
theorem prepare_of_asks {path : String} {options : Options} (h : Asks arguments path options) :
    prepare read arguments = read path >>= fun file => pure (answerTo options file) := by
  rw [prepare, parse_eq_ok_iff.2 h]
  refine congrArg (read path >>= ·) (funext fun file => ?_)
  cases file with
  | _ => rfl

/-- Nothing after the rate counts. -/
theorem prepare_congr {others : List String} (h : others.take 3 = arguments.take 3) :
    prepare read others = prepare read arguments := by
  unfold prepare
  rw [← parse_take others, h, parse_take]

end

section

variable {World : Type} {read : String → StateM World (Except ReadError Bytes)}
  {arguments : List String} {w : World}

theorem run_prepare_of_parse_error {e : UsageError} (h : parse arguments = .error e) :
    (prepare read arguments).run w = (.error (.usage e), w) := by
  rw [prepare_of_parse_error read h]
  rfl

theorem run_prepare_of_asks {path : String} {options : Options} (h : Asks arguments path options) :
    (prepare read arguments).run w =
      (answerTo options ((read path).run w).1, ((read path).run w).2) := by
  rw [prepare_of_asks read h]
  rfl

theorem run_prepare_eq_usage_iff {e : UsageError} :
    ((prepare read arguments).run w).1 = .error (.usage e) ↔ parse arguments = .error e := by
  cases hparse : parse arguments with
  | error e' =>
    rw [run_prepare_of_parse_error hparse]
    simp
  | ok asked =>
    rw [run_prepare_of_asks (parse_eq_ok_iff.1 hparse)]
    simp [answerTo_ne_usage]

theorem run_prepare_eq_iff {answer : Except LaunchError (Bytes × Options)}
    (h : ∀ e, answer ≠ .error (.usage e)) :
    ((prepare read arguments).run w).1 = answer ↔
      ∃ path options, Asks arguments path options ∧
        answerTo options ((read path).run w).1 = answer := by
  constructor
  · intro hanswer
    cases hparse : parse arguments with
    | error e =>
      rw [run_prepare_of_parse_error hparse] at hanswer
      exact absurd hanswer.symm (h e)
    | ok asked =>
      have hasks := parse_eq_ok_iff.1 hparse
      rw [run_prepare_of_asks hasks] at hanswer
      exact ⟨asked.1, asked.2, hasks, hanswer⟩
  · rintro ⟨path, options, hasks, hanswer⟩
    rw [run_prepare_of_asks hasks]
    exact hanswer

theorem run_prepare_eq_unreadable_iff {e : ReadError} :
    ((prepare read arguments).run w).1 = .error (.unreadable e) ↔
      ∃ path options, Asks arguments path options ∧ ((read path).run w).1 = .error e := by
  rw [run_prepare_eq_iff (by simp)]
  simp only [answerTo_eq_unreadable_iff]

theorem run_prepare_eq_ok_iff {program : Bytes} {options : Options} :
    ((prepare read arguments).run w).1 = .ok (program, options) ↔
      ∃ path, Asks arguments path options ∧ ((read path).run w).1 = .ok program := by
  rw [run_prepare_eq_iff (by simp)]
  simp only [answerTo_eq_ok_iff]
  constructor
  · rintro ⟨path, _, hasks, hread, rfl⟩
    exact ⟨path, hasks, hread⟩
  · rintro ⟨path, hasks, hread⟩
    exact ⟨path, options, hasks, hread, rfl⟩

end

/-- The answer is the error `e`, and its text is `text`. -/
def Reports (answer : Except LaunchError (Bytes × Options)) (e : LaunchError) (text : String) :
    Prop :=
  answer = .error e ∧ e.message = text

/-- What a command line leads to: `result` is the answer and the state of the files afterwards, if
`w` is their state before. -/
structure LeadsTo {World : Type} (read : String → StateM World (Except ReadError Bytes))
    (arguments : List String) (w : World)
    (result : Except LaunchError (Bytes × Options) × World) : Prop where
  /-- A missing path is reported with the name of the program, -/
  missing_iff : ∀ command, Reports result.1 (.usage (.missingProgram command))
      ("Usage: " ++ command ++ " <program> [cycles per second]") ↔
    arguments.length < 2 ∧ command = arguments.head?.getD "emulator_text_ui"
  /-- an argument that is no rate just as it was given, -/
  invalid_iff : ∀ text, Reports result.1 (.usage (.invalidRate text))
      ("Usage: Invalid number of cycles per second: " ++ text) ↔
    arguments[2]? = some text ∧ ∀ n, ¬IsRate text n
  /-- and both without a look at any file. -/
  untouched : ∀ e, result.1 = .error (.usage e) → result.2 = w
  /-- All other arguments ask for a file, -/
  asks : ¬arguments.length < 2 → (∀ text, arguments[2]? = some text → ∃ n, IsRate text n) →
    ∃ path options, Asks arguments path options
  /-- which is read once. -/
  touched : ∀ path options, Asks arguments path options → result.2 = ((read path).run w).2
  /-- If that fails, the reason is reported, -/
  unreadable_iff : ∀ e, Reports result.1 (.unreadable e)
      ("Could not read the program: " ++ e.message) ↔
    ∃ path options, Asks arguments path options ∧ ((read path).run w).1 = .error e
  /-- and if not, the bytes are handed on as they are. -/
  ok_iff : ∀ program options, result.1 = .ok (program, options) ↔
    ∃ path, Asks arguments path options ∧ ((read path).run w).1 = .ok program
  /-- The decimal notations of a number below 2³² are taken for that number, and nothing else is. -/
  takes_iff : ∀ {path text program}, arguments[1]? = some path → arguments[2]? = some text →
    ((read path).run w).1 = .ok program → ∀ n,
      (result.1 = .ok (program, { Options.standard with cyclesPerSecond := n }) ↔
        n < 2 ^ 32 ∧ ∃ zeros, text = padded zeros n ∨ text = "+" ++ padded zeros n)
  /-- Nothing after the rate counts. -/
  beyond : ∀ others : List String, others.take 3 = arguments.take 3 →
    (prepare read others).run w = result

/-- **A command line is read by its grammar**, and wrong arguments are reported before a file that
cannot be read. -/
theorem prepare_follows_grammar {World : Type}
    (read : String → StateM World (Except ReadError Bytes)) (arguments : List String) (w : World) :
    LeadsTo read arguments w ((prepare read arguments).run w) where
  missing_iff command :=
    (and_iff_left rfl).trans (run_prepare_eq_usage_iff.trans parse_eq_missing_iff)
  invalid_iff text :=
    (and_iff_left rfl).trans (run_prepare_eq_usage_iff.trans parse_eq_invalid_iff)
  untouched e h := by
    rw [run_prepare_of_parse_error (run_prepare_eq_usage_iff.1 h)]
  asks := exists_asks
  touched path options h := by
    rw [run_prepare_of_asks h]
  unreadable_iff e := (and_iff_left rfl).trans run_prepare_eq_unreadable_iff
  ok_iff program options := run_prepare_eq_ok_iff
  takes_iff {path text program} hpath htext hread n := by
    rw [← isRate_iff_padded, ← asks_rated_iff hpath htext, run_prepare_eq_ok_iff]
    constructor
    · rintro ⟨path', hasks, -⟩
      have heq : path = path' := Option.some.inj (hpath.symm.trans hasks.path_eq)
      exact heq ▸ hasks
    · exact fun hasks => ⟨path, hasks, hread⟩
  beyond others h := by rw [prepare_congr read h]

/-- A file system of a single file, which counts the attempts to read one. -/
def oneFile (path : String) : StateM Nat (Except ReadError Bytes) := fun attempts =>
  (if path = "loop" then .ok [0x12, 0x00] else .error .notFound, attempts + 1)

/-- Zeros and a plus sign do no harm, and a rate that is too large is reported before a file that is
not there. -/
theorem prepare_follows_grammar_one_file :
    (prepare oneFile ["chip8", "loop"]).run 0 =
        (.ok ([0x12, 0x00], ⟨480, 60, ⟨255, 255, 255⟩⟩), 1) ∧
      (prepare oneFile ["chip8", "loop", "+0042", "-1"]).run 0 =
        (.ok ([0x12, 0x00], ⟨42, 60, ⟨255, 255, 255⟩⟩), 1) ∧
      (prepare oneFile ["chip8", "nowhere", "4294967296"]).run 0 =
        (.error (.usage (.invalidRate "4294967296")), 0) := by
  have hstandard : Asks ["chip8", "loop"] "loop" .standard := ⟨rfl, _, rfl, rfl⟩
  have hplain := prepare_follows_grammar oneFile ["chip8", "loop"] 0
  have hrated := prepare_follows_grammar oneFile ["chip8", "loop", "+0042", "-1"] 0
  have hlarge := prepare_follows_grammar oneFile ["chip8", "nowhere", "4294967296"] 0
  have hnotation : 42 < 2 ^ 32 ∧
      ∃ zeros, "+0042" = padded zeros 42 ∨ "+0042" = "+" ++ padded zeros 42 :=
    ⟨by decide, 2, .inr rfl⟩
  have hnone : ∀ n, ¬IsRate "4294967296" n := parseRate_eq_none_iff.1 (by decide +kernel)
  refine ⟨Prod.ext ?_ ?_, Prod.ext ?_ ?_, Prod.ext ?_ ?_⟩
  · exact (hplain.ok_iff _ _).2 ⟨"loop", hstandard, rfl⟩
  · exact hplain.touched _ _ hstandard
  · exact (hrated.takes_iff rfl rfl rfl 42).2 hnotation
  · exact hrated.touched _ _ ((asks_rated_iff rfl rfl).2 (isRate_iff_padded.2 hnotation))
  · exact ((hlarge.invalid_iff _).2 ⟨rfl, hnone⟩).1
  · exact hlarge.untouched _ ((hlarge.invalid_iff _).2 ⟨rfl, hnone⟩).1

end Chip8.CommandLine
