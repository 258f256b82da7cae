import Nazm.Api.Assemble

/-!
The command line.

Owns `cli_parse` of `src/cli/args.c`: its options with their two spellings and
their values, the requests for information, and the texts of its errors; and
exactly which command lines it accepts with which meaning.

Does not own what is printed for a request, nor what the command then does.
-/

namespace Nazm.Cli

open Nazm.Api Nazm.Unicode

/-! ## Arguments -/

/-- `CliArgs`; `none` is the null pointer. -/
structure CliArgs where
  sourcePath : Option (List UInt8)
  logicalSourceName : Option (List UInt8)
  outputPath : Option (List UInt8)
  listingPath : Option (List UInt8)
  format : NazmOutputFormat
  verbose : Bool
  help : Bool
  version : Bool
  apiInfo : Bool
  valid : Bool
  errorMsg : Option (List UInt8)
deriving DecidableEq

/-- The initializer of `cli_parse`, with `DEFAULT_FORMAT`. -/
def CliArgs.start (defaultFormat : NazmOutputFormat) : CliArgs :=
  ⟨none, none, none, none, defaultFormat, false, false, false, false, true, none⟩

def CliArgs.fail (args : CliArgs) (message : List UInt8) : CliArgs :=
  { args with valid := false, errorMsg := some message }

/-- `path_has_suffix`. -/
def pathHasSuffix (path suffix : List UInt8) : Bool := suffix.isSuffixOf path

/-- `legacy_option_error`. -/
def legacyOptionError (option : List UInt8) : Option (List UInt8) :=
  if option = utf8 "-o" ∨ option = utf8 "--output" then
    some (utf8 "خطأ: خيار 0.3 أزيل؛ استخدم '-خ' أو '--خرج'")
  else if option = utf8 "-l" ∨ option = utf8 "--listing" then
    some (utf8 "خطأ: خيار 0.3 أزيل؛ استخدم '-ك' أو '--كشف'")
  else if option = utf8 "-f" ∨ option = utf8 "--format" then
    some (utf8 "خطأ: خيار 0.3 أزيل؛ استخدم '-ص' أو '--صيغة'")
  else if option = utf8 "-v" ∨ option = utf8 "--verbose" then
    some (utf8 "خطأ: خيار 0.3 أزيل؛ استخدم '-ت' أو '--تفصيل'")
  else if option = utf8 "-h" ∨ option = utf8 "--help" then
    some (utf8 "خطأ: خيار 0.3 أزيل؛ استخدم '-م' أو '--مساعدة'")
  else if option = utf8 "--version" then some (utf8 "خطأ: خيار 0.3 أزيل؛ استخدم '--إصدار'")
  else none

/-- The value of the format option, or the text of its error. -/
def formatValue (value : List UInt8) : Except (List UInt8) NazmOutputFormat :=
  if value = utf8 "إلف64" then .ok .elf64
  else if value = utf8 "كوف" then .ok .coff
  else if value = utf8 "elf64" then
    .error (utf8 "خطأ: قيمة الصيغة 'elf64' أزيلت؛ استخدم 'إلف64'")
  else if value = utf8 "coff" then .error (utf8 "خطأ: قيمة الصيغة 'coff' أزيلت؛ استخدم 'كوف'")
  else .error (utf8 "خطأ: صيغة غير معروفة؛ استخدم 'إلف64' أو 'كوف'")

/-- The end of the loop of `cli_parse` for an argument that is no option. -/
def cliPositional (a : List UInt8) (args : CliArgs) : Except CliArgs CliArgs :=
  match legacyOptionError a with
  | some message => .error (args.fail message)
  | none =>
      if a.head? = some 0x2D then .error (args.fail (utf8 "خطأ: خيار غير معروف"))
      else if args.sourcePath.isSome then
        .error (args.fail (utf8 "خطأ: ملف مصدر واحد فقط مسموح"))
      else .ok { args with sourcePath := some a }

/-- The loop of `cli_parse` over the arguments behind the name of the program; an
error is a `return` within it. -/
def cliArguments : List (List UInt8) → CliArgs → Except CliArgs CliArgs
  | [], args => .ok args
  | a :: rest, args =>
      if a = utf8 "--مساعدة" ∨ a = utf8 "-م" then .error { args with help := true }
      else if a = utf8 "--إصدار" then .error { args with version := true }
      else if a = utf8 "--معلومات-الواجهة=json" then .error { args with apiInfo := true }
      else if a = utf8 "--تفصيل" ∨ a = utf8 "-ت" then
        cliArguments rest { args with verbose := true }
      else if a = utf8 "--خرج" ∨ a = utf8 "-خ" then
        match rest with
        | [] => .error (args.fail (utf8 "خطأ: خيار الخرج يتطلب مسار ملف"))
        | path :: rest => cliArguments rest { args with outputPath := some path }
      else if a = utf8 "--كشف" ∨ a = utf8 "-ك" then
        match rest with
        | [] => .error (args.fail (utf8 "خطأ: خيار الكشف يتطلب مسار ملف"))
        | path :: rest => cliArguments rest { args with listingPath := some path }
      else if a = utf8 "--اسم-المصدر" then
        match rest with
        | [] => .error (args.fail (utf8 "خطأ: خيار اسم المصدر يتطلب اسما منطقيا غير فارغ"))
        | name :: rest =>
            if name = [] then
              .error (args.fail (utf8 "خطأ: خيار اسم المصدر يتطلب اسما منطقيا غير فارغ"))
            else cliArguments rest { args with logicalSourceName := some name }
      else if a = utf8 "--صيغة" ∨ a = utf8 "-ص" then
        match rest with
        | [] => .error (args.fail (utf8 "خطأ: خيار الصيغة يتطلب 'إلف64' أو 'كوف'"))
        | value :: rest =>
            match formatValue value with
            | .error message => .error (args.fail message)
            | .ok format => cliArguments rest { args with format := format }
      else
        match cliPositional a args with
        | .error args => .error args
        | .ok args => cliArguments rest args

/-- The checks behind the loop. -/
def cliFinish (args : CliArgs) : CliArgs :=
  match args.sourcePath with
  | none =>
      if args.help ∨ args.version ∨ args.apiInfo then args
      else args.fail (utf8 "خطأ: لم يُحدَّد ملف المصدر")
  | some path =>
      if pathHasSuffix path (utf8 ".نظم") then args
      else if pathHasSuffix path (utf8 ".مجمع") then
        args.fail (utf8 "خطأ: امتداد '.مجمع' أزيل في نَظْم 0.4؛ استخدم '.نظم'")
      else args.fail (utf8 "خطأ: ملف المصدر يجب أن يحمل الامتداد '.نظم'")

/-- `cli_parse`; the first argument is the name of the program. -/
def cliParse (defaultFormat : NazmOutputFormat) (argv : List (List UInt8)) : CliArgs :=
  match cliArguments (argv.drop 1) (.start defaultFormat) with
  | .error args => args
  | .ok args => cliFinish args

/-! ## The language of command lines -/

/-- What a command line can ask for. -/
inductive CliOption where
  | verbose
  | output (path : List UInt8)
  | listing (path : List UInt8)
  | logicalName (name : List UInt8)
  | format (isCoff : Bool)
  | source (path : List UInt8)
deriving DecidableEq

namespace CliOption

/-- The words of an option. -/
inductive Spells : CliOption → List (List UInt8) → Prop where
  | verbose {word : List UInt8} : word ∈ [utf8 "--تفصيل", utf8 "-ت"] → Spells .verbose [word]
  | output {word path : List UInt8} : word ∈ [utf8 "--خرج", utf8 "-خ"] →
      Spells (.output path) [word, path]
  | listing {word path : List UInt8} : word ∈ [utf8 "--كشف", utf8 "-ك"] →
      Spells (.listing path) [word, path]
  | logicalName {name : List UInt8} : name ≠ [] →
      Spells (.logicalName name) [utf8 "--اسم-المصدر", name]
  | format {word : List UInt8} {isCoff : Bool} : word ∈ [utf8 "--صيغة", utf8 "-ص"] →
      Spells (.format isCoff) [word, if isCoff then utf8 "كوف" else utf8 "إلف64"]
  | source {path : List UInt8} : path.head? ≠ some 0x2D → Spells (.source path) [path]

/-- The arguments with one more option; of two options of a kind the later one
counts. -/
def apply (args : CliArgs) : CliOption → CliArgs
  | .verbose => { args with verbose := true }
  | .output path => { args with outputPath := some path }
  | .listing path => { args with listingPath := some path }
  | .logicalName name => { args with logicalSourceName := some name }
  | .format isCoff => { args with format := if isCoff then .coff else .elf64 }
  | .source path => { args with sourcePath := some path }

def source? : CliOption → Option (List UInt8)
  | .source path => some path
  | _ => none

end CliOption

/-- Options one after the other. -/
inductive SpellsAll : List CliOption → List (List UInt8) → Prop where
  | nil : SpellsAll [] []
  | cons {option : CliOption} {options : List CliOption} {words rest : List (List UInt8)} :
      option.Spells words → SpellsAll options rest →
      SpellsAll (option :: options) (words ++ rest)

/-- The sources among the options. -/
def sourcesOf (options : List CliOption) : List (List UInt8) :=
  options.filterMap CliOption.source?

/-- A request for information, and what it sets. -/
inductive InfoWord : List UInt8 → (CliArgs → CliArgs) → Prop where
  | help {word : List UInt8} : word ∈ [utf8 "--مساعدة", utf8 "-م"] →
      InfoWord word fun args => { args with help := true }
  | version : InfoWord (utf8 "--إصدار") fun args => { args with version := true }
  | apiInfo : InfoWord (utf8 "--معلومات-الواجهة=json") fun args => { args with apiInfo := true }

/-- A command line to assemble: options with one source, which has the extension
of sources. -/
def CommandLine (defaultFormat : NazmOutputFormat) (words : List (List UInt8)) (args : CliArgs) :
    Prop :=
  ∃ options path, SpellsAll options words ∧ sourcesOf options = [path] ∧
    utf8 ".نظم" <:+ path ∧ args = options.foldl CliOption.apply (.start defaultFormat)

/-- A command line that asks for information: whatever stands behind the request
does not matter. -/
def InfoLine (defaultFormat : NazmOutputFormat) (words : List (List UInt8)) (args : CliArgs) :
    Prop :=
  ∃ options front word request behind, words = front ++ word :: behind ∧
    SpellsAll options front ∧ (sourcesOf options).length ≤ 1 ∧ InfoWord word request ∧
    args = request (options.foldl CliOption.apply (.start defaultFormat))

/-! ## One turn of the loop -/

section Turns

variable {args : CliArgs} {rest : List (List UInt8)}

/-- A plain word is none of the words of the options. -/
theorem ne_dashed {path : List UInt8} (plain : path.head? ≠ some 0x2D) {text : String}
    (dashed : (utf8 text).head? = some 0x2D) : path ≠ utf8 text := by
  rintro rfl
  exact plain dashed

theorem legacyOptionError_plain {path : List UInt8} (plain : path.head? ≠ some 0x2D) :
    legacyOptionError path = none := by
  have apart := fun text => @ne_dashed path plain text
  unfold legacyOptionError
  rw [if_neg (not_or.mpr ⟨apart _ (by decide), apart _ (by decide)⟩),
    if_neg (not_or.mpr ⟨apart _ (by decide), apart _ (by decide)⟩),
    if_neg (not_or.mpr ⟨apart _ (by decide), apart _ (by decide)⟩),
    if_neg (not_or.mpr ⟨apart _ (by decide), apart _ (by decide)⟩),
    if_neg (not_or.mpr ⟨apart _ (by decide), apart _ (by decide)⟩),
    if_neg (apart _ (by decide))]

theorem cliArguments_source {path : List UInt8} (plain : path.head? ≠ some 0x2D)
    (first : args.sourcePath = none) :
    cliArguments (path :: rest) args = cliArguments rest { args with sourcePath := some path } := by
  have apart := fun text => @ne_dashed path plain text
  have positional : cliPositional path args = .ok { args with sourcePath := some path } := by
    rw [cliPositional, legacyOptionError_plain plain]
    simp [plain, first]
  rw [cliArguments.eq_def]
  dsimp only
  rw [if_neg (not_or.mpr ⟨apart _ (by decide), apart _ (by decide)⟩),
    if_neg (apart _ (by decide)), if_neg (apart _ (by decide)),
    if_neg (not_or.mpr ⟨apart _ (by decide), apart _ (by decide)⟩),
    if_neg (not_or.mpr ⟨apart _ (by decide), apart _ (by decide)⟩),
    if_neg (not_or.mpr ⟨apart _ (by decide), apart _ (by decide)⟩),
    if_neg (apart _ (by decide)),
    if_neg (not_or.mpr ⟨apart _ (by decide), apart _ (by decide)⟩), positional]

/-- The loop takes the words of an option and goes on behind them. -/
theorem cliArguments_option {option : CliOption} {words : List (List UInt8)}
    (spells : option.Spells words)
    (first : ∀ path, option.source? = some path → args.sourcePath = none) :
    cliArguments (words ++ rest) args = cliArguments rest (option.apply args) := by
  cases spells with
  | source plain => exact cliArguments_source plain (first _ rfl)
  | verbose member | output member | listing member =>
      rcases List.mem_pair.mp member with rfl | rfl
      · rw [cliArguments.eq_def]
        simp +decide only [List.cons_append, List.nil_append, if_true, if_false]
        rfl
      · rw [cliArguments.eq_def]
        simp +decide only [List.cons_append, List.nil_append, if_true, if_false]
        rfl
  | logicalName some_ =>
      rw [cliArguments.eq_def]
      simp +decide only [List.cons_append, List.nil_append, if_true, if_false, some_]
      rfl
  | @format word isCoff member =>
      have value : formatValue (if isCoff then utf8 "كوف" else utf8 "إلف64") =
          .ok (if isCoff then .coff else .elf64) := by
        cases isCoff <;> decide
      rcases List.mem_pair.mp member with rfl | rfl
      · rw [cliArguments.eq_def]
        simp +decide only [List.cons_append, List.nil_append, if_true, if_false, value]
        rfl
      · rw [cliArguments.eq_def]
        simp +decide only [List.cons_append, List.nil_append, if_true, if_false, value]
        rfl

/-- A request for information ends the loop. -/
theorem cliArguments_info {word : List UInt8} {request : CliArgs → CliArgs}
    (isRequest : InfoWord word request) :
    cliArguments (word :: rest) args = .error (request args) := by
  cases isRequest with
  | help member =>
      rcases List.mem_pair.mp member with rfl | rfl
      · rw [cliArguments.eq_def]
        simp +decide only [if_true]
      · rw [cliArguments.eq_def]
        simp +decide only [if_true]
  | version | apiInfo =>
      rw [cliArguments.eq_def]
      simp +decide only [if_true, if_false]

/-- What one turn of the loop can do. -/
inductive CliTurn (words : List (List UInt8)) (args : CliArgs) : Prop where
  | option (option : CliOption) (own rest : List (List UInt8)) :
      words = own ++ rest → own ≠ [] → option.Spells own →
      (∀ path, option.source? = some path → args.sourcePath = none) → CliTurn words args
  | info (word : List UInt8) (request : CliArgs → CliArgs) (behind : List (List UInt8)) :
      words = word :: behind → InfoWord word request → CliTurn words args
  | fail (message : List UInt8) : cliArguments words args = .error (args.fail message) →
      CliTurn words args

theorem cliTurn_positional {a : List UInt8}
    (turn : cliArguments (a :: rest) args = match cliPositional a args with
      | .error args => .error args
      | .ok args => cliArguments rest args) : CliTurn (a :: rest) args := by
  unfold cliPositional at turn
  cases legacy : legacyOptionError a with
  | some message =>
      rw [legacy] at turn
      exact .fail message turn
  | none =>
      simp only [legacy] at turn
      by_cases dashed : a.head? = some 0x2D
      · rw [if_pos dashed] at turn
        exact .fail _ turn
      · rw [if_neg dashed] at turn
        by_cases given : args.sourcePath.isSome = true
        · rw [if_pos given] at turn
          exact .fail _ turn
        · refine .option (.source a) [a] rest rfl (List.cons_ne_nil _ _) (.source dashed) ?_
          intro _ _
          exact Option.not_isSome_iff_eq_none.mp given

theorem formatValue_eq_ok {value : List UInt8} {format : NazmOutputFormat}
    (ok : formatValue value = .ok format) :
    ∃ isCoff : Bool, value = if isCoff then utf8 "كوف" else utf8 "إلف64" := by
  unfold formatValue at ok
  split at ok
  · next elf => exact ⟨false, elf⟩
  · split at ok
    · next coff => exact ⟨true, coff⟩
    · split at ok
      · contradiction
      · split at ok <;> contradiction

theorem cliTurn (a : List UInt8) (rest : List (List UInt8)) (args : CliArgs) :
    CliTurn (a :: rest) args := by
  have turn := cliArguments.eq_def (a :: rest) args
  dsimp only at turn
  split at turn
  · next isHelp => exact .info _ _ rest rfl (.help (List.mem_pair.mpr isHelp))
  split at turn
  · next isVersion =>
      subst isVersion
      exact .info _ _ rest rfl .version
  split at turn
  · next isApiInfo =>
      subst isApiInfo
      exact .info _ _ rest rfl .apiInfo
  split at turn
  · next isVerbose =>
      exact .option .verbose [a] rest rfl (List.cons_ne_nil _ _)
        (.verbose (List.mem_pair.mpr isVerbose)) fun _ absent => by contradiction
  split at turn
  · next isOutput =>
      cases rest with
      | nil => exact .fail _ turn
      | cons path rest =>
          exact .option (.output path) [a, path] rest rfl (List.cons_ne_nil _ _)
            (.output (List.mem_pair.mpr isOutput)) fun _ absent => by contradiction
  split at turn
  · next isListing =>
      cases rest with
      | nil => exact .fail _ turn
      | cons path rest =>
          exact .option (.listing path) [a, path] rest rfl (List.cons_ne_nil _ _)
            (.listing (List.mem_pair.mpr isListing)) fun _ absent => by contradiction
  split at turn
  · next isName =>
      cases rest with
      | nil => exact .fail _ turn
      | cons name rest =>
          dsimp only at turn
          by_cases empty : name = []
          · rw [if_pos empty] at turn
            exact .fail _ turn
          · exact .option (.logicalName name) [a, name] rest rfl (List.cons_ne_nil _ _)
              (isName ▸ .logicalName empty) fun _ absent => by contradiction
  split at turn
  · next isFormat =>
      cases rest with
      | nil => exact .fail _ turn
      | cons value rest =>
          dsimp only at turn
          cases ok : formatValue value with
          | error message =>
              rw [ok] at turn
              exact .fail _ turn
          | ok format =>
              obtain ⟨isCoff, rfl⟩ := formatValue_eq_ok ok
              exact .option (.format isCoff) [a, _] rest rfl (List.cons_ne_nil _ _)
                (.format (List.mem_pair.mpr isFormat)) fun _ absent => by contradiction
  · exact cliTurn_positional turn

end Turns

/-! ## Runs of the loop -/

section Runs

variable {args : CliArgs} {words : List (List UInt8)}

/-- How a source counts against those that were given before. -/
def sourceCount (args : CliArgs) (options : List CliOption) : Nat :=
  args.sourcePath.toList.length + (sourcesOf options).length

theorem sourcesOf_cons (option : CliOption) (options : List CliOption) :
    sourcesOf (option :: options) = option.source?.toList ++ sourcesOf options := by
  cases option <;> rfl

theorem sourceCount_cons {option : CliOption}
    (first : ∀ path, option.source? = some path → args.sourcePath = none)
    (options : List CliOption) :
    sourceCount args (option :: options) = sourceCount (option.apply args) options := by
  unfold sourceCount
  rw [sourcesOf_cons, List.length_append]
  cases option with
  | source path =>
      have none := first path rfl
      rw [none, CliOption.apply]
      simp [CliOption.source?]
  | _ => simp [CliOption.apply, CliOption.source?]

/-- Spelled options with at most one source are taken one after the other. -/
theorem cliArguments_options {options : List CliOption} (spells : SpellsAll options words)
    (one : sourceCount args options ≤ 1) (rest : List (List UInt8)) :
    cliArguments (words ++ rest) args =
      cliArguments rest (options.foldl CliOption.apply args) := by
  induction spells generalizing args with
  | nil => rfl
  | @cons option options own others isOption _ inductionHypothesis =>
      have first : ∀ path, option.source? = some path → args.sourcePath = none := by
        intro path isSource
        unfold sourceCount at one
        rw [sourcesOf_cons, isSource] at one
        cases given : args.sourcePath with
        | none => rfl
        | some earlier =>
            rw [given] at one
            simp at one
      rw [List.append_assoc, cliArguments_option isOption first, List.foldl_cons]
      apply inductionHypothesis
      rw [← sourceCount_cons first]
      exact one

/-- How the loop can end. -/
inductive CliEnd (words : List (List UInt8)) (args : CliArgs) : Prop where
  | options (options : List CliOption) : SpellsAll options words →
      sourceCount args options ≤ 1 → CliEnd words args
  | info (options : List CliOption) (front : List (List UInt8)) (word : List UInt8)
      (request : CliArgs → CliArgs) (behind : List (List UInt8)) :
      words = front ++ word :: behind → SpellsAll options front →
      sourceCount args options ≤ 1 → InfoWord word request → CliEnd words args
  | fail (options : List CliOption) (message : List UInt8) :
      cliArguments words args =
        .error ((options.foldl CliOption.apply args).fail message) → CliEnd words args

theorem cliEnd (words : List (List UInt8)) (args : CliArgs)
    (few : args.sourcePath.toList.length ≤ 1) : CliEnd words args := by
  induction length : words.length using Nat.strongRecOn generalizing words args with
  | ind size inductionHypothesis =>
      cases words with
      | nil => exact .options [] .nil few
      | cons a rest =>
          cases cliTurn a rest args with
          | fail message failed => exact .fail [] message failed
          | info word request behind isWord isRequest =>
              exact .info [] [] word request behind isWord .nil few isRequest
          | option option own others split some_ spells first =>
              have shorter : others.length < size := by
                have positive := List.length_pos_iff.mpr some_
                rw [← length, split, List.length_append]
                omega
              have fewer : (option.apply args).sourcePath.toList.length ≤ 1 :=
                Option.length_toList_le
              have goesOn : cliArguments (a :: rest) args =
                  cliArguments others (option.apply args) := by
                rw [split]
                exact cliArguments_option spells first
              rw [split]
              cases inductionHypothesis _ shorter others (option.apply args) fewer rfl with
              | options options spellsAll one =>
                  exact .options (option :: options) (.cons spells spellsAll)
                    (sourceCount_cons first options ▸ one)
              | info options front word request behind isSplit spellsAll one isRequest =>
                  refine .info (option :: options) (own ++ front) word request behind ?_
                    (.cons spells spellsAll) (sourceCount_cons first options ▸ one) isRequest
                  rw [isSplit, List.append_assoc]
              | fail options message failed =>
                  refine .fail (option :: options) message ?_
                  rw [← split, goesOn, failed]
                  rfl

end Runs

/-! ## Outcomes -/

/-- The command goes on to assemble. -/
structure CliArgs.Runs (args : CliArgs) : Prop where
  valid : args.valid = true
  help : args.help = false
  version : args.version = false
  apiInfo : args.apiInfo = false

/-- The command prints what it was asked for, and ends. -/
def CliArgs.Informs (args : CliArgs) : Prop :=
  args.help = true ∨ args.version = true ∨ args.apiInfo = true

/-- The command prints a message, and ends. -/
structure CliArgs.Refused (args : CliArgs) : Prop where
  valid : args.valid = false
  message : args.errorMsg.isSome = true
  silent : ¬ args.Informs

section Outcomes

variable {defaultFormat : NazmOutputFormat} {words : List (List UInt8)} {args : CliArgs}

/-- The options leave everything else as it is. -/
theorem foldl_apply_flags (options : List CliOption) (args : CliArgs) :
    (options.foldl CliOption.apply args).help = args.help ∧
      (options.foldl CliOption.apply args).version = args.version ∧
      (options.foldl CliOption.apply args).apiInfo = args.apiInfo ∧
      (options.foldl CliOption.apply args).valid = args.valid := by
  induction options generalizing args with
  | nil => exact ⟨rfl, rfl, rfl, rfl⟩
  | cons option options inductionHypothesis =>
      rw [List.foldl_cons]
      have later := inductionHypothesis (option.apply args)
      cases option <;> exact later

theorem foldl_apply_source (options : List CliOption) (args : CliArgs)
    (one : sourceCount args options ≤ 1) :
    (options.foldl CliOption.apply args).sourcePath.toList =
      args.sourcePath.toList ++ sourcesOf options := by
  induction options generalizing args with
  | nil => rw [sourcesOf, List.filterMap_nil, List.append_nil, List.foldl_nil]
  | cons option options inductionHypothesis =>
      rw [List.foldl_cons]
      cases option with
      | source path =>
          have none : args.sourcePath = none := by
            unfold sourceCount at one
            rw [sourcesOf_cons] at one
            cases given : args.sourcePath with
            | none => rfl
            | some earlier =>
                rw [given] at one
                simp [CliOption.source?] at one
          have later := inductionHypothesis (CliOption.apply args (.source path)) (by
            rw [← sourceCount_cons fun _ _ => none]
            exact one)
          rw [later, none, sourcesOf_cons]
          rfl
      | _ => exact inductionHypothesis _ one

/-- The outcome of the checks behind the loop. -/
theorem cliFinish_runs_iff : (cliFinish args).Runs ↔
    args.Runs ∧ ∃ path, args.sourcePath = some path ∧ utf8 ".نظم" <:+ path := by
  unfold cliFinish
  constructor
  · intro runs
    cases given : args.sourcePath with
    | none =>
        rw [given] at runs
        dsimp only at runs
        split at runs
        · next informs =>
            rcases informs with help | version | apiInfo
            · exact absurd (help.symm.trans runs.help) (by decide)
            · exact absurd (version.symm.trans runs.version) (by decide)
            · exact absurd (apiInfo.symm.trans runs.apiInfo) (by decide)
        · have valid := runs.valid
          contradiction
    | some path =>
        rw [given] at runs
        dsimp only at runs
        split at runs
        · next suffix => exact ⟨runs, path, rfl, List.isSuffixOf_iff_suffix.mp suffix⟩
        · split at runs
          · have valid := runs.valid
            contradiction
          · have valid := runs.valid
            contradiction
  · rintro ⟨runs, path, given, suffix⟩
    have isSource : pathHasSuffix path (utf8 ".نظم") = true :=
      List.isSuffixOf_iff_suffix.mpr suffix
    rw [given]
    dsimp only
    rw [if_pos isSource]
    exact runs

/-- What fails is refused. -/
theorem refused_fail (runs : args.Runs) (message : List UInt8) : (args.fail message).Refused := by
  refine ⟨rfl, rfl, ?_⟩
  rintro (help | version | apiInfo)
  · exact absurd (runs.help.symm.trans help) (by decide)
  · exact absurd (runs.version.symm.trans version) (by decide)
  · exact absurd (runs.apiInfo.symm.trans apiInfo) (by decide)

theorem cliFinish_cases (runs : args.Runs) :
    cliFinish args = args ∨ (cliFinish args).Refused := by
  unfold cliFinish
  split
  · split
    · exact .inl rfl
    · exact .inr (refused_fail runs _)
  · split
    · exact .inl rfl
    · split
      · exact .inr (refused_fail runs _)
      · exact .inr (refused_fail runs _)

theorem runs_options (options : List CliOption) :
    (options.foldl CliOption.apply (.start defaultFormat)).Runs := by
  obtain ⟨help, version, apiInfo, valid⟩ := foldl_apply_flags options (.start defaultFormat)
  exact ⟨valid, help, version, apiInfo⟩

theorem not_informs_of_runs (runs : args.Runs) : ¬ args.Informs := by
  rintro (help | version | apiInfo)
  · exact absurd (runs.help.symm.trans help) (by decide)
  · exact absurd (runs.version.symm.trans version) (by decide)
  · exact absurd (runs.apiInfo.symm.trans apiInfo) (by decide)

theorem informs_request {word : List UInt8} {request : CliArgs → CliArgs}
    (isRequest : InfoWord word request) (args : CliArgs) : (request args).Informs := by
  cases isRequest with
  | help _ => exact .inl rfl
  | version => exact .inr (.inl rfl)
  | apiInfo => exact .inr (.inr rfl)

/-- What a command line is parsed to, by how the loop ends. -/
theorem cliParse_spec (program : List UInt8) :
    (∃ options, SpellsAll options words ∧ (sourcesOf options).length ≤ 1 ∧
        cliParse defaultFormat (program :: words) =
          cliFinish (options.foldl CliOption.apply (.start defaultFormat))) ∨
      InfoLine defaultFormat words (cliParse defaultFormat (program :: words)) ∨
      (cliParse defaultFormat (program :: words)).Refused := by
  have start : ∀ options, sourceCount (.start defaultFormat) options =
      (sourcesOf options).length := fun options => Nat.zero_add _
  have parsed : cliParse defaultFormat (program :: words) =
      match cliArguments words (.start defaultFormat) with
      | .error args => args
      | .ok args => cliFinish args := rfl
  cases cliEnd words (.start defaultFormat) (Nat.zero_le _) with
  | options options spells one =>
      have ended := cliArguments_options spells one []
      rw [List.append_nil] at ended
      refine .inl ⟨options, spells, start options ▸ one, ?_⟩
      rw [parsed, ended]
      rfl
  | info options front word request behind split spells one isRequest =>
      have ended := cliArguments_options spells one (word :: behind)
      rw [cliArguments_info isRequest, ← split] at ended
      refine .inr (.inl ⟨options, front, word, request, behind, split, spells,
        start options ▸ one, isRequest, ?_⟩)
      rw [parsed, ended]
  | fail options message failed =>
      refine .inr (.inr ?_)
      rw [parsed, failed]
      exact refused_fail (runs_options options) message

theorem commandLine_parsed (program : List UInt8) (line : CommandLine defaultFormat words args) :
    cliParse defaultFormat (program :: words) = args ∧ args.Runs := by
  obtain ⟨options, path, spells, sources, suffix, rfl⟩ := line
  have one : sourceCount (.start defaultFormat) options ≤ 1 := by
    rw [sourceCount, sources]
    exact Nat.le_refl 1
  have ended := cliArguments_options spells one []
  rw [List.append_nil] at ended
  have runs := @runs_options defaultFormat options
  have given : (options.foldl CliOption.apply (.start defaultFormat)).sourcePath = some path := by
    have source := foldl_apply_source options (.start defaultFormat) one
    rw [sources] at source
    exact Option.toList_eq_singleton_iff.mp source
  refine ⟨?_, runs⟩
  have parsed : cliParse defaultFormat (program :: words) =
      cliFinish (options.foldl CliOption.apply (.start defaultFormat)) := by
    unfold cliParse
    rw [List.drop_one, List.tail_cons, ended]
    rfl
  rw [parsed]
  rcases cliFinish_cases runs with kept | refused
  · exact kept
  · have finished := cliFinish_runs_iff.mpr ⟨runs, path, given, suffix⟩
    exact absurd (refused.valid.symm.trans finished.valid) (by decide)

theorem infoLine_parsed (program : List UInt8) (line : InfoLine defaultFormat words args) :
    cliParse defaultFormat (program :: words) = args ∧ args.Informs := by
  obtain ⟨options, front, word, request, behind, rfl, spells, one, isRequest, rfl⟩ := line
  refine ⟨?_, informs_request isRequest _⟩
  have few : sourceCount (.start defaultFormat) options ≤ 1 := by
    rw [sourceCount]
    exact (Nat.zero_add _).symm ▸ one
  have ended := cliArguments_options spells few (word :: behind)
  rw [cliArguments_info isRequest] at ended
  unfold cliParse
  rw [List.drop_one, List.tail_cons, ended]

end Outcomes

/-- The command assembles exactly the command lines of its options with one source, and
takes from them what the options say; it answers exactly the requests for information with
well-formed options before them; and it refuses all others with a message. -/
theorem cli_parse_exact (defaultFormat : NazmOutputFormat) (program : List UInt8)
    (words : List (List UInt8)) :
    (∀ args, cliParse defaultFormat (program :: words) = args ∧ args.Runs ↔
      CommandLine defaultFormat words args) ∧
    (∀ args, cliParse defaultFormat (program :: words) = args ∧ args.Informs ↔
      InfoLine defaultFormat words args) ∧
    (¬ (cliParse defaultFormat (program :: words)).Runs →
      ¬ (cliParse defaultFormat (program :: words)).Informs →
      (cliParse defaultFormat (program :: words)).Refused) := by
  have spec := @cliParse_spec defaultFormat words program
  refine ⟨fun args => ⟨?_, commandLine_parsed program⟩,
    fun args => ⟨?_, infoLine_parsed program⟩, ?_⟩
  · rintro ⟨rfl, runs⟩
    rcases spec with ⟨options, spells, one, parsed⟩ | info | refused
    · rw [parsed] at runs ⊢
      obtain ⟨kept, path, given, suffix⟩ := cliFinish_runs_iff.mp runs
      have source := foldl_apply_source options (.start defaultFormat) (by
        rw [sourceCount]
        exact (Nat.zero_add _).symm ▸ one)
      rw [given] at source
      refine ⟨options, path, spells, source.symm, suffix, ?_⟩
      rcases cliFinish_cases kept with same | refused
      · exact same
      · exact absurd (refused.valid.symm.trans runs.valid) (by decide)
    · exact absurd (infoLine_parsed program info).2 (not_informs_of_runs runs)
    · exact absurd (refused.valid.symm.trans runs.valid) (by decide)
  · rintro ⟨rfl, informs⟩
    rcases spec with ⟨options, -, -, parsed⟩ | info | refused
    · rw [parsed] at informs
      rcases cliFinish_cases (runs_options options) with same | refused
      · rw [same] at informs
        exact absurd informs (not_informs_of_runs (runs_options options))
      · exact absurd informs refused.silent
    · exact info
    · exact absurd informs refused.silent
  · intro notRuns notInforms
    rcases spec with ⟨options, -, -, parsed⟩ | info | refused
    · rw [parsed] at notRuns ⊢
      rcases cliFinish_cases (runs_options options) with same | refused
      · rw [same] at notRuns
        exact absurd (runs_options options) notRuns
      · exact refused
    · exact absurd (infoLine_parsed program info).2 notInforms
    · exact refused

/-- A removed spelling is refused as an option, and taken as a value. -/
example : (cliParse .elf64 [utf8 "نظم", utf8 "أ.نظم", utf8 "-o"]).errorMsg =
      some (utf8 "خطأ: خيار 0.3 أزيل؛ استخدم '-خ' أو '--خرج'") ∧
    (cliParse .elf64 [utf8 "نظم", utf8 "أ.نظم", utf8 "-خ", utf8 "-o"]).outputPath =
      some (utf8 "-o") := by
  decide +kernel

end Nazm.Cli
