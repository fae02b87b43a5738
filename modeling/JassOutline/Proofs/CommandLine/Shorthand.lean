import JassOutline.CommandLine.Run
import Mathlib.Data.List.Nodup
import Mathlib.Data.List.TakeWhile

/-!
# Outlines without the name of the command

A command line with a file and no command asks for the outline of the file: the word `outline` is
put directly in front of the file. Options of the whole program stand before or behind the name of
the command, but the switches of `outline` only behind it. So a switch in front of the file is
refused without the word `outline`, and accepted with it. What the options of the whole program say
about the standard error is the same for both lines.

## Key results

- `LineOption.readWords_words`, `LineOption.readFrom_words`: options on the two sides of a command
- `LineOption.foldlM_add`: what options add up to, unless they repeat one another
- `FileLine.readArguments_explicit`, `FileLine.readArguments_words`: what the two lines ask for
- `FileLine.readArguments_words_eq`: when they ask for the same
-/

namespace JassOutline.CommandLine

/-! ### Options -/

/-- The long name of a switch. -/
def Switch.name : Switch → String
  | noColor => "no-color"
  | verbose => "verbose"
  | check => "check"
  | ast => "ast"
  | listBlocks => "list-blocks"
  | expanded => "expanded"
  | macros => "macros"
  | zinc => "zinc"
  | listCategories => "list-categories"

/-- An option of a line that asks for an outline. -/
inductive LineOption where
  | switch (s : Switch) (h : s ≠ .listCategories)
  /-- The short form of `--verbose`. -/
  | shortVerbose
  /-- The settings file in a word of its own. -/
  | config (path : String)
  /-- The settings file in the word of the option. -/
  | attachedConfig (path : String)
  deriving DecidableEq, Repr

namespace LineOption

/-- The words of an option. -/
def words : LineOption → List String
  | switch s _ => ["--" ++ s.name]
  | shortVerbose => ["-v"]
  | config path => ["--config", path]
  | attachedConfig path => ["--" ++ ("config" ++ "=" ++ path)]

/-- The switch that the option is. -/
def switch? : LineOption → Option Switch
  | switch s _ => some s
  | shortVerbose => some .verbose
  | _ => none

/-- The settings file that the option names. -/
def config? : LineOption → Option String
  | config path | attachedConfig path => some path
  | _ => none

/-- Whether the option belongs to the whole program. -/
def isCommon (o : LineOption) : Bool :=
  o.switch?.all Switch.isCommon

/-- Whether the words of the option are one option with its value. -/
def isReadable : LineOption → Bool
  | config path => isValue path
  | _ => true

/-- What the option adds to what is given. -/
def add (given : Given) : LineOption → Except Stop Given
  | switch s _ => given.addSwitch s
  | shortVerbose => given.addSwitch .verbose
  | config path => if isValue path then given.addValue .config path else .error .usage
  | attachedConfig path => given.addValue .config path

end LineOption

/-! ### Reading one option -/

variable {scope : Option CommandName} {given : Given} {word name value : String}
  {rest : List String} {s : Switch} {o : LineOption} {options : List LineOption}

theorem toList_long (name : String) : ("--" ++ name).toList = '-' :: '-' :: name.toList := by
  rw [String.toList_append]
  rfl

theorem splitLong_name (h : '=' ∉ name.toList) : splitLong name.toList = (name, none) := by
  have hall : name.toList.takeWhile (· != '=') = name.toList :=
    List.takeWhile_eq_self_iff.2 fun c hc => by
      rw [bne_iff_ne]
      rintro rfl
      exact h hc
  simp [splitLong, hall]

theorem splitLong_attached (h : '=' ∉ name.toList) (value : String) :
    splitLong (name ++ "=" ++ value).toList = (name, some value) := by
  have hequals : (name ++ "=" ++ value).toList = name.toList ++ '=' :: value.toList := by
    simp
  have hall : ∀ c ∈ name.toList, (c != '=') = true := fun c hc => by
    rw [bne_iff_ne]
    rintro rfl
    exact h hc
  simp [splitLong, hequals, List.takeWhile_append_of_pos hall]

theorem readOption_long (h : '=' ∉ name.toList) :
    readOption scope given ("--" ++ name) = readLong scope given name none := by
  rw [readOption, toList_long]
  simp only [splitLong_name h]

theorem readOption_attached (h : '=' ∉ name.toList) (value : String) :
    readOption scope given ("--" ++ (name ++ "=" ++ value)) =
      readLong scope given name (some value) := by
  rw [readOption, toList_long]
  simp only [splitLong_attached h]

/-- Behind the name of the command every switch of an outline is known. -/
theorem longOption?_outline (h : s ≠ .listCategories) :
    longOption? (some .outline) s.name = some (.switch s) := by
  cases s <;> first | rfl | exact absurd rfl h

/-- In front of the name of a command only some switches are known. -/
theorem longOption?_none (s : Switch) :
    longOption? none s.name = if s.isCommon then some (.switch s) else none := by
  cases s <;> rfl

theorem not_mem_name (s : Switch) : '=' ∉ s.name.toList := by
  cases s <;> decide

/-- A word that is an option, and no end of options. -/
structure IsOptionWord (word : String) : Prop where
  opens : isOption word = true
  ne_hyphen : word ≠ "-"
  ne_end : word ≠ "--"

namespace IsOptionWord

theorem isValue_eq (h : IsOptionWord word) : isValue word = false := by
  simp [isValue, h.opens, h.ne_hyphen]

theorem not_mem_commandWords (h : IsOptionWord word) : word ∉ commandWords := by
  have hcommands : ∀ word ∈ commandWords, isOption word = false := by decide
  intro hmem
  simpa [hcommands word hmem] using h.opens

theorem readWords_cons (h : IsOptionWord word) (name : CommandName) (given : Given)
    (rest : List String) :
    readWords name given none (word :: rest) =
      (readOption (some name) given word).bind fun read => readWords name read.1 read.2 rest := by
  simp only [readWords, h.ne_end, h.isValue_eq]
  rfl

theorem readFrom_cons (h : IsOptionWord word) (given : Given) (rest : List String) :
    readFrom given none (word :: rest) =
      (readOption none given word).bind fun read => readFrom read.1 read.2 rest := by
  have hcommand := h.not_mem_commandWords
  simp only [commandWords, List.mem_cons, List.not_mem_nil, or_false, not_or] at hcommand
  rw [readFrom, h.isValue_eq]
  · rfl
  · exact hcommand.1
  · exact hcommand.2.1
  · exact hcommand.2.2
  · exact h.ne_end

end IsOptionWord

theorem isOptionWord_long (hname : name ≠ "") : IsOptionWord ("--" ++ name) where
  opens := by simp [isOption]
  ne_hyphen := fun h => by
    have htexts := congrArg String.toList h
    rw [toList_long] at htexts
    simp at htexts
  ne_end := fun h => by
    have htexts := congrArg String.toList h
    rw [toList_long] at htexts
    simp at htexts
    exact hname htexts

theorem isOptionWord_switch (s : Switch) : IsOptionWord ("--" ++ s.name) :=
  isOptionWord_long (by cases s <;> decide)

theorem isOptionWord_attached (path : String) :
    IsOptionWord ("--" ++ ("config" ++ "=" ++ path)) := by
  refine isOptionWord_long fun h => ?_
  have htexts := congrArg String.toList h
  simp at htexts

theorem readOption_switch (h : longOption? scope s.name = some (.switch s)) :
    readOption scope given ("--" ++ s.name) = (given.addSwitch s).map (·, none) := by
  rw [readOption_long (not_mem_name s)]
  simp only [readLong, h]
  cases given.addSwitch s <;> rfl

theorem readOption_verbose (scope : Option CommandName) (given : Given) :
    readOption scope given "-v" = (given.addSwitch .verbose).map (·, none) := by
  have hshort : shortOption? scope 'v' = some (.switch .verbose) := by
    cases scope with
    | none => rfl
    | some name => cases name <;> rfl
  show readShort scope given ['v'] = _
  simp only [readShort, hshort]
  cases given.addSwitch .verbose <;> rfl

theorem longOption?_config (scope : Option CommandName) :
    longOption? scope "config" = some .config := rfl

theorem readOption_config (scope : Option CommandName) (given : Given) :
    readOption scope given "--config" = .ok (given, some .config) := by
  rw [show "--config" = "--" ++ "config" from rfl, readOption_long (by decide)]
  simp only [readLong, longOption?_config]

theorem readOption_attachedConfig (scope : Option CommandName) (given : Given) (path : String) :
    readOption scope given ("--" ++ ("config" ++ "=" ++ path)) =
      (given.addValue .config path).map (·, none) := by
  rw [readOption_attached (by decide)]
  simp only [readLong, longOption?_config]
  cases given.addValue .config path <;> rfl

namespace LineOption

/-- Behind the name of the command an option adds what it says. -/
theorem readWords_words (o : LineOption) (given : Given) (rest : List String) :
    readWords .outline given none (o.words ++ rest) =
      (o.add given).bind fun given => readWords .outline given none rest := by
  cases o with
  | switch s h =>
    rw [words, List.singleton_append, (isOptionWord_switch s).readWords_cons,
      readOption_switch (longOption?_outline h), add]
    cases given.addSwitch s <;> rfl
  | shortVerbose =>
    have hword : IsOptionWord "-v" := ⟨by decide, by decide, by decide⟩
    rw [words, List.singleton_append, hword.readWords_cons, readOption_verbose, add]
    cases given.addSwitch .verbose <;> rfl
  | config path =>
    have hword : IsOptionWord "--config" := ⟨by decide, by decide, by decide⟩
    rw [words, List.cons_append, List.singleton_append, hword.readWords_cons, readOption_config,
      add]
    -- The next word is the value
    simp only [Except.bind, readWords]
    split
    · cases given.addValue .config path <;> rfl
    · rfl
  | attachedConfig path =>
    rw [words, List.singleton_append, (isOptionWord_attached path).readWords_cons,
      readOption_attachedConfig, add]
    cases given.addValue .config path <;> rfl

/-- In front of the name of the command only the options of the whole program may stand. -/
theorem readFrom_words (o : LineOption) (given : Given) (rest : List String) :
    readFrom given none (o.words ++ rest) =
      if o.isCommon then (o.add given).bind fun given => readFrom given none rest
      else .error .usage := by
  cases o with
  | switch s h =>
    rw [words, List.singleton_append, (isOptionWord_switch s).readFrom_cons, add]
    have hcommon : isCommon (.switch s h) = s.isCommon := rfl
    have hlong := longOption?_none s
    rw [hcommon]
    -- A switch of the whole program is known in front of the command
    split
    · next hs =>
      rw [if_pos hs] at hlong
      rw [readOption_switch hlong]
      cases given.addSwitch s <;> rfl
    · -- A switch of the command is not known yet
      next hs =>
      rw [if_neg hs] at hlong
      rw [readOption_long (not_mem_name s)]
      simp only [readLong, hlong]
      rfl
  | shortVerbose =>
    have hword : IsOptionWord "-v" := ⟨by decide, by decide, by decide⟩
    rw [words, List.singleton_append, hword.readFrom_cons, readOption_verbose, add,
      if_pos (show isCommon .shortVerbose = true from rfl)]
    cases given.addSwitch .verbose <;> rfl
  | config path =>
    have hword : IsOptionWord "--config" := ⟨by decide, by decide, by decide⟩
    rw [words, List.cons_append, List.singleton_append, hword.readFrom_cons, readOption_config,
      add, if_pos (show isCommon (.config path) = true from rfl)]
    -- The path is the word behind the option, whatever it looks like
    simp only [Except.bind, readFrom]
    split
    · cases given.addValue .config path <;> rfl
    · rfl
  | attachedConfig path =>
    -- The path is a part of the word itself
    rw [words, List.singleton_append, (isOptionWord_attached path).readFrom_cons,
      readOption_attachedConfig, add, if_pos (show isCommon (.attachedConfig path) = true from rfl)]
    cases given.addValue .config path <;> rfl

end LineOption

/-! ### Reading many options -/

/-- What is given with more options. -/
def Given.withOptions (given : Given) (options : List LineOption) : Given :=
  { given with
    switches := given.switches ++ options.filterMap LineOption.switch?
    config := given.config <|> (options.filterMap LineOption.config?).head? }

namespace LineOption

/-- Options that repeat neither one another nor what is given, each with its value. -/
structure Fits (given : Given) (options : List LineOption) : Prop where
  switches : (given.switches ++ options.filterMap switch?).Nodup
  configs : (given.config.toList ++ options.filterMap config?).length ≤ 1
  readable : ∀ o ∈ options, o.isReadable = true

theorem fits_iff :
    Fits given options ↔ (given.switches ++ options.filterMap switch?).Nodup ∧
      (given.config.toList ++ options.filterMap config?).length ≤ 1 ∧
      ∀ o ∈ options, o.isReadable = true :=
  ⟨fun h => ⟨h.1, h.2, h.3⟩, fun h => ⟨h.1, h.2.1, h.2.2⟩⟩

instance : Decidable (Fits given options) := decidable_of_iff _ fits_iff.symm

theorem withOptions_append (given : Given) (options more : List LineOption) :
    (given.withOptions options).withOptions more = given.withOptions (options ++ more) := by
  simp [Given.withOptions, List.filterMap_append, List.append_assoc, Option.or_assoc]

/-- A settings file that is named once is the first one that is named. -/
theorem toList_config (h : (given.config.toList ++ options.filterMap config?).length ≤ 1) :
    (given.withOptions options).config.toList =
      given.config.toList ++ options.filterMap config? := by
  rw [Given.withOptions]
  -- Either no file is given yet, or the options name none
  cases hconfig : given.config with
  | none =>
    rw [hconfig, Option.toList_none, List.nil_append] at h
    match hpaths : options.filterMap config? with
    | [] => rfl
    | [path] => rfl
    | _ :: _ :: _ => simp [hpaths] at h
  | some path =>
    rw [hconfig, Option.toList_some, List.length_append, List.length_singleton] at h
    have hpaths : options.filterMap config? = [] := List.length_eq_zero_iff.1 (by omega)
    rw [hpaths]
    rfl

theorem fits_append (given : Given) (options more : List LineOption) :
    Fits given (options ++ more) ↔
      Fits given options ∧ Fits (given.withOptions options) more := by
  have hswitches : (given.withOptions options).switches =
      given.switches ++ options.filterMap switch? := rfl
  simp only [fits_iff, List.filterMap_append, List.forall_mem_append, hswitches,
    ← List.append_assoc]
  constructor
  · rintro ⟨hnodup, hpaths, hreadable, hreadable'⟩
    have hpaths' : (given.config.toList ++ options.filterMap config?).length ≤ 1 := by
      rw [List.length_append] at hpaths
      omega
    rw [toList_config hpaths']
    exact ⟨⟨hnodup.of_append_left, hpaths', hreadable⟩, hnodup, hpaths, hreadable'⟩
  · rintro ⟨⟨-, hpaths, hreadable⟩, hnodup, hpaths', hreadable'⟩
    rw [toList_config hpaths] at hpaths'
    exact ⟨hnodup, hpaths', hreadable, hreadable'⟩

theorem fits_cons (given : Given) (o : LineOption) (options : List LineOption) :
    Fits given (o :: options) ↔ Fits given [o] ∧ Fits (given.withOptions [o]) options :=
  fits_append given [o] options

theorem fits_nil (h : given.switches.Nodup) : Fits given [] where
  switches := by simpa using h
  configs := by cases given.config <;> simp
  readable := by simp

theorem withOptions_nil (given : Given) : given.withOptions [] = given := by
  simp [Given.withOptions]

theorem filterMap_singleton {α : Type} (f : LineOption → Option α) (o : LineOption) :
    [o].filterMap f = (f o).toList := by
  rw [List.filterMap_cons, List.filterMap_nil]
  cases f o <;> rfl

/-- A single option fits if it does not repeat what is given. -/
theorem fits_singleton (h : given.switches.Nodup) :
    Fits given [o] ↔ (∀ s ∈ o.switch?, s ∉ given.switches) ∧
      (o.config?.isSome → given.config = none) ∧ o.isReadable = true := by
  have hnew : (given.switches ++ o.switch?.toList).Nodup ↔ ∀ s ∈ o.switch?, s ∉ given.switches := by
    cases o.switch? with
    | none => simpa using h
    | some s =>
      rw [Option.toList_some, ← List.concat_eq_append, List.nodup_concat]
      simp [h]
  have honce : (given.config.toList ++ o.config?.toList).length ≤ 1 ↔
      (o.config?.isSome → given.config = none) := by
    cases o.config? <;> cases given.config <;> simp
  rw [fits_iff, filterMap_singleton, filterMap_singleton, hnew, honce, List.forall_mem_singleton]

theorem Fits.alone (h : Fits given options) : Fits .nothing options where
  switches := h.switches.of_append_right
  configs := by
    have hconfigs := h.configs
    rw [List.length_append] at hconfigs
    simpa [Given.nothing] using le_trans (Nat.le_add_left _ _) hconfigs
  readable := h.readable

theorem addSwitch_eq (given : Given) (s : Switch) :
    given.addSwitch s =
      if s ∉ given.switches then .ok { given with switches := given.switches ++ [s] }
      else .error .usage := by
  by_cases hmem : s ∈ given.switches <;> simp [Given.addSwitch, hmem]

theorem addValue_config_eq (given : Given) (path : String) :
    given.addValue .config path =
      if given.config = none then .ok { given with config := some path }
      else .error .usage := by
  cases hgiven : given.config <;> simp [Given.addValue, hgiven]

theorem add_eq (h : given.switches.Nodup) (o : LineOption) :
    o.add given =
      if Fits given [o] then .ok (given.withOptions [o]) else .error .usage := by
  simp only [fits_singleton h]
  have hgiven : given.withOptions [o] =
      { given with
        switches := given.switches ++ o.switch?.toList, config := given.config <|> o.config? } := by
    rw [Given.withOptions, filterMap_singleton, filterMap_singleton]
    cases o.config? <;> rfl
  rw [hgiven]
  cases o with
  | switch s => simp [add, addSwitch_eq, switch?, config?, isReadable]
  | shortVerbose => simp [add, addSwitch_eq, switch?, config?, isReadable]
  | config path =>
    cases hnone : given.config <;>
      simp [add, addValue_config_eq, switch?, config?, isReadable, hnone]
  | attachedConfig path =>
    cases hnone : given.config <;>
      simp [add, addValue_config_eq, switch?, config?, isReadable, hnone]

/-- Options add up where they fit one another. The induction goes over all that may be given
before, as long as no switch is given twice. -/
theorem foldlM_add (h : given.switches.Nodup) (options : List LineOption) :
    options.foldlM add given =
      if Fits given options then .ok (given.withOptions options) else .error .usage := by
  induction options generalizing given with
  | nil =>
    rw [if_pos (fits_nil h), withOptions_nil]
    rfl
  | cons o rest ih =>
    simp only [fits_cons given o rest, List.foldlM_cons, add_eq h]
    by_cases hfits : Fits given [o]
    · have hnodup : (given.withOptions [o]).switches.Nodup := hfits.switches
      rw [if_pos hfits]
      show rest.foldlM add (given.withOptions [o]) = _
      rw [ih hnodup, withOptions_append, List.singleton_append]
      simp only [hfits, true_and]
    · rw [if_neg hfits, if_neg fun hall => hfits hall.1]
      rfl

theorem readWords_flatMap (options : List LineOption) (given : Given) (rest : List String) :
    readWords .outline given none (options.flatMap words ++ rest) =
      (options.foldlM add given).bind fun given => readWords .outline given none rest := by
  induction options generalizing given with
  | nil => rfl
  | cons o options ih =>
    rw [List.flatMap_cons, List.append_assoc, readWords_words]
    simp only [ih, List.foldlM_cons]
    cases o.add given <;> rfl

theorem readFrom_flatMap (options : List LineOption) (h : given.switches.Nodup)
    (rest : List String) :
    readFrom given none (options.flatMap words ++ rest) =
      if (∀ o ∈ options, o.isCommon = true) ∧ Fits given options then
        readFrom (given.withOptions options) none rest
      else .error .usage := by
  induction options generalizing given with
  | nil =>
    rw [if_pos ⟨by simp, fits_nil h⟩, withOptions_nil]
    rfl
  | cons o options ih =>
    rw [List.flatMap_cons, List.append_assoc, readFrom_words, add_eq h]
    simp only [fits_cons given o options, List.forall_mem_cons]
    by_cases hcommon : o.isCommon = true
    · rw [if_pos hcommon]
      by_cases hfits : Fits given [o]
      · rw [if_pos hfits]
        show readFrom (given.withOptions [o]) none _ = _
        rw [ih hfits.switches, withOptions_append, List.singleton_append]
        simp only [hcommon, hfits, true_and]
      · rw [if_neg hfits, if_neg fun hall => hfits hall.2.1]
        rfl
    · rw [if_neg hcommon, if_neg fun hall => hcommon hall.1.1]

end LineOption

/-! ### Lines with a file -/

/-- The settings file that the first of the options with one names. -/
def LineOption.configOf (options : List LineOption) : Option String :=
  (options.filterMap config?).head?

/-- Where one settings file is named, it does not matter from which end it is looked for. -/
theorem LineOption.configOf_append {options more : List LineOption}
    (h : ((options ++ more).filterMap config?).length ≤ 1) :
    configOf (options ++ more) = (configOf more <|> configOf options) := by
  rw [configOf, List.filterMap_append, configOf, configOf]
  rw [List.filterMap_append, List.length_append] at h
  cases hoptions : options.filterMap config? with
  | nil => simp
  | cons path paths =>
    rw [hoptions, List.length_cons] at h
    have hmore : more.filterMap config? = [] := List.length_eq_zero_iff.1 (by omega)
    rw [hmore]
    simp

/-- A line with one file, options in front of it and behind it, and no name of a command. -/
structure FileLine where
  before : List LineOption
  file : String
  behind : List LineOption
  isFile : isOption file = false
  notCommand : file ∉ commandWords

namespace FileLine

open LineOption

/-- The words of the line. -/
def words (line : FileLine) : List String :=
  line.before.flatMap LineOption.words ++ line.file :: line.behind.flatMap LineOption.words

/-- All options of the line. -/
def allOptions (line : FileLine) : List LineOption :=
  line.before ++ line.behind

/-- The switches of the line, on either side of the file. -/
def switches (line : FileLine) : List Switch :=
  line.allOptions.filterMap switch?

/-- The outline of the file with the given settings. What is shown on the standard error and what
is listed are decided by the switches of the line, on whichever side of the file they stand. -/
def request (line : FileLine) (config : Option String) : Request where
  display := displayOf line.switches
  config := config
  command := .outline line.file (line.switches.filter (!·.isCommon))

/-- Options of the whole program are no switches of the command. -/
theorem filter_switches (line : FileLine) (h : ∀ o ∈ line.before, o.isCommon = true) :
    line.switches.filter (!·.isCommon) =
      (line.behind.filterMap switch?).filter (!·.isCommon) := by
  have hbefore : (line.before.filterMap switch?).filter (!·.isCommon) = [] := by
    refine List.filter_eq_nil_iff.2 fun s hs => ?_
    obtain ⟨o, ho, hswitch⟩ := List.mem_filterMap.1 hs
    have hcommon := h o ho
    rw [isCommon, hswitch] at hcommon
    simpa using hcommon
  rw [switches, allOptions, List.filterMap_append, List.filter_append, hbefore, List.nil_append]

theorem withCommand_words (o : LineOption) (rest : List String) :
    withCommand (o.words ++ rest) = o.words ++ withCommand rest := by
  have hword : ∀ {word}, IsOptionWord word → word ∉ valueOptions →
      withCommand (word :: rest) = word :: withCommand rest := fun h hvalue => by
    rw [withCommand.eq_def]
    simp [hvalue, h.opens]
  cases o with
  | switch s => exact hword (isOptionWord_switch s) (by cases s <;> decide)
  | shortVerbose => exact hword ⟨by decide, by decide, by decide⟩ (by decide)
  | config path =>
    rw [LineOption.words, List.cons_append, List.singleton_append, withCommand.eq_def]
    rfl
  | attachedConfig path =>
    refine hword (isOptionWord_attached path) fun hmem => ?_
    simp only [valueOptions, List.mem_cons, List.not_mem_nil, or_false] at hmem
    obtain h | h | h := hmem
    · simpa using congrArg String.toList h
    · simpa using congrArg String.toList h
    · simpa using congrArg String.toList h

theorem withCommand_flatMap (options : List LineOption) (rest : List String) :
    withCommand (options.flatMap LineOption.words ++ rest) =
      options.flatMap LineOption.words ++ withCommand rest := by
  induction options with
  | nil => rfl
  | cons o options ih =>
    rw [List.flatMap_cons, List.append_assoc, withCommand_words, ih, List.append_assoc]

/-- The name of the command is put directly in front of the file. -/
theorem withCommand_eq (line : FileLine) :
    withCommand line.words =
      line.before.flatMap LineOption.words ++
        "outline" :: line.file :: line.behind.flatMap LineOption.words := by
  have hvalue : line.file ∉ valueOptions := fun hmem => by
    have hoptions : ∀ word ∈ valueOptions, isOption word = true := by decide
    simpa [line.isFile] using hoptions _ hmem
  have hfile : withCommand (line.file :: line.behind.flatMap LineOption.words) =
      "outline" :: line.file :: line.behind.flatMap LineOption.words := by
    unfold withCommand
    simp [hvalue, line.isFile, line.notCommand]
  rw [words, withCommand_flatMap, hfile]

/-- The words behind the name of the command give the file and the options on both sides of it. -/
theorem readWords_words (line : FileLine) :
    readWords .outline .nothing none line.words =
      if Fits .nothing line.allOptions then
        .ok { Given.nothing.withOptions line.allOptions with operands := [line.file] }
      else .error .usage := by
  have hvalue : isValue line.file = true := by simp [isValue, line.isFile]
  have hend : line.file ≠ "--" := fun h => by
    have hfile := line.isFile
    rw [h] at hfile
    exact absurd hfile (by decide)
  have hfile : ∀ given rest, given.operands = [] →
      readWords .outline given none (line.file :: rest) =
        readWords .outline { given with operands := [line.file] } none rest := by
    intro given rest hoperands
    simp only [readWords, hend, hvalue, Given.addOperand, hoperands]
    rfl
  rw [words, readWords_flatMap, foldlM_add List.nodup_nil]
  simp only [allOptions, fits_append]
  by_cases hbefore : Fits .nothing line.before
  · rw [if_pos hbefore, Except.bind, hfile _ _ rfl]
    -- The file does not matter to the options
    have hfits : ∀ given : Given, Fits { given with operands := [line.file] } line.behind ↔
        Fits given line.behind := fun given => by rw [fits_iff, fits_iff]
    have hbehind := LineOption.readWords_flatMap line.behind
      { Given.nothing.withOptions line.before with operands := [line.file] } []
    rw [List.append_nil, foldlM_add hbefore.switches] at hbehind
    simp only [hbehind, hfits, hbefore, true_and, ← withOptions_append]
    split <;> rfl
  · rw [if_neg hbefore, if_neg fun h => hbefore h.1]
    rfl

/-- With the name of the command in front, all options go together. -/
theorem readArguments_explicit (line : FileLine) :
    readArguments ("outline" :: line.words) =
      if Fits .nothing line.allOptions then
        .ok (line.request (configOf line.allOptions))
      else .error .usage := by
  rw [readArguments, withCommand_of_command (by decide), readFrom, readCommand, readWords_words]
  split
  · simp [request, switches, configOf, Given.withOptions, Given.nothing, toCommand, Except.bind,
      bind]
  · rfl

/-- Without the name of the command, options in front of the file stand in front of the name, and
those behind it are read on their own. -/
theorem readArguments_words (line : FileLine) :
    readArguments line.words =
      if (∀ o ∈ line.before, o.isCommon = true) ∧ Fits .nothing line.before ∧
          Fits .nothing line.behind then
        .ok (line.request (configOf line.behind <|> configOf line.before))
      else .error .usage := by
  -- What follows the name of the command is a line of its own
  have hbehind :
      readWords .outline .nothing none (line.file :: line.behind.flatMap LineOption.words) =
        if Fits .nothing line.behind then
          .ok { Given.nothing.withOptions line.behind with operands := [line.file] }
        else .error .usage :=
    readWords_words { line with before := [] }
  rw [readArguments, withCommand_eq, readFrom_flatMap _ List.nodup_nil]
  by_cases hbefore : (∀ o ∈ line.before, o.isCommon = true) ∧ Fits .nothing line.before
  · rw [if_pos hbefore, readFrom, readCommand, hbehind]
    by_cases hfits : Fits .nothing line.behind
    · rw [if_pos hfits, if_pos ⟨hbefore.1, hbefore.2, hfits⟩, request,
        line.filter_switches hbefore.1]
      simp [switches, allOptions, configOf, Given.withOptions, Given.nothing, toCommand,
        Except.bind, bind]
    · rw [if_neg hfits, if_neg fun h => hfits h.2.2]
      rfl
  · rw [if_neg hbefore, if_neg fun h => hbefore ⟨h.1, h.2.1⟩]

end FileLine

/-! ### Running the lines -/

/-- An outline never ends like a line that is refused. -/
theorem exitCode_outlineText (settings : Settings) (file : String) (switches : List Switch)
    (text : List Char) : (outlineText settings file switches text).exitCode ≤ 1 := by
  simp only [outlineText]
  split
  · split <;> simp
  · simp

theorem run_of_readArguments (disk : Disk) {words : List String} {request : Request} {p : Prop}
    [Decidable p] (h : readArguments words = if p then .ok request else .error .usage) :
    run disk words = if p then runRequest disk request else stopped .usage := by
  rw [run, h]
  by_cases hp : p
  · rw [if_pos hp, if_pos hp]
  · rw [if_neg hp, if_neg hp]

namespace FileLine

open LineOption

theorem exitCode_request (disk : Disk) (line : FileLine) (config : Option String) :
    (runRequest disk (line.request config)).exitCode ≤ 1 := by
  rw [runRequest, perform]
  split
  · exact le_rfl
  · rw [request, runCommand]
    split
    · exact le_rfl
    · exact exitCode_outlineText ..

/-- Where the options of a line go together and those in front of the file belong to the whole
program, the line asks for the same with and without the name of the command. -/
theorem readArguments_words_eq (line : FileLine) (hfits : Fits .nothing line.allOptions)
    (hcommon : ∀ o ∈ line.before, o.isCommon = true) :
    readArguments line.words = readArguments ("outline" :: line.words) := by
  obtain ⟨hbefore, hbehind⟩ := (fits_append _ _ _).1 hfits
  rw [readArguments_explicit, if_pos hfits, readArguments_words,
    if_pos ⟨hcommon, hbefore, hbehind.alone⟩, allOptions, configOf_append hfits.configs]

/-- Without the name of the command, the options of a line are read in two parts, and in front of
the file only those of the whole program are known. These count on either side, also for what is
shown on the standard error. Where all options of the line go together, it is outlined like the line
that names the command if and only if there are no others in front, and otherwise a console of any
kind shows the difference. -/
theorem run_words_iff (disk : Disk) (line : FileLine) :
    run disk ("outline" :: line.words) =
      (if Fits .nothing line.allOptions then
        runRequest disk (line.request (configOf line.allOptions))
      else stopped .usage) ∧
    run disk line.words =
      (if (∀ o ∈ line.before, o.isCommon = true) ∧ Fits .nothing line.before ∧
          Fits .nothing line.behind then
        runRequest disk (line.request (configOf line.behind <|> configOf line.before))
      else stopped .usage) ∧
    (Fits .nothing line.allOptions →
      (run disk line.words = run disk ("outline" :: line.words) ↔
        ∀ o ∈ line.before, o.isCommon = true) ∧
      ∀ console,
        ((run disk line.words).seenOn console =
            (run disk ("outline" :: line.words)).seenOn console ↔
          ∀ o ∈ line.before, o.isCommon = true)) := by
  have hexplicit := run_of_readArguments disk line.readArguments_explicit
  have hwords := run_of_readArguments disk line.readArguments_words
  refine ⟨hexplicit, hwords, fun hfits => ?_⟩
  have hsame : (∀ o ∈ line.before, o.isCommon = true) →
      run disk line.words = run disk ("outline" :: line.words) := fun hcommon => by
    rw [run, run, readArguments_words_eq line hfits hcommon]
  -- A refused line ends with a code that no outline ends with
  have hcode : (run disk line.words).exitCode = (run disk ("outline" :: line.words)).exitCode →
      ∀ o ∈ line.before, o.isCommon = true := fun heq => by
    by_contra hcommon
    rw [hexplicit, if_pos hfits, hwords, if_neg fun h => hcommon h.1] at heq
    have hle := exitCode_request disk line (configOf line.allOptions)
    rw [← heq] at hle
    exact absurd hle (by decide)
  refine ⟨⟨fun heq => hcode (by rw [heq]), hsame⟩, fun console => ?_⟩
  constructor
  · intro heq
    exact hcode (congrArg Prod.fst heq)
  · intro hcommon
    rw [hsame hcommon]

/-- A line with options of both kinds on the sides where they may stand. -/
def sortedLine : FileLine where
  before := [.shortVerbose, .config "settings.toml"]
  file := "main.j"
  behind := [.switch .check (by decide), .switch .noColor (by decide)]
  isFile := by decide
  notCommand := by decide

/-- The log is asked for in front of the file and colors are forbidden behind it. The outline knows
of both, with and without the name of the command, and every console shows the same. -/
theorem run_words_iff_sortedLine :
    sortedLine.words =
      ["-v", "--config", "settings.toml", "main.j", "--check", "--no-color"] ∧
    Fits .nothing sortedLine.allOptions ∧
    (run ⟨fun _ => .ok (.file .empty)⟩ sortedLine.words).display =
      { noColor := true, verbose := true } ∧
    run ⟨fun _ => .ok (.file .empty)⟩ sortedLine.words =
      run ⟨fun _ => .ok (.file .empty)⟩ ("outline" :: sortedLine.words) ∧
    ∀ console,
      (run ⟨fun _ => .ok (.file .empty)⟩ sortedLine.words).seenOn console =
        (run ⟨fun _ => .ok (.file .empty)⟩ ("outline" :: sortedLine.words)).seenOn console := by
  have hfits : Fits .nothing sortedLine.allOptions := by decide
  have hcommon : ∀ o ∈ sortedLine.before, o.isCommon = true := by decide
  obtain ⟨-, hwords, hiff⟩ := run_words_iff ⟨fun _ => .ok (.file .empty)⟩ sortedLine
  obtain ⟨houtcome, hseen⟩ := hiff hfits
  refine ⟨by decide, hfits, ?_, houtcome.2 hcommon, fun console => (hseen console).2 hcommon⟩
  rw [hwords, if_pos ⟨hcommon, by decide, by decide⟩]
  rfl

/-- A line with a switch of the command in front of the file. -/
def switchLine : FileLine where
  before := [.switch .listBlocks (by decide)]
  file := "main.j"
  behind := []
  isFile := by decide
  notCommand := by decide

/-- The switch is refused in front of the file, and accepted behind the name of the command. -/
theorem switchLine_refused :
    switchLine.words = ["--list-blocks", "main.j"] ∧
    (run ⟨fun _ => .ok (.file .empty)⟩ switchLine.words).exitCode = 2 ∧
    (run ⟨fun _ => .ok (.file .empty)⟩ ("outline" :: switchLine.words)).exitCode = 0 := by
  decide +kernel

end FileLine

end JassOutline.CommandLine
