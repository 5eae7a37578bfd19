import LineLint.CommandLine.Run

/-!
# What a run is about

Where the configuration and the text of a run come from, as relations between what
is asked of a world, the answers, and the states of the world before and after.
They say of each step what it may be, and nothing of how it is carried out:

* a file that is named counts, whether it is there or not; otherwise it is the first
  one there is of two in the working directory and one in the directory of the user
  (`Locates`);
* nothing is configured without a file, and otherwise what the text of the file says;
  there is no configuration if the file cannot be read, or if its text is none
  (`Loads`);
* a text comes from the file that is named, or from the standard input if there is
  none or its name is `-` (`ReadsText`).

A run comes to what the relations allow (`loads_iff`, `readsText_iff`), so they hold
of exactly one result from any state of any world.  A preset is known by six
spellings, and all rules are taken without one (`parsePreset_eq_ok_iff`).
-/
namespace LineLint

/-! ## Presets -/

/-- The presets by their spellings. -/
def presetSpellings : List (String × Preset) :=
  [("full", .full), ("", .full), ("rules-only", .rulesOnly), ("rules_only", .rulesOnly),
   ("rules", .rulesOnly), ("minimal", .minimal)]

/-- The preset that a name stands for, trimmed and in small ASCII letters; all rules stand for no
name. -/
def PresetNamed (name : Option String) (preset : Preset) : Prop :=
  match name with
  | some text => (String.ofList (Text.asciiLower (Text.trim text.toList)), preset) ∈ presetSpellings
  | none => preset = .full

instance (name : Option String) (preset : Preset) : Decidable (PresetNamed name preset) :=
  match name with
  | some _ => inferInstanceAs (Decidable (_ ∈ presetSpellings))
  | none => inferInstanceAs (Decidable (preset = .full))

theorem mem_presetSpellings_iff (spelling : String) (preset : Preset) :
    (spelling, preset) ∈ presetSpellings ↔ spelling ∈ preset.spellings := by
  cases preset <;> simp [presetSpellings, Preset.spellings]

/-- No spelling stands for two presets. -/
theorem eq_of_mem_spellings {spelling : String} {preset other : Preset}
    (h : spelling ∈ preset.spellings) (hother : spelling ∈ other.spellings) : preset = other := by
  have hall : ∀ preset ∈ Preset.all, ∀ other ∈ Preset.all, ∀ spelling ∈ preset.spellings,
      spelling ∈ other.spellings → preset = other := by decide
  exact hall preset (by cases preset <;> decide) other (by cases other <;> decide) spelling h hother

theorem parse_eq_ok_iff (text : String) (preset : Preset) :
    Preset.parse text = .ok preset ↔ Dialect.normalize text ∈ preset.spellings := by
  rw [Preset.parse]
  cases hfound : Preset.all.find? fun preset =>
      preset.spellings.contains (Dialect.normalize text) with
  | none =>
    have hall : preset ∈ Preset.all := by cases preset <;> decide
    simpa using List.find?_eq_none.mp hfound preset hall
  | some found =>
    have hspelled : Dialect.normalize text ∈ found.spellings := by
      simpa using List.find?_some hfound
    rw [Except.ok.injEq]
    exact ⟨fun h => h ▸ hspelled, eq_of_mem_spellings hspelled⟩

/-- **A configuration asks for the preset that its name stands for.** -/
theorem parsePreset_eq_ok_iff (config : Config) (preset : Preset) :
    config.parsePreset = .ok preset ↔ PresetNamed config.preset preset := by
  rw [Config.parsePreset]
  cases config.preset with
  | none =>
    rw [Except.ok.injEq]
    exact eq_comm
  | some text => exact (parse_eq_ok_iff text preset).trans (mem_presetSpellings_iff _ preset).symm

/-- A configuration is refused exactly if its name stands for no preset. -/
theorem parsePreset_eq_error_iff (config : Config) :
    (∃ error, config.parsePreset = .error error) ↔ ∀ preset, ¬ PresetNamed config.preset preset := by
  simp only [← parsePreset_eq_ok_iff]
  cases config.parsePreset with
  | error error => simp
  | ok preset => simp

namespace CommandLine

/-- If a relation holds of some result, and only of the one that a run comes to, then it holds of that
result alone. -/
theorem allows_iff {σ α : Type} {allows : Option α → σ → Prop} {run : Except Failure α × σ}
    {result : Option α} {stop : σ} (hexists : ∃ result stop, allows result stop)
    (hrun : ∀ result stop, allows result stop → ∃ a, run = (a, stop) ∧ a.toOption = result) :
    allows result stop ↔ (run.1.toOption, run.2) = (result, stop) := by
  constructor
  · intro h
    obtain ⟨a, rfl, rfl⟩ := hrun result stop h
    rfl
  · intro h
    obtain ⟨result', stop', hallows⟩ := hexists
    obtain ⟨a, rfl, rfl⟩ := hrun result' stop' hallows
    cases h
    exact hallows

variable {σ : Type} {world : World (StateM σ)} {paths : List String} {path named found : Option String}
  {start stop : σ}

/-! ## Configurations -/

namespace ConfigFile

/-- The first of several paths at which a file is.  No more is asked once it is found. -/
inductive FindsFile (world : World (StateM σ)) : List String → σ → Option String → σ → Prop where
  /-- No path is left. -/
  | nowhere {start : σ} : FindsFile world [] start none start
  /-- A file is at the first path. -/
  | here {path : String} {paths : List String} {start stop : σ}
      (h : world.isFile path start = (true, stop)) :
      FindsFile world (path :: paths) start (some path) stop
  /-- No file is at the first path. -/
  | later {path : String} {paths : List String} {found : Option String} {start next stop : σ}
      (h : world.isFile path start = (false, next))
      (hlater : FindsFile world paths next found stop) :
      FindsFile world (path :: paths) start found stop

/-- The directory of the user. -/
inductive HasDirectory (world : World (StateM σ)) : σ → Option String → σ → Prop where
  /-- It is the one that the variable says. -/
  | said {directory : String} {start stop : σ}
      (h : world.environment "SNIPPET_REVIEW_CONFIG_DIR" start = (some directory, stop)) :
      HasDirectory world start (some directory) stop
  /-- If it says none, it is in the home directory, if one is known. -/
  | inHome {home : Option String} {start next stop : σ}
      (h : world.environment "SNIPPET_REVIEW_CONFIG_DIR" start = (none, next))
      (hhome : world.home next = (home, stop)) :
      HasDirectory world start (home.map fun home => join home ".snippet-review") stop

/-- The file that the configuration is in. -/
inductive Locates (world : World (StateM σ)) : Option String → σ → Option String → σ → Prop where
  /-- A file that is named counts, whether it is there or not. -/
  | named {path : String} {start : σ} : Locates world (some path) start (some path) start
  /-- Otherwise two files in the working directory count, and then one in the directory of the
  user. -/
  | searched {working : String} {directory found : Option String} {start next later stop : σ}
      (hworking : world.workingDirectory start = (working, next))
      (hdirectory : HasDirectory world next directory later)
      (hfinds : FindsFile world
        ([join working "snippet-review.toml", join working ".snippet-review.toml"] ++
          directory.toList.map fun directory => join directory "config.toml") later found stop) :
      Locates world none start found stop

/-- The configuration of a run, if there is no fault in it. -/
inductive Loads (world : World (StateM σ)) (named : Option String) (start : σ) :
    Option Config → σ → Prop where
  /-- Without a file nothing is configured. -/
  | unset {stop : σ} (hlocates : Locates world named start none stop) :
      Loads world named start (some ⟨none, none, []⟩) stop
  /-- The file cannot be read. -/
  | unreadable {path : String} {fault : FileFault} {next stop : σ}
      (hlocates : Locates world named start (some path) next)
      (hread : world.read path next = (.error fault, stop)) :
      Loads world named start none stop
  /-- The text of the file is no configuration. -/
  | malformed {path text : String} {fault : Wire.Fault} {next stop : σ}
      (hlocates : Locates world named start (some path) next)
      (hread : world.read path next = (.ok text, stop))
      (hconfig : Wire.readConfig text = .error fault) :
      Loads world named start none stop
  /-- The text of the file is a configuration. -/
  | configured {path text : String} {config : Config} {next stop : σ}
      (hlocates : Locates world named start (some path) next)
      (hread : world.read path next = (.ok text, stop))
      (hconfig : Wire.readConfig text = .ok config) :
      Loads world named start (some config) stop

theorem firstFile_of_findsFile (h : FindsFile world paths start found stop) :
    firstFile world paths start = (found, stop) := by
  induction h with
  | nowhere => rfl
  | here h =>
    simp only [firstFile, bind, StateT.bind, h]
    rfl
  | later h _ ih =>
    simp only [firstFile, bind, StateT.bind, h]
    exact ih

theorem exists_findsFile (world : World (StateM σ)) (paths : List String) (start : σ) :
    ∃ found stop, FindsFile world paths start found stop := by
  induction paths generalizing start with
  | nil => exact ⟨none, start, .nowhere⟩
  | cons path paths ih =>
    cases h : world.isFile path start with
    | mk answer next =>
      cases answer with
      | true => exact ⟨some path, next, .here h⟩
      | false =>
        obtain ⟨found, stop, hlater⟩ := ih next
        exact ⟨found, stop, .later h hlater⟩

theorem userDirectory_of_hasDirectory {directory : Option String}
    (h : HasDirectory world start directory stop) :
    userDirectory world start = (directory, stop) := by
  cases h with
  | said h =>
    simp only [userDirectory, bind, StateT.bind, directoryVariable, h]
    rfl
  | inHome h hhome =>
    simp only [userDirectory, bind, StateT.bind, directoryVariable, h, hhome]
    rfl

theorem exists_hasDirectory (world : World (StateM σ)) (start : σ) :
    ∃ directory stop, HasDirectory world start directory stop := by
  cases h : world.environment "SNIPPET_REVIEW_CONFIG_DIR" start with
  | mk said next =>
    cases said with
    | some directory => exact ⟨some directory, next, .said h⟩
    | none => exact ⟨_, (world.home next).2, .inHome h rfl⟩

theorem locate_of_locates (h : Locates world named start found stop) :
    locate world named start = (found, stop) := by
  cases h with
  | named => rfl
  | searched hworking hdirectory hfinds =>
    simp only [locate, bind, StateT.bind, hworking, userDirectory_of_hasDirectory hdirectory]
    exact firstFile_of_findsFile hfinds

theorem exists_locates (world : World (StateM σ)) (named : Option String) (start : σ) :
    ∃ found stop, Locates world named start found stop := by
  cases named with
  | some path => exact ⟨some path, start, .named⟩
  | none =>
    cases hworking : world.workingDirectory start with
    | mk working next =>
      obtain ⟨directory, later, hdirectory⟩ := exists_hasDirectory world next
      obtain ⟨found, stop, hfinds⟩ := exists_findsFile world
        ([join working "snippet-review.toml", join working ".snippet-review.toml"] ++
          directory.toList.map fun directory => join directory "config.toml") later
      exact ⟨found, stop, .searched hworking hdirectory hfinds⟩

theorem load_of_loads {configured : Option Config} (h : Loads world named start configured stop) :
    ∃ loaded, load world named start = (loaded, stop) ∧ loaded.toOption = configured := by
  cases h with
  | unset hlocates =>
    refine ⟨.ok .unset, ?_, rfl⟩
    simp only [load, bind, StateT.bind, locate_of_locates hlocates]
    rfl
  | @unreadable path fault next _ hlocates hread =>
    refine ⟨interpret path (.error fault), ?_, rfl⟩
    simp only [load, bind, StateT.bind, locate_of_locates hlocates, hread]
    rfl
  | @malformed path text fault next _ hlocates hread hconfig
  | @configured path text config next _ hlocates hread hconfig =>
    refine ⟨interpret path (.ok text), ?_, ?_⟩
    · simp only [load, bind, StateT.bind, locate_of_locates hlocates, hread]
      rfl
    · rw [interpret, hconfig]
      rfl

theorem exists_loads (world : World (StateM σ)) (named : Option String) (start : σ) :
    ∃ configured stop, Loads world named start configured stop := by
  obtain ⟨found, next, hlocates⟩ := exists_locates world named start
  cases found with
  | none => exact ⟨_, next, .unset hlocates⟩
  | some path =>
    cases hread : world.read path next with
    | mk contents stop =>
      cases contents with
      | error fault => exact ⟨none, stop, .unreadable hlocates hread⟩
      | ok text =>
        cases hconfig : Wire.readConfig text with
        | error fault => exact ⟨none, stop, .malformed hlocates hread hconfig⟩
        | ok config => exact ⟨some config, stop, .configured hlocates hread hconfig⟩

/-- **What is loaded.**  From each state of a world, the relation holds of one configuration, or of
none, and of one state behind it. -/
theorem loads_iff {configured : Option Config} :
    Loads world named start configured stop ↔
      ((load world named start).1.toOption, (load world named start).2) = (configured, stop) :=
  allows_iff (exists_loads world named start) fun _ _ => load_of_loads

end ConfigFile

/-! ## Texts -/

/-- Whether a path is `-`, perhaps with steps behind it that lead nowhere. -/
def IsDash (path : String) : Prop :=
  ∃ more, path.toList.splitOn '/' = ['-'] :: more ∧ ∀ step ∈ more, step = [] ∨ step = ['.']

/-- The text of a run, if it can be read. -/
inductive ReadsText (world : World (StateM σ)) :
    Option String → σ → Option (List Char) → σ → Prop where
  /-- The text is in a file. -/
  | file {path : String} {contents : Except FileFault String} {start stop : σ}
      (hpath : ¬ IsDash path) (hread : world.read path start = (contents, stop)) :
      ReadsText world (some path) start (contents.toOption.map String.toList) stop
  /-- No file is named, or its name is a dash. -/
  | input {named : Option String} {contents : Except FileFault String} {start stop : σ}
      (hnamed : ∀ path ∈ named, IsDash path) (hread : world.input start = (contents, stop)) :
      ReadsText world named start (contents.toOption.map String.toList) stop

theorem isInput_iff (path : String) : isInput path = true ↔ IsDash path := by
  rw [isInput, IsDash]
  split
  · next more hsteps =>
    simp [hsteps]
  · next hother =>
    simp only [Bool.false_eq_true, false_iff]
    rintro ⟨more, hsteps, -⟩
    exact hother more hsteps

theorem readText_of_readsText {text : Option (List Char)}
    (h : ReadsText world named start text stop) :
    ∃ read, readText world named start = (read, stop) ∧ read.toOption = text := by
  cases h with
  | @file path contents _ _ hpath hread =>
    have hinput : isInput path = false := Bool.eq_false_iff.mpr (mt (isInput_iff path).mp hpath)
    have hname : (some path).filter (fun path => !isInput path) = some path := by simp [hinput]
    cases contents with
    | error fault =>
      refine ⟨.error ⟨"Failed to read " ++ path, [fault.message]⟩, ?_, rfl⟩
      simp only [readText, hname, bind, StateT.bind, hread]
      rfl
    | ok text =>
      refine ⟨.ok text.toList, ?_, rfl⟩
      simp only [readText, hname, bind, StateT.bind, hread]
      rfl
  | @input _ contents _ _ hnamed hread =>
    have hname : named.filter (fun path => !isInput path) = none := by
      rw [Option.filter_eq_none_iff]
      intro path hpath
      simp [(isInput_iff path).mpr (hnamed path hpath)]
    cases contents with
    | error fault =>
      refine ⟨.error ⟨"Failed to read stdin", [fault.message]⟩, ?_, rfl⟩
      simp only [readText, hname, bind, StateT.bind, hread]
      rfl
    | ok text =>
      refine ⟨.ok text.toList, ?_, rfl⟩
      simp only [readText, hname, bind, StateT.bind, hread]
      rfl

theorem exists_readsText (world : World (StateM σ)) (named : Option String) (start : σ) :
    ∃ text stop, ReadsText world named start text stop := by
  cases named with
  | none => exact ⟨_, _, .input (fun _ => nofun) rfl⟩
  | some path =>
    by_cases hpath : IsDash path
    · exact ⟨_, _, .input (by rintro _ ⟨⟩; exact hpath) rfl⟩
    · exact ⟨_, _, .file hpath rfl⟩

/-- **What is read.**  From each state of a world, the relation holds of one text, or of none, and of
one state behind it. -/
theorem readsText_iff {text : Option (List Char)} :
    ReadsText world named start text stop ↔
      ((readText world named start).1.toOption, (readText world named start).2) = (text, stop) :=
  allows_iff (exists_readsText world named start) fun _ _ => readText_of_readsText

end CommandLine
end LineLint
