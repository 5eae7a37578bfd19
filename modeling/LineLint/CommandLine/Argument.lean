/-! # Arguments

The words of a command line are switches, operands, and the name of a command.

A switch has a long form, `--name`, and may have a short one, `-n`.  A flag
stands alone, while a setting has a value: behind an equals sign, right behind
the letter, or in the next word, which then must not look like a switch.
Letters may be joined, as in `-vf json`.  Behind `--` every word is an operand,
and a lone `-` always is one.

`Level.scan` tells the words apart from left to right.  A word that fits nothing
becomes a fault in its place, so that what stands in front of it can still be
acted upon.
-/
namespace LineLint
namespace CommandLine

/-- Switches that stand alone. -/
inductive Flag where
  /-- Asks how to use the program. -/
  | help
  /-- Asks which version it is. -/
  | version
  /-- Asks for more to be said on the way. -/
  | verbose
  /-- Allows an existing file to be overwritten. -/
  | force
  deriving DecidableEq, Repr

/-- Switches that have a value. -/
inductive Setting where
  /-- The configuration to use. -/
  | config
  /-- How the report is shown. -/
  | format
  /-- The dialect to review the snippet as. -/
  | dialect
  /-- The preset to take the rules from. -/
  | preset
  deriving DecidableEq, Repr

/-- What a switch does. -/
inductive Meaning where
  /-- It raises a flag. -/
  | flag (flag : Flag)
  /-- It gives a setting a value. -/
  | setting (setting : Setting)
  deriving DecidableEq, Repr

/-- The name of a setting, which is that of its switch. -/
def Setting.name : Setting → String
  | config => "config"
  | format => "format"
  | dialect => "dialect"
  | preset => "preset"

/-- The name of a flag, which is that of its switch. -/
def Flag.name : Flag → String
  | help => "help"
  | version => "version"
  | verbose => "verbose"
  | force => "force"

/-- A switch. -/
structure Switch where
  /-- What it does. -/
  meaning : Meaning
  /-- The letter of its short form. -/
  letter : Option Char

/-- The name in the long form of a switch. -/
def Switch.name (switch : Switch) : String :=
  match switch.meaning with
  | .flag flag => flag.name
  | .setting setting => setting.name

/-- What is wrong with a command line. -/
inductive UsageFault where
  /-- There is no such switch. -/
  | unknownSwitch (word : String)
  /-- A setting lacks its value. -/
  | missingValue (name : String)
  /-- A flag has a value. -/
  | surplusValue (name : String)
  /-- A switch is given twice. -/
  | repeated (name : String)
  /-- A value does not fit. -/
  | badValue (name value : String)
  /-- There is no place for an operand. -/
  | surplusOperand (word : String)
  /-- There is no such command. -/
  | unknownCommand (word : String)
  /-- No command is given. -/
  | missingCommand
  deriving DecidableEq, Repr

/-- The wording of a fault. -/
def UsageFault.message : UsageFault → String
  | unknownSwitch word => "unexpected switch '" ++ word ++ "'"
  | missingValue name => "'--" ++ name ++ "' needs a value"
  | surplusValue name => "'--" ++ name ++ "' takes no value"
  | repeated name => "'--" ++ name ++ "' is given more than once"
  | badValue name value => "'" ++ value ++ "' is no value for '" ++ name ++ "'"
  | surplusOperand word => "unexpected argument '" ++ word ++ "'"
  | unknownCommand word => "unknown command '" ++ word ++ "'"
  | missingCommand => "a command is needed"

/-- A part of a command line. -/
inductive Item where
  /-- A flag is raised. -/
  | flag (flag : Flag)
  /-- A setting gets a value. -/
  | setting (setting : Setting) (value : String)
  /-- A word that is no switch. -/
  | operand (word : String)
  /-- Something is wrong here. -/
  | fault (fault : UsageFault)
  deriving DecidableEq, Repr

/-- What is understood on one level of a command line. -/
structure Level where
  /-- The switches. -/
  switches : List Switch
  /-- The names of commands, at the first of which the level ends. -/
  commands : List String
  /-- Whether there is a place for an operand. -/
  takesOperand : Bool

/-- A level of a command line, told apart. -/
structure Scan where
  /-- Its parts, in order. -/
  items : List Item
  /-- The command at which the level ends, with the words behind it. -/
  command : Option (String × List String)

/-- A scan with parts in front of it. -/
def Scan.behind (scan : Scan) (items : List Item) : Scan :=
  { scan with items := items ++ scan.items }

/-- The parts in one word of switches, and the setting that still waits for its value. -/
structure Switches where
  /-- The parts. -/
  items : List Item
  /-- The waiting setting. -/
  pending : Option Setting

namespace Level

/-- Reads `name` or `name=value`, the long form of a switch behind its dashes. -/
def readLong (level : Level) (form : List Char) : Switches :=
  let name := String.ofList (form.takeWhile (· != '='))
  let value := match form.dropWhile (· != '=') with
    | _ :: value => some (String.ofList value)
    | [] => none
  match level.switches.find? fun switch => switch.name == name with
  | none => ⟨[.fault (.unknownSwitch ("--" ++ name))], none⟩
  | some switch =>
    match switch.meaning, value with
    | .flag flag, none => ⟨[.flag flag], none⟩
    | .flag flag, some _ => ⟨[.fault (.surplusValue flag.name)], none⟩
    | .setting setting, some value => ⟨[.setting setting value], none⟩
    | .setting setting, none => ⟨[], some setting⟩

/-- Reads short forms behind their dash.  The first setting takes all letters behind it for its
value, less an equals sign in front. -/
def readShort (level : Level) : List Char → Switches
  | [] => ⟨[], none⟩
  | c :: rest =>
    match level.switches.find? fun switch => switch.letter == some c with
    | none => ⟨[.fault (.unknownSwitch ("-" ++ String.singleton c))], none⟩
    | some switch =>
      match switch.meaning with
      | .flag flag =>
        let more := level.readShort rest
        ⟨.flag flag :: more.items, more.pending⟩
      | .setting setting =>
        match rest with
        | [] => ⟨[], some setting⟩
        | '=' :: value => ⟨[.setting setting (String.ofList value)], none⟩
        | value => ⟨[.setting setting (String.ofList value)], none⟩

/-- The form of a switch, as the characters behind its dashes; nothing if the word is an
operand. -/
def readSwitches? (level : Level) (word : String) : Option Switches :=
  match word.toList with
  | '-' :: '-' :: form => some (level.readLong form)
  | '-' :: c :: form => some (level.readShort (c :: form))
  | _ => none

/-- Tells the words of a level apart. -/
def scan (level : Level) : List String → Scan
  | [] => ⟨[], none⟩
  | word :: rest =>
    if word = "--" then ⟨rest.map .operand, none⟩
    else
      match level.readSwitches? word with
      | none =>
        if level.commands.contains word then ⟨[], some (word, rest)⟩
        else (level.scan rest).behind [.operand word]
      | some ⟨items, none⟩ => (level.scan rest).behind items
      | some ⟨items, some setting⟩ =>
        match rest with
        | [] => ⟨items ++ [.fault (.missingValue setting.name)], none⟩
        | value :: rest =>
          if (level.readSwitches? value).isSome then
            ⟨items ++ [.fault (.missingValue setting.name)], none⟩
          else (level.scan rest).behind (items ++ [.setting setting value])

end Level
end CommandLine
end LineLint
