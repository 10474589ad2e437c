import Microcode.Conversion.Settings
import Microcode.Rendering.Format

namespace Microcode

/-!
The command line.

Arguments are read from left to right.  A long name may carry its value after an
equals sign, a short one right behind itself; otherwise the value is the next
argument.  Short names of switches may share one dash.  Only tags may be named
more than once.
-/

/-- An option without a value. -/
inductive Switch where
  | help
  | version
  | fullWidth
  | strict
  deriving DecidableEq, Repr

/-- An option with a value. -/
inductive Setting where
  | input
  | output
  | format
  | capacity
  | accept
  deriving DecidableEq, Repr

inductive OptionName where
  | switch (switch : Switch)
  | setting (setting : Setting)
  deriving DecidableEq, Repr

namespace OptionName

def ofLong? : String → Option OptionName
  | "help" => some (.switch .help)
  | "version" => some (.switch .version)
  | "full-width" => some (.switch .fullWidth)
  | "strict" => some (.switch .strict)
  | "input" => some (.setting .input)
  | "output" => some (.setting .output)
  | "format" => some (.setting .format)
  | "capacity" => some (.setting .capacity)
  | "accept" => some (.setting .accept)
  | _ => none

def ofShort? : Char → Option OptionName
  | 'h' => some (.switch .help)
  | 'v' => some (.switch .version)
  | 'i' => some (.setting .input)
  | 'o' => some (.setting .output)
  | _ => none

end OptionName

namespace Switch

def longName : Switch → String
  | help => "--help"
  | version => "--version"
  | fullWidth => "--full-width"
  | strict => "--strict"

end Switch

namespace Setting

def longName : Setting → String
  | input => "--input"
  | output => "--output"
  | format => "--format"
  | capacity => "--capacity"
  | accept => "--accept"

end Setting

/-- Why a command line cannot be read. -/
inductive UsageFault where
  | unknown (argument : String)
  | repeated (name : String)
  | missingValue (setting : Setting)
  | unwantedValue (switch : Switch) (value : String)
  | badValue (setting : Setting) (value : String)
  deriving DecidableEq, Repr

def UsageFault.message : UsageFault → String
  | unknown argument => s!"unexpected argument {Quoted.text argument}"
  | repeated name => s!"{name} may be given only once"
  | missingValue setting => s!"{setting.longName} needs a value"
  | unwantedValue switch value => s!"{switch.longName} takes no value such as {Quoted.text value}"
  | badValue setting value => s!"invalid value {Quoted.text value} for {setting.longName}"

structure Options where
  version : Bool := false
  fullWidth : Bool := false
  strict : Bool := false
  input : Option String := none
  output : Option String := none
  format : Option Format := none
  capacity : Option (Fin capacityBound) := none
  /-- The tags to accept besides the standard ones, in the order given. -/
  accepted : List String := []
  deriving DecidableEq, Repr

namespace Options

def settings (options : Options) : Settings :=
  let capacity := options.capacity.getD (.ofNat capacityBound Store.standardLimit)
  { capacity := capacity
    strictness := if options.strict then .strict else .lenient
    accepted := options.accepted.foldl TagSet.insert .standard
    capacity_lt := capacity.isLt }

def outputFormat (options : Options) : Format :=
  options.format.getD .vhdl

def width (options : Options) : Width :=
  if options.fullWidth then .full else .meaningful

/-- Why reading stops before the last argument. -/
inductive Stop where
  | fault (fault : UsageFault)
  /-- Help was asked for, and nothing before that was wrong. -/
  | help
  deriving DecidableEq, Repr

def turnOn (options : Options) (switch : Switch) : Except Stop Options :=
  let repeated := .error (.fault (.repeated switch.longName))
  match switch with
  | .help => .error .help
  | .version => if options.version then repeated else .ok { options with version := true }
  | .fullWidth => if options.fullWidth then repeated else .ok { options with fullWidth := true }
  | .strict => if options.strict then repeated else .ok { options with strict := true }

def capacity? (value : String) : Option (Fin capacityBound) :=
  (Unsigned.parse? 10 capacityBound value).map (.ofNat capacityBound)

def set (options : Options) (setting : Setting) (value : String) : Except Stop Options :=
  let repeated := .error (.fault (.repeated setting.longName))
  let bad := .error (.fault (.badValue setting value))
  match setting with
  | .input =>
      if options.input.isSome then repeated else .ok { options with input := some value }
  | .output =>
      if options.output.isSome then repeated else .ok { options with output := some value }
  | .format =>
      if options.format.isSome then repeated
      else
        match Format.ofName? value with
        | none => bad
        | some format => .ok { options with format := some format }
  | .capacity =>
      if options.capacity.isSome then repeated
      else
        match capacity? value with
        | none => bad
        | some capacity => .ok { options with capacity := some capacity }
  | .accept => .ok { options with accepted := options.accepted ++ [value] }

/-- The state of reading between two arguments. -/
structure Reading where
  options : Options := {}
  /-- The option whose value the next argument has to be. -/
  awaited : Option Setting := none
  /-- Two dashes alone were read, after which nothing may follow. -/
  closed : Bool := false

/-- Read an argument that starts with two dashes, without them. -/
def readLong (options : Options) (argument : String) (text : List Char) :
    Except Stop Reading := do
  let name := text.takeWhile (· != '=')
  let value? :=
    match text.dropWhile (· != '=') with
    | [] => none
    | _ :: value => some (String.ofList value)
  match OptionName.ofLong? (String.ofList name), value? with
  | none, _ => .error (.fault (.unknown argument))
  | some (.switch switch), some value => .error (.fault (.unwantedValue switch value))
  | some (.switch switch), none => return { options := ← options.turnOn switch }
  | some (.setting setting), some value => return { options := ← options.set setting value }
  | some (.setting setting), none => return { options := options, awaited := some setting }

/-- Read the short names behind a single dash, up to one that takes a value. -/
def readShort (options : Options) (argument : String) : List Char → Except Stop Reading
  | [] => .ok { options := options }
  | name :: rest =>
      match OptionName.ofShort? name with
      | none => .error (.fault (.unknown argument))
      | some (.switch switch) => do
          let options ← options.turnOn switch
          readShort options argument rest
      | some (.setting setting) =>
          match rest with
          | [] => .ok { options := options, awaited := some setting }
          | '=' :: value => return { options := ← options.set setting (String.ofList value) }
          | value => return { options := ← options.set setting (String.ofList value) }

/-- Read an argument that cannot name an option. -/
def readPlain (reading : Reading) (argument : String) : Except Stop Reading :=
  match reading.awaited with
  | none => .error (.fault (.unknown argument))
  | some setting => return { options := ← reading.options.set setting argument }

/-- Read one argument.  A lone dash is no option, so it can be a value. -/
def readArgument (reading : Reading) (argument : String) : Except Stop Reading :=
  if reading.closed then .error (.fault (.unknown argument))
  else
    match argument.toList, reading.awaited with
    | '-' :: _ :: _, some setting => .error (.fault (.missingValue setting))
    | ['-', '-'], none => .ok { reading with closed := true }
    | '-' :: '-' :: text, none => readLong reading.options argument text
    | '-' :: name :: names, none => readShort reading.options argument (name :: names)
    | _, _ => readPlain reading argument

def ofArguments (arguments : List String) : Except Stop Options := do
  let reading ← arguments.foldlM readArgument {}
  match reading.awaited with
  | some setting => .error (.fault (.missingValue setting))
  | none => return reading.options

end Options

end Microcode
