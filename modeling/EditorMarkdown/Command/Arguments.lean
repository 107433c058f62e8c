import EditorMarkdown.Command.Path
import EditorMarkdown.Command.Settings

/-!
The arguments of the command.
-/

namespace EditorMarkdown.Command

inductive Switch where
  | recursive | noFrontMatter | pretty | sample | schema | verbose | quiet
  deriving DecidableEq, Repr

inductive Setting where
  | output | jobs | configuration
  deriving DecidableEq, Repr

inductive Flag where
  | switch (switch : Switch)
  | setting (setting : Setting)
  | help
  | version
  deriving DecidableEq, Repr

def Flag.ofLong? : String → Option Flag
  | "output" => some (.setting .output)
  | "jobs" => some (.setting .jobs)
  | "config" => some (.setting .configuration)
  | "recursive" => some (.switch .recursive)
  | "no-front-matter" => some (.switch .noFrontMatter)
  | "pretty" => some (.switch .pretty)
  | "init" => some (.switch .sample)
  | "schema" => some (.switch .schema)
  | "verbose" => some (.switch .verbose)
  | "quiet" => some (.switch .quiet)
  | "help" => some .help
  | "version" => some .version
  | _ => none

def Flag.ofShort? : Char → Option Flag
  | 'o' => some (.setting .output)
  | 'j' => some (.setting .jobs)
  | 'r' => some (.switch .recursive)
  | 'v' => some (.switch .verbose)
  | 'q' => some (.switch .quiet)
  | 'h' => some .help
  | 'V' => some .version
  | _ => none

inductive Refusal where
  | help
  | version
  | misused
  deriving DecidableEq, Repr

structure Arguments where
  input : Option Path
  switches : List Switch
  settings : List (Setting × String)
  deriving DecidableEq, Repr, Inhabited

namespace Arguments

def empty : Arguments := ⟨none, [], []⟩

def has (switch : Switch) (arguments : Arguments) : Bool := arguments.switches.contains switch

def setting? (setting : Setting) (arguments : Arguments) : Option String :=
  (arguments.settings.find? fun entry => entry.1 = setting).map (·.2)

def output? (arguments : Arguments) : Option Path := (arguments.setting? .output).map Path.mk

def configuration? (arguments : Arguments) : Option Path :=
  (arguments.setting? .configuration).map Path.mk

/-- Whether a text is a whole number of 64 bits; a plus sign may stand before it. -/
def isCount (text : String) : Bool :=
  let digits :=
    match text.toList with
    | '+' :: rest => rest
    | rest => rest
  !digits.isEmpty && digits.all Char.isDigit &&
    digits.foldl (fun value c => value * 10 + (c.toNat - '0'.toNat)) 0 < UInt64.size

def accepts (setting : Setting) (value : String) : Bool :=
  match setting with
  | .jobs => isCount value
  | .output | .configuration => !value.isEmpty

def addInput (value : String) (arguments : Arguments) : Except Refusal Arguments :=
  if arguments.input.isSome || value.isEmpty then .error .misused
  else .ok { arguments with input := some ⟨value⟩ }

def addSwitch (switch : Switch) (arguments : Arguments) : Except Refusal Arguments :=
  if arguments.has switch then .error .misused
  else .ok { arguments with switches := switch :: arguments.switches }

def addSetting (setting : Setting) (value : String) (arguments : Arguments) :
    Except Refusal Arguments :=
  if (arguments.setting? setting).isSome || !accepts setting value then .error .misused
  else .ok { arguments with settings := (setting, value) :: arguments.settings }

/-- Whether an argument names options, so that it cannot be the value of one. -/
def isOption (argument : String) : Bool :=
  argument.toList.head? = some '-' && argument ≠ "-"

/-- What the letters after a dash say: the switches among them, and then the option that the last
one names, with the rest of the letters as its value. -/
private def readLetters (arguments : Arguments) :
    List Char → Except Refusal (Arguments × Option (Setting × List Char))
  | [] => .ok (arguments, none)
  | letter :: rest =>
      match Flag.ofShort? letter with
      | none => .error .misused
      | some .help => .error .help
      | some .version => .error .version
      | some (.switch switch) =>
          match arguments.addSwitch switch with
          | .error refusal => .error refusal
          | .ok arguments => readLetters arguments rest
      | some (.setting setting) => .ok (arguments, some (setting, rest))

private def splitLong (word : List Char) : Option Flag × Option String :=
  let name := word.takeWhile (· ≠ '=')
  let value :=
    match word.dropWhile (· ≠ '=') with
    | [] => none
    | _ :: rest => some (String.ofList rest)
  (Flag.ofLong? (String.ofList name), value)

/-- Reads arguments; after two lone dashes all are inputs. -/
private def readAll (arguments : Arguments) (onlyInputs : Bool) :
    List String → Except Refusal Arguments
  | [] => .ok arguments
  | argument :: rest =>
      if onlyInputs || !isOption argument then
        match arguments.addInput argument with
        | .error refusal => .error refusal
        | .ok arguments => readAll arguments onlyInputs rest
      else if argument = "--" then readAll arguments true rest
      else
        match argument.toList with
        | '-' :: '-' :: word =>
            match splitLong word with
            | (some .help, none) => .error .help
            | (some .version, none) => .error .version
            | (some (.switch switch), none) =>
                match arguments.addSwitch switch with
                | .error refusal => .error refusal
                | .ok arguments => readAll arguments false rest
            | (some (.setting setting), some value) =>
                match arguments.addSetting setting value with
                | .error refusal => .error refusal
                | .ok arguments => readAll arguments false rest
            | (some (.setting setting), none) => readValue arguments setting rest
            | _ => .error .misused
        | _ =>
            match readLetters arguments (argument.toList.drop 1) with
            | .error refusal => .error refusal
            | .ok (arguments, none) => readAll arguments false rest
            | .ok (arguments, some (setting, [])) => readValue arguments setting rest
            | .ok (arguments, some (setting, c :: value)) =>
                let value := if c = '=' then value else c :: value
                match arguments.addSetting setting (String.ofList value) with
                | .error refusal => .error refusal
                | .ok arguments => readAll arguments false rest
where
  readValue (arguments : Arguments) (setting : Setting) : List String → Except Refusal Arguments
    | [] => .error .misused
    | value :: rest =>
        if isOption value then .error .misused
        else
          match arguments.addSetting setting value with
          | .error refusal => .error refusal
          | .ok arguments => readAll arguments false rest

def isComplete (arguments : Arguments) : Bool :=
  !(arguments.has .sample && arguments.has .schema) &&
    !(arguments.has .verbose && arguments.has .quiet) &&
    (arguments.input.isSome || arguments.has .sample || arguments.has .schema)

def ofWords (words : List String) : Except Refusal Arguments :=
  match readAll .empty false words with
  | .error refusal => .error refusal
  | .ok arguments => if arguments.isComplete then .ok arguments else .error .misused

def resolve (arguments : Arguments) (configuration : Configuration) : Settings where
  frontMatter := !arguments.has .noFrontMatter && configuration.frontMatter.getD true
  pretty := arguments.has .pretty || configuration.pretty.getD false
  fixups := configuration.fixups.getD true
  quiet := arguments.has .quiet

end Arguments

end EditorMarkdown.Command
