import JavaAtlas.CommandLine.Address
import JavaAtlas.Settings

/-!
# Command lines

What the arguments of the program ask for. Arguments are read from left to right: options of the program,
the name of a command, then the operands of the command with options among them. Options of the program
may stand before and after the name; what is given after it counts. The first argument that is not
understood, or that asks for the version or for help, decides.
-/

namespace JavaAtlas.CommandLine

inductive Verb where
  | classReport
  | packageReport
  | projectReport
  | stream
  | chain
  | graph
  | serve
  | help
deriving DecidableEq, Repr, Inhabited

namespace Verb

def ofName? (name : String) : Option Verb :=
  [("class", classReport), ("package", packageReport), ("project", projectReport),
    ("stream", stream), ("chain", chain), ("graph", graph), ("serve", serve),
    ("help", help)].lookup name

def operands : Verb → Nat
  | chain => 3
  | serve => 0
  | _ => 1

end Verb

/-- Why reading stops early: the arguments are not understood, or they ask for the version or for help. -/
inductive Stop where
  | usage
  | version
  | help
deriving DecidableEq, Repr, Inhabited

/-- The options, apart from those that stop the reading. -/
inductive Setting where
  | json
  | threads
  | throttle
  | extension
  | fromStream
  | address
deriving DecidableEq, Repr, Inhabited

namespace Setting

/-- The option with a given name, before the name of a command or among the arguments of one. -/
def ofName? (verb? : Option Verb) (name : String) : Option Setting :=
  let general :=
    [("json", json), ("threads", threads), ("throttle-ms", throttle), ("extension", extension)]
  match verb? with
  | some .help => none
  | some .graph => (general ++ [("from-stream", fromStream)]).lookup name
  | some .serve => (general ++ [("addr", address)]).lookup name
  | _ => general.lookup name

/-- Whether an option is a flag, which takes no value. -/
def isFlag (setting : Setting) : Bool :=
  setting == json || setting == fromStream

end Setting

/-- What arguments have given so far: each option at most once, and operands in order. -/
structure Given where
  settings : List (Setting × String) := []
  operands : List String := []
deriving DecidableEq, Repr, Inhabited

/-- How far the arguments have been read: what was given before the name of a command, that name, what was
given since, an option that waits for its value, and whether only operands may follow. -/
structure Progress where
  outer : Given := {}
  verb? : Option Verb := none
  inner : Given := {}
  awaiting? : Option Setting := none
  operandsOnly : Bool := false
deriving DecidableEq, Repr, Inhabited

/-- The natural below a bound that a text spells in decimal, perhaps after a plus sign. -/
def natural? (bound : Nat) (text : String) : Option Nat :=
  let digits := match text.toList with
    | '+' :: rest => rest
    | chars => chars
  let value := Address.valueOf 10 digits
  if !digits.isEmpty && digits.all (fun c => (Address.digit? 10 c).isSome) && value < bound then
    some value
  else none

/-- Whether an option takes a value. -/
def Setting.accepts (setting : Setting) (value : String) : Bool :=
  match setting with
  | .threads | .throttle => (natural? UInt64.size value).isSome
  | .address => Address.isAddress value
  | _ => true

def isOption (argument : String) : Bool :=
  match argument.toList with
  | '-' :: _ :: _ => true
  | _ => false

namespace Progress

/-- What has been given at the level that is being read. -/
def current (progress : Progress) : Given :=
  if progress.verb?.isSome then progress.inner else progress.outer

/-- Progress with something else given at the level that is being read. -/
def withCurrent (progress : Progress) (given : Given) : Progress :=
  if progress.verb?.isSome then { progress with inner := given } else { progress with outer := given }

/-- Progress by an option with its value, which has to be new at its level. -/
def set (progress : Progress) (setting : Setting) (value : String) : Except Stop Progress :=
  let given := progress.current
  if (given.settings.lookup setting).isSome || !setting.accepts value then .error .usage
  else
    .ok { progress.withCurrent { given with settings := given.settings ++ [(setting, value)] } with
      awaiting? := none }

def addOperand (progress : Progress) (verb : Verb) (operand : String) : Except Stop Progress :=
  let given := progress.inner
  if operand == "" || verb.operands ≤ given.operands.length then .error .usage
  else if verb == .help && (Verb.ofName? operand).isNone then .error .usage
  else .ok { progress with inner := { given with operands := given.operands ++ [operand] } }

/-- Progress by an argument that is no option: the name of a command, or an operand. -/
def word (progress : Progress) (argument : String) : Except Stop Progress :=
  match progress.verb? with
  | some verb => progress.addOperand verb argument
  | none =>
    match if progress.operandsOnly then none else Verb.ofName? argument with
    | some verb => .ok { progress with verb? := some verb }
    | none => .error .usage

/-- Progress by an option with a long name, whose value may be attached. -/
def long (progress : Progress) (name : String) (attached? : Option String) :
    Except Stop Progress :=
  match Setting.ofName? progress.verb? name with
  | some setting =>
    match attached? with
    | some value => if setting.isFlag then .error .usage else progress.set setting value
    | none =>
      if setting.isFlag then progress.set setting ""
      else .ok { progress with awaiting? := some setting }
  | none =>
    if attached?.isSome || progress.verb? == some .help then .error .usage
    else if name == "help" then .error .help
    else if name == "version" && progress.verb?.isNone then .error .version
    else .error .usage

/-- Where options with short names stop the reading. -/
def short (progress : Progress) (letter : Option Char) : Stop :=
  if progress.verb? == some .help then .usage
  else if letter == some 'h' then .help
  else if letter == some 'V' && progress.verb?.isNone then .version
  else .usage

def step (progress : Progress) (argument : String) : Except Stop Progress :=
  if progress.operandsOnly then progress.word argument
  else
    match progress.awaiting? with
    | some setting => if isOption argument then .error .usage else progress.set setting argument
    | none =>
      match argument.toList with
      | ['-', '-'] => .ok { progress with operandsOnly := true }
      | '-' :: '-' :: text =>
        let name := String.ofList (text.takeWhile (· != '='))
        match text.dropWhile (· != '=') with
        | [] => progress.long name none
        | _ :: value => progress.long name (some (String.ofList value))
      | '-' :: letter :: _ => .error (progress.short (some letter))
      | _ => progress.word argument

end Progress

inductive Command where
  | classReport (path : String)
  | packageReport (path : String)
  | projectReport (path : String)
  | stream (path : String)
  | chain (path directory root : String)
  | graph (path : String) (fromStream : Bool)
  | serve (address : String)
deriving DecidableEq, Repr, Inhabited

/-- A command with the settings it runs under, and whether its output is JSON. -/
structure Invocation where
  json : Bool
  settings : Settings
  command : Command
deriving DecidableEq, Repr, Inhabited

/-- The value of an option: the one given after the name of the command, else the one before it. -/
def Progress.value? (progress : Progress) (setting : Setting) : Option String :=
  progress.inner.settings.lookup setting <|> progress.outer.settings.lookup setting

def Progress.settings (progress : Progress) : Settings :=
  let plain : Settings := { extension := (progress.value? .extension).getD "java" }
  let paced := plain.withThrottle
    (((progress.value? .throttle).bind (natural? UInt64.size)).getD 0)
  match (progress.value? .threads).bind (natural? UInt64.size) with
  | some threads => paced.withWorkerThreads threads
  | none => paced

/-- The command that the arguments ask for, if its operands are all there. -/
def Progress.command (progress : Progress) : Except Stop Command :=
  match progress.verb?, progress.inner.operands with
  | some .classReport, [path] => .ok (.classReport path)
  | some .packageReport, [path] => .ok (.packageReport path)
  | some .projectReport, [path] => .ok (.projectReport path)
  | some .stream, [path] => .ok (.stream path)
  | some .chain, [path, directory, root] => .ok (.chain path directory root)
  | some .graph, [path] => .ok (.graph path (progress.value? .fromStream).isSome)
  | some .serve, [] => .ok (.serve ((progress.value? .address).getD "127.0.0.1:8080"))
  | some .help, _ => .error .help
  | _, _ => .error .usage

def Invocation.parse (arguments : List String) : Except Stop Invocation := do
  let progress ← arguments.foldlM Progress.step {}
  if progress.awaiting?.isSome then .error .usage
  else
    let command ← progress.command
    return ⟨(progress.value? .json).isSome, progress.settings, command⟩

end JavaAtlas.CommandLine
