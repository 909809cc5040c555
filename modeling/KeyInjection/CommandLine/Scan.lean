-- SUMMARY: Options and arguments on a command line.

/-!
# Scanning command lines

An argument that starts with a dash is an option, unless it is a dash alone or stands behind two
dashes. An option is a switch, or takes a value that it is given after an equals sign or as the
next argument; values that are no good are refused at once, and so is an option that was given
before. All other arguments are positional. The first that is one too many ends the scan, which is
how a command with arguments of its own is found.
-/

namespace KeyInjection.CommandLine

/-- Why a command line is not obeyed. -/
inductive Refusal where
  | help
  | misuse (reason : String)
  deriving DecidableEq, Repr

/-- An option: its name, and which values it may be given if it takes one. -/
structure OptionForm where
  name : String
  accepts : Option (String → Bool)

def OptionForm.switch (name : String) : OptionForm := ⟨name, none⟩

def OptionForm.valued (name : String) (accepts : String → Bool) : OptionForm := ⟨name, some accepts⟩

/-- The options a command knows, and how many positional arguments it takes. -/
structure Form where
  options : List OptionForm
  arguments : Nat

/-- What a scan has found: options with their values, and positional arguments, the latest first. -/
structure Given where
  options : List (String × String) := []
  arguments : List String := []
  deriving DecidableEq, Repr

namespace Given

def value? (g : Given) (name : String) : Option String := g.options.lookup name

def has (g : Given) (name : String) : Bool := (g.value? name).isSome

def argument (g : Given) (n : Nat) : String := g.arguments.reverse.getD n ""

/-- Takes down an option that was not given before. -/
def give (g : Given) (o : OptionForm) (value : String) : Except Refusal Given :=
  if g.has o.name then .error (.misuse s!"the option '--{o.name}' is given twice")
  else .ok { g with options := (o.name, value) :: g.options }

def giveValue (g : Given) (o : OptionForm) (value : String) : Except Refusal Given :=
  match o.accepts with
  | some accepts =>
    if accepts value then g.give o value
    else .error (.misuse s!"the value '{value}' is no good for '--{o.name}'")
  | none => .error (.misuse s!"the option '--{o.name}' takes no value")

end Given

namespace Form

def isOption (argument : String) : Bool := argument.startsWith "-" && argument != "-"

/-- The name and the value that a long option is written with. -/
def splitOption (argument : String) : String × Option String :=
  let text := argument.toList.drop 2
  match text.dropWhile (· != '=') with
  | _ :: value => (String.ofList (text.takeWhile (· != '=')), some (String.ofList value))
  | [] => (String.ofList text, none)

/-- Looks at an option: what is given with it, and whether its value is the next argument. -/
def takeOption (f : Form) (g : Given) (argument : String) :
    Except Refusal (Given × Option OptionForm) :=
  if !argument.startsWith "--" then
    if argument.startsWith "-h" then .error .help
    else .error (.misuse s!"there is no option '{argument}'")
  else if argument = "--help" then .error .help
  else
    let (name, value) := splitOption argument
    match f.options.find? (·.name = name), value with
    | none, _ => .error (.misuse s!"there is no option '--{name}'")
    | some o, some value => (g.giveValue o value).map (·, none)
    | some o, none =>
      if o.accepts.isSome then .ok (g, some o) else (g.give o "").map (·, none)

/-- Scans arguments, the first of which may be the value of an option; gives what was found, and the
arguments from the first that is one too many. -/
def scanAfter (f : Form) (g : Given) : Option OptionForm → List String →
    Except Refusal (Given × List String)
  | none, [] => .ok (g, [])
  | some o, [] => .error (.misuse s!"the option '--{o.name}' lacks its value")
  | some o, argument :: rest =>
    if isOption argument then .error (.misuse s!"the option '--{o.name}' lacks its value")
    else do f.scanAfter (← g.giveValue o argument) none rest
  | none, argument :: rest =>
    if argument = "--" then
      if g.arguments.length + rest.length ≤ f.arguments then
        .ok ({ g with arguments := rest.reverse ++ g.arguments }, [])
      else .error (.misuse "there are too many arguments")
    else if isOption argument then do
      let (g, awaited) ← f.takeOption g argument
      f.scanAfter g awaited rest
    else if g.arguments.length < f.arguments then
      f.scanAfter { g with arguments := argument :: g.arguments } none rest
    else .ok (g, argument :: rest)

def scan (f : Form) (arguments : List String) : Except Refusal (Given × List String) :=
  f.scanAfter {} none arguments

/-- Scans arguments that must all be used, and none may lack. -/
def scanAll (f : Form) (arguments : List String) : Except Refusal Given := do
  match ← f.scan arguments with
  | (g, []) =>
    if g.arguments.length < f.arguments then throw (.misuse "there are too few arguments")
    return g
  | (_, extra :: _) => throw (.misuse s!"the argument '{extra}' is one too many")

end Form

end KeyInjection.CommandLine
