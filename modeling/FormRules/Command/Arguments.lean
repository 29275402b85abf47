/-!
# Arguments

What is asked for on the command line. The options that all commands share may stand before or after
the name of the command, and after it they count. No option may be given twice on one side of the
name, and after two dashes nothing is an option.
-/

namespace FormRules.Command

inductive Format where
  | text
  | json
deriving DecidableEq, Repr

inductive Task where
  | check (artifact : String) (config : Option String) (firstError : Bool)
  | parse (expression : String)
  | order (artifact : String)
  | infer (artifact expression : String)
deriving DecidableEq, Repr

structure Invocation where
  format : Format
  quiet : Bool
  task : Task
deriving DecidableEq, Repr

inductive Request where
  | run (invocation : Invocation)
  | version
  | help
  | misuse
deriving DecidableEq, Repr

/-- What an argument says, together with the one after it if that is its value. -/
inductive Item where
  | switch (name : String)
  | option (name value : String)
  | operand (text : String)
deriving DecidableEq, Repr

/-- The names that are known on one side of the name of the command. -/
structure Grammar where
  switches : List String
  options : List String
  operands : List String

namespace Grammar

/-- Before the name of the command. -/
def root : Grammar := ⟨["quiet", "help", "version"], ["output"], []⟩

def ofCommand? : String → Option Grammar
  | "check" => some ⟨["quiet", "help", "first-error"], ["output", "config"], ["artifact"]⟩
  | "parse" => some ⟨["quiet", "help"], ["output"], ["expression"]⟩
  | "order" => some ⟨["quiet", "help"], ["output"], ["artifact"]⟩
  | "infer" => some ⟨["quiet", "help"], ["output"], ["artifact", "expression"]⟩
  | _ => none

/-- What an argument says, given those after it, and whether it takes the next one as its value. -/
def item? (g : Grammar) (argument : String) (rest : List String) : Option (Item × Bool) :=
  match argument.toList with
  | '-' :: '-' :: long =>
    let name := String.ofList (long.takeWhile (· ≠ '='))
    match long.dropWhile (· ≠ '=') with
    | _ :: value =>
      if name ∈ g.options then some (.option name (String.ofList value), false) else none
    | [] =>
      if name ∈ g.switches then some (.switch name, false)
      else if name ∈ g.options then
        match rest with
        | value :: _ =>
          if value = "-" ∨ value.toList.head? ≠ some '-' then some (.option name value, true)
          else none
        | [] => none
      else none
  | '-' :: short :: _ =>
    if short = 'h' then some (.switch "help", false)
    else if short = 'V' ∧ "version" ∈ g.switches then some (.switch "version", false)
    else none
  | _ => some (.operand argument, false)

end Grammar

abbrev Settings := List (String × String)

namespace Settings

/-- Sets a name that has not been set. Only the format has a fixed choice of values, and a path is
never empty. -/
def set? (settings : Settings) (name value : String) : Option Settings :=
  if (settings.lookup name).isSome then none
  else if name = "output" ∧ value ≠ "text" ∧ value ≠ "json" then none
  else if (name = "config" ∨ name = "artifact") ∧ value = "" then none
  else some (settings ++ [(name, value)])

def operand? (g : Grammar) (settings : Settings) (value : String) : Option Settings :=
  match g.operands.find? fun name ↦ (settings.lookup name).isNone with
  | some name => settings.set? name value
  | none => none

/-- What is set on either side of the name of the command. -/
def invocation? (before after : Settings) (command : String) : Option Invocation := do
  let task ←
    match command with
    | "check" =>
      some (.check (← after.lookup "artifact") (after.lookup "config")
        (after.lookup "first-error").isSome)
    | "parse" => some (.parse (← after.lookup "expression"))
    | "order" => some (.order (← after.lookup "artifact"))
    | _ => some (.infer (← after.lookup "artifact") (← after.lookup "expression"))
  let output := (after.lookup "output").or (before.lookup "output")
  let quiet := (after.lookup "quiet").or (before.lookup "quiet")
  return ⟨if output = some "json" then .json else .text, quiet.isSome, task⟩

end Settings

/-- What the arguments after the name of a command ask for. -/
def afterCommand (g : Grammar) (finish : Settings → Option Invocation) (settings : Settings) :
    List String → Request
  | [] => ((finish settings).map .run).getD .misuse
  | argument :: rest =>
    if argument = "--" then
      let settings := rest.foldlM (Settings.operand? g) settings
      ((settings.bind finish).map .run).getD .misuse
    else
      match g.item? argument rest with
      | none => .misuse
      | some (.switch name, _) =>
        if name = "help" then .help
        else
          match settings.set? name "" with
          | some settings => afterCommand g finish settings rest
          | none => .misuse
      | some (.operand value, _) =>
        match settings.operand? g value with
        | some settings => afterCommand g finish settings rest
        | none => .misuse
      | some (.option name value, separate) =>
        match settings.set? name value with
        | none => .misuse
        | some settings =>
          match separate, rest with
          | true, _ :: rest => afterCommand g finish settings rest
          | _, rest => afterCommand g finish settings rest

/-- What arguments ask for, of which some have been read. -/
def beforeCommand (settings : Settings) : List String → Request
  | [] => .misuse
  | argument :: rest =>
    match Grammar.root.item? argument rest with
    | none => .misuse
    | some (.switch name, _) =>
      if name = "help" then .help
      else if name = "version" then .version
      else
        match settings.set? name "" with
        | some settings => beforeCommand settings rest
        | none => .misuse
    | some (.option name value, separate) =>
      match settings.set? name value with
      | none => .misuse
      | some settings =>
        match separate, rest with
        | true, _ :: rest => beforeCommand settings rest
        | _, rest => beforeCommand settings rest
    | some (.operand name, _) =>
      if name = "help" then
        match rest with
        | [] => .help
        | [command] =>
          if command = "help" ∨ (Grammar.ofCommand? command).isSome then .help else .misuse
        | _ => .misuse
      else
        match Grammar.ofCommand? name with
        | none => .misuse
        | some g => afterCommand g (fun after ↦ settings.invocation? after name) [] rest

def Request.ofArguments (arguments : List String) : Request := beforeCommand [] arguments

end FormRules.Command
