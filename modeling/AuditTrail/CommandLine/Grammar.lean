import AuditTrail.Text.Split
/-!
Grammars of command lines: commands with subcommands, options and words in fixed places. A command
line is read one word at a time into a draft. A value is checked when the next option or placed word
begins, or at the end of its command, so the first mistake that counts is not always the leftmost.
-/
namespace AuditTrail.CommandLine

/-- Why a command line is refused. -/
inductive UsageError where
  | helpWanted
  | nothingGiven
  | noSubcommand
  | unknownSubcommand
  | unknownArgument
  | missingArgument
  | noValue
  | notAChoice
  | repeated
  | surplusValue
  | invalid (message : String)
deriving DecidableEq, Repr

def UsageError.message : UsageError → String
  | helpWanted => "help was asked for"
  | nothingGiven => "a command is needed"
  | noSubcommand => "a subcommand is needed"
  | unknownSubcommand => "there is no such subcommand"
  | unknownArgument => "there is no such argument"
  | missingArgument => "an argument is missing"
  | noValue => "an option has no value"
  | notAChoice => "a value is none of those possible"
  | repeated => "an option is given twice"
  | surplusValue => "an option takes no value"
  | invalid m => m

/-- How an option is used: without a value, with one, or any number of times with one. -/
inductive Usage where
  | switch
  | single
  | many
deriving DecidableEq, Repr

/-- An option or a placed word, and what its value does to the draft. A value may also come from a
variable of the environment. -/
structure Parameter (σ : Type) where
  name : String
  usage : Usage
  fromEnvironment : Option String
  set : String → σ → Except UsageError σ

/-- A command. -/
inductive Grammar (σ : Type) where
  | command (name : String) (options words : List (Parameter σ)) (subcommands : List (Grammar σ))

namespace Grammar

variable {σ : Type}

def name : Grammar σ → String
  | command n _ _ _ => n

def options : Grammar σ → List (Parameter σ)
  | command _ o _ _ => o

/-- The placed words of a command, all of which are needed. -/
def words : Grammar σ → List (Parameter σ)
  | command _ _ w _ => w

/-- The subcommands of a command, one of which is needed if there are any. -/
def subcommands : Grammar σ → List (Grammar σ)
  | command _ _ _ s => s

def subcommand? (g : Grammar σ) (name : String) : Option (Grammar σ) :=
  g.subcommands.find? (·.name = name)

/-- The option of a name, without its hyphens. -/
def option? (g : Grammar σ) (name : String) : Option (Parameter σ) :=
  g.options.find? (·.name = name)

/-- The word that asks for help, where there are subcommands. -/
def helpWord : String := "help"

def helpFor (g : Grammar σ) : List String → UsageError
  | [] => .helpWanted
  | w :: rest =>
    match g.subcommand? w with
    | some sub => helpFor sub rest
    | none => .unknownSubcommand

end Grammar

/-- Where the reading of a command stands. `pending` is a parameter whose value is not checked yet
or still to come, `left` are the placed words to come, and `path` names the subcommands chosen. -/
structure Reading (σ : Type) where
  draft : σ
  given : List String
  pending : Option (Parameter σ × Option String)
  left : List (Parameter σ)
  path : Option (List String)

namespace Reading

variable {σ : Type}

def start (g : Grammar σ) (draft : σ) : Reading σ :=
  ⟨draft, [], none, g.words, none⟩

def isWaiting (r : Reading σ) : Bool :=
  match r.pending with
  | some (_, none) => true
  | _ => false

def take (p : Parameter σ) (value : String) (r : Reading σ) : Except UsageError (Reading σ) :=
  if p.usage ≠ .many && r.given.contains p.name then .error .repeated
  else do
    let draft ← p.set value r.draft
    .ok { r with draft := draft, given := p.name :: r.given }

def settle (r : Reading σ) : Except UsageError (Reading σ) :=
  match r.pending with
  | none => .ok r
  | some (_, none) => .error .noValue
  | some (p, some value) => { r with pending := none }.take p value

/-- Reads an option, with the value attached to it if there is one. -/
def option (g : Grammar σ) (name : String) (attached : Option String) (r : Reading σ) :
    Except UsageError (Reading σ) :=
  match g.option? name, attached with
  | none, some _ => .error (if name = Grammar.helpWord then .surplusValue else .unknownArgument)
  | none, none =>
    if name = Grammar.helpWord then r.settle.bind fun _ => .error .helpWanted
    else .error .unknownArgument
  | some p, attached =>
    match p.usage, attached with
    | .switch, some _ => .error .surplusValue
    | .switch, none => do (← r.settle).take p "true"
    | _, some value => do (← r.settle).take p value
    | _, none => do .ok { (← r.settle) with pending := some (p, none) }

/-- Reads a group of short options. Only the one that asks for help is known. -/
def short (c : Char) (r : Reading σ) : Except UsageError (Reading σ) :=
  if c = 'h' then r.settle.bind fun _ => .error .helpWanted
  else .error .unknownArgument

/-- Reads a word in its place. `literal` tells that everything is a word from here on. -/
def word (g : Grammar σ) (literal : Bool) (w : String) (r : Reading σ) :
    Except UsageError (Reading σ) :=
  match r.left with
  | p :: rest => do
    let r ← r.settle
    .ok { r with pending := some (p, some w), left := rest }
  | [] =>
    if g.subcommands.isEmpty || (literal && (g.subcommand? w).isSome) then .error .unknownArgument
    else .error .unknownSubcommand

def consult (environment : String → Option String) :
    List (Parameter σ) → Reading σ → Except UsageError (Reading σ)
  | [], r => .ok r
  | p :: rest, r =>
    match p.fromEnvironment.bind environment with
    | some value =>
      if r.given.contains p.name then consult environment rest r
      else do consult environment rest (← r.take p value)
    | none => consult environment rest r

def finish (g : Grammar σ) (environment : String → Option String) (r : Reading σ) :
    Except UsageError (Reading σ) := do
  let r ← r.settle
  let r ← consult environment g.options r
  if r.path.isNone && !g.subcommands.isEmpty then
    .error (if r.given.isEmpty then .nothingGiven else .noSubcommand)
  else if g.words.all fun p => r.given.contains p.name then .ok r
  else .error .missingArgument

end Reading

/-- How a word is written: the end of options, a long option with its name and an attached value,
a group of short options, or plainly. -/
inductive WordForm where
  | stop
  | long (name : String) (attached : Option String)
  | short (first : Char)
  | plain
deriving DecidableEq, Repr

/-- The form of a word. A single hyphen is a plain word. -/
def wordForm (w : String) : WordForm :=
  match w.toList with
  | ['-', '-'] => .stop
  | '-' :: '-' :: r =>
    match Split.first? '=' r with
    | some (name, value) => .long (String.ofList name) (some (String.ofList value))
    | none => .long (String.ofList r) none
  | '-' :: c :: _ => .short c
  | _ => .plain

variable {σ : Type}

/-- Reads the words of a command and of the subcommand that they may name. -/
def readWords (environment : String → Option String) :
    List String → Grammar σ → Bool → Reading σ → Except UsageError (Reading σ)
  | [], g, _, r => r.finish g environment
  | w :: rest, g, true, r => do readWords environment rest g true (← r.word g true w)
  | w :: rest, g, false, r =>
    if !r.isWaiting && !g.subcommands.isEmpty && w = Grammar.helpWord then
      .error (g.helpFor rest)
    else
      match if r.isWaiting then none else g.subcommand? w with
      | some sub => do
        let inner ← readWords environment rest sub false (Reading.start sub r.draft)
        let path := w :: inner.path.getD []
        { r with draft := inner.draft, path := some path }.finish g environment
      | none =>
        match wordForm w, r.pending with
        | .stop, _ => readWords environment rest g true r
        | .long name attached, _ => do
          readWords environment rest g false (← r.option g name attached)
        | .short c, _ => do readWords environment rest g false (← r.short c)
        | .plain, some (p, none) =>
          readWords environment rest g false { r with pending := some (p, some w) }
        | .plain, _ => do readWords environment rest g false (← r.word g false w)

/-- Reads a command line: the subcommands that it names and the draft that it fills. -/
def read (g : Grammar σ) (environment : String → Option String) (draft : σ) (args : List String) :
    Except UsageError (List String × σ) := do
  let r ← readWords environment args g false (Reading.start g draft)
  .ok (r.path.getD [], r.draft)

end AuditTrail.CommandLine
