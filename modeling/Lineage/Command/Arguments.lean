import Lineage.Document
import Lineage.Normalization

/-!
# Command line arguments

Flags and options in long and short form, one path, and a double dash after which everything
is a path. An option waits for its value until the next argument; what it got is examined as
soon as another argument has been recognised, or at the end.
-/

namespace Lineage.Command

/-! ## Requests -/

structure Request where
  path : String
  format : Format := .d3
  threaded : Bool := false
  workers : Option Nat := none
  strategy : Strategy := .decompose
  strict : Bool := false
  noSkip : Bool := false
  output : Option String := none
  deriving DecidableEq, Repr

inductive Flag where
  | threaded | strict | noSkip | help | version
  deriving DecidableEq, Repr

inductive Setting where
  | path | format | workers | strategy | output
  deriving DecidableEq, Repr

def Flag.shown : Flag → String
  | .threaded => "--threaded"
  | .strict => "--strict"
  | .noSkip => "--no-skip"
  | .help => "--help"
  | .version => "--version"

def Setting.shown : Setting → String
  | .path => "<PATH>"
  | .format => "--format <FORMAT>"
  | .workers => "--workers <WORKERS>"
  | .strategy => "--strategy <STRATEGY>"
  | .output => "--output <OUTPUT>"

inductive Key where
  | raises (flag : Flag)
  | sets (setting : Setting)
  deriving DecidableEq, Repr

def Key.shown : Key → String
  | .raises flag => flag.shown
  | .sets setting => setting.shown

def Key.ofLong? : String → Option Key
  | "threaded" => some (.raises .threaded)
  | "strict" => some (.raises .strict)
  | "no-skip" => some (.raises .noSkip)
  | "help" => some (.raises .help)
  | "version" => some (.raises .version)
  | "format" => some (.sets .format)
  | "workers" => some (.sets .workers)
  | "strategy" => some (.sets .strategy)
  | "output" => some (.sets .output)
  | _ => none

def Key.ofShort? : Char → Option Key
  | 't' => some (.raises .threaded)
  | 'h' => some (.raises .help)
  | 'V' => some (.raises .version)
  | 'o' => some (.sets .output)
  | _ => none

/-! ## Refusals -/

inductive NumberError where
  | noDigits
  | badDigit
  | tooLarge
  deriving DecidableEq, Repr

def NumberError.message : NumberError → String
  | .noDigits => "cannot parse integer from empty string"
  | .badDigit => "invalid digit found in string"
  | .tooLarge => "number too large to fit in target type"

inductive UsageError where
  | unexpected (argument : String)
  | repeated (key : Key)
  | noValue (setting : Setting)
  | badValue (setting : Setting) (value : String)
  | badNumber (value : String) (cause : NumberError)
  | surplusValue (flag : Flag) (value : String)
  | noPath
  deriving DecidableEq, Repr

def UsageError.message : UsageError → String
  | .unexpected argument => "unexpected argument '" ++ argument ++ "' found"
  | .repeated key => "the argument '" ++ key.shown ++ "' cannot be used multiple times"
  | .noValue setting =>
      "a value is required for '" ++ setting.shown ++ "' but none was supplied"
  | .badValue setting value =>
      "invalid value '" ++ value ++ "' for '" ++ setting.shown ++ "'"
  | .badNumber value cause =>
      "invalid value '" ++ value ++ "' for '" ++ Setting.workers.shown ++ "': " ++
        cause.message
  | .surplusValue flag value =>
      "unexpected value '" ++ value ++ "' for '" ++ flag.shown ++
        "' found; no more were expected"
  | .noPath => "the following required arguments were not provided:"

inductive Stop where
  | usage (cause : UsageError)
  | help
  | version
  deriving DecidableEq, Repr

/-! ## Values -/

def maxWorkers : Nat := UInt64.size - 1

def readDigits? (value : Nat) : List Char → Except NumberError Nat
  | [] => .ok value
  | c :: rest =>
      if !c.isDigit then .error .badDigit
      else
        let value := value * 10 + (c.toNat - '0'.toNat)
        if maxWorkers < value then .error .tooLarge else readDigits? value rest

def readNumber? (text : String) : Except NumberError Nat :=
  match text.toList with
  | [] => .error .noDigits
  | ['+'] => .error .badDigit
  | '+' :: digits => readDigits? 0 digits
  | digits => readDigits? 0 digits

def readFormat? : String → Option Format
  | "d3" => some .d3
  | "vizjs" => some .vizjs
  | "json" => some .json
  | _ => none

def readStrategy? : String → Option Strategy
  | "decompose" => some .decompose
  | "verbatim" => some .verbatim
  | _ => none

/-! ## Reading -/

/-- What has been read. A setting has its value examined before it is stored. -/
structure Draft where
  path : Option String := none
  format : Option Format := none
  workers : Option Nat := none
  strategy : Option Strategy := none
  output : Option String := none
  threaded : Bool := false
  strict : Bool := false
  noSkip : Bool := false
  pending : Option (Setting × Option String) := none
  placed : Bool := false

namespace Draft

def has (draft : Draft) : Setting → Bool
  | .path => draft.path.isSome
  | .format => draft.format.isSome
  | .workers => draft.workers.isSome
  | .strategy => draft.strategy.isSome
  | .output => draft.output.isSome

def store (draft : Draft) (setting : Setting) (value : String) : Except UsageError Draft :=
  if draft.has setting then .error (.repeated (.sets setting))
  else
    match setting with
    | .path =>
        if value.isEmpty then .error (.noValue .path)
        else .ok { draft with path := some value }
    | .output =>
        if value.isEmpty then .error (.noValue .output)
        else .ok { draft with output := some value }
    | .format =>
        match readFormat? value with
        | some format => .ok { draft with format := some format }
        | none =>
            .error (if value.isEmpty then .noValue .format else .badValue .format value)
    | .strategy =>
        match readStrategy? value with
        | some strategy => .ok { draft with strategy := some strategy }
        | none =>
            .error (if value.isEmpty then .noValue .strategy else .badValue .strategy value)
    | .workers =>
        match readNumber? value with
        | .ok workers => .ok { draft with workers := some workers }
        | .error cause => .error (.badNumber value cause)

def settle (draft : Draft) : Except UsageError Draft :=
  match draft.pending with
  | none => .ok draft
  | some (setting, none) => .error (.noValue setting)
  | some (setting, some value) => { draft with pending := none }.store setting value

def raise (draft : Draft) (flag : Flag) : Except Stop Draft := do
  let draft ← draft.settle.mapError .usage
  match flag with
  | .threaded =>
      if draft.threaded then throw (.usage (.repeated (.raises flag)))
      else return { draft with threaded := true }
  | .strict =>
      if draft.strict then throw (.usage (.repeated (.raises flag)))
      else return { draft with strict := true }
  | .noSkip =>
      if draft.noSkip then throw (.usage (.repeated (.raises flag)))
      else return { draft with noSkip := true }
  | .help => throw .help
  | .version => throw .version

def name (draft : Draft) (setting : Setting) (value : Option String) : Except Stop Draft := do
  let draft ← draft.settle.mapError .usage
  match value with
  | some value => (draft.store setting value).mapError .usage
  | none => return { draft with pending := some (setting, none) }

def readLong (draft : Draft) (argument : List Char) : Except Stop Draft :=
  let key := String.ofList (argument.takeWhile (· != '='))
  let value :=
    match argument.dropWhile (· != '=') with
    | [] => none
    | _ :: value => some (String.ofList value)
  match Key.ofLong? key with
  | none => throw (.usage (.unexpected ("--" ++ key)))
  | some (.sets setting) => draft.name setting value
  | some (.raises flag) =>
      match value with
      | some value => throw (.usage (.surplusValue flag value))
      | none => draft.raise flag

/-- Short arguments in one word, without their dash. The rest of the word after an option is
its value; an equals sign before the value is dropped. -/
def readShort (draft : Draft) : List Char → Except Stop Draft
  | [] => .ok draft
  | c :: rest =>
      match Key.ofShort? c with
      | none => throw (.usage (.unexpected (String.ofList ['-', c])))
      | some (.sets setting) =>
          match rest with
          | [] => draft.name setting none
          | '=' :: value => draft.name setting (some (String.ofList value))
          | value => draft.name setting (some (String.ofList value))
      | some (.raises flag) => do
          let draft ← draft.raise flag
          draft.readShort rest

def place (draft : Draft) (path : String) : Except Stop Draft :=
  if draft.placed then throw (.usage (.unexpected path))
  else do
    let draft ← draft.settle.mapError .usage
    return { draft with pending := some (.path, some path), placed := true }

def readWord (draft : Draft) (word : String) : Except Stop Draft :=
  match draft.pending with
  | some (setting, none) => .ok { draft with pending := some (setting, some word) }
  | _ => draft.place word

def readArgument (draft : Draft) (argument : String) : Except Stop Draft :=
  match argument.toList with
  | '-' :: '-' :: long => draft.readLong long
  | ['-'] => draft.readWord argument
  | '-' :: short => draft.readShort short
  | _ => draft.readWord argument

def readAll (draft : Draft) : List String → Except Stop Draft
  | [] => .ok draft
  | "--" :: paths => paths.foldlM place draft
  | argument :: rest => do
      let draft ← draft.readArgument argument
      draft.readAll rest

def request (draft : Draft) : Except Stop Request := do
  let draft ← draft.settle.mapError .usage
  match draft.path with
  | none => throw (.usage .noPath)
  | some path =>
      return {
        path
        format := draft.format.getD .d3
        threaded := draft.threaded
        workers := draft.workers
        strategy := draft.strategy.getD .decompose
        strict := draft.strict
        noSkip := draft.noSkip
        output := draft.output }

end Draft

def Request.ofArguments? (arguments : List String) : Except Stop Request := do
  let draft ← Draft.readAll {} arguments
  draft.request

end Lineage.Command
