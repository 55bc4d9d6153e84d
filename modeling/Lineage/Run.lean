import Lineage.Extraction
import Lineage.Pool
import Std.Data.ExtTreeMap

/-!
# Runs over many files

The results of all files are gathered by name, merged in the order of the names, and the
merged graph is handed over once. In a strict run a malformed result ends the run instead.
-/

open Std

namespace Lineage

/-! ## Results by name -/

abbrev Results := ExtTreeMap String FileResult

namespace Results

/-- Of several results under one name the last one counts. -/
def ofList (results : List (String × FileResult)) : Results :=
  results.foldl (fun map result => map.insert result.1 result.2) ∅

def merged (results : Results) : Graph :=
  results.toList.foldl (fun graph result =>
    match result.2 with
    | .ok other => graph.merge other
    | .error _ => graph) ∅

def malformed? (results : Results) : Option (String × ExtractError) :=
  results.toList.findSome? fun result =>
    match result.2 with
    | .ok _ => none
    | .error cause => if cause.isMalformed then some (result.1, cause) else none

end Results

/-! ## Failures -/

inductive RunError where
  | malformed (file : String) (cause : ExtractError)
  | workerLost (lost : Lost)
  | crash (cause : Crash)
  deriving DecidableEq, Repr

def RunError.message : RunError → String
  | .malformed file cause => file ++ ": " ++ cause.message
  | .workerLost lost =>
      s!"Worker lost: expected {lost.expected} results, received {lost.received}"
  | .crash cause => cause.message

/-! ## Running -/

def Delivery.results? {α : Type} (name : α → String) (delivery : Delivery α FileResult) :
    Except RunError Results :=
  match delivery.lost with
  | some lost => .error (.workerLost lost)
  | none => .ok (.ofList (delivery.collected.map fun pair => (name pair.1, pair.2)))

structure Settings where
  dispatch : Dispatch := .sequential
  strict : Bool := false
  deriving DecidableEq, Repr

namespace Settings

variable {α : Type}

/-- The results of all files. `result` is what a file contributes, or `none` if its worker
dies, and `name` is the key of a file. -/
def collect? (settings : Settings) (name : α → String) (result : α → Option FileResult)
    (files : List α) : Except RunError Results :=
  match settings.dispatch.deliver result files with
  | .error cause => .error (.crash cause)
  | .ok delivery => delivery.results? name

def conclude? (settings : Settings) (results : Results) : Except RunError Graph :=
  match settings.strict, results.malformed? with
  | true, some (file, cause) => .error (.malformed file cause)
  | _, _ => .ok results.merged

def graph? (settings : Settings) (name : α → String) (result : α → Option FileResult)
    (files : List α) : Except RunError Graph :=
  settings.collect? name result files >>= settings.conclude?

variable {m : Type → Type} [Monad m] {ρ : Type}

/-- Runs `finish` on a merged graph. Without one it is never reached. -/
def handOver (finish : Graph → m ρ) : Except RunError Graph → m (Except RunError ρ)
  | .error cause => pure (.error cause)
  | .ok graph => Except.ok <$> finish graph

def run (settings : Settings) (name : α → String) (result : α → Option FileResult)
    (files : List α) (finish : Graph → m ρ) : m (Except RunError ρ) :=
  handOver finish (settings.graph? name result files)

/-! ## Any order of events -/

def Collects (settings : Settings) (name : α → String) (result : α → Option FileResult)
    (files : List α) (outcome : Except RunError Results) : Prop :=
  ∃ delivery, settings.dispatch.Delivers result files delivery ∧
    delivery.results? name = outcome

/-- What a run over all files may do. -/
def MayRun (settings : Settings) (name : α → String) (result : α → Option FileResult)
    (files : List α) (finish : Graph → m ρ) (outcome : m (Except RunError ρ)) : Prop :=
  ∃ collected, settings.Collects name result files collected ∧
    handOver finish (collected >>= settings.conclude?) = outcome

end Settings
end Lineage
