import Lineage.Proofs.Source.Shape

/-!
# Effects of goals

Each goal does something to the phrases that are open, and so to what is known of their parts.  A
rule promises what the goals that answer it will do together; the promise is kept if they do no
less, whatever is known before.
-/

namespace Lineage.Source

/-! ## Order of summaries -/

namespace Summary

variable {summary less : Summary} {kind : NodeKind}

theorem le_refl (summary : Summary) : summary.le summary = true := by
  simp [le]

theorem le_iff : less.le summary = true ↔ less = .unknown ∨ less = summary := by
  rw [le, Bool.or_eq_true, decide_eq_true_iff, decide_eq_true_iff]

theorem le_trans {least : Summary} (h : least.le less = true) (h' : less.le summary = true) :
    least.le summary = true := by
  rw [le_iff] at *
  rcases h with rfl | rfl
  · exact .inl rfl
  · exact h'

theorem add_le_add (h : less.le summary = true) (field : Option Field) (isSpecifier : Bool) :
    (less.add field isSpecifier).le (summary.add field isSpecifier) = true := by
  rcases le_iff.mp h with rfl | rfl
  · rfl
  · exact le_refl _

theorem addInherited_le_addInherited (h : less.le summary = true) :
    less.addInherited.le summary.addInherited = true := by
  rcases le_iff.mp h with rfl | rfl
  · rfl
  · exact le_refl _

theorem ends_of_le (h : less.le summary = true) (ended : less.ends kind = true) :
    summary.ends kind = true := by
  rcases le_iff.mp h with rfl | rfl
  · cases kind <;> first | exact ended | cases ended
  · exact ended

def LeAll (less summaries : List Summary) : Prop :=
  List.Forall₂ (fun less summary => less.le summary = true) less summaries

theorem leAll_refl (summaries : List Summary) : LeAll summaries summaries :=
  List.forall₂_same.mpr fun summary _ => le_refl summary

end Summary

open Summary (LeAll)

/-! ## Effects -/

/-- What is known of a phrase after the goals that answer a rule, at the least. -/
def Rule.promise : Rule → Summary → Summary
  | .type (.whole field), summary => summary.add field false
  | .type .entryTail, _ => .unknown
  | .type .entry, summary => summary.addInherited
  | .declaration .inheritance, summary => summary.addInherited
  | .declaration .entriesTail, summary => summary.addInherited
  | _, summary => summary

/-- What is known of the open phrases after a goal, or nothing if the goal may do harm. -/
def Goal.effect : Goal → List Summary → Option (List Summary)
  | .rule asked, summary :: outer =>
      -- Nothing answers this rule, so that its phrase is never ended.
      if asked = .declaration .lostKeyword then some outer
      else some (asked.promise summary :: outer)
  | .shift terminal field, summary :: outer =>
      if field = some .name ∧ terminal ≠ .name then none
      else some (summary.add field false :: outer)
  | .enter, outer => some (.unnamed :: outer)
  | .leave kind field, summary :: above :: outer =>
      if summary.ends kind then some (above.add field (kind = .inheritanceSpecifier) :: outer)
      else none
  | .adopt, _ :: outer => some (.unknown :: .unknown :: outer)
  | .pause, summary :: outer => some (summary :: outer)
  | _, _ => none

def effects : List Goal → List Summary → Option (List Summary)
  | [], summaries => some summaries
  | goal :: goals, summaries => (goal.effect summaries).bind (effects goals)

variable {goal : Goal} {goals front back answer : List Goal} {rule : Rule} {ahead : Ahead}
variable {summaries after outer : List Summary} {summary : Summary}

theorem effects_append (front back : List Goal) (summaries : List Summary) :
    effects (front ++ back) summaries = (effects front summaries).bind (effects back) := by
  induction front generalizing summaries with
  | nil => rfl
  | cons goal front ih =>
      rw [List.cons_append, effects, effects, Option.bind_assoc]
      exact congrArg _ (funext ih)

theorem Goal.effect_append (done : goal.effect summaries = some after) (outer : List Summary) :
    goal.effect (summaries ++ outer) = some (after ++ outer) := by
  revert done
  fun_cases Goal.effect goal summaries <;> intro done <;> cases done <;> simp_all [effect]

theorem Rule.promise_le_promise {less : Summary} (h : less.le summary = true) (rule : Rule) :
    (rule.promise less).le (rule.promise summary) = true := by
  have inherited := Summary.addInherited_le_addInherited h
  fun_cases promise rule less with
  | case1 field => exact Summary.add_le_add h field false
  | case2 => rfl
  | case3 => exact inherited
  | case4 => exact inherited
  | case5 => exact inherited
  | case6 => simpa only [promise] using h

theorem Goal.effect_of_le {known : List Summary} (done : goal.effect summaries = some after)
    (le : LeAll summaries known) :
    ∃ learnt, goal.effect known = some learnt ∧ LeAll after learnt := by
  revert done
  fun_cases Goal.effect goal summaries <;> intro done <;> cases done
  case case5 => exact ⟨_, rfl, .cons (Summary.le_refl _) le⟩
  case case6 kind field summary above outer ended =>
    obtain _ | ⟨first, _ | ⟨second, others⟩⟩ := le
    refine ⟨_, if_pos (Summary.ends_of_le first ended), ?_⟩
    exact .cons (Summary.add_le_add second _ _) others
  all_goals obtain _ | ⟨first, others⟩ := le
  case case1 => exact ⟨_, rfl, others⟩
  case case2 =>
    exact ⟨_, if_neg ‹_›, .cons (Rule.promise_le_promise first _) others⟩
  case case4 =>
    exact ⟨_, if_neg ‹_›, .cons (Summary.add_le_add first _ _) others⟩
  case case8 =>
    exact ⟨_, rfl, .cons (Summary.le_refl _) (.cons (Summary.le_refl _) others)⟩
  case case9 => exact ⟨_, rfl, .cons first others⟩

theorem effects_of_le {known : List Summary} (done : effects goals summaries = some after)
    (le : LeAll summaries known) :
    ∃ learnt, effects goals known = some learnt ∧ LeAll after learnt := by
  induction goals generalizing summaries known with
  | nil => cases done; exact ⟨known, rfl, le⟩
  | cons goal goals ih =>
      obtain ⟨between, first, rest⟩ := Option.bind_eq_some_iff.mp done
      obtain ⟨learnt, first', le'⟩ := goal.effect_of_le first le
      rw [effects, first', Option.bind_some]
      exact ih rest le'

theorem effects_append_right (done : effects goals summaries = some after)
    (outer : List Summary) : effects goals (summaries ++ outer) = some (after ++ outer) := by
  induction goals generalizing summaries with
  | nil => cases done; rfl
  | cons goal goals ih =>
      obtain ⟨between, first, rest⟩ := Option.bind_eq_some_iff.mp done
      rw [effects, Goal.effect_append first, Option.bind_some]
      exact ih rest

/-! ## Promises -/

/-- The goals do at least so much to the innermost phrase, whatever is known of it, and nothing to
others. -/
def Keeps (promise : Summary → Summary) (goals : List Goal) : Prop :=
  ∀ summary, ∃ after, effects goals [summary] = some [after] ∧
    (promise summary).le after = true

def Summary.all : List Summary := [.unnamed, .named, .unknown]

theorem Summary.mem_all (summary : Summary) : summary ∈ all := by
  cases summary <;> decide

def keeps (promise : Summary → Summary) (goals : List Goal) : Bool :=
  Summary.all.all fun summary =>
    match effects goals [summary] with
    | some [after] => (promise summary).le after
    | _ => false

variable {promise : Summary → Summary}

theorem keeps_iff : keeps promise goals = true ↔ Keeps promise goals := by
  rw [keeps, List.all_eq_true]
  constructor
  · intro kept summary
    have here := kept summary (Summary.mem_all summary)
    split at here
    · exact ⟨_, ‹_›, here⟩
    · cases here
  · intro kept summary _
    obtain ⟨after, done, le⟩ := kept summary
    rw [done]
    exact le

theorem Keeps.append (kept : Keeps id front) (kept' : Keeps id back) : Keeps id (front ++ back) := by
  intro summary
  obtain ⟨between, first, le⟩ := kept summary
  obtain ⟨after, second, le'⟩ := kept' between
  refine ⟨after, ?_, Summary.le_trans le le'⟩
  rw [effects_append, first, Option.bind_some, second]

theorem keeps_replicate_readAny (count : Nat) : Keeps id (List.replicate count .readAny) := by
  induction count with
  | zero => exact keeps_iff.mp rfl
  | succ count ih =>
      have first : Keeps id [.readAny] := keeps_iff.mp rfl
      exact first.append ih

end Lineage.Source
