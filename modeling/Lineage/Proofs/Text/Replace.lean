import Lineage.Proofs.Text.Infix
import Lineage.Text.Replace

/-!
# Replacing marks

A text is read from the left as marks and other characters, and replacing acts on each of these
by itself.  It acts on the parts of a text by themselves, too, where a character that no mark
has divides them, and it leaves alone what holds no mark.
-/

namespace Lineage.Text

variable {fillings : List (List Char × List Char)} {filling : List Char × List Char}
variable {c : Char} {rest text : List Char}

/-! ## One pass over a text -/

theorem replace_eq_substitute (pattern replacement : List Char) :
    replace pattern replacement = substitute [(pattern, replacement)] := by
  have same (skip : Nat) (text : List Char) :
      replaceFrom pattern replacement skip text =
        substituteFrom [(pattern, replacement)] skip text := by
    induction text generalizing skip with
    | nil => cases skip <;> rfl
    | cons c rest ih =>
        cases skip with
        | succ skip => exact ih skip
        | zero =>
            by_cases here : pattern.isPrefixOf (c :: rest) <;>
              simp [replaceFrom, substituteFrom, here, ih]
  funext text
  exact same 0 text

def front? (fillings : List (List Char × List Char)) (text : List Char) :
    Option (List Char × List Char) :=
  fillings.find? fun filling => filling.1.isPrefixOf text

theorem front?_eq_none_iff :
    front? fillings text = none ↔ ∀ filling ∈ fillings, ¬filling.1 <+: text := by
  simp [front?, ← List.isPrefixOf_iff_prefix]

theorem front?_congr {other : List Char}
    (same : ∀ filling ∈ fillings, filling.1 <+: text ↔ filling.1 <+: other) :
    front? fillings text = front? fillings other := by
  induction fillings with
  | nil => rfl
  | cons filling fillings ih =>
      have first : filling.1.isPrefixOf text = filling.1.isPrefixOf other := by
        rw [Bool.eq_iff_iff, List.isPrefixOf_iff_prefix, List.isPrefixOf_iff_prefix]
        exact same filling (.head _)
      have others := ih fun other listed => same other (.tail _ listed)
      simp only [front?] at others ⊢
      rw [List.find?_cons, List.find?_cons, first, others]

@[simp] theorem substitute_nil : substitute fillings [] = [] := rfl

theorem substitute_cons (absent : front? fillings (c :: rest) = none) :
    substitute fillings (c :: rest) = c :: substitute fillings rest := by
  rw [front?] at absent
  simp only [substitute, substituteFrom, absent]

theorem substituteFrom_length (skipped rest : List Char) :
    substituteFrom fillings skipped.length (skipped ++ rest) = substitute fillings rest := by
  induction skipped with
  | nil => rfl
  | cons c skipped ih => exact ih

theorem substitute_mark (found : front? fillings (filling.1 ++ rest) = some filling)
    (nonempty : filling.1 ≠ []) :
    substitute fillings (filling.1 ++ rest) = filling.2 ++ substitute fillings rest := by
  obtain ⟨mark, replacement⟩ := filling
  obtain ⟨c, tail, rfl⟩ := List.exists_cons_of_ne_nil nonempty
  rw [front?, List.cons_append] at found
  simp only [substitute, List.cons_append, substituteFrom, found]
  exact congrArg (replacement ++ ·) (substituteFrom_length tail rest)

theorem substitute_self (filling : List Char × List Char)
    (found : front? fillings filling.1 = some filling) (nonempty : filling.1 ≠ []) :
    substitute fillings filling.1 = filling.2 := by
  rw [← List.append_nil filling.1] at found ⊢
  rw [substitute_mark found nonempty, substitute_nil, List.append_nil]

theorem substitute_induction (nonempty : ∀ filling ∈ fillings, filling.1 ≠ [])
    {motive : List Char → Prop} (nil : motive [])
    (mark : ∀ filling rest, front? fillings (filling.1 ++ rest) = some filling →
      filling ∈ fillings → motive rest → motive (filling.1 ++ rest))
    (other : ∀ c rest, front? fillings (c :: rest) = none → motive rest → motive (c :: rest))
    (text : List Char) : motive text := by
  induction bound : text.length using Nat.strongRecOn generalizing text with
  | ind length ih =>
      cases text with
      | nil => exact nil
      | cons c rest =>
          rw [List.length_cons] at bound
          cases found : front? fillings (c :: rest) with
          | none => exact other c rest found (ih rest.length (by omega) rest rfl)
          | some filling =>
              have listed : filling ∈ fillings := List.mem_of_find?_eq_some found
              have starts := List.find?_some found
              rw [List.isPrefixOf_iff_prefix] at starts
              obtain ⟨after, split⟩ := starts
              have shorter : after.length < length := by
                have lengths := congrArg List.length split
                have positive := List.length_pos_iff.mpr (nonempty filling listed)
                rw [List.length_append, List.length_cons] at lengths
                omega
              rw [← split] at found ⊢
              exact mark filling after found listed (ih after.length shorter after rfl)

/-! ## Parts of a text -/

theorem substitute_of_absent (absent : ∀ filling ∈ fillings, ¬filling.1 <:+: text) :
    substitute fillings text = text := by
  induction text with
  | nil => rfl
  | cons c rest ih =>
      have here : front? fillings (c :: rest) = none :=
        front?_eq_none_iff.mpr fun filling listed starts =>
          absent filling listed starts.isInfix
      rw [substitute_cons here, ih]
      intro filling listed within
      exact absent filling listed (List.infix_cons_iff.mpr (.inr within))

theorem map_substitute_of_absent {lines : List (List Char)}
    (absent : ∀ line ∈ lines, ∀ filling ∈ fillings, ¬filling.1 <:+: line) :
    lines.map (substitute fillings) = lines := by
  rw [List.map_congr_left (g := id), List.map_id]
  exact fun line listed => substitute_of_absent (absent line listed)

theorem replace_of_absent {pattern : List Char} (absent : ¬pattern <:+: text)
    (replacement : List Char) : replace pattern replacement text = text := by
  rw [replace_eq_substitute]
  exact substitute_of_absent (by simp [absent])

theorem substitute_append_cons (nonempty : ∀ filling ∈ fillings, filling.1 ≠ [])
    (foreign : ∀ filling ∈ fillings, c ∉ filling.1) (text rest : List Char) :
    substitute fillings (text ++ c :: rest) =
      substitute fillings text ++ c :: substitute fillings rest := by
  have fronts (text : List Char) : front? fillings (text ++ c :: rest) = front? fillings text :=
    front?_congr fun filling listed => prefix_append_cons_iff (foreign filling listed) _ _
  induction text using substitute_induction nonempty with
  | nil =>
      have here : front? fillings (c :: rest) = none := by
        rw [← List.nil_append (c :: rest), fronts, front?_eq_none_iff]
        intro filling listed
        rw [List.prefix_nil]
        exact nonempty filling listed
      rw [List.nil_append, substitute_cons here, substitute_nil, List.nil_append]
  | mark filling text found listed ih =>
      have found' : front? fillings (filling.1 ++ (text ++ c :: rest)) = some filling := by
        rw [← List.append_assoc, fronts, found]
      rw [List.append_assoc, substitute_mark found' (nonempty filling listed), ih,
        substitute_mark found (nonempty filling listed), List.append_assoc]
  | other d text absent ih =>
      have absent' : front? fillings (d :: (text ++ c :: rest)) = none := by
        rw [← List.cons_append, fronts, absent]
      rw [List.cons_append, substitute_cons absent', ih, substitute_cons absent, List.cons_append]

theorem substitute_joinWith (nonempty : ∀ filling ∈ fillings, filling.1 ≠ [])
    (foreign : ∀ filling ∈ fillings, c ∉ filling.1) (lines : List (List Char)) :
    substitute fillings (joinWith [c] lines) =
      joinWith [c] (lines.map (substitute fillings)) := by
  induction lines with
  | nil => rfl
  | cons line lines ih =>
      cases lines with
      | nil => rfl
      | cons next others =>
          rw [joinWith_cons_cons, List.append_assoc, List.singleton_append,
            substitute_append_cons nonempty foreign, ih]
          simp [joinWith_cons_cons]

/-- A mark that the text does not hold is of no effect. -/
theorem substitute_cons_of_absent (nonempty : ∀ other ∈ fillings, other.1 ≠ [])
    (absent : ¬filling.1 <:+: text) :
    substitute (filling :: fillings) text = substitute fillings text := by
  have fronts {text : List Char} (absent : ¬filling.1 <:+: text) :
      front? (filling :: fillings) text = front? fillings text := by
    have here : filling.1.isPrefixOf text = false := by
      rw [← Bool.not_eq_true, List.isPrefixOf_iff_prefix]
      exact fun starts => absent starts.isInfix
    simp [front?, here]
  induction text using substitute_induction nonempty with
  | nil => rfl
  | mark other text found listed ih =>
      have found' := (fronts absent).trans found
      rw [substitute_mark found' (nonempty other listed),
        substitute_mark found (nonempty other listed),
        ih fun within => absent (within.trans (List.suffix_append _ _).isInfix)]
  | other c text none_here ih =>
      rw [substitute_cons ((fronts absent).trans none_here), substitute_cons none_here,
        ih fun within => absent (List.infix_cons_iff.mpr (.inr within))]

/-! ## Counting -/

/-- Each mark that is replaced takes its own characters away and brings in those of its
replacement. -/
theorem exists_count_replace {pattern : List Char} (nonempty : pattern ≠ [])
    (replacement text : List Char) :
    ∃ marks, (marks = 0 ↔ ¬pattern <:+: text) ∧ ∀ c,
      (replace pattern replacement text).count c + marks * pattern.count c =
        text.count c + marks * replacement.count c := by
  rw [replace_eq_substitute]
  have nonempty' : ∀ filling ∈ [(pattern, replacement)], filling.1 ≠ [] := by simp [nonempty]
  induction text using substitute_induction nonempty' with
  | nil => exact ⟨0, by simp [nonempty], by simp⟩
  | mark filling rest found listed ih =>
      obtain ⟨marks, -, counts⟩ := ih
      obtain rfl := List.mem_singleton.mp listed
      refine ⟨marks + 1, by simp [(List.prefix_append pattern rest).isInfix], ?_⟩
      intro c
      rw [substitute_mark found nonempty, List.count_append, List.count_append,
        Nat.add_mul, Nat.add_mul]
      have rest_counts := counts c
      dsimp only
      omega
  | other d rest absent ih =>
      obtain ⟨marks, zero_iff, counts⟩ := ih
      have here : ¬pattern <+: d :: rest := front?_eq_none_iff.mp absent _ (.head _)
      refine ⟨marks, by simp [zero_iff, List.infix_cons_iff, here], ?_⟩
      intro c
      rw [substitute_cons absent, List.count_cons, List.count_cons]
      have rest_counts := counts c
      omega

end Lineage.Text
