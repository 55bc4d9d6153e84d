import Lineage.Document.Record
import Lineage.Proofs.Text.Lines
import Lineage.Proofs.Text.Quoted

/-!
# Records read back

A reader that knows the keys of a record gets its values back.  Marks and line breaks that the
punctuation of a record has no part of lie in a record only where they lie in a value.
-/

namespace Lineage.Record

variable {α : Type} {keys : List String} {bodies values : List (List Char)}

/-! ## Known text -/

theorem after?_append (known rest : List Char) : after? known (known ++ rest) = some rest := by
  induction known with
  | nil => rfl
  | cons c known ih => simp [after?, ih]

theorem afterLines?_append (known rest : List (List Char)) :
    afterLines? known (known ++ rest) = some rest := by
  induction known with
  | nil => rfl
  | cons line known ih => simp [afterLines?, ih]

/-! ## Reading what was written -/

theorem readField?_field {body value : List Char} (written : Text.Quoted.Written body value)
    (key : String) (rest : List Char) :
    readField? key (field key body ++ rest) = some (value, rest) := by
  unfold readField? field
  generalize ": ".toList = colon
  have read := written.readLiteral?_eq rest
  simp only [List.append_assoc, List.cons_append, List.nil_append] at read ⊢
  rw [← List.append_assoc, after?_append]
  exact read

theorem readFields?_fields (written : List.Forall₂ Text.Quoted.Written bodies values)
    {keys : List String} (keyed : keys.length = bodies.length) (rest : List Char) :
    readFields? keys (Text.joinWith ", ".toList (List.zipWith field keys bodies) ++ rest) =
      some (values, rest) := by
  generalize comma : ", ".toList = separator
  induction written generalizing keys with
  | nil =>
      obtain rfl := List.length_eq_zero_iff.mp keyed
      rfl
  | @cons body value bodies values first others ih =>
      obtain ⟨key, keys, rfl⟩ := List.exists_cons_of_length_eq_add_one keyed
      have keyed' : keys.length = bodies.length := Nat.succ.inj keyed
      cases others with
      | nil =>
          obtain rfl := List.length_eq_zero_iff.mp keyed'
          simp [readFields?, readField?_field first]
      | @cons body' value' bodies values second others =>
          obtain ⟨key', keys, rfl⟩ := List.exists_cons_of_length_eq_add_one keyed'
          have read := ih keyed'
          simp only [List.zipWith_cons_cons] at read ⊢
          rw [Text.joinWith_cons_cons, List.append_assoc, List.append_assoc]
          simp only [readFields?, readField?_field first, comma, after?_append,
            Option.bind_eq_bind, Option.bind_some, read]
          rfl

theorem read?_line (written : List.Forall₂ Text.Quoted.Written bodies values)
    (keyed : keys.length = bodies.length) : read? keys (line keys bodies) = some values := by
  unfold read? line
  generalize "        \x7b ".toList = opening
  generalize " \x7d,".toList = closing
  rw [List.append_assoc, after?_append]
  simp only [Option.bind_eq_bind, Option.bind_some, readFields?_fields written keyed]
  rfl

theorem readWhile_append {line? : List Char → Option α} {write : α → List Char}
    (reads : ∀ value, line? (write value) = some value) (values : List α)
    {rest : List (List Char)} (stops : rest.head?.bind line? = none) :
    readWhile line? (values.map write ++ rest) = (values, rest) := by
  induction values with
  | nil =>
      cases rest with
      | nil => rfl
      | cons next rest =>
          have stopped : line? next = none := stops
          simp [readWhile, stopped]
  | cons value values ih => simp [readWhile, reads, ih]

/-! ## Marks in records -/

def punctuation : List Char :=
  ['\x7b', '\x7d', ':', ',', '\'', ' ']

theorem infix_field_iff {part : List Char} (nonempty : part ≠ [])
    (foreign : punctuation.Disjoint part) {key : String} (keyed : key.toList.Disjoint part)
    (body : List Char) : part <:+: field key body ↔ part <:+: body := by
  have colon : (": ".toList).Disjoint part := List.disjoint_of_subset_left (by decide) foreign
  have quote : ['\''].Disjoint part := List.disjoint_of_subset_left (by decide) foreign
  have divides : (key.toList ++ ": ".toList ++ ['\'']).Disjoint part :=
    List.disjoint_append_left.mpr ⟨List.disjoint_append_left.mpr ⟨keyed, colon⟩, quote⟩
  have parts : field key body =
      (key.toList ++ ": ".toList ++ ['\'']) ++ (body ++ ['\'']) := by simp [field]
  rw [parts, Text.infix_block_append_iff nonempty divides,
    Text.infix_append_block_iff nonempty quote]

theorem infix_fields_iff {part : List Char} (nonempty : part ≠ [])
    (foreign : punctuation.Disjoint part)
    (keyed : ∀ key ∈ keys, key.toList.Disjoint part) (paired : keys.length = bodies.length) :
    (∃ text ∈ List.zipWith field keys bodies, part <:+: text) ↔
      ∃ body ∈ bodies, part <:+: body := by
  induction keys generalizing bodies with
  | nil =>
      obtain rfl := List.length_eq_zero_iff.mp paired.symm
      simp
  | cons key keys ih =>
      obtain ⟨body, bodies, rfl⟩ := List.exists_cons_of_length_eq_add_one paired.symm
      have others := ih (fun key listed => keyed key (.tail _ listed)) (Nat.succ.inj paired)
      simp only [List.zipWith_cons_cons, List.exists_mem_cons_iff, others,
        infix_field_iff nonempty foreign (keyed key (.head _))]

theorem infix_line_iff {part : List Char} (nonempty : part ≠ [])
    (foreign : punctuation.Disjoint part)
    (keyed : ∀ key ∈ keys, key.toList.Disjoint part) (paired : keys.length = bodies.length) :
    part <:+: line keys bodies ↔ ∃ body ∈ bodies, part <:+: body := by
  have opens : "        \x7b ".toList ⊆ punctuation := by decide
  have divides : ", ".toList ⊆ punctuation := by decide
  have some_character : ", ".toList ≠ [] := by decide
  have closes : " \x7d,".toList ⊆ punctuation := by decide
  unfold line
  generalize "        \x7b ".toList = opening at opens
  generalize ", ".toList = separator at divides some_character
  generalize " \x7d,".toList = closing at closes
  rw [Text.infix_append_block_iff nonempty (List.disjoint_of_subset_left closes foreign),
    Text.infix_block_append_iff nonempty (List.disjoint_of_subset_left opens foreign),
    Text.infix_joinWith_iff nonempty (List.disjoint_of_subset_left divides foreign)
      some_character,
    infix_fields_iff nonempty foreign keyed paired]

theorem newline_notMem_line (keyed : ∀ key ∈ keys, '\n' ∉ key.toList)
    (paired : keys.length = bodies.length) (unbroken : ∀ body ∈ bodies, '\n' ∉ body) :
    '\n' ∉ line keys bodies := by
  have keyed' : ∀ key ∈ keys, key.toList.Disjoint ['\n'] :=
    fun key listed => List.disjoint_singleton.mpr (keyed key listed)
  rw [← List.singleton_infix_iff, infix_line_iff (by simp) (by decide) keyed' paired]
  rintro ⟨body, listed, within⟩
  exact unbroken body listed ((List.singleton_infix_iff _ _).mp within)

end Lineage.Record
