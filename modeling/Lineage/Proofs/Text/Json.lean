import Lineage.Text.Json
import Mathlib.Data.List.Basic

/-!
# Reading JSON back

Every character of a string is written in a way that the reader takes for that character, and
every value in a way that the reader takes for that value, whatever is written after it.  What
is read back is therefore the value that was printed.
-/

namespace Lineage.Json

variable {depth outer fuel : Nat} {text rest : List Char}

/-! ## Strings -/

theorem hexValue?_hexDigit {n : Nat} (bound : n < 16) : hexValue? (hexDigit n) = some n := by
  decide +revert

theorem readNumericEscape?_control {n : Nat} (bound : n < 0x20) (rest : List Char) :
    readNumericEscape? ('0' :: '0' :: hexDigit (n / 16) :: hexDigit (n % 16) :: rest) =
      some (Char.ofNat n, rest) := by
  have high := hexValue?_hexDigit (show n / 16 < 16 by omega)
  have low := hexValue?_hexDigit (show n % 16 < 16 by omega)
  have zero : hexValue? '0' = some 0 := rfl
  have unit : n / 16 * 16 + n % 16 = n := by omega
  have below : ¬0xD800 ≤ n := by omega
  have below' : ¬0xDC00 ≤ n := by omega
  simp [readNumericEscape?, readUnit?, high, low, zero, unit, below, below']

theorem readStringChar?_escapeChar (c : Char) (rest : List Char) :
    readStringChar? (escapeChar c ++ rest) = some (some c, rest) := by
  unfold escapeChar
  split
  case h_8 =>
      split
      case isTrue control =>
          simp [readStringChar?, readNumericEscape?_control control]
      case isFalse printed =>
          rw [List.singleton_append, readStringChar?, if_neg printed]
          all_goals simp_all
  all_goals rfl

theorem readStringBody?_flatMap_escapeChar (value rest : List Char)
    (enough : value.length < fuel) :
    readStringBody? fuel (value.flatMap escapeChar ++ '"' :: rest) = some (value, rest) := by
  induction value generalizing fuel with
  | nil =>
      cases fuel with
      | zero => contradiction
      | succ fuel => simp [readStringBody?, readStringChar?]
  | cons c value ih =>
      cases fuel with
      | zero => contradiction
      | succ fuel =>
          rw [List.flatMap_cons, List.append_assoc, readStringBody?,
            readStringChar?_escapeChar]
          simp [ih (Nat.lt_of_succ_lt_succ enough)]

theorem length_le_length_flatMap_escapeChar (value : List Char) :
    value.length ≤ (value.flatMap escapeChar).length := by
  induction value with
  | nil => simp
  | cons c value ih =>
      have escaped : 0 < (escapeChar c).length := by
        unfold escapeChar
        split
        case h_8 => split <;> simp
        all_goals simp
      simp only [List.flatMap_cons, List.length_append, List.length_cons]
      omega

theorem readString?_quote (value : String) (rest : List Char) :
    readString? (quote value ++ rest) = some (value, rest) := by
  have longer := length_le_length_flatMap_escapeChar value.toList
  have read := readStringBody?_flatMap_escapeChar value.toList rest
    (show value.toList.length <
        (value.toList.flatMap escapeChar ++ '"' :: rest).length + 1 by
      rw [List.length_append]
      omega)
  simp only [quote, List.cons_append, List.append_assoc, List.nil_append, readString?, read]
  simp

/-! ## Blanks -/

theorem skipBlanks_cons {c : Char} (visible : isBlank c = false) (rest : List Char) :
    skipBlanks (c :: rest) = c :: rest := by
  simp [skipBlanks, visible]

theorem skipBlanks_space (rest : List Char) : skipBlanks (' ' :: rest) = skipBlanks rest :=
  rfl

theorem skipBlanks_newLine (depth : Nat) (rest : List Char) :
    skipBlanks (newLine depth ++ rest) = skipBlanks rest := by
  have blanks : ∀ c ∈ newLine depth, isBlank c := by
    simp [newLine, isBlank]
  exact List.dropWhile_append_of_pos blanks

/-! ## Numbers -/

theorem isNumberChar_eq_false_of_isBlank {c : Char} (blank : isBlank c) :
    isNumberChar c = false := by
  simp only [isBlank, Bool.or_eq_true, beq_iff_eq] at blank
  obtain ((rfl | rfl) | rfl) | rfl := blank <;> rfl

def EndsNumber (text : List Char) : Prop :=
  ∀ c ∈ text.head?, isNumberChar c = false

theorem endsNumber_newLine (depth : Nat) (rest : List Char) :
    EndsNumber (newLine depth ++ rest) := by
  simp [EndsNumber, newLine, isNumberChar]

theorem readNumber?_append {spelling : List Char} (made : ∀ c ∈ spelling, isNumberChar c)
    (number : isNumber spelling) (ends : EndsNumber rest) :
    readNumber? (spelling ++ rest) = some (.number spelling, rest) := by
  have taken : rest.takeWhile isNumberChar = [] := by
    cases rest with
    | nil => rfl
    | cons c rest => simp [ends c rfl]
  have dropped : rest.dropWhile isNumberChar = rest := by
    cases rest with
    | nil => rfl
    | cons c rest => simp [ends c rfl]
  simp [readNumber?, List.takeWhile_append_of_pos made, List.dropWhile_append_of_pos made,
    taken, dropped, number]

/-! ## Values -/

inductive Spelled : Json → Prop
  | null : Spelled .null
  | bool (value : Bool) : Spelled (.bool value)
  | number {spelling : List Char} (made : ∀ c ∈ spelling, isNumberChar c)
      (number : isNumber spelling) : Spelled (.number spelling)
  | string (value : String) : Spelled (.string value)
  | array {items : List Json} (each : ∀ item ∈ items, Spelled item) : Spelled (.array items)
  | object {fields : List (String × Json)} (each : ∀ field ∈ fields, Spelled field.2) :
      Spelled (.object fields)

variable {value item : Json} {items : List Json} {key : String}
  {fields : List (String × Json)}

/-- A value is neither blank nor the end of an array at its first character. -/
theorem Spelled.exists_pretty_eq_cons (spelled : Spelled value) (depth : Nat) :
    ∃ first others,
      pretty depth value = first :: others ∧ isBlank first = false ∧ first ≠ ']' := by
  cases spelled with
  | null => exact ⟨_, _, rfl, rfl, by decide⟩
  | bool value => cases value <;> exact ⟨_, _, rfl, rfl, by decide⟩
  | @number spelling made number =>
      cases spelling with
      | nil => exact absurd number (by decide)
      | cons c others =>
          have made : isNumberChar c := made c (.head _)
          refine ⟨c, others, by rw [pretty], ?_, ?_⟩
          · rw [Bool.eq_false_iff]
            intro blank
            rw [isNumberChar_eq_false_of_isBlank blank] at made
            contradiction
          · rintro rfl
            exact absurd made (by decide)
  | string value => exact ⟨_, _, by rw [pretty, quote, List.cons_append], rfl, by decide⟩
  | @array items _ =>
      cases items with
      | nil => exact ⟨_, _, by rw [pretty], rfl, by decide⟩
      | cons item items =>
          exact ⟨'[', _, by simp only [pretty, List.cons_append]; rfl, rfl, by decide⟩
  | @object fields _ =>
      cases fields with
      | nil => exact ⟨_, _, by rw [pretty], rfl, by decide⟩
      | cons field fields =>
          exact ⟨'\x7b', _, by simp only [pretty, List.cons_append]; rfl, rfl, by decide⟩

theorem Spelled.skipBlanks_pretty (spelled : Spelled value) (depth : Nat) (rest : List Char) :
    skipBlanks (pretty depth value ++ rest) = pretty depth value ++ rest := by
  obtain ⟨first, others, begins, visible, _⟩ := spelled.exists_pretty_eq_cons depth
  rw [begins, List.cons_append, skipBlanks_cons visible]

theorem Spelled.length_pretty_pos (spelled : Spelled value) (depth : Nat) :
    0 < (pretty depth value).length := by
  obtain ⟨first, others, begins, _⟩ := spelled.exists_pretty_eq_cons depth
  simp [begins]

/-- The reader takes the value off every text that begins with it, printed at this depth.  It
takes one step for each value and one for the rest of the list that the value stands in, and
every value has a character of its own, so that two steps for each character are enough. -/
def Reads (depth : Nat) (value : Json) : Prop :=
  ∀ ⦃fuel : Nat⦄ ⦃text rest : List Char⦄, EndsNumber rest →
    skipBlanks text = pretty depth value ++ rest →
      2 * (pretty depth value).length ≤ fuel → readValue? fuel text = some (value, rest)

theorem Spelled.reads_of_succ (spelled : Spelled value)
    (reads : ∀ fuel text rest, EndsNumber rest → skipBlanks text = pretty depth value ++ rest →
      2 * (pretty depth value).length ≤ fuel + 1 →
        readValue? (fuel + 1) text = some (value, rest)) : Reads depth value := by
  intro fuel text rest ends begins enough
  have positive := spelled.length_pretty_pos depth
  cases fuel with
  | zero => omega
  | succ fuel => exact reads fuel text rest ends begins enough

theorem readValue?_number {spelling : List Char} (made : ∀ c ∈ spelling, isNumberChar c)
    (number : isNumber spelling) (ends : EndsNumber rest)
    (begins : skipBlanks text = spelling ++ rest) :
    readValue? (fuel + 1) text = some (.number spelling, rest) := by
  rw [← readNumber?_append made number ends, readValue?, begins]
  cases spelling with
  | nil => exact absurd number (by decide)
  | cons c others =>
      have made : isNumberChar c := made c (.head _)
      split
      case h_7 => rfl
      -- Nothing else that the reader knows begins as a number does.
      all_goals
        rename_i same
        obtain ⟨rfl, _⟩ := List.cons.inj same
        exact absurd made (by decide)

theorem readValue?_string {value : String} (begins : skipBlanks text = quote value ++ rest) :
    readValue? (fuel + 1) text = some (.string value, rest) := by
  have read := readString?_quote value rest
  rw [quote, List.cons_append, List.cons_append] at begins read
  rw [readValue?, begins]
  simp only [read]
  rfl

/-! ### Arrays -/

variable {between following text' : List Char}

theorem readItems?_last (first : readValue? fuel text = some (item, between))
    (closed : skipBlanks between = ']' :: rest) :
    readItems? (fuel + 1) text = some ([item], rest) := by
  rw [readItems?, first]
  simp [closed]

theorem readItems?_cons (first : readValue? fuel text = some (item, between))
    (comma : skipBlanks between = ',' :: following)
    (others : readItems? fuel following = some (items, rest)) :
    readItems? (fuel + 1) text = some (item :: items, rest) := by
  rw [readItems?, first]
  simp [comma, others]

theorem endsNumber_prettyItems (depth outer : Nat) (items : List Json) (rest : List Char) :
    EndsNumber (prettyItems depth items ++ (newLine outer ++ rest)) := by
  cases items with
  | nil => exact endsNumber_newLine outer rest
  | cons item items => simp [EndsNumber, prettyItems, isNumberChar]

theorem readItems?_pretty (each : ∀ one ∈ item :: items, Reads depth one)
    (spelled : ∀ one ∈ items, Spelled one)
    (begins : skipBlanks text =
      pretty depth item ++ (prettyItems depth items ++ (newLine outer ++ ']' :: rest)))
    (enough : 2 * ((pretty depth item).length + (prettyItems depth items).length) < fuel) :
    readItems? fuel text = some (item :: items, rest) := by
  induction items generalizing item fuel text with
  | nil =>
      cases fuel with
      | zero => contradiction
      | succ fuel =>
          have first : readValue? fuel text = some (item, _) :=
            each item (.head _) (endsNumber_prettyItems depth outer [] _) begins (by omega)
          have closed : skipBlanks (newLine outer ++ ']' :: rest) = ']' :: rest := by
            rw [skipBlanks_newLine, skipBlanks_cons rfl]
          exact readItems?_last first closed
  | cons next items ih =>
      cases fuel with
      | zero => contradiction
      | succ fuel =>
          have first : readValue? fuel text = some (item, _) :=
            each item (.head _) (endsNumber_prettyItems depth outer (next :: items) _) begins
              (by omega)
          simp only [prettyItems, List.cons_append, List.append_assoc, List.length_cons,
            List.length_append] at first enough
          refine readItems?_cons first (skipBlanks_cons rfl _) ?_
          refine ih (fun one listed => each one (.tail _ listed))
            (fun one listed => spelled one (.tail _ listed)) ?_ (by omega)
          rw [skipBlanks_newLine, (spelled next (.head _)).skipBlanks_pretty]

theorem readValue?_array (opened : skipBlanks text = '[' :: following)
    (inhabited : ∀ others, skipBlanks following ≠ ']' :: others)
    (read : readItems? fuel (skipBlanks following) = some (items, rest)) :
    readValue? (fuel + 1) text = some (.array items, rest) := by
  rw [readValue?, opened]
  simp [read]

theorem reads_array (spelled : ∀ one ∈ items, Spelled one)
    (each : ∀ one ∈ items, Reads (depth + 1) one) : Reads depth (.array items) := by
  refine (Spelled.array spelled).reads_of_succ fun fuel text rest _ begins enough => ?_
  cases items with
  | nil => rw [readValue?, begins]; rfl
  | cons item items =>
      have visible := spelled item (.head _)
      simp only [pretty, List.cons_append, List.append_assoc, List.nil_append, List.length_cons,
        List.length_append] at begins enough
      refine readValue?_array begins ?_ ?_
      · obtain ⟨first, others, starts, _, differs⟩ := visible.exists_pretty_eq_cons (depth + 1)
        rw [skipBlanks_newLine, visible.skipBlanks_pretty, starts]
        simp [differs]
      · have inner (others : List Char) :
            skipBlanks (skipBlanks (newLine (depth + 1) ++ (pretty (depth + 1) item ++ others))) =
              pretty (depth + 1) item ++ others := by
          rw [skipBlanks_newLine, visible.skipBlanks_pretty, visible.skipBlanks_pretty]
        exact readItems?_pretty each (fun one listed => spelled one (.tail _ listed)) (inner _)
          (by omega)

/-! ### Objects -/

variable {field : String × Json}

theorem skipBlanks_quote (key : String) (rest : List Char) :
    skipBlanks (quote key ++ rest) = quote key ++ rest := by
  rw [quote, List.cons_append, List.cons_append, skipBlanks_cons rfl]

theorem Reads.after_space (reads : Reads depth value) (spelled : Spelled value)
    (ends : EndsNumber rest) (enough : 2 * (pretty depth value).length ≤ fuel) :
    readValue? fuel (' ' :: (pretty depth value ++ rest)) = some (value, rest) := by
  refine reads ends ?_ enough
  rw [skipBlanks_space, spelled.skipBlanks_pretty]

theorem readFields?_last (begins : skipBlanks text = quote key ++ ':' :: following)
    (first : readValue? fuel following = some (value, between))
    (closed : skipBlanks between = '\x7d' :: rest) :
    readFields? (fuel + 1) text = some ([(key, value)], rest) := by
  rw [readFields?, begins, readString?_quote]
  simp [skipBlanks_cons, isBlank, first, closed]

theorem readFields?_cons (begins : skipBlanks text = quote key ++ ':' :: following)
    (first : readValue? fuel following = some (value, between))
    (comma : skipBlanks between = ',' :: text')
    (others : readFields? fuel text' = some (fields, rest)) :
    readFields? (fuel + 1) text = some ((key, value) :: fields, rest) := by
  rw [readFields?, begins, readString?_quote]
  simp [skipBlanks_cons, isBlank, first, comma, others]

theorem endsNumber_prettyFields (depth outer : Nat) (fields : List (String × Json))
    (rest : List Char) : EndsNumber (prettyFields depth fields ++ (newLine outer ++ rest)) := by
  cases fields with
  | nil => exact endsNumber_newLine outer rest
  | cons field fields => simp [EndsNumber, prettyFields, isNumberChar]

theorem readFields?_pretty (each : ∀ one ∈ field :: fields, Reads depth one.2)
    (spelled : ∀ one ∈ field :: fields, Spelled one.2)
    (begins : skipBlanks text =
      quote field.1 ++ ':' :: ' ' :: (pretty depth field.2 ++
        (prettyFields depth fields ++ (newLine outer ++ '\x7d' :: rest))))
    (enough : 2 * ((pretty depth field.2).length + (prettyFields depth fields).length) < fuel) :
    readFields? fuel text = some (field :: fields, rest) := by
  induction fields generalizing field fuel text with
  | nil =>
      cases fuel with
      | zero => contradiction
      | succ fuel =>
          have first := (each field (.head _)).after_space (spelled field (.head _))
            (endsNumber_prettyFields depth outer [] ('\x7d' :: rest))
            (show 2 * (pretty depth field.2).length ≤ fuel by omega)
          have closed : skipBlanks (newLine outer ++ '\x7d' :: rest) = '\x7d' :: rest := by
            rw [skipBlanks_newLine, skipBlanks_cons rfl]
          exact readFields?_last begins first closed
  | cons next fields ih =>
      cases fuel with
      | zero => contradiction
      | succ fuel =>
          have first := (each field (.head _)).after_space (spelled field (.head _))
            (endsNumber_prettyFields depth outer (next :: fields) ('\x7d' :: rest))
            (show 2 * (pretty depth field.2).length ≤ fuel by omega)
          simp only [prettyFields, List.cons_append, List.append_assoc, List.length_cons,
            List.length_append] at begins first enough
          refine readFields?_cons begins first (skipBlanks_cons rfl _) ?_
          refine ih (fun one listed => each one (.tail _ listed))
            (fun one listed => spelled one (.tail _ listed)) ?_ (by omega)
          rw [skipBlanks_newLine, skipBlanks_quote]

theorem readValue?_object (opened : skipBlanks text = '\x7b' :: following)
    (inhabited : ∀ others, skipBlanks following ≠ '\x7d' :: others)
    (read : readFields? fuel (skipBlanks following) = some (fields, rest)) :
    readValue? (fuel + 1) text = some (.object fields, rest) := by
  rw [readValue?, opened]
  simp [read]

theorem reads_object (spelled : ∀ one ∈ fields, Spelled one.2)
    (each : ∀ one ∈ fields, Reads (depth + 1) one.2) : Reads depth (.object fields) := by
  refine (Spelled.object spelled).reads_of_succ fun fuel text rest _ begins enough => ?_
  cases fields with
  | nil => rw [readValue?, begins]; rfl
  | cons field fields =>
      simp only [pretty, List.cons_append, List.append_assoc, List.nil_append, List.length_cons,
        List.length_append] at begins enough
      refine readValue?_object begins ?_ ?_
      · rw [skipBlanks_newLine, skipBlanks_quote, quote]
        simp
      · have inner (others : List Char) :
            skipBlanks (skipBlanks (newLine (depth + 1) ++ (quote field.1 ++ others))) =
              quote field.1 ++ others := by
          rw [skipBlanks_newLine, skipBlanks_quote, skipBlanks_quote]
        exact readFields?_pretty each spelled (inner _) (by omega)

/-! ## Documents -/

theorem Spelled.reads (spelled : Spelled value) (depth : Nat) : Reads depth value := by
  induction spelled generalizing depth with
  | null =>
      refine Spelled.null.reads_of_succ fun fuel text rest _ begins _ => ?_
      rw [readValue?, begins]
      rfl
  | bool value =>
      refine (Spelled.bool value).reads_of_succ fun fuel text rest _ begins _ => ?_
      cases value <;> rw [readValue?, begins] <;> rfl
  | number made number =>
      refine (Spelled.number made number).reads_of_succ fun fuel text rest ends begins _ => ?_
      rw [pretty] at begins
      exact readValue?_number made number ends begins
  | string value =>
      refine (Spelled.string value).reads_of_succ fun fuel text rest _ begins _ => ?_
      rw [pretty] at begins
      exact readValue?_string begins
  | array spelled ih =>
      exact reads_array spelled fun one listed => ih one listed (depth + 1)
  | object spelled ih =>
      exact reads_object spelled fun one listed => ih one listed (depth + 1)

theorem read?_render (spelled : Spelled value) : read? value.render = some value := by
  have read := spelled.reads 0 (show EndsNumber [] by simp [EndsNumber])
    (show skipBlanks (pretty 0 value) = pretty 0 value ++ [] by
      simpa using spelled.skipBlanks_pretty 0 [])
    (show 2 * (pretty 0 value).length ≤ 2 * (pretty 0 value).length + 2 by omega)
  simp only [read?, render, String.toList_ofList, read]
  rfl

end Lineage.Json
