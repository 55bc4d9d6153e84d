import Lineage.Proofs.Text.Label
import Lineage.Proofs.Text.Lines
import Lineage.Proofs.Text.Replace
import Lineage.Text.StringLiteral
import Mathlib.Algebra.Ring.Parity

/-!
# Literals of the script language

A written body between single quotes is one whole literal of the script language, and its value is
the text that was written.  The body is made by five replacements, one after the other, and none
of them undoes or continues what an earlier one has brought in.
-/

namespace Lineage.Text.Quoted

open StringLiteral

variable {body value : List Char} {c : Char}

/-! ## Runs of backslashes -/

def slashRun (text : List Char) : Nat :=
  (text.reverse.takeWhile (· == '\\')).length

theorem slashRun_concat (text : List Char) (c : Char) :
    slashRun (text ++ [c]) = if c = '\\' then slashRun text + 1 else 0 := by
  by_cases slash : c = '\\' <;> simp [slashRun, slash]

theorem even_slashRun_plain (bare : c ∉ ['\\', '\'', '\n', '\r']) (front : List Char) :
    Even (slashRun (front ++ [c])) := by
  rw [slashRun_concat, if_neg fun slash => bare (by simp [slash])]
  exact Even.zero

theorem even_slashRun_escaped {front : List Char} (even : Even (slashRun front)) (mark : Char) :
    Even (slashRun (front ++ ['\\'] ++ [mark])) := by
  rw [slashRun_concat, slashRun_concat]
  split
  · rw [if_pos rfl]
    exact even.add_one.add_one
  · exact Even.zero

theorem Written.even_slashRun {front : List Char} (written : Written body value)
    (even : Even (slashRun front)) : Even (slashRun (front ++ body)) := by
  induction written generalizing front with
  | nil => rwa [List.append_nil]
  | plain bare _ ih => simpa using ih (even_slashRun_plain bare front)
  | @escaped mark c body value _ _ ih => simpa using ih (even_slashRun_escaped even mark)

/-- A quote is only ever an escaped character, and the backslash that escapes it makes an even
run odd. -/
theorem Written.odd_slashRun {front before after : List Char} (written : Written body value)
    (even : Even (slashRun front)) (parted : body = before ++ '\'' :: after) :
    Odd (slashRun (front ++ before)) := by
  induction written generalizing front before with
  | nil => simp at parted
  | @plain c body value bare _ ih =>
      cases before with
      | nil =>
          obtain ⟨rfl, -⟩ := List.cons.inj parted
          exact absurd (by decide) bare
      | cons d before =>
          obtain ⟨rfl, tails⟩ := List.cons.inj parted
          simpa using ih (even_slashRun_plain bare front) tails
  | @escaped mark c body value _ _ ih =>
      match before with
      | [] => simp at parted
      | [d] =>
          obtain ⟨rfl, -⟩ := List.cons.inj parted
          rw [slashRun_concat, if_pos rfl]
          exact even.add_one
      | d :: e :: before =>
          obtain ⟨rfl, rfl, tails⟩ : '\\' = d ∧ mark = e ∧ body = before ++ '\'' :: after := by
            simpa using parted
          simpa using ih (even_slashRun_escaped even mark) tails

/-- What keeps a text inside its single quotes, and a script inside its element. -/
structure Safe (body : List Char) : Prop where
  unbroken : '\n' ∉ body ∧ '\r' ∉ body
  quotes_escaped : ∀ before after, body = before ++ '\'' :: after → Odd (slashRun before)
  closed : ¬Odd (slashRun body)
  no_end_tag : ¬['<', '/'] <:+: body

theorem Written.safe (written : Written body value) (absent : ¬['<', '/'] <:+: body) :
    Safe body := by
  have even : Even (slashRun []) := by simp [slashRun]
  refine ⟨written.unbroken, fun before after parted => ?_, ?_, absent⟩
  · simpa using written.odd_slashRun even parted
  · rw [Nat.not_odd_iff_even]
    simpa using written.even_slashRun even

/-! ## Values -/

theorem Written.unescape?_eq (written : Written body value) : unescape? body = some value := by
  induction written with
  | nil => rfl
  | @plain c body value bare _ ih =>
      simp only [List.mem_cons, List.not_mem_nil, or_false, not_or] at bare
      rw [unescape?.eq_3 c body fun _ _ slash => (bare.1 slash).elim, if_neg (by simp [bare]),
        ih]
      rfl
  | @escaped mark c body value known _ ih =>
      simp [unescape?, unescapeChar?_of_mem known, ih]

theorem escape?_of_mem {mark : Char} (known : (mark, c) ∈ escapes) (rest : List Char) :
    escape? (mark :: rest) = some (codeUnits c.toNat, 1) := by
  have read : ∀ entry ∈ escapes, escape? (entry.1 :: rest) = some (codeUnits entry.2.toNat, 1) := by
    simp only [escapes, List.forall_mem_cons]
    exact ⟨rfl, rfl, rfl, rfl, rfl, nofun⟩
  exact read _ known

theorem readBody?_cons {rest : List Char} {units : List UInt16} {more : Nat} (bare : c ≠ '\'')
    (read : element? c rest = some (units, more)) :
    readBody? (c :: rest) =
      (readBody? (rest.drop more)).map fun (value, rest) => (units ++ value, rest) := by
  rw [readBody?, if_neg bare, read]

theorem Written.readBody?_eq (written : Written body value) (rest : List Char) :
    readBody? (body ++ '\'' :: rest) = some (unitsOf value, rest) := by
  induction written with
  | nil => simp [readBody?, unitsOf]
  | @plain c body value bare _ ih =>
      simp only [List.mem_cons, List.not_mem_nil, or_false, not_or] at bare
      have read : element? c (body ++ '\'' :: rest) = some (codeUnits c.toNat, 0) := by
        simp [element?, bare]
      rw [List.cons_append, readBody?_cons bare.2.1 read, List.drop_zero, ih]
      rfl
  | @escaped mark c body value known _ ih =>
      have read : element? '\\' (mark :: (body ++ '\'' :: rest)) = some (codeUnits c.toNat, 1) :=
        escape?_of_mem known _
      rw [List.cons_append, List.cons_append, readBody?_cons (by decide) read, List.drop_one,
        List.tail_cons, ih]
      rfl

/-! ## Five replacements -/

/-- The body of a literal made by replacing one character after the other, and at last the start
of an end tag. -/
def replaced (text : List Char) : List Char :=
  let text := replace ['\\'] ['\\', '\\'] text
  let text := replace ['\''] ['\\', '\''] text
  let text := replace ['\n'] ['\\', 'n'] text
  let text := replace ['\r'] ['\\', 'r'] text
  replace ['<', '/'] ['<', '\\', '/'] text

theorem replace_singleton (pattern : Char) (replacement text : List Char) :
    replace [pattern] replacement text =
      text.flatMap fun c => if c = pattern then replacement else [c] := by
  induction text with
  | nil => rfl
  | cons c text ih =>
      rw [List.flatMap_cons, ← ih]
      by_cases here : c = pattern
      · subst here
        simp [replace, replaceFrom]
      · have absent : pattern ≠ c := fun same => here same.symm
        simp [replace, replaceFrom, here, absent]

theorem flatMap_replacements (c : Char) :
    ((if c = '\\' then ['\\', '\\'] else [c]).flatMap fun c =>
      (if c = '\'' then ['\\', '\''] else [c]).flatMap fun c =>
        (if c = '\n' then ['\\', 'n'] else [c]).flatMap fun c =>
          if c = '\r' then ['\\', 'r'] else [c]) = escapeChar c := by
  by_cases slash : c = '\\'
  · subst slash
    decide
  by_cases quote : c = '\''
  · subst quote
    decide
  by_cases lineFeed : c = '\n'
  · subst lineFeed
    decide
  by_cases carriageReturn : c = '\r'
  · subst carriageReturn
    decide
  · simp [escapeChar.eq_5 c slash quote lineFeed carriageReturn, slash, quote, lineFeed,
      carriageReturn]

theorem replaced_eq (text : List Char) :
    replaced text = replace ['<', '/'] ['<', '\\', '/'] (text.flatMap escapeChar) := by
  simp only [replaced, replace_singleton, List.flatMap_assoc, flatMap_replacements]

theorem exists_eq_cons_of_solidus {rest : List Char}
    (starts : ['/'] <+: rest.flatMap escapeChar) : ∃ others, rest = '/' :: others := by
  cases rest with
  | nil => simp at starts
  | cons d rest =>
      rw [List.flatMap_cons] at starts
      rcases escapeChar_cases d with written | ⟨mark, written, -⟩
      · rw [written, List.singleton_append, List.cons_prefix_cons] at starts
        exact ⟨rest, by rw [starts.1]⟩
      · rw [written, List.cons_append, List.cons_prefix_cons] at starts
        exact absurd starts.1 (by decide)

theorem replaced_eq_escape (text : List Char) : replaced text = escape text := by
  rw [replaced_eq, replace_eq_substitute]
  have skip {c : Char} {rest : List Char} (absent : ¬['<', '/'] <+: c :: rest) :
      substitute [(['<', '/'], ['<', '\\', '/'])] (c :: rest) =
        c :: substitute [(['<', '/'], ['<', '\\', '/'])] rest :=
    substitute_cons (front?_eq_none_iff.mpr (by simpa using absent))
  fun_induction escape text with
  | case1 => rfl
  | case2 rest ih =>
      have marked := @substitute_mark [(['<', '/'], ['<', '\\', '/'])]
        (['<', '/'], ['<', '\\', '/']) (rest.flatMap escapeChar) rfl (List.cons_ne_nil _ _)
      rw [ih] at marked
      exact marked
  | case3 c rest plain ih =>
      rw [List.flatMap_cons]
      rcases escapeChar_cases c with written | ⟨mark, written, foreign⟩
      · rw [written, List.singleton_append, List.singleton_append, skip, ih]
        rw [List.cons_prefix_cons]
        rintro ⟨rfl, starts⟩
        obtain ⟨others, rfl⟩ := exists_eq_cons_of_solidus starts
        exact plain others rfl rfl
      · rw [written, List.cons_append, List.singleton_append, skip (by simp), skip, ih]
        · rfl
        · simp [List.cons_prefix_cons, Ne.symm foreign]

end Lineage.Text.Quoted

namespace Lineage

open Text Text.Quoted

/-- A written text is a safe body, and between quotes it is a literal whose value is the text,
whatever comes after the literal.  Different texts are written differently, and the body is made
by five replacements.  A label is as safe, and its value is the segments of the name, one to a
line. -/
theorem escapeScript_exact (text : String) :
    Safe (escapeScript text).toList ∧
    (∀ rest, StringLiteral.read? ('\'' :: (escapeScript text).toList ++ '\'' :: rest) =
      some (StringLiteral.unitsOf text.toList, rest)) ∧
    unescape? (escapeScript text).toList = some text.toList ∧
    Function.Injective escapeScript ∧
    (escapeScript text).toList = replaced text.toList ∧
    Safe (labelText text).toList ∧
    ∀ rest, StringLiteral.read? ('\'' :: (labelText text).toList ++ '\'' :: rest) =
      some (StringLiteral.unitsOf (String.intercalate "\n" (labelSegments text)).toList, rest) := by
  have written := written_escape text.toList
  have writtenLabel := written_label text.toList
  simp only [escapeScript, labelText, String.toList_ofList]
  refine ⟨written.safe (not_endTag_infix_escape _), written.readBody?_eq, written.unescape?_eq,
    ?_, (replaced_eq_escape _).symm, writtenLabel.safe (not_endTag_infix_label _), fun rest => ?_⟩
  · intro first second same
    have bodies := String.ofList_injective same
    have read := (written_escape first.toList).unescape?_eq
    rw [bodies, (written_escape second.toList).unescape?_eq, Option.some.injEq] at read
    exact (String.toList_inj.mp read).symm
  · rw [toList_intercalate, map_toList_labelSegments]
    exact writtenLabel.readBody?_eq rest

end Lineage
