import Lineage.Proofs.Text.Infix
import Lineage.Text.Quoted

/-!
# Reading literals back

A written body keeps to one line, and a reader that meets it takes exactly its characters off
the text, whatever follows.  Of what escaping does not touch the body holds as much as the
value.
-/

namespace Lineage.Text.Quoted

/-! ## Written bodies -/

def escapes : List (Char × Char) :=
  [('\\', '\\'), ('\'', '\''), ('n', '\n'), ('r', '\r'), ('/', '/')]

/-- A body and the text that it stands for, character by character. -/
inductive Written : List Char → List Char → Prop where
  | nil : Written [] []
  | plain {c : Char} {body value : List Char} :
      c ∉ ['\\', '\'', '\n', '\r'] → Written body value → Written (c :: body) (c :: value)
  | escaped {mark c : Char} {body value : List Char} :
      (mark, c) ∈ escapes → Written body value → Written ('\\' :: mark :: body) (c :: value)

variable {body value : List Char}

theorem Written.append {body' value' : List Char} (written : Written body value)
    (written' : Written body' value') : Written (body ++ body') (value ++ value') := by
  induction written with
  | nil => exact written'
  | plain bare _ ih => exact .plain bare ih
  | escaped known _ ih => exact .escaped known ih

theorem written_escapeChar (c : Char) : Written (escapeChar c) [c] := by
  unfold escapeChar
  split
  case h_5 slash quote lineFeed carriageReturn =>
      exact .plain (by simpa using ⟨slash, quote, lineFeed, carriageReturn⟩) .nil
  all_goals exact .escaped (by decide) .nil

theorem written_escape (value : List Char) : Written (escape value) value := by
  fun_induction escape value with
  | case1 => exact .nil
  | case2 rest ih => exact .plain (by decide) (.escaped (by decide) ih)
  | case3 c rest _ ih => exact (written_escapeChar c).append ih

theorem Written.unbroken (written : Written body value) : '\n' ∉ body ∧ '\r' ∉ body := by
  induction written with
  | nil => simp
  | plain bare _ ih =>
      simp only [List.mem_cons, List.not_mem_nil, or_false, not_or] at bare
      simp [ih, Ne.symm bare.2.2.1, Ne.symm bare.2.2.2]
  | escaped known _ ih =>
      have marks : ∀ entry ∈ escapes, '\n' ≠ entry.1 ∧ '\r' ≠ entry.1 := by decide
      obtain ⟨lineFeed, carriageReturn⟩ := marks _ known
      simp [ih, lineFeed, carriageReturn]

theorem newline_notMem_escape (value : List Char) : '\n' ∉ escape value :=
  (written_escape value).unbroken.1

/-! ## Reading -/

theorem unescapeChar?_of_mem {mark c : Char} (known : (mark, c) ∈ escapes) :
    unescapeChar? mark = some c := by
  have read : ∀ entry ∈ escapes, unescapeChar? entry.1 = some entry.2 := by decide
  exact read _ known

theorem Written.readLiteral?_eq (written : Written body value) (rest : List Char) :
    readLiteral? ('\'' :: body ++ '\'' :: rest) = some (value, rest) := by
  have body_eq : readLiteral?.body (body ++ '\'' :: rest) = some (value, rest) := by
    induction written with
    | nil => rfl
    | @plain c body value bare _ ih =>
        simp only [List.mem_cons, List.not_mem_nil, or_false, not_or] at bare
        rw [List.cons_append, readLiteral?.body.eq_4 c _ bare.2.1 fun _ _ slash =>
          (bare.1 slash).elim, if_neg (by simp [bare]), ih]
        rfl
    | @escaped mark c body value known _ ih =>
        simp [readLiteral?.body, unescapeChar?_of_mem known, ih]
  exact body_eq

/-! ## What escaping does not touch -/

def special : List Char :=
  ['\\', '\'', '\n', '\r', '<', '/', 'n', 'r']

theorem escapeChar_of_notMem {c : Char} (plain : c ∉ special) : escapeChar c = [c] := by
  unfold escapeChar
  split <;> simp_all [special]

theorem escape_cons_of_notMem {c : Char} (plain : c ∉ special) (rest : List Char) :
    escape (c :: rest) = c :: escape rest := by
  rw [escape.eq_3 c rest, escapeChar_of_notMem plain, List.singleton_append]
  rintro _ rfl
  exact absurd (by decide) plain

theorem escapeChar_subset_special {c : Char} (listed : c ∈ special) :
    escapeChar c ⊆ special := by
  have all : (special.all fun c => escapeChar c ⊆ special) = true := by decide
  exact of_decide_eq_true (List.all_eq_true.mp all c listed)

theorem escapeChar_ne_nil (c : Char) : escapeChar c ≠ [] := by
  unfold escapeChar
  split <;> simp

variable {part : List Char}

theorem not_prefix_of_special (nonempty : part ≠ []) (plain : special.Disjoint part) {c : Char}
    (listed : c ∈ special) (rest : List Char) : ¬part <+: c :: rest := by
  obtain ⟨d, tail, rfl⟩ := List.exists_cons_of_ne_nil nonempty
  rw [List.cons_prefix_cons]
  rintro ⟨rfl, -⟩
  exact plain listed (.head _)

theorem prefix_escape_iff (plain : special.Disjoint part) (value : List Char) :
    part <+: escape value ↔ part <+: value := by
  fun_induction escape value generalizing part with
  | case1 => rfl
  | case2 rest ih =>
      rcases eq_or_ne part [] with rfl | nonempty
      · simp
      · have opens : '<' ∈ special := by decide
        simp [not_prefix_of_special nonempty plain opens]
  | case3 c rest _ ih =>
      rcases eq_or_ne part [] with rfl | nonempty
      · simp
      by_cases listed : c ∈ special
      · obtain ⟨d, tail, written⟩ := List.exists_cons_of_ne_nil (escapeChar_ne_nil c)
        have listed' : d ∈ special := escapeChar_subset_special listed (by simp [written])
        rw [written, List.cons_append]
        simp [not_prefix_of_special nonempty plain listed,
          not_prefix_of_special nonempty plain listed']
      · obtain ⟨d, tail, rfl⟩ := List.exists_cons_of_ne_nil nonempty
        have plain' := (List.disjoint_cons_right.mp plain).2
        rw [escapeChar_of_notMem listed, List.singleton_append, List.cons_prefix_cons,
          List.cons_prefix_cons, ih plain']

theorem infix_escape_iff (nonempty : part ≠ []) (plain : special.Disjoint part)
    (value : List Char) : part <:+: escape value ↔ part <:+: value := by
  have skip (block : List Char) (within : block ⊆ special) (text : List Char) :
      part <:+: block ++ text ↔ part <:+: text :=
    infix_block_append_iff nonempty (List.disjoint_of_subset_left within plain) text
  fun_induction escape value with
  | case1 => rfl
  | case2 rest ih =>
      have written := skip ['<', '\\', '/'] (by decide) (escape rest)
      have read := skip ['<', '/'] (by decide) rest
      exact written.trans (ih.trans read.symm)
  | case3 c rest _ ih =>
      by_cases listed : c ∈ special
      · have written := skip (escapeChar c) (escapeChar_subset_special listed) (escape rest)
        have read := skip [c] (by simp [listed]) rest
        exact written.trans (ih.trans read.symm)
      · have here := prefix_escape_iff plain (c :: rest)
        rw [escape_cons_of_notMem listed] at here
        rw [escapeChar_of_notMem listed, List.singleton_append, List.infix_cons_iff,
          List.infix_cons_iff, here]
        exact or_congr_right ih

/-! ## What starts at a less-than sign -/

theorem escapeChar_cases (c : Char) :
    escapeChar c = [c] ∨ ∃ d, escapeChar c = ['\\', d] ∧ d ≠ '<' := by
  unfold escapeChar
  split <;> simp

theorem prefix_of_prefix_escape (bare : '\\' ∉ part) {value : List Char}
    (starts : part <+: escape value) : part <+: value := by
  fun_induction escape value generalizing part with
  | case1 => exact starts
  | case2 rest ih =>
      match part, starts with
      | [], _ => exact List.nil_prefix
      | [c], starts =>
          rw [(List.cons_prefix_cons.mp starts).1]
          exact List.prefix_append ['<'] _
      | c :: d :: part, starts =>
          have second := (List.cons_prefix_cons.mp (List.cons_prefix_cons.mp starts).2).1
          exact absurd (by simp [second]) bare
  | case3 c rest _ ih =>
      cases part with
      | nil => exact List.nil_prefix
      | cons d part =>
          rcases escapeChar_cases c with written | ⟨e, written, -⟩
          · rw [written, List.singleton_append, List.cons_prefix_cons] at starts
            rw [starts.1, List.prefix_cons_inj]
            exact ih (fun within => bare (.tail _ within)) starts.2
          · rw [written, List.cons_append, List.cons_prefix_cons] at starts
            exact absurd (by simp [starts.1]) bare

/-- No escape writes a less-than sign, so that such a place in a body is one in its value. -/
theorem exists_suffix_of_infix_escape {value : List Char}
    (within : '<' :: part <:+: escape value) :
    ∃ rest, rest <:+ value ∧ '<' :: part <+: escape rest := by
  have later {first : Char} (foreign : first ≠ '<') {rest : List Char}
      (within : '<' :: part <:+: first :: rest) : '<' :: part <:+: rest := by
    rcases List.infix_cons_iff.mp within with starts | within
    · exact absurd (List.cons_prefix_cons.mp starts).1.symm foreign
    · exact within
  fun_induction escape value with
  | case1 => exact absurd within (by simp)
  | case2 rest ih =>
      rcases List.infix_cons_iff.mp within with starts | within
      · exact ⟨_, List.suffix_rfl, starts⟩
      · obtain ⟨rest', ends, starts⟩ := ih (later (by decide) (later (by decide) within))
        exact ⟨rest', (ends.trans (List.suffix_cons _ _)).trans (List.suffix_cons _ _), starts⟩
  | case3 c rest plain ih =>
      have others (within : '<' :: part <:+: escape rest) :
          ∃ rest', rest' <:+ c :: rest ∧ '<' :: part <+: escape rest' := by
        obtain ⟨rest', ends, starts⟩ := ih within
        exact ⟨rest', ends.trans (List.suffix_cons _ _), starts⟩
      rcases escapeChar_cases c with written | ⟨d, written, foreign⟩
      · rw [written, List.singleton_append] at within
        rcases List.infix_cons_iff.mp within with starts | within
        · refine ⟨c :: rest, List.suffix_rfl, ?_⟩
          rwa [escape.eq_3 c rest plain, written]
        · exact others within
      · rw [written] at within
        exact others (later foreign (later (by decide) within))

theorem infix_of_infix_escape (bare : '\\' ∉ part) {value : List Char}
    (within : '<' :: part <:+: escape value) : '<' :: part <:+: value := by
  obtain ⟨rest, ends, starts⟩ := exists_suffix_of_infix_escape within
  exact (prefix_of_prefix_escape (by simp [bare]) starts).isInfix.trans ends.isInfix

theorem not_endTag_infix_escape (value : List Char) : ¬['<', '/'] <:+: escape value := by
  intro within
  obtain ⟨rest, -, starts⟩ := exists_suffix_of_infix_escape within
  have tag := prefix_of_prefix_escape (by decide) starts
  obtain ⟨rest, rfl⟩ := tag
  simp [escape, List.cons_prefix_cons] at starts

end Lineage.Text.Quoted
