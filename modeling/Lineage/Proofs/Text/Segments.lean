import Lineage.Proofs.Text.Label

/-!
# Segments of a name

The segments of a name are known by the places where one ends and the next one starts: these are
the seams of the name and no others.  Looking for the last seam again and again, each time in
what is left before it, finds the same segments.
-/

namespace Lineage.Text

variable {front back name segment : List Char} {others pieces : List (List Char)}
variable {c d : Char} {position : Nat}

/-! ## Seams -/

def capitalAt (name : List Char) (position : Nat) : Bool :=
  name[position]?.any isUppercase

/-- A capital stands at the position, and none before it. -/
def SeamAt (name : List Char) (position : Nat) : Prop :=
  1 ≤ position ∧ capitalAt name position = true ∧ capitalAt name (position - 1) = false

instance decidableSeamAt (name : List Char) (position : Nat) : Decidable (SeamAt name position) :=
  inferInstanceAs (Decidable (_ ∧ _ ∧ _))

theorem seamAt_one : SeamAt (c :: d :: name) 1 ↔ isSeam c d = true := by
  simp [SeamAt, capitalAt, isSeam]

theorem seamAt_succ (positive : 1 ≤ position) :
    SeamAt (c :: name) (position + 1) ↔ SeamAt name position := by
  obtain ⟨earlier, rfl⟩ := Nat.exists_eq_add_of_le' positive
  simp [SeamAt, capitalAt]

theorem SeamAt.lt_length (seam : SeamAt name position) : position < name.length := by
  by_contra beyond
  have absent : name[position]? = none := List.getElem?_eq_none (Nat.le_of_not_lt beyond)
  simp [SeamAt, capitalAt, absent] at seam

theorem seamAt_append_left (within : position < front.length) (back : List Char) :
    SeamAt (front ++ back) position ↔ SeamAt front position := by
  have before : position - 1 < front.length := by omega
  simp only [SeamAt, capitalAt, List.getElem?_append_left within, List.getElem?_append_left before]

theorem seamAt_append_right (positive : 1 ≤ position) (front : List Char) :
    SeamAt (front ++ back) (front.length + position) ↔ SeamAt back position := by
  induction front with
  | nil => simp
  | cons c front ih =>
      have later : (c :: front).length + position = front.length + position + 1 := by
        simp only [List.length_cons]
        omega
      rw [later, List.cons_append, seamAt_succ (by omega), ih]

/-! ## Cutting at seams -/

theorem exists_segments_cons (c : Char) (rest : List Char) :
    ∃ tail others, segments (c :: rest) = (c :: tail) :: others := by
  induction rest generalizing c with
  | nil => exact ⟨[], [], rfl⟩
  | cons d rest ih =>
      obtain ⟨tail, others, cut⟩ := ih d
      rw [segments, cut]
      dsimp only
      split
      · exact ⟨[], _, rfl⟩
      · exact ⟨_, _, rfl⟩

theorem segments_cons_of_seam (seam : isSeam c d = true) (rest : List Char) :
    segments (c :: d :: rest) = [c] :: segments (d :: rest) := by
  obtain ⟨tail, others, cut⟩ := exists_segments_cons d rest
  simp [segments, cut, seam]

theorem segments_cons_of_not_seam (apart : isSeam c d = false)
    (cut : segments (d :: name) = segment :: others) :
    segments (c :: d :: name) = (c :: segment) :: others := by
  simp [segments, cut, apart]

/-- Segments grow from the end of a name, by one of their own for a character that a seam
follows, or else at the first one. -/
theorem segments_induction {motive : List Char → Prop} (nil : motive [])
    (singleton : ∀ c, motive [c])
    (seam : ∀ c d rest, isSeam c d = true →
      segments (c :: d :: rest) = [c] :: segments (d :: rest) → motive (d :: rest) →
      motive (c :: d :: rest))
    (inside : ∀ c d rest tail others, isSeam c d = false →
      segments (d :: rest) = (d :: tail) :: others →
      segments (c :: d :: rest) = (c :: d :: tail) :: others → motive (d :: rest) →
      motive (c :: d :: rest))
    (name : List Char) : motive name := by
  induction name with
  | nil => exact nil
  | cons c name ih =>
      cases name with
      | nil => exact singleton c
      | cons d rest =>
          cases here : isSeam c d with
          | true => exact seam c d rest here (segments_cons_of_seam here rest) ih
          | false =>
              obtain ⟨tail, others, cut⟩ := exists_segments_cons d rest
              exact inside c d rest tail others here cut (segments_cons_of_not_seam here cut) ih

theorem segments_eq_singleton (whole : ∀ position, ¬SeamAt name position) :
    segments name = [name] := by
  induction name with
  | nil => rfl
  | cons c name ih =>
      cases name with
      | nil => rfl
      | cons d rest =>
          have apart : isSeam c d = false := by
            rw [← Bool.not_eq_true, ← seamAt_one]
            exact whole 1
          refine segments_cons_of_not_seam apart (ih fun position seam => ?_)
          exact whole (position + 1) ((seamAt_succ seam.1).mpr seam)

theorem segments_append (seam : SeamAt (front ++ back) front.length) :
    segments (front ++ back) = segments front ++ segments back := by
  induction front with
  | nil => exact absurd seam.1 (by simp)
  | cons c front ih =>
      cases front with
      | nil =>
          cases back with
          | nil => exact absurd seam.lt_length (by simp)
          | cons d back => exact segments_cons_of_seam (seamAt_one.mp seam) back
      | cons d front =>
          have later : SeamAt (d :: front ++ back) (d :: front).length :=
            (seamAt_succ (by simp)).mp seam
          obtain ⟨tail, others, cut⟩ := exists_segments_cons d front
          have cut' := ih later
          rw [cut, List.cons_append] at cut'
          by_cases here : isSeam c d = true
          · rw [List.cons_append, List.cons_append, segments_cons_of_seam here,
              segments_cons_of_seam here, ← List.cons_append, ih later]
            rfl
          · rw [Bool.not_eq_true] at here
            rw [segments_cons_of_not_seam here cut, List.cons_append, List.cons_append,
              segments_cons_of_not_seam here cut']
            rfl

theorem not_seamAt_singleton (c : Char) (position : Nat) : ¬SeamAt [c] position := by
  intro seam
  have positive := seam.1
  have short := seam.lt_length
  rw [List.length_singleton] at short
  omega

theorem not_seamAt_of_mem :
    ∀ segment ∈ segments name, ∀ position, ¬SeamAt segment position := by
  induction name using segments_induction with
  | nil => exact List.forall_mem_singleton.mpr fun _ seam => absurd seam.lt_length (by simp)
  | singleton c => exact List.forall_mem_singleton.mpr (not_seamAt_singleton c)
  | seam c d rest here cut ih =>
      rw [cut]
      exact List.forall_mem_cons.mpr ⟨not_seamAt_singleton c, ih⟩
  | inside c d rest tail others apart cut cut' ih =>
      rw [cut] at ih
      obtain ⟨first, others⟩ := List.forall_mem_cons.mp ih
      rw [cut']
      refine List.forall_mem_cons.mpr ⟨fun position seam => ?_, others⟩
      obtain ⟨earlier, rfl⟩ := Nat.exists_eq_add_of_le' seam.1
      cases earlier with
      | zero => simp [seamAt_one.mp seam] at apart
      | succ earlier => exact first _ ((seamAt_succ (by omega)).mp seam)

/-! ## Divisions -/

def DividesAt (pieces : List (List Char)) (position : Nat) : Prop :=
  ∃ first second, pieces = first ++ second ∧ first ≠ [] ∧ second ≠ [] ∧
    first.flatten.length = position

theorem not_dividesAt_singleton (piece : List Char) (position : Nat) :
    ¬DividesAt [piece] position := by
  rintro ⟨first, second, parted, some_first, some_second, -⟩
  have lengths := congrArg List.length parted
  have positive := List.length_pos_iff.mpr some_first
  have positive' := List.length_pos_iff.mpr some_second
  simp only [List.length_singleton, List.length_append] at lengths
  omega

theorem dividesAt_cons_cons {piece next : List Char} :
    DividesAt (piece :: next :: others) position ↔
      position = piece.length ∨
        ∃ later, position = piece.length + later ∧ DividesAt (next :: others) later := by
  constructor
  · rintro ⟨first, second, parted, some_first, some_second, rfl⟩
    obtain ⟨piece', first, rfl⟩ := List.exists_cons_of_ne_nil some_first
    obtain ⟨rfl, tails⟩ := List.cons.inj parted
    cases first with
    | nil => exact .inl (by simp)
    | cons next' first =>
        exact .inr ⟨_, by simp, next' :: first, second, tails, List.cons_ne_nil _ _, some_second, rfl⟩
  · rintro (rfl | ⟨later, rfl, first, second, parted, some_first, some_second, rfl⟩)
    · exact ⟨[piece], next :: others, rfl, by simp, by simp, by simp⟩
    · exact ⟨piece :: first, second, by rw [parted, List.cons_append], by simp, some_second,
        by simp⟩

theorem dividesAt_cons_add {piece next : List Char} (positive : 1 ≤ position) :
    DividesAt (piece :: next :: others) (piece.length + position) ↔
      DividesAt (next :: others) position := by
  rw [dividesAt_cons_cons]
  constructor
  · rintro (same | ⟨later, same, divides⟩)
    · omega
    · obtain rfl : later = position := by omega
      exact divides
  · exact fun divides => .inr ⟨position, rfl, divides⟩

theorem dividesAt_cons_head {piece : List Char} :
    DividesAt ((c :: piece) :: others) (position + 1) ↔ DividesAt (piece :: others) position := by
  cases others with
  | nil => simp only [not_dividesAt_singleton]
  | cons next others =>
      rw [dividesAt_cons_cons, dividesAt_cons_cons, List.length_cons, Nat.add_right_cancel_iff]
      refine or_congr_right (exists_congr fun later => and_congr_left fun _ => ?_)
      omega

theorem DividesAt.pos (solid : [] ∉ pieces) (divides : DividesAt pieces position) :
    1 ≤ position := by
  obtain ⟨first, second, rfl, some_first, -, rfl⟩ := divides
  obtain ⟨piece, first, rfl⟩ := List.exists_cons_of_ne_nil some_first
  have filled : piece ≠ [] := fun blank => solid (by simp [blank])
  rw [List.flatten_cons, List.length_append]
  have positive := List.length_pos_iff.mpr filled
  omega

/-- The pieces make up the name, are not blank unless the name is, and meet at its seams. -/
structure Cut (name : List Char) (pieces : List (List Char)) : Prop where
  flatten_eq : pieces.flatten = name
  blank : name = [] → pieces = [[]]
  solid : name ≠ [] → [] ∉ pieces
  dividesAt_iff : ∀ position, DividesAt pieces position ↔ SeamAt name position

theorem nil_notMem_segments (some_character : name ≠ []) : [] ∉ segments name := by
  induction name using segments_induction with
  | nil => exact absurd rfl some_character
  | singleton c => simp [segments]
  | seam c d rest here cut ih => simpa [cut] using ih (List.cons_ne_nil _ _)
  | inside c d rest tail others apart cut cut' ih =>
      simpa [cut, cut'] using ih (List.cons_ne_nil _ _)

theorem not_dividesAt_segments_zero (name : List Char) : ¬DividesAt (segments name) 0 := by
  cases name with
  | nil => exact not_dividesAt_singleton [] 0
  | cons c name =>
      intro divides
      exact absurd (divides.pos (nil_notMem_segments (List.cons_ne_nil c name))) (by simp)

theorem dividesAt_segments_succ_iff (name : List Char) (position : Nat) :
    DividesAt (segments name) (position + 1) ↔ SeamAt name (position + 1) := by
  induction name using segments_induction generalizing position with
  | nil =>
      have none : ¬SeamAt [] (position + 1) := fun seam => absurd seam.lt_length (by simp)
      simp only [segments, not_dividesAt_singleton, none]
  | singleton c => simp only [segments, not_dividesAt_singleton, not_seamAt_singleton]
  | seam c d rest here cut ih =>
      obtain ⟨tail, others, cut'⟩ := exists_segments_cons d rest
      rw [cut, cut']
      cases position with
      | zero => simp [dividesAt_cons_cons, seamAt_one, here]
      | succ position =>
          rw [seamAt_succ (by omega), ← ih, cut', Nat.add_comm (position + 1)]
          exact dividesAt_cons_add (by omega)
  | inside c d rest tail others apart cut cut' ih =>
      rw [cut', dividesAt_cons_head, ← cut]
      cases position with
      | zero => simp [not_dividesAt_segments_zero, seamAt_one, apart]
      | succ position => rw [seamAt_succ (by omega), ih]

theorem cut_segments (name : List Char) : Cut name (segments name) where
  flatten_eq := flatten_segments name
  blank := by
    rintro rfl
    rfl
  solid := nil_notMem_segments
  dividesAt_iff position := by
    cases position with
    | zero => simp [not_dividesAt_segments_zero, SeamAt]
    | succ position => exact dividesAt_segments_succ_iff name position

theorem Cut.tail {piece next : List Char} (cut : Cut name (piece :: next :: others)) :
    Cut (next :: others).flatten (next :: others) := by
  have some_character : name ≠ [] := fun blank => absurd (cut.blank blank) (by simp)
  have solid := cut.solid some_character
  have solid' : [] ∉ next :: others := fun listed => solid (.tail _ listed)
  have filled : next ≠ [] := fun blank => solid' (by simp [blank])
  refine ⟨rfl, fun blank => absurd blank (by simp [filled]), fun _ => solid', fun position => ?_⟩
  rcases Nat.eq_zero_or_pos position with rfl | positive
  · have none : ¬DividesAt (next :: others) 0 := fun divides => absurd (divides.pos solid') (by simp)
    simp [none, SeamAt]
  · have whole := cut.dividesAt_iff (piece.length + position)
    rw [← cut.flatten_eq, List.flatten_cons, seamAt_append_right positive] at whole
    rw [← whole, dividesAt_cons_add positive]

theorem Cut.eq_segments (cut : Cut name pieces) : pieces = segments name := by
  induction pieces generalizing name with
  | nil => exact absurd (cut.blank cut.flatten_eq.symm) (by simp)
  | cons piece others ih =>
      cases others with
      | nil =>
          obtain rfl : piece = name := by simpa using cut.flatten_eq
          refine (segments_eq_singleton fun position seam => ?_).symm
          exact not_dividesAt_singleton piece position ((cut.dividesAt_iff position).mpr seam)
      | cons next others =>
          have parted : name = piece ++ (next :: others).flatten := by simp [← cut.flatten_eq]
          have seam : SeamAt (piece ++ (next :: others).flatten) piece.length := by
            rw [← parted, ← cut.dividesAt_iff, dividesAt_cons_cons]
            exact .inl rfl
          have whole : segments piece = [piece] := by
            refine segments_eq_singleton fun position seam => ?_
            have within := seam.lt_length
            rw [← seamAt_append_left within (next :: others).flatten, ← parted,
              ← cut.dividesAt_iff, dividesAt_cons_cons] at seam
            rcases seam with same | ⟨later, same, -⟩ <;> omega
          rw [parted, segments_append seam, whole, ← ih cut.tail]
          rfl

/-! ## Cutting from the end -/

def lastSeam? (text : List Char) : Option Nat :=
  (List.range' 1 (text.length - 1)).reverse.find? fun position =>
    capitalAt text position && !capitalAt text (position - 1)

theorem mem_range_of_seamAt (seam : SeamAt name position) :
    position ∈ (List.range' 1 (name.length - 1)).reverse := by
  have positive := seam.1
  have within := seam.lt_length
  rw [List.mem_reverse, List.mem_range'_1]
  omega

theorem lastSeam?_eq_none (none : lastSeam? name = none) (position : Nat) :
    ¬SeamAt name position := by
  intro seam
  have refused := List.find?_eq_none.mp none position (mem_range_of_seamAt seam)
  simp [seam.2] at refused

theorem lastSeam?_eq_some (found : lastSeam? name = some position) :
    SeamAt name position ∧ ∀ later, position < later → ¬SeamAt name later := by
  obtain ⟨here, passed, rest, parted, refused⟩ := List.find?_eq_some_iff_append.mp found
  have descending : (List.range' 1 (name.length - 1)).reverse.Pairwise (· > ·) :=
    List.pairwise_reverse.mpr List.pairwise_lt_range'
  rw [Bool.and_eq_true, Bool.not_eq_true'] at here
  constructor
  · have listed := List.mem_of_find?_eq_some found
    rw [List.mem_reverse, List.mem_range'_1] at listed
    exact ⟨listed.1, here⟩
  · intro later beyond seam
    have listed := mem_range_of_seamAt seam
    rw [parted, List.pairwise_append] at descending
    rw [parted, List.mem_append, List.mem_cons] at listed
    rcases listed with listed | rfl | listed
    · simpa [seam.2] using refused later listed
    · exact Nat.lt_irrefl _ beyond
    · exact Nat.lt_asymm beyond (List.rel_of_pairwise_cons descending.2.1 listed)

/-- Takes what follows the last seam off the text, as long as there is one. -/
def cutFromEnd (text : List Char) (found : List (List Char)) : List (List Char) :=
  match _ : lastSeam? text with
  | some position => cutFromEnd (text.take position) (text.drop position :: found)
  | none => text :: found
termination_by text.length
decreasing_by
  have within := (lastSeam?_eq_some ‹lastSeam? text = some position›).1.lt_length
  rw [List.length_take]
  omega

theorem cutFromEnd_eq (name : List Char) (found : List (List Char)) :
    cutFromEnd name found = segments name ++ found := by
  fun_induction cutFromEnd name found with
  | case1 name found position last ih =>
      obtain ⟨seam, latest⟩ := lastSeam?_eq_some last
      have short : (name.take position).length = position :=
        List.length_take_of_le (Nat.le_of_lt seam.lt_length)
      have whole : segments (name.drop position) = [name.drop position] := by
        refine segments_eq_singleton fun later inside => ?_
        have positive := inside.1
        rw [← seamAt_append_right positive (name.take position), short,
          List.take_append_drop] at inside
        exact latest (position + later) (by omega) inside
      have parted : segments (name.take position ++ name.drop position) = _ :=
        segments_append (by rwa [List.take_append_drop, short])
      rw [List.take_append_drop, whole] at parted
      rw [ih, parted, List.append_assoc]
      rfl
  | case2 name found none =>
      rw [segments_eq_singleton (lastSeam?_eq_none none)]
      rfl

/-! ## Runs of capitals -/

theorem not_seamAt_of_capitals {run : List Char} (capitals : ∀ c ∈ run, isUppercase c = true)
    (after : front.length < position) (before : position < front.length + run.length) :
    ¬SeamAt (front ++ run ++ back) position := by
  intro seam
  have within : position - 1 - front.length < run.length := by omega
  have here : (front ++ run ++ back)[position - 1]? = some run[position - 1 - front.length] := by
    rw [List.append_assoc, List.getElem?_append_right (by omega),
      List.getElem?_append_left within, List.getElem?_eq_getElem within]
  have capital := capitals _ (List.getElem_mem within)
  have plain := seam.2.2
  rw [capitalAt, here, Option.any_some, capital] at plain
  exact Bool.noConfusion plain

end Lineage.Text

namespace Lineage

open Text

/-- The segments of a name are the one list of texts that make up the name, none of them blank
unless the name is, and that meet at its seams: where a capital follows a character that is none.
No segment has a seam in it, and no run of capitals is divided.  Looking for the last seam again
and again, in what is left before it, ends with the same list. -/
theorem labelSegments_exact (name : String) :
    (∀ pieces : List String,
      pieces = labelSegments name ↔ Cut name.toList (pieces.map String.toList)) ∧
    labelSegments name = (cutFromEnd name.toList []).map String.ofList ∧
    (∀ segment ∈ labelSegments name, ∀ position, ¬SeamAt segment.toList position) ∧
    ∀ front run back, name.toList = front ++ run ++ back →
      (∀ c ∈ run, isUppercase c = true) →
      ∀ position, front.length < position → position < front.length + run.length →
        ¬DividesAt ((labelSegments name).map String.toList) position := by
  have texts := map_toList_labelSegments name
  refine ⟨fun pieces => ⟨?_, fun cut => ?_⟩, ?_, ?_, ?_⟩
  · rintro rfl
    rw [texts]
    exact cut_segments name.toList
  · simp [labelSegments, ← cut.eq_segments]
  · rw [cutFromEnd_eq, List.append_nil, labelSegments]
  · intro segment listed
    obtain ⟨piece, known, rfl⟩ := List.mem_map.mp listed
    rw [String.toList_ofList]
    exact not_seamAt_of_mem piece known
  · intro front run back parted capitals position after before
    rw [texts, (cut_segments name.toList).dividesAt_iff, parted]
    exact not_seamAt_of_capitals capitals after before

theorem labelSegments_exact_of_capitals :
    labelSegments "UITableView" = ["UITable", "View"] ∧
      Cut "UITableView".toList ["UITable".toList, "View".toList] ∧
      ¬DividesAt ["UITable".toList, "View".toList] 2 := by
  have segmented : labelSegments "UITableView" = ["UITable", "View"] := by decide +kernel
  obtain ⟨unique, -, -, whole⟩ := labelSegments_exact "UITableView"
  rw [segmented] at unique whole
  have capitals : "UIT".toList.all isUppercase = true := by decide +kernel
  exact ⟨segmented, (unique _).mp rfl,
    whole [] "UIT".toList "ableView".toList (by decide) (List.all_eq_true.mp capitals) 2
      (by decide) (by decide)⟩

end Lineage
