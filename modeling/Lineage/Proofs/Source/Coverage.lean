import Lineage.Proofs.Source.Positions
import Lineage.Proofs.Source.Walk
import Lineage.Source.Reader

/-!
# Trees that fit a source

A parser reads a source as a row of lexemes: the words, the marks, and what stands between them.  A
node reaches from one end of a lexeme to another, and so do the nodes in it, one after the other.
All that is known of its bytes and of its position follows from the lexemes before it.
-/

namespace Lineage.Source

variable {lexemes : List String} {content : String}

/-- The text from one number of lexemes up to another. -/
def between (lexemes : List String) (first last : Nat) : String :=
  String.join ((lexemes.take last).drop first)

theorem between_append {first middle last : Nat} (before : first ≤ middle) (after : middle ≤ last)
    (within : last ≤ lexemes.length) :
    between lexemes first middle ++ between lexemes middle last = between lexemes first last := by
  have split : lexemes.take last = lexemes.take middle ++ (lexemes.take last).drop middle := by
    have parts := List.take_append_drop middle (lexemes.take last)
    rw [List.take_take, Nat.min_eq_left after] at parts
    exact parts.symm
  have inside : first ≤ (lexemes.take middle).length := by
    rw [List.length_take]
    omega
  rw [between, between, between, ← String.join_append, ← List.drop_append_of_le_length inside,
    ← split]

theorem between_length : between lexemes 0 lexemes.length = String.join lexemes := by
  rw [between, List.take_length, List.drop_zero]

namespace Node

variable {first last start stop : Nat} {label : Label} {node child root : Node}
variable {children nodes : List Node} {place : Place}

/-! ## Rows of nodes -/

structure Bounds (lexemes : List String) (start stop : Nat) (label : Label) : Prop where
  startByte : label.startByte = (between lexemes 0 start).utf8ByteSize
  endByte : label.endByte = (between lexemes 0 stop).utf8ByteSize
  start : label.start = Position.start.after (between lexemes 0 start)

/-- The nodes follow one another within the lexemes from `first` to `last`, each around those in
it. -/
inductive Covers (lexemes : List String) : Nat → Nat → List Node → Prop where
  | nil {first last : Nat} : first ≤ last → last ≤ lexemes.length → Covers lexemes first last []
  | cons {first start stop last : Nat} {label : Label} {children rest : List Node} :
      first ≤ start → Bounds lexemes start stop label → Covers lexemes start stop children →
      Covers lexemes stop last rest → Covers lexemes first last (⟨label, children⟩ :: rest)

theorem Covers.le (covers : Covers lexemes first last nodes) :
    first ≤ last ∧ last ≤ lexemes.length := by
  induction covers with
  | nil ordered within => exact ⟨ordered, within⟩
  | cons before _ _ _ inner later => omega

theorem Covers.mono {lower : Nat} (covers : Covers lexemes first last nodes)
    (below : lower ≤ first) : Covers lexemes lower last nodes := by
  cases covers with
  | nil ordered within => exact .nil (Nat.le_trans below ordered) within
  | cons before bounds inner later => exact .cons (Nat.le_trans below before) bounds inner later

def Spans (lexemes : List String) (start stop : Nat) (node : Node) : Prop :=
  Bounds lexemes start stop node.toLabel ∧ Covers lexemes start stop node.children

theorem covers_cons_iff {rest : List Node} :
    Covers lexemes first last (node :: rest) ↔
      ∃ start stop, first ≤ start ∧ node.Spans lexemes start stop ∧
        Covers lexemes stop last rest := by
  constructor
  · rintro (_ | ⟨before, bounds, inner, later⟩)
    exact ⟨_, _, before, ⟨bounds, inner⟩, later⟩
  · obtain ⟨label, children⟩ := node
    rintro ⟨start, stop, before, ⟨bounds, inner⟩, later⟩
    exact .cons before bounds inner later

theorem Covers.append {front back : List Node}
    (covers : Covers lexemes first last (front ++ back)) :
    ∃ middle, Covers lexemes first middle front ∧ Covers lexemes middle last back := by
  induction front generalizing first with
  | nil => exact ⟨first, .nil (Nat.le_refl _) (Nat.le_trans covers.le.1 covers.le.2), covers⟩
  | cons node front ih =>
      obtain ⟨start, stop, before, spans, rest⟩ := covers_cons_iff.mp covers
      obtain ⟨middle, here, later⟩ := ih rest
      exact ⟨middle, covers_cons_iff.mpr ⟨start, stop, before, spans, here⟩, later⟩

theorem Covers.of_mem (covers : Covers lexemes first last nodes) (listed : node ∈ nodes) :
    ∃ start stop, first ≤ start ∧ stop ≤ last ∧ node.Spans lexemes start stop := by
  obtain ⟨front, back, rfl⟩ := List.mem_iff_append.mp listed
  obtain ⟨middle, here, later⟩ := covers.append
  obtain ⟨start, stop, before, spans, rest⟩ := covers_cons_iff.mp later
  exact ⟨start, stop, Nat.le_trans here.le.1 before, rest.le.1, spans⟩

theorem Spans.le (spans : node.Spans lexemes start stop) :
    start ≤ stop ∧ stop ≤ lexemes.length :=
  spans.2.le

theorem Spans.of_at? (spans : root.Spans lexemes first last) (found : root.at? place = some node) :
    ∃ start stop, first ≤ start ∧ stop ≤ last ∧ node.Spans lexemes start stop := by
  induction place generalizing root first last with
  | nil =>
      cases found
      exact ⟨first, last, Nat.le_refl _, Nat.le_refl _, spans⟩
  | cons index place ih =>
      obtain ⟨child, here, found⟩ := at?_cons_eq_some_iff.mp found
      obtain ⟨start, stop, after, before, inner⟩ := spans.2.of_mem (List.mem_of_getElem? here)
      obtain ⟨start', stop', after', before', below⟩ := ih inner found
      exact ⟨start', stop', Nat.le_trans after after', Nat.le_trans before' before, below⟩

theorem Spans.join_eq (spans : node.Spans lexemes start stop) :
    String.join lexemes =
      between lexemes 0 start ++
        (between lexemes start stop ++ between lexemes stop lexemes.length) := by
  obtain ⟨ordered, within⟩ := spans.le
  rw [between_append ordered within (Nat.le_refl _),
    between_append (Nat.zero_le _) (Nat.le_trans ordered within) (Nat.le_refl _), between_length]

theorem Spans.endByte (spans : node.Spans lexemes start stop) :
    node.endByte = (between lexemes 0 start ++ between lexemes start stop).utf8ByteSize := by
  rw [between_append (Nat.zero_le _) spans.le.1 spans.le.2]
  exact spans.1.endByte

theorem Spans.text? (spans : node.Spans lexemes start stop) :
    node.text? (String.join lexemes) = some (between lexemes start stop) := by
  rw [Node.text?, spans.1.startByte, spans.endByte, spans.join_eq]
  exact slice?_append _ _ _

/-! ## Trees -/

/-- If the node is a declaration, its name stands before its specifiers. -/
def HasNameFirst (node : Node) : Prop :=
  node.isDeclaration = true → ∀ name, node.nameNode? = some name →
    ∃ front back, node.children = front ++ name :: back ∧
      ∀ other ∈ front ++ [name], other.isSpecifier = false

theorem HasNameFirst.congr {other : Node} (first : node.HasNameFirst)
    (kinds : node.kind = other.kind) (children : node.children = other.children) : other.HasNameFirst := by
  intro declares name named
  rw [isDeclaration, ← kinds] at declares
  rw [nameNode?, child?, ← children] at named
  rw [← children]
  exact first declares name named

/-- The tree is one of the source: its nodes are around lexemes of it, and names come first in its
declarations. -/
structure Fits (content : String) (root : Node) : Prop where
  covers : ∃ lexemes, String.join lexemes = content ∧ Covers lexemes 0 lexemes.length [root]
  named : ∀ place node, root.at? place = some node → node.HasNameFirst

theorem Fits.exists_spans (fits : root.Fits content) :
    ∃ lexemes first last, String.join lexemes = content ∧ root.Spans lexemes first last := by
  obtain ⟨lexemes, whole, covers⟩ := fits.covers
  obtain ⟨first, last, -, spans, -⟩ := covers_cons_iff.mp covers
  exact ⟨lexemes, first, last, whole, spans⟩

theorem Fits.exists_around (fits : root.Fits content) (found : root.at? place = some node) :
    ∃ front text back, content = front ++ (text ++ back) ∧ node.text? content = some text ∧
      node.startByte = front.utf8ByteSize ∧ node.endByte = (front ++ text).utf8ByteSize ∧
      node.start = Position.start.after front := by
  obtain ⟨lexemes, first, last, rfl, spans⟩ := fits.exists_spans
  obtain ⟨start, stop, -, -, here⟩ := spans.of_at? found
  exact ⟨_, _, _, here.join_eq, here.text?, here.1.startByte, here.endByte, here.1.start⟩

end Node

abbrev TreeParser.FitsAt (parser : TreeParser) (source : String) : Prop :=
  ∀ root, parser source = .ok root → root.Fits source

end Lineage.Source
