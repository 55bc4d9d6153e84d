/-!
# White space

The White_Space property of Unicode, trimming by it, and the layout rule of a type that was
written over several lines: the lines are trimmed, blank ones are dropped, and the rest is
joined by single spaces.
-/

namespace Lineage.Text

/-! ## The property -/

/-- The characters with the property White_Space, as closed ranges of code points. -/
def whiteSpaceRanges : List (Nat × Nat) :=
  [(0x09, 0x0D), (0x20, 0x20), (0x85, 0x85), (0xA0, 0xA0), (0x1680, 0x1680),
   (0x2000, 0x200A), (0x2028, 0x2029), (0x202F, 0x202F), (0x205F, 0x205F),
   (0x3000, 0x3000)]

def isWhiteSpace (c : Char) : Bool :=
  whiteSpaceRanges.any fun range => range.1 ≤ c.toNat && c.toNat ≤ range.2

def isLineBreak (c : Char) : Bool :=
  c == '\n' || c == '\r'

theorem isWhiteSpace_of_isLineBreak {c : Char} (h : isLineBreak c = true) :
    isWhiteSpace c = true := by
  simp only [isLineBreak, Bool.or_eq_true, beq_iff_eq] at h
  rcases h with rfl | rfl <;> decide

/-! ## Trimming and cutting -/

def trim (text : List Char) : List Char :=
  ((text.dropWhile isWhiteSpace).reverse.dropWhile isWhiteSpace).reverse

/-- The pieces between the characters that `cut` accepts; there is always one more piece
than there are cuts. -/
def pieces (cut : Char → Bool) : List Char → List (List Char)
  | [] => [[]]
  | c :: rest =>
      if cut c then [] :: pieces cut rest
      else
        match pieces cut rest with
        | [] => [[c]]
        | piece :: others => (c :: piece) :: others

@[simp] theorem pieces_nil (cut : Char → Bool) : pieces cut [] = [[]] := rfl

theorem pieces_ne_nil (cut : Char → Bool) (text : List Char) : pieces cut text ≠ [] := by
  cases text with
  | nil => simp
  | cons c rest =>
      unfold pieces
      split
      · simp
      · split <;> simp

def joinWith (separator : List Char) : List (List Char) → List Char
  | [] => []
  | [piece] => piece
  | piece :: rest => piece ++ separator ++ joinWith separator rest

@[simp] theorem joinWith_nil (separator : List Char) : joinWith separator [] = [] := rfl

@[simp] theorem joinWith_singleton (separator piece : List Char) :
    joinWith separator [piece] = piece := rfl

theorem joinWith_cons_cons (separator first second : List Char) (rest : List (List Char)) :
    joinWith separator (first :: second :: rest) =
      first ++ separator ++ joinWith separator (second :: rest) := rfl

/-! ## Text on one line -/

def solidLines (text : List Char) : List (List Char) :=
  ((pieces isLineBreak text).map trim).filter (!·.isEmpty)

def collapse (text : List Char) : List Char :=
  joinWith [' '] (solidLines text)

end Lineage.Text

namespace Lineage

def collapseText (text : String) : String :=
  String.ofList (Text.collapse text.toList)

end Lineage
