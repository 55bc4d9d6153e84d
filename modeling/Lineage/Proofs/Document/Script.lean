import Lineage.Document.Script
import Lineage.Proofs.Document.Data
import Lineage.Proofs.Document.Page

/-!
# Where the scripts of the documents end

No name spells an end tag, so that a reader of HTML can miss the end of a script only by the mode
in which it comes there.  The text between the names never changes the mode.  Hence the script
ends where it should exactly when the names, read one after the other, do not leave the reader in
a script tag within an opened comment.
-/

namespace Lineage.Script

variable {mode : Mode} {text rest body : List Char}

/-! ## Ends -/

def lastEnd? : List Char → Option (List Char)
  | [] => none
  | c :: rest =>
      (lastEnd? rest).or (if startsWithTag endTag (c :: rest) then some (c :: rest) else none)

def dataTag : List Char := "<script type=\"text/javascript\">".toList

/-- The script with the data ends at the last end tag of the document. -/
def EndsLast (document : String) : Prop :=
  ∃ ending, lastEnd? document.toList = some ending ∧
    (contentAfter? dataTag document.toList).bind (close? .plain 0) = some ending

theorem endsLast_iff_eq (document : String) :
    EndsLast document ↔ (lastEnd? document.toList).isSome = true ∧
      (contentAfter? dataTag document.toList).bind (close? .plain 0) =
        lastEnd? document.toList := by
  rw [EndsLast]
  cases lastEnd? document.toList <;> simp

theorem lastEnd?_append {ending : List Char} (last : lastEnd? rest = some ending)
    (text : List Char) : lastEnd? (text ++ rest) = some ending := by
  induction text with
  | nil => exact last
  | cons c text ih => rw [List.cons_append, lastEnd?, ih, Option.some_or]

theorem contentAfter?_append {tag before : List Char}
    (first : contentAfter? tag (before ++ tag) = some []) (rest : List Char) :
    contentAfter? tag (before ++ tag ++ rest) = some rest := by
  induction before with
  | nil =>
      cases tag with
      | nil => cases first
      | cons c tag =>
          have starts : (c :: tag).isPrefixOf (c :: (tag ++ rest)) = true :=
            List.isPrefixOf_iff_prefix.mpr (List.prefix_append (c :: tag) rest)
          rw [List.nil_append, List.cons_append, contentAfter?, if_pos starts]
          have after : (c :: tag ++ rest).drop (c :: tag).length = rest := List.drop_left
          exact congrArg some after
  | cons c before ih =>
      rw [List.cons_append, contentAfter?] at first
      have later : ¬tag.isPrefixOf (c :: (before ++ tag)) = true := by
        intro starts
        rw [if_pos starts, Option.some.injEq, List.drop_eq_nil_iff] at first
        simp only [List.length_cons, List.length_append] at first
        omega
      rw [if_neg later] at first
      have later' : ¬tag.isPrefixOf (c :: (before ++ tag ++ rest)) = true := by
        rw [List.isPrefixOf_iff_prefix] at later ⊢
        intro starts
        refine later (List.prefix_of_prefix_length_le starts (List.prefix_append _ rest) ?_)
        simp only [List.length_cons, List.length_append]
        omega
      rw [List.cons_append, List.cons_append, contentAfter?, if_neg later']
      exact ih first

/-! ## Modes -/

/-- The mode after the rest of a literal, up to the quote that closes it. -/
def Mode.within (mode : Mode) (dashes : Nat) : List Char → Mode
  | [] => mode
  | c :: rest =>
      (mode.next dashes c (rest ++ ['\''])).within (if c = '-' then dashes + 1 else 0) rest

def Mode.through (mode : Mode) (body : List Char) : Mode :=
  mode.within 0 body

theorem startsWithTag_append_quote {opening : List Char} (foreign : '\'' ∉ opening)
    (text rest : List Char) :
    startsWithTag opening (text ++ '\'' :: rest) = startsWithTag opening (text ++ ['\'']) := by
  by_cases long : opening.length ≤ text.length
  · rw [startsWithTag, startsWithTag, List.take_append_of_le_length long,
      List.take_append_of_le_length long, List.drop_append_of_le_length long,
      List.drop_append_of_le_length long]
    cases text.drop opening.length <;> rfl
  · have short (rest : List Char) : startsWithTag opening (text ++ '\'' :: rest) = false := by
      obtain ⟨more, same⟩ := Nat.exists_eq_add_of_lt (Nat.lt_of_not_le long)
      rw [startsWithTag, Bool.and_eq_false_iff]
      left
      rw [beq_eq_false_iff_ne]
      intro spelled
      refine foreign (spelled ▸ List.mem_map.mpr ⟨'\'', ?_, rfl⟩)
      rw [List.take_append, same]
      simp [Nat.add_assoc]
    rw [short rest, short []]

theorem Mode.next_append_quote (mode : Mode) (dashes : Nat) (c : Char) (text rest : List Char) :
    mode.next dashes c (text ++ '\'' :: rest) = mode.next dashes c (text ++ ['\'']) := by
  have start := startsWithTag_append_quote (show '\'' ∉ startTag by decide) (c :: text) rest
  have finish := startsWithTag_append_quote (show '\'' ∉ endTag by decide) (c :: text) rest
  have opened (rest : List Char) : "<!--".toList.isPrefixOf (c :: (text ++ '\'' :: rest)) =
      "<!--".toList.isPrefixOf (c :: text) := by
    rw [Bool.eq_iff_iff, List.isPrefixOf_iff_prefix, List.isPrefixOf_iff_prefix, ← List.cons_append]
    exact Text.prefix_append_cons_iff (by decide) _ _
  rw [List.cons_append, List.cons_append] at start finish
  simp only [next, opened, start, finish]

theorem eq_of_asciiLower_eq {c d : Char} (foreign : c.toNat < 97) (same : asciiLower d = c) :
    d = c := by
  unfold asciiLower at same
  split at same
  case isTrue capital =>
      have low : 65 ≤ d.toNat := capital.1
      have high : d.toNat ≤ 90 := capital.2
      have valid : (d.toNat + 32).isValidChar := .inl (by omega)
      rw [Char.ofNat, dif_pos valid] at same
      have letter : d.toNat + 32 = c.toNat := congrArg Char.toNat same
      omega
  case isFalse => exact same

/-- The signs in front of a tag name have no other letter case. -/
theorem prefix_of_startsWithTag {signs name : List Char} (caseless : ∀ c ∈ signs, c.toNat < 97)
    (starts : startsWithTag (signs ++ name) text = true) : signs <+: text := by
  rw [startsWithTag, Bool.and_eq_true, beq_iff_eq] at starts
  have lowered : signs <+: text.map asciiLower := by
    have whole := (List.take_prefix (signs ++ name).length text).map asciiLower
    rw [starts.1] at whole
    exact (List.prefix_append signs name).trans whole
  clear starts
  induction signs generalizing text with
  | nil => exact List.nil_prefix
  | cons c signs ih =>
      cases text with
      | nil => simp at lowered
      | cons d text =>
          rw [List.map_cons, List.cons_prefix_cons] at lowered
          rw [eq_of_asciiLower_eq (caseless c (.head _)) lowered.1.symm, List.prefix_cons_inj]
          exact ih (fun c listed => caseless c (.tail _ listed)) lowered.2

theorem prefix_of_startsWithTag_startTag (starts : startsWithTag startTag text = true) :
    ['<'] <+: text := by
  have spelled : startTag = ['<'] ++ "script".toList := by decide
  rw [spelled] at starts
  exact prefix_of_startsWithTag (by simp) starts

theorem prefix_of_startsWithTag_endTag (starts : startsWithTag endTag text = true) :
    ['<', '/'] <+: text := by
  have spelled : endTag = ['<', '/'] ++ "script".toList := by decide
  rw [spelled] at starts
  exact prefix_of_startsWithTag (by simp) starts

/-! ## Texts that quote literals -/

/-- Apart from literals with the given bodies, the text leaves alone the mode of a reader, who
gets to its end whatever follows. -/
def Quotes (text : List Char) (bodies : List (List Char)) : Prop :=
  ∀ mode rest, close? mode 0 (text ++ rest) = close? (bodies.foldl Mode.through mode) 0 rest

variable {bodies bodies' : List (List Char)}

theorem quotes_nil : Quotes [] [] :=
  fun _ _ => rfl

theorem Quotes.append {text' : List Char} (first : Quotes text bodies)
    (second : Quotes text' bodies') : Quotes (text ++ text') (bodies ++ bodies') := by
  intro mode rest
  rw [List.append_assoc, first, second, List.foldl_append]

theorem close?_cons {c : Char} (opens : ¬['<', '/'] <+: c :: rest) (dashes : Nat) :
    close? mode dashes (c :: rest) =
      close? (mode.next dashes c rest) (if c = '-' then dashes + 1 else 0) rest := by
  rw [close?, if_neg]
  rintro ⟨-, starts⟩
  exact opens (prefix_of_startsWithTag_endTag starts)

theorem Mode.next_of_foreign {dashes : Nat} {c : Char} (foreign : c ≠ '<')
    (bare : c = '>' → dashes < 2) : mode.next dashes c rest = mode := by
  have absent {opening : List Char} : ¬ '<' :: opening <+: c :: rest := by
    rw [List.cons_prefix_cons]
    rintro ⟨rfl, -⟩
    exact foreign rfl
  cases mode with
  | plain => exact if_neg fun starts => absent (List.isPrefixOf_iff_prefix.mp starts)
  | comment =>
      rw [next, if_neg fun bracket => by have := bare bracket.1; omega, if_neg]
      exact fun starts => absent (prefix_of_startsWithTag_startTag starts)
  | nested =>
      rw [next, if_neg fun bracket => by have := bare bracket.1; omega, if_neg]
      exact fun starts => absent (prefix_of_startsWithTag_endTag starts)

/-- Neither a tag nor a comment begins or ends without these. -/
def Inert (text : List Char) : Prop :=
  '<' ∉ text ∧ '-' ∉ text

instance decidableInert (text : List Char) : Decidable (Inert text) :=
  inferInstanceAs (Decidable (_ ∧ _))

theorem Inert.quotes (inert : Inert text) : Quotes text [] := by
  intro mode rest
  induction text with
  | nil => rfl
  | cons c text ih =>
      obtain ⟨tags, comments⟩ := inert
      have foreign : c ≠ '<' := fun same => tags (same ▸ .head _)
      have hyphen : c ≠ '-' := fun same => comments (same ▸ .head _)
      have opens : ¬['<', '/'] <+: c :: (text ++ rest) := by
        rw [List.cons_prefix_cons]
        exact fun starts => foreign starts.1.symm
      rw [List.cons_append, close?_cons opens, if_neg hyphen,
        Mode.next_of_foreign foreign fun _ => Nat.zero_lt_two]
      exact ih ⟨fun within => tags (.tail _ within), fun within => comments (.tail _ within)⟩

theorem close?_within (closed : ¬['<', '/'] <:+: body) (dashes : Nat) (rest : List Char) :
    close? mode dashes (body ++ '\'' :: rest) = close? (mode.within dashes body) 0 rest := by
  induction body generalizing mode dashes with
  | nil =>
      have opens : ¬['<', '/'] <+: '\'' :: rest := by simp [List.cons_prefix_cons]
      rw [List.nil_append, close?_cons opens, Mode.next_of_foreign (by decide) (by simp)]
      rfl
  | cons c body ih =>
      have opens : ¬['<', '/'] <+: c :: (body ++ '\'' :: rest) := by
        rw [← List.cons_append, Text.prefix_append_cons_iff (by decide)]
        exact fun starts => closed starts.isInfix
      rw [List.cons_append, close?_cons opens, Mode.next_append_quote,
        ih fun within => closed (List.infix_cons_iff.mpr (.inr within))]
      rfl

theorem quotes_literal (closed : ¬['<', '/'] <:+: body) :
    Quotes ('\'' :: body ++ ['\'']) [body] := by
  intro mode rest
  have opens : ¬['<', '/'] <+: '\'' :: (body ++ '\'' :: rest) := by
    simp [List.cons_prefix_cons]
  rw [List.append_assoc, List.singleton_append, List.cons_append, close?_cons opens,
    Mode.next_of_foreign (by decide) (by simp), close?_within closed]
  rfl

theorem quotes_field {key : String} (inert : Inert key.toList) (closed : ¬['<', '/'] <:+: body) :
    Quotes (Record.field key body) [body] := by
  have colon : Inert ": ".toList := by decide
  exact (inert.quotes.append colon.quotes).append (quotes_literal closed)

/-! ## Lines -/

theorem quotes_joinWith {separator : List Char} (inert : Inert separator)
    {texts : List (List Char)} {bodies : List (List (List Char))}
    (quoted : List.Forall₂ Quotes texts bodies) :
    Quotes (Text.joinWith separator texts) bodies.flatten := by
  induction quoted with
  | nil => exact quotes_nil
  | @cons text first texts bodies here others ih =>
      cases others with
      | nil => simpa using here
      | cons next others =>
          rw [Text.joinWith_cons_cons, List.flatten_cons]
          simpa using (here.append inert.quotes).append ih

theorem forall₂_quotes_fields {keys : List String} (inert : ∀ key ∈ keys, Inert key.toList)
    (paired : keys.length = bodies.length) (closed : ∀ body ∈ bodies, ¬['<', '/'] <:+: body) :
    List.Forall₂ Quotes (List.zipWith Record.field keys bodies)
      (bodies.map fun body => [body]) := by
  induction keys generalizing bodies with
  | nil =>
      obtain rfl := List.length_eq_zero_iff.mp paired.symm
      exact .nil
  | cons key keys ih =>
      obtain ⟨body, bodies, rfl⟩ := List.exists_cons_of_length_eq_add_one paired.symm
      refine .cons (quotes_field (inert key (.head _)) (closed body (.head _))) ?_
      exact ih (fun key listed => inert key (.tail _ listed)) (Nat.succ.inj paired)
        fun body listed => closed body (.tail _ listed)

theorem quotes_line {keys : List String} (inert : ∀ key ∈ keys, Inert key.toList)
    (paired : keys.length = bodies.length) (closed : ∀ body ∈ bodies, ¬['<', '/'] <:+: body) :
    Quotes (Record.line keys bodies) bodies := by
  have opening : Inert "        \x7b ".toList := by decide
  have separator : Inert ", ".toList := by decide
  have closing : Inert " \x7d,".toList := by decide
  have fields := quotes_joinWith separator (forall₂_quotes_fields inert paired closed)
  have joined := (opening.quotes.append fields).append closing.quotes
  rwa [List.nil_append, List.append_nil, ← List.flatMap_def, List.flatMap_singleton'] at joined

variable {α : Type} {write : α → List Char} {literals : α → List (List Char)}

theorem quotes_joinWith_map {separator : List Char} (inert : Inert separator)
    (quoted : ∀ value, Quotes (write value) (literals value)) (values : List α) :
    Quotes (Text.joinWith separator (values.map write)) (values.flatMap literals) := by
  rw [List.flatMap_def]
  apply quotes_joinWith inert
  rw [List.forall₂_map_left_iff, List.forall₂_map_right_iff, List.forall₂_same]
  exact fun value _ => quoted value

theorem quotes_lines_map (quoted : ∀ value, Quotes (write value) (literals value))
    (values : List α) :
    Quotes ((values.map write).flatMap (· ++ ['\n'])) (values.flatMap literals) := by
  have lineFeed : Inert ['\n'] := by decide
  induction values with
  | nil => exact quotes_nil
  | cons value values ih => simpa using ((quoted value).append lineFeed.quotes).append ih

theorem quotes_lines_of_inert {lines : List (List Char)} (inert : ∀ line ∈ lines, Inert line) :
    Quotes (lines.flatMap (· ++ ['\n'])) [] := by
  have lineFeed : Inert ['\n'] := by decide
  induction lines with
  | nil => exact quotes_nil
  | cons line lines ih =>
      have others := ih fun line listed => inert line (.tail _ listed)
      simpa using ((inert line (.head _)).quotes.append lineFeed.quotes).append others

/-! ## The end of a document -/

def linkBodies (link : String × String) : List (List Char) :=
  [Text.Quoted.escape link.1.toList, Text.Quoted.escape link.2.toList]

theorem close?_of_startsWithTag (starts : startsWithTag endTag text = true)
    (apart : mode ≠ .nested) : close? mode 0 text = some text := by
  cases text with
  | nil => exact absurd starts (by decide)
  | cons c text => rw [close?, if_pos ⟨apart, starts⟩]

theorem endsLast_iff_of_quotes (before ending : List Char) {document : String}
    {content : List Char} (written : document.toList = before ++ dataTag ++ (content ++ ending))
    (first : contentAfter? dataTag (before ++ dataTag) = some [])
    (quoted : Quotes content bodies) (starts : startsWithTag endTag ending = true)
    (last : lastEnd? ending = some ending) (hidden : close? .nested 0 ending = none) :
    EndsLast document ↔ bodies.foldl Mode.through .plain ≠ .nested := by
  have last' : lastEnd? document.toList = some ending := by
    rw [written, ← List.append_assoc]
    exact lastEnd?_append last _
  rw [EndsLast, last', written, contentAfter?_append first, Option.bind_some, quoted]
  constructor
  · rintro ⟨_, -, closed⟩ nested
    rw [nested, hidden] at closed
    cases closed
  · exact fun apart => ⟨ending, rfl, close?_of_startsWithTag starts apart⟩

theorem quotes_linkLine {keys : List String} (inert : ∀ key ∈ keys, Inert key.toList)
    (paired : keys.length = 2) (link : String × String) :
    Quotes (Record.line keys (linkBodies link)) (linkBodies link) := by
  refine quotes_line inert paired ?_
  simp [linkBodies, Text.Quoted.not_endTag_infix_escape]

/-! ## The data document -/

def dataBodies (graph : Graph) : List (List Char) :=
  graph.nodeList.flatMap (fun node => [Text.Quoted.escape node.toList]) ++
    graph.links.flatMap linkBodies

theorem endsLast_data_iff (graph : Graph) :
    EndsLast graph.data ↔ (dataBodies graph).foldl Mode.through .plain ≠ .nested := by
  have opening : ∀ line ∈ Data.opening.drop 1, Inert line := by decide
  have middle : ∀ line ∈ Data.middle, Inert line := by decide
  have closing : ∀ line ∈ Data.closing.take 3, Inert line := by decide
  have lineFeed : Inert ['\n'] := by decide
  have nodes : ∀ node, Quotes (Data.nodeLine node) [Text.Quoted.escape node.toList] := by
    intro node
    exact quotes_line (by decide) rfl (by simp [Text.Quoted.not_endTag_infix_escape])
  have links : ∀ link, Quotes (Data.linkLine link) (linkBodies link) :=
    quotes_linkLine (by decide) rfl
  have quoted := lineFeed.quotes.append <| (quotes_lines_of_inert opening).append <|
    (quotes_lines_map nodes graph.nodeList).append <| (quotes_lines_of_inert middle).append <|
    (quotes_lines_map links graph.links).append (quotes_lines_of_inert closing)
  rw [List.append_nil] at quoted
  refine endsLast_iff_of_quotes [] "</script>\n".toList ?_ (by decide) quoted (by decide)
    (by decide) (by decide)
  have split : Data.opening = dataTag :: Data.opening.drop 1 ∧
      Data.closing = Data.closing.take 3 ++ ["</script>".toList] := by decide
  rw [Graph.data, String.toList_ofList, Data.text, Data.lines]
  conv_lhs => rw [split.1, split.2]
  simp only [List.flatMap_append, List.flatMap_cons, List.flatMap_nil, List.append_assoc,
    List.append_nil, List.nil_append]
  rfl

/-! ## The page -/

def pageBodies (graph : Graph) : List (List Char) :=
  graph.nodeList.flatMap (fun node => [Text.Quoted.escape node.toList, Text.label node.toList]) ++
    graph.links.flatMap linkBodies

theorem Inert.replace {pattern replacement : List Char} (nonempty : pattern ≠ [])
    (inert : Inert text) (inert' : Inert replacement) :
    Inert (Text.replace pattern replacement text) := by
  obtain ⟨marks, -, counts⟩ := Text.exists_count_replace nonempty replacement text
  have absent {c : Char} (outside : c ∉ text) (outside' : c ∉ replacement) :
      c ∉ Text.replace pattern replacement text := by
    rw [← List.count_eq_zero] at outside outside' ⊢
    have balance := counts c
    rw [outside, outside', Nat.mul_zero] at balance
    omega
  exact ⟨absent inert.1 inert'.1, absent inert.2 inert'.2⟩

theorem inert_digits (distance : Nat) : Inert (toString distance).toList :=
  ⟨fun within => absurd (Page.digit_of_mem_toString within) (by decide),
    fun within => absurd (Page.digit_of_mem_toString within) (by decide)⟩

def afterScript : List (List Char) :=
  ["</script>", "</body>", "</html>", ""].map String.toList

def beforeEnd (distance : Nat) : List (List Char) :=
  (Page.afterEdges.take 29).map (Text.replace Page.distanceMark (toString distance).toList)

theorem inert_beforeEnd (distance : Nat) : ∀ line ∈ beforeEnd distance, Inert line := by
  have inert : ∀ line ∈ Page.afterEdges.take 29, Inert line := by decide +kernel
  intro line listed
  obtain ⟨original, among, rfl⟩ := List.mem_map.mp listed
  exact (inert original among).replace (by decide) (inert_digits distance)

theorem closing_eq (distance : Nat) :
    Text.joinWith ['\n'] (Page.closing distance) =
      (beforeEnd distance).flatMap (· ++ ['\n']) ++ Text.joinWith ['\n'] afterScript := by
  have split : Page.afterEdges = Page.afterEdges.take 29 ++ afterScript :=
    (List.take_append_drop 29 Page.afterEdges).symm
  have unmarked := Page.map_replace_of_absent (show ∀ line ∈ afterScript,
    ¬Page.distanceMark <:+: line by decide) (toString distance).toList
  rw [Page.closing]
  conv_lhs => rw [split, List.map_append, unmarked]
  exact Text.joinWith_append (by decide) _ _

theorem endsLast_page_iff {graph : Graph} (unmarked : Page.Unmarked graph) (distance : Nat) :
    EndsLast (graph.page distance) ↔ (pageBodies graph).foldl Mode.through .plain ≠ .nested := by
  have before : ∀ line ∈ Page.beforeNodes.drop 16, Inert line := by decide
  have between : ∀ line ∈ Page.beforeEdges, Inert line := by decide
  have lineFeed : Inert ['\n'] := by decide
  have nodes : ∀ node, Quotes (Page.nodeLine node)
      [Text.Quoted.escape node.toList, Text.label node.toList] := by
    intro node
    refine quotes_line (by decide) rfl ?_
    simp [Text.Quoted.not_endTag_infix_escape, Text.not_endTag_infix_label]
  have links : ∀ link, Quotes (Page.edgeLine link) (linkBodies link) :=
    quotes_linkLine (by decide) rfl
  have quoted := lineFeed.quotes.append <| (quotes_lines_of_inert before).append <|
    (quotes_joinWith_map lineFeed nodes graph.nodeList).append <| lineFeed.quotes.append <|
    (quotes_lines_of_inert between).append <|
    (quotes_joinWith_map lineFeed links graph.links).append <| lineFeed.quotes.append <|
    quotes_lines_of_inert (inert_beforeEnd distance)
  simp only [List.nil_append, List.append_nil] at quoted
  refine endsLast_iff_of_quotes ((Page.beforeNodes.take 15).flatMap (· ++ ['\n']))
    (Text.joinWith ['\n'] afterScript) ?_ (by decide +kernel) quoted (by decide)
    (by decide) (by decide)
  have split : Page.beforeNodes =
      Page.beforeNodes.take 15 ++ dataTag :: Page.beforeNodes.drop 16 :=
    (List.take_append_drop 15 Page.beforeNodes).symm
  rw [(Page.page_eq_iff graph distance).mpr unmarked, String.toList_ofList, Page.filled_eq,
    Page.framed_eq (Page.closing_ne_nil distance), closing_eq]
  conv_lhs => rw [split]
  simp only [List.flatMap_append, List.flatMap_cons, List.flatMap_nil, List.append_assoc,
    List.append_nil]
  rfl

/-! ## Names -/

def commentOpening : List Char := "<!--".toList

theorem Mode.within_plain (absent : ¬commentOpening <:+: body) (dashes : Nat) :
    Mode.within .plain dashes body = .plain := by
  induction body generalizing dashes with
  | nil => rfl
  | cons c body ih =>
      have opens : ¬"<!--".toList.isPrefixOf (c :: (body ++ ['\''])) = true := by
        rw [List.isPrefixOf_iff_prefix, ← List.cons_append,
          Text.prefix_append_cons_iff (by decide)]
        exact fun starts => absent starts.isInfix
      rw [within, next, if_neg opens]
      exact ih (fun within => absent (List.infix_cons_iff.mpr (.inr within))) _

theorem foldl_through_plain (absent : ∀ body ∈ bodies, ¬commentOpening <:+: body) :
    bodies.foldl Mode.through .plain = .plain := by
  induction bodies with
  | nil => rfl
  | cons body bodies ih =>
      rw [List.foldl_cons, Mode.through, Mode.within_plain (absent body (.head _))]
      exact ih fun body listed => absent body (.tail _ listed)

theorem not_commentOpening_infix_escape {name : List Char} (absent : ¬commentOpening <:+: name) :
    ¬commentOpening <:+: Text.Quoted.escape name :=
  fun within => absent (Text.Quoted.infix_of_infix_escape (by decide) within)

theorem not_commentOpening_infix_label {name : List Char} (absent : ¬commentOpening <:+: name) :
    ¬commentOpening <:+: Text.label name := by
  intro within
  obtain ⟨segment, segmented, within⟩ :=
    Text.exists_segment_of_infix_label (by decide) (by decide) within
  refine not_commentOpening_infix_escape (fun inside => absent ?_) within
  exact Text.infix_of_infix_segment segmented inside

structure Uncommented (graph : Graph) : Prop where
  nodes : ∀ node ∈ graph.nodeList, ¬commentOpening <:+: node.toList
  links : ∀ link ∈ graph.links,
    ¬commentOpening <:+: link.1.toList ∧ ¬commentOpening <:+: link.2.toList

theorem Uncommented.linkBodies {graph : Graph} (uncommented : Uncommented graph) :
    ∀ body ∈ graph.links.flatMap linkBodies, ¬commentOpening <:+: body := by
  intro body listed
  obtain ⟨link, linked, listed⟩ := List.mem_flatMap.mp listed
  obtain ⟨source, target⟩ := uncommented.links link linked
  rcases List.mem_pair.mp listed with rfl | rfl
  · exact not_commentOpening_infix_escape source
  · exact not_commentOpening_infix_escape target

theorem Uncommented.dataBodies {graph : Graph} (uncommented : Uncommented graph) :
    ∀ body ∈ dataBodies graph, ¬commentOpening <:+: body := by
  intro body listed
  rcases List.mem_append.mp listed with listed | listed
  · obtain ⟨node, among, listed⟩ := List.mem_flatMap.mp listed
    obtain rfl := List.mem_singleton.mp listed
    exact not_commentOpening_infix_escape (uncommented.nodes node among)
  · exact uncommented.linkBodies body listed

theorem Uncommented.pageBodies {graph : Graph} (uncommented : Uncommented graph) :
    ∀ body ∈ pageBodies graph, ¬commentOpening <:+: body := by
  intro body listed
  rcases List.mem_append.mp listed with listed | listed
  · obtain ⟨node, among, listed⟩ := List.mem_flatMap.mp listed
    have absent := uncommented.nodes node among
    rcases List.mem_pair.mp listed with rfl | rfl
    · exact not_commentOpening_infix_escape absent
    · exact not_commentOpening_infix_label absent
  · exact uncommented.linkBodies body listed

/-- The script ends at the last end tag of the document if and only if the names, one after the
other, do not leave the reader in a script tag within a comment; they cannot where none of them
opens a comment.  Of a page this holds if it is the one of which all marks are filled at once. -/
theorem endsLast_iff_not_nested (graph : Graph) (distance : Nat) :
    (EndsLast graph.data ↔ (dataBodies graph).foldl Mode.through .plain ≠ .nested) ∧
      (Page.Unmarked graph →
        (EndsLast (graph.page distance) ↔
          (pageBodies graph).foldl Mode.through .plain ≠ .nested)) ∧
      (Uncommented graph → EndsLast graph.data) ∧
      (Uncommented graph → Page.Unmarked graph → EndsLast (graph.page distance)) := by
  refine ⟨endsLast_data_iff graph, fun unmarked => endsLast_page_iff unmarked distance, ?_, ?_⟩
  · intro uncommented
    rw [endsLast_data_iff, foldl_through_plain uncommented.dataBodies]
    decide
  · intro uncommented unmarked
    rw [endsLast_page_iff unmarked, foldl_through_plain uncommented.pageBodies]
    decide

/-- The first graph has a name that hides the end tag.  In the page of the second one the marks
leave an end tag behind in a name. -/
theorem not_endsLast_of_nested_name :
    let opening := (∅ : Graph).addEdge "A" "<!--<script>"
    let marked := (∅ : Graph).addEdges "<__EDGES__/script>" []
    ¬EndsLast opening.data ∧ ¬EndsLast (opening.page 400) ∧
      EndsLast marked.data ∧ ¬EndsLast (marked.page 400) := by
  intro opening marked
  have unmarked : Page.Unmarked opening := by
    constructor <;> decide +kernel
  refine ⟨?_, ?_, ?_, ?_⟩
  · rw [endsLast_data_iff]
    decide +kernel
  · rw [endsLast_page_iff unmarked]
    decide +kernel
  · rw [endsLast_data_iff]
    decide +kernel
  · rw [endsLast_iff_eq, Graph.page, String.toList_ofList]
    decide +kernel

end Lineage.Script
