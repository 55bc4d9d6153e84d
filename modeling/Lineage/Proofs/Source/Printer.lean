import Lineage.Proofs.Source.Positions
import Lineage.Source.Printer

/-!
# Lines of printed declarations

A printed type stays on its line, a filler takes one, and a declaration takes as many as its height.
-/

namespace Lineage.Source.Printer

variable {text : String} {types : List Supertype}

/-! ## Types -/

namespace Supertype

variable {type : Supertype} {name : String}

theorem isPrintable_of_mem (printable : arePrintable types = true) (listed : type ∈ types) :
    type.isPrintable = true := by
  induction types with
  | nil => cases listed
  | cons first types ih =>
      rw [arePrintable, Bool.and_eq_true] at printable
      rcases List.mem_cons.mp listed with rfl | listed
      · exact printable.1
      · exact ih printable.2 listed

theorem text_entry (type : Supertype) : type.entry.text = type.print := by
  obtain ⟨name, _ | ⟨first, rest⟩⟩ := type <;> rfl

theorem printAll_eq_map (types : List Supertype) : printAll types = types.map print := by
  induction types with
  | nil => rfl
  | cons first types ih => rw [printAll, ih, List.map_cons]

theorem newlines_name (typeName : isTypeName name = true) : newlines name = 0 := by
  refine List.count_eq_zero.mpr fun listed => ?_
  unfold isTypeName at typeName
  cases spelled : name.toList with
  | nil => simp [spelled] at listed
  | cons first rest =>
      simp only [spelled, Bool.and_eq_true, List.all_eq_true] at typeName
      rw [spelled, List.mem_cons] at listed
      rcases listed with rfl | listed
      · exact absurd typeName.1.1 (by decide)
      · exact absurd (typeName.1.2 _ listed) (by decide)

theorem newlines_intercalate {texts : List String} (unbroken : ∀ text ∈ texts, newlines text = 0) :
    newlines (String.intercalate ", " texts) = 0 := by
  induction texts with
  | nil => rfl
  | cons first texts ih =>
      have later := ih fun text listed => unbroken text (by simp [listed])
      cases texts with
      | nil => rw [String.intercalate_singleton, unbroken first (by simp)]
      | cons second texts =>
          rw [String.intercalate_cons_cons, newlines_append, newlines_append, later,
            unbroken first (by simp)]
          rfl

theorem newlines_row (printable : arePrintable types = true)
    (unbroken : ∀ type ∈ types, type.isPrintable = true → newlines type.print = 0) :
    newlines (String.intercalate ", " (printAll types)) = 0 := by
  refine newlines_intercalate fun text listed => ?_
  rw [printAll_eq_map] at listed
  obtain ⟨type, member, rfl⟩ := List.mem_map.mp listed
  exact unbroken type member (isPrintable_of_mem printable member)

theorem newlines_print (printable : type.isPrintable = true) : newlines type.print = 0 := by
  induction type using Supertype.induction with
  | apply name arguments ih =>
      rw [isPrintable, Bool.and_eq_true] at printable
      cases arguments with
      | nil => exact newlines_name printable.1
      | cons first types =>
          rw [print, specializedName, newlines_append, newlines_append, newlines_append,
            newlines_name printable.1, ← printAll, newlines_row printable.2 ih]
          rfl

end Supertype

theorem newlines_inheritanceClause (printable : Supertype.arePrintable types = true) :
    newlines (inheritanceClause types) = 0 := by
  cases types with
  | nil => rfl
  | cons first types =>
      have row := Supertype.newlines_row printable fun type _ => Supertype.newlines_print
      simp only [inheritanceClause, newlines_append, row]
      rfl

/-! ## Lines without declarations -/

theorem newlines_of_areBlanks {white : String} (blanks : Filler.areBlanks white = true) :
    newlines white = 0 := by
  refine List.count_eq_zero.mpr fun listed => ?_
  exact absurd (List.all_eq_true.mp blanks _ listed) (by decide)

theorem newlines_filler {filler : Filler} (printable : filler.isPrintable = true) :
    newlines filler.print = 1 := by
  cases filler with
  | blank white =>
      rw [Filler.print, newlines_append, newlines_of_areBlanks printable]
      rfl
  | comment white text =>
      rw [Filler.isPrintable, Bool.and_eq_true] at printable
      have unbroken : newlines text = 0 := by
        refine List.count_eq_zero.mpr fun listed => ?_
        exact absurd (List.all_eq_true.mp printable.2 _ listed) (by decide)
      rw [Filler.print, newlines_append, newlines_append, newlines_append,
        newlines_of_areBlanks printable.1, unbroken]
      rfl

theorem newlines_printFillers {fillers : List Filler}
    (printable : fillers.all Filler.isPrintable = true) :
    newlines (printFillers fillers) = fillers.length := by
  induction fillers with
  | nil => rfl
  | cons filler fillers ih =>
      rw [List.all_cons, Bool.and_eq_true] at printable
      have later := ih printable.2
      rw [printFillers] at later
      rw [printFillers, List.map_cons, String.join_cons, newlines_append,
        newlines_filler printable.1, later, List.length_cons, Nat.add_comm]

/-! ## Declarations -/

def printHead (kind : DeclarationKind) (name : String) (supertypes : List Supertype) : String :=
  kind.keyword ++ " " ++ name ++ inheritanceClause supertypes ++ " \x7b\n"

theorem newlines_printHead {kind : DeclarationKind} {name : String}
    (typeName : Supertype.isTypeName name = true)
    (printable : Supertype.arePrintable types = true) :
    newlines (printHead kind name types) = 1 := by
  have keyword : newlines kind.keyword = 0 := by cases kind <;> rfl
  have space : newlines " " = 0 := rfl
  have opening : newlines " \x7b\n" = 1 := rfl
  simp only [printHead, newlines_append, keyword, space, opening, Supertype.newlines_name typeName,
    newlines_inheritanceClause printable]

namespace Member

variable {isInner : Bool} {front back members : List Member} {member : Member}

theorem print_declare (above below : List Filler) (kind : DeclarationKind) (name : String)
    (supertypes : List Supertype) (members : List Member) :
    print (.declare above kind name supertypes members below) =
      printFillers above ++ (printHead kind name supertypes ++
        (printAll members ++ (printFillers below ++ "\x7d\n"))) := by
  simp only [print, printHead, String.append_assoc]

theorem printAll_declare (above below : List Filler) (kind : DeclarationKind) (name : String)
    (supertypes : List Supertype) (members others : List Member) (back : String) :
    printAll (.declare above kind name supertypes members below :: others) ++ back =
      printFillers above ++ (printHead kind name supertypes ++ (printAll members ++
        (printFillers below ++ ("\x7d\n" ++ (printAll others ++ back))))) := by
  rw [printAll, print_declare]
  simp only [String.append_assoc]

theorem printAll_append (front back : List Member) :
    printAll (front ++ back) = printAll front ++ printAll back := by
  induction front with
  | nil => rw [List.nil_append, printAll, String.empty_append]
  | cons member front ih => rw [List.cons_append, printAll, printAll, ih, String.append_assoc]

theorem arePrintable_append :
    arePrintable isInner (front ++ back) = true ↔
      arePrintable isInner front = true ∧ arePrintable isInner back = true := by
  induction front with
  | nil => simp [arePrintable]
  | cons member front ih =>
      rw [List.cons_append, arePrintable, arePrintable, Bool.and_eq_true, Bool.and_eq_true, ih,
        and_assoc]

theorem expectedAll_append (line : Nat) (front back : List Member) :
    expectedAll line (front ++ back) =
      expectedAll line front ++ expectedAll (line + heights front) back := by
  induction front generalizing line with
  | nil => rfl
  | cons member front ih =>
      rw [List.cons_append, expectedAll, expectedAll, ih, heights, List.append_assoc, Nat.add_assoc]

def printBody : Member → String
  | .declare _ kind name supertypes members below =>
      printHead kind name supertypes ++ (printAll members ++ (printFillers below ++ "\x7d"))

theorem print_eq (member : Member) :
    member.print = printFillers member.above ++ (member.printBody ++ "\n") := by
  obtain ⟨above, kind, name, supertypes, members, below⟩ := member
  have closing : "\x7d\n" = "\x7d" ++ "\n" := rfl
  rw [print_declare, printBody, closing]
  simp only [String.append_assoc]
  rfl

theorem isPrintable_declare_iff {above below : List Filler} {kind : DeclarationKind} {name : String}
    {supertypes : List Supertype} :
    isPrintable isInner (.declare above kind name supertypes members below) = true ↔
      isPlaced isInner members kind = true ∧ Supertype.isTypeName name = true ∧
        Supertype.arePrintable supertypes = true ∧ arePrintable true members = true ∧
        above.all Filler.isPrintable = true ∧ below.all Filler.isPrintable = true := by
  simp only [isPrintable, Bool.and_eq_true, and_assoc]

theorem newlines_printAll_of (each : ∀ member ∈ members, ∀ isInner,
      member.isPrintable isInner = true → newlines member.print = member.height)
    (printable : arePrintable isInner members = true) :
    newlines (printAll members) = heights members := by
  induction members with
  | nil => rfl
  | cons member members ih =>
      rw [arePrintable, Bool.and_eq_true] at printable
      rw [printAll, newlines_append, each member (.head _) isInner printable.1, heights,
        ih (fun other listed => each other (.tail _ listed)) printable.2]

theorem newlines_print (printable : member.isPrintable isInner = true) :
    newlines member.print = member.height := by
  induction member using Member.induction generalizing isInner with
  | declare above kind name supertypes members below ih =>
      obtain ⟨-, typeName, types, inner, fillers, fillers'⟩ := isPrintable_declare_iff.mp printable
      have closing : newlines "\x7d\n" = 1 := rfl
      have lines := newlines_printAll_of (fun member listed _ => ih member listed) inner
      simp only [print_declare, newlines_append, newlines_printFillers fillers,
        newlines_printFillers fillers', newlines_printHead typeName types, lines, closing, height]
      omega

theorem newlines_printAll (printable : arePrintable isInner members = true) :
    newlines (printAll members) = heights members :=
  newlines_printAll_of (fun _ _ _ => newlines_print) printable

end Member

end Lineage.Source.Printer
