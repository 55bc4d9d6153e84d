import Lineage.Proofs.Text.Order
import Mathlib.Data.List.Nodup
import Std.Data.ExtTreeMap

/-!
# Maps by text

Entries under distinct texts form the same map in whatever order they come, and the map lists
them in the order of the texts.
-/

open Std

namespace Lineage.Text

variable {α : Type} {entries sorted : List (String × α)}

theorem pairwise_toList (map : ExtTreeMap String α) :
    map.toList.Pairwise fun first second => first.1 < second.1 :=
  ExtTreeMap.ordered_keys_toList.imp fun less => compare_eq_lt_iff.mp less

theorem nodup_map_fst_toList (map : ExtTreeMap String α) : (map.toList.map Prod.fst).Nodup :=
  List.pairwise_map.mpr ((pairwise_toList map).imp String.ne_of_lt)

theorem getElem?_ofList_eq_some_iff (distinct : (entries.map Prod.fst).Nodup) {name : String}
    {value : α} : (ExtTreeMap.ofList entries)[name]? = some value ↔ (name, value) ∈ entries := by
  have apart : entries.Pairwise fun first second => ¬compare first.1 second.1 = .eq := by
    simpa using List.pairwise_map.mp distinct
  constructor
  · intro present
    have known : name ∈ ExtTreeMap.ofList entries := by
      rw [ExtTreeMap.mem_iff_isSome_getElem?, present]
      rfl
    rw [ExtTreeMap.mem_ofList, List.contains_iff_mem, List.mem_map] at known
    obtain ⟨⟨_, other⟩, listed, rfl⟩ := known
    have same := ExtTreeMap.getElem?_ofList_of_mem compare_self apart listed
    rw [present, Option.some.injEq] at same
    exact same ▸ listed
  · exact ExtTreeMap.getElem?_ofList_of_mem compare_self apart

theorem ofList_perm {other : List (String × α)} (perm : entries.Perm other)
    (distinct : (entries.map Prod.fst).Nodup) :
    ExtTreeMap.ofList entries = ExtTreeMap.ofList other := by
  have distinctOther : (other.map Prod.fst).Nodup := (perm.map _).nodup_iff.mp distinct
  apply ExtTreeMap.ext_getElem?
  intro name
  ext value
  rw [getElem?_ofList_eq_some_iff distinct, getElem?_ofList_eq_some_iff distinctOther,
    perm.mem_iff]

theorem ofList_toList (map : ExtTreeMap String α) : ExtTreeMap.ofList map.toList = map := by
  apply ExtTreeMap.ext_getElem?
  intro name
  ext value
  rw [getElem?_ofList_eq_some_iff (nodup_map_fst_toList map),
    ExtTreeMap.mem_toList_iff_getElem?_eq_some]

theorem toList_ofList (perm : sorted.Perm entries)
    (ordered : (sorted.map Prod.fst).Pairwise (· < ·)) :
    (ExtTreeMap.ofList entries).toList = sorted := by
  have distinct : (sorted.map Prod.fst).Nodup := ordered.imp String.ne_of_lt
  have listed : ∀ entry, entry ∈ (ExtTreeMap.ofList sorted).toList ↔ entry ∈ sorted := by
    rintro ⟨name, value⟩
    rw [ExtTreeMap.mem_toList_iff_getElem?_eq_some, getElem?_ofList_eq_some_iff distinct]
  have same : (ExtTreeMap.ofList sorted).toList.Perm sorted :=
    (List.perm_ext_iff_of_nodup (nodup_map_fst_toList _).of_map distinct.of_map).mpr listed
  rw [← ofList_perm perm distinct]
  exact same.eq_of_pairwise
    (fun _ _ _ _ h h' => absurd (String.lt_trans h h') (String.lt_irrefl _))
    (pairwise_toList _) (List.pairwise_map.mp ordered)

end Lineage.Text
