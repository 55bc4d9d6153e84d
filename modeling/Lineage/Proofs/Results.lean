import Lineage.Proofs.Text.Maps
import Lineage.Run

/-!
# Results by name

Results under distinct names form the same map in whatever order they arrive, and the map lists
them in the order of the names.
-/

open Std

namespace Lineage.Results

variable {entries sorted : List (String × FileResult)}

theorem ofList_eq (entries : List (String × FileResult)) :
    ofList entries = ExtTreeMap.ofList entries :=
  ExtTreeMap.ofList_eq_foldl.symm

theorem getElem?_ofList_eq_some_iff (distinct : (entries.map Prod.fst).Nodup) {name : String}
    {result : FileResult} :
    (ofList entries)[name]? = some result ↔ (name, result) ∈ entries := by
  rw [ofList_eq]
  exact Text.getElem?_ofList_eq_some_iff distinct

theorem ofList_perm {other : List (String × FileResult)} (perm : entries.Perm other)
    (distinct : (entries.map Prod.fst).Nodup) : ofList entries = ofList other := by
  rw [ofList_eq, ofList_eq]
  exact Text.ofList_perm perm distinct

theorem toList_ofList (perm : sorted.Perm entries)
    (ordered : (sorted.map Prod.fst).Pairwise (· < ·)) : (ofList entries).toList = sorted := by
  rw [ofList_eq]
  exact Text.toList_ofList perm ordered

end Lineage.Results
