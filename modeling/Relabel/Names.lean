import Std.Data.ExtTreeMap

/-!
# Name maps

A finite map between names, ordered by the code points of its keys. Two maps with the same entries
are equal.
-/

namespace Relabel

abbrev Names := Std.ExtTreeMap String String

namespace Names

instance : DecidableEq Names := fun left right =>
  if same : left.toList = right.toList then .isTrue (Std.ExtTreeMap.ext_toList (by rw [same]))
  else .isFalse fun equal => same (by rw [equal])

/-- The map with these entries; of two entries with one key the last one counts. -/
def ofEntries (entries : List (String × String)) : Names :=
  entries.foldl (fun names entry => names.insert entry.1 entry.2) ∅

end Names

end Relabel
