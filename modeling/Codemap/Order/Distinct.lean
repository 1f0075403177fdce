/-
# Lists without repetitions

Of items that are equal, or that have equal keys, the first one stays, and all keep their order.
-/

namespace Codemap.Order

/-- The items whose keys differ from those of all items before. -/
def distinctBy {α κ : Type} [BEq κ] (key : α → κ) (items : List α) : List α :=
  items.foldl (fun kept x => if kept.any fun k => key k == key x then kept else kept ++ [x]) []

/-- The items without later repetitions. -/
def distinct {α : Type} [BEq α] (xs : List α) : List α := distinctBy id xs

end Codemap.Order
