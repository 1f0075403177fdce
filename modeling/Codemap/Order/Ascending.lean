/-
# Strictly ascending lists

Sets are written as strictly ascending lists.  Texts are compared character by character, by code
point.
-/

namespace Codemap.Order

/-- Puts an item where it belongs in a strictly ascending list, unless it is there already. -/
def insertAscending {α : Type} (before : α → α → Bool) (x : α) : List α → List α
  | [] => [x]
  | y :: ys =>
    if before x y then x :: y :: ys
    else if before y x then y :: insertAscending before x ys
    else y :: ys

/-- The items of a list as a strictly ascending one. -/
def ascendingBy {α : Type} (before : α → α → Bool) (xs : List α) : List α :=
  xs.foldr (insertAscending before) []

/-- Order of texts. -/
def textBefore (a b : String) : Bool := a < b

/-- The texts of a list as a strictly ascending one. -/
def ascending (xs : List String) : List String := ascendingBy textBefore xs

/-- Order of pairs of texts: by the first, then by the second. -/
def pairBefore (a b : String × String) : Bool := a.1 < b.1 || (a.1 == b.1 && a.2 < b.2)

/-- Order of lists of texts: by the first place in which they differ; of two lists of which one
begins with the other, the shorter one comes first. -/
def listBefore (a b : List String) : Bool := a < b

end Codemap.Order
