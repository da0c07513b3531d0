/-!
# First uses

Keeping, of the elements that share a key, only the first, in the order of the
first uses.
-/

namespace ExpressLinks

variable {α κ : Type} [BEq κ]

/-- The elements whose key is neither in `seen` nor the key of an earlier one. -/
def firstUsesAfter (key : α → κ) : List κ → List α → List α
  | _, [] => []
  | seen, a :: as =>
      if seen.contains (key a) then firstUsesAfter key seen as
      else a :: firstUsesAfter key (key a :: seen) as

/-- The first element of each key. -/
def firstUses (key : α → κ) (elements : List α) : List α := firstUsesAfter key [] elements

end ExpressLinks
