/-!
# Identifiers

Schema, element, attribute and enumeration names are compared without regard
to the case of ASCII letters; every other character, accented letters
included, counts as written. `Ident.same` compares two names letter by letter
and `Ident.folded` gives the spelling under which a name is filed: two names are
the same exactly when their folded spellings are equal.
-/

namespace ExpressLinks.Ident

/-- Two letter sequences agree when they have the same length and each pair of
    characters agrees once ASCII capitals are made small. -/
def sameLetters : List Char → List Char → Bool
  | [], [] => true
  | a :: as, b :: bs => a.toLower == b.toLower && sameLetters as bs
  | _, _ => false

/-- Equality of names, ASCII letter case aside. -/
def same (a b : String) : Bool := sameLetters a.toList b.toList

/-- The spelling with ASCII capitals made small. -/
def folded (s : String) : String := String.ofList (s.toList.map Char.toLower)

@[simp] theorem toList_folded (s : String) : (folded s).toList = s.toList.map Char.toLower := by
  simp [folded]

end ExpressLinks.Ident
