/-!
Sets of code points as inversion lists: the increasing list of the code points at which membership
changes, from outside the set.
-/

namespace TypeScribe.Text

abbrev InversionList := List Nat

/-- Whether `code` lies in the set: each bound passed on the way to `code` changes sides. -/
def InversionList.contains : InversionList → Nat → Bool
  | [], _ => false
  | bound :: bounds, code => if code < bound then false else !contains bounds code

@[simp]
theorem InversionList.contains_nil (code : Nat) : InversionList.contains [] code = false := rfl

theorem InversionList.contains_cons (bound : Nat) (bounds : InversionList) (code : Nat) :
    InversionList.contains (bound :: bounds) code =
      if code < bound then false else !InversionList.contains bounds code := rfl

end TypeScribe.Text
