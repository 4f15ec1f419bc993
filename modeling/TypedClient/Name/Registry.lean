/-!
# `TypedClient.Name.Registry`: unique names

A registry hands out each name once. A name that is taken gets the least number from two
on that makes it free. Among one candidate more than there are taken names one is free,
so the search is over a list.
-/

set_option autoImplicit false

namespace TypedClient.Name

/-- The names that are taken. -/
structure Registry where
  taken : List String
deriving DecidableEq, Inhabited

namespace Registry

def contains (r : Registry) (name : String) : Bool := r.taken.contains name

instance : Membership String Registry where
  mem r name := name ∈ r.taken

instance (name : String) (r : Registry) : Decidable (name ∈ r) :=
  inferInstanceAs (Decidable (name ∈ r.taken))

/-- The name with a number after it. -/
def numbered (name : String) (k : Nat) : String := name ++ toString k

/-- The free name to hand out for a name. -/
def free (r : Registry) (name : String) : String :=
  if r.contains name then
    -- One candidate more than there are taken names.
    (((List.range (r.taken.length + 1)).map fun k => numbered name (k + 2)).find?
      (!r.contains ·)).getD name
  else name

/-- Hand out a name. -/
def claim (r : Registry) (name : String) : String × Registry :=
  (r.free name, ⟨r.free name :: r.taken⟩)

end Registry

end TypedClient.Name
