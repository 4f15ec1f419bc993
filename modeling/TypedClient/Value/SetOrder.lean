import TypedClient.Value.Basic

/-!
# `TypedClient.Value.SetOrder`: the order in which sets list numbers

A set keeps its members in slots and lists them slot by slot. The residue of a number
modulo `2 ^ 61 - 1` says in which slot it is looked for first; members whose slots are
taken move on, in the order in which they came. Members that are no numbers have no such
order and stay as they came.
-/

set_option autoImplicit false

namespace TypedClient

namespace SetOrder

def modulus : Nat := Nat.pow 2 61 - 1

/-- A residue with a sign. There is no -1; -2 stands for it. -/
def signed (negative : Bool) (residue : Nat) : Int :=
  if !negative then residue else if residue = 1 then -2 else -residue

/-- The residue of a double that is a number or infinite. Two to the power of 61 counts as
one. -/
def ofDouble? (x : Binary64) : Option Int :=
  match x.magnitude? with
  | some (m, q) => some (signed x.isNegative (m * Nat.pow 2 (q % 61).toNat % modulus))
  | none => if x.isNaN then none else some (signed x.isNegative 314159)

/-- The residue of a value that is a number. Equal numbers have one residue. -/
def residue? : Value → Option Int
  | .float x => ofDouble? x
  | v => v.integer?.map fun i => signed (i < 0) (i.natAbs % modulus)

/-- The number of slots for `n` members: more than twice as many, but at least eight. -/
def slotCount (n : Nat) : Nat := if n ≤ 4 then 8 else Nat.pow 2 (Nat.log2 (2 * n) + 1)

/-- The number of neighbours that are tried after a slot, if there are as many. -/
def neighbours : Nat := 9

/-- The free slot that is found from slot `i` on, among `count` slots. Each jump goes to a
slot that depends on what is left of the residue; once nothing is left of it, jumps reach
every slot. -/
def freeSlot (count : Nat) (taken : List Nat) : (fuel : Nat) → (i left : Nat) → Nat
  | 0, i, _ => i
  | fuel + 1, i, left =>
    let window := if i + neighbours < count then (List.range (neighbours + 1)).map (i + ·) else [i]
    match window.find? (!taken.contains ·) with
    | some slot => slot
    | none => freeSlot count taken fuel ((i * 5 + 1 + left / 32) % count) (left / 32)

/-- The slots of members with residues, `taken` being the slots that are taken. -/
def slotsFrom (count : Nat) : (taken : List Nat) → List (Value × Int) → List (Nat × Value)
  | _, [] => []
  | taken, (v, r) :: rest =>
    let slot := freeSlot count taken (count + 13) (r % count).toNat (r % Nat.pow 2 64).toNat
    (slot, v) :: slotsFrom count (slot :: taken) rest

end SetOrder

/-- The members of a set in the order in which the set lists them. -/
def listed (members : List Value) : List Value :=
  match members.mapM SetOrder.residue? with
  | none => members
  | some residues =>
    let slots := SetOrder.slotsFrom (SetOrder.slotCount members.length) [] (members.zip residues)
    (slots.mergeSort fun a b => a.1 ≤ b.1).map Prod.snd

end TypedClient
