/-!
# Documents

The values that reports and answers are made of.  The fields of an object keep their order.
-/

namespace LittleComputer

/-- A document. -/
inductive Json where
  /-- Nothing. -/
  | null
  /-- A truth value. -/
  | bool (value : Bool)
  /-- An integer. -/
  | integer (value : Int)
  /-- A text. -/
  | text (value : String)
  /-- A list. -/
  | list (items : List Json)
  /-- Named fields. -/
  | object (fields : List (String × Json))
  deriving Repr, Inhabited

namespace Json

/-- An integer or nothing. -/
def ofInt? : Option Int → Json
  | some i => integer i
  | none => null

/-- A text or nothing. -/
def ofText? : Option String → Json
  | some s => text s
  | none => null

/-- A word as a number. -/
def ofWord {n : Nat} (w : BitVec n) : Json := integer w.toNat

end Json

end LittleComputer
