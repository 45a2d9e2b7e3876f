import AssetGraph.Decimal.Shortest

/-!
# JSON values

The value type that registry objects, item attributes and answers share. An object lists its members in
increasing order of their names.
-/
namespace AssetGraph

/-- A JSON number: a whole number of at most 64 bits, or a double. -/
inductive Number where
  | integer (value : Int)
  | decimal (value : Binary64)
  deriving DecidableEq, Repr, Inhabited

inductive Json where
  | null
  | bool (value : Bool)
  | number (value : Number)
  | string (value : String)
  | array (items : List Json)
  | object (members : List (String × Json))
  deriving Repr, Inhabited

namespace Number

/-- The text of a number: a plain integer, or the shortest decimal with a point or an exponent. -/
def render : Number → List Char
  | integer value => if value < 0 then '-' :: Numeral.render 10 value.natAbs else Numeral.render 10 value.natAbs
  | decimal value => value.render

end Number

namespace Json

def ofNat (n : Nat) : Json := number (.integer n)

def ofStrings (texts : List String) : Json := array (texts.map string)

def boolText (b : Bool) : String := if b then "true" else "false"

def member? (name : String) : Json → Option Json
  | object members => (members.find? fun m => m.1 = name).map Prod.snd
  | _ => none

def string? : Json → Option String
  | string s => some s
  | _ => none

/-- Whether a value says nothing: null, or an empty text, list or object. -/
def isHollow : Json → Bool
  | null => true
  | string s => s.isEmpty
  | array items => items.isEmpty
  | object members => members.isEmpty
  | _ => false

mutual

/-- The number of arrays and objects around the innermost value. -/
def depth : Json → Nat
  | array items => depthOfItems items + 1
  | object members => depthOfMembers members + 1
  | _ => 0

def depthOfItems : List Json → Nat
  | [] => 0
  | item :: rest => max item.depth (depthOfItems rest)

def depthOfMembers : List (String × Json) → Nat
  | [] => 0
  | (_, value) :: rest => max value.depth (depthOfMembers rest)

end

mutual

def same : Json → Json → Bool
  | null, null => true
  | bool b, bool c => b == c
  | number m, number n => decide (m = n)
  | string s, string t => decide (s = t)
  | array items, array others => sameItems items others
  | object members, object others => sameMembers members others
  | _, _ => false

def sameItems : List Json → List Json → Bool
  | [], [] => true
  | item :: items, other :: others => item.same other && sameItems items others
  | _, _ => false

def sameMembers : List (String × Json) → List (String × Json) → Bool
  | [], [] => true
  | (name, value) :: members, (other, v) :: others => decide (name = other) && value.same v && sameMembers members others
  | _, _ => false

end

mutual

theorem same_iff : ∀ {j other : Json}, j.same other = true ↔ j = other
  | null, other => by cases other <;> simp [same]
  | bool _, other => by cases other <;> simp [same]
  | number _, other => by cases other <;> simp [same]
  | string _, other => by cases other <;> simp [same]
  | array _, other => by cases other <;> simp [same, sameItems_iff]
  | object _, other => by cases other <;> simp [same, sameMembers_iff]

theorem sameItems_iff : ∀ {items others : List Json}, sameItems items others = true ↔ items = others
  | [], others => by cases others <;> simp [sameItems]
  | _ :: _, others => by cases others <;> simp [sameItems, same_iff, sameItems_iff]

theorem sameMembers_iff : ∀ {members others : List (String × Json)}, sameMembers members others = true ↔ members = others
  | [], others => by cases others <;> simp [sameMembers]
  | (_, _) :: _, others => by cases others <;> simp [sameMembers, same_iff, sameMembers_iff, Prod.ext_iff]

end

instance : DecidableEq Json := fun _ _ => decidable_of_iff _ same_iff

end Json
end AssetGraph
