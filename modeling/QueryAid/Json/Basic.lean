import QueryAid.Text.CodePoint
/-!
# JSON values

Requests come and answers go as JSON. A number keeps the text it is written with, because all that is ever
asked of one is whether it is a natural number below some bound; the fields of an object keep their
order, and a name may occur in it twice.
-/

namespace QueryAid

/-- **A JSON value.** -/
inductive Json where
  | null
  | bool (value : Bool)
  /-- The text of a number. -/
  | number (text : String)
  | string (text : String)
  | array (items : List Json)
  | object (fields : List (String × Json))
  /-- What follows the grammar and yet stands for nothing: a string that is no text, because one half of a UTF-16
  pair stands alone in it, and an object in which a name is such a string. -/
  | broken

namespace Json

instance : Inhabited Json := ⟨null⟩

/-- The object of some fields, each of which may have a name that is no text. -/
def ofFields (fields : List (Option String × Json)) : Json :=
  match fields.mapM fun f => f.1.map fun name => (name, f.2) with
  | some fields => object fields
  | none => broken

/-- A natural number. -/
def nat (n : Nat) : Json := number (toString n)

/-- A value that may be missing, as `null` if it is. -/
def ofOption {α : Type} (f : α → Json) : Option α → Json
  | none => null
  | some a => f a

/-- A field that is left out when it has no value. -/
def optionalField {α : Type} (name : String) (f : α → Json) : Option α → List (String × Json)
  | none => []
  | some a => [(name, f a)]

/-- Texts as an array. -/
def strings (l : List String) : Json := array (l.map string)

/-- The value of the last field of a name, if the value is an object that has one. -/
def field? (v : Json) (name : String) : Option Json :=
  match v with
  | object fields => (fields.reverse.find? fun f => f.1 == name).map Prod.snd
  | _ => none

/-- The text of a string. -/
def text? : Json → Option String
  | string s => some s
  | _ => none

/-- The items of an array. -/
def items? : Json → Option (List Json)
  | array l => some l
  | _ => none

/-- The natural number that a value is. Signs, fractions and exponents make another kind of number, even
where the value is a whole number. -/
def nat? : Json → Option Nat
  | number text => if text.toList.all Char.isDigit then some (natOfDigits text.toList) else none
  | _ => none

end Json

end QueryAid
