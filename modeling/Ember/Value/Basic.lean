import Ember.Syntax.Basic
/-!
Runtime values.

A value is an integer (64-bit, two's complement), a truth value, a text, nil, a function, a
class or an instance. A function value (`Closure`) is a declaration together with the scope
it closes over; a class value (`ClassDef`) is its name, its method table and the scope its
methods close over. An instance is a reference to its fields in the store, together with its
class, which never changes.

`Value.inspect` is the text of a value as printing and tracing show it, and
`Value.type` its type, whose name error messages show.
-/

namespace Ember

/-- The types of runtime values. -/
inductive ValueType where
  | integer | boolean | string | null | function | classDef | object
deriving DecidableEq, Repr

/-- The name of a type, as messages show it. -/
def ValueType.name : ValueType → String
  | .integer => "INTEGER"
  | .boolean => "BOOL"
  | .string => "STRING"
  | .null => "NULL"
  | .function => "FUNCTION"
  | .classDef => "CLASS"
  | .object => "CLASS_INSTANCE"

/-- A function value: a declaration together with the scope it closes over. -/
structure Closure where
  decl : Func
  scope : Nat

/-- A class value: its name, its method table in table order, and the scope that its
methods close over. -/
structure ClassDef where
  name : Text
  methods : List (Text × Closure)
  scope : Nat

/-- Runtime values. -/
inductive Value where
  | int (n : Int)
  | bool (b : Bool)
  | str (s : Text)
  | nil
  | fn (c : Closure)
  | cls (c : ClassDef)
  /-- An instance: the place of its fields in the store, and its class. -/
  | obj (ref : Nat) (c : ClassDef)
deriving Inhabited

namespace Value

/-- The type of a value. -/
def type : Value → ValueType
  | .int _ => .integer
  | .bool _ => .boolean
  | .str _ => .string
  | .nil => .null
  | .fn _ => .function
  | .cls _ => .classDef
  | .obj _ _ => .object

/-- The text of a value: integers in decimal, truth values as `true` and `false`, a text as
it is, nil as `nil`, and functions, classes and instances by the name of their declaration. -/
def inspect : Value → Text
  | .int n => toString n
  | .bool true => "true"
  | .bool false => "false"
  | .str s => s
  | .nil => "nil"
  | .fn c => "<fn " ++ c.decl.name.display ++ ">"
  | .cls c => "<class " ++ c.name ++ ">"
  | .obj _ c => "<" ++ c.name ++ " instance>"

/-- The value a literal denotes. -/
def ofScalar : Scalar → Value
  | .null => .nil
  | .bool b => .bool b
  | .int n => .int n
  | .text s => .str s

end Value

end Ember
