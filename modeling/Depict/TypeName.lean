import Depict.Decimal.Numeral
import Depict.Text.Pieces
import Depict.Text.Trim

/-!
# Names of types

A type is declared in a module under a path of enclosing types and local scopes.
Its qualified name sets a dollar sign between nested types; a dollar sign with
digits marks an anonymous type, and with digits and a name a local one. The simple
name is the innermost declared name that is left of it.
-/
namespace Depict
open Decimal Text

/-- The module of a type, which a program may set to something else than a name. -/
inductive ModuleTag
  | absent
  | name (s : String)
  | number (n : Int)
  | truth (b : Bool)
  deriving DecidableEq

/-- How the module shows in a name; an absent, empty, zero or false one does not show. -/
def ModuleTag.shown? : ModuleTag → Option (List Char)
  | absent => none
  | name s => if s.isEmpty then none else some s.toList
  | number n => if n = 0 then none else some (intDigits n)
  | truth b => if b then some ['T', 'r', 'u', 'e'] else none

/-- A type by its module and its path within it. -/
structure TypeName where
  module : ModuleTag
  path : String
  deriving DecidableEq

namespace TypeName

/-- The path segment of a local scope. -/
def localScope : List Char :=
  ['<', 'l', 'o', 'c', 'a', 'l', 's', '>']

/-- The declared names of a path, outermost first, with a dollar sign between them. -/
def nested (path : List Char) : List Char :=
  List.intercalate ['$'] ((pieces (· == '.') path).filter (· != localScope))

/-- The module with a dot, if it shows, and the nested names. -/
def qualifiedChars (t : TypeName) : List Char :=
  match t.module.shown? with
  | none => nested t.path.toList
  | some m => m ++ '.' :: nested t.path.toList

def qualified (t : TypeName) : String :=
  String.ofList t.qualifiedChars

/-- The name without the digits that directly follow a dollar sign; `skipping` tells whether only
such digits have been read since the last one. -/
def collapseFrom : Bool → List Char → List Char
  | _, [] => []
  | skipping, c :: cs =>
    if skipping && c.isDigit then collapseFrom true cs
    else c :: collapseFrom (c == '$') cs

/-- The name without the digits that directly follow a dollar sign. -/
def collapse (name : List Char) : List Char :=
  collapseFrom false name

/-- What stands after the last dollar sign of a name that does not end in one, or else after the
last dot. -/
def innermost (name : List Char) : List Char :=
  let core := dropEnd (· == '$') name
  if core.contains '$' then afterLast '$' core else afterLast '.' core

def simpleChars (name : List Char) : List Char :=
  innermost (collapse name)

def simpleOf (name : String) : String :=
  String.ofList (simpleChars name.toList)

/-- What is reported when the index of an anonymous type was dropped from a name. -/
def collapseNote? (name : String) : Option String :=
  if collapse name.toList = name.toList then none
  else some ("Collapsed anonymous type index in " ++ name)

def simple (t : TypeName) : String :=
  simpleOf t.qualified

end TypeName

end Depict
