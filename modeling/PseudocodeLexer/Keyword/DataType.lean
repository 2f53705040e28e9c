import PseudocodeLexer.Keyword.Vocabulary

/-!
# Type keywords

The types of variables. The phrase for an array of integers begins with the word for any array, so
it is tried first.
-/

namespace PseudocodeLexer

inductive TypeKeyword where
  | integer
  | string
  | boolean
  | integerArray
  | array
  deriving DecidableEq

namespace TypeKeyword

def all : List TypeKeyword :=
  [.integer, .string, .boolean, .integerArray, .array]

def name : TypeKeyword → Text
  | .integer => "Integer".toList
  | .string => "String".toList
  | .boolean => "Boolean".toList
  | .integerArray => "IntegerArray".toList
  | .array => "Array".toList

def display : TypeKeyword → Text
  | .integer => "entier".toList
  | .string => "chaine".toList
  | .boolean => "booleen".toList
  | .integerArray => "tableau d'entier".toList
  | .array => "tableau".toList

def others : TypeKeyword → List Text
  | .integer => ["integer".toList]
  | .string => ["string".toList]
  | .boolean => ["boolean".toList]
  | .integerArray => ["arrayint".toList]
  | .array => []

def words : List Text :=
  ["entier".toList, "integer".toList, "chaine".toList, "string".toList, "booleen".toList,
   "boolean".toList, "tableau d'entier".toList, "arrayint".toList, "tableau".toList]

def vocabulary : Vocabulary TypeKeyword where
  concepts := all
  display := display
  others := others
  words := words

end TypeKeyword

end PseudocodeLexer
