import PseudocodeLexer.Keyword.Vocabulary

/-!
# Input and output keywords

Reading a value from the user and writing one.
-/

namespace PseudocodeLexer

inductive IoKeyword where
  | read
  | write
  deriving DecidableEq

namespace IoKeyword

def all : List IoKeyword :=
  [.read, .write]

def name : IoKeyword → Text
  | .read => "Read".toList
  | .write => "Write".toList

def display : IoKeyword → Text
  | .read => "Lire".toList
  | .write => "Ecrire".toList

def others : IoKeyword → List Text
  | .read => ["Read".toList]
  | .write => ["Write".toList]

def words : List Text :=
  ["Lire".toList, "Read".toList, "Ecrire".toList, "Write".toList]

def vocabulary : Vocabulary IoKeyword where
  concepts := all
  display := display
  others := others
  words := words

def french : IoKeyword → Text
  | .read => "Lire".toList
  | .write => "Ecrire".toList

def english : IoKeyword → Text
  | .read => "Read".toList
  | .write => "Write".toList

/-- The spellings in the two languages are those that are accepted. -/
theorem accepted_eq_languages (keyword : IoKeyword) :
    vocabulary.accepted keyword = [keyword.french, keyword.english] := by
  cases keyword <;> rfl

end IoKeyword

end PseudocodeLexer
