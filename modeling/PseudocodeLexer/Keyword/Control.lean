import PseudocodeLexer.Keyword.Vocabulary

/-!
# Control keywords

The keywords that give a program its structure: its heading and body, branches, loops and the
connectives of conditions.
-/

namespace PseudocodeLexer

inductive ControlKeyword where
  | algorithm
  | variables
  | beginBody
  | endBody
  | ifTest
  | thenBranch
  | elseBranch
  | whileLoop
  | doBody
  | forLoop
  | conjunction
  | disjunction
  | negation
  deriving DecidableEq

namespace ControlKeyword

def all : List ControlKeyword :=
  [.algorithm, .variables, .beginBody, .endBody, .ifTest, .thenBranch, .elseBranch, .whileLoop,
   .doBody, .forLoop, .conjunction, .disjunction, .negation]

def name : ControlKeyword → Text
  | .algorithm => "Algorithm".toList
  | .variables => "Variables".toList
  | .beginBody => "Begin".toList
  | .endBody => "End".toList
  | .ifTest => "If".toList
  | .thenBranch => "Then".toList
  | .elseBranch => "Else".toList
  | .whileLoop => "While".toList
  | .doBody => "Do".toList
  | .forLoop => "For".toList
  | .conjunction => "And".toList
  | .disjunction => "Or".toList
  | .negation => "Not".toList

def display : ControlKeyword → Text
  | .algorithm => "Algorithme".toList
  | .variables => "Variables".toList
  | .beginBody => "Début".toList
  | .endBody => "Fin".toList
  | .ifTest => "Si".toList
  | .thenBranch => "Alors".toList
  | .elseBranch => "Sinon".toList
  | .whileLoop => "Tant que".toList
  | .doBody => "Faire".toList
  | .forLoop => "Pour".toList
  | .conjunction => "ET".toList
  | .disjunction => "OU".toList
  | .negation => "NON".toList

def others : ControlKeyword → List Text
  | .algorithm => ["Algorithm".toList]
  | .variables => []
  | .beginBody => ["Debut".toList, "Begin".toList]
  | .endBody => ["End".toList]
  | .ifTest => ["If".toList]
  | .thenBranch => ["Then".toList]
  | .elseBranch => ["Else".toList]
  | .whileLoop => ["While".toList]
  | .doBody => ["Do".toList]
  | .forLoop => ["For".toList]
  | .conjunction => ["AND".toList]
  | .disjunction => ["OR".toList]
  | .negation => ["NOT".toList]

def words : List Text :=
  ["Algorithme".toList, "Algorithm".toList, "Variables".toList, "Debut".toList, "Début".toList,
   "Begin".toList, "Fin".toList, "End".toList, "Si".toList, "If".toList, "Alors".toList,
   "Then".toList, "Sinon".toList, "Else".toList, "Tant que".toList, "While".toList,
   "Faire".toList, "Do".toList, "Pour".toList, "For".toList, "ET".toList, "AND".toList,
   "OU".toList, "OR".toList, "NON".toList, "NOT".toList]

def vocabulary : Vocabulary ControlKeyword where
  concepts := all
  display := display
  others := others
  words := words

/-- The spellings in both languages, French ones first and the English one last. -/
def spellings : ControlKeyword → List Text
  | .algorithm => ["Algorithme".toList, "Algorithm".toList]
  | .variables => ["Variables".toList]
  | .beginBody => ["Début".toList, "Debut".toList, "Begin".toList]
  | .endBody => ["Fin".toList, "End".toList]
  | .ifTest => ["Si".toList, "If".toList]
  | .thenBranch => ["Alors".toList, "Then".toList]
  | .elseBranch => ["Sinon".toList, "Else".toList]
  | .whileLoop => ["Tant que".toList, "While".toList]
  | .doBody => ["Faire".toList, "Do".toList]
  | .forLoop => ["Pour".toList, "For".toList]
  | .conjunction => ["ET".toList, "AND".toList]
  | .disjunction => ["OU".toList, "OR".toList]
  | .negation => ["NON".toList, "NOT".toList]

def french (keyword : ControlKeyword) : Text :=
  keyword.spellings.headD []

def english (keyword : ControlKeyword) : Text :=
  keyword.spellings.getLastD []

/-- The spellings in both languages are those that are accepted. -/
theorem accepted_eq_spellings (keyword : ControlKeyword) :
    vocabulary.accepted keyword = keyword.spellings := by
  cases keyword <;> rfl

end ControlKeyword

end PseudocodeLexer
