import Concordance.Text.Blank
import Concordance.Text.Case

/-!
# Query tokens

A query is cut into parentheses, which are always tokens of their own, and words.
Blanks end a word; punctuation is left out without ending it. Whether a token is a
parenthesis, a connective or a search word is read off its spelling.
-/
namespace Concordance

def isParenthesis (c : CodePoint) : Bool := c = '(' || c = ')'

/-- The tokens of a text after the part `current` of a word has been read. -/
def tokensFrom (punctuation current : Text) : Text → List Text
  | [] => finished current
  | c :: rest =>
    if isParenthesis c then finished current ++ [c] :: tokensFrom punctuation [] rest
    else if isBlank c then finished current ++ tokensFrom punctuation [] rest
    else if c ∈ punctuation then tokensFrom punctuation current rest
    else tokensFrom punctuation (current ++ [c]) rest

/-- The tokens of a query, which is put in lower case first if asked for. -/
def queryTokens (punctuation : Text) (lowercase : Bool) (query : Text) : List Text :=
  let trimmed := trim query
  tokensFrom punctuation [] (if lowercase then lower trimmed else trimmed)

/-- The connectives of boolean queries. The last one takes the documents of its right operand out
of those of its left one. -/
inductive Operator where
  | and
  | or
  | not
  deriving DecidableEq

def Operator.keyword : Operator → Text
  | and => ['A', 'N', 'D']
  | or => ['O', 'R']
  | not => ['N', 'O', 'T']

def Operator.all : List Operator := [.and, .or, .not]

/-- The connective that a token spells, in capitals or not. -/
def Operator.ofToken? (token : Text) : Option Operator :=
  Operator.all.find? fun op => op.keyword = upper token

def isKeyword (token : Text) : Bool := Operator.all.any fun op => op.keyword = token

/-- The part that a token plays in a query. -/
inductive Symbol where
  | opening
  | closing
  | connective (op : Operator)
  | word (w : Text)
  deriving DecidableEq

def Symbol.ofToken (token : Text) : Symbol :=
  if token = [.char '('] then .opening
  else if token = [.char ')'] then .closing
  else match Operator.ofToken? token with
    | some op => .connective op
    | none => .word token

/-- The tokens by which matches are ranked: those that are neither parentheses nor connectives. -/
def rankingWords (tokens : List Text) : List Text :=
  tokens.filter fun token =>
    match Symbol.ofToken token with
    | .word _ => true
    | _ => false

end Concordance
