import TemplateConditions.Condition.Clause
import TemplateConditions.Ordered.Set

/-!
# Influence maps

Which references a condition compares, and with what.  An influence map is the set of its
comparisons, ordered by subject and then by comparand; grouping it by subject gives for each token
the ascending list of its comparands, which is never empty.
-/

namespace TemplateConditions

/-- A set of comparisons. -/
structure Influence where
  clauses : Ordered.Set Clause
  deriving DecidableEq

namespace Influence

def empty : Influence := ⟨∅⟩

/-- The map of one comparison. -/
def single (clause : Clause) : Influence := ⟨Ordered.Set.ofList [clause]⟩

def insert (map : Influence) (clause : Clause) : Influence :=
  ⟨map.clauses.insert clause⟩

/-- The comparisons of both maps. -/
def merge (a b : Influence) : Influence :=
  ⟨a.clauses.union b.clauses⟩

/-- The comparisons of a list, each once. -/
def ofClauses (clauses : List Clause) : Influence :=
  ⟨Ordered.Set.ofList clauses⟩

/-- Gathers neighbours with the same subject. -/
def group : List Clause → List (Token × List Comparand)
  | [] => []
  | clause :: rest =>
    match group rest with
    | [] => [(clause.subject, [clause.comparand])]
    | (token, values) :: groups =>
      if clause.subject = token then (token, clause.comparand :: values) :: groups
      else (clause.subject, [clause.comparand]) :: (token, values) :: groups

/-- The comparands of each token. -/
def entries (map : Influence) : List (Token × List Comparand) :=
  group map.clauses.elements

/-- The tokens that are compared, ascending. -/
def tokens (map : Influence) : List Token :=
  map.entries.map Prod.fst

/-- The comparands of one token, ascending; none if it is not compared. -/
def get? (map : Influence) (token : Token) : Option (List Comparand) :=
  (map.entries.find? fun entry => entry.1 = token).map Prod.snd

/-- Is the token compared? -/
def contains (map : Influence) (token : Token) : Bool :=
  map.clauses.elements.any fun clause => clause.subject = token

/-- The number of tokens. -/
def size (map : Influence) : Nat :=
  map.entries.length

def isEmpty (map : Influence) : Bool :=
  map.clauses.elements.isEmpty

/-- An object with the comparands of each token. -/
def toJson (map : Influence) : Json :=
  .object (map.entries.map fun entry => (entry.1.hex, .array (entry.2.map Comparand.toJson)))

end Influence

end TemplateConditions
