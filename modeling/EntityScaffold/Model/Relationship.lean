/-!
# Relationships

A relationship leads from a source entity to a target entity. Either end may name the role under
which the other end is known there.
-/

namespace EntityScaffold

/-- How many there may be at the source end and at the target end. -/
inductive Cardinality
  | oneToOne
  | manyToOne
  | oneToMany
  | manyToMany
deriving DecidableEq, Repr, Inhabited

namespace Cardinality

def all : List Cardinality := [oneToOne, manyToOne, oneToMany, manyToMany]

/-- The word that declares a cardinality. -/
def keyword : Cardinality → String
  | oneToOne => "OneToOne"
  | manyToOne => "ManyToOne"
  | oneToMany => "OneToMany"
  | manyToMany => "ManyToMany"

/-- The cardinality that a word declares. -/
def ofKeyword? (word : String) : Option Cardinality := all.find? fun c => c.keyword = word

/-- May there be several at the target end? -/
def toMany : Cardinality → Bool
  | oneToMany | manyToMany => true
  | oneToOne | manyToOne => false

end Cardinality

/-- One end of a relationship: an entity and perhaps the role of the other end. -/
structure Endpoint where
  entity : String
  role : Option String
deriving DecidableEq, Repr, Inhabited

namespace Endpoint

/-- The role, if it names anything. -/
def namedRole (endpoint : Endpoint) : Option String := endpoint.role.filter (· ≠ "")

/-- An end as it is declared: the entity, then the role in parentheses if there is one. -/
def text (endpoint : Endpoint) : String :=
  match endpoint.namedRole with
  | some role => s!"{endpoint.entity}({role})"
  | none => endpoint.entity

end Endpoint

/-- A link from a source entity to a target entity. -/
structure Relationship where
  cardinality : Cardinality
  source : Endpoint
  target : Endpoint
deriving DecidableEq, Repr, Inhabited

namespace Relationship

/-- A relationship as it is declared, after the keyword. -/
def text (relationship : Relationship) : String :=
  s!"{relationship.cardinality.keyword} \x7b {relationship.source.text} to " ++
    s!"{relationship.target.text} \x7d"

/-- The two ends, source first. -/
def ends (relationship : Relationship) : List Endpoint := [relationship.source, relationship.target]

end Relationship

end EntityScaffold
