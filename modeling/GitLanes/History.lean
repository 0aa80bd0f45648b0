import GitLanes.Number.Quantity

namespace GitLanes

/-!
# Positioned histories

The result of laying out a script: branches and commits in the order of their
creation, and edges in the order in which they were drawn. A history may also
be given as it is, with repeated identifiers or with edges that lead nowhere.
-/

/-- A branch with its lane and its last commit. -/
structure Branch where
  name : String
  laneIndex : Int
  color : String
  tip : Option String
  deriving Repr, DecidableEq

/-- A commit or a merge with its place in the drawing. -/
structure CommitNode where
  id : String
  label : String
  x : Quantity
  y : Quantity
  branch : String
  color : String
  isMerge : Bool
  deriving Repr, DecidableEq

/-- A line from a commit to one of its children. -/
structure Edge where
  source : String
  target : String
  color : String
  isMergeLine : Bool
  deriving Repr, DecidableEq

/-- Branches, commits and edges of one drawing. -/
structure History where
  branches : List Branch
  commits : List CommitNode
  edges : List Edge
  deriving Repr, DecidableEq

namespace History

/-- The first branch of a given name. -/
def branch? (history : History) (name : String) : Option Branch :=
  history.branches.find? fun branch => branch.name == name

/-- The first commit with a given identifier. -/
def commit? (history : History) (id : String) : Option CommitNode :=
  history.commits.find? fun commit => commit.id == id

/-- Whether a history has no commit. -/
def isEmpty (history : History) : Bool :=
  history.commits.isEmpty

/-- The identifiers of the commits made on a branch, in order of creation. -/
def commitsOn (history : History) (name : String) : List String :=
  (history.commits.filter fun commit => commit.branch == name).map CommitNode.id

/-- Whether some commit has a given identifier. -/
def knows (history : History) (id : String) : Bool :=
  history.commits.any fun commit => commit.id == id

/-- The edges with an end that is no commit. -/
def danglingEdges (history : History) : List Edge :=
  history.edges.filter fun edge =>
    !(history.knows edge.source && history.knows edge.target)

end History

end GitLanes
