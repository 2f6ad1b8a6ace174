import ScopedCss.Rule

/-! # Conditions

A condition restricts rules to some media or to agents with some feature. Nested conditions form a
path, outermost first. Conditions are the same only if their texts are. A forest holds the rules of
many definitions, gathered by the conditions that they stand under.
-/

set_option autoImplicit false

namespace ScopedCss

/-- The two at-rules that carry a condition. -/
inductive ConditionKind where
  | media
  | supports
  deriving DecidableEq, Repr

def ConditionKind.keyword : ConditionKind → String
  | .media => "media"
  | .supports => "supports"

/-- One condition: a kind and a query. -/
structure Condition where
  kind : ConditionKind
  query : String
  deriving DecidableEq, Repr

/-- The condition as the prelude of its at-rule. -/
def Condition.text (c : Condition) : String := "@" ++ c.kind.keyword ++ " " ++ c.query

/-! ## Forests of conditional rules

Siblings are stored by key, and a node is reached by the path of the keys above it; rules that are
registered at a path join those already there, so that one condition is written once, and siblings
keep the order in which they were first needed.
-/

namespace Condition

/-- A condition with the rules that stand directly under it and the nodes nested in it, by key. -/
structure Node where
  condition : Condition
  rules : List Rule
  children : List (Condition × Node)
  deriving Repr

/-- The nodes of the outermost conditions, by key. -/
abbrev Forest := List (Condition × Node)

/-- A condition that nothing stands under yet. -/
def Node.new (condition : Condition) : Node := ⟨condition, [], []⟩

namespace Forest

def keys (forest : Forest) : List Condition := forest.map Prod.fst

def nodes (forest : Forest) : List Node := forest.map Prod.snd

/-- The node under a key among siblings. -/
def at? (forest : Forest) (key : Condition) : Option Node := forest.lookup key

/-- Changes the node under a key, which is created at the end if it is missing. -/
def modify (key : Condition) (change : Node → Node) : Forest → Forest
  | [] => [(key, change (Node.new key))]
  | (first, node) :: rest =>
      if first = key then (first, change node) :: rest
      else (first, node) :: modify key change rest

end Forest

/-- Appends rules at the end of a path that starts below a node. -/
def Node.extend : List Condition → List Rule → Node → Node
  | [], rules, node => { node with rules := node.rules ++ rules }
  | condition :: path, rules, node =>
      { node with children := Forest.modify condition (Node.extend path rules) node.children }

/-- The node at the end of a path that starts below a node. -/
def Node.follow? : List Condition → Node → Option Node
  | [], node => some node
  | condition :: path, node => (Forest.at? node.children condition).bind (Node.follow? path)

mutual

def Node.size : Node → Nat
  | ⟨_, _, children⟩ => 1 + Forest.size children

def Forest.size : List (Condition × Node) → Nat
  | [] => 0
  | (_, node) :: rest => node.size + Forest.size rest

end

mutual

/-- No rule of the tree has a declaration. -/
def Node.isEmpty : Node → Bool
  | ⟨_, rules, children⟩ => rules.all Rule.isEmpty && Forest.isEmpty children

/-- No rule of the forest has a declaration. -/
def Forest.isEmpty : List (Condition × Node) → Bool
  | [] => true
  | (_, node) :: rest => node.isEmpty && Forest.isEmpty rest

end

namespace Forest

/-- Appends rules at a path. There is no node for the empty path, whose rules are unconditional. -/
def register (forest : Forest) : List Condition → List Rule → Forest
  | [], _ => forest
  | condition :: path, rules => forest.modify condition (Node.extend path rules)

def registerAll (forest : Forest) (entries : List (List Condition × List Rule)) : Forest :=
  entries.foldl (fun forest entry => forest.register entry.1 entry.2) forest

/-- The node at a path. -/
def find? (forest : Forest) : List Condition → Option Node
  | [] => none
  | condition :: path => (forest.at? condition).bind (Node.follow? path)

end Forest

end Condition

end ScopedCss
