import Mathlib
import StumpCompiler.Xml.Tree

/-! Trees: how to reason about all nodes of a tree, and when two trees are equal. -/

namespace StumpCompiler.Xml

def Node.isElement : Node → Bool
  | element _ _ _ => true
  | _ => false

theorem Node.subtree_eq (n : Node) : n.subtree = n :: n.descendants := by
  cases n <;> rfl

theorem mem_nodes {x : Node} {ns : List Node} : x ∈ nodes ns ↔ ∃ n ∈ ns, x ∈ n.subtree := by
  induction ns with
  | nil => simp [nodes]
  | cons n ns ih => simp [nodes, ih]

theorem nodes_append (ms ns : List Node) : nodes (ms ++ ns) = nodes ms ++ nodes ns := by
  induction ms with
  | nil => rfl
  | cons m ms ih => simp [nodes, ih]

mutual

/-- What holds of a node if it holds of its children, holds of all nodes. -/
@[elab_as_elim]
theorem Node.induction {motive : Node → Prop}
    (step : ∀ n : Node, (∀ c ∈ n.children, motive c) → motive n) : ∀ n, motive n
  | .element name attributes children =>
    step (.element name attributes children) (forall_mem_of_step step children)
  | .text content => step (.text content) nofun
  | .comment content => step (.comment content) nofun
  | .instruction target content => step (.instruction target content) nofun

theorem forall_mem_of_step {motive : Node → Prop}
    (step : ∀ n : Node, (∀ c ∈ n.children, motive c) → motive n) :
    ∀ ns : List Node, ∀ n ∈ ns, motive n
  | [] => nofun
  | n :: ns => List.forall_mem_cons.mpr ⟨Node.induction step n, forall_mem_of_step step ns⟩

end

/-! Equality is decided. -/

mutual

def Node.beq : Node → Node → Bool
  | .element name as ns, .element name' as' ns' => name = name' && as = as' && beqAll ns ns'
  | .text content, .text content' => content = content'
  | .comment content, .comment content' => content = content'
  | .instruction target content, .instruction target' content' =>
    target = target' && content = content'
  | _, _ => false

def beqAll : List Node → List Node → Bool
  | [], [] => true
  | n :: ns, n' :: ns' => n.beq n' && beqAll ns ns'
  | _, _ => false

end

mutual

theorem Node.beq_iff : ∀ n n' : Node, n.beq n' = true ↔ n = n'
  | .element _ _ ns, .element _ _ ns' => by
    simp [Node.beq, beqAll_iff ns ns', and_assoc]
  | .text _, .text _ | .comment _, .comment _ | .instruction _ _, .instruction _ _ => by
    simp [Node.beq]
  | .element _ _ _, .text _ | .element _ _ _, .comment _ | .element _ _ _, .instruction _ _
  | .text _, .element _ _ _ | .text _, .comment _ | .text _, .instruction _ _
  | .comment _, .element _ _ _ | .comment _, .text _ | .comment _, .instruction _ _
  | .instruction _ _, .element _ _ _ | .instruction _ _, .text _
  | .instruction _ _, .comment _ => by
    simp [Node.beq]

theorem beqAll_iff : ∀ ns ns' : List Node, beqAll ns ns' = true ↔ ns = ns'
  | [], [] => by simp [beqAll]
  | n :: ns, n' :: ns' => by simp [beqAll, Node.beq_iff n n', beqAll_iff ns ns']
  | [], _ :: _ | _ :: _, [] => by simp [beqAll]

end

instance : DecidableEq Node := fun n n' =>
  decidable_of_iff (n.beq n' = true) (n.beq_iff n')

end StumpCompiler.Xml
