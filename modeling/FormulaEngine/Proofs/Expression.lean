import FormulaEngine.Expression
/-!
# Nodes of expressions

An expression holds lists of expressions, so an induction on it takes its hypotheses for the
arguments of a call one by one. A property that each part of a formula should have is stated over
the list of its nodes.
-/
namespace FormulaEngine.Expression

@[elab_as_elim, induction_eliminator]
theorem induct {motive : Expression → Prop}
    (literal : ∀ v, motive (.literal v))
    (identifier : ∀ name, motive (.identifier name))
    (call : ∀ name args, (∀ a ∈ args, motive a) → motive (.call name args))
    (unary : ∀ op x, motive x → motive (.unary op x))
    (binary : ∀ op l r, motive l → motive r → motive (.binary op l r))
    (foreign : ∀ v, motive (.foreign v)) :
    ∀ e, motive e
  | .literal v => literal v
  | .identifier name => identifier name
  | .call name args =>
    call name args fun a _ => induct literal identifier call unary binary foreign a
  | .unary op x => unary op x (induct literal identifier call unary binary foreign x)
  | .binary op l r =>
    binary op l r (induct literal identifier call unary binary foreign l)
      (induct literal identifier call unary binary foreign r)
  | .foreign v => foreign v

mutual

/-- All nodes of an expression, each one before its operands. -/
def nodes : Expression → List Expression
  | .literal v => [.literal v]
  | .identifier name => [.identifier name]
  | .call name args => .call name args :: nodesAll args
  | .unary op x => .unary op x :: nodes x
  | .binary op l r => .binary op l r :: (nodes l ++ nodes r)
  | .foreign v => [.foreign v]

def nodesAll : List Expression → List Expression
  | [] => []
  | e :: es => nodes e ++ nodesAll es

end

theorem mem_nodesAll {x : Expression} {es : List Expression} :
    x ∈ nodesAll es ↔ ∃ e ∈ es, x ∈ e.nodes := by
  induction es with
  | nil => simp [nodesAll]
  | cons e es ih => simp [nodesAll, ih]

theorem forall_nodes_call {P : Expression → Prop} {name : String} {args : List Expression} :
    (∀ x ∈ (call name args).nodes, P x) ↔
      P (.call name args) ∧ ∀ a ∈ args, ∀ x ∈ a.nodes, P x := by
  simp only [nodes, List.forall_mem_cons, mem_nodesAll]
  constructor
  · rintro ⟨h, hargs⟩
    exact ⟨h, fun a ha x hx => hargs x ⟨a, ha, hx⟩⟩
  · rintro ⟨h, hargs⟩
    exact ⟨h, fun x ⟨a, ha, hx⟩ => hargs a ha x hx⟩

theorem forall_nodes_unary {P : Expression → Prop} {op : String} {x : Expression} :
    (∀ y ∈ (unary op x).nodes, P y) ↔ P (.unary op x) ∧ ∀ y ∈ x.nodes, P y := by
  simp only [nodes, List.forall_mem_cons]

theorem forall_nodes_binary {P : Expression → Prop} {op : String} {l r : Expression} :
    (∀ y ∈ (binary op l r).nodes, P y) ↔
      P (.binary op l r) ∧ (∀ y ∈ l.nodes, P y) ∧ ∀ y ∈ r.nodes, P y := by
  simp only [nodes, List.forall_mem_cons, List.forall_mem_append]

end FormulaEngine.Expression
