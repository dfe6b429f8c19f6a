import Formula.Proofs.Source.Lexing

/-!
# Trees in a table of nodes

The operands that no operator has claimed list trees, and every node of the
table stands in exactly one of these trees, once. So reading with a table goes
the same way as grouping into trees, and no token is taken twice when the
finished tree is listed.
-/

namespace Formula

namespace NodeTable

variable {nodes other : Array Node} {index : Nat} {tree : Expression}
  {places : List Nat}

/-! ## Trees of nodes -/

/-- The node at an index and those that it leads to are those of a tree. Their
indices are in the order of the tree's tokens. -/
inductive Lists (nodes : Array Node) : Nat → Expression → List Nat → Prop
  | operand {index : Nat} {atom : Operand}
      (found : nodes[index]? = some ⟨some (.operand atom), none, none, 1⟩) :
      Lists nodes index (.operand atom) [index]
  | unary {index inner : Nat} {operator : UnaryOperator} {tree : Expression}
      {places : List Nat}
      (found : nodes[index]? = some ⟨some (.unary operator), some inner, none,
        (Expression.unary operator tree).height⟩)
      (innerLists : Lists nodes inner tree places) :
      Lists nodes index (.unary operator tree) (index :: places)
  | binary {index left right : Nat} {operator : BinaryOperator}
      {leftTree rightTree : Expression} {leftPlaces rightPlaces : List Nat}
      (found : nodes[index]? = some ⟨some (.binary operator), some left,
        some right, (Expression.binary operator leftTree rightTree).height⟩)
      (leftLists : Lists nodes left leftTree leftPlaces)
      (rightLists : Lists nodes right rightTree rightPlaces) :
      Lists nodes index (.binary operator leftTree rightTree)
        (index :: (leftPlaces ++ rightPlaces))

inductive ListsAll (nodes : Array Node) :
    List Nat → List Expression → List Nat → Prop
  | nil : ListsAll nodes [] [] []
  | cons {index : Nat} {tree : Expression} {places : List Nat}
      {indices : List Nat} {trees : List Expression} {others : List Nat}
      (first : Lists nodes index tree places)
      (rest : ListsAll nodes indices trees others) :
      ListsAll nodes (index :: indices) (tree :: trees) (places ++ others)

theorem Lists.lt_size (lists : Lists nodes index tree places) :
    ∀ place ∈ places, place < nodes.size := by
  have inside {index : Nat} {node : Node} (found : nodes[index]? = some node) :
      index < nodes.size :=
    (Array.getElem?_eq_some_iff.1 found).1
  induction lists with
  | operand found =>
      exact List.forall_mem_singleton.2 (inside found)
  | unary found _ inductionHypothesis =>
      exact List.forall_mem_cons.2 ⟨inside found, inductionHypothesis⟩
  | binary found _ _ leftHypothesis rightHypothesis =>
      exact List.forall_mem_cons.2 ⟨inside found,
        List.forall_mem_append.2 ⟨leftHypothesis, rightHypothesis⟩⟩

theorem getElem?_push_of_lt (inside : index < nodes.size) (node : Node) :
    (nodes.push node)[index]? = nodes[index]? := by
  rw [Array.getElem?_push_lt inside, Array.getElem?_eq_getElem inside]

/-- A tree stays where its nodes stay. -/
theorem Lists.of_agree (lists : Lists nodes index tree places)
    (same : ∀ place ∈ places, other[place]? = nodes[place]?) :
    Lists other index tree places := by
  induction lists with
  | operand found =>
      exact .operand ((same _ List.mem_cons_self).trans found)
  | unary found _ inductionHypothesis =>
      obtain ⟨here, inside⟩ := List.forall_mem_cons.1 same
      exact .unary (here.trans found) (inductionHypothesis inside)
  | binary found _ _ leftHypothesis rightHypothesis =>
      obtain ⟨here, inside⟩ := List.forall_mem_cons.1 same
      obtain ⟨left, right⟩ := List.forall_mem_append.1 inside
      exact .binary (here.trans found) (leftHypothesis left)
        (rightHypothesis right)

theorem Lists.height_eq (lists : Lists nodes index tree places) :
    nodes[index]?.map Node.height = some tree.height := by
  cases lists with
  | operand found | unary found | binary found =>
      rw [found]
      rfl

variable {indices : List Nat} {trees : List Expression}

theorem ListsAll.of_agree (lists : ListsAll nodes indices trees places)
    (same : ∀ place ∈ places, other[place]? = nodes[place]?) :
    ListsAll other indices trees places := by
  induction lists with
  | nil =>
      exact .nil
  | cons first _ inductionHypothesis =>
      obtain ⟨here, later⟩ := List.forall_mem_append.1 same
      exact .cons (first.of_agree here) (inductionHypothesis later)

theorem ListsAll.lt_size (lists : ListsAll nodes indices trees places) :
    ∀ place ∈ places, place < nodes.size := by
  induction lists with
  | nil =>
      exact List.forall_mem_nil _
  | cons first _ inductionHypothesis =>
      exact List.forall_mem_append.2 ⟨first.lt_size, inductionHypothesis⟩

/-- A further node leaves a tree as it is. -/
theorem Lists.push (lists : Lists nodes index tree places) (node : Node) :
    Lists (nodes.push node) index tree places :=
  lists.of_agree fun place isPlace =>
    getElem?_push_of_lt (lists.lt_size place isPlace) node

theorem ListsAll.push (lists : ListsAll nodes indices trees places)
    (node : Node) : ListsAll (nodes.push node) indices trees places :=
  lists.of_agree fun place isPlace =>
    getElem?_push_of_lt (lists.lt_size place isPlace) node

/-! ## Listing a tree -/

theorem tokensFrom_cons {written : List Token} {waiting : List Nat}
    {token : Token} (inside : index < nodes.size)
    (stands : nodes[index].token? = some token) :
    tokensFrom nodes written (index :: waiting) =
      tokensFrom (nodes.set index nodes[index].taken) (token :: written)
        (nodes[index].operands ++ waiting) := by
  rw [tokensFrom, dif_pos inside]
  split
  · rename_i other isOther
    cases stands.symm.trans isOther
    rfl
  · rename_i isTaken
    cases stands.symm.trans isTaken

/-- The first of the places is that of the first root. Once its token is taken,
its operands come first. -/
theorem ListsAll.exists_of_cons {place : Nat}
    (lists : ListsAll nodes indices trees (place :: places)) :
    ∃ (inside : place < nodes.size) (token : Token) (rest : List Nat)
        (more : List Expression),
      indices = place :: rest ∧ nodes[place].token? = some token ∧
        ListsAll nodes (nodes[place].operands ++ rest) more places ∧
          trees.flatMap Expression.tokens =
            token :: more.flatMap Expression.tokens := by
  generalize isSplit : place :: places = all at lists
  cases lists with
  | nil =>
      cases isSplit
  | @cons _ _ _ rest trees others first later =>
      cases first with
      | operand found =>
          obtain ⟨inside, isNode⟩ := Array.getElem?_eq_some_iff.1 found
          cases isSplit
          refine ⟨inside, _, rest, trees, rfl, ?_, ?_, rfl⟩
          · rw [isNode]
          · rw [isNode]
            exact later
      | @unary _ inner operator tree _ found innerLists =>
          obtain ⟨inside, isNode⟩ := Array.getElem?_eq_some_iff.1 found
          cases isSplit
          refine ⟨inside, _, rest, tree :: trees, rfl, ?_, ?_, rfl⟩
          · rw [isNode]
          · rw [isNode]
            exact .cons innerLists later
      | @binary _ left right operator leftTree rightTree _ _ found leftLists
          rightLists =>
          obtain ⟨inside, isNode⟩ := Array.getElem?_eq_some_iff.1 found
          cases isSplit
          have joined := ListsAll.cons leftLists (.cons rightLists later)
          rw [← List.append_assoc] at joined
          refine ⟨inside, .binary operator, rest,
            leftTree :: rightTree :: trees, rfl, ?_, ?_, ?_⟩
          · rw [isNode]
          · rw [isNode]
            exact joined
          · simp only [List.flatMap_cons, Expression.tokens, List.cons_append,
              List.append_assoc]

/-- Waiting nodes whose trees use no node twice are listed one after the
other. -/
theorem ListsAll.tokensFrom_eq (once : places.Nodup) (written : List Token)
    (lists : ListsAll nodes indices trees places) :
    tokensFrom nodes written indices =
      .ok (written.reverse ++ trees.flatMap Expression.tokens) := by
  induction places generalizing nodes indices trees written with
  | nil =>
      generalize isEmpty : [] = all at lists
      cases lists with
      | nil =>
          rw [tokensFrom, List.flatMap_nil, List.append_nil]
      | cons first _ =>
          cases first <;> cases isEmpty
  | cons place places inductionHypothesis =>
      obtain ⟨isFirst, onceLater⟩ := List.nodup_cons.1 once
      obtain ⟨inside, token, rest, more, rfl, stands, later, tokensEq⟩ :=
        lists.exists_of_cons
      have untouched : ∀ other ∈ places,
          (nodes.set place nodes[place].taken)[other]? = nodes[other]? := by
        intro other isOther
        refine Array.getElem?_set_ne inside ?_
        rintro rfl
        exact isFirst isOther
      rw [tokensFrom_cons inside stands,
        inductionHypothesis onceLater _ (later.of_agree untouched), tokensEq,
        List.reverse_cons, List.append_assoc]
      rfl

/-- A node is the root of a tree, in which every node of the table stands
once. -/
def ListsOnce (nodes : Array Node) (root : Nat) (tree : Expression) : Prop :=
  ∃ places, Lists nodes root tree places ∧
    places.Perm (List.range nodes.size)

/-- A finished tree is listed, and no token is missing. -/
theorem ListsOnce.tokens_eq {root : Nat} (lists : ListsOnce nodes root tree) :
    tokens nodes root = .ok tree.tokens := by
  obtain ⟨places, rootLists, isPerm⟩ := lists
  have once : places.Nodup := isPerm.nodup_iff.2 List.nodup_range
  have alone := ListsAll.cons rootLists .nil
  rw [List.append_nil] at alone
  rw [tokens, alone.tokensFrom_eq once]
  simp

/-! ## Unclaimed trees -/

/-- The operands of a table are the roots of trees, in which every node of the
table stands once. -/
def Represents (table : NodeTable) (trees : List Expression) : Prop :=
  ∃ places, ListsAll table.nodes table.operands trees places ∧
    places.Perm (List.range table.nodes.size)

namespace Represents

variable {operands : List Nat}

/-- A new node with its operands stands in one tree. -/
theorem push_of_lists {rest claimed others : List Nat}
    (isPerm : (claimed ++ others).Perm (List.range nodes.size)) (node : Node)
    (first : Lists (nodes.push node) nodes.size tree (nodes.size :: claimed))
    (later : ListsAll nodes rest trees others) :
    Represents ⟨nodes.push node, nodes.size :: rest⟩ (tree :: trees) := by
  refine ⟨_, .cons first (later.push node), ?_⟩
  rw [Array.size_push, List.range_succ]
  exact (isPerm.cons nodes.size).trans
    (List.perm_append_singleton nodes.size _).symm

theorem push_operand (represents : Represents ⟨nodes, operands⟩ trees)
    (atom : Operand) :
    Represents
      ⟨nodes.push ⟨some (.operand atom), none, none, 1⟩,
        nodes.size :: operands⟩
      (.operand atom :: trees) := by
  obtain ⟨places, lists, isPerm⟩ := represents
  rw [← List.nil_append places] at isPerm
  exact push_of_lists isPerm _ (.operand Array.getElem?_push_size) lists

theorem push_unary {inner : Nat}
    (represents : Represents ⟨nodes, inner :: operands⟩ (tree :: trees))
    (operator : UnaryOperator) :
    Represents
      ⟨nodes.push ⟨some (.unary operator), some inner, none,
          (Expression.unary operator tree).height⟩,
        nodes.size :: operands⟩
      (.unary operator tree :: trees) := by
  obtain ⟨places, lists, isPerm⟩ := represents
  cases lists with
  | cons first later =>
      exact push_of_lists isPerm _
        (.unary Array.getElem?_push_size (first.push _)) later

theorem push_binary {left right : Nat} {leftTree rightTree : Expression}
    (represents :
      Represents ⟨nodes, right :: left :: operands⟩
        (rightTree :: leftTree :: trees))
    (operator : BinaryOperator) :
    Represents
      ⟨nodes.push ⟨some (.binary operator), some left, some right,
          (Expression.binary operator leftTree rightTree).height⟩,
        nodes.size :: operands⟩
      (.binary operator leftTree rightTree :: trees) := by
  obtain ⟨places, lists, isPerm⟩ := represents
  cases lists with
  | cons rightLists rest =>
      cases rest with
      | cons leftLists later =>
          rw [← List.append_assoc] at isPerm
          refine push_of_lists
            ((List.perm_append_comm.append_right _).trans isPerm) _
            (.binary Array.getElem?_push_size (leftLists.push _)
              (rightLists.push _)) later

end Represents

end NodeTable

end Formula
