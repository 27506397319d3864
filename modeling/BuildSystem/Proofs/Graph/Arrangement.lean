/-
**Arranged nodes: every node stands behind its prerequisites.**

* `Graph.Needs` — the edges of a graph.
* `Arranged` — no name has two nodes, and the prerequisites of a node have nodes before it.
* `Arranged.append` — a node whose prerequisites have nodes may be put at the end.
* `Arranged.earlier` — what the nodes of an initial part need stands before the last one of them.
* `Arranged.rec_on`, `Arranged.rec_back` — a property that passes from the prerequisites of a node
  to the node, or from the nodes that need it, holds of all nodes.
* `arranged_reachableNodes` — the nodes that some names lead to are arranged if all nodes are: with
  every node its prerequisites are kept (`reachableNodes_append`).
* `reachableNodes_needed` — and nothing is kept but what they lead to.
-/

import BuildSystem.Graph.Resolution
import Mathlib.Data.List.Induction
import Mathlib.Data.List.Nodup

namespace BuildSystem

/-- The names of some nodes, in order. -/
def nodeNames (nodes : List Node) : List String :=
  nodes.map (·.name)

@[simp] theorem nodeNames_append (first second : List Node) :
    nodeNames (first ++ second) = nodeNames first ++ nodeNames second :=
  List.map_append

@[simp] theorem nodeNames_cons (node : Node) (nodes : List Node) :
    nodeNames (node :: nodes) = node.name :: nodeNames nodes := rfl

@[simp] theorem nodeNames_nil : nodeNames [] = [] := rfl

theorem mem_nodeNames {name : String} {nodes : List Node} :
    name ∈ nodeNames nodes ↔ ∃ node ∈ nodes, node.name = name :=
  List.mem_map

/-- A node needs another one: the other one makes a prerequisite of the first. -/
def Graph.Needs (graph : Graph) (node other : Node) : Prop :=
  other ∈ graph.nodes ∧ other.name ∈ node.prereqs

/-- **No name has two nodes, and every node stands behind its prerequisites.** -/
structure Arranged (nodes : List Node) : Prop where
  nodup : (nodeNames nodes).Nodup
  behind : ∀ before node after, nodes = before ++ node :: after →
    ∀ prereq ∈ node.prereqs, prereq ∈ nodeNames before

namespace Arranged

theorem nil : Arranged [] where
  nodup := List.nodup_nil
  behind := fun before node after split => by simp at split

/-- A new node whose prerequisites have nodes may be put at the end. -/
theorem append {nodes : List Node} {node : Node} (arranged : Arranged nodes)
    (fresh : node.name ∉ nodeNames nodes)
    (known : ∀ prereq ∈ node.prereqs, prereq ∈ nodeNames nodes) : Arranged (nodes ++ [node]) where
  nodup := by
    rw [nodeNames_append]
    exact arranged.nodup.append (List.nodup_singleton _) (List.disjoint_singleton.mpr fresh)
  behind := by
    intro before found after split prereq needed
    rcases List.append_eq_append_iff.mp split with ⟨rest, beforeIs, tail⟩ | ⟨rest, nodesAre, tail⟩
    · cases rest with
      | nil =>
        obtain ⟨rfl, _⟩ := List.cons.inj tail
        rw [beforeIs, List.append_nil]
        exact known prereq needed
      | cons other rest => simp at tail
    · cases rest with
      | nil =>
        obtain ⟨rfl, _⟩ := List.cons.inj tail.symm
        rw [List.append_nil] at nodesAre
        exact nodesAre ▸ known prereq needed
      | cons other rest =>
        obtain ⟨rfl, _⟩ := List.cons.inj tail
        exact arranged.behind before _ rest nodesAre prereq needed

/-- The nodes before some place are arranged. -/
theorem of_append {first second : List Node} (arranged : Arranged (first ++ second)) :
    Arranged first where
  nodup := by
    have nodup := arranged.nodup
    rw [nodeNames_append] at nodup
    exact nodup.of_append_left
  behind := by
    intro before node after split
    exact arranged.behind before node (after ++ second) (by rw [split]; simp)

/-- The nodes up to some node are arranged. -/
theorem upTo {nodes before after : List Node} {node : Node} (arranged : Arranged nodes)
    (split : nodes = before ++ node :: after) : Arranged (before ++ [node]) := by
  rw [split, List.append_cons] at arranged
  exact arranged.of_append

/-- The last node is new, and its prerequisites have nodes. -/
theorem last {nodes : List Node} {node : Node} (arranged : Arranged (nodes ++ [node])) :
    node.name ∉ nodeNames nodes ∧ ∀ prereq ∈ node.prereqs, prereq ∈ nodeNames nodes := by
  refine ⟨fun member => ?_, arranged.behind nodes node [] rfl⟩
  have nodup := arranged.nodup
  rw [nodeNames_append, List.nodup_append] at nodup
  exact nodup.2.2 _ member _ (List.mem_singleton_self _) rfl

theorem closed {nodes : List Node} (arranged : Arranged nodes) {node : Node}
    (member : node ∈ nodes) {prereq : String} (needed : prereq ∈ node.prereqs) :
    ∃ other ∈ nodes, other.name = prereq := by
  obtain ⟨before, after, rfl⟩ := List.append_of_mem member
  obtain ⟨other, earlier, named⟩ :=
    mem_nodeNames.mp (arranged.behind before node after rfl prereq needed)
  exact ⟨other, List.mem_append_left _ earlier, named⟩

theorem exists_needs {graph : Graph} (arranged : Arranged graph.nodes) {node : Node}
    (member : node ∈ graph.nodes) {name : String} (needed : name ∈ node.prereqs) :
    ∃ prereq, graph.Needs node prereq ∧ prereq.name = name := by
  obtain ⟨prereq, prereqMember, named⟩ := arranged.closed member needed
  exact ⟨prereq, ⟨prereqMember, named ▸ needed⟩, named⟩

/-- A name determines its node. -/
theorem eq_of_name {nodes : List Node} (arranged : Arranged nodes) {first second : Node}
    (firstMember : first ∈ nodes) (secondMember : second ∈ nodes)
    (same : first.name = second.name) : first = second :=
  List.inj_on_of_nodup_map arranged.nodup firstMember secondMember same

/-- A node is found under its name. -/
theorem node?_eq {graph : Graph} (arranged : Arranged graph.nodes) {node : Node}
    (member : node ∈ graph.nodes) : graph.node? node.name = some node := by
  unfold Graph.node?
  cases found : graph.nodes.find? (·.name == node.name) with
  | none => simpa using List.find?_eq_none.mp found node member
  | some other =>
    have named : other.name = node.name := by simpa using List.find?_some found
    rw [arranged.eq_of_name (List.mem_of_find?_eq_some found) member named]

/-- What the nodes of an initial part need stands before the last one of them. -/
theorem earlier {before after : List Node} {last node other : Node}
    (arranged : Arranged (before ++ last :: after)) (member : node ∈ before ++ [last])
    (otherMember : other ∈ before ++ last :: after) (needed : other.name ∈ node.prereqs) :
    other ∈ before ∧ other.name ≠ last.name := by
  have shifted : before ++ last :: after = (before ++ [last]) ++ after := by simp
  have initial : Arranged (before ++ [last]) := of_append (shifted ▸ arranged)
  have known : other.name ∈ nodeNames before := by
    rcases List.mem_append.mp member with early | lastOne
    · exact mem_nodeNames.mpr (initial.of_append.closed early needed)
    · obtain rfl := List.mem_singleton.mp lastOne
      exact initial.last.2 _ needed
  refine ⟨?_, fun same => initial.last.1 (same ▸ known)⟩
  obtain ⟨found, early, named⟩ := mem_nodeNames.mp known
  exact arranged.eq_of_name (List.mem_append_left _ early) otherMember named ▸ early

/-- No node before the last one has its name. -/
theorem ne_last {nodes : List Node} {node other : Node} (arranged : Arranged (nodes ++ [node]))
    (member : other ∈ nodes) : other.name ≠ node.name := fun same =>
  arranged.last.1 (mem_nodeNames.mpr ⟨other, member, same⟩)

/-- Nothing needs the last node. -/
theorem prereq_ne_last {nodes : List Node} {node other : Node}
    (arranged : Arranged (nodes ++ [node])) (member : other ∈ nodes ++ [node]) {prereq : String}
    (needed : prereq ∈ other.prereqs) : prereq ≠ node.name := by
  rintro rfl
  exact (arranged.earlier member (List.mem_append_right _ List.mem_cons_self) needed).2 rfl

/-- A property that passes from the prerequisites of a node to the node holds of all nodes. -/
theorem rec_on {nodes : List Node} (arranged : Arranged nodes) {holds : Node → Prop}
    (step : ∀ node ∈ nodes,
      (∀ other ∈ nodes, other.name ∈ node.prereqs → holds other) → holds node) :
    ∀ node ∈ nodes, holds node := by
  -- The property holds of every initial part, as the prerequisites of its last node lie in it.
  have initial : ∀ before after, nodes = before ++ after → ∀ node ∈ before, holds node := by
    intro before
    induction before using List.reverseRecOn with
    | nil => exact fun after split node member => by cases member
    | append_singleton before last ih =>
      intro after split node member
      have shifted : nodes = before ++ last :: after := by rw [split]; simp
      have below := ih (last :: after) shifted
      rcases List.mem_append.mp member with early | lastOne
      · exact below node early
      · obtain rfl := List.mem_singleton.mp lastOne
        refine step node (by rw [split]; simp) fun other otherMember needed => ?_
        rw [shifted] at arranged otherMember
        exact below other (arranged.earlier member otherMember needed).1
  exact initial nodes [] (List.append_nil nodes).symm

/-- A property that passes to a node from the nodes that need it holds of all nodes. -/
theorem rec_back {nodes : List Node} (arranged : Arranged nodes) {holds : Node → Prop}
    (step : ∀ node ∈ nodes,
      (∀ other ∈ nodes, node.name ∈ other.prereqs → holds other) → holds node) :
    ∀ node ∈ nodes, holds node := by
  -- The property holds of every final part, as what needs its first node lies in it.
  have final : ∀ after before, nodes = before ++ after → ∀ node ∈ after, holds node := by
    intro after
    induction after with
    | nil => exact fun _ _ node member => by cases member
    | cons first after ih =>
      intro before split node member
      have shifted : nodes = (before ++ [first]) ++ after := by simp [split]
      have above := ih (before ++ [first]) shifted
      rcases List.mem_cons.mp member with rfl | later
      · refine step node (by simp [split]) fun other otherMember needed => ?_
        rw [shifted] at otherMember
        rcases List.mem_append.mp otherMember with early | late
        · have place := (split ▸ arranged).earlier early (by simp) needed
          exact absurd rfl place.2
        · exact above other late
      · exact above node later
  exact final nodes [] rfl

/-- Changes that keep names and prerequisites keep nodes arranged. -/
theorem map {nodes : List Node} (arranged : Arranged nodes) {alter : Node → Node}
    (sameName : ∀ node, (alter node).name = node.name)
    (samePrereqs : ∀ node, (alter node).prereqs = node.prereqs) : Arranged (nodes.map alter) := by
  have sameNames : ∀ nodes : List Node, nodeNames (nodes.map alter) = nodeNames nodes := by
    intro nodes
    simp [nodeNames, sameName]
  refine ⟨by rw [sameNames]; exact arranged.nodup, fun before node after split prereq needed => ?_⟩
  obtain ⟨first, rest, rfl, firstIs, restIs⟩ := List.map_eq_append_iff.mp split
  obtain ⟨found, others, rfl, rfl, _⟩ := List.map_eq_cons_iff.mp restIs
  rw [← firstIs, sameNames]
  exact arranged.behind first found others rfl prereq (samePrereqs found ▸ needed)

end Arranged

/-! ### The nodes that some names lead to -/

/-- What has been kept so far stands behind what is kept later. -/
theorem foldr_keepNeeded (needed : List String) (kept nodes : List Node) :
    (nodes.foldr keepNeeded (needed, kept)).2 = reachableNodes needed nodes ++ kept := by
  induction nodes using List.reverseRecOn generalizing needed kept with
  | nil => rfl
  | append_singleton nodes last ih =>
    unfold reachableNodes
    rw [List.foldr_append, List.foldr_append, List.foldr_cons, List.foldr_nil, List.foldr_cons,
      List.foldr_nil]
    by_cases wanted : needed.contains last.name = true
    · rw [keepNeeded, keepNeeded, if_pos wanted, if_pos wanted, ih, ih, List.append_assoc]
      rfl
    · rw [keepNeeded, keepNeeded, if_neg wanted, if_neg wanted, ih, ih, List.append_nil]

/-- From the last node on: it is kept if it is needed, and then its prerequisites are needed too. -/
theorem reachableNodes_append (needed : List String) (nodes : List Node) (node : Node) :
    reachableNodes needed (nodes ++ [node]) =
      if node.name ∈ needed then reachableNodes (node.prereqs ++ needed) nodes ++ [node]
      else reachableNodes needed nodes := by
  have swept : reachableNodes needed (nodes ++ [node]) =
      (nodes.foldr keepNeeded (keepNeeded node (needed, []))).2 := by
    rw [reachableNodes, List.foldr_append, List.foldr_cons, List.foldr_nil]
  rw [swept]
  by_cases wanted : node.name ∈ needed
  · rw [if_pos wanted, keepNeeded, if_pos (List.contains_iff_mem.mpr wanted), foldr_keepNeeded]
  · rw [if_neg wanted, keepNeeded, if_neg (mt List.contains_iff_mem.mp wanted), foldr_keepNeeded,
      List.append_nil]

theorem reachableNodes_sublist (needed : List String) (nodes : List Node) :
    (reachableNodes needed nodes).Sublist nodes := by
  induction nodes using List.reverseRecOn generalizing needed with
  | nil => exact List.Sublist.slnil
  | append_singleton nodes node ih =>
    rw [reachableNodes_append]
    split
    · exact (ih _).append_right [node]
    · exact (ih _).trans (List.sublist_append_left nodes [node])

/-- What is needed and has a node is kept. -/
theorem mem_nodeNames_reachableNodes {needed : List String} {nodes : List Node} {name : String}
    (wanted : name ∈ needed) (known : name ∈ nodeNames nodes) :
    name ∈ nodeNames (reachableNodes needed nodes) := by
  induction nodes using List.reverseRecOn generalizing needed with
  | nil => cases known
  | append_singleton nodes node ih =>
    rw [nodeNames_append, List.mem_append] at known
    rw [reachableNodes_append]
    split
    · rw [nodeNames_append, List.mem_append]
      rcases known with early | lastOne
      · exact Or.inl (ih (List.mem_append_right _ wanted) early)
      · exact Or.inr lastOne
    · next unwanted =>
      rcases known with early | lastOne
      · exact ih wanted early
      · obtain rfl : name = node.name := List.mem_singleton.mp lastOne
        exact absurd wanted unwanted

/-- What is kept is needed by name, or by something else that is kept. -/
theorem reachableNodes_needed {needed : List String} {nodes : List Node} {node : Node}
    (kept : node ∈ reachableNodes needed nodes) : node.name ∈ needed ∨
      ∃ other ∈ reachableNodes needed nodes, node.name ∈ other.prereqs := by
  induction nodes using List.reverseRecOn generalizing needed with
  | nil => cases kept
  | append_singleton nodes last ih =>
    rw [reachableNodes_append] at kept ⊢
    by_cases wanted : last.name ∈ needed
    · rw [if_pos wanted] at kept ⊢
      rcases List.mem_append.mp kept with early | lastOne
      · rcases ih early with named | ⟨other, otherKept, needs⟩
        · rcases List.mem_append.mp named with below | named
          · exact Or.inr ⟨last, List.mem_append_right _ List.mem_cons_self, below⟩
          · exact Or.inl named
        · exact Or.inr ⟨other, List.mem_append_left _ otherKept, needs⟩
      · obtain rfl := List.mem_singleton.mp lastOne
        exact Or.inl wanted
    · rw [if_neg wanted] at kept ⊢
      exact ih kept

/-- **What is kept of arranged nodes is arranged.** -/
theorem arranged_reachableNodes {nodes : List Node} (arranged : Arranged nodes)
    (needed : List String) : Arranged (reachableNodes needed nodes) := by
  induction nodes using List.reverseRecOn generalizing needed with
  | nil => exact Arranged.nil
  | append_singleton nodes node ih =>
    have first := arranged.of_append
    obtain ⟨fresh, known⟩ := arranged.last
    rw [reachableNodes_append]
    split
    · refine (ih first _).append (fun member => fresh ?_) fun prereq needs => ?_
      · exact ((reachableNodes_sublist _ nodes).map _).subset member
      · exact mem_nodeNames_reachableNodes (List.mem_append_left _ needs) (known prereq needs)
    · exact ih first needed

end BuildSystem
