import IdentityAuthority.Storage.FactsCodec
import IdentityAuthority.Graphs.Walk

/-!
# Department snapshots are bounded rooted trees

What a department snapshot is, as a graph: its nodes have different codes, one of them is the root,
and following parents from any node ends there after at most 16 nodes. The checks that build one
accept just these.
-/

namespace IdentityAuthority

open Graphs

/-- The way up: the parent of a node is a node with the code it names. -/
def Parent (nodes : List DepartmentNode) (node parent : DepartmentNode) : Prop :=
  parent ∈ nodes ∧ node.parentId = some parent.id

/-- The nodes are a bounded rooted tree, and the memberships name nodes of it. -/
structure RootedTree (sourceRevision : String) (nodes : List DepartmentNode)
    (memberships : List DepartmentId) : Prop where
  revision : ∃ id, DepartmentId.new sourceRevision = .ok id
  size : 1 ≤ nodes.length ∧ nodes.length ≤ 256
  distinct : (nodes.map DepartmentNode.id).Nodup
  root : ∃ root ∈ nodes, root.parentId = none ∧ ∀ node ∈ nodes, node.parentId = none → node = root
  parents : ∀ node ∈ nodes, ∀ id ∈ node.parentId, ∃ parent ∈ nodes, parent.id = id
  depth : ∀ node ∈ nodes, ∃ n ≤ 16, ∃ root ∈ nodes, root.parentId = none ∧
    Walk (Parent nodes) n node root
  memberCount : memberships.length ≤ 16
  membersDistinct : memberships.Nodup
  members : ∀ id ∈ memberships, ∃ node ∈ nodes, node.id = id

section Trees

variable {nodes : List DepartmentNode} {node : DepartmentNode} {sourceRevision : String}
  {memberships : List DepartmentId}

/-- Different codes make nodes different. -/
theorem eq_of_id (hdistinct : (nodes.map DepartmentNode.id).Nodup) {a b : DepartmentNode}
    (ha : a ∈ nodes) (hb : b ∈ nodes) (hid : a.id = b.id) : a = b :=
  List.inj_on_of_nodup_map hdistinct ha hb hid

/-- A code that names a node finds it. -/
theorem find_node (hdistinct : (nodes.map DepartmentNode.id).Nodup) (hnode : node ∈ nodes) :
    (nodes.find? fun n => n.id = node.id) = some node := by
  cases hfound : nodes.find? fun n => n.id = node.id with
  | none =>
    have hno := List.find?_eq_none.mp hfound node hnode
    simp at hno
  | some found =>
    have hid : found.id = node.id := by
      simpa using List.find?_some hfound
    rw [eq_of_id hdistinct (List.mem_of_find?_eq_some hfound) hnode hid]

/-- No node has two parents. -/
theorem parent_functional (hdistinct : (nodes.map DepartmentNode.id).Nodup) :
    Functional (Parent nodes) := by
  rintro a b c ⟨hb, hab⟩ ⟨hc, hac⟩
  rw [hab] at hac
  exact eq_of_id hdistinct hb hc (Option.some.inj hac)

/-- There is no way up from a node without a parent. -/
theorem top_of_root (hroot : node.parentId = none) : Top (Parent nodes) node := by
  rintro parent ⟨-, hparent⟩
  rw [hroot] at hparent
  cases hparent

/-- The walk of the checks ends just if a walk over as many nodes at most ends at a root. -/
theorem parentsEnd_iff (hdistinct : (nodes.map DepartmentNode.id).Nodup) (hnode : node ∈ nodes)
    {bound : ℕ} :
    parentsEnd nodes bound (some node.id) = true ↔ ∃ n ≤ bound, ∃ root ∈ nodes,
      root.parentId = none ∧ Walk (Parent nodes) n node root := by
  induction bound generalizing node with
  | zero =>
    constructor
    · intro h
      cases h
    · rintro ⟨n, hn, root, -, -, hwalk⟩
      cases hwalk <;> omega
  | succ bound ih =>
    rw [parentsEnd, find_node hdistinct hnode]
    simp only
    cases hparent : node.parentId with
    | none =>
      refine ⟨fun _ => ⟨1, by omega, node, hnode, hparent, .stay node⟩, fun _ => ?_⟩
      cases bound <;> rfl
    | some id =>
      constructor
      · intro h
        have hnext : ∃ next ∈ nodes, next.id = id := by
          cases bound with
          | zero => cases h
          | succ bound =>
            rw [parentsEnd] at h
            cases hfound : nodes.find? fun n => n.id = id with
            | none => simp [hfound] at h
            | some next =>
              exact ⟨next, List.mem_of_find?_eq_some hfound, by simpa using List.find?_some hfound⟩
        obtain ⟨next, hmem, rfl⟩ := hnext
        obtain ⟨n, hn, root, hroot, htop, hwalk⟩ := (ih hmem).mp h
        exact ⟨n + 1, by omega, root, hroot, htop, .step ⟨hmem, hparent⟩ hwalk⟩
      · rintro ⟨n, hn, root, hroot, htop, hwalk⟩
        cases hwalk with
        | stay =>
          rw [htop] at hparent
          cases hparent
        | step hup hwalk =>
          obtain ⟨hmem, hid⟩ := hup
          obtain rfl : _ = id := Option.some.inj (hid.symm.trans hparent)
          exact (ih hmem).mpr ⟨_, by omega, root, hroot, htop, hwalk⟩

/-- Of different nodes just one has no parent, or they are counted otherwise. -/
theorem one_root_iff (hdistinct : (nodes.map DepartmentNode.id).Nodup) :
    (nodes.filter fun node => node.parentId.isNone).length = 1 ↔
      ∃ root ∈ nodes, root.parentId = none ∧
        ∀ node ∈ nodes, node.parentId = none → node = root := by
  have hnodup : (nodes.filter fun node => node.parentId.isNone).Nodup :=
    (List.Nodup.of_map _ hdistinct).filter _
  rw [List.length_eq_one_iff]
  constructor
  · rintro ⟨root, hroots⟩
    have hiff : ∀ node, node ∈ nodes ∧ node.parentId = none ↔ node = root := by
      intro node
      have hmem : node ∈ (nodes.filter fun node => node.parentId.isNone) ↔ node = root := by
        rw [hroots, List.mem_singleton]
      simpa using hmem
    obtain ⟨hmem, htop⟩ := (hiff root).mpr rfl
    exact ⟨root, hmem, htop, fun node hnode hparent => (hiff node).mp ⟨hnode, hparent⟩⟩
  · rintro ⟨root, hmem, htop, hunique⟩
    refine ⟨root, List.perm_singleton.mp ?_⟩
    rw [List.perm_ext_iff_of_nodup hnodup (List.nodup_singleton root)]
    intro node
    simp only [List.mem_filter, Option.isNone_iff_eq_none, List.mem_singleton]
    constructor
    · rintro ⟨hnode, hparent⟩
      exact hunique node hnode hparent
    · rintro rfl
      exact ⟨hmem, htop⟩

/-- The checks hold just of bounded rooted trees. -/
theorem departmentTree_iff :
    departmentTree sourceRevision nodes memberships = true ↔
      RootedTree sourceRevision nodes memberships := by
  have hrevision : boundedText sourceRevision 256 = true ↔
      ∃ id, DepartmentId.new sourceRevision = .ok id := by
    unfold DepartmentId.new
    split <;> simp [*]
  simp only [departmentTree, Bool.and_eq_true, decide_eq_true_eq, List.all_eq_true,
    List.any_eq_true]
  constructor
  · rintro ⟨⟨⟨⟨⟨⟨hsize, hbounded⟩, hdistinct⟩, hroots⟩, hends⟩, hmembers⟩, hnodup⟩
    have hwalks : ∀ node ∈ nodes, ∃ n ≤ 16, ∃ root ∈ nodes, root.parentId = none ∧
        Walk (Parent nodes) n node root :=
      fun node hnode => (parentsEnd_iff hdistinct hnode).mp (hends node hnode)
    refine ⟨hrevision.mp hbounded, by omega, hdistinct, (one_root_iff hdistinct).mp hroots, ?_,
      hwalks, hsize.2.2, hnodup, hmembers⟩
    intro node hnode id hid
    obtain ⟨n, -, root, -, htop, hwalk⟩ := hwalks node hnode
    cases hwalk with
    | stay =>
      rw [htop] at hid
      cases hid
    | step hup _ =>
      obtain ⟨hmem, hparent⟩ := hup
      rw [hparent] at hid
      exact ⟨_, hmem, Option.some.inj hid⟩
  · intro htree
    refine ⟨⟨⟨⟨⟨⟨?_, hrevision.mpr htree.revision⟩, htree.distinct⟩,
      (one_root_iff htree.distinct).mpr htree.root⟩, ?_⟩, htree.members⟩, htree.membersDistinct⟩
    · have hsize := htree.size
      have hcount := htree.memberCount
      omega
    · intro node hnode
      exact (parentsEnd_iff htree.distinct hnode).mpr (htree.depth node hnode)

/-- A tree has no cycle. -/
theorem RootedTree.acyclic (htree : RootedTree sourceRevision nodes memberships)
    (hnode : node ∈ nodes) : ¬ Relation.TransGen (Parent nodes) node node := by
  obtain ⟨n, -, root, -, htop, hwalk⟩ := htree.depth node hnode
  exact hwalk.acyclic (parent_functional htree.distinct) (top_of_root htop)

/-- `DepartmentSnapshot::new` accepts just the bounded rooted trees. What it returns is what it was
given, has no cycle, and is read back from its document. -/
theorem departmentSnapshot_new :
    (∀ (sourceRevision : String) (nodes : List DepartmentNode) (memberships : List DepartmentId),
      (∃ snapshot, DepartmentSnapshot.new sourceRevision nodes memberships = .ok snapshot) ↔
        RootedTree sourceRevision nodes memberships) ∧
    (∀ (sourceRevision : String) (nodes : List DepartmentNode) (memberships : List DepartmentId)
      (snapshot : DepartmentSnapshot),
      DepartmentSnapshot.new sourceRevision nodes memberships = .ok snapshot →
        snapshot.sourceRevision = sourceRevision ∧ snapshot.nodes = nodes ∧
          snapshot.memberships = memberships ∧
          (∀ node ∈ nodes, ¬ Relation.TransGen (Parent nodes) node node) ∧
          DepartmentSnapshot.ofJson snapshot.json = some snapshot) := by
  constructor
  · intro sourceRevision nodes memberships
    rw [← departmentTree_iff]
    unfold DepartmentSnapshot.new
    split <;> simp [*]
  · intro sourceRevision nodes memberships snapshot h
    unfold DepartmentSnapshot.new at h
    split at h
    · rename_i htree
      cases h
      exact ⟨rfl, rfl, rfl, fun node hnode => (departmentTree_iff.mp htree).acyclic hnode,
        DepartmentSnapshot.ofJson_json _⟩
    · cases h

/-- A tree of two nodes. -/
def sampleNodes : List DepartmentNode :=
  [⟨⟨"root", by decide⟩, "Company", none, by decide⟩,
    ⟨⟨"sales", by decide⟩, "Sales", some ⟨"root", by decide⟩, by decide⟩]

/-- It is accepted as it is. -/
theorem sampleNodes_new : ∃ snapshot,
    DepartmentSnapshot.new "r1" sampleNodes [⟨"sales", by decide⟩] = .ok snapshot ∧
      snapshot.nodes = sampleNodes := by
  have htree : departmentTree "r1" sampleNodes [⟨"sales", by decide⟩] = true := by decide +kernel
  obtain ⟨snapshot, h⟩ := (departmentSnapshot_new.1 _ _ _).mpr (departmentTree_iff.mp htree)
  exact ⟨snapshot, h, (departmentSnapshot_new.2 _ _ _ _ h).2.1⟩

end Trees

end IdentityAuthority
