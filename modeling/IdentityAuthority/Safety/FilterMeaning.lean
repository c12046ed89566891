import IdentityAuthority.Core.DepartmentTree
import IdentityAuthority.Core.FilterRules
import IdentityAuthority.Storage.DirectoryFilter

/-!
# What filters select

A filter has a meaning of its own: a comparison asks for a value that compares so, lists join by
`and` and `or`, and departments are looked up in the tree of the account. The condition in the
database is true of just the rows that the filter means, however its pieces are read.
-/

namespace IdentityAuthority

open Relational Json

/-- A value compares so with operands. -/
def Compares : Operator → Scalar → List Scalar → Prop
  | .equal, a, operands | .among, a, operands => a ∈ operands
  | .notEqual, a, operands | .notAmong, a, operands => a ∉ operands
  | .less, a, operands => ∃ v ∈ operands, a.before v = true
  | .lessEqual, a, operands => ∃ v ∈ operands, a.before v = true ∨ a = v
  | .greater, a, operands => ∃ v ∈ operands, v.before a = true
  | .greaterEqual, a, operands => ∃ v ∈ operands, v.before a = true ∨ a = v
  | .contains, _, _ | .isNull, _, _ | .isNotNull, _, _ => False

/-- The code of a department and the code of its parent. -/
def DepartmentSnapshot.ParentCode (snapshot : DepartmentSnapshot) (id parent : DepartmentId) : Prop :=
  ∃ node ∈ snapshot.nodes, node.id = id ∧ node.parentId = some parent

/-- A row with the snapshot of an account, or without one. -/
def DirectoryRow.withSnapshot (row : DirectoryRow) (snapshot : Option DepartmentSnapshot) :
    DirectoryRow :=
  { row with departmentSnapshot := snapshot.map DepartmentSnapshot.json }

/-- What a comparison means for a row. -/
def comparisonMeans (row : DirectoryRow) (snapshot : Option DepartmentSnapshot) (field : Field)
    (op : Operator) (values : List String) : Prop :=
  if field = .department then
    row.departmentStatus = "available" ∧ ∃ tree ∈ snapshot, ∃ id ∈ tree.memberships,
      values = [id.text]
  else if field = .departmentSubtree then
    row.departmentStatus = "available" ∧ ∃ tree ∈ snapshot, ∃ id ∈ tree.memberships,
      ∃ ancestor, Relation.ReflTransGen tree.ParentCode id ancestor ∧ values = [ancestor.text]
  else if op = .isNull then row.scalar field = none
  else if op = .isNotNull then row.scalar field ≠ none
  else ∃ a ∈ row.scalar field, Compares op a (values.map (operand field))

mutual

/-- What a condition means for a row. -/
def Expression.Means (row : DirectoryRow) (snapshot : Option DepartmentSnapshot) : Expression → Prop
  | .compare field op values => comparisonMeans row snapshot field op values
  | .and items => AllMean row snapshot items
  | .or items => SomeMeans row snapshot items

/-- All of these conditions hold. -/
def AllMean (row : DirectoryRow) (snapshot : Option DepartmentSnapshot) : List Expression → Prop
  | [] => True
  | item :: items => item.Means row snapshot ∧ AllMean row snapshot items

/-- Some of these conditions holds. -/
def SomeMeans (row : DirectoryRow) (snapshot : Option DepartmentSnapshot) : List Expression → Prop
  | [] => False
  | item :: items => item.Means row snapshot ∨ SomeMeans row snapshot items

end

mutual

/-- No comparison of a condition asks for a part of a text. -/
def Expression.NoContains : Expression → Prop
  | .compare _ op _ => op ≠ .contains
  | .and items => NoneContains items
  | .or items => NoneContains items

/-- No comparison of these conditions does. -/
def NoneContains : List Expression → Prop
  | [] => True
  | item :: items => item.NoContains ∧ NoneContains items

end

section Departments

variable {snapshot : Option DepartmentSnapshot} {subtree : Bool}

/-- The recursive query ends over every document. -/
theorem ancestors_end (document : Option Value) (subtree : Bool) :
    (ancestors document subtree).isSome = true := by
  let memberships := (jsonElements document "memberships").map jsonText
  let parents := (jsonElements document "nodes").map fun n => jsonMemberText n "parentId"
  refine @recursive_ends _ _ _ _ (memberships ++ parents) memberships ?_ ?_ ?_
  · intro id _ parent hparent
    obtain ⟨n, hn, rfl⟩ := List.mem_map.mp hparent
    exact List.mem_append_right _ (List.mem_map.mpr ⟨n, List.mem_of_mem_filter hn, rfl⟩)
  · exact fun id hid => List.mem_append_left _ hid
  · have hparents : parents.length = (jsonElements document "nodes").length := List.length_map ..
    rw [List.length_append, hparents]
    exact Nat.lt_succ_self _

theorem DepartmentId.text_injective {a b : DepartmentId} (h : a.text = b.text) : a = b := by
  cases a
  cases b
  cases h
  rfl

/-- The documents of the memberships and of the nodes are where the query looks for them. -/
theorem jsonElements_snapshot (tree : DepartmentSnapshot) :
    jsonElements (some tree.json) "memberships" = tree.memberships.map DepartmentId.json ∧
      jsonElements (some tree.json) "nodes" = tree.nodes.map DepartmentNode.json := by
  simp [jsonElements, jsonMember, DepartmentSnapshot.json]

theorem jsonMemberText_node (node : DepartmentNode) :
    jsonMemberText node.json "id" = some node.id.text ∧
      jsonMemberText node.json "parentId" = node.parentId.map DepartmentId.text := by
  constructor
  · simp [jsonMemberText, jsonMember, DepartmentNode.json, jsonText, DepartmentId.json]
  · cases hparent : node.parentId <;>
      simp [jsonMemberText, jsonMember, DepartmentNode.json, jsonText, DepartmentId.json,
        Value.writeNullable, hparent]

/-- A round derives the parents of a department, if subtrees are asked for. -/
theorem mem_parentRows {tree : DepartmentSnapshot} {id : DepartmentId} {row : Option String} :
    row ∈ parentRows (some tree.json) subtree (some id.text) ↔
      subtree = true ∧ ∃ parent, tree.ParentCode id parent ∧ row = some parent.text := by
  unfold parentRows
  rw [(jsonElements_snapshot tree).2]
  simp only [List.mem_map, List.mem_filter]
  constructor
  · rintro ⟨n, ⟨⟨node, hnode, rfl⟩, hholds⟩, rfl⟩
    rw [(jsonMemberText_node node).1, (jsonMemberText_node node).2] at hholds
    simp only [Truth.compare, Truth.holds_and, Truth.holds_some, Bool.and_eq_true,
      decide_eq_true_eq, Option.isSome_map] at hholds
    obtain ⟨⟨hid, hsubtree⟩, hparent⟩ := hholds
    obtain ⟨parent, hparent⟩ := Option.isSome_iff_exists.mp hparent
    refine ⟨hsubtree, parent, ⟨node, hnode, DepartmentId.text_injective hid, hparent⟩, ?_⟩
    rw [(jsonMemberText_node node).2, hparent]
    rfl
  · rintro ⟨hsubtree, parent, ⟨node, hnode, rfl, hparent⟩, rfl⟩
    refine ⟨node.json, ⟨⟨node, hnode, rfl⟩, ?_⟩, ?_⟩
    · rw [(jsonMemberText_node node).1, (jsonMemberText_node node).2, hparent]
      simp [Truth.compare, hsubtree]
    · rw [(jsonMemberText_node node).2, hparent]
      rfl

/-- What the query reaches from a department are its ancestors. -/
theorem reaches_iff {tree : DepartmentSnapshot} {id : DepartmentId} {row : Option String} :
    Relation.ReflTransGen (fun a b => b ∈ parentRows (some tree.json) true a) (some id.text) row ↔
      ∃ ancestor, Relation.ReflTransGen tree.ParentCode id ancestor ∧ row = some ancestor.text := by
  constructor
  · intro h
    induction h with
    | refl => exact ⟨id, .refl, rfl⟩
    | tail _ hstep ih =>
      obtain ⟨ancestor, hreach, rfl⟩ := ih
      obtain ⟨-, parent, hparent, rfl⟩ := mem_parentRows.mp hstep
      exact ⟨parent, .tail hreach hparent, rfl⟩
  · rintro ⟨ancestor, hreach, rfl⟩
    induction hreach with
    | refl => exact .refl
    | tail _ hparent ih => exact .tail ih (mem_parentRows.mpr ⟨rfl, _, hparent, rfl⟩)

/-- Without subtrees the query stays at the memberships. -/
theorem reaches_exact {tree : DepartmentSnapshot} {id : DepartmentId} {row : Option String} :
    Relation.ReflTransGen (fun a b => b ∈ parentRows (some tree.json) false a) (some id.text) row ↔
      row = some id.text := by
  constructor
  · intro h
    induction h with
    | refl => rfl
    | tail _ hstep ih =>
      subst ih
      cases (mem_parentRows.mp hstep).1
  · rintro rfl
    exact .refl

/-- What the test of a department says: whether its code is reached from a membership. -/
theorem ancestor_holds {collation : DefaultCollation} {row : DirectoryRow} {value : String} :
    (RowTest.value collation (row.withSnapshot snapshot) (.ancestor subtree value)).holds = true ↔
      ∃ tree ∈ snapshot, ∃ id ∈ tree.memberships,
        Relation.ReflTransGen (fun a b => b ∈ parentRows (some tree.json) subtree a) (some id.text)
          (some value) := by
  obtain ⟨ids, hids⟩ := Option.isSome_iff_exists.mp
    (ancestors_end (snapshot.map DepartmentSnapshot.json) subtree)
  have hvalue : RowTest.value collation (row.withSnapshot snapshot) (.ancestor subtree value) =
      some (ids.any fun found => (Truth.compare (fun a b => decide (a = b)) found (some value)).holds) := by
    simp only [RowTest.value, DirectoryRow.withSnapshot, hids, Option.map_some]
  have hmem : (ids.any fun found =>
      (Truth.compare (fun a b => decide (a = b)) found (some value)).holds) = true ↔
        some value ∈ ids := by
    rw [List.any_eq_true]
    constructor
    · rintro ⟨found, hfound, hholds⟩
      obtain ⟨a, ha, b, hb, hab⟩ := Truth.holds_compare.mp hholds
      cases hb
      rw [of_decide_eq_true hab] at ha
      rwa [← Option.mem_def.mp ha]
    · intro h
      exact ⟨some value, h, by simp [Truth.compare]⟩
  rw [hvalue, Truth.holds_some, hmem, mem_recursive hids]
  cases snapshot with
  | none => simp [jsonElements]
  | some tree =>
    rw [Option.map_some, (jsonElements_snapshot tree).1]
    simp [DepartmentId.json, jsonText]

end Departments

section Comparisons

variable {format : UuidFormat} {field : Field} {op : Operator} {values : List String}
  {collation : DefaultCollation} {row : DirectoryRow}

/-- A field that can be sorted by has a column. -/
theorem column_eq (h : field.sortable = true) : column field = some field := by
  cases field <;> first | rfl | cases h

/-- A comparison is true of a value that is there and compares so. -/
theorem compare_holds {comparator : Comparator} {v : Scalar} :
    (RowTest.value collation row (.compare field comparator v)).holds = true ↔
      ∃ a ∈ row.scalar field, comparator.compare a v = true := by
  rw [RowTest.value, Truth.holds_compare]
  simp

/-- The comparisons with each operand are joined by `or`, or by `and`. -/
theorem comparePieces_written {relation : Comparator} (hcolumn : field.sortable = true)
    (hrelation : comparator op = some relation) (hne : values ≠ []) :
    ∃ pieces, comparePieces field op values = some pieces ∧ ∀ collation row,
      ∃ t, Written (RowTest.value collation row) (some (if op = .notAmong then .and else .or))
        pieces t ∧ (t.holds = true ↔ if op = .notAmong then
          ∀ v ∈ values, ∃ a ∈ row.scalar field, relation.compare a (operand field v) = true
        else ∃ v ∈ values, ∃ a ∈ row.scalar field, relation.compare a (operand field v) = true) := by
  induction values with
  | nil => exact absurd rfl hne
  | cons value values ih =>
    cases values with
    | nil =>
      refine ⟨[.test (.compare field relation (operand field value))], ?_, fun collation row => ?_⟩
      · simp only [comparePieces, column_eq hcolumn, hrelation]
        rfl
      · refine ⟨_, .last (.test _), ?_⟩
        rw [compare_holds]
        split <;> simp
    | cons next values =>
      obtain ⟨rest, hrest, hwritten⟩ := ih (by simp)
      refine ⟨.test (.compare field relation (operand field value)) ::
        .connective (if op = .notAmong then .and else .or) :: rest, ?_, fun collation row => ?_⟩
      · rw [comparePieces, column_eq hcolumn, hrelation, hrest]
        rfl
      · obtain ⟨t, ht, hholds⟩ := hwritten collation row
        refine ⟨_, .more (.test _) ht, ?_⟩
        by_cases hout : op = .notAmong
        · simp only [hout, if_true, Connective.apply, Truth.holds_and, Bool.and_eq_true,
            compare_holds] at hholds ⊢
          rw [hholds]
          simp
        · simp only [hout, if_false, Connective.apply, Truth.holds_or, Bool.or_eq_true,
            compare_holds] at hholds ⊢
          rw [hholds]
          simp

/-- What the comparisons say together is what the operator means. -/
theorem compares_iff {relation : Comparator} (hrelation : comparator op = some relation)
    (hcount : if op.set then 1 ≤ values.length ∧ values.length ≤ 64 else values.length = 1) :
    (if op = .notAmong then
      ∀ v ∈ values, ∃ a ∈ row.scalar field, relation.compare a (operand field v) = true
    else ∃ v ∈ values, ∃ a ∈ row.scalar field, relation.compare a (operand field v) = true) ↔
      ∃ a ∈ row.scalar field, Compares op a (values.map (operand field)) := by
  have hne : ∃ v, v ∈ values := by
    refine List.exists_mem_of_length_pos ?_
    split at hcount <;> omega
  cases hscalar : row.scalar field with
  | none =>
    obtain ⟨v, hv⟩ := hne
    constructor
    · intro h
      split at h
      · obtain ⟨a, ha, -⟩ := h v hv
        cases ha
      · obtain ⟨v, -, a, ha, -⟩ := h
        cases ha
    · rintro ⟨a, ha, -⟩
      cases ha
  | some a =>
    have hone : op.set = false → ∃ v, values = [v] := by
      intro hset
      rw [hset] at hcount
      exact List.length_eq_one_iff.mp hcount
    cases op with
    | contains => cases hrelation
    | isNull => cases hrelation
    | isNotNull => cases hrelation
    | notEqual =>
      cases hrelation
      obtain ⟨v, rfl⟩ := hone rfl
      simp [Compares, Comparator.compare]
    | notAmong =>
      cases hrelation
      simp only [if_true, Option.mem_some_iff, exists_eq_left', Compares, Comparator.compare,
        decide_eq_true_eq, List.mem_map, not_exists, not_and]
      exact forall_congr' fun v => imp_congr_right fun _ => ne_comm
    | equal =>
      cases hrelation
      simp only [reduceCtorEq, if_false, Option.mem_some_iff, exists_eq_left', Compares,
        Comparator.compare, decide_eq_true_eq, List.mem_map]
      exact exists_congr fun v => and_congr_right fun _ => eq_comm
    | among =>
      cases hrelation
      simp only [reduceCtorEq, if_false, Option.mem_some_iff, exists_eq_left', Compares,
        Comparator.compare, decide_eq_true_eq, List.mem_map]
      exact exists_congr fun v => and_congr_right fun _ => eq_comm
    | less =>
      cases hrelation
      simp [Compares, Comparator.compare]
    | lessEqual =>
      cases hrelation
      simp [Compares, Comparator.compare]
    | greater =>
      cases hrelation
      simp [Compares, Comparator.compare]
    | greaterEqual =>
      cases hrelation
      simp [Compares, Comparator.compare]

/-- A comparison that keeps the rules becomes pieces, and these are true of what it means. -/
theorem testPieces_written (h : ComparisonRules format field op values) :
    ∃ pieces connective, testPieces field op values = some pieces ∧
      ∀ (collation : DefaultCollation) (row : DirectoryRow) (snapshot : Option DepartmentSnapshot),
      ∃ t, Written (RowTest.value collation (row.withSnapshot snapshot)) (some connective) pieces t ∧
        (op ≠ .contains →
          (t.holds = true ↔ comparisonMeans (row.withSnapshot snapshot) snapshot field op values)) := by
  rcases h.column with hsortable | ⟨hdepartment, rfl⟩
  · have hother : ¬ (field = .department ∨ field = .departmentSubtree) := by
      rintro (rfl | rfl) <;> cases hsortable
    have hmeans : ∀ row snapshot, comparisonMeans row snapshot field op values ↔
        if op = .isNull then row.scalar field = none
        else if op = .isNotNull then row.scalar field ≠ none
        else ∃ a ∈ row.scalar field, Compares op a (values.map (operand field)) := by
      intro row snapshot
      rw [comparisonMeans, if_neg (not_or.mp hother).1, if_neg (not_or.mp hother).2]
    by_cases hnull : op.nullTest = true
    · refine ⟨[.test (if op = .isNull then .isNull field else .isNotNull field)], .or, ?_,
        fun collation row snapshot => ⟨_, .last (.test _), fun _ => ?_⟩⟩
      · rw [testPieces, if_neg hother, if_pos hnull, column_eq hsortable]
        rfl
      · rw [hmeans]
        cases op with
        | isNull => simp [RowTest.value]
        | isNotNull => simp [RowTest.value, Option.isSome_iff_ne_none]
        | _ => exact absurd hnull (by decide)
    · by_cases hcontains : op = .contains
      · subst hcontains
        obtain ⟨value, rfl⟩ := List.length_eq_one_iff.mp h.count
        refine ⟨[.test (.contains field value)], .or, ?_,
          fun collation row snapshot => ⟨_, .last (.test _), fun hno => absurd rfl hno⟩⟩
        rw [testPieces, if_neg hother, if_neg hnull, if_pos rfl, column_eq hsortable]
        rfl
      · obtain ⟨relation, hrelation⟩ : ∃ relation, comparator op = some relation := by
          cases op <;> first | exact absurd rfl hnull | exact absurd rfl hcontains | exact ⟨_, rfl⟩
        have hne : values ≠ [] := by
          rintro rfl
          have hcount := h.count
          split at hcount <;> simp at hcount
        obtain ⟨pieces, hpieces, hwritten⟩ := comparePieces_written hsortable hrelation hne
        refine ⟨pieces, if op = .notAmong then .and else .or, ?_, fun collation row snapshot => ?_⟩
        · rw [testPieces, if_neg hother, if_neg hnull, if_neg hcontains, hpieces]
        · obtain ⟨t, ht, hholds⟩ := hwritten collation (row.withSnapshot snapshot)
          refine ⟨t, ht, fun _ => ?_⟩
          have hno : op ≠ .isNull ∧ op ≠ .isNotNull := by
            constructor <;> rintro rfl <;> exact hnull rfl
          rw [hholds, compares_iff hrelation h.count, hmeans, if_neg hno.1, if_neg hno.2]
  · obtain ⟨value, rfl⟩ := List.length_eq_one_iff.mp h.count
    refine ⟨[.test .departmentAvailable, .connective .and,
      .test (.ancestor (decide (field = .departmentSubtree)) value)], .and, ?_,
      fun collation row snapshot => ⟨_, .more (.test _) (.last (.test _)), fun _ => ?_⟩⟩
    · rw [testPieces, if_pos hdepartment]
      rfl
    · rw [Connective.apply, Truth.holds_and, Bool.and_eq_true, ancestor_holds, comparisonMeans]
      rcases hdepartment with rfl | rfl
      · have hfalse : decide (Field.department = .departmentSubtree) = false := by decide
        rw [if_pos rfl, hfalse]
        simp only [reaches_exact, RowTest.value, Truth.holds_some, decide_eq_true_eq,
          Option.some.injEq, List.cons.injEq, and_true]
      · have hother : Field.departmentSubtree ≠ .department := by decide
        have htrue : decide (Field.departmentSubtree = .departmentSubtree) = true := by decide
        rw [if_neg hother, if_pos rfl, htrue]
        simp only [reaches_iff, RowTest.value, Truth.holds_some, decide_eq_true_eq,
          Option.some.injEq, List.cons.injEq, and_true]

end Comparisons

section Filters

variable {format : UuidFormat}

mutual

/-- A condition that keeps the rules becomes pieces, and these are true of what it means. -/
theorem filterPieces_written (e : Expression) (hwell : e.WellFormed format) :
    ∃ pieces, filterPieces e = some pieces ∧
      ∀ (collation : DefaultCollation) (row : DirectoryRow) (snapshot : Option DepartmentSnapshot),
      ∃ t, Written (RowTest.value collation (row.withSnapshot snapshot)) none pieces t ∧
        (e.NoContains → (t.holds = true ↔ e.Means (row.withSnapshot snapshot) snapshot)) := by
  match e with
  | .compare field op values =>
    obtain ⟨pieces, connective, hpieces, hwritten⟩ := testPieces_written hwell
    refine ⟨parenthesised pieces, by rw [filterPieces, hpieces]; rfl, fun collation row snapshot => ?_⟩
    obtain ⟨t, ht, hholds⟩ := hwritten collation row snapshot
    exact ⟨t, .group ht, hholds⟩
  | .and items =>
    obtain ⟨pieces, hpieces, hwritten⟩ := itemPieces_written .and items hwell.2
      (by rintro rfl; exact absurd hwell.1 (by decide))
    refine ⟨parenthesised pieces, by rw [filterPieces, hpieces]; rfl, fun collation row snapshot => ?_⟩
    obtain ⟨t, ht, hholds⟩ := hwritten collation row snapshot
    exact ⟨t, .group ht, hholds⟩
  | .or items =>
    obtain ⟨pieces, hpieces, hwritten⟩ := itemPieces_written .or items hwell.2
      (by rintro rfl; exact absurd hwell.1 (by decide))
    refine ⟨parenthesised pieces, by rw [filterPieces, hpieces]; rfl, fun collation row snapshot => ?_⟩
    obtain ⟨t, ht, hholds⟩ := hwritten collation row snapshot
    exact ⟨t, .group ht, hholds⟩

/-- The items of a list become pieces that its connective joins. -/
theorem itemPieces_written (connective : Connective) (items : List Expression)
    (hwell : WellFormedItems format items) (hne : items ≠ []) :
    ∃ pieces, itemPieces connective items = some pieces ∧
      ∀ (collation : DefaultCollation) (row : DirectoryRow) (snapshot : Option DepartmentSnapshot),
      ∃ t, Written (RowTest.value collation (row.withSnapshot snapshot)) (some connective) pieces t ∧
        (NoneContains items → (t.holds = true ↔ match connective with
          | .and => AllMean (row.withSnapshot snapshot) snapshot items
          | .or => SomeMeans (row.withSnapshot snapshot) snapshot items)) := by
  match items with
  | [] => exact absurd rfl hne
  | [item] =>
    obtain ⟨pieces, hpieces, hwritten⟩ := filterPieces_written item hwell.1
    refine ⟨pieces, hpieces, fun collation row snapshot => ?_⟩
    obtain ⟨t, ht, hholds⟩ := hwritten collation row snapshot
    refine ⟨t, .last ht, fun hplain => ?_⟩
    rw [hholds hplain.1]
    cases connective <;> simp [AllMean, SomeMeans]
  | item :: next :: items =>
    obtain ⟨first, hfirst, hwritten⟩ := filterPieces_written item hwell.1
    obtain ⟨rest, hrest, hwrittenRest⟩ :=
      itemPieces_written connective (next :: items) hwell.2 (by simp)
    refine ⟨first ++ .connective connective :: rest, ?_, fun collation row snapshot => ?_⟩
    · rw [itemPieces, hfirst, hrest]
      rfl
    · obtain ⟨s, hs, hholds⟩ := hwritten collation row snapshot
      obtain ⟨t, ht, hholdsRest⟩ := hwrittenRest collation row snapshot
      refine ⟨connective.apply s t, .more hs ht, fun hplain => ?_⟩
      have hitem := hholds hplain.1
      have hitems := hholdsRest hplain.2
      cases connective with
      | and =>
        rw [Connective.apply, Truth.holds_and, Bool.and_eq_true, hitem, hitems]
        simp only [AllMean]
      | or =>
        rw [Connective.apply, Truth.holds_or, Bool.or_eq_true, hitem, hitems]
        simp only [SomeMeans]

end

/-- The condition in the database is true of just the rows that a filter means. However the pieces
are read, whatever binds tighter, they have one truth value, and it is true where the reference
meaning holds; the recursive query over departments ends on every snapshot. -/
theorem filter_meaning (hformat : format.Standard) {raw : String} {e : Expression}
    (hparse : parseFilter format raw = .ok e) (hplain : e.NoContains) (collation : DefaultCollation)
    (row : DirectoryRow) (snapshot : Option DepartmentSnapshot) :
    ∃ pieces, filterPieces e = some pieces ∧
      (∃ t, Reading (RowTest.value collation (row.withSnapshot snapshot)) pieces t) ∧
      (∀ t, Reading (RowTest.value collation (row.withSnapshot snapshot)) pieces t →
        (t = some true ↔ e.Means (row.withSnapshot snapshot) snapshot)) ∧
      ∀ subtree, ∃ ids, ancestors (row.withSnapshot snapshot).departmentSnapshot subtree = some ids := by
  obtain ⟨pieces, hpieces, hwritten⟩ :=
    filterPieces_written e (parseFilter_wellFormed hformat hparse)
  obtain ⟨t, ht, hholds⟩ := hwritten collation row snapshot
  refine ⟨pieces, hpieces, ⟨t, ht.reading⟩, fun t' hread => ?_, fun subtree => ?_⟩
  · rw [hread.value_eq ht, ← Truth.holds_eq_true, hholds hplain]
  · exact Option.isSome_iff_exists.mp (ancestors_end _ subtree)

/-- An account that is not enabled. -/
def sampleRow : DirectoryRow where
  principalId := "p"
  login := none
  enabled := false
  memberActive := true
  hasLocalPassword := false
  displayName := none
  email := none
  profileStatus := "missing"
  departmentStatus := "missing"
  departmentSnapshot := none

/-- The collation `"C"` as the default one. -/
def plainCollation : DefaultCollation where
  lower := asciiLower
  lower_ascii _ _ := rfl
  lower_congr _ _ h := h
  length_le _ := (List.length_map ..).ge

/-- The sample condition is true of it, however it is read. -/
theorem sampleCondition_meaning : ∃ pieces, filterPieces sampleCondition = some pieces ∧
    ∀ t, Reading (RowTest.value plainCollation (sampleRow.withSnapshot none)) pieces t →
      t = some true := by
  have hparse : parseFilter .hyphenated (sampleCondition.text .double) = .ok sampleCondition := by
    obtain ⟨hwell, hbudgets, hsize⟩ := sampleCondition_fits
    exact parseFilter_text hwell hbudgets hsize
  have hplain : sampleCondition.NoContains := by
    refine ⟨⟨?_, ?_, trivial⟩, ?_, trivial⟩ <;> nofun
  obtain ⟨pieces, hpieces, -, hmeans, -⟩ :=
    filter_meaning hyphenated_standard hparse hplain plainCollation sampleRow none
  refine ⟨pieces, hpieces, fun t ht => (hmeans t ht).mpr (.inr (.inl ?_))⟩
  exact ⟨.truth false, rfl, List.mem_singleton.mpr rfl⟩

/-- Reading filters is safe, and what it accepts can be asked of the database. Reading ends with a
condition or a refusal; a parser stays on characters of the text. A condition that is accepted is
within the budgets, comes from parentheses nested 16 deep at most, and keeps the rules at any depth.
For a query that is accepted no branch that is declared unreachable is reached, and all columns to
order by exist. -/
theorem filter_parser_safe (format : UuidFormat) (hformat : format.Standard) :
    (∀ raw, (∃ e, parseFilter format raw = .ok e) ∨
      parseFilter format raw = .error .invalidQuery) ∧
    (∀ (depth : ℕ) (parser : Parser) (text : List Char), parser.rest = some text →
      parser.nodes ≤ 128 → parser.setItems ≤ 256 →
        Parser.expression format depth parser = .error .invalidQuery ∨
          ∃ e next read left, Parser.expression format depth parser = .ok (e, next) ∧
            next.raw = parser.raw ∧ text = read ++ left ∧ next.rest = some left ∧
            next.offset = parser.offset + Parsing.byteLength read ∧
            next.offset ≤ parser.raw.utf8ByteSize) ∧
    (∀ raw e, parseFilter format raw = .ok e →
      e.nodes ≤ 128 ∧ e.setItems ≤ 256 ∧ IsFilter format 16 raw e ∧ e.WellFormed format) ∧
    ∀ (filter sort fields source : Option String) (limit : ℕ) (query : AccountQuery),
      AccountQuery.parse format filter sort fields source limit = .ok query →
        (∀ e ∈ query.filter, ∃ pieces, filterPieces e = some pieces) ∧
          ∀ s ∈ query.sort, column s.field = some s.field := by
  refine ⟨parseFilter_ends, ?_, ?_, ?_⟩
  · intro depth parser text hrest hnodes hitems
    exact expression_offset depth hrest hnodes hitems
  · intro raw e hparse
    obtain ⟨-, hfilter, hnodes, hitems⟩ := parseFilter_eq_ok_iff.mp hparse
    exact ⟨hnodes, hitems, hfilter, parseFilter_wellFormed hformat hparse⟩
  · intro filter sort fields source limit query hparse
    have haccepted := AccountQuery.parse_accepted hparse
    refine ⟨fun e he => ?_, fun s hs => column_eq (haccepted.sortable s hs)⟩
    obtain ⟨raw, hread⟩ := haccepted.filter e he
    obtain ⟨pieces, hpieces, -⟩ := filterPieces_written e (parseFilter_wellFormed hformat hread)
    exact ⟨pieces, hpieces⟩

/-- With the usual spelling of UUIDs, an operand without its quote is read or refused. -/
theorem hyphenated_parser_safe :
    (∃ e, parseFilter .hyphenated "login=='é" = .ok e) ∨
      parseFilter .hyphenated "login=='é" = .error .invalidQuery :=
  (filter_parser_safe .hyphenated hyphenated_standard).1 _

end Filters

end IdentityAuthority
