import IdentityAuthority.Core.Facts

/-!
# Departments

One complete tree of departments with the memberships of a subject, as an upstream asserts it. A
tree that exists is well formed: it has one root, every chain of parents ends there, and the
memberships name nodes of it.
-/

namespace IdentityAuthority

/-- An exact controlled code, not a display name. -/
structure DepartmentId where
  text : String
  valid : boundedText text 256 = true
deriving DecidableEq

/-- `DepartmentId::new`. -/
def DepartmentId.new (text : String) : Except FederationError DepartmentId :=
  if h : boundedText text 256 = true then .ok ⟨text, h⟩ else .error .claims

/-- A node of a department assertion. -/
structure DepartmentNode where
  id : DepartmentId
  displayName : String
  parentId : Option DepartmentId
  displayName_valid : boundedText displayName 256 = true
deriving DecidableEq

/-- `DepartmentNode::new`. -/
def DepartmentNode.new (id : DepartmentId) (displayName : String) (parentId : Option DepartmentId) :
    Except FederationError DepartmentNode :=
  if h : boundedText displayName 256 = true then .ok ⟨id, displayName, parentId, h⟩
  else .error .claims

/-- Following parents from a node reaches a root over at most so many nodes. -/
def parentsEnd (nodes : List DepartmentNode) : ℕ → Option DepartmentId → Bool
  | _, none => true
  | 0, some _ => false
  | depth + 1, some id =>
    match nodes.find? fun node => node.id = id with
    | some node => parentsEnd nodes depth node.parentId
    | none => false

/-- The nodes form one tree of bounded size and depth, and the memberships name nodes of it. -/
def departmentTree (sourceRevision : String) (nodes : List DepartmentNode)
    (memberships : List DepartmentId) : Bool :=
  decide (0 < nodes.length ∧ nodes.length ≤ 256 ∧ memberships.length ≤ 16) &&
    boundedText sourceRevision 256 &&
    decide (nodes.map DepartmentNode.id).Nodup &&
    decide ((nodes.filter fun node => node.parentId.isNone).length = 1) &&
    nodes.all (fun node => parentsEnd nodes 16 (some node.id)) &&
    memberships.all (fun id => nodes.any fun node => node.id = id) && decide memberships.Nodup

/-- One department tree with the memberships of the subject. -/
structure DepartmentSnapshot where
  sourceRevision : String
  nodes : List DepartmentNode
  memberships : List DepartmentId
  tree : departmentTree sourceRevision nodes memberships = true
deriving DecidableEq

/-- `DepartmentSnapshot::new`. -/
def DepartmentSnapshot.new (sourceRevision : String) (nodes : List DepartmentNode)
    (memberships : List DepartmentId) : Except FederationError DepartmentSnapshot :=
  if h : departmentTree sourceRevision nodes memberships = true then
    .ok ⟨sourceRevision, nodes, memberships, h⟩
  else .error .claims

/-- Exact presence of the department claim; invalid input withholds this fact alone. -/
inductive UpstreamDepartmentSnapshot
  | notConfigured
  | missing
  | invalid
  | present (snapshot : DepartmentSnapshot)
deriving DecidableEq

/-- The claims of ID tokens and of user info, which are never a department identity. -/
def reservedDepartmentClaims : List String :=
  ["iss", "sub", "sid", "aud", "exp", "nbf", "iat", "jti", "auth_time", "nonce", "acr", "amr", "azp",
    "at_hash", "c_hash", "s_hash", "name", "given_name", "family_name", "middle_name", "nickname",
    "preferred_username", "profile", "picture", "website", "email", "email_verified", "gender",
    "birthdate", "zoneinfo", "locale", "phone_number", "phone_number_verified", "address",
    "updated_at"]

/-- A claim that may carry a department. -/
def departmentClaimValid (claim : String) : Bool :=
  decide (0 < claim.utf8ByteSize ∧ claim.utf8ByteSize ≤ 64) &&
    claim.toList.all (fun c => c.isAlphanum || c = '_') && !reservedDepartmentClaims.contains claim

/-- The claim that carries the department, with the lifetime of the fact. -/
structure DepartmentSnapshotClaim where
  claim : String
  maxAgeSeconds : ℤ
  claim_valid : departmentClaimValid claim = true
  maxAge_valid : validMaxAge maxAgeSeconds = true
deriving DecidableEq

/-- `DepartmentSnapshotClaim::new`. -/
def DepartmentSnapshotClaim.new (claim : String) (maxAgeSeconds : ℤ) :
    Except FederationError DepartmentSnapshotClaim :=
  if h : departmentClaimValid claim = true ∧ validMaxAge maxAgeSeconds = true then
    .ok ⟨claim, maxAgeSeconds, h.1, h.2⟩
  else .error .configuration

section Building

variable {id : DepartmentId} {node : DepartmentNode} {snapshot : DepartmentSnapshot}

/-- A code that exists is one that building it again accepts. -/
theorem DepartmentId.new_text (id : DepartmentId) : DepartmentId.new id.text = .ok id := by
  simp only [DepartmentId.new, id.valid, dite_true]

/-- A node that exists is one that building it again accepts. -/
theorem DepartmentNode.new_eq (node : DepartmentNode) :
    DepartmentNode.new node.id node.displayName node.parentId = .ok node := by
  simp only [DepartmentNode.new, node.displayName_valid, dite_true]

/-- A tree that exists is one that building it again accepts. -/
theorem DepartmentSnapshot.new_eq (snapshot : DepartmentSnapshot) :
    DepartmentSnapshot.new snapshot.sourceRevision snapshot.nodes snapshot.memberships =
      .ok snapshot := by
  simp only [DepartmentSnapshot.new, snapshot.tree, dite_true]

/-- A mapping that exists is one that building it again accepts. -/
theorem DepartmentSnapshotClaim.new_eq (department : DepartmentSnapshotClaim) :
    DepartmentSnapshotClaim.new department.claim department.maxAgeSeconds = .ok department := by
  simp only [DepartmentSnapshotClaim.new, department.claim_valid, department.maxAge_valid, and_self,
    dite_true]

end Building

end IdentityAuthority
