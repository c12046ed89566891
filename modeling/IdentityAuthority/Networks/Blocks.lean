import Mathlib.Tactic

/-!
# Address blocks

Addresses of two families and the blocks of them that share their leading bits. A block is an
interval of addresses that its length aligns, so membership compares leading bits and the inclusion
of two blocks compares the ends of intervals.
-/

namespace Networks

/-- The addresses that share their first `prefixLen` bits with one. -/
structure Block (width : ℕ) where
  address : BitVec width
  prefixLen : ℕ
  prefixLen_le : prefixLen ≤ width
deriving DecidableEq

namespace Block

variable {width : ℕ}

/-- How many addresses a block has. -/
def size (block : Block width) : ℕ := 2 ^ (width - block.prefixLen)

/-- The first address of a block, as a number. -/
def first (block : Block width) : ℕ := block.address.toNat / block.size * block.size

/-- The last address of a block, as a number. -/
def last (block : Block width) : ℕ := block.first + (block.size - 1)

/-- The block with the bits behind its prefix cleared. -/
def trunc (block : Block width) : Block width :=
  { block with address := BitVec.ofNat width block.first }

/-- An address is one of a block. -/
def contains (block : Block width) (address : BitVec width) : Bool :=
  decide (block.first ≤ address.toNat ∧ address.toNat ≤ block.last)

/-- A block is a part of another one. -/
def containsBlock (block other : Block width) : Bool :=
  decide (block.first ≤ other.first ∧ other.last ≤ block.last)

/-- One of two blocks ends before the other begins. -/
def separate (block other : Block width) : Bool :=
  decide (block.last < other.first ∨ other.last < block.first)

variable {block other : Block width} {address : BitVec width}

theorem containsBlock_iff : block.containsBlock other = true ↔
    block.first ≤ other.first ∧ other.last ≤ block.last := by
  simp [containsBlock]

/-- A part of a block has no addresses that the block does not have. -/
theorem contains_of_containsBlock (hpart : block.containsBlock other = true)
    (h : other.contains address = true) : block.contains address = true := by
  rw [containsBlock_iff] at hpart
  simp only [contains, decide_eq_true_eq] at h ⊢
  omega

/-- Separate blocks share no address. -/
theorem not_contains_of_separate (hseparate : block.separate other = true)
    (h : block.contains address = true) : other.contains address = false := by
  simp only [separate, contains, decide_eq_true_eq, decide_eq_false_iff_not] at *
  omega

end Block

/-- An address of either family. -/
inductive IpAddr
  | v4 (bits : BitVec 32)
  | v6 (bits : BitVec 128)
deriving DecidableEq

/-- A block of either family. -/
inductive IpNet
  | v4 (block : Block 32)
  | v6 (block : Block 128)
deriving DecidableEq

namespace IpNet

/-- The block with the bits behind its prefix cleared. -/
def trunc : IpNet → IpNet
  | v4 block => v4 block.trunc
  | v6 block => v6 block.trunc

/-- An address is one of a block, which is of its family then. -/
def contains : IpNet → IpAddr → Bool
  | v4 block, .v4 address => block.contains address
  | v6 block, .v6 address => block.contains address
  | _, _ => false

/-- A block is a part of another one, which is of its family then. -/
def containsNet : IpNet → IpNet → Bool
  | v4 block, v4 other => block.containsBlock other
  | v6 block, v6 other => block.containsBlock other
  | _, _ => false

/-- Two blocks are of different families, or one ends before the other begins. -/
def separate : IpNet → IpNet → Bool
  | v4 block, v4 other => block.separate other
  | v6 block, v6 other => block.separate other
  | _, _ => true

variable {net other : IpNet} {ip : IpAddr}

/-- A part of a block has no addresses that the block does not have. -/
theorem contains_of_containsNet (hpart : net.containsNet other = true)
    (h : other.contains ip = true) : net.contains ip = true := by
  cases other with
  | v4 part =>
    cases net with
    | v4 block =>
      cases ip with
      | v4 address => exact Block.contains_of_containsBlock hpart h
      | v6 => cases h
    | v6 => cases hpart
  | v6 part =>
    cases net with
    | v4 => cases hpart
    | v6 block =>
      cases ip with
      | v4 => cases h
      | v6 address => exact Block.contains_of_containsBlock hpart h

/-- Separate blocks share no address. -/
theorem not_contains_of_separate (hseparate : net.separate other = true)
    (h : net.contains ip = true) : other.contains ip = false := by
  cases ip with
  | v4 address =>
    cases net with
    | v4 block =>
      cases other with
      | v4 block' => exact Block.not_contains_of_separate hseparate h
      | v6 => rfl
    | v6 => cases h
  | v6 address =>
    cases net with
    | v4 => cases h
    | v6 block =>
      cases other with
      | v4 => rfl
      | v6 block' => exact Block.not_contains_of_separate hseparate h

end IpNet

/-- The number that groups of digits spell in a base. -/
def ofGroups (base : ℕ) (groups : List ℕ) : ℕ := groups.foldl (fun n group => n * base + group) 0

/-- `a.b.c.d`. -/
def ipv4 (a b c d : ℕ) : BitVec 32 := BitVec.ofNat 32 (ofGroups 256 [a, b, c, d])

/-- The address whose groups of sixteen bits are some groups, and zeros behind them. -/
def ipv6 (groups : List ℕ) : BitVec 128 :=
  BitVec.ofNat 128 (ofGroups 65536 (groups ++ List.replicate (8 - groups.length) 0))

/-- `a.b.c.d/prefixLen`, with a prefix inside the width. -/
def net4 (a b c d prefixLen : ℕ) : IpNet :=
  .v4 ⟨ipv4 a b c d, min 32 prefixLen, Nat.min_le_left 32 prefixLen⟩

/-- `groups::/prefixLen`, with a prefix inside the width. -/
def net6 (groups : List ℕ) (prefixLen : ℕ) : IpNet :=
  .v6 ⟨ipv6 groups, min 128 prefixLen, Nat.min_le_left 128 prefixLen⟩

end Networks
