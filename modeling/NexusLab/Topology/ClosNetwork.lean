import NexusLab.Topology.Outline
import Mathlib.Data.Fintype.BigOperators

/-! # The Clos network

A folded Clos of two tiers, by coordinates: leaves of NICs of GPUs, and spines that every leaf is
linked to.  A frame gives every node of a graph its coordinates and every link the place it has in
the network.  Two graphs that have a frame over one network are isomorphic. -/

namespace NexusLab.Topology

open Foundation

structure ClosShape where
  leaves : Nat
  nicsPerLeaf : Nat
  gpusPerNic : Nat
  spines : Nat

inductive ClosNode (c : ClosShape) where
  | gpu (leaf : Fin c.leaves) (nic : Fin c.nicsPerLeaf) (index : Fin c.gpusPerNic)
  | nic (leaf : Fin c.leaves) (index : Fin c.nicsPerLeaf)
  | leaf (index : Fin c.leaves)
  | spine (index : Fin c.spines)
deriving DecidableEq

inductive ClosLink (c : ClosShape) where
  | attachment (leaf : Fin c.leaves) (nic : Fin c.nicsPerLeaf) (gpu : Fin c.gpusPerNic)
  | uplink (leaf : Fin c.leaves) (nic : Fin c.nicsPerLeaf)
  | trunk (leaf : Fin c.leaves) (spine : Fin c.spines)
deriving DecidableEq

section Network

variable {c : ClosShape} {x y : ClosNode c} {e e' : ClosLink c}

def ClosNode.kind : ClosNode c → NodeKind
  | .gpu _ _ _ => .gpu
  | .nic _ _ => .nic
  | .leaf _ => .switch
  | .spine _ => .switch

/-- The end of a link that is nearer to the GPUs. -/
def ClosLink.lower : ClosLink c → ClosNode c
  | .attachment l n k => .gpu l n k
  | .uplink l n => .nic l n
  | .trunk l _ => .leaf l

def ClosLink.upper : ClosLink c → ClosNode c
  | .attachment l n _ => .nic l n
  | .uplink l _ => .leaf l
  | .trunk _ s => .spine s

/-- The end of a link on one side. -/
def ClosLink.endAt (e : ClosLink c) : Bool → ClosNode c
  | true => e.upper
  | false => e.lower

def ClosLink.Between (e : ClosLink c) (x y : ClosNode c) : Prop :=
  e.lower = x ∧ e.upper = y ∨ e.lower = y ∧ e.upper = x

theorem ClosLink.Between.symm (between : e.Between x y) : e.Between y x := Or.symm between

/-- How far up a node is. -/
def ClosNode.tier : ClosNode c → Nat
  | .gpu _ _ _ => 0
  | .nic _ _ => 1
  | .leaf _ => 2
  | .spine _ => 3

theorem ClosLink.tier_upper (e : ClosLink c) : e.upper.tier = e.lower.tier + 1 := by
  cases e <;> rfl

theorem ClosLink.ends_injective (lower : e.lower = e'.lower) (upper : e.upper = e'.upper) :
    e = e' := by
  cases e <;> cases e' <;> simp_all [ClosLink.lower, ClosLink.upper]

/-- No two links have the same ends, whichever way round. -/
theorem ClosLink.Between.unique (first : e.Between x y) (second : e'.Between x y) : e = e' := by
  have tier := e.tier_upper
  have tier' := e'.tier_upper
  rcases first with ⟨lower, upper⟩ | ⟨lower, upper⟩ <;>
    rcases second with ⟨lower', upper'⟩ | ⟨lower', upper'⟩
  · exact ends_injective (lower.trans lower'.symm) (upper.trans upper'.symm)
  · rw [lower, upper] at tier
    rw [lower', upper'] at tier'
    omega
  · rw [lower, upper] at tier
    rw [lower', upper'] at tier'
    omega
  · exact ends_injective (lower.trans lower'.symm) (upper.trans upper'.symm)

theorem ClosLink.Between.different (between : e.Between x y) : x ≠ y := by
  rintro rfl
  have tier := e.tier_upper
  rcases between with ⟨lower, upper⟩ | ⟨lower, upper⟩ <;>
  · rw [lower, upper] at tier
    omega

/-! How many nodes and links there are. -/

def ClosNode.split : ClosNode c ≃
    (Fin c.leaves × Fin c.nicsPerLeaf × Fin c.gpusPerNic ⊕ Fin c.leaves × Fin c.nicsPerLeaf) ⊕
      (Fin c.leaves ⊕ Fin c.spines) where
  toFun
    | .gpu l n k => .inl (.inl (l, n, k))
    | .nic l n => .inl (.inr (l, n))
    | .leaf l => .inr (.inl l)
    | .spine s => .inr (.inr s)
  invFun
    | .inl (.inl (l, n, k)) => .gpu l n k
    | .inl (.inr (l, n)) => .nic l n
    | .inr (.inl l) => .leaf l
    | .inr (.inr s) => .spine s
  left_inv x := by cases x <;> rfl
  right_inv x := by rcases x with (⟨_, _, _⟩ | ⟨_, _⟩) | (_ | _) <;> rfl

def ClosLink.split : ClosLink c ≃
    (Fin c.leaves × Fin c.nicsPerLeaf × Fin c.gpusPerNic ⊕ Fin c.leaves × Fin c.nicsPerLeaf) ⊕
      Fin c.leaves × Fin c.spines where
  toFun
    | .attachment l n k => .inl (.inl (l, n, k))
    | .uplink l n => .inl (.inr (l, n))
    | .trunk l s => .inr (l, s)
  invFun
    | .inl (.inl (l, n, k)) => .attachment l n k
    | .inl (.inr (l, n)) => .uplink l n
    | .inr (l, s) => .trunk l s
  left_inv e := by cases e <;> rfl
  right_inv e := by rcases e with (⟨_, _, _⟩ | ⟨_, _⟩) | ⟨_, _⟩ <;> rfl

instance : Fintype (ClosNode c) := Fintype.ofEquiv _ ClosNode.split.symm
instance : Fintype (ClosLink c) := Fintype.ofEquiv _ ClosLink.split.symm

theorem card_closNode : Fintype.card (ClosNode c) =
    c.leaves * c.nicsPerLeaf * c.gpusPerNic + c.leaves * c.nicsPerLeaf + (c.leaves + c.spines) := by
  simp [Fintype.card_congr ClosNode.split, Nat.mul_assoc]

theorem card_closLink : Fintype.card (ClosLink c) =
    c.leaves * c.nicsPerLeaf * c.gpusPerNic + c.leaves * c.nicsPerLeaf + c.leaves * c.spines := by
  simp [Fintype.card_congr ClosLink.split, Nat.mul_assoc]

end Network

/-! ## Frames -/

/-- The network laid over the outline of a graph: which node of the graph stands at which
coordinates, and which link of the graph is which one of the network. -/
structure ClosFrame (c : ClosShape) (o : Outline) where
  node : ClosNode c → NodeId
  link : ClosLink c → Nat
  node_injective : Function.Injective node
  node_onto : ∀ n, o.Contains n → ∃ x, node x = n
  link_injective : Function.Injective link
  link_onto : ∀ i, 2 * i < o.owners.length → ∃ e, link e = i
  joins : ∀ e, o.Joins (link e) (node e.lower) (node e.upper)
  racks : o.racks = c.leaves
  gpu : ∀ l n k, ∃ i m, node (.gpu l n k) = ⟨.gpu, i⟩ ∧ node (.nic l n) = ⟨.nic, m⟩ ∧
    o.gpus[i]? = some (⟨l⟩, ⟨m⟩)
  nic : ∀ l n, ∃ m, node (.nic l n) = ⟨.nic, m⟩ ∧ o.nics[m]? = some ⟨l⟩
  leaf : ∀ l, ∃ i, node (.leaf l) = ⟨.switch, i⟩ ∧ o.switches[i]? = some (.leaf, some ⟨l⟩)
  spine : ∀ s, ∃ i, node (.spine s) = ⟨.switch, i⟩ ∧ o.switches[i]? = some (.spine, none)

namespace ClosFrame

variable {c : ClosShape} {o : Outline} (frame : ClosFrame c o) {x y : ClosNode c} {i : Nat}

theorem kind (x : ClosNode c) : (frame.node x).kind = x.kind := by
  cases x with
  | gpu l n k =>
    obtain ⟨i, m, here, _⟩ := frame.gpu l n k
    rw [here]
    rfl
  | nic l n =>
    obtain ⟨m, here, _⟩ := frame.nic l n
    rw [here]
    rfl
  | leaf l =>
    obtain ⟨i, here, _⟩ := frame.leaf l
    rw [here]
    rfl
  | spine s =>
    obtain ⟨i, here, _⟩ := frame.spine s
    rw [here]
    rfl

theorem contains (x : ClosNode c) : o.Contains (frame.node x) := by
  cases x with
  | gpu l n k =>
    obtain ⟨i, m, here, _, found⟩ := frame.gpu l n k
    rw [here]
    exact (List.getElem?_eq_some_iff.mp found).1
  | nic l n =>
    obtain ⟨m, here, found⟩ := frame.nic l n
    rw [here]
    exact (List.getElem?_eq_some_iff.mp found).1
  | leaf l =>
    obtain ⟨i, here, found⟩ := frame.leaf l
    rw [here]
    exact (List.getElem?_eq_some_iff.mp found).1
  | spine s =>
    obtain ⟨i, here, found⟩ := frame.spine s
    rw [here]
    exact (List.getElem?_eq_some_iff.mp found).1

/-- The links of the graph join what the links of the network join. -/
theorem joins_iff : o.Joins i (frame.node x) (frame.node y) ↔
    ∃ e, frame.link e = i ∧ e.Between x y := by
  constructor
  · intro joins
    have small : 2 * i < o.owners.length := by
      rcases joins with ⟨found, _⟩ | ⟨found, _⟩ <;>
        exact (List.getElem?_eq_some_iff.mp found).1
    obtain ⟨e, rfl⟩ := frame.link_onto i small
    refine ⟨e, rfl, ?_⟩
    rcases (frame.joins e).unique joins with ⟨lower, upper⟩ | ⟨lower, upper⟩
    · exact .inl ⟨frame.node_injective lower, frame.node_injective upper⟩
    · exact .inr ⟨frame.node_injective lower, frame.node_injective upper⟩
  · rintro ⟨e, rfl, ⟨rfl, rfl⟩ | ⟨rfl, rfl⟩⟩
    · exact frame.joins e
    · exact (frame.joins e).symm

/-- Both ends of a link have coordinates. -/
theorem ends_of_joins {u v : NodeId} (joins : o.Joins i u v) :
    ∃ e, frame.link e = i ∧ ∃ x y, frame.node x = u ∧ frame.node y = v ∧ e.Between x y := by
  have small : 2 * i < o.owners.length := by
    rcases joins with ⟨found, _⟩ | ⟨found, _⟩ <;>
      exact (List.getElem?_eq_some_iff.mp found).1
  obtain ⟨e, rfl⟩ := frame.link_onto i small
  refine ⟨e, rfl, ?_⟩
  rcases (frame.joins e).unique joins with ⟨lower, upper⟩ | ⟨lower, upper⟩
  · exact ⟨e.lower, e.upper, lower, upper, .inl ⟨rfl, rfl⟩⟩
  · exact ⟨e.upper, e.lower, upper, lower, .inr ⟨rfl, rfl⟩⟩

end ClosFrame

end NexusLab.Topology
