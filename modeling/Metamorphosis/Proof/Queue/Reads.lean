import Metamorphosis.Proof.Contiguous
import Metamorphosis.Proof.Queue.Agreement

/-!
`Read` of a `MetamorphosisNode`. Offsets count from one, and the offset zero is not handled.
-/

namespace Metamorphosis
variable {md5 : Bytes → Bytes} {n : Nat} {c d : MetamorphosisCluster md5 n}
variable {allowed : MetamorphosisCluster md5 n → Action (metamorphosisService md5 n) → Prop}

/-- The log entry of an offset, if it is committed on the node. -/
def Node.committedEntry (node : Node (metamorphosisService md5 n)) (offset : Nat) : Option MessageEntry :=
  if offset ≤ node.commitIndex then node.raftLog.get? offset else none

/-- What a reader should get for the entry of an offset. -/
def ReadRsp.expected : Option MessageEntry → ReadRsp
  | none => ⟨.notFound, .notSet⟩
  | some entry => if entry.data ≠ [] then ⟨.fullMessage, .data entry.data⟩ else ⟨.hashOnly, .md5hash entry.md5hash⟩

/-- Only a missing entry is not found. -/
theorem ReadRsp.expected_notFound (entry : Option MessageEntry) :
    (ReadRsp.expected entry).status = .notFound ↔ entry = none := by
  cases entry with
  | none => exact iff_of_true rfl rfl
  | some entry =>
      rw [expected]
      split <;> simp

/-- `Read` looks up the committed part of the log. -/
theorem Node.Contiguous.read {i : Fin n} {node : Node (metamorphosisService md5 n)} (contiguous : node.Contiguous i)
    {offset : UInt64} (positive : offset ≠ 0) :
    node.read offset = .ok (ReadRsp.expected (node.committedEntry offset.toNat)) := by
  have one : 1 ≤ offset.toNat := by
    apply Nat.one_le_iff_ne_zero.mpr
    intro zero
    exact positive (UInt64.toNat_inj.mp zero)
  rw [Node.read, committedEntry]
  by_cases inside : offset.toNat ≤ node.commitIndex
  · obtain ⟨entry, found⟩ := contiguous.present one (inside.trans contiguous.commit)
    rw [if_neg (Nat.not_lt.mpr inside), if_pos inside, found]
    simp only [ReadRsp.expected]
    split <;> rfl
  · rw [if_pos (Nat.lt_of_not_le inside), if_neg inside]
    rfl

/-- What a reader expects: a response, which is not found exactly where nothing is committed, and which has the stored
data or the stored hash otherwise. -/
def Node.ReadRight (node : Node (metamorphosisService md5 n)) (offset : UInt64) : Prop :=
  ∃ response, node.read offset = .ok response ∧
    (response.status = .notFound ↔ node.committedEntry offset.toNat = none) ∧
    ∀ entry, node.committedEntry offset.toNat = some entry →
      (entry.data ≠ [] ∧ response = ⟨.fullMessage, .data entry.data⟩) ∨
      (entry.data = [] ∧ response = ⟨.hashOnly, .md5hash entry.md5hash⟩)

/-- `Read` is right for every offset but 0. -/
theorem Node.Contiguous.readRight {i : Fin n} {node : Node (metamorphosisService md5 n)}
    (contiguous : node.Contiguous i) {offset : UInt64} (positive : offset ≠ 0) : node.ReadRight offset := by
  refine ⟨_, contiguous.read positive, ReadRsp.expected_notFound _, ?_⟩
  intro entry found
  rw [found, ReadRsp.expected]
  split
  · rename_i full
    exact Or.inl ⟨full, rfl⟩
  · rename_i short
    exact Or.inr ⟨not_not.mp short, rfl⟩

/-- The offset zero is committed nowhere, and to read it is an error on every node. -/
theorem Node.Contiguous.read_zero {i : Fin n} {node : Node (metamorphosisService md5 n)}
    (contiguous : node.Contiguous i) :
    node.committedEntry 0 = none ∧ node.read 0 = .error ⟨.internal, "NotFound"⟩ := by
  have absent := contiguous.absent
  constructor
  · rw [committedEntry, if_pos (Nat.zero_le _), absent]
  · have inside : ¬ UInt64.toNat 0 > node.commitIndex := Nat.not_lt.mpr (Nat.zero_le _)
    have missing : node.raftLog.get? (UInt64.toNat 0) = none := absent
    rw [Node.read, if_neg inside, missing]
    rfl

/-- In every state of every run a reader gets what it expects, except for the offset zero. -/
theorem read_responds (run : Cluster.Run allowed c d) (starts : c.Starts) (i : Fin n) (offset : UInt64) :
    (d.nodes i).ReadRight offset ↔ offset ≠ 0 := by
  have contiguous := run.contiguous starts i
  constructor
  · rintro ⟨response, read, _⟩ rfl
    rw [contiguous.read_zero.2] at read
    cases read
  · exact contiguous.readRight

/-- The committed message is read. -/
theorem read_responds_appended :
    (appendedCluster.nodes 0).ReadRight 1 ∧ (appendedCluster.nodes 0).committedEntry 1 ≠ none :=
  ⟨(read_responds appendedCluster_run (Cluster.starts_initial _) 0 1).mpr (by decide), by decide +kernel⟩

/-- The offset 0 is answered with an internal error. -/
theorem read_zero_fails : ∃ c, Cluster.Run Cluster.Any (Cluster.initial (metamorphosisService id 3)) c ∧
    (c.nodes 0).committedEntry 0 = none ∧ (c.nodes 0).read 0 = .error ⟨.internal, "NotFound"⟩ := by
  have contiguous := appendedCluster_run.contiguous (Cluster.starts_initial _) 0
  exact ⟨appendedCluster, appendedCluster_run.weaken fun _ _ _ => trivial, contiguous.read_zero⟩

end Metamorphosis
