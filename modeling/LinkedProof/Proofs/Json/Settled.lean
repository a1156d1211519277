import LinkedProof.Proofs.Json.Depth
import LinkedProof.Proofs.Json.FromBytes
import LinkedProof.Text.Blank

/-! A value that was read is written and read once more as it is: its members in their order, its
integers apart from its floating-point numbers, and those that are not numbers too. -/
namespace LinkedProof

namespace Json

variable {room : Nat} {v : Json} {ms : Members}

theorem Settled.fits (settled : Settled room v) : Fits room v := by
  induction settled with
  | null => exact .null
  | bool b => exact .bool b
  | int short => exact .int short
  | float _ => exact .float _
  | text t => exact .text t
  | array _ each => exact .array each
  | object _ _ each => exact .object each

theorem Settled.set {key : Text} (settled : Settled (room + 1) (.object ms))
    (value : Settled room v) : Settled (room + 1) (.object (ms.set key v)) := by
  cases settled with
  | object distinct each =>
    refine .object distinct.set fun m member => ?_
    rcases Members.mem_set member with rfl | before
    · exact value
    · exact each m before

/-- A value that was read in some room is as good as read in any room for its depth. -/
theorem Settled.rebudget {room' : Nat} (settled : Settled room v) (enough : v.depth ≤ room') :
    Settled room' v := by
  induction settled generalizing room' with
  | null => exact .null
  | bool b => exact .bool b
  | int short => exact .int short
  | float single => exact .float single
  | text t => exact .text t
  | array _ each =>
    cases room' with
    | zero => exact absurd enough (Nat.not_succ_le_zero _)
    | succ room' =>
      exact .array fun item member => each item member (depth_array_le.mp enough item member)
  | object distinct _ each =>
    cases room' with
    | zero => exact absurd enough (Nat.not_succ_le_zero _)
    | succ room' =>
      exact .object distinct fun m member => each m member (depth_object_le.mp enough m member)

end Json

end LinkedProof
