import Cuda2Rocm.Foundation.Words

/-!
# Reserved arenas

A reservation owns an arena, which only knows its size.  The arenas of memory
spaces and of the host resource grow in the same way; neither shrinks.
-/

namespace Cuda2Rocm
namespace Memory

open Foundation

/-- `grow_by` of `simple_arena` and of `reserved_arena_bytes`: the size saturates. -/
def growBy (bytes n : Nat) : Nat :=
  if n > sizeMax - bytes then sizeMax else bytes + n

/-- Growth leaves a size alone when there is nothing to add or no room for it. -/
theorem growBy_eq_self_iff {bytes n : Nat} (hbytes : bytes ≤ sizeMax) :
    growBy bytes n = bytes <-> n = 0 ∨ bytes = sizeMax := by
  unfold growBy
  split
  · omega
  · omega

end Memory
end Cuda2Rocm
