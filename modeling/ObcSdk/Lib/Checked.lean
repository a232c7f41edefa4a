import ObcSdk.Lib.LittleEndian
import ObcSdk.Lib.Store
/-!
# Bounded reads and checked arithmetic

A computation over a buffer of known length that stops the moment it
would read past the buffer or an operation on machine words would wrap.
Where it does not stop, it is the machine's own computation; that it
never stops is then a theorem about the bounds the code checks.
-/

namespace ObcSdk

/-- Why a checked computation stops. -/
inductive Trap where
  | outOfBounds
  | wrapped
deriving DecidableEq

/-- A computation that may stop. -/
abbrev Checked (α : Type) := Except Trap α

namespace Checked

/-- A result that has to fit a word of `w` bits. -/
def fits (w n : ℕ) : Checked ℕ := if n < 2 ^ w then .ok n else .error .wrapped

/-- An unsigned difference. -/
def sub (a b : ℕ) : Checked ℕ := if b ≤ a then .ok (a - b) else .error .wrapped

/-- The little-endian field of `k` bytes at `off`, in a buffer of `len`
bytes. -/
def field (m : Store UInt8) (len off k : ℕ) : Checked ℕ :=
  if off + k ≤ len then .ok (leNat (Store.read m off k)) else .error .outOfBounds

variable {α β : Type} {w n a b len off k : ℕ} {m : Store UInt8}

@[simp] theorem ok_bind {x : α} {f : α → Checked β} : (Except.ok x >>= f) = f x := rfl

theorem fits_of_lt (h : n < 2 ^ w) : fits w n = .ok n := if_pos h

theorem sub_of_le (h : b ≤ a) : sub a b = .ok (a - b) := if_pos h

theorem field_of_le (h : off + k ≤ len) : field m len off k = .ok (leNat (Store.read m off k)) :=
  if_pos h

end Checked

end ObcSdk
