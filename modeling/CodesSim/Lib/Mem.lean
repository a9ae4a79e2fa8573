import Mathlib.Data.List.Basic

/-!
# Memory areas

The memory behind a pointer, as a function from offsets to bytes, with `memcpy` in both
directions.  Reading back what was written gives it back (`read_write`), and a write does not
disturb a read that ends before it (`read_write_before`).
-/

namespace CodesSim

/-- The memory behind a pointer. -/
abbrev Mem := ℕ → UInt8

namespace Mem

/-- The `n` bytes at offset `off`. -/
def read (m : Mem) (off n : ℕ) : List UInt8 := (List.range n).map fun i => m (off + i)

/-- `memcpy` of `bs` to offset `off`. -/
def write (m : Mem) (off : ℕ) (bs : List UInt8) : Mem :=
  fun i => if off ≤ i ∧ i < off + bs.length then bs.getD (i - off) 0 else m i

@[simp] theorem length_read (m : Mem) (off n : ℕ) : (m.read off n).length = n := by simp [read]

theorem read_write (m : Mem) (off : ℕ) (bs : List UInt8) :
    (m.write off bs).read off bs.length = bs := by
  apply List.ext_getElem
  · simp
  · intro i h1 h2
    simp [read, write, h2]

theorem read_write_before (m : Mem) (off : ℕ) (bs : List UInt8) {a n : ℕ} (h : a + n ≤ off) :
    (m.write off bs).read a n = m.read a n := by
  apply List.map_congr_left
  intro i hi
  have : ¬ (off ≤ a + i ∧ a + i < off + bs.length) := by
    have := List.mem_range.1 hi
    omega
  simp only [write, if_neg this]

end Mem

end CodesSim
