import Mathlib.Data.Nat.Init
import Mathlib.Logic.Function.Iterate

/-!
# Bubble flow control has no circular wait

Channels `(n, c)` at nodes `n` of classes `c`: from `(n, c)` a packet goes to the node `next n c`.
The classes are ordered by a rank; a packet that leaves the class `c` at `next n c` goes on in a
class of higher rank.  `held n c` is the number of packets that hold a slot of the channel `(n, c)`,
which has `K` slots, and a packet is stuck in one of two ways: it wants to go on in its class and
the next channel is full, or it wants to change to a channel of another class that is not empty.

If on the ring of every channel there is always a channel that is not full, nothing is stuck
(`held_eq_zero`): a stuck packet of the highest rank would wait for a full channel of its own
class, whose packets wait for the next one, and so on around the ring.  There is such a channel if
a packet that enters a ring leaves a slot free and a packet that goes on in it gives one back
(`free_step`).
-/

namespace CodesSim.Bubble

variable {N C : Type*} {next : N → C → N} {rank : C → ℕ} {held : N → C → ℕ} {K R : ℕ}

theorem full_ring {c : C} (hnext : ∀ n, 0 < held n c → held (next n c) c = K) (hK : 0 < K) {n : N}
    (hn : 0 < held n c) (i : ℕ) : held ((fun m => next m c)^[i] (next n c)) c = K := by
  induction i with
  | zero => exact hnext n hn
  | succ i ih =>
    rw [Function.iterate_succ_apply']
    exact hnext _ (by rw [ih]; exact hK)

/-- **No circular wait.**  If every channel that holds a packet holds one that waits for a full
channel of the same class, or for a non-empty channel of a class of higher rank, and every ring has
a channel that is not full, then no channel holds a packet. -/
theorem held_eq_zero (next : N → C → N) (rank : C → ℕ) (held : N → C → ℕ) (hK : 0 < K)
    (hrank : ∀ n c, 0 < held n c → rank c < R)
    (hstuck : ∀ n c, 0 < held n c →
      held (next n c) c = K ∨ ∃ c', rank c < rank c' ∧ 0 < held (next n c) c')
    (hring : ∀ n c, ∃ i, held ((fun m => next m c)^[i] n) c < K) (n : N) (c : C) :
    held n c = 0 := by
  -- by induction on the number of classes above
  have key : ∀ r c, R ≤ rank c + r → ∀ n, held n c = 0 := by
    intro r
    induction r with
    | zero =>
      intro c hc n
      by_contra h0
      have := hrank n c (Nat.pos_of_ne_zero h0)
      omega
    | succ r ih =>
      intro c hc n
      by_contra h0
      have hfull : ∀ n, 0 < held n c → held (next n c) c = K := by
        intro m hm
        rcases hstuck m c hm with h | ⟨c', hlt, h'⟩
        · exact h
        · have := ih c' (by omega) (next m c)
          omega
      obtain ⟨i, hi⟩ := hring (next n c) c
      have := full_ring hfull hK (Nat.pos_of_ne_zero h0) i
      omega
  exact key (R + 1) c (by omega) n

/-- **A ring keeps a channel that is not full.**  A step in which at most the channel `m` gains a
packet leaves such a channel if there is one on the ring of `m`. -/
theorem free_step {next : N → N} (held held' : N → ℕ) (hstep : (∀ n, held' n ≤ held n) ∨
      ∃ m, (∀ n, n ≠ m → held' n ≤ held n) ∧ ∃ j, held' (next^[j] m) < K)
    {n : N} (h : ∃ i, held (next^[i] n) < K) : ∃ i, held' (next^[i] n) < K := by
  obtain ⟨i, hi⟩ := h
  rcases hstep with hall | ⟨m, hother, j, hj⟩
  · exact ⟨i, Nat.lt_of_le_of_lt (hall _) hi⟩
  · by_cases hx : next^[i] n = m
    · refine ⟨j + i, ?_⟩
      rw [Function.iterate_add_apply, hx]
      exact hj
    · exact ⟨i, Nat.lt_of_le_of_lt (hother _ hx) hi⟩

end CodesSim.Bubble
