import CodesSim.Lib.Machine
import Mathlib.Algebra.BigOperators.Ring.Finset

/-!
# Networks of logical processes

A discrete-event simulation consists of logical processes (LPs) that exchange events.  `Net` holds
the states of the LPs and the events in flight; a step delivers one of these events, or an event
from outside, to its LP, whose handler returns a new state and the events it sends.  Times are not
part of the picture: whatever holds after every sequence of steps holds for every order in which
the times would deliver the events.

* `LpSystem.step_handles` : what a step does;
* `LpSystem.All.step` : properties of single LPs and of single events are preserved by a step if
  the handler preserves them;
* `LpSystem.nodeSum`, `LpSystem.flightSum` : quantities spread over the LPs and over the events in
  flight, and what a step does to them (`LpSystem.Handled.total`);
* `LpSystem.Projection` : a system that sees a part of another one and lends it its invariants
  (`LpSystem.Projection.run_invariant`).
-/

namespace CodesSim

open Function

/-- The states of the LPs and the events in flight, with their destinations.  An LP is named by an
element of `I`, and its state has a type of its own. -/
structure Net {I : Type*} (S : I → Type*) (E : Type*) where
  nodes : ∀ i, S i
  inFlight : List (I × E)

/-- A step of a network: `ω` is what the handler finds around it (the time, random numbers). -/
inductive NetLabel (I E Ω : Type*) where
  /-- An event from outside. -/
  | inject (dest : I) (e : E) (ω : Ω)
  /-- The event in flight at position `i`. -/
  | deliver (i : ℕ) (ω : Ω)

/-- What the handler of a step finds around it. -/
def NetLabel.env {I E Ω : Type*} : NetLabel I E Ω → Ω
  | .inject _ _ ω => ω
  | .deliver _ ω => ω

/-- The event that a step handles, with its destination. -/
def Net.event {I : Type*} {S : I → Type*} {E Ω : Type*} (net : Net S E) :
    NetLabel I E Ω → Option (I × E)
  | .inject d e _ => some (d, e)
  | .deliver i _ => net.inFlight[i]?

/-- A system of LPs, given by their handlers. -/
structure LpSystem {I : Type*} (S : I → Type*) (E Ω : Type*) where
  /-- The new state of LP `i` and the events it sends, or `none` if the handler fails. -/
  handle : Ω → ∀ i, S i → E → Option (S i × List (I × E))

namespace LpSystem

variable {I : Type*} {S : I → Type*} {E Ω : Type*}

/-! ### Quantities carried by events -/
variable {l : NetLabel I E Ω}


section Flight

variable {M : Type*} [AddCommMonoid M]

/-- The part of a quantity that a list of events carries. -/
def flightSum (ψ : I → E → M) (l : List (I × E)) : M := (l.map fun x => ψ x.1 x.2).sum

@[simp] theorem flightSum_nil (ψ : I → E → M) : flightSum ψ [] = 0 := rfl

@[simp] theorem flightSum_cons (ψ : I → E → M) (d : I) (e : E) (l : List (I × E)) :
    flightSum ψ ((d, e) :: l) = ψ d e + flightSum ψ l := by simp [flightSum]

@[simp] theorem flightSum_append (ψ : I → E → M) (l l' : List (I × E)) :
    flightSum ψ (l ++ l') = flightSum ψ l + flightSum ψ l' := by simp [flightSum]

theorem flightSum_congr {ψ φ : I → E → M} {l : List (I × E)} (h : ∀ x ∈ l, ψ x.1 x.2 = φ x.1 x.2) :
    flightSum ψ l = flightSum φ l := by
  rw [flightSum, flightSum, List.map_congr_left h]

theorem flightSum_perm (ψ : I → E → M) {l l' : List (I × E)} (h : l.Perm l') :
    flightSum ψ l = flightSum ψ l' := (h.map _).sum_eq

theorem le_flightSum (ψ : I → E → ℕ) {l : List (I × E)} {d : I} {e : E} (h : (d, e) ∈ l) :
    ψ d e ≤ flightSum ψ l := by
  induction l with
  | nil => cases h
  | cons x l ih =>
    obtain ⟨d', e'⟩ := x
    rw [flightSum_cons]
    cases h with
    | head => exact Nat.le_add_right _ _
    | tail _ h => exact Nat.le_add_left_of_le (ih h)

/-- What a label brings in from outside. -/
def weight (ψ : I → E → M) : NetLabel I E Ω → M
  | .inject d e _ => ψ d e
  | .deliver _ _ => 0

theorem flightSum_step (ψ : I → E → M) {net : Net S E} {ω : Ω} {d : I} {e : E} {rest : List (I × E)}
    (h : (l = .inject d e ω ∧ rest = net.inFlight) ∨
      (∃ i, l = .deliver i ω) ∧ net.inFlight.Perm ((d, e) :: rest)) :
    flightSum ψ net.inFlight + weight ψ l = ψ d e + flightSum ψ rest := by
  obtain ⟨rfl, rfl⟩ | ⟨⟨i, rfl⟩, hperm⟩ := h
  · exact add_comm _ _
  · rw [flightSum_perm ψ hperm, flightSum_cons]
    exact add_zero _

end Flight

/-! ### Steps -/

variable [DecidableEq I] (Y : LpSystem S E Ω)

/-- Hand an event to its LP; `rest` are the other events in flight. -/
def process (net : Net S E) (ω : Ω) (d : I) (e : E) (rest : List (I × E)) : Option (Net S E) :=
  (Y.handle ω d (net.nodes d) e).map fun x => ⟨update net.nodes d x.1, rest ++ x.2⟩

/-- The network as a machine. -/
def machine : Machine (Net S E) (NetLabel I E Ω) where
  step net
    | .inject d e ω => Y.process net ω d e net.inFlight
    | .deliver i ω => net.inFlight[i]?.bind fun x =>
        Y.process net ω x.1 x.2 (net.inFlight.eraseIdx i)

/-- LP `d` has handled the event `e`: its state is now `s'` and it has sent `outs`. -/
structure Handled (net net' : Net S E) (ω : Ω) (d : I) (e : E) (s' : S d)
    (outs rest : List (I × E)) : Prop where
  handle : Y.handle ω d (net.nodes d) e = some (s', outs)
  nodes : net'.nodes = update net.nodes d s'
  inFlight : net'.inFlight = rest ++ outs

variable {Y}

theorem process_eq_some {net net' : Net S E} {ω : Ω} {d : I} {e : E} {rest : List (I × E)}
    (h : Y.process net ω d e rest = some net') :
    ∃ s' outs, Y.Handled net net' ω d e s' outs rest := by
  obtain ⟨x, hx, rfl⟩ := Option.map_eq_some_iff.1 h
  exact ⟨x.1, x.2, hx, rfl, rfl⟩

/-- **What a step does.**  An LP handles an event from outside or one of those in flight. -/
theorem step_handles {net net' : Net S E} (h : Y.machine.step net l = some net') :
    ∃ ω d e s' outs rest, Y.Handled net net' ω d e s' outs rest ∧ net.event l = some (d, e) ∧
      ((l = .inject d e ω ∧ rest = net.inFlight) ∨
        (∃ i, l = .deliver i ω) ∧ net.inFlight.Perm ((d, e) :: rest)) := by
  cases l with
  | inject d e ω =>
    obtain ⟨s', outs, hh⟩ := process_eq_some h
    exact ⟨ω, d, e, s', outs, _, hh, rfl, .inl ⟨rfl, rfl⟩⟩
  | deliver i ω =>
    obtain ⟨⟨d, e⟩, hi, h⟩ := Option.bind_eq_some_iff.1 h
    obtain ⟨s', outs, hh⟩ := process_eq_some h
    obtain ⟨hlt, hget⟩ := List.getElem?_eq_some_iff.1 hi
    refine ⟨ω, d, e, s', outs, _, hh, hi, .inr ⟨⟨i, rfl⟩, ?_⟩⟩
    rw [← hget]
    exact (List.getElem_cons_eraseIdx_perm hlt).symm

theorem step_cases {net net' : Net S E} (h : Y.machine.step net l = some net') :
    ∃ ω d e s' outs rest, Y.Handled net net' ω d e s' outs rest ∧
      ((l = .inject d e ω ∧ rest = net.inFlight) ∨
        (∃ i, l = .deliver i ω) ∧ net.inFlight.Perm ((d, e) :: rest)) := by
  obtain ⟨ω, d, e, s', outs, rest, hh, -, hcases⟩ := step_handles h
  exact ⟨ω, d, e, s', outs, rest, hh, hcases⟩

section Handled

variable {net net' : Net S E} {ω : Ω} {d : I} {e : E} {s' : S d} {outs rest : List (I × E)}

theorem Handled.node_self (h : Y.Handled net net' ω d e s' outs rest) : net'.nodes d = s' := by
  rw [h.nodes, update_self]

theorem Handled.node_of_ne (h : Y.Handled net net' ω d e s' outs rest) {i : I} (hi : i ≠ d) :
    net'.nodes i = net.nodes i := by
  rw [h.nodes, update_of_ne hi]

/-- Every LP satisfies `P` and every event in flight `Q`. -/
def All (P : ∀ i, S i → Prop) (Q : I → E → Prop) (net : Net S E) : Prop :=
  (∀ i, P i (net.nodes i)) ∧ ∀ x ∈ net.inFlight, Q x.1 x.2

theorem All.step {P : ∀ i, S i → Prop} {Q : I → E → Prop} (h : All P Q net)
    (hh : Y.Handled net net' ω d e s' outs rest) (hrest : ∀ x ∈ rest, x ∈ net.inFlight)
    (hs' : P d s') (houts : ∀ x ∈ outs, Q x.1 x.2) : All P Q net' := by
  refine ⟨fun i => ?_, fun x hx => ?_⟩
  · by_cases hi : i = d
    · subst hi
      rw [hh.node_self]
      exact hs'
    · rw [hh.node_of_ne hi]
      exact h.1 i
  · rw [hh.inFlight] at hx
    rcases List.mem_append.1 hx with hx | hx
    · exact h.2 x (hrest x hx)
    · exact houts x hx

/-! ### Quantities spread over a network -/

variable {M : Type*} [AddCommMonoid M]

/-- The part of a quantity that the LPs of `A` hold. -/
def nodeSum (A : Finset I) (φ : ∀ i, S i → M) (net : Net S E) : M := ∑ i ∈ A, φ i (net.nodes i)

variable {A : Finset I}

theorem le_nodeSum (φ : ∀ i, S i → ℕ) (hd : d ∈ A) (net : Net S E) :
    φ d (net.nodes d) ≤ LpSystem.nodeSum A φ net :=
  Nat.le.intro (Finset.add_sum_erase A (fun i => φ i (net.nodes i)) hd)

theorem sum_update {α : I → Type*} (φ : ∀ i, α i → M) (g : ∀ i, α i)
    (hd : d ∈ A) (v : α d) : ∑ i ∈ A, φ i (update g d v i) + φ d (g d) =
      ∑ i ∈ A, φ i (g i) + φ d v := by
  have hrest : ∑ i ∈ A.erase d, φ i (update g d v i) = ∑ i ∈ A.erase d, φ i (g i) := by
    refine Finset.sum_congr rfl fun i hi => ?_
    rw [update_of_ne (Finset.ne_of_mem_erase hi)]
  rw [← Finset.add_sum_erase _ _ hd, ← Finset.add_sum_erase _ (fun i => φ i (g i)) hd, hrest,
    update_self, add_right_comm, add_comm (φ d v), ← add_right_comm]

/-- What a step does to the part of the LPs. -/
theorem Handled.nodeSum (φ : ∀ i, S i → M)
    (h : Y.Handled net net' ω d e s' outs rest) (hd : d ∈ A) :
    LpSystem.nodeSum A φ net' + φ d (net.nodes d) = LpSystem.nodeSum A φ net + φ d s' := by
  rw [LpSystem.nodeSum, LpSystem.nodeSum, h.nodes]
  exact sum_update φ net.nodes hd s'

/-- **What a step does to a quantity.**  The LP and the event it handles are replaced by the new
state of the LP and the events it sends. -/
theorem Handled.total (φ : ∀ i, S i → M) (ψ : I → E → M)
    (h : Y.Handled net net' ω d e s' outs rest) (hd : d ∈ A) :
    LpSystem.nodeSum A φ net' + flightSum ψ net'.inFlight + (φ d (net.nodes d) + ψ d e) =
      LpSystem.nodeSum A φ net + (ψ d e + flightSum ψ rest) + (φ d s' + flightSum ψ outs) := by
  rw [h.inFlight, flightSum_append, add_add_add_comm, h.nodeSum φ hd]
  simp only [add_assoc, add_comm, add_left_comm]

/-! ### Flags that count events in flight -/

/-- **A flag counts events in flight.**  If a handler changes the flag of its LP by as much as it
sends for it, less the event it handles, and sends nothing for other LPs, the flags go on counting
the events in flight. -/
theorem Handled.flags {φ : ∀ i, S i → ℕ} {ψ : I → I → E → ℕ}
    (h : Y.Handled net net' ω d e s' outs rest)
    (hrest : ∀ i, flightSum (ψ i) net.inFlight = ψ i d e + flightSum (ψ i) rest)
    (hself : φ d s' + ψ d d e = φ d (net.nodes d) + flightSum (ψ d) outs)
    (hother : ∀ i, i ≠ d → ψ i d e = 0 ∧ flightSum (ψ i) outs = 0)
    (hflags : ∀ i, φ i (net.nodes i) = flightSum (ψ i) net.inFlight) (i : I) :
    φ i (net'.nodes i) = flightSum (ψ i) net'.inFlight := by
  have hi := hflags i
  rw [hrest] at hi
  rw [h.inFlight, flightSum_append]
  by_cases hd : i = d
  · subst hd
    rw [h.node_self]
    omega
  · obtain ⟨h1, h2⟩ := hother i hd
    rw [h.node_of_ne hd]
    omega

end Handled

/-! ### Projections -/

section Projection

variable {S' : I → Type*} {E' Ω' : Type*}

/-- A system `Y'` that sees a part of the states and some of the events of `Y`. -/
structure Projection (Y : LpSystem S E Ω) (Y' : LpSystem S' E' Ω') where
  state : ∀ i, S i → S' i
  event : E → Option E'
  env : Ω → Ω'
  /-- What the other events may do to an LP of `Y'`. -/
  silent : ∀ i, S' i → S' i → Prop
  /-- The LPs of `Y'` do the same on the events they see. -/
  handle_some : ∀ {ω i s e s' outs e'}, Y.handle ω i s e = some (s', outs) → event e = some e' →
    Y'.handle (env ω) i (state i s) e' = some (state i s', outs.filterMap fun x =>
      (event x.2).map (Prod.mk x.1))
  /-- The other events make silent changes. -/
  handle_none : ∀ {ω i s e s' outs}, Y.handle ω i s e = some (s', outs) → event e = none →
    silent i (state i s) (state i s') ∧ outs.filterMap (fun x => (event x.2).map (Prod.mk x.1)) = []

namespace Projection

variable {Y : LpSystem S E Ω} {Y' : LpSystem S' E' Ω'} (π : Projection Y Y')

/-- The events in flight that `Y'` sees. -/
def flight (l : List (I × E)) : List (I × E') := l.filterMap fun x =>
    (π.event x.2).map (Prod.mk x.1)

def net (n : Net S E) : Net S' E' := ⟨fun i => π.state i (n.nodes i), π.flight n.inFlight⟩

/-- The step of `Y'` that goes with a step of `Y`, if there is one. -/
def label (n : Net S E) : NetLabel I E Ω → Option (NetLabel I E' Ω')
  | .inject d e ω => (π.event e).map fun e' => .inject d e' (π.env ω)
  | .deliver i ω => n.inFlight[i]?.bind fun x => (π.event x.2).map fun _ =>
      .deliver (π.flight (n.inFlight.take i)).length (π.env ω)

variable {π}

variable {n n' : Net S E}

theorem net_update {d : I} {s' : S d} {inFlight : List (I × E)}
    (hnodes : n'.nodes = update n.nodes d s') (hflight : n'.inFlight = inFlight) :
    π.net n' = ⟨update (π.net n).nodes d (π.state d s'), π.flight inFlight⟩ := by
  subst hflight
  refine congrArg (Net.mk · _) (funext fun i => ?_)
  by_cases hi : i = d
  · subst hi
    simp [hnodes]
  · simp [hnodes, update_of_ne hi, net]

omit [DecidableEq I] in
theorem flight_append (l l' : List (I × E)) : π.flight (l ++ l') = π.flight l ++ π.flight l' :=
  List.filterMap_append

omit [DecidableEq I] in
/-- The events before and behind one. -/
theorem split_at {l : List (I × E)} {i : ℕ} {x : I × E} (hi : l[i]? = some x) :
    l = l.take i ++ ([x] ++ l.drop (i + 1)) ∧ l.eraseIdx i = l.take i ++ l.drop (i + 1) := by
  obtain ⟨hlt, rfl⟩ := List.getElem?_eq_some_iff.1 hi
  refine ⟨?_, List.eraseIdx_eq_take_drop_succ ..⟩
  rw [List.singleton_append, List.getElem_cons_drop, List.take_append_drop]

omit [DecidableEq I] in
/-- The position of an event among those that are seen. -/
theorem flight_getElem? {l : List (I × E)} {i : ℕ} {d : I} {e : E} {e' : E'}
    (hi : l[i]? = some (d, e)) (he : π.event e = some e') :
    (π.flight l)[(π.flight (l.take i)).length]? = some (d, e') ∧
      (π.flight l).eraseIdx (π.flight (l.take i)).length = π.flight (l.eraseIdx i) := by
  obtain ⟨hsplit, herase⟩ := split_at hi
  have hone : π.flight [(d, e)] = [(d, e')] := by simp [flight, he]
  have hflight : π.flight l = π.flight (l.take i) ++ ([(d, e')] ++ π.flight (l.drop (i + 1))) := by
    rw [← hone, ← flight_append, ← flight_append, ← hsplit]
  constructor
  · rw [hflight, List.getElem?_append_right le_rfl, Nat.sub_self]
    rfl
  · rw [hflight, List.eraseIdx_append_of_length_le le_rfl, Nat.sub_self, herase, flight_append]
    rfl

omit [DecidableEq I] in
theorem flight_eraseIdx {l : List (I × E)} {i : ℕ} {x : I × E} (hi : l[i]? = some x)
    (he : π.event x.2 = none) : π.flight (l.eraseIdx i) = π.flight l := by
  obtain ⟨hsplit, herase⟩ := split_at hi
  have hone : π.flight [x] = [] := by simp [flight, he]
  calc π.flight (l.eraseIdx i) = π.flight (l.take i) ++ ([] ++ π.flight (l.drop (i + 1))) := by
        rw [herase, flight_append, List.nil_append]
    _ = π.flight l := by rw [← hone, ← flight_append, ← flight_append, ← hsplit]

theorem step_some {l' : NetLabel I E' Ω'}
    (h : Y.machine.step n l = some n') (hl : π.label n l = some l') :
    Y'.machine.step (π.net n) l' = some (π.net n') := by
  cases l with
  | inject d e ω =>
    obtain ⟨s', outs, hh⟩ := process_eq_some h
    obtain ⟨e', he, rfl⟩ := Option.map_eq_some_iff.1 hl
    have hhandle := π.handle_some hh.handle he
    rw [net_update hh.nodes hh.inFlight]
    change Y'.process _ _ _ _ _ = _
    rw [process, net, hhandle, Option.map_some, flight_append]
    rfl
  | deliver i ω =>
    obtain ⟨⟨d, e⟩, hi, h⟩ := Option.bind_eq_some_iff.1 h
    obtain ⟨s', outs, hh⟩ := process_eq_some h
    rw [label, hi] at hl
    obtain ⟨e', he, rfl⟩ := Option.map_eq_some_iff.1 hl
    obtain ⟨hget, herase⟩ := flight_getElem? hi he
    have hhandle := π.handle_some hh.handle he
    rw [net_update hh.nodes hh.inFlight]
    change Option.bind _ _ = _
    rw [net, hget, Option.bind_some, process, hhandle, Option.map_some, herase, flight_append]
    rfl

theorem step_none (h : Y.machine.step n l = some n')
    (hl : π.label n l = none) : ∃ d t, π.silent d ((π.net n).nodes d) t ∧
      π.net n' = ⟨update (π.net n).nodes d t, (π.net n).inFlight⟩ := by
  have hupdate : ∀ {d : I} {e : E} {s' : S d} {outs rest : List (I × E)} {ω : Ω},
      Y.Handled n n' ω d e s' outs rest → π.event e = none → π.flight rest = π.flight n.inFlight →
      ∃ d t, π.silent d ((π.net n).nodes d) t ∧
        π.net n' = ⟨update (π.net n).nodes d t, (π.net n).inFlight⟩ := by
    intro d e s' outs rest ω hh he hrest
    obtain ⟨hs', houts⟩ := π.handle_none hh.handle he
    refine ⟨d, _, hs', ?_⟩
    rw [net_update hh.nodes hh.inFlight, flight_append, show π.flight outs = [] from houts,
      List.append_nil, hrest]
    rfl
  cases l with
  | inject d e ω =>
    obtain ⟨s', outs, hh⟩ := process_eq_some h
    exact hupdate hh (Option.map_eq_none_iff.1 hl) rfl
  | deliver i ω =>
    obtain ⟨⟨d, e⟩, hi, h⟩ := Option.bind_eq_some_iff.1 h
    obtain ⟨s', outs, hh⟩ := process_eq_some h
    rw [label, hi] at hl
    have he : π.event e = none := Option.map_eq_none_iff.1 hl
    exact hupdate hh he (flight_eraseIdx hi he)

/-- **Invariants are lifted.**  What the steps of `Y'` and silent changes preserve holds of what
`Y'` sees in every state that `Y` reaches. -/
theorem run_invariant {J : Net S' E' → Prop} {P : NetLabel I E Ω → Prop}
    {Q : NetLabel I E' Ω' → Prop} (hPQ : ∀ n l l', P l → π.label n l = some l' → Q l')
    (hstep : ∀ m l m', J m → Q l → Y'.machine.step m l = some m' → J m')
    (hsilent : ∀ m d t, J m → π.silent d (m.nodes d) t →
      J ⟨update m.nodes d t, m.inFlight⟩)
    {ls : List (NetLabel I E Ω)} (hn : J (π.net n)) (hls : ∀ l ∈ ls, P l)
    (h : Y.machine.run n ls = some n') : J (π.net n') := by
  refine Machine.run_invariant (I := fun n => J (π.net n)) (fun n l n' hn hl h => ?_) hn hls h
  cases hlabel : π.label n l with
  | none =>
    obtain ⟨d, t, hd, hnet⟩ := step_none h hlabel
    rw [hnet]
    exact hsilent _ d t hn hd
  | some l' => exact hstep _ l' _ hn (hPQ n l l' hl hlabel) (step_some h hlabel)

end Projection

end Projection

end LpSystem

end CodesSim
