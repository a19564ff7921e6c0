import RpiFanServe.Foundation.StepMachine

/-! # First-in first-out channels

The meaning of exact delivery in order: an unbounded queue between a sender and a
receiver.  What has been received is at every moment a prefix of what was sent,
and all of it once nothing is in transit.
-/

universe u

/-- A channel with the record of both its ends. -/
structure Channel (α : Type u) where
  sent : List α
  transit : List α
  delivered : List α

namespace Channel

variable {α : Type u}

inductive Action (α : Type u) where
  | send (a : α)
  | deliver

def step (c : Channel α) : Action α → Option (Channel α)
  | .send a => some { c with sent := c.sent ++ [a], transit := c.transit ++ [a] }
  | .deliver =>
      match c.transit with
      | [] => none
      | a :: rest => some { c with transit := rest, delivered := c.delivered ++ [a] }

def machine (α : Type u) : StepMachine (Channel α) (Action α) where
  init c := c = ⟨[], [], []⟩
  step := step

/-- Nothing is lost, duplicated or reordered. -/
theorem delivered_append_transit {c : Channel α} (reachable : (machine α).Reachable c) :
    c.delivered ++ c.transit = c.sent := by
  refine reachable.invariant (fun c => c.delivered ++ c.transit = c.sent) ?_ ?_
  · intro c empty
    subst empty
    rfl
  · intro c action c' whole stepped
    cases action with
    | send a =>
        cases stepped
        rw [← whole, List.append_assoc]
    | deliver =>
        obtain ⟨sent, transit, delivered⟩ := c
        cases transit with
        | nil => cases stepped
        | cons a rest =>
            cases stepped
            rw [List.append_assoc]
            exact whole

theorem delivered_prefix {c : Channel α} (reachable : (machine α).Reachable c) :
    c.delivered <+: c.sent :=
  ⟨c.transit, delivered_append_transit reachable⟩

theorem delivered_all {c : Channel α} (reachable : (machine α).Reachable c)
    (idle : c.transit = []) : c.delivered = c.sent := by
  rw [← delivered_append_transit reachable, idle, List.append_nil]

end Channel
