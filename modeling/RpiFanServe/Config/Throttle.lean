import Mathlib.Data.Finset.Max
import Mathlib.Data.List.Chain
import RpiFanServe.Config.SaveDelay

/-! # The distance between saves

`saveCurrentConfig` keeps five seconds between saves as long as no timer is pending
when it saves.  It never cancels one, and the callback does not check the delay: a
save with another timer pending is followed by that timer's save too soon.
-/

namespace RpiFanServe.Config.Saver

open CString PermanentConfig StepMachine

/-- Successive saves are five seconds apart. -/
def Throttled (s : Saver) : Prop :=
  s.saves.IsChain fun later earlier => earlier + MAX_DELAY_BETWEEN_SAVES_MS ≤ later

/-- The timers that are pending besides the one that fires. -/
def others (s : Saver) : Action → List Nat
  | .fire i => s.timers.eraseIdx i
  | _ => s.timers

/-- The step writes the file. -/
def Writes (s : Saver) : Action → Bool
  | .set _ => MAX_DELAY_BETWEEN_SAVES_MS ≤ s.now - s.lastConfigSave
  | .fire _ => true
  | .advance _ => false

/-- The file is only written when no other timer is pending. -/
def Alone (s : Saver) (action : Action) : Bool := !s.Writes action || (s.others action).isEmpty

/-- The machine of the saver, observed from its construction on. -/
def observed (rearm : Rearm) : StepMachine Saver Action where
  init s := Started s ∧ s.saves = []
  step := step rearm

def lone (rearm : Rearm) : StepMachine Saver Action :=
  (observed rearm).restrict fun s action => s.Alone action = true

/-- A pending timer fires five seconds after the last save or later, and soon. -/
structure Pending (s : Saver) (deadline : Nat) : Prop where
  late : s.lastConfigSave + MAX_DELAY_BETWEEN_SAVES_MS ≤ deadline
  /-- The timeout is what is left of the delay, or one second. -/
  soon : deadline ≤ max (s.lastConfigSave + MAX_DELAY_BETWEEN_SAVES_MS) (s.now + 1000)
  unmissed : s.now ≤ deadline

structure Spaced (s : Saver) : Prop where
  throttled : s.Throttled
  /-- The last save is the one that `lastConfigSave` stands for. -/
  last : ∀ save ∈ s.saves.head?, save = s.lastConfigSave
  past : s.lastConfigSave ≤ s.now
  timers : ∀ deadline ∈ s.timers, s.Pending deadline

/-- What a step does to the clock, the timers and the saves. -/
inductive Effect (s s' : Saver) (action : Action) : Prop
  | saved (writes : s.Writes action = true) (now : s'.now = s.now)
      (last : s'.lastConfigSave = s.now) (timers : s'.timers = s.others action)
      (saves : s'.saves = s.now :: s.saves)
      (due : s.now ∈ s.timers ∨ MAX_DELAY_BETWEEN_SAVES_MS ≤ s.now - s.lastConfigSave)
  | armed (quiet : s.Writes action = false) (now : s'.now = s.now)
      (last : s'.lastConfigSave = s.lastConfigSave) (saves : s'.saves = s.saves)
      (early : s.now - s.lastConfigSave < MAX_DELAY_BETWEEN_SAVES_MS)
      (timers : ∀ deadline ∈ s'.timers, deadline ∈ s.timers ∨
        deadline = s.now + max (MAX_DELAY_BETWEEN_SAVES_MS - (s.now - s.lastConfigSave)) 1000)
  | waited (quiet : s.Writes action = false) (now : s.now ≤ s'.now)
      (last : s'.lastConfigSave = s.lastConfigSave) (saves : s'.saves = s.saves)
      (timers : s'.timers = s.timers) (unmissed : ∀ deadline ∈ s.timers, s'.now ≤ deadline)

section Steps

variable {rearm : Rearm} {s s' : Saver} {action : Action}

theorem effect (stepped : step rearm s action = some s') : Effect s s' action := by
  cases action with
  | set seconds =>
      cases stepped
      unfold setCacheLifeExpectancy saveCurrentConfig
      rw [if_pos rfl]
      split
      · rename_i early
        obtain ⟨timers, same, -, only, -⟩ := setSaveConfigTimer_eq rearm (s.assign seconds)
          (MAX_DELAY_BETWEEN_SAVES_MS - ((s.assign seconds).now - (s.assign seconds).lastConfigSave))
        rw [same]
        exact .armed (decide_eq_false (Nat.not_le.mpr early)) rfl rfl rfl early only
      · rename_i late
        exact .saved (decide_eq_true (Nat.not_lt.mp late)) rfl rfl rfl rfl (.inr (Nat.not_lt.mp late))
  | fire i =>
      simp only [step] at stepped
      split at stepped
      · rename_i due
        cases stepped
        exact .saved rfl rfl rfl rfl rfl (.inl (List.mem_of_getElem? due))
      · cases stepped
  | advance ms =>
      simp only [step] at stepped
      split at stepped
      · rename_i unmissed
        cases stepped
        exact .waited rfl (Nat.le_add_right _ _) rfl rfl rfl unmissed
      · cases stepped

theorem others_subset {deadline : Nat} (member : deadline ∈ s.others action) :
    deadline ∈ s.timers := by
  cases action with
  | set seconds => exact member
  | fire i => exact List.mem_of_mem_eraseIdx member
  | advance ms => exact member

theorem Spaced.saved_late (spaced : s.Spaced)
    (due : s.now ∈ s.timers ∨ MAX_DELAY_BETWEEN_SAVES_MS ≤ s.now - s.lastConfigSave) :
    s.lastConfigSave + MAX_DELAY_BETWEEN_SAVES_MS ≤ s.now := by
  cases due with
  | inl fired => exact (spaced.timers s.now fired).late
  | inr old =>
      have := spaced.past
      omega

theorem Spaced.throttled_save (spaced : s.Spaced)
    (late : s.lastConfigSave + MAX_DELAY_BETWEEN_SAVES_MS ≤ s.now) :
    (s.now :: s.saves).IsChain fun later earlier => earlier + MAX_DELAY_BETWEEN_SAVES_MS ≤ later := by
  apply List.IsChain.cons spaced.throttled
  intro save head
  rw [spaced.last save head]
  exact late

theorem Spaced.step (spaced : s.Spaced) (alone : s.Alone action = true)
    (stepped : Saver.step rearm s action = some s') : s'.Spaced := by
  cases effect stepped with
  | saved writes now last timers saves due =>
      have none_left : s'.timers = [] := by
        simpa [timers, Alone, writes] using alone
      constructor
      · unfold Throttled
        rw [saves]
        exact spaced.throttled_save (spaced.saved_late due)
      · rw [saves, last]
        intro save head
        cases head
        rfl
      · omega
      · rw [none_left]
        intro deadline member
        cases member
  | armed quiet now last saves early timers =>
      have past := spaced.past
      constructor
      · unfold Throttled
        rw [saves]
        exact spaced.throttled
      · rw [saves, last]
        exact spaced.last
      · rw [last, now]
        exact past
      · intro deadline member
        cases timers deadline member with
        | inl before =>
            obtain ⟨late, soon, unmissed⟩ := spaced.timers deadline before
            exact ⟨by rw [last]; exact late, by rw [last, now]; exact soon, by rw [now]; exact unmissed⟩
        | inr new =>
            -- The time that is left of the delay ends with it, and a second is never less.
            constructor <;> omega
  | waited quiet now last saves timers unmissed =>
      constructor
      · unfold Throttled
        rw [saves]
        exact spaced.throttled
      · rw [saves, last]
        exact spaced.last
      · rw [last]
        exact spaced.past.trans now
      · intro deadline member
        rw [timers] at member
        obtain ⟨late, soon, -⟩ := spaced.timers deadline member
        refine ⟨by rw [last]; exact late, ?_, unmissed deadline member⟩
        rw [last]
        omega

/-- A saver that has just saved, with a timer due within the next second, is followed
    by a save too soon. -/
theorem saves_again (saved : ∃ saves, s.saves = s.now :: saves) (pending : s.timers ≠ [])
    (due : ∀ deadline ∈ s.timers, s.now ≤ deadline ∧ deadline ≤ s.now + 1000) :
    ∃ actions t, (observed rearm).run s actions = some t ∧ ¬ t.Throttled := by
  obtain ⟨first, member, least⟩ : ∃ first ∈ s.timers, ∀ deadline ∈ s.timers, first ≤ deadline := by
    obtain ⟨first, member, least⟩ :=
      s.timers.toFinset.exists_min_image id (by simpa [Finset.nonempty_iff_ne_empty] using pending)
    exact ⟨first, List.mem_toFinset.mp member,
      fun deadline inside => least deadline (List.mem_toFinset.mpr inside)⟩
  obtain ⟨i, at_first⟩ := List.mem_iff_getElem?.mp member
  obtain ⟨saves, saved⟩ := saved
  obtain ⟨after, soon⟩ := due first member
  have reached : s.now + (first - s.now) = first := by omega
  have advance : (observed rearm).step s (.advance (first - s.now)) = some { s with now := first } := by
    show Saver.step rearm s (.advance (first - s.now)) = _
    simp only [Saver.step, reached, if_pos least]
  have fire : (observed rearm).step { s with now := first } (.fire i) =
      some (({ s with now := first, timers := s.timers.eraseIdx i } : Saver).saveCurrentConfig rearm
        false) := by
    show Saver.step rearm _ (.fire i) = _
    simp only [Saver.step, at_first, if_true]
  refine ⟨[.advance (first - s.now), .fire i], _, by
    rw [run_cons _ advance, run_cons _ fire, run_nil], ?_⟩
  intro throttled
  have chain : (first :: s.saves).IsChain fun later earlier =>
      earlier + MAX_DELAY_BETWEEN_SAVES_MS ≤ later := throttled
  rw [saved] at chain
  have apart := (List.isChain_cons_cons.mp chain).1
  unfold MAX_DELAY_BETWEEN_SAVES_MS at apart
  omega

/-- A save with another timer pending is followed by a save too soon, in some run. -/
theorem Spaced.hazard (spaced : s.Spaced) (crowded : s.Alone action = false)
    (stepped : Saver.step rearm s action = some s') :
    ∃ actions t, (observed rearm).run s' actions = some t ∧ ¬ t.Throttled := by
  simp only [Alone, Bool.or_eq_false_iff, Bool.not_eq_false', List.isEmpty_eq_false_iff] at crowded
  cases effect stepped with
  | saved writes now last timers saves due =>
      have late := spaced.saved_late due
      apply saves_again ⟨s.saves, by rw [saves, now]⟩ (by rw [timers]; exact crowded.2)
      intro deadline member
      rw [timers] at member
      obtain ⟨-, soon, unmissed⟩ := spaced.timers deadline (others_subset member)
      omega
  | armed quiet _ _ _ _ _ =>
      rw [crowded.1] at quiet
      cases quiet
  | waited quiet _ _ _ _ _ =>
      rw [crowded.1] at quiet
      cases quiet

end Steps

theorem spaced_of_reachable {rearm : Rearm} {s : Saver} (reachable : (lone rearm).Reachable s) :
    s.Spaced := by
  apply reachable.invariant Spaced
  · intro s started
    obtain ⟨started, unsaved⟩ := started
    constructor
    · unfold Throttled
      rw [unsaved]
      exact .nil
    · rw [unsaved]
      intro save head
      cases head
    · exact started.constructed
    · rw [started.quiet]
      intro deadline member
      cases member
  · intro s action s' spaced stepped
    obtain ⟨alone, stepped⟩ := restrict_step.mp stepped
    exact spaced.step alone stepped

/-- In every run in which the file is only written when no other timer is pending,
    under both readings of re-arming, successive saves are five seconds apart.  Where
    such a run meets a write with another timer pending, some way of going on saves
    too soon. -/
theorem saves_throttled {rearm : Rearm} {s : Saver} (reachable : (lone rearm).Reachable s) :
    s.Throttled ∧
      ∀ action s', step rearm s action = some s' → s.Alone action = false →
        ∃ actions t, (observed rearm).run s' actions = some t ∧ ¬ t.Throttled := by
  have spaced := spaced_of_reachable reachable
  exact ⟨spaced.throttled, fun action s' stepped crowded => spaced.hazard crowded stepped⟩

theorem start_observed (rearm : Rearm) (config : PermConfig) :
    (observed rearm).init (start config) :=
  ⟨start_init rearm config, rfl⟩

/-- A change that is saved at once, five seconds after the save by the timer. -/
def twoSaves : List Action := burst ++ [.advance 5000, .set 200]

theorem twoSaves_lone : ((lone .replaces).run (start DefaultConfig) twoSaves).isSome := by
  decide

theorem saves_throttled_two_saves :
    (((lone .replaces).run (start DefaultConfig) twoSaves).get twoSaves_lone).saves = [10900, 5900] ∧
      (((lone .replaces).run (start DefaultConfig) twoSaves).get twoSaves_lone).Throttled :=
  ⟨by decide, (saves_throttled
    (.get (m := lone .replaces) (start_observed .replaces DefaultConfig) twoSaves_lone)).1⟩

/-- A change just before the limit arms a timer for a second later, one at the limit is
    saved at once, and the timer saves again. -/
def tooSoon : List Action :=
  [.advance 4900, .set 120, .advance 100, .set 180, .advance 900, .fire 0]

theorem tooSoon_enabled : ((observed .replaces).run (start DefaultConfig) tooSoon).isSome ∧
    ((observed .accumulates).run (start DefaultConfig) tooSoon).isSome := by
  decide

/-- Under both readings the two saves are 900 ms apart. -/
theorem not_throttled_tooSoon :
    (∃ s, (observed .replaces).Reachable s ∧ ¬ s.Throttled) ∧
    (∃ s, (observed .accumulates).Reachable s ∧ ¬ s.Throttled) := by
  constructor
  · refine ⟨_, .get (start_observed .replaces DefaultConfig) tooSoon_enabled.1, ?_⟩
    unfold Throttled
    decide
  · refine ⟨_, .get (start_observed .accumulates DefaultConfig) tooSoon_enabled.2, ?_⟩
    unfold Throttled
    decide

end RpiFanServe.Config.Saver
