import OddJobs.Engine.GraceRuns

/-!
# The scheduler

All timers are kept in one table, by their names.  Each is an alarm of its own, which is set,
called off, and rings once.
-/

namespace OddJobs

open Library

structure Scheduler where
  timers : HashMap Nat

inductive SchedulerCall where
  | setTimer (id : TimerId) (duration now : Nat)
  | cancelTimer (id : TimerId)
  | cancelTimersWithPrefix (start : String)
  | firedTimers (order : WalkOrder) (now : Nat)

namespace Scheduler

def call (scheduler : Scheduler) : SchedulerCall → List TimerId × Scheduler
  | .setTimer id duration now => ([], ⟨scheduler.timers.insert id (now + duration)⟩)
  | .cancelTimer id => ([], ⟨scheduler.timers.erase id⟩)
  | .cancelTimersWithPrefix start =>
      ([], ⟨scheduler.timers.filter fun id _ => !start.toList.isPrefixOf id.toList⟩)
  | .firedTimers order now => (firedTimers order now scheduler.timers,
      ⟨scheduler.timers.filter fun _ firesAt => !decide (firesAt ≤ now)⟩)

def calls (scheduler : Scheduler) : List SchedulerCall → List TimerId × Scheduler
  | [] => ([], scheduler)
  | first :: rest =>
      let (fired, scheduler) := scheduler.call first
      let (later, scheduler) := scheduler.calls rest
      (fired ++ later, scheduler)

end Scheduler

/-- An alarm: when it rings, and how often it has rung. -/
structure Alarm where
  deadline : Option Nat
  rung : Nat

def Alarm.hear (id : TimerId) (alarm : Alarm) : SchedulerCall → Alarm
  | .setTimer other duration now =>
      if other = id then ⟨some (now + duration), alarm.rung⟩ else alarm
  | .cancelTimer other => if other = id then ⟨none, alarm.rung⟩ else alarm
  | .cancelTimersWithPrefix start =>
      if start.toList.isPrefixOf id.toList then ⟨none, alarm.rung⟩ else alarm
  | .firedTimers _ now =>
      if alarm.deadline.any (· ≤ now) then ⟨none, alarm.rung + 1⟩ else alarm

namespace Scheduler

theorem call_alarm (scheduler : Scheduler) (id : TimerId) (call : SchedulerCall) (rung : Nat) :
    Alarm.hear id ⟨scheduler.timers[id]?, rung⟩ call =
      ⟨(scheduler.call call).2.timers[id]?, rung + (scheduler.call call).1.count id⟩ := by
  cases call with
  | setTimer other duration now =>
      simp only [Alarm.hear, Scheduler.call, Table.lookup_insert]
      split <;> rfl
  | cancelTimer other =>
      simp only [Alarm.hear, Scheduler.call, Table.lookup_erase]
      split <;> rfl
  | cancelTimersWithPrefix start =>
      simp only [Alarm.hear, Scheduler.call, Table.lookup_filter]
      cases scheduler.timers[id]? <;> cases start.toList.isPrefixOf id.toList <;> rfl
  | firedTimers order now =>
      have counted := GraceRun.count_firedTimers order now scheduler.timers id
      simp only [Alarm.hear, Scheduler.call]
      rw [Table.contains_eq_isSome, Table.contains_eq_isSome, Table.lookup_filter] at counted
      rw [Table.lookup_filter]
      cases found : scheduler.timers[id]? with
      | none =>
          rw [found] at counted
          have never : (firedTimers order now scheduler.timers).count id = 0 := by
            simpa using counted
          rw [never]
          rfl
      | some firesAt =>
          rw [found] at counted
          by_cases due : firesAt ≤ now <;> simp_all [Option.filter]

/-- Whatever the scheduler is asked to do, each timer is set, called off and fires as the alarm
that hears the same calls: no timer fires for another one, early, or twice. -/
theorem calls_alarm (scheduler : Scheduler) (id : TimerId) (requests : List SchedulerCall) :
    requests.foldl (Alarm.hear id) ⟨scheduler.timers[id]?, 0⟩ =
      ⟨(scheduler.calls requests).2.timers[id]?, (scheduler.calls requests).1.count id⟩ := by
  suffices general : ∀ rung, requests.foldl (Alarm.hear id) ⟨scheduler.timers[id]?, rung⟩ =
      ⟨(scheduler.calls requests).2.timers[id]?,
        rung + (scheduler.calls requests).1.count id⟩ by
    rw [general, Nat.zero_add]
  induction requests generalizing scheduler with
  | nil => exact fun rung => rfl
  | cons first rest ih =>
      intro rung
      rw [List.foldl_cons, call_alarm, ih, calls]
      dsimp only
      rw [List.count_append, Nat.add_assoc]

end Scheduler

end OddJobs
