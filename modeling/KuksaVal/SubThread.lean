import KuksaVal.Runs
import KuksaVal.SubscriptionHandler

/-! The thread that empties the buffer: where it tests, where it sleeps, and who wakes it. -/

/-- Where the thread is in its loop. -/
inductive ThreadPc where
  | testRun
  | testSize
  | pop
  | lockWait
  | wait
  | ended
  deriving DecidableEq, Repr

/-- The thread, and the publisher that holds the lock of the table with what it has still to
push. A thread that waits is woken by a notification that came while it waited. -/
structure SubThread where
  handler : SubscriptionHandler := {}
  publishing : List Notification := []
  threadRun : Bool := true
  pc : ThreadPc := .testRun
  notified : Bool := false
  deriving DecidableEq

inductive ThreadStep where
  | table (subscriptions : List (SubscriptionKey × List (SubscriptionId × KuksaChannel)))
  | publish (p : Publication)
  | push
  | stop
  | run
  | wake

namespace SubThread

/-- `c.notify_one()`: lost on a thread that does not wait. -/
def notifyOne (st : SubThread) : SubThread :=
  { st with notified := st.notified || decide (st.pc = .wait) }

/-- The entries that a publication pushes one after the other. -/
def entriesFor (h : SubscriptionHandler) (p : Publication) : List Notification :=
  (h.subscriptionsFor ⟨p.path.getVSSPath, p.attr⟩).map fun sub =>
    ⟨sub.1, sub.2, p.vssdatatype, p.data⟩

def push (st : SubThread) : Option SubThread :=
  match st.publishing with
  | [] => none
  | n :: ns => some (notifyOne { st with
      handler := { st.handler with buffer := st.handler.buffer ++ [n] }, publishing := ns })

def stopThread (st : SubThread) : Option SubThread :=
  if st.threadRun then some (notifyOne { st with threadRun := false }) else some st

/-- One step of `subThreadRunner`. The tests are made without the lock. -/
def subThreadRunner (st : SubThread) : Option SubThread :=
  match st.pc with
  | .testRun => some { st with pc := if st.threadRun then .testSize else .ended }
  | .testSize => some { st with pc := if st.handler.buffer.length > 0 then .pop else .lockWait }
  | .pop =>
      match st.handler.buffer with
      | [] => none
      | _ :: rest => some { st with
          handler := { st.handler with buffer := rest }, pc := .testRun }
  | .lockWait => some { st with pc := .wait, notified := false }
  | .wait => if st.notified then some { st with pc := .testRun, notified := false } else none
  | .ended => none

/-- A thread that waits may also wake without a notification. -/
def next (st : SubThread) : ThreadStep → Option SubThread
  | .table subscriptions =>
      if st.publishing = [] then
        some { st with handler := { st.handler with subscriptions := subscriptions } }
      else none
  | .publish p =>
      if st.publishing = [] then some { st with publishing := entriesFor st.handler p } else none
  | .push => push st
  | .stop => stopThread st
  | .run => subThreadRunner st
  | .wake => if st.pc = .wait then some { st with pc := .testRun, notified := false } else none

/-- All runs from the start of the thread. -/
def system : TransitionSystem SubThread ThreadStep := .ofNext {} next

/-- The pushes of a publication, one after the other, put its entries in the buffer. -/
theorem exec_push (st : SubThread) : ∃ notified,
    TransitionSystem.exec next st (List.replicate st.publishing.length .push) = some { st with
      handler := { st.handler with buffer := st.handler.buffer ++ st.publishing }
      publishing := [], notified := notified } := by
  obtain ⟨handler, publishing, threadRun, pc, notified⟩ := st
  induction publishing generalizing handler notified with
  | nil => exact ⟨notified, by simp [TransitionSystem.exec]⟩
  | cons n ns ih =>
    obtain ⟨notified', he⟩ := ih { handler with buffer := handler.buffer ++ [n] }
      (notified || decide (pc = .wait))
    refine ⟨notified', ?_⟩
    simpa [List.replicate_succ, TransitionSystem.exec, next, push, notifyOne] using he

theorem exec_publish (st : SubThread) (h : st.publishing = []) (p : Publication) :
    ∃ notified, TransitionSystem.exec next st
      (.publish p :: List.replicate (entriesFor st.handler p).length .push) =
        some { st with handler := st.handler.publishForVSSPath p, notified := notified } := by
  obtain ⟨notified, he⟩ := exec_push { st with publishing := entriesFor st.handler p }
  refine ⟨notified, ?_⟩
  rw [TransitionSystem.exec, next, if_pos h, Option.bind_some, he, ← h]
  rfl

/-- Nothing waits to be done. -/
def Idle (st : SubThread) : Prop := st.handler.buffer = [] ∧ st.threadRun = true

/-- Between the test of the size and the wait, nothing is pushed and the thread is not stopped,
and a thread that was stopped does not find the buffer empty. -/
def NotBetween (st : SubThread) : ThreadStep → Prop
  | .push => st.pc ≠ .lockWait
  | .stop => st.pc ≠ .lockWait
  | .run => st.pc = .testSize → st.handler.buffer = [] → st.threadRun = true
  | _ => True

instance (st : SubThread) : (step : ThreadStep) → Decidable (NotBetween st step)
  | .push => inferInstanceAs (Decidable (st.pc ≠ .lockWait))
  | .stop => inferInstanceAs (Decidable (st.pc ≠ .lockWait))
  | .run => inferInstanceAs (Decidable (_ → _ → _))
  | .table _ => .isTrue trivial
  | .publish _ => .isTrue trivial
  | .wake => .isTrue trivial

/-- The thread goes to sleep, and sleeps on, only when there is nothing to do. -/
structure Awake (st : SubThread) : Prop where
  lockWait : st.pc = .lockWait → st.Idle
  wait : st.pc = .wait → st.notified = false → st.Idle

variable {st st' : SubThread}

/-- A notification is not lost on a thread that is not about to wait. -/
theorem Awake.notifyOne (h : st.pc ≠ .lockWait) : Awake st.notifyOne := by
  constructor
  · intro hpc
    exact absurd hpc h
  · intro hpc hn
    have hpc' : st.pc = .wait := hpc
    simp [SubThread.notifyOne, hpc'] at hn

theorem Awake.subThreadRunner (h : st.Awake) (hok : NotBetween st .run)
    (hs : subThreadRunner st = some st') : st'.Awake := by
  unfold SubThread.subThreadRunner at hs
  split at hs
  case h_1 hpc =>
    obtain rfl := Option.some.inj hs
    constructor <;> cases st.threadRun <;> simp
  case h_2 hpc =>
    obtain rfl := Option.some.inj hs
    by_cases hb : st.handler.buffer.length > 0
    · constructor <;> simp [hb]
    · have hnil : st.handler.buffer = [] := by simpa using hb
      constructor
      · intro _
        exact ⟨hnil, hok hpc hnil⟩
      · simp [hb]
  case h_3 hpc =>
    split at hs
    · simp at hs
    · obtain rfl := Option.some.inj hs
      constructor <;> simp
  case h_4 hpc =>
    obtain rfl := Option.some.inj hs
    constructor
    · simp
    · intro _ _
      exact h.lockWait hpc
  case h_5 hpc =>
    split_ifs at hs
    obtain rfl := Option.some.inj hs
    constructor <;> simp
  case h_6 hpc => simp at hs

theorem Awake.next (h : st.Awake) {step : ThreadStep} (hok : NotBetween st step)
    (hs : next st step = some st') : st'.Awake := by
  cases step with
  | table subscriptions =>
    simp only [SubThread.next] at hs
    split_ifs at hs
    obtain rfl := Option.some.inj hs
    exact ⟨h.lockWait, h.wait⟩
  | publish p =>
    simp only [SubThread.next] at hs
    split_ifs at hs
    obtain rfl := Option.some.inj hs
    exact ⟨h.lockWait, h.wait⟩
  | push =>
    simp only [SubThread.next, push] at hs
    split at hs
    · simp at hs
    · obtain rfl := Option.some.inj hs
      apply Awake.notifyOne
      exact hok
  | stop =>
    simp only [SubThread.next, stopThread] at hs
    split_ifs at hs
    · obtain rfl := Option.some.inj hs
      apply Awake.notifyOne
      exact hok
    · obtain rfl := Option.some.inj hs
      exact h
  | run => exact h.subThreadRunner hok hs
  | wake =>
    simp only [SubThread.next] at hs
    split_ifs at hs
    obtain rfl := Option.some.inj hs
    constructor <;> simp

/-- Where nothing comes between the tests and the wait, the thread does not wait without a
notification for it while the buffer holds an entry or the thread is to stop. -/
theorem idle_of_wait (st : SubThread) (h : system.Reachable NotBetween st) (hpc : st.pc = .wait)
    (hn : st.notified = false) : st.handler.buffer = [] ∧ st.threadRun = true := by
  have hawake : st.Awake := by
    refine h.invariant ?_ ?_
    · rintro _ rfl
      constructor <;> simp
    · intro st step st' hi hok hs
      exact hi.next hok hs
  exact hawake.wait hpc hn

/-- Every other step leaves the thread about to wait with something to do. -/
theorem lockWait_of_between {step : ThreadStep} (hno : ¬ NotBetween st step)
    (hs : next st step = some st') : st'.pc = .lockWait ∧ ¬ st'.Idle := by
  cases step with
  | push =>
    have hpc : st.pc = .lockWait := not_not.mp hno
    simp only [SubThread.next, push] at hs
    split at hs
    · simp at hs
    · obtain rfl := Option.some.inj hs
      exact ⟨hpc, by simp [Idle, SubThread.notifyOne]⟩
  | stop =>
    have hpc : st.pc = .lockWait := not_not.mp hno
    simp only [SubThread.next, stopThread] at hs
    split_ifs at hs with hrun
    · obtain rfl := Option.some.inj hs
      exact ⟨hpc, by simp [Idle, SubThread.notifyOne]⟩
    · obtain rfl := Option.some.inj hs
      exact ⟨hpc, fun hidle => hrun hidle.2⟩
  | run =>
    obtain ⟨hpc, hb, hrun⟩ : st.pc = .testSize ∧ st.handler.buffer = [] ∧ st.threadRun ≠ true := by
      simpa [NotBetween] using hno
    simp only [SubThread.next, SubThread.subThreadRunner, hpc, hb] at hs
    obtain rfl := Option.some.inj hs
    exact ⟨rfl, fun hidle => hrun hidle.2⟩
  | table _ => exact absurd trivial hno
  | publish _ => exact absurd trivial hno
  | wake => exact absurd trivial hno

/-- The next step of the thread then puts it to sleep on what there is to do. -/
theorem sleeps_of_between {step : ThreadStep} (hno : ¬ NotBetween st step)
    (hs : next st step = some st') : ∃ asleep, next st' .run = some asleep ∧
      asleep.pc = .wait ∧ asleep.notified = false ∧ ¬ asleep.Idle := by
  obtain ⟨hpc, hidle⟩ := lockWait_of_between hno hs
  refine ⟨{ st' with pc := .wait, notified := false }, ?_, rfl, rfl, hidle⟩
  simp [SubThread.next, SubThread.subThreadRunner, hpc]

section Stuck

/-- A publication to one subscription, pushed while the thread waits. -/
def pushedSteps : List ThreadStep :=
  [.table [(⟨"Vehicle/OBD/Speed", "value"⟩, [(7, {})])], .run, .run, .run,
    .publish ⟨.fromVSS "Vehicle.OBD.Speed", "uint8", "value", .obj []⟩, .push]

/-- The thread takes the entry, finds nothing more to do and waits. -/
def servedSteps : List ThreadStep := pushedSteps ++ List.replicate 7 .run

/-- `NotBetween` as a check on a step of a given run. -/
def notBetweenCheck (st : SubThread) (step : ThreadStep) : Bool :=
  decide (NotBetween st step)

theorem notBetween_of_check (st : SubThread) (step : ThreadStep)
    (h : notBetweenCheck st step = true) : NotBetween st step :=
  of_decide_eq_true h

theorem idle_of_wait_served :
    (TransitionSystem.after {} next pushedSteps).handler.buffer.length = 1 ∧
      (TransitionSystem.after {} next servedSteps).pc = .wait ∧
      Idle (TransitionSystem.after {} next servedSteps) := by
  have hpc : (TransitionSystem.after {} next servedSteps).pc = .wait := by decide +kernel
  have hexec : TransitionSystem.exec next {} servedSteps =
      some (TransitionSystem.after {} next servedSteps) :=
    TransitionSystem.exec_eq_some_after (by decide +kernel)
  have hreached := TransitionSystem.reachable_of_admits notBetween_of_check servedSteps
    (.init rfl) (by decide +kernel) hexec
  exact ⟨by decide +kernel, hpc, idle_of_wait _ hreached hpc (by decide +kernel)⟩

/-- A publication to one subscription, pushed when the thread is about to wait. -/
def stuckSteps : List ThreadStep :=
  [.table [(⟨"Vehicle/OBD/Speed", "value"⟩, [(7, {})])], .run, .run,
    .publish ⟨.fromVSS "Vehicle.OBD.Speed", "uint8", "value", .obj []⟩, .push, .run]

theorem waits_on_work : ¬ ∀ st, system.Reachable TransitionSystem.Any st → st.pc = .wait →
    st.notified = false → st.handler.buffer = [] ∧ st.threadRun = true := by
  intro h
  have hs := h _ (TransitionSystem.after_reachable stuckSteps fun _ _ _ => trivial)
    (by decide +kernel) (by decide +kernel)
  exact absurd hs.1 (by decide +kernel)

end Stuck

end SubThread
