import KuksaVal.LockOrder
import KuksaVal.Runs
import KuksaVal.SetRequest

/-! The three mutexes of sets, of the table of subscriptions and of the buffer, as the clients and
the subscription thread take them. -/

inductive Mutex where
  | rwMutex
  | accessMutex
  | subMutex
  deriving DecidableEq

namespace Mutex

/-- The order in which a publisher takes them. -/
def rank : Mutex → ℕ
  | .rwMutex => 0
  | .accessMutex => 1
  | .subMutex => 2

end Mutex

inductive ServerThread where
  | subThread
  | client (i : ℕ)
  deriving DecidableEq

structure SetCall where
  clock : Clock
  path : VSSPath
  attr : String
  value : Json

/-- What is done to the table of subscriptions alone. -/
inductive TableEdit where
  | subscribe (subsKey : SubscriptionKey) (subId : SubscriptionId) (channel : KuksaChannel)
  | unsubscribe (subscribeID : SubscriptionId)
  | unsubscribeAll (channel : KuksaChannel)

/-- Where a client is. The entries are those that its publication still has to push. -/
inductive ClientPc where
  | idle
  | lockingTree (call : SetCall)
  | storing (call : SetCall)
  | lockingTable (p : Publication)
  | publishing (entries : List Notification)
  | pushing (n : Notification) (entries : List Notification)
  | unlockingTree
  | locking (edit : TableEdit)
  | editing (edit : TableEdit)

/-- Where the subscription thread is. -/
inductive RunnerPc where
  | running
  | lockingEntry
  | sending (n : Notification)
  | lockingTable (channel : KuksaChannel)
  | unsubscribing (channel : KuksaChannel)
  | unlocking
  | lockingWait
  | waiting
  | asleep
  | lockingAwake

structure LockServer where
  db : VssDatabase
  handler : SubscriptionHandler := {}
  owner : Mutex → Option ServerThread := fun _ => none
  clients : ℕ → ClientPc := fun _ => .idle
  runner : RunnerPc := .running

/-- A client begins a call, takes the mutex it waits for or does what comes next; the thread
does so too, and is told whether the connection still exists. -/
inductive LockStep where
  | set (i : ℕ) (call : SetCall)
  | subscribe (i : ℕ) (subId : SubscriptionId) (channel : KuksaChannel) (path attr : String)
  | unsubscribe (i : ℕ) (subscribeID : SubscriptionId)
  | unsubscribeAll (i : ℕ) (channel : KuksaChannel)
  | acquire (i : ℕ)
  | proceed (i : ℕ)
  | runnerAcquire
  | run (connectionexist : Bool)

namespace TableEdit

def run (handler : SubscriptionHandler) : TableEdit → SubscriptionHandler
  | .subscribe subsKey subId channel => handler.enter subsKey subId channel
  | .unsubscribe subscribeID => (handler.unsubscribe subscribeID).2
  | .unsubscribeAll channel => handler.unsubscribeAll channel

end TableEdit

namespace ClientPc

def holds : ClientPc → List Mutex
  | .idle | .lockingTree _ | .locking _ => []
  | .storing _ | .lockingTable _ | .unlockingTree => [.rwMutex]
  | .publishing _ => [.rwMutex, .accessMutex]
  | .pushing _ _ => [.rwMutex, .accessMutex, .subMutex]
  | .editing _ => [.accessMutex]

/-- A client whose publication has entries left waits for the buffer. -/
def waits : ClientPc → Option Mutex
  | .lockingTree _ => some .rwMutex
  | .lockingTable _ | .locking _ => some .accessMutex
  | .publishing (_ :: _) => some .subMutex
  | _ => none

/-- Where a client is once it has the mutex that it waits for. -/
def acquired (handler : SubscriptionHandler) : ClientPc → ClientPc
  | .lockingTree call => .storing call
  | .lockingTable p => .publishing ((handler.subscriptionsFor ⟨p.path.getVSSPath, p.attr⟩).map
      fun sub => ⟨sub.1, sub.2, p.vssdatatype, p.data⟩)
  | .publishing (n :: entries) => .pushing n entries
  | .locking edit => .editing edit
  | pc => pc

end ClientPc

namespace RunnerPc

def holds : RunnerPc → List Mutex
  | .sending _ | .lockingTable _ | .unlocking | .waiting => [.subMutex]
  | .unsubscribing _ => [.subMutex, .accessMutex]
  | _ => []

def waits : RunnerPc → Option Mutex
  | .lockingEntry | .lockingWait | .lockingAwake => some .subMutex
  | .lockingTable _ => some .accessMutex
  | _ => none

end RunnerPc

namespace LockServer

variable (jp : JsonPath) (rx : StdRegex) (nm : Numerics) (st : LockServer)

def setClient (i : ℕ) (pc : ClientPc) : LockServer :=
  { st with clients := Function.update st.clients i pc }

def begin (i : ℕ) (pc : ClientPc) : Option LockServer :=
  match st.clients i with
  | .idle => some (st.setClient i pc)
  | _ => none

def take (m : Mutex) (t : ServerThread) : LockServer :=
  { st with owner := Function.update st.owner m (some t) }

def release (m : Mutex) : LockServer := { st with owner := Function.update st.owner m none }

def acquire (i : ℕ) : Option LockServer :=
  match (st.clients i).waits with
  | none => none
  | some m =>
      if (st.owner m).isSome then none
      else some ((st.take m (.client i)).setClient i ((st.clients i).acquired st.handler))

/-- The critical sections of a client, and their ends. -/
def proceed (i : ℕ) : Option LockServer :=
  match st.clients i with
  | .storing call =>
      match st.db.setSignal jp nm call.clock call.path call.attr call.value with
      | (_, db, p :: _) => some ({ st with db := db }.setClient i (.lockingTable p))
      | (_, db, []) => some ({ st with db := db }.setClient i .unlockingTree)
  | .publishing [] => some ((st.release .accessMutex).setClient i .unlockingTree)
  | .pushing n entries =>
      some (({ st with handler := { st.handler with buffer := st.handler.buffer ++ [n] } }.release
        .subMutex).setClient i (.publishing entries))
  | .unlockingTree => some ((st.release .rwMutex).setClient i .idle)
  | .editing edit =>
      some (({ st with handler := edit.run st.handler }.release .accessMutex).setClient i .idle)
  | _ => none

/-- Where the thread is once it has the mutex that it waits for, and what is in the buffer. -/
def runnerAcquired : Option (RunnerPc × List Notification) :=
  match st.runner, st.handler.buffer with
  | .lockingEntry, n :: rest => some (.sending n, rest)
  | .lockingTable channel, buffer => some (.unsubscribing channel, buffer)
  | .lockingWait, buffer => some (.waiting, buffer)
  | .lockingAwake, buffer => some (.unlocking, buffer)
  | _, _ => none

def runnerAcquire : Option LockServer :=
  match st.runner.waits with
  | none => none
  | some m =>
      if (st.owner m).isSome then none
      else st.runnerAcquired.map fun r =>
        { st.take m .subThread with
          runner := r.1, handler := { st.handler with buffer := r.2 } }

/-- The size of the buffer is read without its mutex; a wait gives the mutex back. -/
def run (connectionexist : Bool) : Option LockServer :=
  match st.runner with
  | .running => some { st with
      runner := if 0 < st.handler.buffer.length then .lockingEntry else .lockingWait }
  | .sending n => some { st with
      runner := if n.channel.typeOfConnection = .grpc || connectionexist then .unlocking
        else .lockingTable n.channel }
  | .unsubscribing channel => some { st.release .accessMutex with
      handler := st.handler.unsubscribeAll channel
      runner := .unlocking }
  | .unlocking => some { st.release .subMutex with runner := .running }
  | .waiting => some { st.release .subMutex with runner := .asleep }
  | .asleep => some { st with runner := .lockingAwake }
  | _ => none

/-- A subscription is checked before the table is locked. -/
def next : LockStep → Option LockServer
  | .set i call => st.begin i (.lockingTree call)
  | .subscribe i subId channel path attr =>
      match SubscriptionHandler.checkSubscribe jp rx st.db channel path with
      | .error _ => some st
      | .ok vssPath =>
          st.begin i (.locking (.subscribe ⟨vssPath.getVSSPath, attr⟩ subId channel))
  | .unsubscribe i subscribeID => st.begin i (.locking (.unsubscribe subscribeID))
  | .unsubscribeAll i channel => st.begin i (.locking (.unsubscribeAll channel))
  | .acquire i => st.acquire i
  | .proceed i => proceed jp nm st i
  | .runnerAcquire => st.runnerAcquire
  | .run connectionexist => st.run connectionexist

/-- All runs of any number of clients and the subscription thread. -/
def system (db : VssDatabase) : TransitionSystem LockServer LockStep :=
  .ofNext { db := db } (next jp rx nm)

def holds (clients : ℕ → ClientPc) (runner : RunnerPc) : ServerThread → List Mutex
  | .subThread => runner.holds
  | .client i => (clients i).holds

/-- Who owns the mutexes, and who waits for them. -/
def locks : LockState ServerThread Mutex where
  owner := st.owner
  waits
    | .subThread => st.runner.waits
    | .client i => (st.clients i).waits

/-- A client is pushing the entries of a publication, and has some left. -/
def InLoop (i : ℕ) : Prop := ∃ n entries, st.clients i = .publishing (n :: entries)

/-- No client is in the loop of a publication when the thread finds a connection gone, and none
gets there before the thread has the table. -/
def KeepsOut (st : LockServer) : LockStep → Prop
  | .run connectionexist => ∀ n, st.runner = .sending n → n.channel.typeOfConnection ≠ .grpc →
      connectionexist = false → ∀ i, ¬ st.InLoop i
  | .acquire i => ∀ channel p, st.runner = .lockingTable channel →
      st.clients i = .lockingTable p →
        st.handler.subscriptionsFor ⟨p.path.getVSSPath, p.attr⟩ = []
  | _ => True

/-- The mutexes are owned by those that hold them. -/
def Owned (st : LockServer) : Prop := LockState.OwnerOf st.owner (holds st.clients st.runner)

variable {jp rx nm st} {st' : LockServer}

section Owners

theorem holds_client_of_ne {clients : ℕ → ClientPc} {runner : RunnerPc} {i : ℕ} {pc : ClientPc}
    {t : ServerThread} (ht : t ≠ .client i) :
    holds (Function.update clients i pc) runner t = holds clients runner t := by
  cases t with
  | subThread => rfl
  | client j =>
    have hj : j ≠ i := fun hj => ht (congrArg _ hj)
    simp [holds, hj]

/-- A client takes a mutex. -/
theorem Owned.client_acquire (h : st.Owned) {i : ℕ} {pc : ClientPc} {m : Mutex}
    (hfree : st.owner m = none) (hpc : ∀ m', m' ∈ pc.holds ↔ m' = m ∨ m' ∈ (st.clients i).holds) :
    LockState.OwnerOf (Function.update st.owner m (some (.client i)))
      (holds (Function.update st.clients i pc) st.runner) := by
  apply LockState.OwnerOf.acquire h hfree
  · intro m'
    simpa [holds] using hpc m'
  · intro t ht
    exact holds_client_of_ne ht

theorem ClientPc.holds_nodup (pc : ClientPc) : pc.holds.Nodup := by
  cases pc <;> simp [ClientPc.holds]

/-- A client gives back one mutex or none. -/
theorem Owned.client_givesBack (h : st.Owned) {i : ℕ} {pc : ClientPc}
    (hc : st'.clients = Function.update st.clients i pc) (hr : st'.runner = st.runner)
    (hback : LockState.GivesBack st.owner st'.owner (st.clients i).holds pc.holds) :
    st'.Owned := by
  unfold Owned
  rw [hc, hr]
  have hnodup : (holds st.clients st.runner (.client i)).Nodup := ClientPc.holds_nodup _
  apply LockState.OwnerOf.givesBack h hnodup
  · simpa [holds] using hback
  · intro t ht
    exact holds_client_of_ne ht

theorem holds_runner_of_ne {clients : ℕ → ClientPc} {runner runner' : RunnerPc} {t : ServerThread}
    (ht : t ≠ .subThread) : holds clients runner' t = holds clients runner t := by
  cases t with
  | subThread => exact absurd rfl ht
  | client j => rfl

theorem Owned.runner_acquire (h : st.Owned) {runner : RunnerPc} {m : Mutex}
    (hfree : st.owner m = none)
    (hpc : ∀ m', m' ∈ runner.holds ↔ m' = m ∨ m' ∈ st.runner.holds) :
    LockState.OwnerOf (Function.update st.owner m (some .subThread)) (holds st.clients runner) :=
  LockState.OwnerOf.acquire h hfree hpc fun _ ht => holds_runner_of_ne ht

theorem RunnerPc.holds_nodup (pc : RunnerPc) : pc.holds.Nodup := by
  cases pc <;> simp [RunnerPc.holds]

theorem Owned.runner_givesBack (h : st.Owned) (hc : st'.clients = st.clients)
    (hback : LockState.GivesBack st.owner st'.owner st.runner.holds st'.runner.holds) :
    st'.Owned := by
  unfold Owned
  rw [hc]
  have hnodup : (holds st.clients st.runner .subThread).Nodup := RunnerPc.holds_nodup _
  exact LockState.OwnerOf.givesBack h hnodup hback fun _ ht => holds_runner_of_ne ht

/-- What a client holds once it has the mutex that it waits for. -/
theorem ClientPc.mem_acquired {pc : ClientPc} {m : Mutex} (hw : pc.waits = some m)
    (handler : SubscriptionHandler) (m' : Mutex) :
    m' ∈ (pc.acquired handler).holds ↔ m' = m ∨ m' ∈ pc.holds := by
  cases pc with
  | publishing entries =>
    cases entries with
    | nil => simp [ClientPc.waits] at hw
    | cons n entries =>
      obtain rfl := Option.some.inj hw
      cases m' <;> simp [ClientPc.acquired, ClientPc.holds]
  | _ =>
    first
    | (obtain rfl := Option.some.inj hw
       cases m' <;> simp [ClientPc.acquired, ClientPc.holds])
    | simp [ClientPc.waits] at hw

/-- Where the thread is once it has the mutex that it waits for, and what it holds there. -/
theorem runnerAcquired_cases {r : RunnerPc × List Notification}
    (hr : st.runnerAcquired = some r) : (∀ channel, r.1 ≠ .lockingTable channel) ∧
      ∀ m, st.runner.waits = some m → ∀ m', m' ∈ r.1.holds ↔ m' = m ∨ m' ∈ st.runner.holds := by
  unfold runnerAcquired at hr
  split at hr
  · rename_i hp _
    obtain rfl := Option.some.inj hr
    refine ⟨by simp, fun m hw m' => ?_⟩
    rw [hp] at hw ⊢
    obtain rfl := Option.some.inj hw
    simp [RunnerPc.holds]
  · rename_i hp
    obtain rfl := Option.some.inj hr
    refine ⟨by simp, fun m hw m' => ?_⟩
    rw [hp] at hw ⊢
    obtain rfl := Option.some.inj hw
    cases m' <;> simp [RunnerPc.holds]
  · rename_i hp
    obtain rfl := Option.some.inj hr
    refine ⟨by simp, fun m hw m' => ?_⟩
    rw [hp] at hw ⊢
    obtain rfl := Option.some.inj hw
    simp [RunnerPc.holds]
  · rename_i hp
    obtain rfl := Option.some.inj hr
    refine ⟨by simp, fun m hw m' => ?_⟩
    rw [hp] at hw ⊢
    obtain rfl := Option.some.inj hw
    simp [RunnerPc.holds]
  · simp at hr

theorem begin_cases {i : ℕ} {pc : ClientPc} (hs : st.begin i pc = some st') :
    st.clients i = .idle ∧ st' = st.setClient i pc := by
  unfold LockServer.begin at hs
  split at hs
  · rename_i hidle
    exact ⟨hidle, (Option.some.inj hs).symm⟩
  · simp at hs

/-- What a client does where it waits for nothing: it gives back one mutex or none, and comes
into the loop of a publication only with the buffer in its hands. -/
theorem proceed_cases {i : ℕ} (hs : proceed jp nm st i = some st') : ∃ pc,
    st'.clients = Function.update st.clients i pc ∧ st'.runner = st.runner ∧
      LockState.GivesBack st.owner st'.owner (st.clients i).holds pc.holds ∧
      ∀ n entries, pc = .publishing (n :: entries) → .subMutex ∈ (st.clients i).holds := by
  unfold LockServer.proceed at hs
  split at hs
  · rename_i hp
    rw [hp]
    split at hs
    · obtain rfl := Option.some.inj hs
      exact ⟨_, rfl, rfl, .inl ⟨rfl, rfl⟩, by simp⟩
    · obtain rfl := Option.some.inj hs
      exact ⟨_, rfl, rfl, .inl ⟨rfl, rfl⟩, by simp⟩
  · rename_i hp
    obtain rfl := Option.some.inj hs
    rw [hp]
    exact ⟨_, rfl, rfl, .inr ⟨.accessMutex, by simp [ClientPc.holds], rfl, rfl⟩, by simp⟩
  · rename_i hp
    obtain rfl := Option.some.inj hs
    rw [hp]
    refine ⟨_, rfl, rfl, .inr ⟨.subMutex, ?_, rfl, rfl⟩, ?_⟩ <;> simp [ClientPc.holds]
  · rename_i hp
    obtain rfl := Option.some.inj hs
    rw [hp]
    exact ⟨_, rfl, rfl, .inr ⟨.rwMutex, by simp [ClientPc.holds], rfl, rfl⟩, by simp⟩
  · rename_i hp
    obtain rfl := Option.some.inj hs
    rw [hp]
    exact ⟨_, rfl, rfl, .inr ⟨.accessMutex, by simp [ClientPc.holds], rfl, rfl⟩, by simp⟩
  · simp at hs

/-- What the thread does where it waits for nothing: it gives back one mutex or none, and goes for
the table only where it found the connection gone. -/
theorem run_cases {connectionexist : Bool} (hs : st.run connectionexist = some st') :
    st'.clients = st.clients ∧
      LockState.GivesBack st.owner st'.owner st.runner.holds st'.runner.holds ∧
      ∀ channel, st'.runner = .lockingTable channel → connectionexist = false ∧
        ∃ n, st.runner = .sending n ∧ n.channel.typeOfConnection ≠ .grpc := by
  unfold LockServer.run at hs
  split at hs
  · rename_i hp
    obtain rfl := Option.some.inj hs
    rw [hp]
    refine ⟨rfl, .inl ⟨?_, rfl⟩, ?_⟩ <;> (dsimp only; split_ifs <;> simp [RunnerPc.holds])
  · rename_i n hp
    obtain rfl := Option.some.inj hs
    rw [hp]
    refine ⟨rfl, .inl ⟨?_, rfl⟩, ?_⟩
    · dsimp only
      split_ifs <;> rfl
    · intro channel hr
      simp only at hr
      split_ifs at hr with hsent
      simp only [Bool.or_eq_true, decide_eq_true_eq, not_or, Bool.not_eq_true] at hsent
      exact ⟨hsent.2, n, rfl, hsent.1⟩
  · rename_i hp
    obtain rfl := Option.some.inj hs
    rw [hp]
    exact ⟨rfl, .inr ⟨.accessMutex, by simp [RunnerPc.holds], rfl, rfl⟩, by simp⟩
  · rename_i hp
    obtain rfl := Option.some.inj hs
    rw [hp]
    exact ⟨rfl, .inr ⟨.subMutex, by simp [RunnerPc.holds], rfl, rfl⟩, by simp⟩
  · rename_i hp
    obtain rfl := Option.some.inj hs
    rw [hp]
    exact ⟨rfl, .inr ⟨.subMutex, by simp [RunnerPc.holds], rfl, rfl⟩, by simp⟩
  · rename_i hp
    obtain rfl := Option.some.inj hs
    rw [hp]
    exact ⟨rfl, .inl ⟨rfl, rfl⟩, by simp⟩
  · simp at hs

theorem Owned.begin (h : st.Owned) {i : ℕ} {pc : ClientPc} (hpc : pc.holds = [])
    (hs : st.begin i pc = some st') : st'.Owned := by
  obtain ⟨hidle, rfl⟩ := begin_cases hs
  exact h.client_givesBack rfl rfl (.inl ⟨by rw [hpc, hidle]; rfl, rfl⟩)

theorem Owned.proceed (h : st.Owned) {i : ℕ} (hs : proceed jp nm st i = some st') : st'.Owned := by
  obtain ⟨pc, hc, hr, hback, -⟩ := proceed_cases hs
  exact h.client_givesBack hc hr hback

theorem Owned.run (h : st.Owned) {connectionexist : Bool} (hs : st.run connectionexist = some st') :
    st'.Owned := by
  obtain ⟨hc, hback, -⟩ := run_cases hs
  exact h.runner_givesBack hc hback

theorem Owned.next (h : st.Owned) {step : LockStep} (hs : next jp rx nm st step = some st') :
    st'.Owned := by
  cases step with
  | set i call => exact h.begin rfl hs
  | subscribe i subId channel path attr =>
    simp only [LockServer.next] at hs
    split at hs
    · obtain rfl := Option.some.inj hs
      exact h
    · exact h.begin rfl hs
  | unsubscribe i subscribeID => exact h.begin rfl hs
  | unsubscribeAll i channel => exact h.begin rfl hs
  | acquire i =>
    simp only [LockServer.next, LockServer.acquire] at hs
    split at hs
    · simp at hs
    · rename_i m hw
      split_ifs at hs with hfree
      obtain rfl := Option.some.inj hs
      exact h.client_acquire (by simpa using hfree) (ClientPc.mem_acquired hw st.handler)
  | proceed i => exact h.proceed hs
  | runnerAcquire =>
    simp only [LockServer.next, LockServer.runnerAcquire] at hs
    split at hs
    · simp at hs
    · rename_i m hw
      split_ifs at hs with hfree
      obtain ⟨r, hr, rfl⟩ := Option.map_eq_some_iff.mp hs
      exact h.runner_acquire (by simpa using hfree) ((runnerAcquired_cases hr).2 m hw)
  | run connectionexist => exact h.run hs

end Owners

section Cycles

/-- A client that holds one mutex and waits for another does so in their order. -/
theorem ClientPc.rank_lt {pc : ClientPc} {m m' : Mutex} (hm : m ∈ pc.holds)
    (hw : pc.waits = some m') : m.rank < m'.rank := by
  cases pc with
  | idle | lockingTree | locking => simp [ClientPc.holds] at hm
  | storing | pushing | unlockingTree | editing => simp [ClientPc.waits] at hw
  | lockingTable p =>
    obtain rfl := Option.some.inj hw
    obtain rfl := List.mem_singleton.mp hm
    decide
  | publishing entries =>
    cases entries with
    | nil => simp [ClientPc.waits] at hw
    | cons n entries =>
      obtain rfl := Option.some.inj hw
      simp only [ClientPc.holds, List.mem_cons, List.not_mem_nil, or_false] at hm
      rcases hm with rfl | rfl <;> decide

/-- A client waits for the buffer only in the loop of a publication. -/
theorem ClientPc.waits_subMutex {pc : ClientPc} (hw : pc.waits = some .subMutex) :
    ∃ n entries, pc = .publishing (n :: entries) := by
  cases pc with
  | publishing entries =>
    cases entries with
    | nil => simp [ClientPc.waits] at hw
    | cons n entries => exact ⟨n, entries, rfl⟩
  | _ => simp [ClientPc.waits] at hw

/-- The thread holds one mutex and waits for another only where a connection was gone. -/
theorem RunnerPc.holds_waits {pc : RunnerPc} {m m' : Mutex} (hm : m ∈ pc.holds)
    (hw : pc.waits = some m') : m = .subMutex ∧ ∃ channel, pc = .lockingTable channel := by
  cases pc with
  | lockingTable channel => exact ⟨List.mem_singleton.mp hm, channel, rfl⟩
  | running | lockingEntry | lockingWait | asleep | lockingAwake => simp [RunnerPc.holds] at hm
  | sending | unsubscribing | unlocking | waiting => simp [RunnerPc.waits] at hw

/-- The only deadlock: the thread holds the buffer and waits for the table, and a client is in
the loop of a publication. -/
theorem deadlocked_iff (h : st.Owned) : st.locks.Deadlocked ↔
    (∃ channel, st.runner = .lockingTable channel) ∧ ∃ i, st.InLoop i := by
  constructor
  · intro hd
    by_contra hno
    rw [not_and] at hno
    refine LockState.not_deadlocked Mutex.rank ?_ hd
    intro t t' m m' hm ho hm'
    have hheld := (h m t').mp ho
    cases t' with
    | client i => exact ClientPc.rank_lt hheld hm'
    | subThread =>
      obtain ⟨rfl, channel, hr⟩ := RunnerPc.holds_waits hheld hm'
      cases t with
      | client i => exact absurd ⟨i, ClientPc.waits_subMutex hm⟩ (hno ⟨channel, hr⟩)
      | subThread => simp [locks, hr, RunnerPc.waits] at hm
  · rintro ⟨⟨channel, hr⟩, i, n, entries, hc⟩
    have hthread : st.locks.WaitsOn .subThread (.client i) := by
      refine ⟨.accessMutex, by simp [locks, hr, RunnerPc.waits], ?_⟩
      exact (h .accessMutex (.client i)).mpr (by simp [holds, hc, ClientPc.holds])
    have hclient : st.locks.WaitsOn (.client i) .subThread := by
      refine ⟨.subMutex, by simp [locks, hc, ClientPc.waits], ?_⟩
      exact (h .subMutex .subThread).mpr (by simp [holds, hr, RunnerPc.holds])
    exact LockState.deadlocked_of_pair hthread hclient

/-- Nothing keeps the thread from the table. -/
def Clear (st : LockServer) : Prop := ∀ channel, st.runner = .lockingTable channel →
  ∀ i, ¬ st.InLoop i

/-- A client that is not brought into the loop keeps the thread's way clear. -/
theorem Clear.setClient (h : st.Clear) {i : ℕ} {pc : ClientPc}
    (hpc : ∀ n entries, pc ≠ .publishing (n :: entries)) (hr : st'.runner = st.runner)
    (hc : st'.clients = Function.update st.clients i pc) : st'.Clear := by
  intro channel hrunner j
  rintro ⟨n, entries, hj⟩
  rw [hc, Function.update_apply] at hj
  split_ifs at hj
  · exact hpc n entries hj
  · exact h channel (hr ▸ hrunner) j ⟨n, entries, hj⟩

theorem Clear.begin (h : st.Clear) {i : ℕ} {pc : ClientPc}
    (hpc : ∀ n entries, pc ≠ .publishing (n :: entries)) (hs : st.begin i pc = some st') :
    st'.Clear := by
  obtain ⟨-, rfl⟩ := begin_cases hs
  exact h.setClient hpc rfl rfl

theorem Clear.acquire (h : st.Clear) {i : ℕ} (hok : KeepsOut st (.acquire i))
    (hs : st.acquire i = some st') : st'.Clear := by
  unfold LockServer.acquire at hs
  split at hs
  · simp at hs
  · rename_i m hw
    split_ifs at hs
    obtain rfl := Option.some.inj hs
    intro channel hr j
    rintro ⟨n, entries, hj⟩
    simp only [LockServer.setClient, take, Function.update_apply] at hj
    split_ifs at hj
    · cases hc : st.clients i with
      | lockingTable p =>
        have hnone := hok channel p hr hc
        simp [hc, ClientPc.acquired, hnone] at hj
      | publishing entries' =>
        cases entries' with
        | nil => simp [hc, ClientPc.waits] at hw
        | cons n' entries' => simp [hc, ClientPc.acquired] at hj
      | _ => simp [hc, ClientPc.acquired] at hj
    · exact h channel hr j ⟨n, entries, hj⟩

theorem Clear.proceed (h : st.Clear) (howned : st.Owned) {i : ℕ}
    (hs : proceed jp nm st i = some st') : st'.Clear := by
  obtain ⟨pc, hc, hr, -, hloop⟩ := proceed_cases hs
  by_cases hpc : .subMutex ∈ (st.clients i).holds
  · -- The client holds the buffer, so the thread does not.
    intro channel hrunner
    have hclient := (howned .subMutex (.client i)).mpr hpc
    have hthread := (howned .subMutex .subThread).mpr (by
      simp [holds, hr ▸ hrunner, RunnerPc.holds])
    rw [hclient] at hthread
    simp at hthread
  · exact h.setClient (fun n entries heq => hpc (hloop n entries heq)) hr hc

theorem Clear.run {connectionexist : Bool} (hok : KeepsOut st (.run connectionexist))
    (hs : st.run connectionexist = some st') : st'.Clear := by
  obtain ⟨hc, -, hgone⟩ := run_cases hs
  intro channel hr i hi
  obtain ⟨hexist, n, hp, hn⟩ := hgone channel hr
  unfold InLoop at hi
  rw [hc] at hi
  exact hok n hp hn hexist i hi

theorem Clear.runnerAcquire (hs : st.runnerAcquire = some st') : st'.Clear := by
  unfold LockServer.runnerAcquire at hs
  split at hs
  · simp at hs
  · split_ifs at hs
    obtain ⟨r, hr, rfl⟩ := Option.map_eq_some_iff.mp hs
    exact fun channel hrunner => absurd hrunner ((runnerAcquired_cases hr).1 channel)

theorem Clear.next (h : st.Clear) (howned : st.Owned) {step : LockStep} (hok : KeepsOut st step)
    (hs : next jp rx nm st step = some st') : st'.Clear := by
  cases step with
  | set i call => exact h.begin (by simp) hs
  | subscribe i subId channel path attr =>
    simp only [LockServer.next] at hs
    split at hs
    · obtain rfl := Option.some.inj hs
      exact h
    · exact h.begin (by simp) hs
  | unsubscribe i subscribeID => exact h.begin (by simp) hs
  | unsubscribeAll i channel => exact h.begin (by simp) hs
  | acquire i => exact h.acquire hok hs
  | proceed i => exact h.proceed howned hs
  | runnerAcquire => exact .runnerAcquire hs
  | run connectionexist => exact .run hok hs

theorem owned_init (db : VssDatabase) : Owned { db := db } := by
  intro m t
  cases t <;> simp [holds, RunnerPc.holds, ClientPc.holds]

/-- Where no client is in the loop of a publication from the time when the thread finds a
connection gone until it has the table, there is no deadlock. -/
theorem not_deadlocked_of_reachable (jp : JsonPath) (rx : StdRegex) (nm : Numerics)
    (db : VssDatabase) (st : LockServer)
    (h : (system jp rx nm db).Reachable KeepsOut st) : ¬ st.locks.Deadlocked := by
  have hboth : st.Owned ∧ st.Clear := by
    refine h.invariant (I := fun st => st.Owned ∧ st.Clear) ?_ ?_
    · rintro _ rfl
      exact ⟨owned_init db, fun channel hr => by simp at hr⟩
    · rintro st step st' ⟨howned, hclear⟩ hok hs
      exact ⟨howned.next hs, hclear.next howned hok hs⟩
  rw [deadlocked_iff hboth.1]
  rintro ⟨⟨channel, hr⟩, i, hi⟩
  exact hboth.2 channel hr i hi

end Cycles

section Gone
open VssCommandProcessor

/-- A channel that may read the speed. -/
def speedListener : KuksaChannel := { permissions := [("Vehicle.OBD.Speed", .str "r")] }

def speedCall : SetCall := ⟨midnight, .fromVSS "Vehicle.OBD.Speed", "value", .int 5⟩

/-- The speed is subscribed to and set: a client is in the loop of its publication. -/
def publishSteps : List LockStep :=
  [.subscribe 0 7 speedListener "Vehicle.OBD.Speed" "value", .acquire 0, .proceed 0,
    .set 1 speedCall, .acquire 1, .proceed 1, .acquire 1]

/-- The publication ends, and the thread takes its entry. -/
def entrySteps : List LockStep :=
  [.acquire 1, .proceed 1, .proceed 1, .proceed 1, .run true, .runnerAcquire]

/-- The speed is set again, and then the thread finds the connection gone. -/
def goneSteps : List LockStep :=
  [.set 1 speedCall, .acquire 1, .proceed 1, .acquire 1, .run false]

def locksStart : LockServer := { db := ⟨speedTree, speedTree⟩ }

/-- The server after these steps. -/
def locksAfter (steps : List LockStep) : LockServer :=
  TransitionSystem.after locksStart (next .selectors .dotted .decimal) steps

/-- A test for steps that keep to the condition. -/
def keepsOutHere (st : LockServer) : LockStep → Bool
  | .acquire _ => decide (st.runner.waits ≠ some .accessMutex)
  | .run connectionexist => connectionexist
  | _ => true

theorem keepsOut_of_here (st : LockServer) (step : LockStep) (h : keepsOutHere st step = true) :
    KeepsOut st step := by
  cases step with
  | acquire i =>
    intro channel p hr _
    simp [keepsOutHere, hr, RunnerPc.waits] at h
  | run connectionexist =>
    intro n _ _ hgone
    simp [keepsOutHere, hgone] at h
  | _ => trivial

theorem not_deadlocked_of_reachable_entry : ∃ st,
    TransitionSystem.exec (next .selectors .dotted .decimal) locksStart
      (publishSteps ++ entrySteps) = some st ∧ ¬ st.locks.Deadlocked := by
  have hsome : (TransitionSystem.exec (next .selectors .dotted .decimal) locksStart
      (publishSteps ++ entrySteps)).isSome = true := by decide +kernel
  obtain ⟨st, hst⟩ := Option.isSome_iff_exists.mp hsome
  refine ⟨st, hst, not_deadlocked_of_reachable .selectors .dotted .decimal
    ⟨speedTree, speedTree⟩ st ?_⟩
  refine TransitionSystem.reachable_of_admits keepsOut_of_here (publishSteps ++ entrySteps)
    (.init rfl) ?_ hst
  decide +kernel

theorem owned_of_reachable {ok : LockServer → LockStep → Prop} {db : VssDatabase}
    (h : (system jp rx nm db).Reachable ok st) : st.Owned := by
  refine h.invariant ?_ ?_
  · rintro _ rfl
    exact owned_init db
  · intro st step st' howned _ hs
    exact howned.next hs

/-- A client in the loop of its publication and the thread wait for each other. -/
theorem deadlock_of_gone : ¬ ∀ (jp : JsonPath) (rx : StdRegex) (nm : Numerics)
    (db : VssDatabase) (st : LockServer),
      (system jp rx nm db).Reachable TransitionSystem.Any st → ¬ st.locks.Deadlocked := by
  intro h
  have hreach : (system .selectors .dotted .decimal ⟨speedTree, speedTree⟩).Reachable
      TransitionSystem.Any (locksAfter (publishSteps ++ entrySteps ++ goneSteps)) :=
    TransitionSystem.after_reachable _ fun _ _ _ => trivial
  have hholds : .subMutex ∈ (locksAfter (publishSteps ++ entrySteps ++ goneSteps)).runner.holds := by
    decide +kernel
  have hwaits : (locksAfter (publishSteps ++ entrySteps ++ goneSteps)).runner.waits =
      some .accessMutex := by decide +kernel
  have hclient : ((locksAfter (publishSteps ++ entrySteps ++ goneSteps)).clients 1).waits =
      some .subMutex := by decide +kernel
  refine h .selectors .dotted .decimal ⟨speedTree, speedTree⟩ _ hreach ?_
  rw [deadlocked_iff (owned_of_reachable hreach)]
  exact ⟨(RunnerPc.holds_waits hholds hwaits).2, 1, ClientPc.waits_subMutex hclient⟩

end Gone

end LockServer
