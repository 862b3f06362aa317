import KuksaVal.Runs
import Mathlib.Data.List.Basic

/-! The output queue of a WebSocket session: messages are written from any thread, and the first
one of the queue stays there until its transmission has completed. -/

/-- The bytes of a message. -/
abbrev Message := List UInt8

/-- What a completion reports; a write is aborted when the timer closes the socket. -/
inductive ErrorCode where
  | success
  | operationAborted
  | other
  deriving DecidableEq

/-- The queue and the transmit buffer, the operations on the stream that have not completed with
the bytes given to each, and the messages that were sent and those that were written so far. -/
structure WebSocketSession where
  writeQueue : List Message := []
  bufferWrite : Message := []
  outstanding : List Message := []
  sent : List Message := []
  written : List Message := []
  clientRemoved : Bool := false
  deriving DecidableEq

inductive SessionEvent where
  | write (message : Message)
  | completion (i : ℕ) (ec : ErrorCode) (bytesTransferred : ℕ)
  deriving DecidableEq

namespace SessionEvent

/-- A completion without an error. -/
def Succeeds : SessionEvent → Prop
  | write _ => True
  | completion _ ec _ => ec = .success

/-- The argument of a call of `write`. -/
def argument : SessionEvent → Option Message
  | write message => some message
  | completion _ _ _ => none

end SessionEvent

namespace WebSocketSession

variable (s : WebSocketSession)

/-- The contents of the buffer are given to the stream. -/
def asyncWrite : WebSocketSession := { s with outstanding := s.outstanding ++ [s.bufferWrite] }

/-- A message is copied behind what is in the buffer. -/
def transmit (message : Message) : WebSocketSession :=
  asyncWrite { s with bufferWrite := s.bufferWrite ++ message }

def write (message : Message) : WebSocketSession :=
  let s := { s with
    writeQueue := s.writeQueue ++ [message]
    written := s.written ++ [message] }
  if s.writeQueue.length > 1 then s else s.transmit message

def consume (bytesTransferred : ℕ) : WebSocketSession :=
  { s with bufferWrite := s.bufferWrite.drop bytesTransferred }

/-- What `onWrite` does under the lock. -/
def writeNext : WebSocketSession :=
  let s := { s with writeQueue := s.writeQueue.tail }
  match s.writeQueue with
  | [] => s
  | message :: _ => s.transmit message

def onWrite (ec : ErrorCode) (bytesTransferred : ℕ) : WebSocketSession :=
  match ec with
  | .operationAborted => s
  | .other => { s with clientRemoved := true }
  | .success => (s.consume bytesTransferred).writeNext

/-- The bytes of an operation are off, where it succeeded. -/
def leave (i : ℕ) (op : Message) (ec : ErrorCode) : WebSocketSession :=
  { s with
    outstanding := s.outstanding.eraseIdx i
    sent := if ec = .success then s.sent ++ [op] else s.sent }

/-- One of the operations completes, and its handler runs. -/
def next : SessionEvent → Option WebSocketSession
  | .write message => some (s.write message)
  | .completion i ec bytesTransferred =>
      (s.outstanding[i]?).map fun op => (s.leave i op ec).onWrite ec bytesTransferred

/-- All runs of a session to which nothing was written. -/
def system : TransitionSystem WebSocketSession SessionEvent := .ofNext {} next

/-- An operation that succeeds has transferred all bytes it was given. -/
def TransfersAll : SessionEvent → Prop
  | .write _ => True
  | .completion i ec bytesTransferred =>
      ec = .success → ∀ op, s.outstanding[i]? = some op → bytesTransferred = op.length

/-- The buffer holds the front of the queue, which alone may be in flight; nothing is lost. -/
structure Fifo : Prop where
  buffer : s.bufferWrite = s.writeQueue.head?.getD []
  outstanding : s.outstanding = [] ∨ s.outstanding = s.writeQueue.head?.toList
  order : s.sent ++ s.writeQueue = s.written

/-- The front of the queue is in flight. -/
def Busy : Prop := s.outstanding = s.writeQueue.head?.toList

variable {s} {s' : WebSocketSession}

theorem write_of_nil {message : Message} (h : s.writeQueue = []) :
    s.write message = { s with
      writeQueue := [message]
      written := s.written ++ [message]
      bufferWrite := s.bufferWrite ++ message
      outstanding := s.outstanding ++ [s.bufferWrite ++ message] } := by
  simp [write, transmit, asyncWrite, h]

theorem write_of_cons {message first : Message} {rest : List Message}
    (h : s.writeQueue = first :: rest) :
    s.write message = { s with
      writeQueue := first :: (rest ++ [message])
      written := s.written ++ [message] } := by
  simp [write, h]

/-- Writing keeps the queue in order. -/
theorem Fifo.write (h : s.Fifo) (message : Message) : (s.write message).Fifo := by
  obtain ⟨hbuffer, hout, horder⟩ := h
  cases hq : s.writeQueue with
  | nil =>
    rw [hq] at hbuffer hout horder
    rw [write_of_nil hq]
    have hempty : s.outstanding = [] := hout.elim id id
    simp only [List.head?_nil, Option.getD_none] at hbuffer
    refine ⟨?_, Or.inr ?_, ?_⟩
    · simp [hbuffer]
    · simp [hbuffer, hempty]
    · simp [← horder]
  | cons first rest =>
    rw [hq] at hbuffer hout horder
    rw [write_of_cons hq]
    refine ⟨hbuffer, hout, ?_⟩
    simp [← horder]

theorem Busy.write (h : s.Fifo) (hb : s.Busy) (message : Message) : (s.write message).Busy := by
  unfold Busy at hb ⊢
  cases hq : s.writeQueue with
  | nil =>
    have hbuffer := h.buffer
    rw [hq] at hb hbuffer
    rw [write_of_nil hq]
    simp_all
  | cons first rest =>
    rw [hq] at hb
    rw [write_of_cons hq]
    exact hb

/-- Only the front of the queue can complete. -/
theorem Fifo.front (h : s.Fifo) {i : ℕ} {op : Message} (ho : s.outstanding[i]? = some op) :
    i = 0 ∧ s.outstanding = [op] ∧ ∃ rest, s.writeQueue = op :: rest := by
  have hout := h.outstanding
  cases hq : s.writeQueue with
  | nil =>
    simp only [hq, List.head?_nil, Option.toList_none, or_self] at hout
    simp [hout] at ho
  | cons first rest =>
    simp only [hq, List.head?_cons, Option.toList_some] at hout
    rcases hout with hout | hout
    · simp [hout] at ho
    · rw [hout] at ho
      obtain ⟨hi, rfl⟩ := List.getElem?_eq_some_iff.mp ho
      obtain rfl : i = 0 := by simpa using hi
      exact ⟨rfl, hout, rest, rfl⟩

/-- The message after the completed one is put in flight. -/
theorem writeNext_of_cons {first : Message} {rest : List Message}
    (hq : s.writeQueue = first :: rest) (hb : s.bufferWrite = []) (ho : s.outstanding = []) :
    s.writeNext = { s with
      writeQueue := rest
      bufferWrite := rest.head?.getD []
      outstanding := rest.head?.toList } := by
  cases rest with
  | nil => simp [writeNext, hq, hb, ho]
  | cons message rest => simp [writeNext, transmit, asyncWrite, hq, hb, ho]

/-- The front of the queue has been sent. -/
def shift (s : WebSocketSession) (op : Message) (rest : List Message) : WebSocketSession :=
  { s with
    writeQueue := rest
    bufferWrite := rest.head?.getD []
    outstanding := rest.head?.toList
    sent := s.sent ++ [op] }

theorem Fifo.completion (h : s.Fifo) {op : Message} {rest : List Message}
    (ho : s.outstanding = [op]) (hq : s.writeQueue = op :: rest) :
    (s.leave 0 op .success).onWrite .success op.length = s.shift op rest := by
  have hb : s.bufferWrite = op := by simpa [hq] using h.buffer
  have hnext := writeNext_of_cons (s := (s.leave 0 op .success).consume op.length)
    hq (by simp [consume, leave, hb]) (by simp [consume, leave, ho])
  change ((s.leave 0 op .success).consume op.length).writeNext = _
  rw [hnext]
  rfl

theorem Fifo.shift (h : s.Fifo) {op : Message} {rest : List Message}
    (hq : s.writeQueue = op :: rest) : (s.shift op rest).Fifo := by
  refine ⟨rfl, Or.inr rfl, ?_⟩
  have horder := h.order
  rw [hq] at horder
  simpa [WebSocketSession.shift] using horder

/-- What one event does to a queue in order. -/
theorem Fifo.next_cases (h : s.Fifo) {e : SessionEvent} (ht : s.TransfersAll e)
    (hs : s.next e = some s') :
    (∃ message, e = .write message ∧ s' = s.write message) ∨
    (∃ op rest, e = .completion 0 .success op.length ∧ s.outstanding = [op] ∧
      s.writeQueue = op :: rest ∧ s' = s.shift op rest) ∨
    ∃ i ec n, e = .completion i ec n ∧ ec ≠ .success ∧
      s' = { s with outstanding := [], clientRemoved := s.clientRemoved || ec = .other } := by
  cases e with
  | write message =>
    obtain rfl : s.write message = s' := Option.some.inj hs
    exact Or.inl ⟨message, rfl, rfl⟩
  | completion i ec bytesTransferred =>
    obtain ⟨op, ho, rfl⟩ := Option.map_eq_some_iff.mp hs
    obtain ⟨rfl, hout, rest, hq⟩ := h.front ho
    right
    cases ec with
    | success =>
      obtain rfl : bytesTransferred = op.length := ht rfl op ho
      exact Or.inl ⟨op, rest, rfl, hout, hq, h.completion hout hq⟩
    | operationAborted =>
      right
      refine ⟨0, .operationAborted, bytesTransferred, rfl, by decide, ?_⟩
      simp [onWrite, leave, hout]
    | other =>
      right
      refine ⟨0, .other, bytesTransferred, rfl, by decide, ?_⟩
      simp [onWrite, leave, hout]

theorem Fifo.next (h : s.Fifo) {e : SessionEvent} (ht : s.TransfersAll e)
    (hs : s.next e = some s') : s'.Fifo := by
  rcases h.next_cases ht hs with ⟨message, -, rfl⟩ | ⟨op, rest, -, -, hq, rfl⟩ |
    ⟨i, ec, n, -, -, rfl⟩
  · exact h.write message
  · exact h.shift hq
  · exact ⟨h.buffer, Or.inl rfl, h.order⟩

theorem Busy.next (h : s.Fifo) (hb : s.Busy) {e : SessionEvent} (ht : s.TransfersAll e)
    (hok : e.Succeeds) (hs : s.next e = some s') : s'.Busy := by
  rcases h.next_cases ht hs with ⟨message, -, rfl⟩ | ⟨op, rest, -, -, -, rfl⟩ |
    ⟨i, ec, n, rfl, hec, -⟩
  · exact hb.write h message
  · rfl
  · exact absurd hok hec

/-- The queue stays in order in every run, also when operations fail. -/
theorem fifo_of_reachable (h : system.Reachable TransfersAll s) : s.Fifo := by
  apply h.invariant
  · rintro s rfl
    exact ⟨rfl, Or.inl rfl, rfl⟩
  · intro s e s' hf ht hs
    exact hf.next ht hs

/-- While operations succeed, the front of the queue is in flight. -/
theorem busy_of_reachable (h : system.Reachable (fun s e => s.TransfersAll e ∧ e.Succeeds) s) :
    s.Fifo ∧ s.Busy := by
  apply h.invariant (I := fun s => s.Fifo ∧ s.Busy)
  · rintro s rfl
    exact ⟨⟨rfl, Or.inl rfl, rfl⟩, rfl⟩
  · intro s e s' hf hok hs
    exact ⟨hf.1.next hok.1 hs, hf.2.next hf.1 hok.1 hok.2 hs⟩

theorem write_written (message : Message) :
    (s.write message).written = s.written ++ [message] := by
  cases hq : s.writeQueue with
  | nil => rw [write_of_nil hq]
  | cons first rest => rw [write_of_cons hq]

theorem onWrite_written (ec : ErrorCode) (bytesTransferred : ℕ) :
    (s.onWrite ec bytesTransferred).written = s.written := by
  cases ec with
  | success =>
    simp only [onWrite, writeNext, consume]
    split <;> rfl
  | operationAborted => rfl
  | other => rfl

/-- What counts as written are the arguments of the calls, in their order. -/
theorem written_of_exec (es : List SessionEvent)
    (he : TransitionSystem.exec WebSocketSession.next s es = some s') :
    s'.written = s.written ++ es.filterMap SessionEvent.argument := by
  induction es generalizing s with
  | nil =>
    obtain rfl : s = s' := Option.some.inj he
    simp
  | cons e es ih =>
    obtain ⟨t, ht, he⟩ := Option.bind_eq_some_iff.mp he
    rw [ih he]
    cases e with
    | write message =>
      obtain rfl : s.write message = t := Option.some.inj ht
      simp [write_written, SessionEvent.argument]
    | completion i ec n =>
      obtain ⟨op, -, rfl⟩ := Option.map_eq_some_iff.mp ht
      simp [onWrite_written, leave, List.filterMap_cons, SessionEvent.argument]

/-- At most one write is in flight, whenever the queue has a message, and it is the front of the
queue; what was sent and what waits is what was written, in this order: the arguments of the calls
of `write` in the run. -/
theorem writes_in_order (h : system.Reachable (fun s e => s.TransfersAll e ∧ e.Succeeds) s) :
    s.outstanding.length ≤ 1 ∧ (s.outstanding ≠ [] ↔ s.writeQueue ≠ []) ∧
      (∀ op ∈ s.outstanding, s.writeQueue.head? = some op) ∧
      s.sent ++ s.writeQueue = s.written ∧
      ∀ es, TransitionSystem.exec WebSocketSession.next {} es = some s →
        s.written = es.filterMap SessionEvent.argument := by
  obtain ⟨hf, hb⟩ := busy_of_reachable h
  unfold Busy at hb
  rw [hb]
  refine ⟨?_, ?_, ?_, hf.order, fun es he => written_of_exec es he⟩
  · cases s.writeQueue.head? <;> simp
  · cases s.writeQueue <;> simp
  · intro op hop
    simpa using hop

/-- Two messages are written, the first is sent, and one more is written. -/
def threeWrites : List SessionEvent :=
  [.write [1, 2], .write [3], .completion 0 .success 2, .write [4]]

/-- The events of a list, each of which transfers all bytes and succeeds where it happens. -/
def checksAll (s : WebSocketSession) : SessionEvent → Bool
  | .write _ => true
  | .completion i ec n => ec = .success && (s.outstanding[i]?).all fun op => n == op.length

theorem transfersAll_of_check (s : WebSocketSession) (e : SessionEvent)
    (h : checksAll s e = true) : s.TransfersAll e ∧ e.Succeeds := by
  cases e with
  | write message => exact ⟨trivial, trivial⟩
  | completion i ec n =>
    simp only [checksAll, Bool.and_eq_true, decide_eq_true_eq] at h
    refine ⟨fun _ op ho => ?_, h.1⟩
    simpa [ho] using h.2

theorem writes_in_order_threeWrites :
    (TransitionSystem.after {} next threeWrites).sent ++
      (TransitionSystem.after {} next threeWrites).writeQueue = [[1, 2], [3], [4]] := by
  have hrun : TransitionSystem.exec next {} threeWrites =
      some (TransitionSystem.after {} next threeWrites) :=
    TransitionSystem.exec_eq_some_after (by decide)
  obtain ⟨-, -, -, horder, hwritten⟩ := writes_in_order (TransitionSystem.reachable_of_admits
    transfersAll_of_check threeWrites (.init rfl) (by decide) hrun)
  rw [horder, hwritten threeWrites hrun]
  rfl

end WebSocketSession

/-! The handler of a completion clears the buffer before it takes the lock. -/

/-- A session, and the operation whose handler has cleared the buffer and waits for the lock. -/
structure SplitSession where
  session : WebSocketSession := {}
  cleared : Option Message := none

inductive SplitEvent where
  | write (message : Message)
  | clear (bytesTransferred : ℕ)
  | lock

namespace SplitSession
open WebSocketSession

variable (t : SplitSession)

/-- One handler runs at a time; other threads write between its parts. -/
def next : SplitEvent → Option SplitSession
  | .write message => some { t with session := t.session.write message }
  | .clear bytesTransferred =>
      match t.cleared, t.session.outstanding with
      | none, op :: ops => some
          { session := { t.session with outstanding := ops }.consume bytesTransferred
            cleared := some op }
      | _, _ => none
  | .lock =>
      t.cleared.map fun op =>
        { session := { t.session with sent := t.session.sent ++ [op] }.writeNext
          cleared := none }

def system : TransitionSystem SplitSession SplitEvent := .ofNext {} next

def TransfersAll : SplitEvent → Prop
  | .clear bytesTransferred =>
      ∀ op ops, t.session.outstanding = op :: ops → bytesTransferred = op.length
  | _ => True

/-- The session with the completion not begun. -/
def whole : WebSocketSession :=
  match t.cleared with
  | none => t.session
  | some op => { t.session with
      outstanding := op :: t.session.outstanding
      bufferWrite := op ++ t.session.bufferWrite }

variable {t} {t' : SplitSession}

theorem whole_of_none (hc : t.cleared = none) : t.whole = t.session := by
  simp only [whole, hc]

/-- While a handler waits, the message that it completed is still the front of the queue. -/
theorem front_of_cleared (hf : t.whole.Fifo) {op : Message} (hc : t.cleared = some op) :
    ∃ rest, t.session.writeQueue = op :: rest := by
  have ho : t.whole.outstanding[0]? = some op := by simp [whole, hc]
  obtain ⟨-, -, rest, hq⟩ := hf.front ho
  refine ⟨rest, ?_⟩
  simpa [whole, hc] using hq

/-- The parts of a step do together what the step does, the first one by itself nothing. -/
theorem next_whole (hf : t.whole.Fifo) {e : SplitEvent} (ht : t.TransfersAll e)
    (hs : t.next e = some t') :
    t'.whole = t.whole ∨
      ∃ e', t.whole.TransfersAll e' ∧ e'.Succeeds ∧ t.whole.next e' = some t'.whole := by
  cases e with
  | write message =>
    right
    refine ⟨.write message, trivial, trivial, ?_⟩
    obtain rfl := Option.some.inj hs
    cases hc : t.cleared with
    | none => simp only [whole, hc, WebSocketSession.next]
    | some op =>
      obtain ⟨rest, hq⟩ := front_of_cleared hf hc
      have hw : t.whole.writeQueue = op :: rest := by simp [whole, hc, hq]
      rw [WebSocketSession.next, write_of_cons hw, write_of_cons hq]
      simp only [whole, hc]
  | clear n =>
    left
    cases hc : t.cleared with
    | some op => simp [next, hc] at hs
    | none =>
      cases ho : t.session.outstanding with
      | nil => simp [next, hc, ho] at hs
      | cons op ops =>
        simp only [next, hc, ho, Option.some.injEq] at hs
        subst hs
        rw [whole_of_none hc] at hf ⊢
        have hfirst : t.session.outstanding[0]? = some op := by simp [ho]
        obtain ⟨-, hout, rest, hq⟩ := hf.front hfirst
        have hb : t.session.bufferWrite = op := by simpa [hq] using hf.buffer
        have hn : n = op.length := ht op ops ho
        simp only [whole, consume]
        rw [hn, hb, ← ho, List.drop_length, List.append_nil, ← hb]
  | lock =>
    right
    obtain ⟨op, hc, rfl⟩ := Option.map_eq_some_iff.mp hs
    refine ⟨.completion 0 .success op.length, ?_, rfl, ?_⟩
    · intro _ op' ho
      have heq : op = op' := by simpa [whole, hc] using ho
      rw [heq]
    · simp only [whole, hc, WebSocketSession.next, leave, onWrite, consume, List.getElem?_cons_zero,
        Option.map_some, List.eraseIdx_cons_zero, List.drop_left, if_pos]

/-- A run of the parts is a run of the steps. -/
theorem whole_reachable (h : system.Reachable TransfersAll t) :
    WebSocketSession.system.Reachable (fun s e => s.TransfersAll e ∧ e.Succeeds) t.whole := by
  induction h with
  | init h =>
    obtain rfl := h
    exact .init rfl
  | step _ hok hs ih =>
    rcases next_whole (busy_of_reachable ih).1 hok hs with heq | ⟨e, ht, hok, hs⟩
    · exact heq ▸ ih
    · exact .step ih ⟨ht, hok⟩ hs

/-- Writes between the parts of a handler do not come before what was written earlier. -/
theorem sent_append_writeQueue (h : system.Reachable TransfersAll t) :
    t.session.sent ++ t.session.writeQueue = t.session.written := by
  have horder := (busy_of_reachable (whole_reachable h)).1.order
  cases hc : t.cleared with
  | none => rwa [whole_of_none hc] at horder
  | some op => simpa only [whole, hc] using horder

end SplitSession
