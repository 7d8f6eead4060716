import Mathlib

/-!
# Unbounded queues with one receiver

The multi-producer, single-consumer channel: items are queued until the receiver is dropped, the
receiver can be taken once, and dropping it discards what is queued and closes the channel. A sender
stays alive for the lifetime of the buffer, so the receiver never sees a disconnect.
-/

namespace BrewDB.Mpsc

universe u

variable {α : Type u}

/-- Where the receiving end is. -/
inductive ReceiverState where
  | held
  | taken
  | dropped
deriving DecidableEq, Repr

/-- The queued items and the receiving end. -/
structure Buffer (α : Type u) where
  queue : List α
  receiver : ReceiverState

namespace Buffer

/-- A new channel. -/
def new : Buffer α := ⟨[], .held⟩

/-- Send an item; fails once the receiver is dropped. -/
def send (buffer : Buffer α) (item : α) : Option (Buffer α) :=
  if buffer.receiver = .dropped then none
  else some { buffer with queue := buffer.queue ++ [item] }

/-- Take the receiving end, once. -/
def take (buffer : Buffer α) : Option (Buffer α) :=
  if buffer.receiver = .held then some { buffer with receiver := .taken } else none

/-- Receive the next item; waits (`none`) while there is none. -/
def recv (buffer : Buffer α) : Option (α × Buffer α) :=
  match buffer.receiver, buffer.queue with
  | .taken, item :: queue => some (item, ⟨queue, .taken⟩)
  | _, _ => none

/-- The closed channel. -/
def closed : Buffer α := ⟨[], .dropped⟩

theorem send_eq_some_iff {buffer buffer' : Buffer α} {item : α} :
    buffer.send item = some buffer' ↔
      buffer.receiver ≠ .dropped ∧ buffer' = { buffer with queue := buffer.queue ++ [item] } := by
  rw [send, Option.ite_none_left_eq_some, Option.some_inj]
  exact and_congr_right fun _ => eq_comm

theorem send_eq_none_iff {buffer : Buffer α} {item : α} :
    buffer.send item = none ↔ buffer.receiver = .dropped := by
  simp [send]

theorem take_eq_some_iff {buffer buffer' : Buffer α} :
    buffer.take = some buffer' ↔
      buffer.receiver = .held ∧ buffer' = { buffer with receiver := .taken } := by
  rw [take, Option.ite_none_right_eq_some, Option.some_inj]
  exact and_congr_right fun _ => eq_comm

theorem take_eq_none_iff {buffer : Buffer α} : buffer.take = none ↔ buffer.receiver ≠ .held := by
  simp [take]

theorem recv_eq_some_iff {buffer buffer' : Buffer α} {item : α} :
    buffer.recv = some (item, buffer') ↔
      buffer = ⟨item :: buffer'.queue, .taken⟩ ∧ buffer'.receiver = .taken := by
  obtain ⟨queue, receiver⟩ := buffer
  obtain ⟨queue', receiver'⟩ := buffer'
  cases receiver <;> cases queue <;> simp [recv, eq_comm, and_assoc]

/-- Take out everything that is queued, as long as the receiving end is held. -/
def drain (buffer : Buffer α) : List α × Buffer α :=
  if buffer.receiver = .held then (buffer.queue, { buffer with queue := [] }) else ([], buffer)

end Buffer

/-! ## Accounts -/

/-- What can be done with a channel. -/
inductive Op (α : Type u) where
  | send (item : α)
  | drain
  | take
  | recv
  | drop

/-- A channel, with all that was sent through it and all that came out of it. -/
structure Account (α : Type u) where
  buffer : Buffer α
  sent : List α
  received : List α

namespace Account

/-- A new channel. -/
def new : Account α := ⟨.new, [], []⟩

/-- Do it, where it can be done. -/
def apply (account : Account α) : Op α → Account α
  | .send item =>
      match account.buffer.send item with
      | some buffer => { account with buffer := buffer, sent := account.sent ++ [item] }
      | none => account
  | .drain =>
      { account with buffer := account.buffer.drain.2, received := account.received ++ account.buffer.drain.1 }
  | .take =>
      match account.buffer.take with
      | some buffer => { account with buffer := buffer }
      | none => account
  | .recv =>
      match account.buffer.recv with
      | some (item, buffer) => { account with buffer := buffer, received := account.received ++ [item] }
      | none => account
  | .drop => if account.buffer.receiver = .taken then { account with buffer := .closed } else account

/-- Nothing is lost, doubled or out of order: until the receiving end is dropped, what was sent has come out or is queued;
after that, nothing more is sent or comes out. -/
structure Fifo (account : Account α) : Prop where
  queued : account.buffer.receiver ≠ .dropped → account.sent = account.received ++ account.buffer.queue
  dropped : account.buffer.receiver = .dropped → account.buffer.queue = []
  inOrder : account.received <+: account.sent

theorem Fifo.new : (new : Account α).Fifo where
  queued _ := rfl
  dropped := nofun
  inOrder := List.prefix_rfl

theorem apply_drain_of_ne {account : Account α} (h : account.buffer.receiver ≠ .held) :
    account.apply .drain = account := by
  obtain ⟨buffer, sent, received⟩ := account
  have hdrain : buffer.drain = ([], buffer) := if_neg h
  simp only [Account.apply, hdrain, List.append_nil]

/-- Every operation keeps the order. -/
theorem Fifo.apply {account : Account α} (h : account.Fifo) (op : Op α) : (account.apply op).Fifo := by
  obtain ⟨⟨queue, receiver⟩, sent, received⟩ := account
  obtain ⟨hqueued, hdropped, horder⟩ := h
  dsimp only at hqueued hdropped horder
  cases op with
  | send item =>
      cases receiver with
      | dropped => exact ⟨hqueued, hdropped, horder⟩
      | held | taken =>
          refine ⟨fun _ => ?_, nofun, horder.trans (List.prefix_append sent [item])⟩
          show sent ++ [item] = received ++ (queue ++ [item])
          rw [hqueued nofun, List.append_assoc]
  | drain =>
      cases receiver with
      | held =>
          have hall := hqueued nofun
          refine ⟨fun _ => ?_, nofun, ?_⟩
          · show sent = received ++ queue ++ []
            rw [hall, List.append_nil]
          · show received ++ queue <+: sent
            rw [hall]
      | taken =>
          rw [apply_drain_of_ne (show ReceiverState.taken ≠ .held from nofun)]
          exact ⟨hqueued, hdropped, horder⟩
      | dropped =>
          rw [apply_drain_of_ne (show ReceiverState.dropped ≠ .held from nofun)]
          exact ⟨hqueued, hdropped, horder⟩
  | take =>
      cases receiver with
      | held => exact ⟨fun _ => hqueued nofun, nofun, horder⟩
      | taken | dropped => exact ⟨hqueued, hdropped, horder⟩
  | recv =>
      cases receiver with
      | taken =>
          cases queue with
          | nil => exact ⟨hqueued, hdropped, horder⟩
          | cons item queue =>
              have hall := hqueued nofun
              refine ⟨fun _ => ?_, nofun, ?_⟩
              · show sent = received ++ [item] ++ queue
                rw [hall, List.append_assoc, List.singleton_append]
              · show received ++ [item] <+: sent
                exact ⟨queue, by rw [hall, List.append_assoc, List.singleton_append]⟩
      | held | dropped => exact ⟨hqueued, hdropped, horder⟩
  | drop =>
      cases receiver with
      | taken => exact ⟨fun hopen => absurd rfl hopen, fun _ => rfl, horder⟩
      | held | dropped => exact ⟨hqueued, hdropped, horder⟩

/-- So does every run. -/
theorem Fifo.foldl {account : Account α} (h : account.Fifo) (ops : List (Op α)) : (ops.foldl Account.apply account).Fifo := by
  induction ops generalizing account with
  | nil => exact h
  | cons op ops ih => exact ih (h.apply op)

end Account

end BrewDB.Mpsc
