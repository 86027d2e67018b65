/-!
# `KubeAtlas.Lib.Channel`: buffered channels

A Go channel with a buffer, for the operations that never wait: a
send in a `select` with a default branch, a receive in such a
`select`, and `close`. A receive that does wait is one that is not
made while the outcome would be `empty`.
-/

set_option autoImplicit false

namespace KubeAtlas.Lib

/-- A channel that holds up to `capacity` values. -/
structure Channel (α : Type) where
  capacity : Nat
  buffer : List α := []
  closed : Bool := false

namespace Channel

variable {α : Type}

/-- What a send does. -/
inductive Sent (α : Type) where
  | sent (ch : Channel α)
  | full
  | panics

/-- What a receive does. From a closed channel that is drained it
gets the zero value. -/
inductive Received (α : Type) where
  | received (a : α) (ch : Channel α)
  | zero
  | empty

/-- `case ch <- a`. -/
def send (ch : Channel α) (a : α) : Sent α :=
  if ch.closed then .panics
  else if ch.buffer.length < ch.capacity then .sent { ch with buffer := ch.buffer ++ [a] }
  else .full

/-- `case a := <-ch`. -/
def receive (ch : Channel α) : Received α :=
  match ch.buffer with
  | a :: rest => .received a { ch with buffer := rest }
  | [] => if ch.closed then .zero else .empty

/-- `close(ch)`, for a channel that is open. -/
def close (ch : Channel α) : Channel α := { ch with closed := true }

/-- A send panics on a closed channel, and otherwise fails on a full
one or appends. -/
theorem send_cases (ch : Channel α) (a : α) :
    ch.closed = true ∧ ch.send a = .panics ∨ ch.closed = false ∧
      (ch.send a = .full ∨ ch.send a = .sent { ch with buffer := ch.buffer ++ [a] }) := by
  unfold send
  cases hclosed : ch.closed with
  | true => simp
  | false => by_cases hroom : ch.buffer.length < ch.capacity <;> simp [hroom]

/-- A receive takes the oldest value, and on an empty buffer tells
whether the channel is closed. -/
theorem receive_cases (ch : Channel α) :
    (∃ a rest, ch.buffer = a :: rest ∧ ch.receive = .received a { ch with buffer := rest }) ∨
      ch.buffer = [] ∧ (ch.closed = true ∧ ch.receive = .zero ∨
        ch.closed = false ∧ ch.receive = .empty) := by
  unfold receive
  cases hbuffer : ch.buffer with
  | cons a rest => exact .inl ⟨a, rest, rfl, rfl⟩
  | nil => cases hclosed : ch.closed <;> simp

end Channel

end KubeAtlas.Lib
